import Coaty.Db.Postgres.JsonpathReading
import Coaty.Db.Postgres.Quoting

/-!
# Untrusted values in SQL text

Whatever strings, keys and operands are put into SQL text, the database server reads back exactly these and then goes on with the text behind them. It must not go on with another quote behind blanks and comments, and it does not keep more than 63 bytes of an identifier.
-/

namespace Coaty

namespace Postgres

open Js Lexing

/-! ### Jsonpath expressions in SQL text -/

theorem doubled_append (q : UInt16) (s t : Text) : doubled q (s ++ t) = doubled q s ++ doubled q t := List.flatMap_append

theorem doubled_cons_of_ne {q c : UInt16} (h : c ≠ q) (s : Text) : doubled q (c :: s) = c :: doubled q s := by
  rw [doubled_cons, if_neg h, List.singleton_append]

theorem asJsonpathLiteral_true (x : Text) : asJsonpathLiteral x true = doubled singleQuote x := by
  simp [asJsonpathLiteral, doubled]

theorem asJsonpathLiteral_false (key : Text) :
    asJsonpathLiteral key false = doubled singleQuote (doubleQuote :: escapeKey key ++ [doubleQuote]) := by
  have hquote : doubled singleQuote [doubleQuote] = [doubleQuote] := by decide
  have hne : singleQuote ≠ backslash ∧ singleQuote ≠ doubleQuote ∧ backslash ≠ singleQuote := by decide
  have hkey : (key.flatMap fun c => if c = singleQuote then [c, c]
      else if !false && (c = backslash || c = doubleQuote) then [backslash, c] else [c]) =
      doubled singleQuote (escapeKey key) := by
    rw [doubled, escapeKey, List.flatMap_assoc]
    congr 1
    funext c
    by_cases hc : c = singleQuote
    · simp [hc, hne]
    · by_cases hspecial : c = backslash ∨ c = doubleQuote
      · simp [hc, hspecial, hne]
      · simp [hc, hspecial]
  rw [asJsonpathLiteral, hkey, ← List.singleton_append, doubled_append, doubled_append, hquote]
  rfl

theorem cons_intercalate (keys : List Text) (key : Text) :
    unit '.' :: (text ".").intercalate ((key :: keys).map fun p => asJsonpathLiteral p false) =
      doubled singleQuote (quotedKeys (key :: keys)) := by
  have hdot : unit '.' ≠ singleQuote := by decide
  have hcons : ∀ key keys, doubled singleQuote (quotedKeys (key :: keys)) =
      unit '.' :: (asJsonpathLiteral key false ++ doubled singleQuote (quotedKeys keys)) := by
    intro key keys
    rw [quotedKeys, List.flatMap_cons, doubled_append, doubled_cons_of_ne hdot, ← asJsonpathLiteral_false,
      List.cons_append]
    rfl
  induction keys generalizing key with
  | nil =>
    rw [hcons]
    simp [quotedKeys, doubled]
  | cons next keys ih =>
    have hnext := ih next
    rw [List.map_cons] at hnext
    rw [hcons, ← hnext, List.map_cons, List.map_cons, List.intercalate_cons_cons]
    simp [text]

theorem getJsonpathKeys_eq (keys : List Text) :
    getJsonpathKeys keys = doubled singleQuote (unit '$' :: quotedKeys keys) := by
  have hdollar : unit '$' ≠ singleQuote := by decide
  cases keys with
  | nil => rfl
  | cons key keys =>
    have hne : (text ".").intercalate ((key :: keys).map fun p => asJsonpathLiteral p false) ≠ [] := by
      cases keys with
      | nil => simp [asJsonpathLiteral]
      | cons next keys => simp [asJsonpathLiteral, List.intercalate_cons_cons]
    rw [getJsonpathKeys]
    simp only [if_neg hne]
    rw [doubled_cons_of_ne hdollar, ← cons_intercalate]
    rfl

theorem jsonpathText_eq (e : JsonpathExpression JsonPrimitive) : jsonpathText e = doubled singleQuote (contentText e) := by
  cases e with
  | comparison keys operator operand =>
    have hoperator : doubled singleQuote operator.toText = operator.toText := by
      cases operator with
      | _ => decide
    simp only [jsonpathText, contentText, getJsonpathKeys_eq, asJsonpathLiteral_true, ← List.cons_append, doubled_append, hoperator,
      List.append_assoc]
    rfl
  | existence keys isNegated =>
    simp only [jsonpathText, contentText, getJsonpathKeys_eq, ← List.cons_append, doubled_append, List.append_assoc]
    cases isNegated with
    | _ => rfl
  | likeRegex keys pattern =>
    simp only [jsonpathText, contentText, getJsonpathKeys_eq, asJsonpathLiteral_true, ← List.cons_append, doubled_append, List.append_assoc,
      JsonPrimitive.stringify]
    rfl
  | interval keys isNegated lower upper =>
    cases isNegated with
    | _ =>
      simp only [jsonpathText, contentText, getJsonpathKeys_eq, asJsonpathLiteral_true, ← List.cons_append, doubled_append,
        List.append_assoc]
      rfl

/-! ### The code unit 0 -/

theorem zero_notMem_of_isDigit {s : Text} (hs : ∀ c ∈ s, isDigit c = true) : 0 ∉ s := by
  intro h
  exact absurd (hs 0 h) (by decide)

theorem zero_notMem_unicodeEscape (c : UInt16) : 0 ∉ unicodeEscape c := by
  have hdigit : ∀ n < 16, hexDigit n ≠ 0 := by decide
  have hbound : c.toNat < 65536 := c.toNat_lt
  have hfront : 0 ∉ text "\\u" := by decide
  simp only [unicodeEscape, List.mem_append, List.mem_cons, List.not_mem_nil, or_false, not_or]
  exact ⟨hfront, (hdigit _ (by omega)).symm, (hdigit _ (by omega)).symm, (hdigit _ (by omega)).symm,
    (hdigit _ (by omega)).symm⟩

theorem zero_notMem_escapeUnit (c : UInt16) : 0 ∉ escapeUnit c := by
  by_cases hzero : c = 0
  · subst hzero
    decide
  · rw [escapeUnit]
    split_ifs with h
    all_goals first | decide | exact zero_notMem_unicodeEscape c | simpa using Ne.symm hzero

theorem zero_notMem_escapeUnits (s : Text) : 0 ∉ escapeUnits s := by
  have hhigh : ¬ isHighSurrogate 0 = true := by decide
  have hlow : ¬ isLowSurrogate 0 = true := by decide
  fun_induction escapeUnits s with
  | case1 => simp
  | case2 c _ => exact zero_notMem_unicodeEscape c
  | case3 c hc d s hd ih =>
    have hfirst : (0 : UInt16) ≠ c := fun h => hhigh (h ▸ hc)
    have hsecond : (0 : UInt16) ≠ d := fun h => hlow (h ▸ hd)
    simp [hfirst, hsecond, ih]
  | case4 c _ d s _ ih => simp [zero_notMem_unicodeEscape c, ih]
  | case5 c s _ _ ih => simp [zero_notMem_unicodeEscape c, ih]
  | case6 c s _ _ ih => simp [zero_notMem_escapeUnit c, ih]

theorem zero_notMem_jsonString (s : Text) : 0 ∉ jsonString s := by
  simp [jsonString, zero_notMem_escapeUnits s]

theorem zero_notMem_decimal (n : Nat) : 0 ∉ decimal n := zero_notMem_of_isDigit fun _ hc => isDigit_of_mem_decimal hc

theorem zero_notMem_exponentText (e : Int) : 0 ∉ exponentText e := by
  have hletter : (0 : UInt16) ≠ unit 'e' := by decide
  have hplus : (0 : UInt16) ≠ unit '+' := by decide
  have hminus : (0 : UInt16) ≠ unit '-' := by decide
  rw [exponentText]
  split_ifs
  all_goals simp [hletter, hplus, hminus, zero_notMem_decimal]

theorem zero_notMem_mantissa {s : Text} (hs : 0 ∉ s) : 0 ∉ mantissa s := by
  have hdot : (0 : UInt16) ≠ unit '.' := by decide
  cases s with
  | nil => simp [mantissa]
  | cons c s =>
    cases s with
    | nil => simpa [mantissa] using hs
    | cons d s => simpa [mantissa, hdot] using hs

theorem zero_notMem_unsignedText (n : ShortestDecimal) : 0 ∉ n.unsignedText := by
  have hdigits : 0 ∉ n.digits := zero_notMem_decimal _
  have hzeros : ∀ k, 0 ∉ zeros k := fun k hk => absurd (List.eq_of_mem_replicate hk) (by decide)
  have hdot : (0 : UInt16) ≠ unit '.' := by decide
  have hfront : 0 ∉ text "0." := by decide
  rw [ShortestDecimal.unsignedText]
  split_ifs
  · simp [hdigits, hzeros]
  · simp only [List.mem_append, List.mem_cons, not_or]
    exact ⟨fun h => hdigits (List.mem_of_mem_take h), hdot, fun h => hdigits (List.mem_of_mem_drop h)⟩
  · simp [hfront, hzeros, hdigits]
  · simp [zero_notMem_mantissa hdigits, zero_notMem_exponentText]

theorem zero_notMem_stringify (x : JsonPrimitive) : 0 ∉ x.stringify := by
  have hminus : (0 : UInt16) ≠ unit '-' := by decide
  cases x with
  | null => decide
  | bool b => cases b with | _ => decide
  | string s => exact zero_notMem_jsonString s
  | number n =>
    cases n with
    | zero => decide
    | nonzero n =>
      simp only [JsonPrimitive.stringify, Numeral.toText, ShortestDecimal.toText]
      split_ifs
      · simp [hminus, zero_notMem_unsignedText]
      · exact zero_notMem_unsignedText n

theorem zero_notMem_quotedKeys {keys : List Text} (hkeys : ∀ key ∈ keys, IsStorable key) : 0 ∉ quotedKeys keys := by
  have hpunctuation : (0 : UInt16) ≠ unit '.' ∧ (0 : UInt16) ≠ doubleQuote ∧ (0 : UInt16) ≠ backslash := by decide
  obtain ⟨hdot, hquote, hbackslash⟩ := hpunctuation
  intro h
  obtain ⟨key, hkey, hmem⟩ := List.mem_flatMap.mp h
  simp only [List.mem_cons, List.mem_append, hdot, hquote, false_or, List.not_mem_nil, or_false] at hmem
  obtain ⟨c, hc, hunit⟩ := List.mem_flatMap.mp hmem
  have hne : c ≠ 0 := fun h => (hkeys key hkey).2 (h ▸ hc)
  split_ifs at hunit
  · simp [hbackslash, hne.symm] at hunit
  · simp [hne.symm] at hunit

theorem zero_notMem_contentText {e : JsonpathExpression JsonPrimitive} (he : StorableExpression e) : 0 ∉ contentText e := by
  have hdollar : (0 : UInt16) ≠ unit '$' := by decide
  cases e with
  | comparison keys operator operand =>
    have hoperator : 0 ∉ text " " ++ operator.toText ++ text " " := by
      cases operator with
      | _ => decide
    have hkeys := zero_notMem_quotedKeys he.1
    have hoperand := zero_notMem_stringify operand
    rw [contentText, List.mem_cons, List.mem_append, List.mem_append, not_or, not_or, not_or]
    exact ⟨hdollar, hkeys, hoperator, hoperand⟩
  | existence keys isNegated =>
    have hnegation : 0 ∉ if isNegated then text "!" else [] := by
      cases isNegated with
      | _ => decide
    have hword : 0 ∉ text "exists(" := by decide
    have hclose : 0 ∉ text ")" := by decide
    have hkeys := zero_notMem_quotedKeys he
    simp only [contentText, List.mem_append, List.mem_cons, not_or]
    exact ⟨⟨hnegation, hword⟩, hdollar, hkeys, hclose⟩
  | likeRegex keys pattern =>
    have hword : 0 ∉ text " like_regex " := by decide
    rw [contentText, List.mem_cons, List.mem_append, List.mem_append, not_or, not_or, not_or]
    exact ⟨hdollar, zero_notMem_quotedKeys he.1, hword, zero_notMem_jsonString pattern⟩
  | interval keys isNegated lower upper =>
    have hkeys := zero_notMem_quotedKeys he.1
    have hlower := zero_notMem_stringify lower
    have hupper := zero_notMem_stringify upper
    cases isNegated with
    | false =>
      have htexts : 0 ∉ text " ? (@ >= " ∧ 0 ∉ text " && @ <= " ∧ 0 ∉ text ")" := by decide
      simp only [contentText, List.mem_cons, List.mem_append, not_or]
      exact ⟨hdollar, hkeys, ⟨⟨⟨htexts.1, hlower⟩, htexts.2.1⟩, hupper⟩, htexts.2.2⟩
    | true =>
      have htexts : 0 ∉ text " ? (@ < " ∧ 0 ∉ text " || @ > " ∧ 0 ∉ text ")" := by decide
      simp only [contentText, List.mem_cons, List.mem_append, not_or]
      exact ⟨hdollar, hkeys, ⟨⟨⟨htexts.1, hlower⟩, htexts.2.1⟩, hupper⟩, htexts.2.2⟩

/-! ### Values that are read back -/

/-- A literal is one string constant, an identifier one identifier, and a jsonpath expression in quotes one string constant that denotes the keys and operands of the expression. No string contains the code unit 0. -/
theorem quotedValues_readBack (rules : SqlRules) {t : Text} (ht : NoQuoteFollows t) :
    (∀ s, 0 ∉ s → sqlTokens rules (asLiteral s ++ t) = (sqlTokens rules t).map fun tokens => .string s :: tokens) ∧
    (∀ s, 0 ∉ s → s ≠ [] → byteLength s ≤ 63 →
      sqlTokens rules (asIdentifier s ++ t) = (sqlTokens rules t).map fun tokens => .identifier s :: tokens) ∧
    ∀ e, StorableExpression e → ∃ content,
      sqlTokens rules (singleQuote :: jsonpathText e ++ [singleQuote] ++ t) =
        (sqlTokens rules t).map (fun tokens => .string content :: tokens) ∧
      readJsonpath content = some (e.map denoted) := by
  refine ⟨fun s hs => sqlTokens_asLiteral rules hs ht,
    fun s hs hne hlength => sqlTokens_asIdentifier rules hs hne hlength ht, ?_⟩
  intro e he
  refine ⟨contentText e, ?_, ?_⟩
  · rw [jsonpathText_eq, sqlTokens, (takes_standardString rules (zero_notMem_contentText he) ht).split]
    rfl
  · rw [readJsonpath, tokens_contentText he, Option.bind_some, parseJsonpath_expressionTokens]

/-- Rules under which everything else is a token for itself. -/
def selfRules : SqlRules where
  numericEscape := fun _ => none
  other := fun s => s.head?.map fun c => (some (.other [c]), s.tail)

theorem quotedValues_readBack_semicolon :
    sqlTokens selfRules (asLiteral (text "O'Neill\\") ++ text ";") = some [.string (text "O'Neill\\"), .other (text ";")] ∧
    sqlTokens selfRules (asIdentifier (text "a\"b") ++ text ";") = some [.identifier (text "a\"b"), .other (text ";")] ∧
    ∃ content,
      sqlTokens selfRules (singleQuote :: jsonpathText (.comparison [text "it's"] .equal (.string (text "'\"\\"))) ++
        [singleQuote] ++ text ";") = some [.string content, .other (text ";")] ∧
      readJsonpath content = some (.comparison [text "it's"] .equal (.string (text "'\"\\"))) := by
  have ht : NoQuoteFollows (text ";") := by
    intro c hc
    cases hc
    decide
  have hnone : sqlTokens selfRules [] = some [] := by rw [sqlTokens, split]
  have htakes : Takes (readSqlToken selfRules) (text ";") (some (.other (text ";"))) [] := ⟨rfl, by decide⟩
  have hsemicolon : sqlTokens selfRules (text ";") = some [.other (text ";")] := htakes.split_some hnone
  have hstorable : IsStorable (text "'\"\\") := by decide
  obtain ⟨hliteral, hidentifier, hjsonpath⟩ := quotedValues_readBack selfRules ht
  rw [hsemicolon] at hliteral hidentifier hjsonpath
  exact ⟨hliteral _ (by decide), hidentifier _ (by decide) (by decide) (by decide),
    hjsonpath (.comparison [text "it's"] .equal (.string (text "'\"\\"))) ⟨by decide, hstorable⟩⟩

theorem sqlTokens_commentBetween :
    sqlTokens selfRules (asLiteral (text "a") ++ text "--\n'b'") = some [.string (text "ab")] := by
  have hnone : sqlTokens selfRules [] = some [] := by rw [sqlTokens, split]
  have hfirst : quoted singleQuote (doubled singleQuote (text "a") ++ singleQuote :: text "--\n'b'") =
      some (text "a", text "--\n'b'") := quoted_doubled _ (by decide) (by decide)
  have hsecond : quoted singleQuote (text "b'") = some (text "b", []) :=
    quoted_doubled singleQuote (s := text "b") (t := []) (by decide) (by decide)
  have hgap : continuation .sameLine (text "--\n'b'") = some (text "b'") := rfl
  have hend : continuation .sameLine [] = none := rfl
  have hrest : stringConstant (quoted singleQuote) (text "b'") = some (text "b", []) := by
    rw [stringConstant, hsecond]
    simp only [hend]
  have hconstant : stringConstant (quoted singleQuote) (doubled singleQuote (text "a") ++ singleQuote :: text "--\n'b'") =
      some (text "ab", []) := by
    rw [stringConstant, hfirst]
    simp only [hgap, hrest]
    rfl
  have htakes : Takes (readSqlToken selfRules) (asLiteral (text "a") ++ text "--\n'b'") (some (.string (text "ab"))) [] := by
    refine ⟨?_, by simp [text]⟩
    have htext : asLiteral (text "a") ++ text "--\n'b'" ++ [] = singleQuote :: (doubled singleQuote (text "a") ++ singleQuote :: text "--\n'b'") := rfl
    rw [htext, readSqlToken_singleQuote, hconstant]
    rfl
  have htokens := htakes.split_some hnone
  rw [List.append_nil] at htokens
  exact htokens

theorem clip_replicate (n k : Nat) : clip n (List.replicate (n + k) (unit 'a')) = List.replicate n (unit 'a') := by
  have hletter : isHighSurrogate (unit 'a') = false := by decide
  have hwidth : byteWidth (unit 'a') = 1 := by decide
  induction n with
  | zero =>
    cases k with
    | zero => rfl
    | succ k =>
      rw [Nat.zero_add, List.replicate_succ, clip.eq_def]
      simp [hletter, hwidth]
  | succ n ih =>
    rw [Nat.add_right_comm, List.replicate_succ, List.replicate_succ, clip.eq_def]
    simp [hletter, hwidth, ih]

theorem sqlTokens_longIdentifier :
    sqlTokens selfRules (asIdentifier (List.replicate 64 (unit 'a')) ++ []) =
      some [.identifier (List.replicate 63 (unit 'a'))] := by
  have hnone : sqlTokens selfRules [] = some [] := by rw [sqlTokens, split]
  have hpart : quoted doubleQuote (doubled doubleQuote (List.replicate 64 (unit 'a')) ++ [doubleQuote]) =
      some (List.replicate 64 (unit 'a'), []) := quoted_doubled _ (by decide) (by simp)
  have htakes : Takes (readSqlToken selfRules) (asIdentifier (List.replicate 64 (unit 'a')))
      (some (.identifier (List.replicate 63 (unit 'a')))) [] := by
    refine ⟨?_, by simp [asIdentifier]⟩
    have hread := readSqlToken_doubleQuote selfRules hpart (by simp)
    rw [clip_replicate 63 1] at hread
    rw [List.append_nil]
    exact hread
  exact htakes.split_some hnone

theorem not_quotedValues_readBack :
    (∀ c ∈ ((text "--\n'b'").dropWhile isBlank).head?, c ≠ singleQuote ∧ c ≠ doubleQuote) ∧
    sqlTokens selfRules (asLiteral (text "a") ++ text "--\n'b'") ≠
      (sqlTokens selfRules (text "--\n'b'")).map (fun tokens => .string (text "a") :: tokens) ∧
    sqlTokens selfRules (asIdentifier (List.replicate 64 (unit 'a')) ++ []) ≠
      (sqlTokens selfRules []).map (fun tokens => .identifier (List.replicate 64 (unit 'a')) :: tokens) := by
  have hfirst : ∀ {token token' : SqlToken} {rest : Option (List SqlToken)}, token ≠ token' →
      some [token] ≠ rest.map fun tokens => token' :: tokens := by
    intro token token' rest hne h
    cases rest with
    | none => cases h
    | some tokens => exact hne (List.head_eq_of_cons_eq (Option.some.inj h))
  refine ⟨?_, ?_, ?_⟩
  · intro c hc
    cases hc
    decide
  · rw [sqlTokens_commentBetween]
    apply hfirst
    intro h
    exact absurd (SqlToken.string.inj h) (by decide)
  · rw [sqlTokens_longIdentifier]
    apply hfirst
    intro h
    exact absurd (congrArg List.length (SqlToken.identifier.inj h)) (by decide)

end Postgres

end Coaty
