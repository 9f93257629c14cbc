import Coaty.Db.Postgres.SqlText

/-!
# Quoted values are single tokens

The database server takes a quoted string apart into the string that was quoted, whatever the string is but for the code unit 0, and goes on with the text behind it. For a literal that text must not go on with another quote, and for an identifier the string must not be empty or too long.
-/

namespace Coaty

namespace Postgres

open Js Lexing

/-- The text behind blanks and comments that end with their line. -/
def afterBlanks (inComment : Bool) : Text → Text
  | [] => []
  | c :: s =>
    if inComment then afterBlanks (!isNewline c) s
    else if isBlank c then afterBlanks false s
    else if c = hyphen then
      match s with
      | [] => [c]
      | d :: s => if d = hyphen then afterBlanks true s else c :: d :: s
    else c :: s

def NoQuoteFollows (t : Text) : Prop :=
  ∀ c ∈ (afterBlanks false t).head?, c ≠ singleQuote ∧ c ≠ doubleQuote

/-! ### Between quotes -/

def doubled (q : UInt16) (s : Text) : Text := s.flatMap fun c => if c = q then [c, c] else [c]

theorem doubled_cons (q c : UInt16) (s : Text) : doubled q (c :: s) = (if c = q then [c, c] else [c]) ++ doubled q s :=
  List.flatMap_cons

theorem betweenQuotes_of_ne {q c : UInt16} (h : c ≠ q) (s : Text) :
    betweenQuotes q (c :: s) = prepend [c] (betweenQuotes q s) := by
  rw [betweenQuotes.eq_def]
  exact if_neg h

theorem betweenQuotes_doubled (q : UInt16) (s : Text) {t : Text} (ht : t.head? ≠ some q) :
    betweenQuotes q (doubled q s ++ q :: t) = some (s, t) := by
  induction s with
  | nil =>
    cases t with
    | nil => simp [doubled, betweenQuotes]
    | cons d t =>
      have hd : d ≠ q := by simpa using ht
      simp [doubled, betweenQuotes, hd]
  | cons c s ih =>
    rw [doubled_cons]
    by_cases hc : c = q
    · simp [hc, betweenQuotes, ih, prepend]
    · simp [hc, betweenQuotes_of_ne hc, ih, prepend]

theorem withoutNul_some {s : Text} (hs : 0 ∉ s) (t : Text) : withoutNul (some (s, t)) = some (s, t) := by
  simp [withoutNul, hs]

theorem quoted_doubled (q : UInt16) {s : Text} (hs : 0 ∉ s) {t : Text} (ht : t.head? ≠ some q) :
    quoted q (doubled q s ++ q :: t) = some (s, t) := by
  rw [quoted, betweenQuotes_doubled q s ht, withoutNul_some hs]

/-- A text with its quotes and backslashes doubled. -/
def escaped (s : Text) : Text :=
  s.flatMap fun c => if c = singleQuote then [c, c] else if c = backslash then [c, c] else [c]

theorem escaped_cons (c : UInt16) (s : Text) :
    escaped (c :: s) = (if c = singleQuote then [c, c] else if c = backslash then [c, c] else [c]) ++ escaped s :=
  List.flatMap_cons

theorem escaped_eq_doubled {s : Text} (h : backslash ∉ s) : escaped s = doubled singleQuote s := by
  induction s with
  | nil => rfl
  | cons c s ih =>
    rw [List.mem_cons, not_or] at h
    rw [escaped_cons, doubled_cons, if_neg (Ne.symm h.1), ih h.2]

theorem betweenEscapeQuotes_of_ne (rules : SqlRules) {c : UInt16} (hquote : c ≠ singleQuote) (hbackslash : c ≠ backslash)
    (s : Text) : betweenEscapeQuotes rules (c :: s) = prepend [c] (betweenEscapeQuotes rules s) := by
  rw [betweenEscapeQuotes.eq_def]
  simp only [if_neg hquote, if_neg hbackslash]

theorem betweenEscapeQuotes_escaped (rules : SqlRules) (s : Text) {t : Text} (ht : t.head? ≠ some singleQuote) :
    betweenEscapeQuotes rules (escaped s ++ singleQuote :: t) = some (s, t) := by
  have hunit : escapedUnit backslash = backslash := by decide
  have hnumeric : startsNumericEscape backslash = false := by decide
  have hne : backslash ≠ singleQuote := by decide
  induction s with
  | nil =>
    cases t with
    | nil => simp [escaped, betweenEscapeQuotes]
    | cons d t =>
      have hd : d ≠ singleQuote := by simpa using ht
      simp [escaped, betweenEscapeQuotes, hd]
  | cons c s ih =>
    rw [escaped_cons]
    by_cases hquote : c = singleQuote
    · simp [hquote, betweenEscapeQuotes, ih, prepend]
    · by_cases hbackslash : c = backslash
      · simp [hbackslash, hne, betweenEscapeQuotes, hnumeric, hunit, ih, prepend]
      · simp [hquote, hbackslash, betweenEscapeQuotes_of_ne rules hquote hbackslash, ih, prepend]

theorem escapeQuoted_escaped (rules : SqlRules) {s : Text} (hs : 0 ∉ s) {t : Text} (ht : t.head? ≠ some singleQuote) :
    escapeQuoted rules (escaped s ++ singleQuote :: t) = some (s, t) := by
  rw [escapeQuoted, betweenEscapeQuotes_escaped rules s ht, withoutNul_some hs]

/-! ### Behind a string constant -/

/-- A comment has been begun and not ended. -/
def Gap.inComment : Gap → Bool
  | .comment => true
  | _ => false

theorem afterBlanks_comment (c : UInt16) (s : Text) : afterBlanks true (c :: s) = afterBlanks (!isNewline c) s := by
  rw [afterBlanks.eq_def]
  exact if_pos rfl

theorem afterBlanks_blank {c : UInt16} (hc : isBlank c = true) (s : Text) :
    afterBlanks false (c :: s) = afterBlanks false s := by
  rw [afterBlanks.eq_def]
  simp [hc]

theorem isBlank_of_isNewline {c : UInt16} (hc : isNewline c = true) : isBlank c = true := by simp [isBlank, hc]

theorem afterBlanks_hyphens (s : Text) : afterBlanks false (hyphen :: hyphen :: s) = afterBlanks true s := by
  have hblank : ¬ isBlank hyphen = true := by decide
  rw [afterBlanks]
  simp [hblank]

theorem afterBlanks_other {c : UInt16} (hblank : ¬ isBlank c = true) (hne : c ≠ hyphen) (s : Text) :
    afterBlanks false (c :: s) = c :: s := by
  rw [afterBlanks.eq_def]
  simp [hblank, hne]

/-- A string constant goes on with the first quote behind blanks and comments only. -/
theorem afterBlanks_of_continuation {gap : Gap} {t rest : Text} (h : continuation gap t = some rest) :
    afterBlanks gap.inComment t = singleQuote :: rest := by
  fun_induction continuation gap t with
  | case2 c s hnewline ih =>
    rw [Gap.inComment, afterBlanks_comment, hnewline]
    exact ih h
  | case3 c s hnewline ih =>
    rw [Gap.inComment, afterBlanks_comment, (Bool.not_eq_true _).mp hnewline]
    exact ih h
  | case4 c s hnewline ih =>
    rw [Gap.inComment, afterBlanks_blank (isBlank_of_isNewline hnewline)]
    · exact ih h
    · simp
  | case5 c s _ hblank ih =>
    rw [Gap.inComment, afterBlanks_blank hblank]
    · exact ih h
    · simp
  | case7 s _ _ ih =>
    rw [Gap.inComment, afterBlanks_hyphens]
    · exact ih h
    · simp
  | case10 c s hblank ih =>
    rw [Gap.inComment, afterBlanks_blank hblank]
    · exact ih h
    · simp
  | case11 s hblank =>
    rw [Gap.inComment, afterBlanks_other hblank (by decide)]
    · cases h
      rfl
    · simp
  | case13 s _ _ ih =>
    rw [Gap.inComment, afterBlanks_hyphens]
    · exact ih h
    · simp
  | _ => cases h

theorem head?_of_noQuoteFollows {t : Text} (ht : NoQuoteFollows t) :
    t.head? ≠ some singleQuote ∧ t.head? ≠ some doubleQuote := by
  have hquote : ∀ q : UInt16, ¬ isBlank q = true → q ≠ hyphen → (q = singleQuote ∨ q = doubleQuote) → t.head? ≠ some q := by
    intro q hblank hne hq hhead
    cases t with
    | nil => cases hhead
    | cons c t =>
      cases hhead
      have hfollows := ht q (by rw [afterBlanks_other hblank hne]; rfl)
      exact hq.elim hfollows.1 hfollows.2
  exact ⟨hquote singleQuote (by decide) (by decide) (Or.inl rfl),
    hquote doubleQuote (by decide) (by decide) (Or.inr rfl)⟩

theorem continuation_of_noQuoteFollows {t : Text} (ht : NoQuoteFollows t) : continuation .sameLine t = none := by
  cases hcontinuation : continuation .sameLine t with
  | none => rfl
  | some rest =>
    have hafter : afterBlanks false t = singleQuote :: rest := afterBlanks_of_continuation hcontinuation
    exact absurd rfl (ht singleQuote (by rw [hafter]; rfl)).1

theorem stringConstant_of_part {part : Text → Option (Text × Text)} {s value t : Text} (hpart : part s = some (value, t))
    (ht : NoQuoteFollows t) : stringConstant part s = some (value, t) := by
  rw [stringConstant, hpart]
  simp only [continuation_of_noQuoteFollows ht]

/-! ### Whole tokens -/

theorem readSqlToken_singleQuote (rules : SqlRules) (s : Text) :
    readSqlToken rules (singleQuote :: s) =
      (stringConstant (quoted singleQuote) s).map fun (value, rest) => (some (.string value), rest) := by
  have hblank : isBlank singleQuote = false := by decide
  have hhyphen : singleQuote ≠ hyphen := by decide
  simp [readSqlToken, hblank, hhyphen]

theorem readSqlToken_escapeString (rules : SqlRules) (s : Text) :
    readSqlToken rules (unit 'E' :: singleQuote :: s) =
      (stringConstant (escapeQuoted rules) s).map fun (value, rest) => (some (.string value), rest) := by
  have hblank : isBlank (unit 'E') = false := by decide
  have hhyphen : unit 'E' ≠ hyphen := by decide
  have hquote : unit 'E' ≠ singleQuote := by decide
  simp [readSqlToken, hblank, hhyphen, hquote]

theorem readSqlToken_doubleQuote (rules : SqlRules) {s name rest : Text} (hpart : quoted doubleQuote s = some (name, rest))
    (hne : name ≠ []) : readSqlToken rules (doubleQuote :: s) = some (some (.identifier (clip 63 name)), rest) := by
  have hblank : isBlank doubleQuote = false := by decide
  have hhyphen : doubleQuote ≠ hyphen := by decide
  have hquote : doubleQuote ≠ singleQuote := by decide
  have hletter : doubleQuote ≠ unit 'E' ∧ doubleQuote ≠ unit 'e' := by decide
  simp [readSqlToken, hblank, hhyphen, hquote, hletter, hpart, hne]

theorem takes_standardString (rules : SqlRules) {s : Text} (hs : 0 ∉ s) {t : Text} (ht : NoQuoteFollows t) :
    Takes (readSqlToken rules) (singleQuote :: doubled singleQuote s ++ [singleQuote]) (some (.string s)) t := by
  refine ⟨?_, by simp⟩
  have hpart : quoted singleQuote (doubled singleQuote s ++ [singleQuote] ++ t) = some (s, t) := by
    rw [List.append_assoc]
    exact quoted_doubled singleQuote hs (head?_of_noQuoteFollows ht).1
  rw [List.cons_append, List.cons_append, readSqlToken_singleQuote, stringConstant_of_part hpart ht]
  rfl

theorem takes_escapeString (rules : SqlRules) {s : Text} (hs : 0 ∉ s) {t : Text} (ht : NoQuoteFollows t) :
    Takes (readSqlToken rules) (unit 'E' :: singleQuote :: escaped s ++ [singleQuote]) (some (.string s)) t := by
  refine ⟨?_, by simp⟩
  have hpart : escapeQuoted rules (escaped s ++ [singleQuote] ++ t) = some (s, t) := by
    rw [List.append_assoc]
    exact escapeQuoted_escaped rules hs (head?_of_noQuoteFollows ht).1
  rw [List.cons_append, List.cons_append, List.cons_append, List.cons_append, readSqlToken_escapeString,
    stringConstant_of_part hpart ht]
  rfl

theorem takes_blank (rules : SqlRules) (s : Text) : Takes (readSqlToken rules) [unit ' '] none s :=
  ⟨rfl, by simp⟩

theorem sqlTokens_asLiteral (rules : SqlRules) {s : Text} (hs : 0 ∉ s) {t : Text} (ht : NoQuoteFollows t) :
    sqlTokens rules (asLiteral s ++ t) = (sqlTokens rules t).map fun tokens => .string s :: tokens := by
  by_cases hbackslash : backslash ∈ s
  · have hliteral : asLiteral s = [unit ' '] ++ (unit 'E' :: singleQuote :: escaped s ++ [singleQuote]) := by
      simp [asLiteral, hbackslash, escaped, text]
    rw [hliteral, List.append_assoc, sqlTokens, (takes_blank rules _).split, (takes_escapeString rules hs ht).split,
      Option.map_map]
    rfl
  · have hliteral : asLiteral s = singleQuote :: doubled singleQuote s ++ [singleQuote] := by
      rw [← escaped_eq_doubled hbackslash]
      simp [asLiteral, hbackslash, escaped]
    rw [hliteral, sqlTokens, (takes_standardString rules hs ht).split]
    rfl

theorem clip_of_byteLength_le {n : Nat} {s : Text} (h : byteLength s ≤ n) : clip n s = s := by
  fun_induction clip n s with
  | case1 => rfl
  | case2 => rfl
  | case3 n c hhigh hn =>
    rw [byteLength.eq_def] at h
    simp only [if_pos hhigh] at h
    omega
  | case4 n c hhigh d s hn ih =>
    rw [byteLength.eq_def] at h
    simp only [if_pos hhigh] at h
    rw [ih (by omega)]
  | case5 n c hhigh d s hn =>
    rw [byteLength.eq_def] at h
    simp only [if_pos hhigh] at h
    omega
  | case6 n c s hhigh hn ih =>
    rw [byteLength.eq_def] at h
    simp only [if_neg hhigh] at h
    rw [ih (by omega)]
  | case7 n c s hhigh hn =>
    rw [byteLength.eq_def] at h
    simp only [if_neg hhigh] at h
    omega

theorem sqlTokens_asIdentifier (rules : SqlRules) {s t : Text} (hs : 0 ∉ s) (hne : s ≠ []) (hlength : byteLength s ≤ 63)
    (ht : NoQuoteFollows t) :
    sqlTokens rules (asIdentifier s ++ t) = (sqlTokens rules t).map fun tokens => .identifier s :: tokens := by
  have htakes : Takes (readSqlToken rules) (asIdentifier s) (some (.identifier s)) t := by
    refine ⟨?_, by simp [asIdentifier]⟩
    have hpart : quoted doubleQuote (doubled doubleQuote s ++ [doubleQuote] ++ t) = some (s, t) := by
      rw [List.append_assoc]
      exact quoted_doubled doubleQuote hs (head?_of_noQuoteFollows ht).2
    have htext : asIdentifier s ++ t = doubleQuote :: (doubled doubleQuote s ++ [doubleQuote] ++ t) := by
      simp [asIdentifier, doubled]
    rw [htext, readSqlToken_doubleQuote rules hpart hne, clip_of_byteLength_le hlength]
  rw [sqlTokens, htakes.split]
  rfl

end Postgres

end Coaty
