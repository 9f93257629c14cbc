import Coaty.Db.Postgres.JsonpathValues
import Mathlib.Data.Bool.AllAny

/-!
# Expressions are read back

The text of an expression is split into the tokens of its path, its operators and its operands, and these are parsed as the expression with the values of its operands. The text is put together from chunks, and what follows a chunk ends the token in it.
-/

namespace Coaty

namespace Postgres

open Js Lexing

/-! ### Kinds of code units -/

theorem not_special_first {c : UInt16} (hc : isSpecial c = true) :
    isBlank c = false ∧ c ≠ doubleQuote ∧ isDigit c = false ∧ isOther c = false := by
  have hall : ∀ c ∈ text "?%$.[]\x7b\x7d()|&!=<>@#,*:-+/",
      isBlank c = false ∧ c ≠ doubleQuote ∧ isDigit c = false ∧ isOther c = false := List.all_iff_forall_prop.mp (by decide)
  exact hall c (List.contains_iff_mem.mp hc)

theorem not_digit_first {c : UInt16} (hc : isDigit c = true) : isBlank c = false ∧ c ≠ doubleQuote := by
  have hall : ∀ d : Fin 10, isBlank (digitUnit d) = false ∧ digitUnit d ≠ doubleQuote := by decide
  exact @forall_isDigit (fun c => isBlank c = false ∧ c ≠ doubleQuote) hall c hc

/-- Nothing follows that would be taken for a part of a name. -/
def EndsWord (rest : Text) : Prop := ∀ c ∈ rest.head?, isOther c = false

theorem endsWord_of_endsNumber {rest : Text} (h : EndsNumber rest) : EndsWord rest := fun c hc => (h c hc).1

/-! ### Tokens -/

section Tokens

variable {rest : Text} {tokens : List JsonpathToken}

theorem tokens_blank (h : split readJsonpathToken rest = some tokens) :
    split readJsonpathToken (unit ' ' :: rest) = some tokens := by
  have htakes : Takes readJsonpathToken [unit ' '] none rest := ⟨rfl, by simp⟩
  exact htakes.split_some h

/-- What must not follow a symbol. -/
def EndsSymbol (c : UInt16) (rest : Text) : Prop :=
  ∀ d ∈ rest.head?, operators.contains [c, d] = false ∧ (c = unit '$' → d ≠ doubleQuote ∧ isOther d = false) ∧
    (c = unit '/' → d ≠ unit '*')

theorem not_operator {c : UInt16} (hc : c ∉ text "&|=!<>*") (d : UInt16) : operators.contains [c, d] = false := by
  have hall : ∀ o ∈ operators, o.head?.all (fun c => decide (c ∈ text "&|=!<>*")) = true :=
    List.all_iff_forall_prop.mp (by decide)
  cases hcontains : operators.contains [c, d] with
  | false => rfl
  | true => exact absurd (of_decide_eq_true (hall [c, d] (List.contains_iff_mem.mp hcontains))) hc

theorem endsSymbol {c : UInt16} (hc : c ∉ text "&|=!<>*$/") (rest : Text) : EndsSymbol c rest := by
  have hsub : ∀ c ∈ text "&|=!<>*", c ∈ text "&|=!<>*$/" := List.all_iff_forall_prop.mp (by decide)
  have hdollar : unit '$' ∈ text "&|=!<>*$/" := by decide
  have hslash : unit '/' ∈ text "&|=!<>*$/" := by decide
  exact fun d _ => ⟨not_operator (fun h => hc (hsub c h)) d, fun h => absurd (h ▸ hdollar) hc,
    fun h => absurd (h ▸ hslash) hc⟩

theorem takes_symbol {c : UInt16} (hc : isSpecial c = true) (hrest : EndsSymbol c rest) :
    Takes readJsonpathToken [c] (some (.symbol [c])) rest := by
  obtain ⟨hblank, hquote, hdigit, hother⟩ := not_special_first hc
  refine ⟨?_, by simp⟩
  cases rest with
  | nil => simp [readJsonpathToken, hblank, hquote, hdigit, hother, hc]
  | cons d rest =>
    obtain ⟨hoperator, hvariable, hcomment⟩ := hrest d rfl
    have hnotVariable : ¬ (c = unit '$' ∧ (d = doubleQuote ∨ isOther d = true)) := by
      intro h
      obtain ⟨hne, hname⟩ := hvariable h.1
      exact h.2.elim hne fun h => by
        rw [hname] at h
        cases h
    have hnotComment : ¬ (c = unit '/' ∧ d = unit '*') := fun h => hcomment h.1 h.2
    simp only [List.singleton_append, readJsonpathToken, hblank, if_neg hquote, hdigit, hother, hc, Bool.false_eq_true, if_false,
      if_true, Bool.and_eq_true, Bool.or_eq_true, decide_eq_true_eq, if_neg hnotVariable, if_neg hnotComment, hoperator]

theorem tokens_symbol {c : UInt16} (hc : isSpecial c = true) (hrest : EndsSymbol c rest)
    (h : split readJsonpathToken rest = some tokens) :
    split readJsonpathToken (c :: rest) = some (.symbol [c] :: tokens) :=
  (takes_symbol hc hrest).split_some h

theorem tokens_operator {c d : UInt16} (hcd : operators.contains [c, d] = true)
    (h : split readJsonpathToken rest = some tokens) :
    split readJsonpathToken (c :: d :: rest) = some (.symbol [c, d] :: tokens) := by
  have hall : ∀ o ∈ operators, o.head?.all (fun c => decide (isSpecial c = true ∧ c ≠ unit '$' ∧ c ≠ unit '/')) = true :=
    List.all_iff_forall_prop.mp (by decide)
  obtain ⟨hc, hdollar, hslash⟩ := of_decide_eq_true (hall [c, d] (List.contains_iff_mem.mp hcd))
  obtain ⟨hblank, hquote, hdigit, hother⟩ := not_special_first hc
  have htakes : Takes readJsonpathToken [c, d] (some (.symbol [c, d])) rest := by
    refine ⟨?_, by simp⟩
    have hnotVariable : ¬ (c = unit '$' ∧ (d = doubleQuote ∨ isOther d = true)) := fun h => hdollar h.1
    have hnotComment : ¬ (c = unit '/' ∧ d = unit '*') := fun h => hslash h.1
    simp only [List.cons_append, List.nil_append, readJsonpathToken, hblank, if_neg hquote, hdigit, hother, hc,
      Bool.false_eq_true, if_false, if_true, Bool.and_eq_true, Bool.or_eq_true, decide_eq_true_eq, if_neg hnotVariable,
      if_neg hnotComment, hcd]
  exact htakes.split_some h

theorem tokens_word {w : Text} (hne : w ≠ []) (hw : ∀ c ∈ w, isOther c = true ∧ isBlank c = false ∧ isDigit c = false)
    (hrest : EndsWord rest) (h : split readJsonpathToken rest = some tokens) :
    split readJsonpathToken (w ++ rest) = some (.word w :: tokens) := by
  have htakes : Takes readJsonpathToken w (some (.word w)) rest := by
    refine ⟨?_, hne⟩
    have hother : ∀ c ∈ w, isOther c = true := fun c hc => (hw c hc).1
    have htake : (w ++ rest).takeWhile isOther = w := by
      rw [List.takeWhile_append_of_pos hother]
      cases rest with
      | nil => simp
      | cons c rest => simp [hrest c rfl]
    have hdrop : (w ++ rest).dropWhile isOther = rest := by
      rw [List.dropWhile_append_of_pos hother]
      cases rest with
      | nil => rfl
      | cons c rest => simp [hrest c rfl]
    obtain ⟨c, w, rfl⟩ := List.exists_cons_of_ne_nil hne
    obtain ⟨hc, hblank, hdigit⟩ := hw c (List.mem_cons_self ..)
    have hquote : c ≠ doubleQuote := by
      intro hquote
      rw [hquote] at hc
      exact absurd hc (by decide)
    rw [List.cons_append] at htake hdrop ⊢
    simp only [readJsonpathToken, hblank, if_neg hquote, hdigit, hc, htake, hdrop, Bool.false_eq_true, if_false, if_true]
  exact htakes.split_some h

theorem tokens_quoted {body s : Text} (hbody : jsonpathQuoted (body ++ doubleQuote :: rest) = some (s, rest))
    (hs : IsStorable s) (h : split readJsonpathToken rest = some tokens) :
    split readJsonpathToken (doubleQuote :: body ++ [doubleQuote] ++ rest) = some (.string s :: tokens) := by
  have hblank : isBlank doubleQuote = false := by decide
  have htakes : Takes readJsonpathToken (doubleQuote :: body ++ [doubleQuote]) (some (.string s)) rest := by
    refine ⟨?_, by simp⟩
    have htext : doubleQuote :: body ++ [doubleQuote] ++ rest = doubleQuote :: (body ++ doubleQuote :: rest) := by simp
    rw [htext]
    simp only [readJsonpathToken, hblank, readString, hbody, if_pos hs, Bool.false_eq_true, if_false, if_true,
      Option.map_some]
  exact htakes.split_some h

theorem tokens_number {s : Text} {n : Rat} (hread : readNumber (s ++ rest) = some (n, rest))
    (hdigit : ∃ d ∈ s.head?, isDigit d = true) (h : split readJsonpathToken rest = some tokens) :
    split readJsonpathToken (s ++ rest) = some (.number n :: tokens) := by
  obtain ⟨d, hd, hdigit⟩ := hdigit
  cases s with
  | nil => cases hd
  | cons c s =>
    cases hd
    obtain ⟨hblank, hquote⟩ := not_digit_first hdigit
    have htakes : Takes readJsonpathToken (d :: s) (some (.number n)) rest := by
      refine ⟨?_, by simp⟩
      rw [List.cons_append] at hread ⊢
      simp only [readJsonpathToken, hblank, if_neg hquote, hdigit, hread, Bool.false_eq_true, if_false, if_true,
        Option.map_some]
    exact htakes.split_some h

end Tokens

/-! ### Operands -/

theorem head_unsignedText (n : ShortestDecimal) : ∃ d ∈ n.unsignedText.head?, isDigit d = true := by
  obtain ⟨d, ds, hds⟩ := List.exists_cons_of_ne_nil (digits_ne_nil n)
  have hd : isDigit d = true := isDigit_of_mem_digits (n := n) (hds ▸ List.mem_cons_self ..)
  simp only [ShortestDecimal.unsignedText]
  by_cases hinteger : (n.digits.length : Int) ≤ n.point ∧ n.point ≤ 21
  · rw [if_pos hinteger, hds]
    exact ⟨d, rfl, hd⟩
  rw [if_neg hinteger]
  by_cases hmixed : 0 < n.point ∧ n.point ≤ 21
  · obtain ⟨k, hk⟩ : ∃ k, n.point.toNat = k + 1 := ⟨n.point.toNat - 1, by omega⟩
    rw [if_pos hmixed, hds, hk]
    exact ⟨d, rfl, hd⟩
  rw [if_neg hmixed]
  by_cases hfraction : -6 < n.point ∧ n.point ≤ 0
  · rw [if_pos hfraction]
    exact ⟨unit '0', rfl, by decide⟩
  · rw [if_neg hfraction, hds]
    cases ds with
    | nil => exact ⟨d, rfl, hd⟩
    | cons e ds => exact ⟨d, rfl, hd⟩

theorem readNumber_zero {rest : Text} (hrest : EndsNumber rest) : readNumber (text "0" ++ rest) = some (0, rest) := by
  have htext : text "0" = numeralText (text "0") [] none := rfl
  have hdigits : ∀ c ∈ text "0", isDigit c = true := List.all_iff_forall_prop.mp (by decide)
  have hvalue : digitsValue (text "0" ++ []) = 0 := by decide
  rw [htext, readNumber_numeralText (fun _ => rfl) hdigits (by simp) hrest, hvalue]
  simp

def operandTokens : JsonPrimitive → List JsonpathToken
  | .null => [.word (text "null")]
  | .bool b => [.word (text (if b then "true" else "false"))]
  | .number .zero => [.number 0]
  | .number (.nonzero n) => (if n.negative then [.symbol (text "-")] else []) ++ [.number n.magnitude]
  | .string s => [.string s]

/-- An operand that the database can hold. -/
def StorableOperand : JsonPrimitive → Prop
  | .string s => IsStorable s
  | _ => True

section Operands

variable {rest : Text} {tokens : List JsonpathToken}

theorem tokens_operand {x : JsonPrimitive} (hx : StorableOperand x) (hrest : EndsNumber rest)
    (h : split readJsonpathToken rest = some tokens) :
    split readJsonpathToken (x.stringify ++ rest) = some (operandTokens x ++ tokens) := by
  cases x with
  | null => exact tokens_word (by decide) (List.all_iff_forall_prop.mp (by decide)) (endsWord_of_endsNumber hrest) h
  | bool b =>
    cases b with
    | false => exact tokens_word (by decide) (List.all_iff_forall_prop.mp (by decide)) (endsWord_of_endsNumber hrest) h
    | true => exact tokens_word (by decide) (List.all_iff_forall_prop.mp (by decide)) (endsWord_of_endsNumber hrest) h
  | number n =>
    cases n with
    | zero => exact tokens_number (readNumber_zero hrest) ⟨unit '0', rfl, by decide⟩ h
    | nonzero n =>
      have hnumber : split readJsonpathToken (n.unsignedText ++ rest) = some (.number n.magnitude :: tokens) :=
        tokens_number (readNumber_unsignedText n hrest) (head_unsignedText n) h
      by_cases hnegative : n.negative = true
      · simp only [JsonPrimitive.stringify, Numeral.toText, ShortestDecimal.toText, operandTokens, if_pos hnegative]
        exact tokens_symbol (by decide) (endsSymbol (by decide) _) hnumber
      · simp only [JsonPrimitive.stringify, Numeral.toText, ShortestDecimal.toText, operandTokens, if_neg hnegative]
        exact hnumber
  | string s => exact tokens_quoted (jsonpathQuoted_escapeUnits hx.1 rest) hx h

theorem tokens_comparison (operator : Comparison) (h : split readJsonpathToken rest = some tokens) :
    split readJsonpathToken (operator.toText ++ unit ' ' :: rest) = some (.symbol operator.toText :: tokens) := by
  have hends : ∀ c : UInt16, c = unit '<' ∨ c = unit '>' → EndsSymbol c (unit ' ' :: rest) := by
    intro c hc d hd
    cases hd
    obtain hc | hc := hc
    · rw [hc]
      decide
    · rw [hc]
      decide
  have hblank := tokens_blank h
  cases operator with
  | less => exact tokens_symbol (by decide) (hends _ (Or.inl rfl)) hblank
  | lessEqual => exact tokens_operator (by decide) hblank
  | greater => exact tokens_symbol (by decide) (hends _ (Or.inr rfl)) hblank
  | greaterEqual => exact tokens_operator (by decide) hblank
  | equal => exact tokens_operator (by decide) hblank
  | notEqual => exact tokens_operator (by decide) hblank

/-! ### Paths -/

def quotedKeys (keys : List Text) : Text :=
  keys.flatMap fun key => unit '.' :: (doubleQuote :: escapeKey key ++ [doubleQuote])

def keyTokens (keys : List Text) : List JsonpathToken := keys.flatMap fun key => [.symbol (text "."), .string key]

theorem tokens_quotedKeys {keys : List Text} (hkeys : ∀ key ∈ keys, IsStorable key)
    (h : split readJsonpathToken rest = some tokens) :
    split readJsonpathToken (quotedKeys keys ++ rest) = some (keyTokens keys ++ tokens) := by
  induction keys with
  | nil => exact h
  | cons key keys ih =>
    rw [List.forall_mem_cons] at hkeys
    have hkey := tokens_quoted (jsonpathQuoted_escapeKey key _) hkeys.1 (ih hkeys.2)
    have htext : quotedKeys (key :: keys) ++ rest =
        unit '.' :: (doubleQuote :: escapeKey key ++ [doubleQuote] ++ (quotedKeys keys ++ rest)) := by
      simp [quotedKeys]
    rw [htext]
    exact tokens_symbol (by decide) (endsSymbol (by decide) _) hkey

/-- Nothing follows that would be taken for the name of a variable. -/
def EndsPath (rest : Text) : Prop := ∀ c ∈ rest.head?, c ≠ doubleQuote ∧ isOther c = false

theorem tokens_path {keys : List Text} (hkeys : ∀ key ∈ keys, IsStorable key) (hrest : EndsPath rest)
    (h : split readJsonpathToken rest = some tokens) :
    split readJsonpathToken (unit '$' :: (quotedKeys keys ++ rest)) =
      some (.symbol (text "$") :: (keyTokens keys ++ tokens)) := by
  apply tokens_symbol (by decide) _ (tokens_quotedKeys hkeys h)
  have hends : EndsPath (quotedKeys keys ++ rest) := by
    cases keys with
    | nil => exact hrest
    | cons key keys =>
      intro c hc
      cases hc
      decide
  intro d hd
  exact ⟨not_operator (by decide) d, fun _ => hends d hd, fun h => absurd h (by decide)⟩

end Operands

/-! ### Expressions -/

/-- The text of an expression as it is behind the quotes of the SQL text. -/
def contentText : JsonpathExpression JsonPrimitive → Text
  | .comparison keys operator operand =>
    unit '$' :: (quotedKeys keys ++ (text " " ++ operator.toText ++ text " " ++ operand.stringify))
  | .existence keys isNegated =>
    (if isNegated then text "!" else []) ++ text "exists(" ++ unit '$' :: (quotedKeys keys ++ text ")")
  | .likeRegex keys pattern => unit '$' :: (quotedKeys keys ++ (text " like_regex " ++ jsonString pattern))
  | .interval keys false lower upper =>
    unit '$' :: (quotedKeys keys ++ (text " ? (@ >= " ++ lower.stringify ++ text " && @ <= " ++ upper.stringify ++ text ")"))
  | .interval keys true lower upper =>
    unit '$' :: (quotedKeys keys ++ (text " ? (@ < " ++ lower.stringify ++ text " || @ > " ++ upper.stringify ++ text ")"))

def itemTokens (operator : Comparison) (operand : JsonPrimitive) : List JsonpathToken :=
  .symbol (text "@") :: .symbol operator.toText :: operandTokens operand

def conditionTokens (lower upper : Comparison × JsonPrimitive) (conjunction : Text) : List JsonpathToken :=
  .symbol (text "?") :: .symbol (text "(") ::
    (itemTokens lower.1 lower.2 ++ .symbol conjunction :: (itemTokens upper.1 upper.2 ++ [.symbol (text ")")]))

def expressionTokens : JsonpathExpression JsonPrimitive → List JsonpathToken
  | .comparison keys operator operand =>
    .symbol (text "$") :: (keyTokens keys ++ .symbol operator.toText :: operandTokens operand)
  | .existence keys isNegated =>
    (if isNegated then [.symbol (text "!")] else []) ++
      .word (text "exists") :: .symbol (text "(") :: .symbol (text "$") :: (keyTokens keys ++ [.symbol (text ")")])
  | .likeRegex keys pattern => .symbol (text "$") :: (keyTokens keys ++ [.word (text "like_regex"), .string pattern])
  | .interval keys false lower upper =>
    .symbol (text "$") ::
      (keyTokens keys ++ conditionTokens (.greaterEqual, lower) (.lessEqual, upper) (text "&&"))
  | .interval keys true lower upper =>
    .symbol (text "$") :: (keyTokens keys ++ conditionTokens (.less, lower) (.greater, upper) (text "||"))

/-- An expression with keys and operands that the database can hold. -/
def StorableExpression : JsonpathExpression JsonPrimitive → Prop
  | .comparison keys _ operand => (∀ key ∈ keys, IsStorable key) ∧ StorableOperand operand
  | .existence keys _ => ∀ key ∈ keys, IsStorable key
  | .likeRegex keys pattern => (∀ key ∈ keys, IsStorable key) ∧ IsStorable pattern
  | .interval keys _ lower upper => (∀ key ∈ keys, IsStorable key) ∧ StorableOperand lower ∧ StorableOperand upper

theorem endsNumber_cons {c : UInt16} (hc : isOther c = false ∧ c ≠ unit '.') (rest : Text) : EndsNumber (c :: rest) := by
  intro d hd
  cases hd
  exact hc

theorem endsPath_cons {c : UInt16} (hc : c ≠ doubleQuote ∧ isOther c = false) (rest : Text) : EndsPath (c :: rest) := by
  intro d hd
  cases hd
  exact hc

theorem endsNumber_nil : EndsNumber [] := by
  intro c hc
  cases hc

theorem tokens_nil : split readJsonpathToken [] = some [] := by rw [split]

theorem tokens_close : split readJsonpathToken (text ")") = some [.symbol (text ")")] :=
  tokens_symbol (by decide) (endsSymbol (by decide) _) tokens_nil

section Conditions

variable {rest : Text} {tokens : List JsonpathToken}

theorem tokens_item (operator : Comparison) {x : JsonPrimitive} (hx : StorableOperand x) (hrest : EndsNumber rest)
    (h : split readJsonpathToken rest = some tokens) :
    split readJsonpathToken (unit '@' :: unit ' ' :: (operator.toText ++ unit ' ' :: (x.stringify ++ rest))) =
      some (itemTokens operator x ++ tokens) := by
  have hoperand := tokens_operand hx hrest h
  exact tokens_symbol (by decide) (endsSymbol (by decide) _) (tokens_blank (tokens_comparison operator hoperand))

theorem tokens_condition (lower upper : Comparison × JsonPrimitive) (hlower : StorableOperand lower.2)
    (hupper : StorableOperand upper.2) {c : UInt16} (hc : operators.contains [c, c] = true) :
    split readJsonpathToken (unit ' ' :: unit '?' :: unit ' ' :: unit '(' ::
      (unit '@' :: unit ' ' :: (lower.1.toText ++ unit ' ' :: (lower.2.stringify ++ unit ' ' :: c :: c :: unit ' ' ::
        (unit '@' :: unit ' ' :: (upper.1.toText ++ unit ' ' :: (upper.2.stringify ++ text ")"))))))) =
      some (conditionTokens lower upper [c, c]) := by
  have hends : EndsNumber (text ")") := endsNumber_cons (by decide) _
  have hupperItem := tokens_item upper.1 hupper hends tokens_close
  have hconjunction := tokens_blank (tokens_operator hc (tokens_blank hupperItem))
  have hlowerItem := tokens_item lower.1 hlower (endsNumber_cons (by decide) _) hconjunction
  have hopen := tokens_symbol (c := unit '(') (by decide) (endsSymbol (by decide) _) hlowerItem
  exact tokens_blank (tokens_symbol (by decide) (endsSymbol (by decide) _) (tokens_blank hopen))

end Conditions

theorem tokens_contentText {e : JsonpathExpression JsonPrimitive} (he : StorableExpression e) :
    split readJsonpathToken (contentText e) = some (expressionTokens e) := by
  cases e with
  | comparison keys operator operand =>
    have hoperand := tokens_operand he.2 endsNumber_nil tokens_nil
    rw [List.append_nil, List.append_nil] at hoperand
    have htokens := tokens_path he.1 (endsPath_cons (by decide) _) (tokens_blank (tokens_comparison operator hoperand))
    simp only [contentText, List.append_assoc]
    exact htokens
  | existence keys isNegated =>
    have hends : EndsPath (text ")") := endsPath_cons (by decide) _
    have hpath := tokens_path he hends tokens_close
    have hopen := tokens_symbol (c := unit '(') (by decide) (endsSymbol (by decide) _) hpath
    have hword := tokens_word (w := text "exists") (by decide) (List.all_iff_forall_prop.mp (by decide))
      (endsWord_of_endsNumber (endsNumber_cons (by decide) _)) hopen
    cases isNegated with
    | false => exact hword
    | true =>
      have hends : EndsSymbol (unit '!') (text "exists" ++ unit '(' :: unit '$' :: (quotedKeys keys ++ text ")")) := by
        intro d hd
        cases hd
        decide
      exact tokens_symbol (by decide) hends hword
  | likeRegex keys pattern =>
    have hpattern := tokens_quoted (jsonpathQuoted_escapeUnits he.2.1 []) he.2 tokens_nil
    have hword := tokens_word (w := text "like_regex") (by decide) (List.all_iff_forall_prop.mp (by decide))
      (endsWord_of_endsNumber (endsNumber_cons (by decide) _)) (tokens_blank hpattern)
    have htokens := tokens_path he.1 (endsPath_cons (by decide) _) (tokens_blank hword)
    rw [List.append_nil] at htokens
    exact htokens
  | interval keys isNegated lower upper =>
    cases isNegated with
    | false =>
      have hcondition := tokens_condition (.greaterEqual, lower) (.lessEqual, upper) (c := unit '&')
        he.2.1 he.2.2 (by decide)
      have htokens := tokens_path he.1 (endsPath_cons (by decide) _) hcondition
      simp only [contentText, List.append_assoc]
      exact htokens
    | true =>
      have hcondition := tokens_condition (.less, lower) (.greater, upper) (c := unit '|')
        he.2.1 he.2.2 (by decide)
      have htokens := tokens_path he.1 (endsPath_cons (by decide) _) hcondition
      simp only [contentText, List.append_assoc]
      exact htokens

/-! ### Parsing -/

theorem parsePath_keyTokens (keys : List Text) {tokens : List JsonpathToken} (htokens : parseKeys tokens = ([], tokens)) :
    parsePath (.symbol (text "$") :: (keyTokens keys ++ tokens)) = some (keys, tokens) := by
  have hkeys : parseKeys (keyTokens keys ++ tokens) = (keys, tokens) := by
    induction keys with
    | nil => exact htokens
    | cons key keys ih =>
      have hcons : keyTokens (key :: keys) ++ tokens = .symbol (text ".") :: .string key :: (keyTokens keys ++ tokens) := rfl
      rw [hcons, parseKeys, if_pos rfl, ih]
  simp [parsePath, expect, hkeys]

theorem parseKeys_symbol {s : Text} (hs : s ≠ text ".") (tokens : List JsonpathToken) :
    parseKeys (.symbol s :: tokens) = ([], .symbol s :: tokens) := by
  cases tokens with
  | nil => rfl
  | cons token tokens =>
    cases token with
    | string key => rw [parseKeys, if_neg hs]
    | _ => rfl

theorem parseOperand_operandTokens (x : JsonPrimitive) (tokens : List JsonpathToken) :
    parseOperand (operandTokens x ++ tokens) = some (denoted x, tokens) := by
  have hnull : text "true" ≠ text "null" ∧ text "false" ≠ text "null" ∧ text "false" ≠ text "true" := by decide
  cases x with
  | null => simp [operandTokens, parseOperand, denoted]
  | bool b =>
    cases b with
    | false => simp [operandTokens, parseOperand, denoted, hnull]
    | true => simp [operandTokens, parseOperand, denoted, hnull]
  | number n =>
    cases n with
    | zero => rfl
    | nonzero n =>
      by_cases hnegative : n.negative = true
      · simp [operandTokens, parseOperand, denoted, Numeral.value, ShortestDecimal.value, hnegative]
      · simp [operandTokens, parseOperand, denoted, Numeral.value, ShortestDecimal.value, hnegative]
  | string s => rfl

theorem parseComparison_symbol (operator : Comparison) (tokens : List JsonpathToken) :
    parseComparison (.symbol operator.toText :: tokens) = some (operator, tokens) := by
  have hfind : ([.less, .lessEqual, .greater, .greaterEqual, .equal, .notEqual].find? fun o : Comparison =>
      o.toText = operator.toText) = some operator := by
    cases operator with
    | _ => decide
  rw [parseComparison, hfind]
  rfl

theorem parseItem_itemTokens (operator : Comparison) (x : JsonPrimitive) (tokens : List JsonpathToken) :
    parseItem (itemTokens operator x ++ tokens) = some ((operator, denoted x), tokens) := by
  simp [itemTokens, parseItem, expect, parseComparison_symbol, parseOperand_operandTokens]

theorem parsePredicate_interval (keys : List Text) {rest : List JsonpathToken} :
    parsePredicate (.symbol (text "$") :: (keyTokens keys ++ .symbol (text "?") :: .symbol (text "(") :: rest)) =
      parseInterval keys (.symbol (text "(") :: rest) := by
  have hpath := parsePath_keyTokens keys (parseKeys_symbol (s := text "?") (by decide) (.symbol (text "(") :: rest))
  simp [parsePredicate, hpath]

theorem parseJsonpath_expressionTokens (e : JsonpathExpression JsonPrimitive) :
    parseJsonpath (expressionTokens e) = some (e.map denoted) := by
  have hpredicate : ∀ tokens, parseJsonpath (.symbol (text "$") :: tokens) = parsePredicate (.symbol (text "$") :: tokens) := by
    intro tokens
    rw [parseJsonpath]
    exact if_neg (by decide)
  cases e with
  | comparison keys operator operand =>
    have hne : operator.toText ≠ text "." ∧ operator.toText ≠ text "?" := by
      cases operator with
      | _ => decide
    have hpath := parsePath_keyTokens keys (parseKeys_symbol hne.1 (operandTokens operand))
    have hoperand := parseOperand_operandTokens operand []
    rw [List.append_nil] at hoperand
    simp [expressionTokens, hpredicate, parsePredicate, hpath, hne.2, parseComparison_symbol, hoperand,
      JsonpathExpression.map]
  | existence keys isNegated =>
    have hpath := parsePath_keyTokens keys (parseKeys_symbol (s := text ")") (by decide) [])
    cases isNegated with
    | false => simp [expressionTokens, parseJsonpath, parseExistence, expect, hpath, JsonpathExpression.map]
    | true => simp [expressionTokens, parseJsonpath, parseExistence, expect, hpath, JsonpathExpression.map]
  | likeRegex keys pattern =>
    have htokens : parseKeys [.word (text "like_regex"), .string pattern] =
        ([], [.word (text "like_regex"), .string pattern]) := rfl
    have hpath := parsePath_keyTokens keys htokens
    simp [expressionTokens, hpredicate, parsePredicate, hpath, JsonpathExpression.map]
  | interval keys isNegated lower upper =>
    cases isNegated with
    | false =>
      simp only [expressionTokens, conditionTokens, hpredicate, parsePredicate_interval]
      simp [parseInterval, expect, parseItem_itemTokens, JsonpathExpression.map]
    | true =>
      simp only [expressionTokens, conditionTokens, hpredicate, parsePredicate_interval]
      simp [parseInterval, expect, parseItem_itemTokens, JsonpathExpression.map]

end Postgres

end Coaty
