import Coaty.Db.Postgres.Jsonpath
import Mathlib.Data.Bool.AllAny
import Mathlib.Tactic.FieldSimp
import Mathlib.Tactic.Ring

/-!
# Keys and operands are read back

Keys, strings and numbers in a jsonpath expression are read as what was written: a key with its quotes and backslashes escaped, a string in its JSON text, and a number in each of the four forms that the text of a number can have.
-/

namespace Coaty

namespace Postgres

open Js Lexing

/-! ### Strings -/

theorem jsonpathQuoted_end (s : Text) : jsonpathQuoted (doubleQuote :: s) = some ([], s) := by
  rw [jsonpathQuoted.eq_def]
  exact if_pos rfl

theorem jsonpathQuoted_plain {c : UInt16} (hquote : c ≠ doubleQuote) (hbackslash : c ≠ backslash) (s : Text) :
    jsonpathQuoted (c :: s) = prepend [c] (jsonpathQuoted s) := by
  rw [jsonpathQuoted.eq_def]
  simp only [if_neg hquote, if_neg hbackslash]

theorem jsonpathQuoted_escape {d : UInt16} (hu : d ≠ unit 'u') (hx : d ≠ unit 'x') (s : Text) :
    jsonpathQuoted (backslash :: d :: s) = prepend [escapedUnit d] (jsonpathQuoted s) := by
  have hne : backslash ≠ doubleQuote := by decide
  rw [jsonpathQuoted.eq_def]
  simp only [if_neg hne, if_pos, if_neg hu, if_neg hx]

theorem hexValue_hexDigit {n : Nat} (h : n < 16) : hexValue (hexDigit n) = some n := by
  have hall : ∀ n : Fin 16, hexValue (hexDigit n) = some n.val := by decide
  exact hall ⟨n, h⟩

theorem hexNumber_hexDigits (c : UInt16) :
    hexNumber [hexDigit (c.toNat / 4096), hexDigit (c.toNat / 256 % 16), hexDigit (c.toNat / 16 % 16),
      hexDigit (c.toNat % 16)] = some c.toNat := by
  have hlt : c.toNat < 65536 := c.toNat_lt
  have h₃ := hexValue_hexDigit (n := c.toNat / 4096) (by omega)
  have h₂ := hexValue_hexDigit (n := c.toNat / 256 % 16) (by omega)
  have h₁ := hexValue_hexDigit (n := c.toNat / 16 % 16) (by omega)
  have h₀ := hexValue_hexDigit (n := c.toNat % 16) (by omega)
  simp [hexNumber, h₃, h₂, h₁, h₀]
  omega

theorem jsonpathQuoted_unicodeEscape (c : UInt16) (s : Text) :
    jsonpathQuoted (unicodeEscape c ++ s) = prepend [c] (jsonpathQuoted s) := by
  have hne : backslash ≠ doubleQuote := by decide
  have htext : unicodeEscape c ++ s = backslash :: unit 'u' :: hexDigit (c.toNat / 4096) ::
      hexDigit (c.toNat / 256 % 16) :: hexDigit (c.toNat / 16 % 16) :: hexDigit (c.toNat % 16) :: s := rfl
  rw [htext, jsonpathQuoted.eq_def]
  simp only [if_neg hne, if_pos, hexNumber_hexDigits, UInt16.ofNat_toNat]

theorem jsonpathQuoted_escapeUnit (c : UInt16) (s : Text) :
    jsonpathQuoted (escapeUnit c ++ s) = prepend [c] (jsonpathQuoted s) := by
  unfold escapeUnit
  split
  · rename_i hc
    rw [hc]
    exact jsonpathQuoted_escape (by decide) (by decide) s
  split
  · rename_i hc
    rw [hc]
    exact jsonpathQuoted_escape (by decide) (by decide) s
  split
  · rename_i hc
    rw [hc]
    exact jsonpathQuoted_escape (by decide) (by decide) s
  split
  · rename_i hc
    rw [hc]
    exact jsonpathQuoted_escape (by decide) (by decide) s
  split
  · rename_i hc
    rw [hc]
    exact jsonpathQuoted_escape (by decide) (by decide) s
  split
  · rename_i hc
    rw [hc]
    exact jsonpathQuoted_escape (by decide) (by decide) s
  split
  · rename_i hc
    rw [hc]
    exact jsonpathQuoted_escape (by decide) (by decide) s
  split
  · exact jsonpathQuoted_unicodeEscape c s
  · exact jsonpathQuoted_plain (by assumption) (by assumption) s

theorem jsonpathQuoted_surrogate {c : UInt16} (hc : isHighSurrogate c = true ∨ isLowSurrogate c = true) (s : Text) :
    jsonpathQuoted (c :: s) = prepend [c] (jsonpathQuoted s) := by
  have hle : 0xD800 ≤ c.toNat := by
    simp only [isHighSurrogate, isLowSurrogate, Bool.and_eq_true, decide_eq_true_eq] at hc
    omega
  apply jsonpathQuoted_plain
  · intro h
    rw [h] at hle
    exact absurd hle (by decide)
  · intro h
    rw [h] at hle
    exact absurd hle (by decide)

theorem jsonpathQuoted_escapeUnits {s : Text} (hs : isWellFormed s = true) (rest : Text) :
    jsonpathQuoted (escapeUnits s ++ doubleQuote :: rest) = some (s, rest) := by
  fun_induction isWellFormed s with
  | case1 => exact jsonpathQuoted_end rest
  | case2 => cases hs
  | case3 c hhigh d s ih =>
    rw [Bool.and_eq_true] at hs
    have htext : escapeUnits (c :: d :: s) = c :: d :: escapeUnits s := by
      rw [escapeUnits.eq_def]
      simp only [if_pos hhigh, if_pos hs.1]
    rw [htext, List.cons_append, List.cons_append, jsonpathQuoted_surrogate (Or.inl hhigh),
      jsonpathQuoted_surrogate (Or.inr hs.1), ih hs.2]
    rfl
  | case4 c s hhigh ih =>
    rw [Bool.and_eq_true, Bool.not_eq_true'] at hs
    have hlow : ¬ isLowSurrogate c = true := by simp [hs.1]
    have htext : escapeUnits (c :: s) = escapeUnit c ++ escapeUnits s := by
      rw [escapeUnits.eq_def]
      simp only [if_neg hhigh, if_neg hlow]
    rw [htext, List.append_assoc, jsonpathQuoted_escapeUnit, ih hs.2]
    rfl

/-- A key with its quotes and backslashes escaped. -/
def escapeKey (s : Text) : Text := s.flatMap fun c => if c = backslash ∨ c = doubleQuote then [backslash, c] else [c]

theorem jsonpathQuoted_escapeKey (s rest : Text) :
    jsonpathQuoted (escapeKey s ++ doubleQuote :: rest) = some (s, rest) := by
  induction s with
  | nil => exact jsonpathQuoted_end rest
  | cons c s ih =>
    have hcons : escapeKey (c :: s) = (if c = backslash ∨ c = doubleQuote then [backslash, c] else [c]) ++ escapeKey s :=
      List.flatMap_cons
    rw [hcons, List.append_assoc]
    by_cases hc : c = backslash ∨ c = doubleQuote
    · have hescape : jsonpathQuoted (backslash :: c :: (escapeKey s ++ doubleQuote :: rest))
          = prepend [c] (jsonpathQuoted (escapeKey s ++ doubleQuote :: rest)) := by
        obtain hc | hc := hc
        · rw [hc]
          exact jsonpathQuoted_escape (by decide) (by decide) _
        · rw [hc]
          exact jsonpathQuoted_escape (by decide) (by decide) _
      rw [if_pos hc, List.cons_append, List.singleton_append, hescape, ih]
      rfl
    · rw [not_or] at hc
      rw [if_neg (by simp [hc]), List.singleton_append, jsonpathQuoted_plain hc.2 hc.1, ih]
      rfl

/-! ### Numbers -/

/-- A number in decimal notation, perhaps with a fraction or an exponent. -/
def numeralText (integer fraction : Text) (exponent : Option Int) : Text :=
  integer ++ (if fraction = [] then [] else unit '.' :: fraction) ++ exponent.elim [] exponentText

/-- Nothing follows that would be taken for a part of a number. -/
def EndsNumber (rest : Text) : Prop := ∀ c ∈ rest.head?, isOther c = false ∧ c ≠ unit '.'

theorem isOther_of_isDigit {c : UInt16} (hc : isDigit c = true) : isOther c = true := by
  have hall : ∀ d : Fin 10, isOther (digitUnit d) = true := by decide
  exact @forall_isDigit (fun c => isOther c = true) hall c hc

theorem isDigit_eq_false {c : UInt16} (hc : isOther c = false) : isDigit c = false := by
  cases hdigit : isDigit c with
  | false => rfl
  | true =>
    rw [isOther_of_isDigit hdigit] at hc
    cases hc

/-- No digit follows. -/
def EndsDigits (rest : Text) : Prop := ∀ c ∈ rest.head?, isDigit c = false

theorem takeWhile_digits {ds rest : Text} (hds : ∀ c ∈ ds, isDigit c = true) (hrest : EndsDigits rest) :
    (ds ++ rest).takeWhile isDigit = ds := by
  rw [List.takeWhile_append_of_pos hds]
  cases rest with
  | nil => simp
  | cons c rest => simp [hrest c rfl]

theorem dropWhile_digits {ds rest : Text} (hds : ∀ c ∈ ds, isDigit c = true) (hrest : EndsDigits rest) :
    (ds ++ rest).dropWhile isDigit = rest := by
  rw [List.dropWhile_append_of_pos hds]
  cases rest with
  | nil => rfl
  | cons c rest => simp [hrest c rfl]

theorem head?_any_isDigit {ds rest : Text} (hne : ds ≠ []) (hds : ∀ c ∈ ds, isDigit c = true) :
    (ds ++ rest).head?.any isDigit = true := by
  obtain ⟨d, ds, rfl⟩ := List.exists_cons_of_ne_nil hne
  simp [hds d]

theorem readFraction_fraction {ds rest : Text} (hne : ds ≠ []) (hds : ∀ c ∈ ds, isDigit c = true)
    (hrest : EndsDigits rest) : readFraction (unit '.' :: ds ++ rest) = (ds, rest) := by
  have hhead : (ds ++ rest).head?.any isDigit = true := head?_any_isDigit hne hds
  rw [List.cons_append, readFraction]
  simp [-List.head?_append, hhead, takeWhile_digits hds hrest, dropWhile_digits hds hrest]

theorem readFraction_none {s : Text} (hs : ∀ c ∈ s.head?, c ≠ unit '.') : readFraction s = ([], s) := by
  cases s with
  | nil => rfl
  | cons c s =>
    have hc : c ≠ unit '.' := hs c rfl
    simp [readFraction, hc]

theorem readExponent_none {s : Text} (hs : ∀ c ∈ s.head?, c ≠ unit 'e' ∧ c ≠ unit 'E') : readExponent s = (0, s) := by
  cases s with
  | nil => rfl
  | cons c s =>
    have hc : ¬ ((decide (c = unit 'e') || decide (c = unit 'E')) = true) := by simpa using hs c rfl
    rw [readExponent.eq_def]
    exact if_neg hc

theorem readExponent_exponentText (e : Int) {rest : Text} (hrest : EndsDigits rest) :
    readExponent (exponentText e ++ rest) = (e, rest) := by
  have hds : ∀ c ∈ decimal e.natAbs, isDigit c = true := fun c => isDigit_of_mem_decimal
  have hhead : (decimal e.natAbs ++ rest).head?.any isDigit = true := head?_any_isDigit (decimal_ne_nil _) hds
  have htake := takeWhile_digits hds hrest
  have hdrop := dropWhile_digits hds hrest
  have hsign : unit '+' ≠ unit '-' := by decide
  by_cases he : 0 ≤ e
  · have habs : (e.natAbs : Int) = e := Int.natAbs_of_nonneg he
    simp [-List.head?_append, exponentText, he, readExponent, hsign, hhead, htake, hdrop, digitsValue_decimal,
      habs]
  · have habs : -|e| = e := by
      rw [abs_of_neg (not_le.mp he), neg_neg]
    simp [-List.head?_append, exponentText, he, readExponent, hhead, htake, hdrop, digitsValue_decimal, habs]

theorem endsDigits_of_endsNumber {rest : Text} (h : EndsNumber rest) : EndsDigits rest :=
  fun c hc => isDigit_eq_false (h c hc).1

theorem endsDigits_cons {c : UInt16} (hc : isDigit c = false) (s : Text) : EndsDigits (c :: s) := by
  intro d hd
  cases hd
  exact hc

theorem readNumber_numeralText {integer fraction rest : Text} {exponent : Option Int}
    (hzero : integer.head? = some (unit '0') → integer.length = 1) (hinteger : ∀ c ∈ integer, isDigit c = true)
    (hfraction : ∀ c ∈ fraction, isDigit c = true) (hrest : EndsNumber rest) :
    readNumber (numeralText integer fraction exponent ++ rest) =
      some ((digitsValue (integer ++ fraction) : Rat) * 10 ^ (exponent.getD 0 - fraction.length), rest) := by
  have hends : EndsDigits rest := endsDigits_of_endsNumber hrest
  have hexponent : readExponent (exponent.elim [] exponentText ++ rest) = (exponent.getD 0, rest) := by
    cases exponent with
    | none =>
      apply readExponent_none
      intro c hc
      have hother : isOther c = false := (hrest c hc).1
      exact ⟨fun h => absurd (h ▸ hother) (by decide), fun h => absurd (h ▸ hother) (by decide)⟩
    | some e => exact readExponent_exponentText e hends
  have htailEnds : EndsDigits (exponent.elim [] exponentText ++ rest) := by
    cases exponent with
    | none => exact hends
    | some e => exact endsDigits_cons (by decide) _
  have hfractionText : readFraction ((if fraction = [] then [] else unit '.' :: fraction) ++
      (exponent.elim [] exponentText ++ rest)) = (fraction, exponent.elim [] exponentText ++ rest) := by
    by_cases hempty : fraction = []
    · rw [if_pos hempty, List.nil_append, hempty]
      apply readFraction_none
      cases exponent with
      | none => exact fun c hc => (hrest c hc).2
      | some e =>
        intro c hc
        cases hc
        decide
    · rw [if_neg hempty]
      exact readFraction_fraction hempty hfraction htailEnds
  have hintegerEnds : EndsDigits ((if fraction = [] then [] else unit '.' :: fraction) ++
      (exponent.elim [] exponentText ++ rest)) := by
    by_cases hempty : fraction = []
    · rw [if_pos hempty]
      exact htailEnds
    · rw [if_neg hempty]
      exact endsDigits_cons (by decide) _
  have hleading : ¬ ((decide (integer.head? = some (unit '0')) && decide (1 < integer.length)) = true) := by
    simp only [Bool.and_eq_true, decide_eq_true_eq, not_and]
    intro hhead
    rw [hzero hhead]
    decide
  have hattached : ¬ (rest.head?.any isOther = true) := by
    cases rest with
    | nil => simp
    | cons c rest => simp [(hrest c rfl).1]
  have htext : numeralText integer fraction exponent ++ rest = integer ++
      ((if fraction = [] then [] else unit '.' :: fraction) ++ (exponent.elim [] exponentText ++ rest)) := by
    simp only [numeralText, List.append_assoc]
  rw [htext, readNumber]
  simp only [takeWhile_digits hinteger hintegerEnds, dropWhile_digits hinteger hintegerEnds, hfractionText, hexponent,
    if_neg hleading, if_neg hattached]

/-! ### The four forms of a number -/

theorem readNumber_integer (n : ShortestDecimal) {rest : Text} (hrest : EndsNumber rest) (hle : (n.digits.length : Int) ≤ n.point) :
    readNumber (n.digits ++ zeros (n.point - n.digits.length).toNat ++ rest) = some (n.magnitude, rest) := by
  let m := (n.point - n.digits.length).toNat
  have htext : n.digits ++ zeros m = numeralText (n.digits ++ zeros m) [] none := by
    simp [numeralText]
  have hhead : (n.digits ++ zeros m).head? = some (unit '0') → (n.digits ++ zeros m).length = 1 := by
    intro hhead
    rw [List.head?_append_of_ne_nil _ (digits_ne_nil n)] at hhead
    exact absurd hhead (head?_digits_ne_zero n)
  have hdigits : ∀ c ∈ n.digits ++ zeros m, isDigit c = true :=
    isDigit_of_mem_append (fun c => isDigit_of_mem_digits) (fun c => isDigit_of_mem_zeros)
  have hvalue : digitsValue (n.digits ++ zeros m ++ []) = n.significand * 10 ^ m := by
    rw [List.append_nil, digitsValue_append, digitsValue_digits, digitsValue_zeros, zeros, List.length_replicate,
      Nat.add_zero]
  have hexponent : n.point - n.digits.length = (m : Int) := (Int.toNat_of_nonneg (by omega)).symm
  rw [htext, readNumber_numeralText hhead hdigits (by simp) hrest, hvalue, ShortestDecimal.magnitude, hexponent]
  simp

theorem readNumber_mixed (n : ShortestDecimal) {rest : Text} (hrest : EndsNumber rest) (hpos : 0 < n.point)
    (hlt : n.point < n.digits.length) :
    readNumber (n.digits.take n.point.toNat ++ unit '.' :: n.digits.drop n.point.toNat ++ rest) =
      some (n.magnitude, rest) := by
  have hne : n.digits.drop n.point.toNat ≠ [] := by
    intro hnil
    have hle := List.drop_eq_nil_iff.mp hnil
    omega
  have htext : n.digits.take n.point.toNat ++ unit '.' :: n.digits.drop n.point.toNat =
      numeralText (n.digits.take n.point.toNat) (n.digits.drop n.point.toNat) none := by
    simp only [numeralText, if_neg hne, Option.elim_none, List.append_nil]
  have hhead : (n.digits.take n.point.toNat).head? = some (unit '0') → (n.digits.take n.point.toNat).length = 1 := by
    intro hhead
    rw [List.head?_take, if_neg (by omega)] at hhead
    exact absurd hhead (head?_digits_ne_zero n)
  have hexponent : n.point - n.digits.length = 0 - ((n.digits.drop n.point.toNat).length : Int) := by
    rw [List.length_drop]
    omega
  rw [htext, readNumber_numeralText hhead (fun c hc => isDigit_of_mem_digits (List.mem_of_mem_take hc))
    (fun c hc => isDigit_of_mem_digits (List.mem_of_mem_drop hc)) hrest, List.take_append_drop, digitsValue_digits,
    ShortestDecimal.magnitude, hexponent]
  rfl

theorem readNumber_fraction (n : ShortestDecimal) {rest : Text} (hrest : EndsNumber rest) (hle : n.point ≤ 0) :
    readNumber (text "0." ++ zeros (-n.point).toNat ++ n.digits ++ rest) = some (n.magnitude, rest) := by
  let m := (-n.point).toNat
  have htext : text "0." ++ zeros m ++ n.digits = numeralText (text "0") (zeros m ++ n.digits) none := by
    have hne : zeros m ++ n.digits ≠ [] := by simp [digits_ne_nil]
    rw [numeralText, if_neg hne, Option.elim_none, List.append_nil, List.append_assoc]
    rfl
  have hdigits : ∀ c ∈ zeros m ++ n.digits, isDigit c = true :=
    isDigit_of_mem_append (fun c => isDigit_of_mem_zeros) (fun c => isDigit_of_mem_digits)
  have hvalue : digitsValue (text "0" ++ (zeros m ++ n.digits)) = n.significand := by
    have hzero : digitsValue (text "0") = 0 := by decide
    rw [digitsValue_append, hzero, digitsValue_append, digitsValue_zeros, digitsValue_digits, Nat.zero_mul, Nat.zero_mul,
      Nat.zero_add, Nat.zero_add]
  have hzero : ∀ c ∈ text "0", isDigit c = true := List.all_iff_forall_prop.mp (by decide)
  have hexponent : n.point - n.digits.length = 0 - ((zeros m ++ n.digits).length : Int) := by
    rw [List.length_append, zeros, List.length_replicate]
    omega
  rw [htext, readNumber_numeralText (fun _ => rfl) hzero hdigits hrest, hvalue, ShortestDecimal.magnitude, hexponent]
  rfl

theorem readNumber_exponential (n : ShortestDecimal) {rest : Text} (hrest : EndsNumber rest) :
    readNumber (mantissa n.digits ++ exponentText (n.point - 1) ++ rest) = some (n.magnitude, rest) := by
  obtain ⟨d, ds, hds⟩ := List.exists_cons_of_ne_nil (decimal_ne_nil n.significand)
  have hdigits : n.digits = [d] ++ ds := hds
  have htext : mantissa n.digits ++ exponentText (n.point - 1) = numeralText [d] ds (some (n.point - 1)) := by
    rw [hdigits]
    cases ds with
    | nil => rfl
    | cons e ds => simp [mantissa, numeralText]
  have hmem : ∀ c ∈ [d] ++ ds, isDigit c = true := fun c hc => isDigit_of_mem_digits (hdigits ▸ hc)
  have hexponent : n.point - n.digits.length = (some (n.point - 1)).getD 0 - (ds.length : Int) := by
    rw [hdigits, List.length_append, List.length_singleton, Option.getD_some]
    omega
  rw [htext, readNumber_numeralText (fun _ => rfl) (fun c hc => hmem c (List.mem_append_left _ hc))
    (fun c hc => hmem c (List.mem_append_right _ hc)) hrest, ← hdigits, digitsValue_digits, ShortestDecimal.magnitude,
    hexponent]

theorem readNumber_unsignedText (n : ShortestDecimal) {rest : Text} (hrest : EndsNumber rest) :
    readNumber (n.unsignedText ++ rest) = some (n.magnitude, rest) := by
  simp only [ShortestDecimal.unsignedText]
  by_cases hinteger : (n.digits.length : Int) ≤ n.point ∧ n.point ≤ 21
  · rw [if_pos hinteger]
    exact readNumber_integer n hrest hinteger.1
  rw [if_neg hinteger]
  by_cases hmixed : 0 < n.point ∧ n.point ≤ 21
  · rw [if_pos hmixed]
    exact readNumber_mixed n hrest hmixed.1 (by omega)
  rw [if_neg hmixed]
  by_cases hfraction : -6 < n.point ∧ n.point ≤ 0
  · rw [if_pos hfraction]
    exact readNumber_fraction n hrest hfraction.2
  · rw [if_neg hfraction]
    exact readNumber_exponential n hrest

end Postgres

end Coaty
