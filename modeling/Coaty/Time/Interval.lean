import Coaty.Js.Double
import Coaty.Time.Iso8601

/-!
# Durations and intervals in ISO 8601

A duration is written in seconds, with a decimal fraction. An interval has two parts with a slash between them, or it is a duration on its own.
-/

namespace Iso8601

open Js

/-- A decimal without a sign and without an exponent. -/
def readDecimal (s : Text) : Option Rat :=
  let integer := s.takeWhile isDigit
  match s.dropWhile isDigit with
  | [] => if integer = [] then none else some (digitsValue integer)
  | c :: fraction =>
    if integer ≠ [] ∧ c = unit '.' ∧ fraction ≠ [] ∧ fraction.all isDigit then
      some (digitsValue integer + digitsValue fraction / 10 ^ fraction.length)
    else none

/-- A duration in seconds, read in milliseconds. -/
def readDuration (s : Text) : Option Rat :=
  if s.startsWith (text "PT") ∧ s.getLast? = some (unit 'S') then
    (readDecimal (s.drop 2).dropLast).map (· * 1000)
  else none

/-- An interval in one of its four formats, in milliseconds. -/
inductive Interval where
  | startEnd (start finish : Int)
  | startDuration (start : Int) (duration : Rat)
  | durationEnd (duration : Rat) (finish : Int)
  | durationOnly (duration : Rat)
deriving DecidableEq

def Interval.parseParts (before after : Text) : Option Interval :=
  match readDuration before with
  | some duration => (DateTime.parse after).map (durationEnd duration)
  | none => do
    let start ← DateTime.parse before
    match readDuration after with
    | some duration => some (startDuration start duration)
    | none => (DateTime.parse after).map (startEnd start)

def Interval.parse (s : Text) : Option Interval :=
  match s.indexOf (unit '/') with
  | none => (readDuration s).map durationOnly
  | some i => parseParts (s.take i) (s.drop (i + 1))

/-! ### Reading a decimal -/

section Decimal

variable {integer fraction : Text}

theorem readDecimal_digits (hinteger : ∀ c ∈ integer, isDigit c = true) (hne : integer ≠ []) :
    readDecimal integer = some (digitsValue integer : Rat) := by
  rw [readDecimal, List.takeWhile_eq_self_iff.mpr hinteger, List.dropWhile_eq_nil_iff.mpr hinteger]
  exact if_neg hne

theorem readDecimal_fraction (hinteger : ∀ c ∈ integer, isDigit c = true) (hne : integer ≠ [])
    (hfraction : ∀ c ∈ fraction, isDigit c = true) (hne' : fraction ≠ []) :
    readDecimal (integer ++ unit '.' :: fraction) =
      some (digitsValue integer + digitsValue fraction / 10 ^ fraction.length : Rat) := by
  have hpoint : isDigit (unit '.') = false := by decide
  have htake : (integer ++ unit '.' :: fraction).takeWhile isDigit = integer := by
    rw [List.takeWhile_append_of_pos hinteger, List.takeWhile_cons_of_neg (by simp [hpoint]), List.append_nil]
  have hdrop : (integer ++ unit '.' :: fraction).dropWhile isDigit = unit '.' :: fraction := by
    rw [List.dropWhile_append_of_pos hinteger, List.dropWhile_cons_of_neg (by simp [hpoint])]
  rw [readDecimal, htake, hdrop]
  exact if_pos ⟨hne, rfl, hne', List.all_eq_true.mpr hfraction⟩

theorem digitsValue_append_div (s t : Text) :
    (digitsValue s + digitsValue t / 10 ^ t.length : Rat) = digitsValue (s ++ t) / 10 ^ t.length := by
  rw [digitsValue_append]
  push_cast
  field_simp

end Decimal

theorem readDecimal_unsignedText (n : ShortestDecimal) (hlow : -6 < n.point) (hhigh : n.point ≤ 21) :
    readDecimal n.unsignedText = some n.magnitude := by
  have hdigits : ∀ c ∈ n.digits, isDigit c = true := fun c hc => isDigit_of_mem_digits hc
  have hzeros : ∀ {k : Nat}, ∀ c ∈ zeros k, isDigit c = true := fun c hc => isDigit_of_mem_zeros hc
  have hlength : 0 < n.digits.length := List.length_pos_iff.mpr (digits_ne_nil n)
  rw [ShortestDecimal.unsignedText, ShortestDecimal.magnitude]
  split
  · rename_i hinteger
    obtain ⟨k, hk⟩ : ∃ k : Nat, n.point - n.digits.length = (k : Int) := ⟨(n.point - n.digits.length).toNat, by omega⟩
    have hvalue : digitsValue (n.digits ++ zeros k) = n.significand * 10 ^ k := by
      rw [digitsValue_append, digitsValue_digits, digitsValue_zeros, Nat.add_zero, zeros, List.length_replicate]
    rw [hk, Int.toNat_natCast, readDecimal_digits (isDigit_of_mem_append hdigits hzeros)
      (List.append_ne_nil_of_left_ne_nil (digits_ne_nil n) _), hvalue, zpow_natCast]
    push_cast
    rfl
  · rename_i hinteger
    split
    · rename_i hmixed
      obtain ⟨k, hk⟩ : ∃ k : Nat, n.point = (k : Int) := ⟨n.point.toNat, by omega⟩
      have hlt : k < n.digits.length := by omega
      have hexponent : n.point - n.digits.length = -((n.digits.length - k : Nat) : Int) := by omega
      have htake : n.digits.take k ≠ [] := by
        rw [← List.length_pos_iff, List.length_take]
        omega
      have hdrop : n.digits.drop k ≠ [] := by
        rw [← List.length_pos_iff, List.length_drop]
        omega
      rw [hexponent, hk, Int.toNat_natCast, readDecimal_fraction (fun c hc => hdigits c (List.mem_of_mem_take hc)) htake
        (fun c hc => hdigits c (List.mem_of_mem_drop hc)) hdrop, digitsValue_append_div, List.take_append_drop,
        digitsValue_digits, List.length_drop, zpow_neg, zpow_natCast, div_eq_mul_inv]
    · rename_i hmixed
      have hfraction : -6 < n.point ∧ n.point ≤ 0 := by omega
      obtain ⟨k, hk⟩ : ∃ k : Nat, -n.point = (k : Int) := ⟨(-n.point).toNat, by omega⟩
      have hexponent : n.point - n.digits.length = -((k + n.digits.length : Nat) : Int) := by omega
      have htext : text "0." ++ zeros k ++ n.digits = text "0" ++ unit '.' :: (zeros k ++ n.digits) := by
        rw [List.append_assoc]
        rfl
      have hzero : ∀ c ∈ text "0", isDigit c = true := fun c hc => @isDigit_of_mem_decimal 0 c hc
      have hne : zeros k ++ n.digits ≠ [] := List.append_ne_nil_of_right_ne_nil _ (digits_ne_nil n)
      have hvalue : digitsValue (zeros k ++ n.digits) = n.significand := by
        rw [digitsValue_append, digitsValue_zeros, Nat.zero_mul, Nat.zero_add, digitsValue_digits]
      have hzeroValue : digitsValue (text "0") = 0 := by decide
      rw [if_pos hfraction, hk, Int.toNat_natCast, htext, readDecimal_fraction hzero (by decide)
        (isDigit_of_mem_append hzeros hdigits) hne, hvalue, hzeroValue, List.length_append, zeros, List.length_replicate,
        hexponent, zpow_neg, zpow_natCast, div_eq_mul_inv, Nat.cast_zero, zero_add]

/-- From `10 ^ -6` up to `10 ^ 21` the text of a number is a decimal without an exponent. -/
theorem readDecimal_toText {n : Numeral} (hlow : 10 ^ (-6 : Int) ≤ n.value) (hhigh : n.value < 10 ^ (21 : Int)) :
    readDecimal n.toText = some n.value := by
  cases n with
  | zero => rfl
  | nonzero n =>
    have hpos := @value_pos_of_nonzero n
    rw [Numeral.value, ShortestDecimal.value] at hlow hhigh ⊢
    rw [Numeral.toText, ShortestDecimal.toText]
    by_cases hnegative : n.negative = true
    · rw [if_pos hnegative] at hlow
      have hpow : (0 : Rat) < 10 ^ (-6 : Int) := by positivity
      linarith
    · rw [if_neg hnegative] at hlow hhigh ⊢
      rw [if_neg hnegative]
      have hpoint : -6 < n.point := (zpow_lt_zpow_iff_right₀ (by norm_num)).mp (hlow.trans_lt (magnitude_lt n))
      have hpoint' : n.point - 1 < 21 := (zpow_lt_zpow_iff_right₀ (by norm_num)).mp ((le_magnitude n).trans_lt hhigh)
      exact readDecimal_unsignedText n hpoint (by omega)

theorem mem_of_readDecimal {s : Text} {q : Rat} (h : readDecimal s = some q) {c : UInt16} (hc : c ∈ s) :
    isDigit c = true ∨ c = unit '.' := by
  rw [← @List.takeWhile_append_dropWhile _ isDigit s, List.mem_append] at hc
  obtain hinteger | hrest := hc
  · exact .inl (List.mem_takeWhile_imp hinteger)
  · rw [readDecimal] at h
    split at h
    · rename_i hnil
      rw [hnil] at hrest
      cases hrest
    · rename_i c' fraction hcons
      split at h
      · rename_i hfraction
        rw [hcons, List.mem_cons] at hrest
        obtain rfl | hmem := hrest
        · exact .inr hfraction.2.1
        · exact .inl (List.all_eq_true.mp hfraction.2.2.2 _ hmem)
      · cases h

/-! ### Reading a duration or an interval -/

theorem readDuration_append (s : Text) :
    readDuration (text "PT" ++ s ++ text "S") = (readDecimal s).map (· * 1000) := by
  have hstart : (text "PT" ++ s ++ text "S").startsWith (text "PT") = true := by
    rw [List.append_assoc]
    exact Text.startsWith_append _ _
  have hlast : (text "PT" ++ s ++ text "S").getLast? = some (unit 'S') := List.getLast?_concat
  have hmiddle : ((text "PT" ++ s ++ text "S").drop 2).dropLast = s := by
    rw [List.append_assoc]
    exact List.dropLast_concat
  rw [readDuration, if_pos ⟨hstart, hlast⟩, hmiddle]

theorem readDuration_of_head? {s : Text} (h : s.head? ≠ some (unit 'P')) : readDuration s = none := by
  rw [readDuration]
  refine if_neg fun hduration => h ?_
  obtain ⟨rest, rfl⟩ := Text.startsWith_iff.mp hduration.1
  rfl

/-! ### The slash of an interval -/

theorem slash_notMem_fixed (width n : Nat) : unit '/' ∉ fixed width n := by
  intro hmem
  have hdigit := isDigit_of_mem_fixed hmem
  revert hdigit
  decide

theorem Offset.slash_notMem_text (offset : Offset) : unit '/' ∉ offset.text := by
  cases offset with
  | utc => decide
  | shifted isWest hours minutes =>
    have hsign : unit '/' ≠ unit (if isWest then '-' else '+') := by cases isWest <;> decide
    have hcolon : unit '/' ≠ unit ':' := by decide
    simp only [Offset.text, List.mem_cons, List.mem_append, hsign, hcolon, slash_notMem_fixed, or_self, not_false_eq_true]

theorem DateTime.slash_notMem_middle (dateTime : DateTime) : unit '/' ∉ dateTime.middle := by
  have hhyphen : unit '/' ≠ unit '-' := by decide
  have htime : unit '/' ≠ unit 'T' := by decide
  have hcolon : unit '/' ≠ unit ':' := by decide
  simp only [DateTime.middle, List.mem_cons, List.mem_append, hhyphen, htime, hcolon, slash_notMem_fixed, or_self,
    not_false_eq_true]

theorem DateTime.slash_notMem_fraction (millisecond : Option Nat) : unit '/' ∉ DateTime.fraction millisecond := by
  cases millisecond with
  | none => exact List.not_mem_nil
  | some n =>
    have hpoint : unit '/' ≠ unit '.' := by decide
    rw [DateTime.fraction, List.mem_cons, not_or]
    exact ⟨hpoint, slash_notMem_fixed 3 n⟩

namespace Interval

variable {before after : Text}

theorem parse_append (h : unit '/' ∉ before) : parse (before ++ unit '/' :: after) = parseParts before after := by
  rw [parse, Text.indexOf_append_cons _ h]
  have hdrop : (before ++ unit '/' :: after).drop (before.length + 1) = after := by
    rw [List.drop_append]
    simp
  simp only [List.take_left, hdrop]

theorem parseParts_of_duration {duration : Rat} (h : readDuration before = some duration) :
    parseParts before after = (DateTime.parse after).map (durationEnd duration) := by
  rw [parseParts, h]

theorem parseParts_of_not_duration (h : readDuration before = none) :
    parseParts before after = (DateTime.parse before).bind fun start =>
      match readDuration after with
      | some duration => some (startDuration start duration)
      | none => (DateTime.parse after).map (startEnd start) := by
  rw [parseParts, h]
  rfl

end Interval

end Iso8601
