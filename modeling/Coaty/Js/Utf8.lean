import Coaty.Js.JsonText

/-!
# The UTF-8 length of strings

A string stands for a sequence of code points, of which those from `0x10000` on take two code units, a surrogate pair. UTF-8 takes one to four bytes for a code point.
-/

namespace Js

def pairedCodePoint (high low : UInt16) : Nat := 0x10000 + (high.toNat - 0xD800) * 0x400 + (low.toNat - 0xDC00)

/-- The code points of a string. An unpaired surrogate stands for itself. -/
def codePoints : Text → List Nat
  | [] => []
  | c :: s =>
    if isHighSurrogate c then
      match s with
      | [] => [c.toNat]
      | d :: s => if isLowSurrogate d then pairedCodePoint c d :: codePoints s else c.toNat :: codePoints (d :: s)
    else c.toNat :: codePoints s

def utf8Width (codePoint : Nat) : Nat :=
  if codePoint ≤ 0x7F then 1 else if codePoint ≤ 0x7FF then 2 else if codePoint ≤ 0xFFFF then 3 else 4

def utf8Length (s : Text) : Nat := ((codePoints s).map utf8Width).sum

/-- The number of characters beyond the basic multilingual plane. -/
def supplementaryCount (s : Text) : Nat := (codePoints s).countP (0xFFFF < ·)

/-- Strings without unpaired surrogates are those made of other code units and of surrogate pairs. -/
theorem induction_of_isWellFormed {P : Text → Prop} (nil : P [])
    (unit : ∀ c s, isHighSurrogate c = false → isLowSurrogate c = false → isWellFormed s = true → P s → P (c :: s))
    (pair : ∀ c d s, isHighSurrogate c = true → isLowSurrogate d = true → isWellFormed s = true → P s → P (c :: d :: s))
    {s : Text} (h : isWellFormed s = true) : P s := by
  fun_induction isWellFormed s with
  | case1 => exact nil
  | case2 => cases h
  | case3 c hhigh d s ih =>
    rw [Bool.and_eq_true] at h
    exact pair c d s hhigh h.1 h.2 (ih h.2)
  | case4 c s hhigh ih =>
    rw [Bool.and_eq_true, Bool.not_eq_true'] at h
    exact unit c s (Bool.eq_false_of_not_eq_true hhigh) h.1 h.2 (ih h.2)

theorem codePoints_unit {c : UInt16} (h : isHighSurrogate c = false) (s : Text) :
    codePoints (c :: s) = c.toNat :: codePoints s := by
  rw [codePoints.eq_def]
  simp [h]

theorem codePoints_pair {c d : UInt16} (hc : isHighSurrogate c = true) (hd : isLowSurrogate d = true) (s : Text) :
    codePoints (c :: d :: s) = pairedCodePoint c d :: codePoints s := by
  rw [codePoints.eq_def]
  simp [hc, hd]

theorem lt_pairedCodePoint (high low : UInt16) : 0xFFFF < pairedCodePoint high low := by
  have hbound : ∀ n m : Nat, 0xFFFF < 0x10000 + n + m := fun n m => by omega
  exact hbound _ _

theorem supplementaryCount_unit {c : UInt16} (h : isHighSurrogate c = false) (s : Text) :
    supplementaryCount (c :: s) = supplementaryCount s := by
  have hc : c.toNat < 65536 := c.toNat_lt
  rw [supplementaryCount, codePoints_unit h, List.countP_cons_of_neg, supplementaryCount]
  simp only [decide_eq_true_eq]
  omega

theorem supplementaryCount_pair {c d : UInt16} (hc : isHighSurrogate c = true) (hd : isLowSurrogate d = true) (s : Text) :
    supplementaryCount (c :: d :: s) = supplementaryCount s + 1 := by
  rw [supplementaryCount, codePoints_pair hc hd, List.countP_cons_of_pos, supplementaryCount]
  exact decide_eq_true (lt_pairedCodePoint c d)

theorem utf8Length_unit {c : UInt16} (h : isHighSurrogate c = false) (s : Text) :
    utf8Length (c :: s) = utf8Width c.toNat + utf8Length s := by
  rw [utf8Length, codePoints_unit h, List.map_cons, List.sum_cons, utf8Length]

theorem utf8Length_pair {c d : UInt16} (hc : isHighSurrogate c = true) (hd : isLowSurrogate d = true) (s : Text) :
    utf8Length (c :: d :: s) = 4 + utf8Length s := by
  have hwidth : utf8Width (pairedCodePoint c d) = 4 := by
    have hlt := lt_pairedCodePoint c d
    unfold utf8Width
    split_ifs <;> omega
  rw [utf8Length, codePoints_pair hc hd, List.map_cons, List.sum_cons, hwidth, utf8Length]

end Js
