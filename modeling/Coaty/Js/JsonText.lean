import Coaty.Js.Number
import Mathlib.Algebra.Field.Rat
import Mathlib.Algebra.Order.Ring.Unbundled.Rat

/-!
# JSON text of primitive values

What `JSON.stringify` makes of `null`, a boolean, a number or a string. A number that is not zero is its shortest decimal: the digits, without a zero at the end, and the position of the decimal point in front of, behind or among them. Its text is that of `Number.prototype.toString`. In a string, quotes, backslashes, control characters and unpaired surrogates are escaped.
-/

namespace Js

/-! ### Numbers -/

structure ShortestDecimal where
  negative : Bool
  significand : Nat
  /-- How many digits the integer part would have. -/
  point : Int
  shortest : significand % 10 ≠ 0

inductive Numeral where
  | zero
  | nonzero (n : ShortestDecimal)

def zeros (n : Nat) : Text := List.replicate n (unit '0')

/-- The exponent with its sign. -/
def exponentText (e : Int) : Text := unit 'e' :: (if 0 ≤ e then unit '+' else unit '-') :: decimal e.natAbs

namespace ShortestDecimal

variable (n : ShortestDecimal)

def digits : Text := decimal n.significand

/-- `String(x)` for a positive `x`. -/
def unsignedText : Text :=
  let k : Int := n.digits.length
  if k ≤ n.point ∧ n.point ≤ 21 then n.digits ++ zeros (n.point - k).toNat
  else if 0 < n.point ∧ n.point ≤ 21 then
    n.digits.take n.point.toNat ++ unit '.' :: n.digits.drop n.point.toNat
  else if -6 < n.point ∧ n.point ≤ 0 then text "0." ++ zeros (-n.point).toNat ++ n.digits
  else mantissa n.digits ++ exponentText (n.point - 1)

def toText : Text := if n.negative then unit '-' :: n.unsignedText else n.unsignedText

/-- The number without its sign. -/
def magnitude : Rat := n.significand * 10 ^ (n.point - n.digits.length)

def value : Rat := if n.negative then -n.magnitude else n.magnitude

end ShortestDecimal

namespace Numeral

def toText : Numeral → Text
  | zero => text "0"
  | nonzero n => n.toText

def value : Numeral → Rat
  | zero => 0
  | nonzero n => n.value

end Numeral

/-! ### Strings -/

def isHighSurrogate (c : UInt16) : Bool := 0xD800 ≤ c.toNat && c.toNat < 0xDC00

def isLowSurrogate (c : UInt16) : Bool := 0xDC00 ≤ c.toNat && c.toNat < 0xE000

/-- No surrogate is unpaired. -/
def isWellFormed : Text → Bool
  | [] => true
  | c :: s =>
    if isHighSurrogate c then
      match s with
      | [] => false
      | d :: s => isLowSurrogate d && isWellFormed s
    else !isLowSurrogate c && isWellFormed s

def hexDigit (n : Nat) : UInt16 := if n < 10 then digitUnit n else UInt16.ofNat (87 + n)

def unicodeEscape (c : UInt16) : Text :=
  text "\\u" ++ [hexDigit (c.toNat / 4096), hexDigit (c.toNat / 256 % 16), hexDigit (c.toNat / 16 % 16),
    hexDigit (c.toNat % 16)]

/-- The text for a code unit that is no surrogate. -/
def escapeUnit (c : UInt16) : Text :=
  if c = 8 then text "\\b"
  else if c = 9 then text "\\t"
  else if c = 10 then text "\\n"
  else if c = 12 then text "\\f"
  else if c = 13 then text "\\r"
  else if c = 34 then text "\\\""
  else if c = 92 then text "\\\\"
  else if c.toNat < 32 then unicodeEscape c
  else [c]

def escapeUnits : Text → Text
  | [] => []
  | c :: s =>
    if isHighSurrogate c then
      match s with
      | [] => unicodeEscape c
      | d :: s => if isLowSurrogate d then c :: d :: escapeUnits s else unicodeEscape c ++ escapeUnits (d :: s)
    else if isLowSurrogate c then unicodeEscape c ++ escapeUnits s
    else escapeUnit c ++ escapeUnits s

def jsonString (s : Text) : Text := 34 :: escapeUnits s ++ [34]

/-! ### Primitive values -/

inductive JsonPrimitive where
  | null
  | bool (b : Bool)
  | number (n : Numeral)
  | string (s : Text)

/-- `JSON.stringify(value)` -/
def JsonPrimitive.stringify : JsonPrimitive → Text
  | null => text "null"
  | bool b => text (if b then "true" else "false")
  | number n => n.toText
  | string s => jsonString s

/-! ### Digits of a number -/

theorem digitUnit_digitValue {c : UInt16} (hc : isDigit c = true) : digitUnit (digitValue c) = c := by
  simp only [isDigit, Bool.and_eq_true, decide_eq_true_eq] at hc
  have hval : 48 + digitValue c = c.toNat := by
    rw [digitValue]
    omega
  rw [digitUnit, hval, UInt16.ofNat_toNat]

theorem digitValue_lt {c : UInt16} (hc : isDigit c = true) : digitValue c < 10 := by
  simp only [isDigit, Bool.and_eq_true, decide_eq_true_eq] at hc
  rw [digitValue]
  omega

theorem forall_isDigit {P : UInt16 → Prop} (h : ∀ d : Fin 10, P (digitUnit d)) {c : UInt16} (hc : isDigit c = true) : P c := by
  rw [← digitUnit_digitValue hc]
  exact h ⟨digitValue c, digitValue_lt hc⟩

theorem digitsValue_append (s t : Text) : digitsValue (s ++ t) = digitsValue s * 10 ^ t.length + digitsValue t := by
  rw [digitsValue, List.reverse_append, List.map_append, Nat.ofDigits_append, List.length_map, List.length_reverse,
    Nat.add_comm, Nat.mul_comm]
  rfl

theorem digitsValue_zeros (n : Nat) : digitsValue (zeros n) = 0 := by
  have hzero : digitValue (unit '0') = 0 := by decide
  rw [digitsValue, zeros, List.reverse_replicate, List.map_replicate, hzero, Nat.ofDigits_replicate_zero]

theorem isDigit_of_mem_zeros {n : Nat} {c : UInt16} (hc : c ∈ zeros n) : isDigit c = true := by
  rw [List.eq_of_mem_replicate hc]
  decide

theorem head?_decimal_ne_zero {n : Nat} (hn : n ≠ 0) : (decimal n).head? ≠ some (unit '0') := by
  intro hhead
  rw [decimal, if_neg hn, List.head?_reverse, List.getLast?_map, List.getLast?_eq_getLast_of_ne_nil (Nat.digits_ne_nil_iff_ne_zero.mpr hn),
    Option.map_some, Option.some.injEq] at hhead
  have hlt : (Nat.digits 10 n).getLast (Nat.digits_ne_nil_iff_ne_zero.mpr hn) < 10 :=
    Nat.digits_lt_base (by decide) (List.getLast_mem _)
  have hzero : digitValue (unit '0') = 0 := by decide
  have hvalue := congrArg digitValue hhead
  rw [digitValue_digitUnit hlt, hzero] at hvalue
  exact Nat.getLast_digit_ne_zero 10 hn hvalue

theorem significand_ne_zero (n : ShortestDecimal) : n.significand ≠ 0 := by
  intro h
  have hshortest := n.shortest
  rw [h] at hshortest
  exact hshortest rfl

theorem head?_digits_ne_zero (n : ShortestDecimal) : n.digits.head? ≠ some (unit '0') :=
  head?_decimal_ne_zero (significand_ne_zero n)

theorem isDigit_of_mem_digits {n : ShortestDecimal} {c : UInt16} (hc : c ∈ n.digits) : isDigit c = true :=
  isDigit_of_mem_decimal hc

theorem digits_ne_nil (n : ShortestDecimal) : n.digits ≠ [] := decimal_ne_nil _

theorem digitsValue_digits (n : ShortestDecimal) : digitsValue n.digits = n.significand := digitsValue_decimal _

theorem isDigit_of_mem_append {s t : Text} (hs : ∀ c ∈ s, isDigit c = true) (ht : ∀ c ∈ t, isDigit c = true) :
    ∀ c ∈ s ++ t, isDigit c = true :=
  fun c hc => (List.mem_append.mp hc).elim (hs c) (ht c)

end Js
