import Coaty.Js.Text
import Mathlib.Data.List.DropRight
import Mathlib.Data.Nat.Digits.Lemmas
import Mathlib.Tactic.Ring
import Mathlib.Tactic.NormNum

/-!
# Integer numbers as text

Converting a non-negative integer `Number` to a string writes the shortest decimal that rounds back to it, in full below `10^21` and in exponent form from there on. Parsing reads the longest prefix of decimal digits and rounds it. So an integer below `10^21` survives the round trip, a larger one does not, and two different integers are always written differently.
-/

namespace Js

/-- Round to the nearest double, ties to even. -/
def toDouble (n : Nat) : Nat :=
  if n < 2 ^ 53 then n
  else
    let ulp := 2 ^ (n.log2 - 52)
    let q := n / ulp
    let r := n % ulp
    if 2 * r < ulp ∨ (2 * r = ulp ∧ q % 2 = 0) then q * ulp else (q + 1) * ulp

/-- A non-negative integer that a `Number` holds without rounding. The upper end of the range of doubles plays no part and is left open. -/
@[ext] structure Integer where
  val : Nat
  exact : toDouble val = val
deriving DecidableEq

/-- The candidates with at most `e` trailing zeros fewer than asked for, shortest first; of two equally short ones the closer. -/
def shortestFrom (x : Nat) : Nat → Nat
  | 0 => x
  | e + 1 =>
    let below := x / 10 ^ (e + 1) * 10 ^ (e + 1)
    let above := below + 10 ^ (e + 1)
    if toDouble below = x ∧ (toDouble above = x → x - below ≤ above - x) then below
    else if toDouble above = x then above
    else shortestFrom x e

/-- The decimal with the fewest significant digits that rounds to `x`. -/
def shortest (x : Nat) : Nat := shortestFrom x (Nat.digits 10 x).length

def digitUnit (d : Nat) : UInt16 := UInt16.ofNat (48 + d)

def digitValue (c : UInt16) : Nat := c.toNat - 48

def isDigit (c : UInt16) : Bool := 48 ≤ c.toNat && c.toNat ≤ 57

/-- Decimal digits, most significant first. -/
def decimal (n : Nat) : Text :=
  if n = 0 then text "0" else ((Nat.digits 10 n).map digitUnit).reverse

def mantissa : Text → Text
  | [] => []
  | [d] => [d]
  | d :: rest => d :: unit '.' :: rest

def exponential (n : Nat) : Text :=
  mantissa ((decimal n).rdropWhile (· = unit '0')) ++ text "e+" ++ decimal ((decimal n).length - 1)

/-- `String(x)` -/
def numberToString (x : Nat) : Text :=
  if shortest x < 10 ^ 21 then decimal (shortest x) else exponential (shortest x)

def whiteSpace : Text :=
  [9, 10, 11, 12, 13, 32, 160, 5760, 8192, 8193, 8194, 8195, 8196, 8197, 8198, 8199, 8200, 8201, 8202,
    8232, 8233, 8239, 8287, 12288, 65279]

def digitsValue (ds : Text) : Nat := Nat.ofDigits 10 (ds.reverse.map digitValue)

def parseDigits (s : Text) : Option Nat :=
  match s.takeWhile isDigit with
  | [] => none
  | ds => some (toDouble (digitsValue ds))

/-- `parseInt(s, 10)`, where `none` is `NaN`. -/
def parseInt (s : Text) : Option Int :=
  match s.dropWhile whiteSpace.contains with
  | [] => none
  | c :: rest =>
    if c = unit '-' then (parseDigits rest).map fun n => -(n : Int)
    else if c = unit '+' then (parseDigits rest).map fun n => (n : Int)
    else (parseDigits (c :: rest)).map fun n => (n : Int)

/-! ### Digits -/

theorem toNat_digitUnit {d : Nat} (h : d < 10) : (digitUnit d).toNat = 48 + d := by
  rw [digitUnit, UInt16.toNat_ofNat']
  omega

theorem digitValue_digitUnit {d : Nat} (h : d < 10) : digitValue (digitUnit d) = d := by
  rw [digitValue, toNat_digitUnit h]
  omega

theorem isDigit_digitUnit {d : Nat} (h : d < 10) : isDigit (digitUnit d) = true := by
  rw [isDigit, toNat_digitUnit h]
  simp only [Bool.and_eq_true, decide_eq_true_eq]
  omega

theorem isDigit_of_mem_decimal {n : Nat} {c : UInt16} (h : c ∈ decimal n) : isDigit c = true := by
  rw [decimal] at h
  split at h
  · have hc : c = unit '0' := by simpa [text] using h
    rw [hc]
    decide
  · rw [List.mem_reverse, List.mem_map] at h
    obtain ⟨d, hd, rfl⟩ := h
    exact isDigit_digitUnit (Nat.digits_lt_base (by decide) hd)

theorem decimal_ne_nil (n : Nat) : decimal n ≠ [] := by
  rw [decimal]
  split
  · decide
  · rename_i hn
    rw [Ne, List.reverse_eq_nil_iff, List.map_eq_nil_iff]
    exact Nat.digits_ne_nil_iff_ne_zero.mpr hn

theorem digitsValue_decimal (n : Nat) : digitsValue (decimal n) = n := by
  rw [decimal]
  split
  · rename_i hn
    rw [hn]
    decide
  · rw [digitsValue, List.reverse_reverse, List.map_map]
    have hid : (Nat.digits 10 n).map (digitValue ∘ digitUnit) = Nat.digits 10 n := by
      rw [List.map_congr_left (g := id), List.map_id]
      intro d hd
      exact digitValue_digitUnit (Nat.digits_lt_base (by decide) hd)
    rw [hid, Nat.ofDigits_digits]

theorem decimal_injective {m n : Nat} (h : decimal m = decimal n) : m = n := by
  rw [← digitsValue_decimal m, h, digitsValue_decimal]

theorem not_isDigit_of_ne {c : UInt16} (h : isDigit c = false) {n : Nat} : c ∉ decimal n := by
  intro hc
  rw [isDigit_of_mem_decimal hc] at h
  cases h

theorem decimal_ne_of_mem {c : UInt16} (h : isDigit c = false) {s : Text} (hc : c ∈ s) (n : Nat) : decimal n ≠ s :=
  fun heq => not_isDigit_of_ne h (heq ▸ hc)

/-! ### The shortest decimal -/

theorem toDouble_shortestFrom {x : Nat} (hx : toDouble x = x) (e : Nat) :
    toDouble (shortestFrom x e) = x := by
  induction e with
  | zero => exact hx
  | succ e ih =>
    rw [shortestFrom]
    split
    · rename_i h
      exact h.1
    · split
      · assumption
      · exact ih

theorem toDouble_shortest {x : Nat} (hx : toDouble x = x) : toDouble (shortest x) = x :=
  toDouble_shortestFrom hx _

/-- No candidate jumps over `10^21`, which is itself a double. -/
theorem shortestFrom_le {x : Nat} (hx : x < 10 ^ 21) {e : Nat} (he : e ≤ 21) :
    shortestFrom x e ≤ 10 ^ 21 := by
  induction e with
  | zero => exact hx.le
  | succ e ih =>
    have hpow : (10 : Nat) ^ 21 = 10 ^ (20 - e) * 10 ^ (e + 1) := by
      rw [← pow_add]
      congr 1
      omega
    have hdiv : x / 10 ^ (e + 1) < 10 ^ (20 - e) := by
      rw [Nat.div_lt_iff_lt_mul (by positivity), ← hpow]
      exact hx
    have habove : x / 10 ^ (e + 1) * 10 ^ (e + 1) + 10 ^ (e + 1) ≤ 10 ^ 21 := by
      rw [hpow, ← Nat.succ_mul]
      exact Nat.mul_le_mul_right _ hdiv
    rw [shortestFrom]
    split
    · exact (Nat.le_add_right _ _).trans habove
    · split
      · exact habove
      · exact ih (by omega)

theorem shortest_lt {x : Nat} (hx : x < 10 ^ 21) (hdouble : toDouble x = x) :
    shortest x < 10 ^ 21 := by
  have hlen : (Nat.digits 10 x).length ≤ 21 := by
    rw [Nat.digits_length_le_iff (by decide)]
    exact hx
  have hle := shortestFrom_le hx hlen
  refine lt_of_le_of_ne hle fun heq => ?_
  have hround := toDouble_shortest hdouble
  rw [shortest] at heq
  rw [shortest, heq] at hround
  have hself : toDouble (10 ^ 21) = 10 ^ 21 := by decide
  omega

/-! ### Round trip and injectivity -/

theorem parseDigits_decimal (n : Nat) : parseDigits (decimal n) = some (toDouble n) := by
  have hall : (decimal n).takeWhile isDigit = decimal n := by
    rw [List.takeWhile_eq_self_iff]
    exact fun c hc => isDigit_of_mem_decimal hc
  rw [parseDigits, hall]
  cases hd : decimal n with
  | nil => exact absurd hd (decimal_ne_nil n)
  | cons c rest =>
    dsimp only
    rw [← hd, digitsValue_decimal]

theorem not_whiteSpace_of_isDigit {c : UInt16} (h : isDigit c = true) : c ∉ whiteSpace := by
  have hall : whiteSpace.all fun w => !isDigit w := by decide
  intro hc
  have hdigit := List.all_eq_true.mp hall c hc
  rw [h] at hdigit
  cases hdigit

theorem ne_sign_of_isDigit {c : UInt16} (h : isDigit c = true) : c ≠ unit '-' ∧ c ≠ unit '+' := by
  refine ⟨?_, ?_⟩
  · rintro rfl
    revert h
    decide
  · rintro rfl
    revert h
    decide

theorem parseInt_decimal (n : Nat) : parseInt (decimal n) = some (toDouble n : Int) := by
  have hparse := parseDigits_decimal n
  cases hd : decimal n with
  | nil => exact absurd hd (decimal_ne_nil n)
  | cons c rest =>
    have hc : isDigit c = true := isDigit_of_mem_decimal (n := n) (by simp [hd])
    rw [hd] at hparse
    rw [parseInt, List.dropWhile_cons_of_neg (by simpa using not_whiteSpace_of_isDigit hc)]
    dsimp only
    rw [if_neg (ne_sign_of_isDigit hc).1, if_neg (ne_sign_of_isDigit hc).2, hparse]
    rfl

theorem parseInt_numberToString {x : Nat} (hx : x < 10 ^ 21) (hdouble : toDouble x = x) :
    parseInt (numberToString x) = some (x : Int) := by
  rw [numberToString, if_pos (shortest_lt hx hdouble), parseInt_decimal, toDouble_shortest hdouble]

theorem rdropWhile_append_replicate (c : UInt16) (s : Text) :
    s.rdropWhile (· = c) ++ List.replicate (s.length - (s.rdropWhile (· = c)).length) c = s := by
  induction s using List.reverseRecOn with
  | nil => simp
  | append_singleton s a ih =>
    by_cases h : a = c
    · have hle : (s.rdropWhile (· = c)).length ≤ s.length := (List.rdropWhile_prefix _ s).length_le
      have hlen : s.length + 1 - (s.rdropWhile (· = c)).length
          = (s.length - (s.rdropWhile (· = c)).length) + 1 := by omega
      rw [List.rdropWhile_concat_pos _ _ _ (by simpa using h), List.length_append, List.length_singleton,
        hlen, List.replicate_succ', ← List.append_assoc, ih, h]
    · rw [List.rdropWhile_concat_neg _ _ _ (by simpa using h)]
      simp

theorem mantissa_injective {s t : Text} (h : mantissa s = mantissa t) : s = t := by
  match s, t with
  | [], [] => rfl
  | [], [_] => simp [mantissa] at h
  | [], _ :: _ :: _ => simp [mantissa] at h
  | [_], [] => simp [mantissa] at h
  | _ :: _ :: _, [] => simp [mantissa] at h
  | [_], [_] => simpa [mantissa] using h
  | [_], _ :: _ :: _ => simp [mantissa] at h
  | _ :: _ :: _, [_] => simp [mantissa] at h
  | _ :: _ :: _, _ :: _ :: _ => simpa [mantissa] using h

theorem mem_mantissa {s : Text} {c : UInt16} (h : c ∈ mantissa s) : c ∈ s ∨ c = unit '.' := by
  match s with
  | [] => simp [mantissa] at h
  | [_] => exact Or.inl h
  | d :: e :: rest =>
    simp only [mantissa, List.mem_cons] at h ⊢
    tauto

theorem mem_exponential_mantissa {n : Nat} {c : UInt16}
    (h : c ∈ mantissa ((decimal n).rdropWhile (· = unit '0'))) : isDigit c = true ∨ c = unit '.' := by
  rcases mem_mantissa h with h | h
  · exact Or.inl (isDigit_of_mem_decimal ((List.rdropWhile_prefix _ _).subset h))
  · exact Or.inr h

theorem exponential_injective {m n : Nat} (h : exponential m = exponential n) : m = n := by
  have hfree : ∀ k, unit 'e' ∉ mantissa ((decimal k).rdropWhile (· = unit '0')) := by
    intro k hk
    rcases mem_exponential_mantissa hk with hk | hk
    · revert hk
      decide
    · revert hk
      decide
  have hplus : ∀ k, exponential k = mantissa ((decimal k).rdropWhile (· = unit '0'))
      ++ unit 'e' :: (unit '+' :: decimal ((decimal k).length - 1)) := by
    intro k
    rw [exponential, List.append_assoc]
    rfl
  have hfreeTail : ∀ k, unit 'e' ∉ unit '+' :: decimal ((decimal k).length - 1) := by
    intro k hk
    rw [List.mem_cons] at hk
    rcases hk with hk | hk
    · revert hk
      decide
    · exact not_isDigit_of_ne (by decide) hk
  rw [hplus m, hplus n, List.append_cons_inj_of_notMem (hfree m) (hfreeTail m)] at h
  obtain ⟨hmantissa, -, htail⟩ := h
  have hlen : (decimal m).length = (decimal n).length := by
    have hpred := decimal_injective (List.cons.inj htail).2
    have hm := List.length_pos_of_ne_nil (decimal_ne_nil m)
    have hn := List.length_pos_of_ne_nil (decimal_ne_nil n)
    omega
  have hdigits := mantissa_injective hmantissa
  apply decimal_injective
  rw [← rdropWhile_append_replicate (unit '0') (decimal m),
    ← rdropWhile_append_replicate (unit '0') (decimal n), hdigits, hlen]

theorem decimal_ne_exponential (m n : Nat) : decimal m ≠ exponential n := by
  intro h
  have he : unit 'e' ∈ exponential n := by
    rw [exponential]
    simp [text]
  rw [← h] at he
  exact not_isDigit_of_ne (by decide) he

theorem numberToString_injective {x y : Nat} (hx : toDouble x = x) (hy : toDouble y = y)
    (h : numberToString x = numberToString y) : x = y := by
  have hshort : shortest x = shortest y := by
    rw [numberToString, numberToString] at h
    split at h <;> split at h
    · exact decimal_injective h
    · exact absurd h (decimal_ne_exponential _ _)
    · exact absurd h.symm (decimal_ne_exponential _ _)
    · exact exponential_injective h
  rw [← toDouble_shortest hx, hshort, toDouble_shortest hy]

/-! ### The characters of a written integer -/

theorem mem_numberToString {x : Nat} {c : UInt16} (h : c ∈ numberToString x) :
    isDigit c = true ∨ c = unit '.' ∨ c = unit 'e' ∨ c = unit '+' := by
  rw [numberToString] at h
  split at h
  · exact Or.inl (isDigit_of_mem_decimal h)
  · rw [exponential, List.mem_append, List.mem_append] at h
    rcases h with (h | h) | h
    · rcases mem_exponential_mantissa h with h | h
      · exact Or.inl h
      · exact Or.inr (Or.inl h)
    · have hlit : text "e+" = [unit 'e', unit '+'] := by decide
      rw [hlit, List.mem_cons, List.mem_singleton] at h
      tauto
    · exact Or.inl (isDigit_of_mem_decimal h)

theorem not_mem_numberToString {c : UInt16} (hdigit : isDigit c = false)
    (hsign : c ∉ [unit '.', unit 'e', unit '+']) (x : Nat) : c ∉ numberToString x := by
  intro h
  rcases mem_numberToString h with h | h
  · rw [hdigit] at h
    cases h
  · exact hsign (by simpa using h)

/-- A written integer is never a lone wildcard or sign. -/
theorem numberToString_ne_singleton {c : UInt16} (hdigit : isDigit c = false) (x : Nat) :
    numberToString x ≠ [c] := by
  intro h
  rw [numberToString] at h
  split at h
  · exact not_isDigit_of_ne hdigit (h ▸ List.mem_singleton_self c)
  · have hlen := congrArg List.length h
    have hpos := List.length_pos_of_ne_nil (decimal_ne_nil ((decimal (shortest x)).length - 1))
    have hlit : (text "e+").length = 2 := by decide
    rw [exponential, List.length_append, List.length_append, hlit, List.length_singleton] at hlen
    omega

end Js
