import Coaty.Js.JsonText
import Mathlib.Algebra.Order.Field.Power
import Mathlib.Algebra.Order.Round
import Mathlib.Data.Int.Log
import Mathlib.Data.Rat.Floor
import Mathlib.Tactic.Linarith
import Mathlib.Tactic.Positivity

/-!
# Doubles and their text

The result of an operation on doubles is rounded to the nearest of them. The text of a double is the decimal with the fewest digits that is rounded to it, and of two such decimals the closer one. The range of exponents plays no part and is left open.
-/

namespace Js

/-! ### Rounding -/

/-- Round to the nearest integer, ties to even. -/
def roundEven (x : Rat) : Int :=
  let below := ⌊x⌋
  if x - below < 1 / 2 then below
  else if 1 / 2 < x - below then below + 1
  else if below % 2 = 0 then below
  else below + 1

/-- The unit in the last place of the significand, which has 53 bits. -/
def ulp (x : Rat) : Rat := 2 ^ (Int.log 2 |x| - 52)

/-- Round to the nearest double, ties to even. -/
def roundToDouble (x : Rat) : Rat := roundEven (x / ulp x) * ulp x

theorem roundEven_intCast (n : Int) : roundEven n = n := by
  rw [roundEven, Int.floor_intCast, sub_self]
  exact if_pos (by norm_num)

theorem floor_le_roundEven (x : Rat) : ⌊x⌋ ≤ roundEven x := by
  rw [roundEven]
  split
  · exact le_refl _
  · split
    · omega
    · split
      · exact le_refl _
      · omega

theorem abs_roundEven_sub_le (x : Rat) : |roundEven x - x| ≤ 1 / 2 := by
  have hfloor := Int.floor_le x
  have hlt := Int.lt_floor_add_one x
  rw [roundEven, abs_le]
  split
  · constructor <;> linarith
  · split
    · push_cast
      constructor <;> linarith
    · split
      · constructor <;> linarith
      · push_cast
        constructor <;> linarith

theorem roundEven_neg (x : Rat) : roundEven (-x) = -roundEven x := by
  have hle := Int.floor_le x
  have hlt := Int.lt_floor_add_one x
  obtain heq | hfraction := hle.eq_or_lt
  · rw [← heq, ← Int.cast_neg, roundEven_intCast, roundEven_intCast]
  · have hfloor : ⌊-x⌋ = -⌊x⌋ - 1 := by
      rw [Int.floor_eq_iff]
      push_cast
      constructor <;> linarith
    rw [roundEven, roundEven, hfloor]
    push_cast
    by_cases hsmall : x - ⌊x⌋ < 1 / 2
    · rw [if_pos hsmall, if_neg (by linarith), if_pos (by linarith)]
      omega
    · rw [if_neg hsmall]
      by_cases hlarge : 1 / 2 < x - ⌊x⌋
      · rw [if_pos hlarge, if_pos (by linarith)]
        omega
      · rw [if_neg hlarge, if_neg (by linarith), if_neg (by linarith)]
        split
        · split
          · omega
          · omega
        · split
          · omega
          · omega

theorem roundToDouble_neg (x : Rat) : roundToDouble (-x) = -roundToDouble x := by
  have hulp : ulp (-x) = ulp x := by rw [ulp, ulp, abs_neg]
  rw [roundToDouble, roundToDouble, hulp, neg_div, roundEven_neg]
  push_cast
  ring

theorem ulp_pos (x : Rat) : 0 < ulp x := by
  rw [ulp]
  positivity

theorem abs_roundToDouble_sub_le (x : Rat) : |roundToDouble x - x| ≤ ulp x / 2 := by
  have hpos := ulp_pos x
  have hround := abs_roundEven_sub_le (x / ulp x)
  have hscaled : roundToDouble x - x = (roundEven (x / ulp x) - x / ulp x) * ulp x := by
    rw [roundToDouble, sub_mul, div_mul_cancel₀ x hpos.ne']
  calc |roundToDouble x - x| = |roundEven (x / ulp x) - x / ulp x| * ulp x := by
        rw [hscaled, abs_mul, abs_of_pos hpos]
    _ ≤ 1 / 2 * ulp x := mul_le_mul_of_nonneg_right hround hpos.le
    _ = ulp x / 2 := by ring

section Positive

variable {x : Rat} (hx : 0 < x)

include hx

theorem ulp_mul_le : ulp x * 2 ^ 52 ≤ x := by
  have hlog := Int.zpow_log_le_self Nat.one_lt_two hx
  rw [ulp, abs_of_pos hx, zpow_sub₀ two_ne_zero]
  calc _ = (2 : Rat) ^ Int.log 2 x := by norm_num
    _ ≤ x := hlog

theorem le_roundToDouble {k : Int} (hk : 2 ^ k ≤ x) : 2 ^ k ≤ roundToDouble x := by
  have hpos := ulp_pos x
  have hlog : k ≤ Int.log 2 x := (Int.zpow_le_iff_le_log Nat.one_lt_two hx).mp (by exact_mod_cast hk)
  have hfloor : (2 : Int) ^ 52 ≤ ⌊x / ulp x⌋ := by
    rw [Int.le_floor, le_div_iff₀ hpos]
    push_cast
    rw [mul_comm]
    exact ulp_mul_le hx
  have hround : ((2 : Int) ^ 52 : Rat) ≤ roundEven (x / ulp x) := by
    exact_mod_cast hfloor.trans (floor_le_roundEven _)
  calc (2 : Rat) ^ k ≤ 2 ^ Int.log 2 x := zpow_le_zpow_right₀ one_le_two hlog
    _ = 2 ^ 52 * ulp x := by
      rw [ulp, abs_of_pos hx, zpow_sub₀ two_ne_zero]
      norm_num
      ring
    _ ≤ roundEven (x / ulp x) * ulp x := by
      apply mul_le_mul_of_nonneg_right _ hpos.le
      exact_mod_cast hround

theorem ulp_le {k : Int} (hk : x < 2 ^ k) : ulp x ≤ 2 ^ (k - 53) := by
  have hlog : Int.log 2 x < k := (Int.lt_zpow_iff_log_lt Nat.one_lt_two hx).mp (by exact_mod_cast hk)
  rw [ulp, abs_of_pos hx]
  exact zpow_le_zpow_right₀ one_le_two (by omega)

end Positive

theorem roundToDouble_zero : roundToDouble 0 = 0 := by
  rw [roundToDouble, zero_div]
  have hzero : roundEven 0 = 0 := by exact_mod_cast roundEven_intCast 0
  rw [hzero]
  simp

theorem roundToDouble_natCast {n : Nat} (hn : n < 2 ^ 53) : roundToDouble n = n := by
  obtain rfl | hpos := Nat.eq_zero_or_pos n
  · exact roundToDouble_zero
  · have hx : (0 : Rat) < n := by exact_mod_cast hpos
    have hlog : Int.log 2 (n : Rat) = Nat.log 2 n := Int.log_natCast 2 n
    have hle : Nat.log 2 n ≤ 52 := by
      have hlt : Nat.log 2 n < 53 := Nat.log_lt_of_lt_pow hpos.ne' hn
      omega
    have hscaled : (n : Rat) / ulp n = ((n * 2 ^ (52 - Nat.log 2 n) : Nat) : Int) := by
      rw [ulp, abs_of_pos hx, hlog, div_eq_iff (by positivity)]
      push_cast
      rw [mul_assoc, ← zpow_natCast, ← zpow_add₀ two_ne_zero]
      have hexponent : ((52 - Nat.log 2 n : Nat) : Int) + (Nat.log 2 n - 52) = 0 := by omega
      rw [hexponent, zpow_zero, mul_one]
    rw [roundToDouble, hscaled, roundEven_intCast, ← hscaled]
    exact div_mul_cancel₀ _ (ulp_pos _).ne'

/-! ### The shortest decimal -/

/-- The multiple of `10 ^ e` that is rounded to `x`, if there is one. Of two it is the closer one, or the even one. -/
def candidate (x : Rat) (e : Int) : Option Nat :=
  let scaled := x / 10 ^ e
  let below := ⌊scaled⌋₊
  let above := below + 1
  if roundToDouble (below * 10 ^ e) = x then
    if roundToDouble (above * 10 ^ e) = x then
      if scaled - below < above - scaled ∨ (scaled - below = above - scaled ∧ below % 2 = 0) then some below
      else some above
    else some below
  else if roundToDouble (above * 10 ^ e) = x then some above
  else none

/-- The decimal with the fewest digits, as an integer and an exponent. -/
def searchDecimal (x : Rat) (e : Int) : Nat → Nat × Int
  | 0 => (⌊x / 10 ^ e⌋₊, e)
  | fuel + 1 =>
    match candidate x e with
    | some s => (s, e)
    | none => searchDecimal x (e - 1) fuel

/-- Leave out the zeros at the end. -/
def normalize (negative : Bool) (s : Nat) (e : Int) : Numeral :=
  if h : s % 10 = 0 then
    if s = 0 then .zero else normalize negative (s / 10) (e + 1)
  else .nonzero ⟨negative, s, (decimal s).length + e, h⟩
termination_by s

/-- The decimal that a double is written as. It has at most 17 digits. -/
def numeral (x : Rat) : Numeral :=
  if x = 0 then .zero
  else
    let (s, e) := searchDecimal |x| (Int.log 10 |x| + 1) 18
    normalize (decide (x < 0)) s e

/-- `String(x)` -/
def numberText (x : Rat) : Text := (numeral x).toText

/-- An integer is closer to the double than another one, or as close and even. -/
def IsCloser (x : Rat) (e : Int) (s t : Nat) : Prop :=
  |s - x / 10 ^ e| < |t - x / 10 ^ e| ∨ (|s - x / 10 ^ e| = |t - x / 10 ^ e| ∧ s % 2 = 0)

/-- The integer is the closest one that stands for the double with this exponent. -/
structure IsClosest (x : Rat) (e : Int) (s : Nat) : Prop where
  rounds : roundToDouble (s * 10 ^ e) = x
  near : |s - x / 10 ^ e| ≤ 1
  closest : ∀ t : Nat, t ≠ s → roundToDouble (t * 10 ^ e) = x → |t - x / 10 ^ e| < 1 → IsCloser x e s t

section Candidate

variable {x : Rat} {e : Int} {s : Nat}

/-- Only the two integers next to it are closer than one. -/
theorem eq_floor_or_of_abs_sub_lt {y : Rat} {t : Nat} (ht : |t - y| < 1) : t = ⌊y⌋₊ ∨ t = ⌊y⌋₊ + 1 := by
  obtain ⟨hlow, hhigh⟩ := abs_lt.mp ht
  by_cases hy : y < 0
  · have hzero : t = 0 := by
      have hlt : (t : Rat) < 1 := by linarith
      have hlt' : t < 1 := by exact_mod_cast hlt
      omega
    exact .inl (hzero.trans (Nat.floor_of_nonpos hy.le).symm)
  · have hle := Nat.floor_le (not_lt.mp hy)
    have hlt := Nat.lt_floor_add_one y
    have hge : (⌊y⌋₊ : Rat) < t + 1 := by linarith
    have hlt' : (t : Rat) < ⌊y⌋₊ + 1 + 1 := by linarith
    have hge' : ⌊y⌋₊ < t + 1 := by exact_mod_cast hge
    have hlt'' : t < ⌊y⌋₊ + 1 + 1 := by exact_mod_cast hlt'
    omega

theorem isClosest_of_candidate (hx : 0 ≤ x) (h : candidate x e = some s) : IsClosest x e s := by
  have hscaled : 0 ≤ x / 10 ^ e := by positivity
  have hle := Nat.floor_le hscaled
  have hlt := Nat.lt_floor_add_one (x / 10 ^ e)
  have hbelow : |(⌊x / 10 ^ e⌋₊ : Rat) - x / 10 ^ e| = x / 10 ^ e - ⌊x / 10 ^ e⌋₊ := by
    rw [abs_sub_comm]
    exact abs_of_nonneg (by linarith)
  have habove : |((⌊x / 10 ^ e⌋₊ + 1 : Nat) : Rat) - x / 10 ^ e| = (⌊x / 10 ^ e⌋₊ + 1 : Nat) - x / 10 ^ e := by
    apply abs_of_nonneg
    push_cast
    linarith
  have hnear : |(⌊x / 10 ^ e⌋₊ : Rat) - x / 10 ^ e| ≤ 1 := by
    rw [hbelow]
    linarith
  have hnear' : |((⌊x / 10 ^ e⌋₊ + 1 : Nat) : Rat) - x / 10 ^ e| ≤ 1 := by
    rw [habove]
    push_cast
    linarith
  have hother : ∀ {s t : Nat}, |(t : Rat) - x / 10 ^ e| < 1 → t ≠ s →
      (s = ⌊x / 10 ^ e⌋₊ → t = ⌊x / 10 ^ e⌋₊ + 1) ∧ (s = ⌊x / 10 ^ e⌋₊ + 1 → t = ⌊x / 10 ^ e⌋₊) := by
    intro s t ht hne
    have hcases := eq_floor_or_of_abs_sub_lt ht
    omega
  simp only [candidate] at h
  split at h
  · rename_i hroundBelow
    split at h
    · split at h
      · rename_i hcloser
        obtain rfl := Option.some.inj h
        refine ⟨hroundBelow, hnear, ?_⟩
        intro t hne _ ht
        rw [(hother ht hne).1 rfl, IsCloser, hbelow, habove]
        exact hcloser
      · rename_i hroundAbove hcloser
        obtain rfl := Option.some.inj h
        refine ⟨hroundAbove, hnear', ?_⟩
        intro t hne _ ht
        rw [(hother ht hne).2 rfl, IsCloser, hbelow, habove]
        rw [not_or, not_and, not_lt] at hcloser
        obtain hlt | heq := hcloser.1.lt_or_eq
        · exact .inl hlt
        · have hodd := hcloser.2 heq.symm
          exact .inr ⟨heq, by omega⟩
    · rename_i hroundAbove
      obtain rfl := Option.some.inj h
      refine ⟨hroundBelow, hnear, ?_⟩
      intro t hne hround ht
      rw [(hother ht hne).1 rfl] at hround
      exact absurd hround hroundAbove
  · rename_i hroundBelow
    split at h
    · rename_i hroundAbove
      obtain rfl := Option.some.inj h
      refine ⟨hroundAbove, hnear', ?_⟩
      intro t hne hround ht
      rw [(hother ht hne).2 rfl] at hround
      exact absurd hround hroundBelow
    · cases h

theorem exists_candidate (hround : roundToDouble (s * 10 ^ e) = x) (hnear : |s - x / 10 ^ e| < 1) :
    ∃ t, candidate x e = some t := by
  simp only [candidate]
  obtain rfl | rfl := eq_floor_or_of_abs_sub_lt hnear
  · rw [if_pos hround]
    split
    · split
      · exact ⟨_, rfl⟩
      · exact ⟨_, rfl⟩
    · exact ⟨_, rfl⟩
  · rw [if_pos hround]
    split
    · split
      · exact ⟨_, rfl⟩
      · exact ⟨_, rfl⟩
    · exact ⟨_, rfl⟩

theorem searchDecimal_of_candidate {fuel : Nat} {e₀ : Int} (hcandidate : candidate x e₀ = some s) (hle : e₀ ≤ e)
    (hfuel : e - e₀ < fuel) :
    ∃ t e₁, searchDecimal x e fuel = (t, e₁) ∧ e₀ ≤ e₁ ∧ e₁ ≤ e ∧ candidate x e₁ = some t ∧
      ∀ e₂, e₁ < e₂ → e₂ ≤ e → candidate x e₂ = none := by
  induction fuel generalizing e with
  | zero => exact absurd hfuel (by simp; omega)
  | succ fuel ih =>
    rw [searchDecimal]
    cases hnext : candidate x e with
    | some t =>
      refine ⟨t, e, rfl, hle, le_refl e, hnext, ?_⟩
      intro e₂ hlt hle
      omega
    | none =>
      have hne : e₀ ≠ e := by
        rintro rfl
        rw [hnext] at hcandidate
        cases hcandidate
      push_cast at hfuel
      obtain ⟨t, e₁, hsearch, hfirst, hlast, hfound, hnone⟩ := ih (e := e - 1) (by omega) (by omega)
      refine ⟨t, e₁, hsearch, hfirst, by omega, hfound, ?_⟩
      intro e₂ hlt hle
      obtain rfl | hlt' := hle.eq_or_lt
      · exact hnext
      · exact hnone e₂ hlt (by omega)

theorem searchDecimal_cases (hx : 0 ≤ x) (fuel : Nat) :
    ∃ t e₁, searchDecimal x e fuel = (t, e₁) ∧
      (roundToDouble (t * 10 ^ e₁) = x ∨ |t * 10 ^ e₁ - x| ≤ 10 ^ (e - fuel)) := by
  induction fuel generalizing e with
  | zero =>
    refine ⟨_, _, rfl, .inr ?_⟩
    have hpow : (0 : Rat) < 10 ^ e := by positivity
    have hle := Nat.floor_le (div_nonneg hx hpow.le)
    have hlt := Nat.lt_floor_add_one (x / 10 ^ e)
    rw [le_div_iff₀ hpow] at hle
    rw [div_lt_iff₀ hpow, add_mul, one_mul] at hlt
    rw [abs_sub_comm, abs_of_nonneg (by linarith)]
    push_cast
    rw [sub_zero]
    linarith
  | succ fuel ih =>
    rw [searchDecimal]
    cases hnext : candidate x e with
    | some t => exact ⟨t, e, rfl, .inl (isClosest_of_candidate hx hnext).rounds⟩
    | none =>
      obtain ⟨t, e₁, hsearch, hcases⟩ := ih (e := e - 1)
      refine ⟨t, e₁, hsearch, hcases.imp_right fun hclose => ?_⟩
      have hexponent : e - ((fuel + 1 : Nat) : Int) = e - 1 - fuel := by
        push_cast
        omega
      rw [hexponent]
      exact hclose

end Candidate

theorem value_normalize (negative : Bool) (s : Nat) (e : Int) :
    (normalize negative s e).value = if negative then -(s * 10 ^ e : Rat) else s * 10 ^ e := by
  induction s using Nat.strong_induction_on generalizing e with
  | _ s ih =>
    rw [normalize]
    split
    · rename_i hdvd
      split
      · rename_i hzero
        rw [hzero]
        simp [Numeral.value]
      · rename_i hne
        have hs : (s : Rat) = ((s / 10 : Nat) : Rat) * 10 := by
          have hmul : s = s / 10 * 10 := by omega
          exact_mod_cast hmul
        have hvalue : (s : Rat) * 10 ^ e = ((s / 10 : Nat) : Rat) * 10 ^ (e + 1) := by
          rw [zpow_add_one₀ (by norm_num), hs]
          ring
        rw [ih (s / 10) (by omega), hvalue]
    · have hexponent : ((decimal s).length : Int) + e - (decimal s).length = e := by omega
      rw [Numeral.value, ShortestDecimal.value, ShortestDecimal.magnitude, ShortestDecimal.digits]
      simp only [hexponent]

section Numeral

variable {x : Rat} (hx : 0 < x)

include hx

theorem value_numeral {s : Nat} {e : Int} (hsearch : searchDecimal x (Int.log 10 x + 1) 18 = (s, e)) :
    (numeral x).value = s * 10 ^ e := by
  have habs : |x| = x := abs_of_pos hx
  have hsign : decide (x < 0) = false := decide_eq_false hx.not_gt
  rw [numeral, if_neg hx.ne', habs, hsearch, hsign]
  exact value_normalize false s e

theorem exists_candidate_of_dvd {u : Nat} {e : Int} (hdvd : 10 ∣ u) (hround : roundToDouble (u * 10 ^ e) = x)
    (hnear : |u - x / 10 ^ e| < 1) : e ≤ Int.log 10 x ∧ ∃ t, candidate x (e + 1) = some t := by
  have hpow : (0 : Rat) < 10 ^ e := by positivity
  obtain ⟨k, rfl⟩ := hdvd
  have hk : 1 ≤ k := by
    by_contra hzero
    obtain rfl : k = 0 := by omega
    rw [Nat.mul_zero, Nat.cast_zero, zero_mul, roundToDouble_zero] at hround
    exact hx.ne hround
  have hscale : ((10 * k : Nat) : Rat) * 10 ^ e = k * 10 ^ (e + 1) := by
    rw [zpow_add_one₀ (by norm_num)]
    push_cast
    ring
  refine ⟨?_, ?_⟩
  · apply (Int.zpow_le_iff_le_log (by norm_num) hx).mp
    have hk' : (1 : Rat) ≤ k := by exact_mod_cast hk
    have hlt := (abs_lt.mp hnear).2
    rw [sub_lt_iff_lt_add, ← sub_lt_iff_lt_add', lt_div_iff₀ hpow] at hlt
    push_cast at hlt ⊢
    nlinarith
  · rw [hscale] at hround
    apply exists_candidate hround
    have hdiv : (k : Rat) - x / 10 ^ (e + 1) = ((10 * k : Nat) - x / 10 ^ e) / 10 := by
      rw [zpow_add_one₀ (by norm_num)]
      push_cast
      field_simp
    rw [hdiv, abs_div]
    have hten : |(10 : Rat)| = 10 := abs_of_pos (by norm_num)
    rw [hten, div_lt_one (by norm_num)]
    linarith

section Grid

variable {m : Nat} {e : Int}

/-- If a double stands for a decimal, its text has no more digits. It is a multiple of ten units, or no multiple stands for the double. -/
theorem exists_value_numeral (hround : roundToDouble (m * 10 ^ e) = x)
    (hgrid : ∀ t : Nat, roundToDouble (t * 10 ^ e) = x → |t - x / 10 ^ e| < 1)
    (hstart : 10 ^ (e - 1) ≤ x) (hfuel : x < 10 ^ (e + 17)) :
    ∃ u : Nat, (numeral x).value = u * 10 ^ e ∧ roundToDouble (u * 10 ^ e) = x ∧
      (10 ∣ u ∨ ∀ t : Nat, roundToDouble (t * 10 ^ e) = x → ¬10 ∣ t ∧ (t ≠ u → IsCloser x e u t)) := by
  have hfirst : e - 1 ≤ Int.log 10 x := (Int.zpow_le_iff_le_log (by norm_num) hx).mp (by exact_mod_cast hstart)
  have hlast : Int.log 10 x < e + 17 := (Int.lt_zpow_iff_log_lt (by norm_num) hx).mp (by exact_mod_cast hfuel)
  obtain ⟨s₀, hs₀⟩ := exists_candidate hround (hgrid m hround)
  obtain ⟨s, e₁, hsearch, hle, hstop, hfound, hnone⟩ :=
    @searchDecimal_of_candidate x (Int.log 10 x + 1) s₀ 18 e hs₀ (by omega) (by push_cast; omega)
  have hclosest := isClosest_of_candidate hx.le hfound
  rw [value_numeral hx hsearch]
  obtain rfl | hlt := hle.eq_or_lt
  · refine ⟨s, rfl, hclosest.rounds, .inr fun t ht => ⟨?_, fun hne => hclosest.closest t hne ht (hgrid t ht)⟩⟩
    -- No multiple of ten stands for the double, or the search would have ended before.
    intro hdvd
    obtain ⟨hlog, u, hu⟩ := exists_candidate_of_dvd hx hdvd ht (hgrid t ht)
    rw [hnone (e + 1) (by omega) (by omega)] at hu
    cases hu
  · have hunits : (s : Rat) * 10 ^ e₁ = ((s * 10 ^ (e₁ - e).toNat : Nat) : Rat) * 10 ^ e := by
      push_cast
      rw [mul_assoc, ← zpow_natCast, ← zpow_add₀ (by norm_num)]
      congr 2
      omega
    refine ⟨s * 10 ^ (e₁ - e).toNat, hunits, ?_, .inl ?_⟩
    · rw [← hunits]
      exact hclosest.rounds
    · apply Dvd.dvd.mul_left
      exact dvd_pow_self 10 (by omega)

/-- A decimal is the text of the double that it is rounded to if it is a multiple of ten units, or if no multiple is rounded to the double and it is closer to it than other decimals. -/
theorem value_numeral_eq_iff (hround : roundToDouble (m * 10 ^ e) = x)
    (hgrid : ∀ t : Nat, roundToDouble (t * 10 ^ e) = x → |t - x / 10 ^ e| < 1)
    (hstart : 10 ^ (e - 1) ≤ x) (hfuel : x < 10 ^ (e + 17)) :
    (numeral x).value = m * 10 ^ e ↔
      10 ∣ m ∨ ∀ t : Nat, t ≠ m → roundToDouble (t * 10 ^ e) = x → ¬10 ∣ t ∧ IsCloser x e m t := by
  have hpow : (0 : Rat) < 10 ^ e := by positivity
  obtain ⟨u, hvalue, hu, hunits⟩ := exists_value_numeral hx hround hgrid hstart hfuel
  have hmcases := eq_floor_or_of_abs_sub_lt (hgrid m hround)
  have hucases := eq_floor_or_of_abs_sub_lt (hgrid u hu)
  rw [hvalue, mul_left_inj' hpow.ne', Nat.cast_inj]
  constructor
  · rintro rfl
    obtain hdvd | hcloser := hunits
    · exact .inl hdvd
    · exact .inr fun t hne ht => ⟨(hcloser t ht).1, (hcloser t ht).2 hne⟩
  · intro hm
    by_contra hne
    obtain hdvd | hcloser := hunits
    · obtain hmdvd | hmcloser := hm
      · omega
      · exact (hmcloser u hne hu).1 hdvd
    · obtain hmdvd | hmcloser := hm
      · exact (hcloser m hround).1 hmdvd
      · obtain hum | ⟨hum, hueven⟩ := (hcloser m hround).2 (Ne.symm hne)
        · obtain hmu | ⟨hmu, _⟩ := (hmcloser u hne hu).2
          · exact lt_asymm hum hmu
          · exact hum.ne hmu.symm
        · obtain hmu | ⟨_, hmeven⟩ := (hmcloser u hne hu).2
          · exact hmu.ne hum.symm
          · omega

end Grid

end Numeral

/-! ### The text of an integer -/

theorem decimal_mul_pow {n : Nat} (hn : n ≠ 0) (k : Nat) : decimal (n * 10 ^ k) = decimal n ++ zeros k := by
  have hzero : digitUnit 0 = unit '0' := by decide
  rw [decimal, if_neg (by positivity), decimal, if_neg hn, Nat.mul_comm,
    Nat.digits_base_pow_mul (by norm_num) (Nat.pos_of_ne_zero hn), List.map_append, List.map_replicate, hzero,
    List.reverse_append, List.reverse_replicate, zeros]

theorem value_pos_of_nonzero {n : ShortestDecimal} : 0 < n.magnitude := by
  have hsignificand : (0 : Rat) < n.significand := by exact_mod_cast Nat.pos_of_ne_zero (significand_ne_zero n)
  rw [ShortestDecimal.magnitude]
  positivity

theorem length_digits (n : ShortestDecimal) : n.digits.length = (Nat.digits 10 n.significand).length := by
  rw [ShortestDecimal.digits, decimal, if_neg (significand_ne_zero n), List.length_reverse, List.length_map]

theorem magnitude_lt (n : ShortestDecimal) : n.magnitude < 10 ^ n.point := by
  have hlt : n.significand < 10 ^ (Nat.digits 10 n.significand).length := Nat.lt_base_pow_length_digits (by norm_num)
  rw [← length_digits] at hlt
  have hlt' : (n.significand : Rat) < 10 ^ n.digits.length := by exact_mod_cast hlt
  rw [ShortestDecimal.magnitude, zpow_sub₀ (by norm_num), zpow_natCast, mul_div_assoc', div_lt_iff₀ (by positivity), mul_comm]
  exact mul_lt_mul_of_pos_left hlt' (by positivity)

theorem le_magnitude (n : ShortestDecimal) : 10 ^ (n.point - 1) ≤ n.magnitude := by
  have hle : 10 ^ (Nat.digits 10 n.significand).length ≤ 10 * n.significand :=
    Nat.base_pow_length_digits_le 10 n.significand (by norm_num) (significand_ne_zero n)
  rw [← length_digits] at hle
  have hle' : (10 : Rat) ^ n.digits.length ≤ 10 * n.significand := by exact_mod_cast hle
  rw [ShortestDecimal.magnitude, zpow_sub₀ (by norm_num), zpow_sub₀ (by norm_num), zpow_natCast, mul_div_assoc',
    div_le_div_iff₀ (by positivity) (by positivity), zpow_one]
  calc (10 : Rat) ^ n.point * 10 ^ n.digits.length ≤ 10 ^ n.point * (10 * n.significand) :=
        mul_le_mul_of_nonneg_left hle' (by positivity)
    _ = n.significand * 10 ^ n.point * 10 := by ring

theorem toText_of_value_eq {n : Numeral} {v : Nat} (hvalue : n.value = v) (hv : v < 10 ^ 21) : n.toText = decimal v := by
  cases n with
  | zero =>
    rw [Numeral.value] at hvalue
    have hzero : v = 0 := by exact_mod_cast hvalue.symm
    rw [hzero]
    rfl
  | nonzero n =>
    have hpos := @value_pos_of_nonzero n
    have hv₀ : (0 : Rat) ≤ v := Nat.cast_nonneg v
    rw [Numeral.value, ShortestDecimal.value] at hvalue
    rw [Numeral.toText, ShortestDecimal.toText]
    by_cases hnegative : n.negative = true
    · rw [if_pos hnegative] at hvalue
      linarith
    · rw [if_neg hnegative] at hvalue ⊢
      rw [ShortestDecimal.magnitude] at hvalue
      have hexponent : (n.digits.length : Int) ≤ n.point := by
        by_contra hlt
        -- Otherwise the last digit would be a zero.
        obtain ⟨k, hk⟩ : ∃ k : Nat, n.point - n.digits.length = -((k + 1 : Nat) : Int) :=
          ⟨(n.digits.length - n.point - 1).toNat, by omega⟩
        rw [hk, zpow_neg, zpow_natCast, ← div_eq_mul_inv, div_eq_iff (by positivity)] at hvalue
        have hmul : n.significand = v * 10 ^ (k + 1) := by exact_mod_cast hvalue
        apply n.shortest
        rw [hmul, pow_succ, ← Nat.mul_assoc]
        exact Nat.mul_mod_left _ _
      obtain ⟨k, hk⟩ : ∃ k : Nat, n.point - n.digits.length = (k : Int) := ⟨(n.point - n.digits.length).toNat, by omega⟩
      rw [hk, zpow_natCast] at hvalue
      have hmul : v = n.significand * 10 ^ k := by exact_mod_cast hvalue.symm
      have htext : decimal v = n.digits ++ zeros k := by
        rw [hmul, decimal_mul_pow (significand_ne_zero n)]
        rfl
      have hlength : n.digits.length + k ≤ 21 := by
        have hle : (Nat.digits 10 v).length ≤ 21 := (Nat.digits_length_le_iff (by norm_num) v).mpr hv
        have hlength := congrArg List.length htext
        have hne : v ≠ 0 := by
          rintro rfl
          exact (mul_pos (Nat.pos_of_ne_zero (significand_ne_zero n)) (by positivity : 0 < 10 ^ k)).ne hmul
        rw [decimal, if_neg hne, List.length_reverse, List.length_map, List.length_append, zeros,
          List.length_replicate] at hlength
        omega
      have hpoint : (n.point - n.digits.length).toNat = k := by omega
      rw [ShortestDecimal.unsignedText, htext]
      rw [if_pos ⟨hexponent, by omega⟩, hpoint]

theorem exists_value_of_digits {n : Numeral} (h : ∀ c ∈ n.toText, isDigit c = true) :
    ∃ v : Nat, n.value = v ∧ n.toText = decimal v := by
  cases n with
  | zero => exact ⟨0, rfl, rfl⟩
  | nonzero n =>
    rw [Numeral.toText, ShortestDecimal.toText] at h ⊢
    rw [Numeral.value, ShortestDecimal.value]
    by_cases hnegative : n.negative = true
    · rw [if_pos hnegative] at h
      exact absurd (h _ List.mem_cons_self) (by decide)
    · rw [if_neg hnegative] at h ⊢
      rw [if_neg hnegative]
      simp only [ShortestDecimal.unsignedText] at h ⊢
      by_cases hinteger : (n.digits.length : Int) ≤ n.point ∧ n.point ≤ 21
      · rw [if_pos hinteger]
        refine ⟨n.significand * 10 ^ (n.point - n.digits.length).toNat, ?_, ?_⟩
        · rw [ShortestDecimal.magnitude]
          push_cast
          rw [← zpow_natCast, Int.toNat_of_nonneg (by omega)]
        · rw [decimal_mul_pow (significand_ne_zero n)]
          rfl
      · rw [if_neg hinteger] at h
        exfalso
        by_cases hmixed : 0 < n.point ∧ n.point ≤ 21
        · rw [if_pos hmixed] at h
          exact absurd (h (unit '.') (List.mem_append_right _ List.mem_cons_self)) (by decide)
        · rw [if_neg hmixed] at h
          by_cases hfraction : -6 < n.point ∧ n.point ≤ 0
          · rw [if_pos hfraction] at h
            have hpoint : unit '.' ∈ text "0." := by decide
            exact absurd (h (unit '.') (List.mem_append_left _ (List.mem_append_left _ hpoint))) (by decide)
          · rw [if_neg hfraction] at h
            exact absurd (h (unit 'e') (List.mem_append_right _ List.mem_cons_self)) (by decide)

theorem eq_of_roundToDouble_eq {n t : Nat} (hn : n < 2 ^ 53) (ht : roundToDouble t = n) : t = n := by
  by_cases hlt : t < 2 ^ 53
  · rw [roundToDouble_natCast hlt] at ht
    exact_mod_cast ht
  · have hge : (2 : Rat) ^ (53 : Int) ≤ t := by exact_mod_cast not_lt.mp hlt
    have hround := le_roundToDouble (lt_of_lt_of_le (by positivity) hge) hge
    rw [ht] at hround
    have hge' : 2 ^ 53 ≤ n := by exact_mod_cast hround
    omega

theorem value_numeral_natCast {n : Nat} (hn : n < 2 ^ 53) : (numeral n).value = n := by
  obtain rfl | hpos := Nat.eq_zero_or_pos n
  · rfl
  · have hx : (0 : Rat) < n := by exact_mod_cast hpos
    have hone : (1 : Rat) ≤ n := by exact_mod_cast hpos
    have hlt : (n : Rat) < 2 ^ 53 := by exact_mod_cast hn
    have hscale : ∀ t : Nat, (t : Rat) * 10 ^ (0 : Int) = t := fun t => by rw [zpow_zero, mul_one]
    have hvalue := @value_numeral_eq_iff n hx n 0 (by rw [hscale]; exact roundToDouble_natCast hn)
      (fun t ht => by
        rw [hscale] at ht
        rw [eq_of_roundToDouble_eq hn ht, zpow_zero, div_one, sub_self]
        norm_num)
      (by norm_num; linarith) (by norm_num; linarith)
    rw [hscale] at hvalue
    refine hvalue.mpr (.inr fun t hne ht => ?_)
    rw [hscale] at ht
    exact absurd (eq_of_roundToDouble_eq hn ht) hne

theorem numberText_natCast {n : Nat} (hn : n < 2 ^ 53) : numberText n = decimal n :=
  toText_of_value_eq (value_numeral_natCast hn) (by omega)

theorem roundToDouble_nonneg {x : Rat} (hx : 0 ≤ x) : 0 ≤ roundToDouble x := by
  obtain rfl | hpos := hx.eq_or_lt
  · exact roundToDouble_zero.ge
  · have hlog : (2 : Rat) ^ Int.log 2 x ≤ x := by exact_mod_cast Int.zpow_log_le_self Nat.one_lt_two hpos
    exact le_trans (by positivity) (le_roundToDouble hpos hlog)

theorem abs_roundToDouble (x : Rat) : |roundToDouble x| = roundToDouble |x| := by
  obtain hx | hx := le_total 0 x
  · rw [abs_of_nonneg hx, abs_of_nonneg (roundToDouble_nonneg hx)]
  · have hneg : 0 ≤ -x := by linarith
    rw [abs_of_nonpos hx, roundToDouble_neg, abs_of_nonpos]
    have hround := roundToDouble_nonneg hneg
    rw [roundToDouble_neg] at hround
    linarith

theorem abs_sub_lt_of_value_numeral {y : Rat} (hy : 0 < y) {v : Nat} (hv : v < 128)
    (hvalue : (numeral (roundToDouble y)).value = v) : |v - y| < 1 / 128 := by
  have hround := abs_roundToDouble_sub_le y
  have hpos : 0 < roundToDouble y := by
    have hlog : (2 : Rat) ^ Int.log 2 y ≤ y := by exact_mod_cast Int.zpow_log_le_self Nat.one_lt_two hy
    exact lt_of_lt_of_le (by positivity) (le_roundToDouble hy hlog)
  have hv' : (v : Rat) ≤ 127 := by exact_mod_cast (by omega : v ≤ 127)
  have hclose : |(v : Rat) - roundToDouble y| ≤ roundToDouble y / 10 ^ 17 := by
    obtain ⟨s, e, hsearch, hcases⟩ :=
      @searchDecimal_cases (roundToDouble y) (Int.log 10 (roundToDouble y) + 1) hpos.le 18
    rw [value_numeral hpos hsearch] at hvalue
    rw [hvalue] at hcases
    obtain hself | hclose := hcases
    · rw [roundToDouble_natCast (by omega)] at hself
      rw [hself, sub_self, abs_zero]
      positivity
    · have hlog : (10 : Rat) ^ Int.log 10 (roundToDouble y) ≤ roundToDouble y := by
        exact_mod_cast Int.zpow_log_le_self (by norm_num) hpos
      refine hclose.trans ?_
      have hexponent : Int.log 10 (roundToDouble y) + 1 - ((18 : Nat) : Int) = Int.log 10 (roundToDouble y) - 17 := by
        push_cast
        omega
      rw [hexponent, zpow_sub₀ (by norm_num)]
      exact div_le_div_of_nonneg_right hlog (by positivity)
  have hlt : y < 2 ^ (7 : Int) := by
    by_contra hge
    have hlarge := le_roundToDouble hy (not_lt.mp hge)
    have hsmall := (abs_le.mp hclose).1
    norm_num at hlarge hsmall
    linarith
  have hulp := ulp_le hy hlt
  have hdouble : roundToDouble y ≤ 129 := by
    have hupper := (abs_le.mp hround).2
    norm_num at hulp hlt
    linarith
  calc |(v : Rat) - y| ≤ |(v : Rat) - roundToDouble y| + |roundToDouble y - y| := abs_sub_le _ _ _
    _ ≤ roundToDouble y / 10 ^ 17 + ulp y / 2 := add_le_add hclose hround
    _ < 1 / 128 := by
      norm_num at hulp
      linarith

end Js
