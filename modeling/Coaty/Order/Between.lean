import Mathlib.Order.Compare
import Mathlib.Order.Defs.LinearOrder

/-!
# Between two bounds

Whether a value is between two bounds that are given in any order. By a total preorder this does not depend on which bound comes first.
-/

namespace Order

variable {α : Type} (cmp : α → α → Ordering)

/-- The value is not before the lower bound and not behind the upper one. -/
def between (value bound1 bound2 : α) : Bool :=
  if (cmp bound1 bound2).isGT then (cmp value bound2).isGE && (cmp value bound1).isLE
  else (cmp value bound1).isGE && (cmp value bound2).isLE

/-- The value is before the lower bound or behind the upper one. -/
def notBetween (value bound1 bound2 : α) : Bool :=
  if (cmp bound1 bound2).isGT then (cmp value bound2).isLT || (cmp value bound1).isGT
  else (cmp value bound1).isLT || (cmp value bound2).isGT

variable {cmp}

theorem isGE_eq (o : Ordering) : o.isGE = !o.isLT := by
  cases o <;> rfl

theorem isLE_eq (o : Ordering) : o.isLE = !o.isGT := by
  cases o <;> rfl

theorem notBetween_eq (value bound1 bound2 : α) :
    notBetween cmp value bound1 bound2 = !between cmp value bound1 bound2 := by
  rw [notBetween, between]
  split
  · rw [Bool.not_and, isGE_eq, isLE_eq, Bool.not_not, Bool.not_not]
  · rw [Bool.not_and, isGE_eq, isLE_eq, Bool.not_not, Bool.not_not]

theorem between_of_isLE {bound1 bound2 : α} (h : (cmp bound1 bound2).isLE = true) (value : α) :
    between cmp value bound1 bound2 = ((cmp value bound1).isGE && (cmp value bound2).isLE) := by
  rw [isLE_eq, Bool.not_eq_true'] at h
  rw [between, h, if_neg Bool.false_ne_true]

variable [Std.TransCmp cmp]

theorem between_of_isGE {bound1 bound2 : α} (h : (cmp bound2 bound1).isLE = true) (value : α) :
    between cmp value bound1 bound2 = ((cmp value bound2).isGE && (cmp value bound1).isLE) := by
  have hswap : cmp bound1 bound2 = (cmp bound2 bound1).swap := Std.OrientedCmp.eq_swap
  cases hcompare : cmp bound2 bound1 with
  | lt =>
    rw [hcompare] at hswap
    rw [between, hswap]
    rfl
  | eq =>
    have hsame : cmp value bound2 = cmp value bound1 := Std.TransCmp.congr_right hcompare
    rw [between, hsame, ite_self]
  | gt =>
    rw [hcompare] at h
    cases h

theorem isLE_of_not_isLE {a b : α} (h : ¬ (cmp a b).isLE = true) : (cmp b a).isLE = true := by
  have hswap : cmp b a = (cmp a b).swap := Std.OrientedCmp.eq_swap
  rw [hswap]
  revert h
  cases cmp a b <;> decide

theorem between_comm (value bound1 bound2 : α) : between cmp value bound1 bound2 = between cmp value bound2 bound1 := by
  by_cases h : (cmp bound2 bound1).isLE = true
  · rw [between_of_isGE h, between_of_isLE h]
  · have h' : (cmp bound1 bound2).isLE = true := isLE_of_not_isLE h
    rw [between_of_isLE h', between_of_isGE h']

theorem between_eq_or (value bound1 bound2 : α) :
    between cmp value bound1 bound2 =
      (((cmp value bound1).isGE && (cmp value bound2).isLE) || ((cmp value bound2).isGE && (cmp value bound1).isLE)) := by
  -- bounds in order leave nothing to their exchange
  have hordered : ∀ a b, (cmp a b).isLE = true →
      ((cmp value b).isGE && (cmp value a).isLE) = true → ((cmp value a).isGE && (cmp value b).isLE) = true := by
    intro a b hle hbetween
    simp only [Bool.and_eq_true, Std.OrientedCmp.isGE_iff_isLE] at hbetween ⊢
    exact ⟨Std.TransCmp.isLE_trans hle hbetween.1, Std.TransCmp.isLE_trans hbetween.2 hle⟩
  rw [Bool.eq_iff_iff, Bool.or_eq_true]
  by_cases h : (cmp bound1 bound2).isLE = true
  · rw [between_of_isLE h]
    exact ⟨Or.inl, fun hor => hor.elim id (hordered bound1 bound2 h)⟩
  · have h' : (cmp bound2 bound1).isLE = true := isLE_of_not_isLE h
    rw [between_of_isGE h']
    exact ⟨Or.inr, fun hor => hor.elim (hordered bound2 bound1 h') id⟩

end Order
