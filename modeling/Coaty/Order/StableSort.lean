import Coaty.Evaluation
import Mathlib.Data.List.Sort

/-!
# Stable sorting

Sorting by a comparison that may fail. Where the comparison returns on the elements of the list and goes by an order, what is returned is the elements in that order, and elements that the order does not tell apart stay in the order they came in.
-/

namespace Sorting

open Evaluation

variable {α β ε : Type}

/-- The elements come in order, and those that did so before stay in it. -/
structure StablySorted (le : α → α → Prop) (xs ys : List α) : Prop where
  perm : ys.Perm xs
  sorted : ys.Pairwise le
  stable : ∀ zs : List α, zs.Pairwise le → zs.Sublist xs → zs.Sublist ys

def insertM (comparer : α → α → Except ε Ordering) (x : α) : List α → Except ε (List α)
  | [] => .ok [x]
  | y :: ys => do
    if (← comparer x y).isLE then return x :: y :: ys
    else return y :: (← insertM comparer x ys)

/-- Sorting as an engine does it. -/
def sortM (comparer : α → α → Except ε Ordering) : List α → Except ε (List α)
  | [] => .ok []
  | x :: xs => do insertM comparer x (← sortM comparer xs)

variable {comparer : α → α → Except ε Ordering} {x : α} {xs ys : List α}

/-! ### Sorting returns the elements -/

theorem insertM_returns (hreturns : ∀ y ∈ ys, Returns (comparer x y)) :
    ∃ zs, insertM comparer x ys = .ok zs ∧ zs.Perm (x :: ys) := by
  induction ys with
  | nil => exact ⟨[x], rfl, List.Perm.refl _⟩
  | cons y ys ih =>
    rw [List.forall_mem_cons] at hreturns
    obtain ⟨ordering, hcompare⟩ := hreturns.1
    obtain ⟨zs, hinsert, hperm⟩ := ih hreturns.2
    rw [insertM, hcompare, ok_bind]
    by_cases hle : ordering.isLE = true
    · rw [if_pos hle]
      exact ⟨x :: y :: ys, rfl, List.Perm.refl _⟩
    · rw [if_neg hle, hinsert]
      exact ⟨y :: zs, rfl, (hperm.cons y).trans (List.Perm.swap x y ys)⟩

/-- Sorting returns if all comparisons of an element with later ones do. -/
theorem sortM_returns (hreturns : xs.Pairwise fun x y => Returns (comparer x y)) :
    ∃ zs, sortM comparer xs = .ok zs ∧ zs.Perm xs := by
  induction xs with
  | nil => exact ⟨[], rfl, List.Perm.refl _⟩
  | cons x xs ih =>
    rw [List.pairwise_cons] at hreturns
    obtain ⟨ys, hsort, hperm⟩ := ih hreturns.2
    have hfirst : ∀ y ∈ ys, Returns (comparer x y) := fun y hy => hreturns.1 y (hperm.mem_iff.mp hy)
    obtain ⟨zs, hinsert, hperm'⟩ := insertM_returns hfirst
    rw [sortM, hsort]
    exact ⟨zs, hinsert, hperm'.trans (hperm.cons x)⟩

/-! ### Orders -/

section Orders

variable (order : β → β → Ordering) [Std.TransCmp order] (f : α → β)

theorem transCmp_comap : Std.TransCmp fun x y => order (f x) (f y) where
  eq_swap := Std.OrientedCmp.eq_swap
  isLE_trans := Std.TransCmp.isLE_trans

theorem transCmp_reverse : Std.TransCmp fun x y => order (f y) (f x) where
  eq_swap := Std.OrientedCmp.eq_swap
  isLE_trans hle hle' := Std.TransCmp.isLE_trans hle' hle

end Orders

/-! ### Sorting by an order -/

section Order

variable {order : α → α → Ordering} [DecidableRel fun x y => (order x y).isLE = true]

theorem insertM_eq (horder : ∀ y ∈ ys, comparer x y = .ok (order x y)) :
    insertM comparer x ys = .ok (ys.orderedInsert (fun x y => (order x y).isLE = true) x) := by
  induction ys with
  | nil => rfl
  | cons y ys ih =>
    rw [List.forall_mem_cons] at horder
    rw [insertM, horder.1, ok_bind, List.orderedInsert_cons]
    by_cases hle : (order x y).isLE = true
    · rw [if_pos hle, if_pos hle]
      rfl
    · rw [if_neg hle, if_neg hle, ih horder.2]
      rfl

theorem sortM_eq (horder : xs.Pairwise fun x y => comparer x y = .ok (order x y)) :
    sortM comparer xs = .ok (xs.insertionSort fun x y => (order x y).isLE = true) := by
  induction xs with
  | nil => rfl
  | cons x xs ih =>
    rw [List.pairwise_cons] at horder
    rw [sortM, ih horder.2, ok_bind, List.insertionSort_cons]
    apply insertM_eq
    intro y hy
    exact horder.1 y ((List.mem_insertionSort _).mp hy)

end Order

theorem stablySorted_of_sortM {order : α → α → Ordering} [Std.TransCmp order]
    (horder : xs.Pairwise fun x y => comparer x y = .ok (order x y)) :
    ∃ ys, sortM comparer xs = .ok ys ∧ StablySorted (fun x y => (order x y).isLE = true) xs ys := by
  have htotal : Std.Total fun x y => (order x y).isLE = true := by
    constructor
    intro x y
    have hswap : order y x = (order x y).swap := Std.OrientedCmp.eq_swap
    simp only [hswap]
    cases order x y <;> decide
  have htrans : IsTrans α fun x y => (order x y).isLE = true := ⟨fun _ _ _ => Std.TransCmp.isLE_trans⟩
  exact ⟨_, sortM_eq horder, List.perm_insertionSort _ xs, List.pairwise_insertionSort _ xs,
    fun zs hsorted hsub => List.sublist_insertionSort hsorted hsub⟩

/-! ### There is one such list only -/

section Unique

variable {order : α → α → Ordering} [Std.TransCmp order] {zs : List α}

theorem eq_of_isLE {x y : α} (hle : (order x y).isLE = true) (hge : (order y x).isLE = true) : order x y = .eq := by
  have hswap : order y x = (order x y).swap := Std.OrientedCmp.eq_swap
  rw [hswap] at hge
  cases hcompare : order x y with
  | eq => rfl
  | lt =>
    rw [hcompare] at hge
    cases hge
  | gt =>
    rw [hcompare] at hle
    cases hle

/-- The elements of one rank are in the order they came in. -/
theorem StablySorted.filter_eq (hstable : StablySorted (fun x y => (order x y).isLE = true) xs ys) (x : α) :
    (xs.filter fun y => order x y = .eq) = ys.filter fun y => order x y = .eq := by
  have hsorted : (xs.filter fun y => order x y = .eq).Pairwise fun x y => (order x y).isLE = true := by
    apply List.pairwise_of_forall_mem_list
    intro y hy z hz
    have hxy : order x y = .eq := of_decide_eq_true (List.mem_filter.mp hy).2
    have hxz : order x z = .eq := of_decide_eq_true (List.mem_filter.mp hz).2
    have hyz : order y z = .eq := Std.TransCmp.eq_trans (Std.OrientedCmp.eq_symm hxy) hxz
    rw [hyz]
    rfl
  have hsub := (hstable.stable _ hsorted List.filter_sublist).filter fun y => order x y = .eq
  rw [List.filter_filter] at hsub
  simp only [Bool.and_self] at hsub
  exact hsub.eq_of_length (hstable.perm.symm.filter _).length_eq

theorem eq_of_filter_eq (hsorted : ys.Pairwise fun x y => (order x y).isLE = true)
    (hsorted' : zs.Pairwise fun x y => (order x y).isLE = true) (hperm : ys.Perm zs)
    (hfilter : ∀ x, (ys.filter fun y => order x y = .eq) = zs.filter fun y => order x y = .eq) : ys = zs := by
  induction ys generalizing zs with
  | nil => exact hperm.nil_eq
  | cons y ys ih =>
    cases zs with
    | nil => exact hperm.eq_nil
    | cons z zs =>
      rw [List.pairwise_cons] at hsorted hsorted'
      -- Both come first in their lists, so they are of one rank.
      have hle : (order y z).isLE = true := by
        obtain rfl | hz := List.mem_cons.mp (hperm.mem_iff.mpr List.mem_cons_self)
        · exact Std.ReflCmp.isLE_rfl
        · exact hsorted.1 z hz
      have hge : (order z y).isLE = true := by
        obtain rfl | hy := List.mem_cons.mp (hperm.mem_iff.mp List.mem_cons_self)
        · exact Std.ReflCmp.isLE_rfl
        · exact hsorted'.1 y hy
      have heq : order y z = .eq := eq_of_isLE hle hge
      have hself : order y y = .eq := Std.ReflCmp.compare_self
      have hfirst := hfilter y
      rw [List.filter_cons, List.filter_cons, if_pos (decide_eq_true hself), if_pos (decide_eq_true heq)] at hfirst
      obtain rfl := (List.cons.inj hfirst).1
      refine congrArg (List.cons y) (ih hsorted.2 hsorted'.2 hperm.cons_inv fun x => ?_)
      have hrest := hfilter x
      rw [List.filter_cons, List.filter_cons] at hrest
      split at hrest
      · exact (List.cons.inj hrest).2
      · exact hrest

theorem StablySorted.unique (hstable : StablySorted (fun x y => (order x y).isLE = true) xs ys)
    (hstable' : StablySorted (fun x y => (order x y).isLE = true) xs zs) : ys = zs :=
  eq_of_filter_eq hstable.sorted hstable'.sorted (hstable.perm.trans hstable'.perm.symm) fun x =>
    (hstable.filter_eq x).symm.trans (hstable'.filter_eq x)

end Unique

end Sorting
