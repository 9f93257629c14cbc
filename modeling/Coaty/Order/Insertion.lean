import Mathlib.Data.List.Basic
import Mathlib.Order.Compare

/-!
# Insertion points

Where a value belongs in a part of a list that is in order. If no element there compares equal to the value there is exactly one such point, and inserting the value at it keeps the list in order.
-/

namespace Sorting

variable {α : Type} (cmp : α → α → Ordering)

/-- The elements of the part before `p` are smaller than the value, and those from `p` on are larger. -/
structure IsInsertionPoint (xs : List α) (value : α) (first last p : Nat) : Prop where
  first_le : first ≤ p
  le_last : p ≤ last
  smaller : ∀ i a, first ≤ i → i < p → xs[i]? = some a → cmp a value = .lt
  larger : ∀ i a, p ≤ i → i < last → xs[i]? = some a → cmp a value = .gt

/-- An element of the part compares equal to the value. -/
def HasEqual (xs : List α) (value : α) (first last : Nat) : Prop :=
  ∃ i a, first ≤ i ∧ i < last ∧ xs[i]? = some a ∧ cmp a value = .eq

variable {cmp} {xs : List α} {value : α} {first last p q : Nat}

namespace IsInsertionPoint

theorem not_hasEqual (h : IsInsertionPoint cmp xs value first last p) : ¬HasEqual cmp xs value first last := by
  rintro ⟨i, a, hfirst, hlast, hget, heq⟩
  by_cases hi : i < p
  · have hlt := h.smaller i a hfirst hi hget
    rw [heq] at hlt
    cases hlt
  · have hgt := h.larger i a (by omega) hlast hget
    rw [heq] at hgt
    cases hgt

theorem le (h : IsInsertionPoint cmp xs value first last p) (h' : IsInsertionPoint cmp xs value first last q)
    (hlast : last ≤ xs.length) : p ≤ q := by
  by_contra hlt
  have hle := h.le_last
  have hq : q < xs.length := by omega
  have hget : xs[q]? = some xs[q] := List.getElem?_eq_getElem hq
  have hsmaller := h.smaller q xs[q] h'.first_le (by omega) hget
  have hlarger := h'.larger q xs[q] (Nat.le_refl q) (by omega) hget
  rw [hsmaller] at hlarger
  cases hlarger

theorem unique (h : IsInsertionPoint cmp xs value first last p) (h' : IsInsertionPoint cmp xs value first last q)
    (hlast : last ≤ xs.length) : p = q :=
  Nat.le_antisymm (h.le h' hlast) (h'.le h hlast)

end IsInsertionPoint

section Order

variable [Std.TransCmp cmp]

theorem lt_of_index_le (hsorted : xs.Pairwise fun a b => (cmp a b).isLE) {i j : Nat} {a b : α} (hij : i ≤ j)
    (ha : xs[i]? = some a) (hb : xs[j]? = some b) (hlt : cmp b value = .lt) : cmp a value = .lt := by
  obtain ⟨hi, rfl⟩ := List.getElem?_eq_some_iff.mp ha
  obtain ⟨hj, rfl⟩ := List.getElem?_eq_some_iff.mp hb
  obtain hlt' | rfl := Nat.lt_or_eq_of_le hij
  · exact Std.TransCmp.lt_of_isLE_of_lt (List.pairwise_iff_getElem.mp hsorted i j hi hj hlt') hlt
  · exact hlt

theorem gt_of_index_le (hsorted : xs.Pairwise fun a b => (cmp a b).isLE) {i j : Nat} {a b : α} (hij : i ≤ j)
    (ha : xs[i]? = some a) (hb : xs[j]? = some b) (hgt : cmp a value = .gt) : cmp b value = .gt := by
  obtain ⟨hi, rfl⟩ := List.getElem?_eq_some_iff.mp ha
  obtain ⟨hj, rfl⟩ := List.getElem?_eq_some_iff.mp hb
  obtain hlt' | rfl := Nat.lt_or_eq_of_le hij
  · have hle : (cmp xs[i] xs[j]).isLE := List.pairwise_iff_getElem.mp hsorted i j hi hj hlt'
    rw [Std.OrientedCmp.gt_iff_lt] at hgt ⊢
    exact Std.TransCmp.lt_of_lt_of_isLE hgt hle
  · exact hgt

end Order

theorem pairwise_insert (hsorted : xs.Pairwise fun a b => (cmp a b).isLE)
    (hbefore : ∀ a ∈ xs.take p, (cmp a value).isLE) (hafter : ∀ a ∈ xs.drop p, (cmp value a).isLE) :
    (xs.take p ++ value :: xs.drop p).Pairwise fun a b => (cmp a b).isLE := by
  rw [← List.take_append_drop p xs, List.pairwise_append] at hsorted
  obtain ⟨htake, hdrop, hacross⟩ := hsorted
  rw [List.pairwise_append]
  refine ⟨htake, List.pairwise_cons.mpr ⟨hafter, hdrop⟩, ?_⟩
  intro a ha b hb
  obtain rfl | hb := List.mem_cons.mp hb
  · exact hbefore a ha
  · exact hacross a ha b hb

theorem perm_insert (xs : List α) (value : α) (p : Nat) : (xs.take p ++ value :: xs.drop p).Perm (value :: xs) := by
  have hperm : (xs.take p ++ value :: xs.drop p).Perm (value :: (xs.take p ++ xs.drop p)) := List.perm_middle
  rwa [List.take_append_drop] at hperm

end Sorting
