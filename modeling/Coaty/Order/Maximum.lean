import Mathlib.Order.Bounds.Basic
import Mathlib.Data.Set.Lattice

/-!
# Greatest elements that may be missing

The greatest element of a set as an optional value, absent for the empty set. It is unique, and that of a union is found by comparing the parts, so a loop that compares one value after the other computes it for all of them.
-/

namespace Order

variable {α β : Type} [LinearOrder α]

/-- `m` is the greatest element of `s`, or absent if there is none because `s` is empty. -/
def IsMaximum (s : Set α) : Option α → Prop
  | none => s = ∅
  | some m => IsGreatest s m

theorem IsMaximum.unique {s : Set α} {m m' : Option α} (h : IsMaximum s m) (h' : IsMaximum s m') : m = m' := by
  cases m with
  | none =>
    cases m' with
    | none => rfl
    | some m' =>
      rw [IsMaximum] at h
      exact absurd (h ▸ h'.1) (Set.notMem_empty m')
  | some m =>
    cases m' with
    | none =>
      rw [IsMaximum] at h'
      exact absurd (h' ▸ h.1) (Set.notMem_empty m)
    | some m' => rw [IsGreatest.unique h h']

theorem isMaximum_singleton (m : Option α) : IsMaximum {x | m = some x} m := by
  cases m with
  | none => simp [IsMaximum]
  | some m =>
    have hset : {x | some m = some x} = {m} := by
      ext x
      simp [eq_comm]
    rw [IsMaximum, hset]
    exact isGreatest_singleton

theorem IsMaximum.union_some {s t : Set α} {m m' : α} (hs : IsMaximum s (some m)) (ht : IsMaximum t (some m')) :
    IsMaximum (s ∪ t) (some (max m m')) := IsGreatest.union hs ht

theorem IsMaximum.union_none {s t : Set α} {m : Option α} (hs : IsMaximum s m) (ht : IsMaximum t none) :
    IsMaximum (s ∪ t) m := by
  rw [IsMaximum] at ht
  rw [ht, Set.union_empty]
  exact hs

theorem isMaximum_foldl {merge : Option α → Option α → Option α}
    (hmerge : ∀ {s t m m'}, IsMaximum s m → IsMaximum t m' → IsMaximum (s ∪ t) (merge m m'))
    {part : β → Set α} {value : β → Option α} {items : List β}
    (hitems : ∀ item ∈ items, IsMaximum (part item) (value item)) {s : Set α} {m : Option α} (hs : IsMaximum s m) :
    IsMaximum (s ∪ ⋃ item ∈ items, part item) (items.foldl (fun m item => merge (value item) m) m) := by
  induction items generalizing s m with
  | nil =>
    simpa using hs
  | cons item items ih =>
    have hitem := hmerge (hitems item List.mem_cons_self) hs
    have hrest := ih (fun other hother => hitems other (List.mem_cons_of_mem _ hother)) hitem
    have hset : part item ∪ s ∪ ⋃ other ∈ items, part other = s ∪ ⋃ other ∈ item :: items, part other := by
      ext x
      simp only [Set.mem_union, Set.mem_iUnion, List.mem_cons, exists_prop, exists_eq_or_imp]
      tauto
    rw [hset] at hrest
    exact hrest

end Order
