import Coaty.Js.Map

/-!
# Maps of maps

Values stored under two keys, one after the other. An inner map appears with the first value for its outer key and is given up with the last one, so that the whole is a map from pairs of keys and can be reasoned about as one.
-/

namespace Js

namespace Map

variable {K L V W : Type} [DecidableEq K] [DecidableEq L]

def getAt (m : Map K (Map L V)) (k : K) (l : L) : Option V := (m.get k).bind fun inner => inner.get l

/-- The inner map of an outer key, empty if there is none. -/
def inner (m : Map K (Map L V)) (k : K) : Map L V := (m.get k).getD empty

def setAt (m : Map K (Map L V)) (k : K) (l : L) (v : V) : Map K (Map L V) := m.set k ((m.inner k).set l v)

/-- Replace the inner map of an outer key, or give it up if it is empty. -/
def setInner (m : Map K (Map L V)) (k : K) (inner : Map L V) : Map K (Map L V) :=
  if inner.size = 0 then m.delete k else m.set k inner

theorem getAt_inner (m : Map K (Map L V)) (k : K) (l : L) : (m.inner k).get l = m.getAt k l := by
  rw [inner, getAt]
  cases m.get k <;> rfl

@[simp] theorem getAt_empty (k : K) (l : L) : (empty : Map K (Map L V)).getAt k l = none := rfl

theorem getAt_setAt (m : Map K (Map L V)) (k k' : K) (l l' : L) (v : V) :
    (m.setAt k l v).getAt k' l' = if k' = k ∧ l' = l then some v else m.getAt k' l' := by
  rw [getAt, setAt, get_set]
  by_cases hk : k' = k
  · rw [if_pos hk, Option.bind_some, get_set, getAt_inner, hk]
    simp
  · rw [if_neg hk, if_neg fun h => hk h.1]
    rfl

theorem getAt_setInner (m : Map K (Map L V)) (k k' : K) (l : L) (inner : Map L V) :
    (m.setInner k inner).getAt k' l = if k' = k then inner.get l else m.getAt k' l := by
  rw [getAt, setInner]
  split
  · rename_i hsize
    rw [get_delete]
    by_cases hk : k' = k
    · rw [if_pos hk, if_pos hk, size_eq_zero.mp hsize l]
      rfl
    · rw [if_neg hk, if_neg hk]
      rfl
  · rw [get_set]
    by_cases hk : k' = k
    · rw [if_pos hk, if_pos hk]
      rfl
    · rw [if_neg hk, if_neg hk]
      rfl

theorem getAt_of_get {m : Map K (Map L V)} {k : K} {inner : Map L V} (h : m.get k = some inner) (l : L) :
    m.getAt k l = inner.get l := by
  rw [getAt, h]
  rfl

theorem getAt_of_get_none {m : Map K (Map L V)} {k : K} (h : m.get k = none) (l : L) : m.getAt k l = none := by
  rw [getAt, h]
  rfl

theorem getAt_foldl_setAt {es : List ((K × L) × V)} (hes : ∀ e ∈ es, ∀ e' ∈ es, e.1 = e'.1 → e.2 = e'.2)
    (k : K) (l : L) (v : V) :
    (es.foldl (fun m e => m.setAt e.1.1 e.1.2 e.2) empty).getAt k l = some v ↔ ((k, l), v) ∈ es := by
  have hstore : ∀ (m : Map K (Map L V)) (key key' : K × L) v,
      (m.setAt key.1 key.2 v).getAt key'.1 key'.2 = some v ∧ key' = key ∨
        (m.setAt key.1 key.2 v).getAt key'.1 key'.2 = m.getAt key'.1 key'.2 ∧ key' ≠ key := by
    intro m key key' v
    rw [getAt_setAt]
    by_cases h : key' = key
    · subst h
      exact Or.inl ⟨if_pos ⟨rfl, rfl⟩, rfl⟩
    · exact Or.inr ⟨if_neg fun heq => h (Prod.ext heq.1 heq.2), h⟩
  have hlookup := lookup_foldl_store (fun (m : Map K (Map L V)) key => m.getAt key.1 key.2)
    (fun m key v => m.setAt key.1 key.2 v) hstore hes empty (k, l) v
  rw [hlookup]
  simp

/-! ### All values -/

/-- All values with their keys, in the order of the outer and then of the inner map. -/
def entriesAt (m : Map K (Map L V)) : List ((K × L) × V) :=
  m.entries.flatMap fun e => e.2.entries.map fun e' => ((e.1, e'.1), e'.2)

omit [DecidableEq K] [DecidableEq L] in
theorem values_entriesAt (m : Map K (Map L V)) :
    m.entriesAt.map Prod.snd = m.values.flatMap fun inner => inner.values := by
  rw [entriesAt, values, List.map_flatMap, List.flatMap_map]
  refine List.flatMap_congr fun e _ => ?_
  rw [List.map_map, values]
  rfl

theorem mem_entriesAt {m : Map K (Map L V)} {k : K} {l : L} {v : V} :
    ((k, l), v) ∈ m.entriesAt ↔ m.getAt k l = some v := by
  rw [entriesAt, List.mem_flatMap, getAt]
  constructor
  · intro ⟨⟨k', inner⟩, houter, hinner⟩
    obtain ⟨⟨l', v'⟩, hentry, heq⟩ := List.mem_map.mp hinner
    cases heq
    rw [mem_entries.mp houter]
    exact mem_entries.mp hentry
  · intro h
    obtain ⟨inner, houter, hinner⟩ := Option.bind_eq_some_iff.mp h
    exact ⟨(k, inner), mem_entries.mpr houter, List.mem_map.mpr ⟨(l, v), mem_entries.mpr hinner, rfl⟩⟩

omit [DecidableEq K] [DecidableEq L] in
theorem nodup_entriesAt (m : Map K (Map L V)) : (m.entriesAt.map Prod.fst).Nodup := by
  have hkeys : m.entriesAt.map Prod.fst = m.entries.flatMap fun e => e.2.keys.map fun l => (e.1, l) := by
    rw [entriesAt, List.map_flatMap]
    refine List.flatMap_congr fun e _ => ?_
    rw [List.map_map, keys, List.map_map]
    rfl
  rw [hkeys, List.nodup_flatMap]
  refine ⟨fun e _ => e.2.keys_nodup.map fun l l' h => (Prod.mk.inj h).2, ?_⟩
  have houter := m.nodup
  rw [List.Nodup, List.pairwise_map] at houter
  refine houter.imp fun {e e'} hne => ?_
  intro key hkey hkey'
  obtain ⟨l, -, rfl⟩ := List.mem_map.mp hkey
  obtain ⟨l', -, heq⟩ := List.mem_map.mp hkey'
  exact hne (Prod.mk.inj heq).1.symm

end Map

end Js
