import Mathlib.Data.List.Nodup
import Mathlib.Data.List.Lookmap

/-!
# Insertion-ordered maps

The `Map` of JavaScript: at most one value for a key, iterated in the order in which the keys were first inserted. Setting a key that is present replaces its value in place, setting a new key appends it, and a key that is deleted and set again moves to the end. The uniqueness of keys is a field of the structure, so every fact about an entry is a fact about `get`.
-/

namespace Js

structure Map (K V : Type) where
  entries : List (K × V)
  nodup : (entries.map Prod.fst).Nodup

namespace Map

variable {K V W : Type}

def empty : Map K V := ⟨[], List.nodup_nil⟩

def keys (m : Map K V) : List K := m.entries.map Prod.fst

def values (m : Map K V) : List V := m.entries.map Prod.snd

def size (m : Map K V) : Nat := m.entries.length

/-- Rewrite every value without moving any entry. -/
def mapValues (f : V → W) (m : Map K V) : Map K W :=
  ⟨m.entries.map fun e => (e.1, f e.2), by simpa [Function.comp_def] using m.nodup⟩

theorem keys_nodup (m : Map K V) : m.keys.Nodup := m.nodup

theorem value_unique {m : Map K V} {k : K} {v w : V}
    (hv : (k, v) ∈ m.entries) (hw : (k, w) ∈ m.entries) : v = w := by
  have h := List.inj_on_of_nodup_map m.nodup hv hw rfl
  exact congrArg Prod.snd h

variable [DecidableEq K]

def get (m : Map K V) (k : K) : Option V := (m.entries.find? fun e => e.1 = k).map Prod.snd

def has (m : Map K V) (k : K) : Bool := (m.get k).isSome

theorem keys_replace (es : List (K × V)) (k : K) (v : V) :
    (es.map fun e => if e.1 = k then (k, v) else e).map Prod.fst = es.map Prod.fst := by
  rw [List.map_map]
  apply List.map_congr_left
  intro e _
  by_cases h : e.1 = k
  · simp [h]
  · simp [h]

def set (m : Map K V) (k : K) (v : V) : Map K V :=
  if h : k ∈ m.keys then
    ⟨m.entries.map fun e => if e.1 = k then (k, v) else e, by
      rw [keys_replace]
      exact m.nodup⟩
  else
    ⟨m.entries ++ [(k, v)], by
      rw [List.map_append, List.nodup_append]
      refine ⟨m.nodup, by simp, ?_⟩
      rintro a ha b hb rfl
      have hk : a = k := by simpa using hb
      exact h (hk ▸ ha)⟩

def delete (m : Map K V) (k : K) : Map K V :=
  ⟨m.entries.filter fun e => e.1 ≠ k, m.nodup.sublist (List.filter_sublist.map Prod.fst)⟩

/-! ### Entries and lookups say the same -/

theorem mem_entries {m : Map K V} {k : K} {v : V} : (k, v) ∈ m.entries ↔ m.get k = some v := by
  constructor
  · intro h
    cases hf : m.entries.find? fun e => e.1 = k with
    | none =>
      have := List.find?_eq_none.mp hf (k, v) h
      simp at this
    | some e =>
      have hk : e.1 = k := by simpa using List.find?_some hf
      have he : (k, e.2) ∈ m.entries := by
        rw [← hk]
        exact List.mem_of_find?_eq_some hf
      rw [get, hf, Option.map_some, value_unique he h]
  · intro h
    obtain ⟨e, hf, rfl⟩ := Option.map_eq_some_iff.mp h
    have hk : e.1 = k := by simpa using List.find?_some hf
    rw [← hk]
    exact List.mem_of_find?_eq_some hf

theorem mem_keys {m : Map K V} {k : K} : k ∈ m.keys ↔ ∃ v, m.get k = some v := by
  simp only [keys, List.mem_map, Prod.exists, exists_and_right, exists_eq_right, mem_entries]

theorem not_mem_keys {m : Map K V} {k : K} : k ∉ m.keys ↔ m.get k = none := by
  rw [mem_keys, Option.eq_none_iff_forall_ne_some, not_exists]

theorem mem_values {m : Map K V} {v : V} : v ∈ m.values ↔ ∃ k, m.get k = some v := by
  simp only [values, List.mem_map, Prod.exists, exists_eq_right, mem_entries]

@[simp] theorem get_empty (k : K) : (empty : Map K V).get k = none := rfl

theorem has_iff {m : Map K V} {k : K} : m.has k = true ↔ ∃ v, m.get k = some v := by
  rw [has, Option.isSome_iff_exists]

theorem mem_entries_set {m : Map K V} {k k' : K} {v v' : V} :
    (k', v') ∈ (m.set k v).entries ↔ (k' = k ∧ v' = v) ∨ (k' ≠ k ∧ (k', v') ∈ m.entries) := by
  by_cases h : k ∈ m.keys
  · have hset : (m.set k v).entries = m.entries.map fun e => if e.1 = k then (k, v) else e := by
      rw [set, dif_pos h]
    rw [hset, List.mem_map]
    constructor
    · intro ⟨e, he, heq⟩
      by_cases hk : e.1 = k
      · rw [if_pos hk] at heq
        cases heq
        exact Or.inl ⟨rfl, rfl⟩
      · rw [if_neg hk] at heq
        subst heq
        exact Or.inr ⟨hk, he⟩
    · rintro (⟨rfl, rfl⟩ | ⟨hk, he⟩)
      · obtain ⟨e, he, hk⟩ := List.mem_map.mp h
        exact ⟨e, he, if_pos hk⟩
      · exact ⟨(k', v'), he, if_neg hk⟩
  · have hset : (m.set k v).entries = m.entries ++ [(k, v)] := by
      rw [set, dif_neg h]
    rw [hset, List.mem_append, List.mem_singleton, Prod.mk.injEq]
    have hne : (k', v') ∈ m.entries → k' ≠ k := by
      rintro he rfl
      exact h (List.mem_map_of_mem (f := Prod.fst) he)
    tauto

@[simp] theorem get_set (m : Map K V) (k k' : K) (v : V) :
    (m.set k v).get k' = if k' = k then some v else m.get k' := by
  apply Option.ext
  intro v'
  rw [← mem_entries, mem_entries_set]
  by_cases h : k' = k
  · simp [h, eq_comm]
  · simp [h, mem_entries]

/-- Change the value of a key that is present. -/
def modify (m : Map K V) (k : K) (f : V → V) : Map K V :=
  match m.get k with
  | some v => m.set k (f v)
  | none => m

theorem get_modify (m : Map K V) (k k' : K) (f : V → V) :
    (m.modify k f).get k' = if k' = k then (m.get k').map f else m.get k' := by
  rw [modify]
  cases hv : m.get k with
  | none =>
    dsimp only
    by_cases h : k' = k
    · rw [if_pos h, h, hv]
      rfl
    · rw [if_neg h]
  | some v =>
    dsimp only
    rw [get_set]
    by_cases h : k' = k
    · rw [if_pos h, if_pos h, h, hv]
      rfl
    · rw [if_neg h, if_neg h]

theorem exists_of_get_modify {m : Map K V} {k k' : K} {f : V → V} {v' : V} (h : (m.modify k f).get k' = some v') :
    ∃ v, m.get k' = some v ∧ (k' = k ∧ v' = f v ∨ k' ≠ k ∧ v' = v) := by
  rw [get_modify] at h
  by_cases hk : k' = k
  · rw [if_pos hk] at h
    obtain ⟨v, hv, heq⟩ := Option.map_eq_some_iff.mp h
    exact ⟨v, hv, Or.inl ⟨hk, heq.symm⟩⟩
  · rw [if_neg hk] at h
    exact ⟨v', h, Or.inr ⟨hk, rfl⟩⟩

theorem get_foldl_modify {A : Type*} (key : A → K) (f : A → V → V) (events : List A) (m : Map K V) (k : K) :
    (events.foldl (fun m event => m.modify (key event) (f event)) m).get k
      = (m.get k).map fun v => events.foldl (fun v event => if key event = k then f event v else v) v := by
  induction events generalizing m with
  | nil => exact (congrFun Option.map_id (m.get k)).symm
  | cons event events ih =>
    rw [List.foldl_cons, ih, get_modify]
    by_cases h : k = key event
    · rw [if_pos h, Option.map_map]
      refine Option.map_congr fun v _ => ?_
      rw [Function.comp_apply, List.foldl_cons, if_pos h.symm]
    · rw [if_neg h]
      refine Option.map_congr fun v _ => ?_
      rw [List.foldl_cons, if_neg fun heq => h heq.symm]

theorem get_foldl_modify_of_nodup (f : V → V) {ks : List K} (hnodup : ks.Nodup) (m : Map K V) (k : K) :
    (ks.foldl (fun m k => m.modify k f) m).get k = if k ∈ ks then (m.get k).map f else m.get k := by
  induction ks generalizing m with
  | nil => rfl
  | cons first ks ih =>
    obtain ⟨hfresh, hrest⟩ := List.nodup_cons.mp hnodup
    rw [List.foldl_cons, ih hrest, get_modify]
    by_cases h : k = first
    · rw [if_neg (h ▸ hfresh), if_pos h, if_pos (h ▸ List.mem_cons_self)]
    · simp [h]

theorem mem_entries_delete {m : Map K V} {k k' : K} {v' : V} :
    (k', v') ∈ (m.delete k).entries ↔ k' ≠ k ∧ (k', v') ∈ m.entries := by
  simp [delete, and_comm]

@[simp] theorem get_delete (m : Map K V) (k k' : K) :
    (m.delete k).get k' = if k' = k then none else m.get k' := by
  apply Option.ext
  intro v'
  rw [← mem_entries, mem_entries_delete]
  by_cases h : k' = k
  · simp [h]
  · simp [h, mem_entries]

theorem get_foldl_delete (m : Map K V) (ks : List K) (k : K) [Decidable (k ∈ ks)] :
    (ks.foldl delete m).get k = if k ∈ ks then none else m.get k := by
  have hboth : (k ∈ ks → (ks.foldl delete m).get k = none) ∧ (k ∉ ks → (ks.foldl delete m).get k = m.get k) := by
    induction ks generalizing m with
    | nil => simp
    | cons k' ks ih =>
      obtain ⟨hmem, hnot⟩ := ih (m.delete k')
      rw [get_delete] at hnot
      rw [List.foldl_cons, List.mem_cons]
      by_cases htail : k ∈ ks
      · simp [htail, hmem htail]
      · by_cases hhead : k = k'
        · refine ⟨fun _ => ?_, fun h => absurd (Or.inl hhead) h⟩
          rw [hnot htail, if_pos hhead]
        · simp [htail, hhead, hnot htail]
  by_cases hmem : k ∈ ks
  · rw [if_pos hmem, hboth.1 hmem]
  · rw [if_neg hmem, hboth.2 hmem]

@[simp] theorem get_mapValues (f : V → W) (m : Map K V) (k : K) :
    (m.mapValues f).get k = (m.get k).map f := by
  simp only [get, mapValues, List.find?_map, Option.map_map]
  rfl

/-! ### Storing many values -/

omit [DecidableEq K] in
/-- Storing consistent values one after the other stores all of them, whatever is read with `lookup` and written with `store`. -/
theorem lookup_foldl_store {M : Type} (lookup : M → K → Option V) (store : M → K → V → M)
    (hstore : ∀ m k k' v, lookup (store m k v) k' = some v ∧ k' = k ∨ lookup (store m k v) k' = lookup m k' ∧ k' ≠ k)
    {es : List (K × V)} (hes : ∀ e ∈ es, ∀ e' ∈ es, e.1 = e'.1 → e.2 = e'.2) (m : M) (k : K) (v : V) :
    lookup (es.foldl (fun m e => store m e.1 e.2) m) k = some v ↔
      (k, v) ∈ es ∨ (k ∉ es.map Prod.fst ∧ lookup m k = some v) := by
  induction es generalizing m with
  | nil => simp
  | cons e es ih =>
    have hrest := ih (fun e he e' he' => hes e (List.mem_cons_of_mem _ he) e' (List.mem_cons_of_mem _ he'))
      (store m e.1 e.2)
    rw [List.foldl_cons, hrest, List.map_cons, List.mem_cons, List.mem_cons, not_or]
    rcases hstore m e.1 k e.2 with ⟨hlookup, rfl⟩ | ⟨hlookup, hne⟩
    · rw [hlookup, Option.some.injEq]
      constructor
      · rintro (hmem | ⟨-, rfl⟩)
        · exact Or.inl (Or.inr hmem)
        · exact Or.inl (Or.inl rfl)
      · rintro ((heq | hmem) | ⟨⟨hne, -⟩, -⟩)
        · have hv : v = e.2 := congrArg Prod.snd heq
          by_cases hkey : e.1 ∈ es.map Prod.fst
          · obtain ⟨e', he', hfst⟩ := List.mem_map.mp hkey
            have hsnd := hes e' (List.mem_cons_of_mem _ he') e List.mem_cons_self hfst
            left
            rw [hv, ← hsnd, ← hfst]
            exact he'
          · exact Or.inr ⟨hkey, hv.symm⟩
        · exact Or.inl hmem
        · exact absurd rfl hne
    · rw [hlookup]
      have hpair : (k, v) ≠ e := fun heq => hne (congrArg Prod.fst heq)
      simp only [hpair, false_or, hne, not_false_eq_true, true_and]

theorem get_foldl_set {es : List (K × V)} (hes : ∀ e ∈ es, ∀ e' ∈ es, e.1 = e'.1 → e.2 = e'.2)
    (k : K) (v : V) : (es.foldl (fun m e => m.set e.1 e.2) empty).get k = some v ↔ (k, v) ∈ es := by
  have hstore : ∀ (m : Map K V) k k' v, (m.set k v).get k' = some v ∧ k' = k ∨
      (m.set k v).get k' = m.get k' ∧ k' ≠ k := by
    intro m k k' v
    rw [get_set]
    by_cases h : k' = k
    · exact Or.inl ⟨if_pos h, h⟩
    · exact Or.inr ⟨if_neg h, h⟩
  rw [lookup_foldl_store get set hstore hes]
  simp

/-! ### Emptiness -/

theorem size_eq_zero {m : Map K V} : m.size = 0 ↔ ∀ k, m.get k = none := by
  rw [size, List.length_eq_zero_iff, List.eq_nil_iff_forall_not_mem]
  constructor
  · intro h k
    rw [Option.eq_none_iff_forall_ne_some]
    intro v hv
    exact h (k, v) (mem_entries.mpr hv)
  · intro h ⟨k, v⟩ hv
    rw [mem_entries, h k] at hv
    simp at hv

end Map

end Js
