import Mathlib.Data.List.Nodup

/-!
# Arrays updated by index

`findIndex` splits an array around the first hit, and what is then stored at that index or spliced out there can be read off the two parts. On an array with distinct keys this replaces or removes exactly the element of the key.
-/

namespace Js

variable {α κ : Type}

theorem findIdx?_split {p : α → Bool} {items : List α} {index : Nat} (h : items.findIdx? p = some index) :
    ∃ front hit back, items = front ++ hit :: back ∧ front.length = index ∧ p hit = true ∧
      ∀ item ∈ front, p item = false := by
  induction items generalizing index with
  | nil => simp at h
  | cons item items ih =>
    rw [List.findIdx?_cons] at h
    by_cases hp : p item = true
    · rw [if_pos hp] at h
      exact ⟨[], item, items, rfl, by simpa using h, hp, by simp⟩
    · rw [if_neg hp] at h
      obtain ⟨rest, hrest, rfl⟩ := Option.map_eq_some_iff.mp h
      obtain ⟨front, hit, back, rfl, hlen, hhit, hfront⟩ := ih hrest
      refine ⟨item :: front, hit, back, rfl, by simp [hlen], hhit, ?_⟩
      intro x hx
      rcases List.mem_cons.mp hx with rfl | hx
      · simpa using hp
      · exact hfront x hx

variable [DecidableEq κ] (key : α → κ)

/-- Store an item under its key, in place of the one already there. -/
def upsert (items : List α) (item : α) : List α :=
  match items.findIdx? fun i => key i = key item with
  | none => items ++ [item]
  | some index => items.set index item

theorem findIdx?_key_none {items : List α} {k : κ} (h : items.findIdx? (fun i => key i = k) = none) :
    k ∉ items.map key := by
  rw [List.findIdx?_eq_none_iff] at h
  intro hk
  obtain ⟨i, hi, hkey⟩ := List.mem_map.mp hk
  have := h i hi
  simp [hkey] at this

theorem map_upsert (items : List α) (item : α) :
    (upsert key items item).map key
      = if key item ∈ items.map key then items.map key else items.map key ++ [key item] := by
  rw [upsert]
  cases h : items.findIdx? fun i => key i = key item with
  | none =>
    rw [if_neg (findIdx?_key_none key h)]
    simp
  | some index =>
    obtain ⟨front, hit, back, rfl, rfl, hhit, -⟩ := findIdx?_split h
    have hkey : key hit = key item := by simpa using hhit
    simp [hkey]

theorem nodup_upsert {items : List α} (h : (items.map key).Nodup) (item : α) :
    ((upsert key items item).map key).Nodup := by
  rw [map_upsert]
  split
  · exact h
  · rename_i hnot
    rw [List.nodup_append]
    refine ⟨h, by simp, ?_⟩
    rintro k hk k' hk' rfl
    rw [List.mem_singleton] at hk'
    exact hnot (hk' ▸ hk)

theorem mem_upsert {items : List α} (h : (items.map key).Nodup) {item i : α} :
    i ∈ upsert key items item ↔ i = item ∨ (i ∈ items ∧ key i ≠ key item) := by
  rw [upsert]
  cases hfind : items.findIdx? fun i => key i = key item with
  | none =>
    have hnot := findIdx?_key_none key hfind
    have hne : i ∈ items → key i ≠ key item := fun hi heq => hnot (heq ▸ List.mem_map_of_mem hi)
    simp only [List.mem_append, List.mem_singleton]
    tauto
  | some index =>
    obtain ⟨front, hit, back, rfl, rfl, hhit, hfront⟩ := findIdx?_split hfind
    have hkey : key hit = key item := by simpa using hhit
    have hset : (front ++ hit :: back).set front.length item = front ++ item :: back := by simp
    have hfrontNe : i ∈ front → key i ≠ key item := fun hi => by simpa using hfront i hi
    have hbackNe : i ∈ back → key i ≠ key item := by
      intro hi heq
      rw [List.map_append, List.nodup_append, List.map_cons, List.nodup_cons] at h
      exact h.2.1.1 (hkey ▸ heq ▸ List.mem_map_of_mem hi)
    have hhitEq : i = hit → key i = key item := fun heq => heq ▸ hkey
    simp only [hset, List.mem_append, List.mem_cons]
    tauto

theorem eraseIdx_findIdx? {items : List α} {k : κ} {index : Nat} (h : (items.map key).Nodup)
    (hfind : items.findIdx? (fun i => key i = k) = some index) :
    (∃ hit, (items.drop index).take 1 = [hit] ∧ key hit = k ∧ hit ∈ items) ∧
      ((items.eraseIdx index).map key).Nodup ∧
      ∀ i, i ∈ items.eraseIdx index ↔ i ∈ items ∧ key i ≠ k := by
  obtain ⟨front, hit, back, rfl, rfl, hhit, hfront⟩ := findIdx?_split hfind
  have hkey : key hit = k := by simpa using hhit
  have herase : (front ++ hit :: back).eraseIdx front.length = front ++ back := by
    rw [List.eraseIdx_append_of_length_le (Nat.le_refl _)]
    simp
  refine ⟨⟨hit, by simp, hkey, by simp⟩, ?_, fun i => ?_⟩
  · rw [herase]
    exact h.sublist (((List.sublist_cons_self hit back).append_left front).map key)
  · have hfrontNe : i ∈ front → key i ≠ k := fun hi => by simpa using hfront i hi
    have hbackNe : i ∈ back → key i ≠ k := by
      intro hi heq
      rw [List.map_append, List.nodup_append, List.map_cons, List.nodup_cons] at h
      exact h.2.1.1 (hkey.trans heq.symm ▸ List.mem_map_of_mem hi)
    have hhitEq : i = hit → key i = k := fun heq => heq ▸ hkey
    rw [herase, List.mem_append, List.mem_append, List.mem_cons]
    tauto

theorem getElem?_set_of_some {items : List α} {index other : Nat} {old new : α} (h : items[index]? = some old) :
    (items.set index new)[other]? = if other = index then some new else items[other]? := by
  have hlt := (List.getElem?_eq_some_iff.mp h).1
  by_cases heq : other = index
  · rw [heq, if_pos rfl, List.getElem?_set_self hlt]
  · rw [if_neg heq, List.getElem?_set_ne (Ne.symm heq)]

theorem idxOf_le_of_sublist {ι : Type} [BEq ι] [LawfulBEq ι] {items items' : List ι} (h : items'.Sublist items) (hnodup : items.Nodup) {k : ι}
    (hk : k ∈ items') : items'.idxOf k ≤ items.idxOf k := by
  induction h with
  | slnil => exact Nat.le_refl _
  | cons item hsub ih =>
    obtain ⟨hfresh, hrest⟩ := List.nodup_cons.mp hnodup
    have hne : item ≠ k := fun heq => hfresh (heq ▸ hsub.subset hk)
    rw [List.idxOf_cons_ne _ hne]
    exact Nat.le_trans (ih hrest hk) (Nat.le_succ _)
  | cons_cons item hsub ih =>
    by_cases heq : item = k
    · rw [List.idxOf_cons_eq _ heq]
      exact Nat.zero_le _
    · rw [List.idxOf_cons_ne _ heq, List.idxOf_cons_ne _ heq]
      exact Nat.succ_le_succ (ih (List.nodup_cons.mp hnodup).2 ((List.mem_cons.mp hk).resolve_left (Ne.symm heq)))

end Js
