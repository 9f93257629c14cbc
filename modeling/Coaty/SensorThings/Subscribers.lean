import Coaty.SensorThings.SensorSource

/-!
# Subscriptions by position

All subscriptions of a kind in the order in which they were made, each with what its handler knows. A subscription object is its position in this list. Unsubscribing closes it and leaves the others where they are.
-/

namespace Coaty

open Js

abbrev Subscribers (α : Type) := List (α × Subscription)

namespace Subscribers

variable {α : Type} (subscribers : Subscribers α)

def subscribe (a : α) : Subscribers α := subscribers ++ [(a, ⟨false⟩)]

def unsubscribe (i : Nat) : Subscribers α :=
  subscribers.modify i fun subscriber => (subscriber.1, subscriber.2.unsubscribe)

/-- What the handlers that are called know, in the order in which they are called. -/
def opened : List α := (subscribers.filter fun subscriber => !subscriber.2.closed).map Prod.fst

def IsOpen (i : Nat) (a : α) : Prop := subscribers[i]? = some (a, ⟨false⟩)

variable {subscribers} {a b : α} {i j : Nat}

@[simp] theorem not_isOpen_nil : ¬ IsOpen ([] : Subscribers α) i a := by simp [IsOpen]

theorem IsOpen.unique (h : subscribers.IsOpen i a) (h' : subscribers.IsOpen i b) : a = b := by
  have heq := h.symm.trans h'
  simpa using heq

@[simp] theorem isOpen_subscribe :
    (subscribers.subscribe b).IsOpen i a ↔ subscribers.IsOpen i a ∨ i = subscribers.length ∧ a = b := by
  rw [IsOpen, IsOpen, subscribe, List.getElem?_append]
  by_cases hi : i < subscribers.length
  · have hne : i ≠ subscribers.length := by omega
    simp [hi, hne]
  · have hnone : subscribers[i]? = none := List.getElem?_eq_none (by omega)
    rw [if_neg hi, hnone]
    by_cases heq : i = subscribers.length
    · simp [heq, eq_comm]
    · have hpos : i - subscribers.length ≠ 0 := by omega
      simp [heq, hpos]

@[simp] theorem isOpen_unsubscribe :
    (subscribers.unsubscribe j).IsOpen i a ↔ i ≠ j ∧ subscribers.IsOpen i a := by
  rw [IsOpen, IsOpen, unsubscribe, List.getElem?_modify]
  by_cases hij : j = i
  · simp [hij, Subscription.unsubscribe]
  · simp [hij, Ne.symm hij]

theorem isOpen_foldl_unsubscribe (is : List Nat) :
    IsOpen (is.foldl unsubscribe subscribers) i a ↔ i ∉ is ∧ subscribers.IsOpen i a := by
  induction is generalizing subscribers with
  | nil => simp
  | cons j is ih =>
    rw [List.foldl_cons, ih, isOpen_unsubscribe, List.mem_cons, not_or]
    tauto

theorem mem_opened : a ∈ subscribers.opened ↔ ∃ i, subscribers.IsOpen i a := by
  simp only [IsOpen, ← List.mem_iff_getElem?, opened, List.mem_map, List.mem_filter]
  constructor
  · intro ⟨subscriber, ⟨hmem, hopen⟩, ha⟩
    obtain ⟨a', closed⟩ := subscriber
    have hclosed : closed = ⟨false⟩ := by
      obtain ⟨closed⟩ := closed
      simpa using hopen
    rwa [← ha, ← hclosed]
  · intro hmem
    exact ⟨(a, ⟨false⟩), ⟨hmem, rfl⟩, rfl⟩

/-! ### Maps of subscriptions -/

variable {K : Type} [DecidableEq K]

/-- Under each key is the position of the one open subscription for it. -/
def Tracks (subscribers : Subscribers K) (subscriptions : Map K Nat) : Prop :=
  ∀ k i, subscriptions.get k = some i ↔ subscribers.IsOpen i k

theorem Tracks.existsUnique {subscribers : Subscribers K} {subscriptions : Map K Nat}
    (h : Tracks subscribers subscriptions) {k : K} (hsome : (subscriptions.get k).isSome = true) :
    ∃! i, subscribers.IsOpen i k := by
  obtain ⟨i, hi⟩ := Option.isSome_iff_exists.mp hsome
  refine ⟨i, (h k i).mp hi, fun j hj => ?_⟩
  have hsame := ((h k j).mpr hj).symm.trans hi
  exact Option.some.inj hsame

theorem Tracks.unsubscribe {subscribers : Subscribers K} {subscriptions : Map K Nat}
    (h : Tracks subscribers subscriptions) {k : K} {i : Nat} (hget : subscriptions.get k = some i) :
    Tracks (subscribers.unsubscribe i) (subscriptions.delete k) := by
  intro k' j
  have hopen := (h k i).mp hget
  rw [Map.get_delete, isOpen_unsubscribe]
  by_cases heq : k' = k
  · rw [if_pos heq]
    refine iff_of_false (by simp) ?_
    intro ⟨hne, hj⟩
    rw [heq, ← h, hget] at hj
    exact hne (Option.some.inj hj).symm
  · rw [if_neg heq, h]
    refine ⟨fun hj => ⟨?_, hj⟩, And.right⟩
    rintro rfl
    exact heq (hj.unique hopen)

theorem Tracks.subscribe {subscribers : Subscribers K} {subscriptions : Map K Nat}
    (h : Tracks subscribers subscriptions) {k : K} (hget : subscriptions.get k = none) :
    Tracks (subscribers.subscribe k) (subscriptions.set k subscribers.length) := by
  intro k' j
  rw [Map.get_set, isOpen_subscribe, ← h]
  by_cases heq : k' = k
  · rw [if_pos heq, heq, hget]
    simp [eq_comm]
  · simp [heq]

theorem Tracks.resubscribe {subscribers : Subscribers K} {subscriptions : Map K Nat}
    (h : Tracks subscribers subscriptions) {k : K} {i : Nat} (hget : subscriptions.get k = some i) :
    Tracks ((subscribers.unsubscribe i).subscribe k) (subscriptions.set k (subscribers.unsubscribe i).length) := by
  have hnone : (subscriptions.delete k).get k = none := by simp
  have htracks := (h.unsubscribe hget).subscribe hnone
  intro k' j
  rw [← htracks, Map.get_set, Map.get_set, Map.get_delete]
  by_cases heq : k' = k
  · simp [heq]
  · simp [heq]

/-- Under each key are the positions of all open subscriptions for it. -/
structure TracksAll (key : α → K) (subscribers : Subscribers α) (subscriptions : Map K (List Nat)) : Prop where
  mem : ∀ k i, (∃ is, subscriptions.get k = some is ∧ i ∈ is) ↔ ∃ a, subscribers.IsOpen i a ∧ key a = k
  nonempty : ∀ k, subscriptions.get k ≠ some []

variable {key : α → K} {subscriptions : Map K (List Nat)}

theorem TracksAll.isSome_iff (h : TracksAll key subscribers subscriptions) {k : K} :
    (subscriptions.get k).isSome = true ↔ ∃ i a, subscribers.IsOpen i a ∧ key a = k := by
  rw [Option.isSome_iff_exists]
  constructor
  · intro ⟨is, hget⟩
    have hne : is ≠ [] := by
      intro hnil
      exact h.nonempty k (hnil ▸ hget)
    obtain ⟨i, hi⟩ := List.exists_mem_of_ne_nil is hne
    exact ⟨i, (h.mem k i).mp ⟨is, hget, hi⟩⟩
  · intro ⟨i, hopen⟩
    obtain ⟨is, hget, _⟩ := (h.mem k i).mpr hopen
    exact ⟨is, hget⟩

theorem TracksAll.subscribe (h : TracksAll key subscribers subscriptions) (a : α) :
    TracksAll key (subscribers.subscribe a)
      (subscriptions.set (key a) ((subscriptions.get (key a)).getD [] ++ [subscribers.length])) := by
  refine ⟨fun k i => ?_, fun k => ?_⟩
  · simp only [Map.get_set, isOpen_subscribe, or_and_right, exists_or, ← h.mem]
    by_cases heq : k = key a
    · cases hget : subscriptions.get (key a) with
      | none => simp [heq, hget]
      | some is => simp [heq, hget]
    · have hne : key a ≠ k := fun heq' => heq heq'.symm
      simp [heq, hne]
  · rw [Map.get_set]
    split
    · simp
    · exact h.nonempty k

theorem TracksAll.isOpen_unsubscribe (h : TracksAll key subscribers subscriptions) {k : K} {is : List Nat}
    (hget : subscriptions.get k = some is) :
    IsOpen (is.foldl unsubscribe subscribers) i a ↔ key a ≠ k ∧ subscribers.IsOpen i a := by
  rw [isOpen_foldl_unsubscribe]
  refine and_congr_left fun hopen => not_congr ⟨fun hi => ?_, fun hkey => ?_⟩
  · obtain ⟨b, hb, hkey⟩ := (h.mem k i).mp ⟨is, hget, hi⟩
    rwa [hopen.unique hb]
  · obtain ⟨is', hget', hi⟩ := (h.mem k i).mpr ⟨a, hopen, hkey⟩
    rwa [Option.some.inj (hget.symm.trans hget')]

theorem TracksAll.unsubscribe (h : TracksAll key subscribers subscriptions) {k : K} {is : List Nat}
    (hget : subscriptions.get k = some is) :
    TracksAll key (is.foldl Subscribers.unsubscribe subscribers) (subscriptions.delete k) := by
  refine ⟨fun k' i => ?_, fun k' => ?_⟩
  · simp only [h.isOpen_unsubscribe hget, Map.get_delete]
    by_cases heq : k' = k
    · rw [if_pos heq]
      refine iff_of_false (by simp) ?_
      intro hopen
      obtain ⟨a, hne, hkey⟩ := hopen
      exact hne.1 (hkey.trans heq)
    · rw [if_neg heq, h.mem]
      refine exists_congr fun a => ?_
      have hne : key a = k' → key a ≠ k := fun hkey => hkey ▸ heq
      tauto
  · rw [Map.get_delete]
    split
    · simp
    · exact h.nonempty k'

end Subscribers

end Coaty
