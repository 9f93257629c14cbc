import Coaty.Js.Array
import Coaty.Js.Text

/-!
# Dispatching to subscribers

The subscribers of an observed item, called from the last one to the first by an index into the array that their callbacks change. Unsubscribing takes a subscriber out of the array, subscribing appends a new one, and completing a subscriber unsubscribes it after its callback.
-/

namespace Coaty

open Js

/-- The number of a subscriber object in the order of their creation. -/
abbrev Subscriber := Nat

structure SubscriberItem where
  subscribers : List Subscriber
  /-- The number of subscribers created so far. -/
  created : Nat
  nodup : subscribers.Nodup
  lt_created : ∀ s ∈ subscribers, s < created

/-- What a callback does to the item. -/
inductive SubscriberChange where
  | subscribe
  | unsubscribe (subscriber : Subscriber)
deriving DecidableEq

/-- What the callback does that belongs to the last of the calls so far. -/
abbrev Callbacks := List Subscriber → List SubscriberChange

structure SubscriberCall where
  subscriber : Subscriber
  /-- The item after the callback. -/
  after : SubscriberItem

structure Dispatch where
  calls : List SubscriberCall
  error : Option Error

namespace SubscriberItem

/-- An item that has just been created. -/
def empty (created : Nat) : SubscriberItem := ⟨[], created, List.nodup_nil, nofun⟩

def add (item : SubscriberItem) : SubscriberItem where
  subscribers := item.subscribers ++ [item.created]
  created := item.created + 1
  nodup := by
    refine List.nodup_append.mpr ⟨item.nodup, List.nodup_singleton _, fun s hs t ht => ?_⟩
    rw [List.mem_singleton.mp ht]
    exact Nat.ne_of_lt (item.lt_created s hs)
  lt_created s hs := by
    rcases List.mem_append.mp hs with hs | hs
    · exact Nat.lt_succ_of_lt (item.lt_created s hs)
    · rw [List.mem_singleton.mp hs]
      exact Nat.lt_succ_self _

def remove (item : SubscriberItem) (subscriber : Subscriber) : SubscriberItem where
  subscribers := item.subscribers.erase subscriber
  created := item.created
  nodup := item.nodup.erase subscriber
  lt_created s hs := item.lt_created s (List.mem_of_mem_erase hs)

def applyChange (item : SubscriberItem) : SubscriberChange → SubscriberItem
  | .subscribe => item.add
  | .unsubscribe subscriber => item.remove subscriber

/-- The loop for the indices below `index`. -/
def dispatchBelow (callbacks : Callbacks) : Nat → SubscriberItem → List SubscriberCall → Dispatch
  | 0, _, calls => ⟨calls, none⟩
  | index + 1, item, calls =>
    match item.subscribers[index]? with
    | none => ⟨calls, some .typeError⟩
    | some subscriber =>
      let changes := callbacks (calls.map SubscriberCall.subscriber ++ [subscriber])
      let after := changes.foldl applyChange item
      dispatchBelow callbacks index after (calls ++ [⟨subscriber, after⟩])

def dispatchNext (item : SubscriberItem) (callbacks : Callbacks) : Dispatch :=
  dispatchBelow callbacks item.subscribers.length item []

/-- A subscriber that has been completed is unsubscribed. -/
def completing (callbacks : Callbacks) : Callbacks := fun called =>
  callbacks called ++ (called.getLast?.map SubscriberChange.unsubscribe).toList

def dispatchComplete (item : SubscriberItem) (callbacks : Callbacks) : Dispatch :=
  dispatchBelow (completing callbacks) item.subscribers.length item []

/-! ### What a dispatch should do -/

/-- The subscriber is unsubscribed while the callbacks called are those of subscribers behind it and of new ones. -/
def LeavesBeforeTurn (item : SubscriberItem) (calls : List SubscriberCall) (subscriber : Subscriber) : Prop :=
  ∃ turn call, calls[turn]? = some call ∧ subscriber ∉ call.after.subscribers ∧
    ∀ earlier ∈ calls.take (turn + 1), earlier.subscriber ∈ item.subscribers →
      item.subscribers.idxOf subscriber < item.subscribers.idxOf earlier.subscriber

/-- Each subscriber of the item that is still subscribed at its turn is called, none is called twice, and the dispatch does not fail. -/
structure FansOut (item : SubscriberItem) (d : Dispatch) : Prop where
  error : d.error = none
  called : ∀ subscriber ∈ item.subscribers, subscriber ∉ d.calls.map SubscriberCall.subscriber →
    item.LeavesBeforeTurn d.calls subscriber
  once : (d.calls.map SubscriberCall.subscriber).Nodup

/-- And nobody else is called. -/
structure FansOutExactly (item : SubscriberItem) (d : Dispatch) : Prop extends FansOut item d where
  present : ∀ call ∈ d.calls, call.subscriber ∈ item.subscribers

/-- The callback that a subscriber is called with after those behind it unsubscribes nobody in front of it. -/
def SparesWaiting (item : SubscriberItem) (callbacks : Callbacks) : Prop :=
  ∀ index < item.subscribers.length, ∀ s ∈ item.subscribers.take index,
    .unsubscribe s ∉ callbacks (item.subscribers.drop index).reverse

instance (item : SubscriberItem) (callbacks : Callbacks) : Decidable (item.SparesWaiting callbacks) :=
  inferInstanceAs (Decidable (∀ index < item.subscribers.length, ∀ s ∈ item.subscribers.take index,
    .unsubscribe s ∉ callbacks (item.subscribers.drop index).reverse))

/-! ### What changes leave in place -/

variable {item : SubscriberItem}

theorem created_le_applyChange (item : SubscriberItem) (change : SubscriberChange) :
    item.created ≤ (item.applyChange change).created := by
  cases change with
  | subscribe => exact Nat.le_succ _
  | unsubscribe subscriber => exact Nat.le_refl _

theorem created_le_foldl (changes : List SubscriberChange) (item : SubscriberItem) :
    item.created ≤ (changes.foldl applyChange item).created := by
  induction changes generalizing item with
  | nil => exact Nat.le_refl _
  | cons change changes ih => exact Nat.le_trans (item.created_le_applyChange change) (ih _)

theorem mem_of_mem_applyChange {change : SubscriberChange} {s : Subscriber} (hcreated : s < item.created)
    (h : s ∈ (item.applyChange change).subscribers) : s ∈ item.subscribers := by
  cases change with
  | subscribe =>
    rcases List.mem_append.mp h with h | h
    · exact h
    · rw [List.mem_singleton.mp h] at hcreated
      exact absurd hcreated (Nat.lt_irrefl _)
  | unsubscribe subscriber => exact List.mem_of_mem_erase h

theorem mem_of_mem_foldl {changes : List SubscriberChange} {s : Subscriber} (hcreated : s < item.created)
    (h : s ∈ (changes.foldl applyChange item).subscribers) : s ∈ item.subscribers := by
  induction changes generalizing item with
  | nil => exact h
  | cons change changes ih =>
    have hlater := ih (Nat.lt_of_lt_of_le hcreated (item.created_le_applyChange change)) h
    exact mem_of_mem_applyChange hcreated hlater

theorem not_mem_foldl_of_unsubscribe {changes : List SubscriberChange} {s : Subscriber} (hcreated : s < item.created)
    (h : .unsubscribe s ∈ changes) : s ∉ (changes.foldl applyChange item).subscribers := by
  induction changes generalizing item with
  | nil => cases h
  | cons change changes ih =>
    have hcreated' : s < (item.applyChange change).created :=
      Nat.lt_of_lt_of_le hcreated (item.created_le_applyChange change)
    rcases List.mem_cons.mp h with rfl | h
    · intro hmem
      have herased : s ∈ item.subscribers.erase s := mem_of_mem_foldl hcreated' hmem
      exact (List.Nodup.mem_erase_iff item.nodup).mp herased |>.1 rfl
    · exact ih hcreated' h

theorem take_foldl_of_spared {changes : List SubscriberChange} {index : Nat} (hindex : index ≤ item.subscribers.length)
    (hspared : ∀ s ∈ item.subscribers.take index, .unsubscribe s ∉ changes) :
    index ≤ (changes.foldl applyChange item).subscribers.length ∧
      (changes.foldl applyChange item).subscribers.take index = item.subscribers.take index := by
  induction changes generalizing item with
  | nil => exact ⟨hindex, rfl⟩
  | cons change changes ih =>
    obtain ⟨hlength, htake⟩ : index ≤ (item.applyChange change).subscribers.length ∧
        (item.applyChange change).subscribers.take index = item.subscribers.take index := by
      cases change with
      | subscribe =>
        exact ⟨Nat.le_trans hindex (by simp [applyChange, add]), List.take_append_of_le_length hindex⟩
      | unsubscribe s =>
        have hnot : s ∉ item.subscribers.take index := fun hmem => hspared s hmem List.mem_cons_self
        have herase : (item.applyChange (.unsubscribe s)).subscribers
            = item.subscribers.take index ++ (item.subscribers.drop index).erase s := by
          show item.subscribers.erase s = _
          conv_lhs => rw [← List.take_append_drop index item.subscribers]
          exact List.erase_append_right _ hnot
        have hlength : (item.subscribers.take index).length = index := List.length_take_of_le hindex
        rw [herase]
        refine ⟨?_, ?_⟩
        · rw [List.length_append, hlength]
          exact Nat.le_add_right _ _
        · rw [List.take_append_of_le_length (Nat.le_of_eq hlength.symm), List.take_of_length_le (Nat.le_of_eq hlength)]
    obtain ⟨hlength', htake'⟩ := ih hlength fun s hs hchange => hspared s (htake ▸ hs) (List.mem_cons_of_mem _ hchange)
    exact ⟨hlength', htake'.trans htake⟩

/-! ### The loop -/

variable {callbacks : Callbacks} {index : Nat} {calls : List SubscriberCall} {start : SubscriberItem}

/-- The loop has come down to an index, all behind it have had their turns, and all in front of it are where they were. -/
structure Turn (start : SubscriberItem) (index : Nat) (item : SubscriberItem) (calls : List SubscriberCall) : Prop where
  created : start.created ≤ item.created
  index_le : index ≤ item.subscribers.length
  waiting : item.subscribers.take index = start.subscribers.take index
  called : calls.map SubscriberCall.subscriber = (start.subscribers.drop index).reverse

theorem turn_start (item : SubscriberItem) : Turn item item.subscribers.length item [] where
  created := Nat.le_refl _
  index_le := Nat.le_refl _
  waiting := rfl
  called := by rw [List.drop_length, List.reverse_nil, List.map_nil]

theorem Turn.next (h : Turn start (index + 1) item calls) :
    ∃ s, item.subscribers[index]? = some s ∧ index < start.subscribers.length ∧
      calls.map SubscriberCall.subscriber ++ [s] = (start.subscribers.drop index).reverse := by
  have hitem : index < item.subscribers.length := h.index_le
  have hlength := congrArg List.length h.waiting
  rw [List.length_take_of_le h.index_le, List.length_take] at hlength
  have hstart : index < start.subscribers.length := by omega
  refine ⟨item.subscribers[index], List.getElem?_eq_getElem hitem, hstart, ?_⟩
  have hsame : item.subscribers[index] = start.subscribers[index] := by
    have hget := congrArg (·[index]?) h.waiting
    simpa [List.getElem?_eq_getElem hitem, List.getElem?_eq_getElem hstart] using hget
  rw [h.called, hsame, List.drop_eq_getElem_cons hstart, List.reverse_cons]

theorem Turn.step (h : Turn start (index + 1) item calls) {s : Subscriber}
    (hcalled : calls.map SubscriberCall.subscriber ++ [s] = (start.subscribers.drop index).reverse)
    {changes : List SubscriberChange} (hspared : ∀ w ∈ start.subscribers.take index, .unsubscribe w ∉ changes) :
    Turn start index (changes.foldl applyChange item) (calls ++ [⟨s, changes.foldl applyChange item⟩]) := by
  have hfront : item.subscribers.take index = start.subscribers.take index := by
    have htake := congrArg (List.take index) h.waiting
    rwa [List.take_take, List.take_take, Nat.min_eq_left (Nat.le_succ index)] at htake
  obtain ⟨hlength, htake⟩ := take_foldl_of_spared (Nat.le_of_succ_le h.index_le) (hfront.symm ▸ hspared)
  refine ⟨Nat.le_trans h.created (created_le_foldl changes item), hlength, htake.trans hfront, ?_⟩
  rw [List.map_append]
  exact hcalled

theorem Turn.dispatch (h : Turn start index item calls) (hspares : start.SparesWaiting callbacks) :
    (dispatchBelow callbacks index item calls).error = none ∧
      (dispatchBelow callbacks index item calls).calls.map SubscriberCall.subscriber = start.subscribers.reverse := by
  induction index generalizing item calls with
  | zero => exact ⟨rfl, h.called⟩
  | succ index ih =>
    obtain ⟨s, hsubscriber, hindex, hcalled⟩ := h.next
    rw [dispatchBelow, hsubscriber]
    exact ih (h.step hcalled fun w hw => hcalled ▸ hspares index hindex w hw)

theorem not_called_of_left {s : Subscriber} (hcreated : s < item.created) (hleft : s ∉ item.subscribers)
    (hcalls : s ∉ calls.map SubscriberCall.subscriber) :
    s ∉ (dispatchBelow callbacks index item calls).calls.map SubscriberCall.subscriber := by
  induction index generalizing item calls with
  | zero => exact hcalls
  | succ index ih =>
    rw [dispatchBelow]
    cases hsubscriber : item.subscribers[index]? with
    | none => exact hcalls
    | some subscriber =>
      refine ih (Nat.lt_of_lt_of_le hcreated (created_le_foldl _ item)) (fun h => hleft (mem_of_mem_foldl hcreated h)) ?_
      have hne : s ≠ subscriber := fun heq => hleft (heq ▸ List.mem_of_getElem? hsubscriber)
      rw [List.map_append, List.mem_append, not_or]
      exact ⟨hcalls, fun hlast => hne (List.mem_singleton.mp hlast)⟩

/-- Where all are called, nobody has been unsubscribed before its turn. -/
theorem Turn.spares (h : Turn start index item calls)
    (hall : ∀ s ∈ start.subscribers, s ∈ (dispatchBelow callbacks index item calls).calls.map SubscriberCall.subscriber) :
    ∀ i < index, ∀ w ∈ start.subscribers.take i, .unsubscribe w ∉ callbacks (start.subscribers.drop i).reverse := by
  induction index generalizing item calls with
  | zero => exact fun i hi => absurd hi (Nat.not_lt_zero i)
  | succ index ih =>
    obtain ⟨s, hsubscriber, hindex, hcalled⟩ := h.next
    rw [dispatchBelow, hsubscriber] at hall
    dsimp only at hall
    rw [hcalled] at hall
    have hspared : ∀ w ∈ start.subscribers.take index, .unsubscribe w ∉ callbacks (start.subscribers.drop index).reverse := by
      intro w hw hchange
      have hcreated : w < item.created :=
        Nat.lt_of_lt_of_le (start.lt_created w (List.mem_of_mem_take hw)) h.created
      have hnodup := start.nodup
      rw [← List.take_append_drop index start.subscribers, List.nodup_append] at hnodup
      have hnot : w ∉ (start.subscribers.drop index).reverse := fun hmem =>
        hnodup.2.2 w hw w (List.mem_reverse.mp hmem) rfl
      refine not_called_of_left (Nat.lt_of_lt_of_le hcreated (created_le_foldl _ item))
        (not_mem_foldl_of_unsubscribe hcreated hchange) ?_ (hall w (List.mem_of_mem_take hw))
      rw [List.map_append]
      exact hcalled.symm ▸ hnot
    intro i hi
    rcases Nat.lt_succ_iff_lt_or_eq.mp hi with hlt | rfl
    · exact ih (h.step hcalled hspared) hall i hlt
    · exact hspared

theorem length_calls_dispatchBelow (hok : (dispatchBelow callbacks index item calls).error = none) :
    (dispatchBelow callbacks index item calls).calls.length = calls.length + index := by
  induction index generalizing item calls with
  | zero => rfl
  | succ index ih =>
    rw [dispatchBelow] at hok ⊢
    cases hsubscriber : item.subscribers[index]? with
    | none =>
      rw [hsubscriber] at hok
      cases hok
    | some subscriber =>
      rw [hsubscriber] at hok
      rw [ih hok, List.length_append, List.length_singleton]
      omega

/-- All are called in their turns exactly if nobody who waits is unsubscribed. -/
theorem fansOutExactly_iff (item : SubscriberItem) (callbacks : Callbacks) :
    item.FansOutExactly (dispatchBelow callbacks item.subscribers.length item []) ↔ item.SparesWaiting callbacks := by
  constructor
  · intro h
    have hsubset : (dispatchBelow callbacks item.subscribers.length item []).calls.map SubscriberCall.subscriber
        ⊆ item.subscribers := by
      intro s hs
      obtain ⟨call, hcall, rfl⟩ := List.mem_map.mp hs
      exact h.present call hcall
    have hlength : item.subscribers.length
        ≤ ((dispatchBelow callbacks item.subscribers.length item []).calls.map SubscriberCall.subscriber).length := by
      rw [List.length_map, length_calls_dispatchBelow h.error]
      exact Nat.le_add_left _ _
    have hperm := (List.subperm_of_subset h.once hsubset).perm_of_length_le hlength
    exact item.turn_start.spares fun s hs => hperm.mem_iff.mpr hs
  · intro h
    obtain ⟨herror, hcalls⟩ := item.turn_start.dispatch h
    refine ⟨⟨herror, fun s hs hnot => ?_, ?_⟩, fun call hcall => ?_⟩
    · rw [hcalls] at hnot
      exact absurd (List.mem_reverse.mpr hs) hnot
    · rw [hcalls]
      exact List.nodup_reverse.mpr item.nodup
    · have hmem := List.mem_map_of_mem (f := SubscriberCall.subscriber) hcall
      rw [hcalls] at hmem
      exact List.mem_reverse.mp hmem

theorem sparesWaiting_completing (item : SubscriberItem) (callbacks : Callbacks) :
    item.SparesWaiting (completing callbacks) ↔ item.SparesWaiting callbacks := by
  refine forall₂_congr fun index hindex => forall₂_congr fun s hs => not_congr ?_
  have hlast : (item.subscribers.drop index).reverse.getLast? = some item.subscribers[index] := by
    rw [List.getLast?_reverse, List.drop_eq_getElem_cons hindex, List.head?_cons]
  have hne : s ≠ item.subscribers[index] := by
    have hnodup := item.nodup.sublist (List.take_sublist (index + 1) _)
    rw [List.take_succ_eq_append_getElem hindex, List.nodup_append] at hnodup
    exact hnodup.2.2 s hs _ (List.mem_singleton_self _)
  rw [completing, hlast, List.mem_append]
  refine or_iff_left fun h => hne ?_
  exact SubscriberChange.unsubscribe.inj (List.mem_singleton.mp h)

/-! ### Callbacks that do not subscribe -/

theorem mem_of_mem_foldl_of_noneSubscribes {changes : List SubscriberChange} (hchanges : .subscribe ∉ changes)
    {s : Subscriber} (h : s ∈ (changes.foldl applyChange item).subscribers) : s ∈ item.subscribers := by
  induction changes generalizing item with
  | nil => exact h
  | cons change changes ih =>
    rw [List.mem_cons, not_or] at hchanges
    have hlater := ih hchanges.2 h
    cases change with
    | subscribe => exact absurd rfl hchanges.1
    | unsubscribe subscriber => exact List.mem_of_mem_erase hlater

theorem present_of_noneSubscribes (hcallbacks : ∀ called, .subscribe ∉ callbacks called)
    (hcalls : ∀ call ∈ calls, call.subscriber ∈ start.subscribers) (hitem : ∀ s ∈ item.subscribers, s ∈ start.subscribers) :
    ∀ call ∈ (dispatchBelow callbacks index item calls).calls, call.subscriber ∈ start.subscribers := by
  induction index generalizing item calls with
  | zero => exact hcalls
  | succ index ih =>
    rw [dispatchBelow]
    cases hsubscriber : item.subscribers[index]? with
    | none => exact hcalls
    | some subscriber =>
      refine ih (fun call hcall => ?_) fun s hs => hitem s (mem_of_mem_foldl_of_noneSubscribes (hcallbacks _) hs)
      rcases List.mem_append.mp hcall with hcall | hcall
      · exact hcalls call hcall
      · rw [List.mem_singleton.mp hcall]
        exact hitem subscriber (List.mem_of_getElem? hsubscriber)

theorem fansOut_iff_of_noneSubscribes (item : SubscriberItem) (hcallbacks : ∀ called, .subscribe ∉ callbacks called) :
    item.FansOut (dispatchBelow callbacks item.subscribers.length item []) ↔ item.SparesWaiting callbacks := by
  rw [← fansOutExactly_iff]
  exact ⟨fun h => ⟨h, present_of_noneSubscribes hcallbacks (List.forall_mem_nil _) fun s hs => hs⟩, fun h => h.toFansOut⟩

theorem not_subscribe_completing (hcallbacks : ∀ called, .subscribe ∉ callbacks called) (called : List Subscriber) :
    .subscribe ∉ completing callbacks called := by
  rw [completing, List.mem_append, not_or]
  refine ⟨hcallbacks called, fun h => ?_⟩
  obtain ⟨s, -, hs⟩ := Option.map_eq_some_iff.mp (Option.mem_toList.mp h)
  cases hs

/-! ### Both dispatches -/

/-- Both dispatches reach those subscribers that they should exactly if no callback unsubscribes a subscriber whose turn is still to come. New subscribers can make up for such a one only by being called themselves. -/
theorem dispatch_fansOut_iff (item : SubscriberItem) (callbacks : Callbacks) :
    (item.FansOutExactly (item.dispatchNext callbacks) ↔ item.SparesWaiting callbacks) ∧
      (item.FansOutExactly (item.dispatchComplete callbacks) ↔ item.SparesWaiting callbacks) ∧
      ((∀ called, .subscribe ∉ callbacks called) →
        (item.FansOut (item.dispatchNext callbacks) ↔ item.SparesWaiting callbacks) ∧
          (item.FansOut (item.dispatchComplete callbacks) ↔ item.SparesWaiting callbacks)) := by
  have hcompleting := item.sparesWaiting_completing callbacks
  refine ⟨fansOutExactly_iff item callbacks, (fansOutExactly_iff item (completing callbacks)).trans hcompleting, fun h => ?_⟩
  exact ⟨fansOut_iff_of_noneSubscribes item h,
    (fansOut_iff_of_noneSubscribes item (not_subscribe_completing h)).trans hcompleting⟩

/-- The callback of one subscriber takes another one out that is still to be called. Then the first one is called again, or there is nobody at the next index. -/
def removesFirst : Callbacks := fun called => if called = [2] then [.unsubscribe 0] else []

/-- An item with `n` subscribers. -/
def withSubscribers : Nat → SubscriberItem
  | 0 => empty 0
  | n + 1 => (withSubscribers n).add

theorem not_fansOut_removesFirst :
    ¬ (withSubscribers 3).FansOut ((withSubscribers 3).dispatchNext removesFirst) ∧
      ¬ (withSubscribers 3).FansOut ((withSubscribers 3).dispatchComplete fun called =>
        if called = [2] then [.unsubscribe 0] else []) := by
  refine ⟨fun h => ?_, fun h => ?_⟩
  · exact absurd h.once (by decide)
  · exact absurd h.error (by decide)

/-- The subscriber that is called second takes itself out and the one behind it. -/
def leavesLast : Callbacks := fun called =>
  if called = [2, 1] then [.unsubscribe 2, .unsubscribe 1] else []

theorem dispatch_fansOut_leavesLast :
    (withSubscribers 3).FansOut ((withSubscribers 3).dispatchNext leavesLast) ∧
      (withSubscribers 3).FansOut ((withSubscribers 3).dispatchComplete leavesLast) := by
  have hspares : (withSubscribers 3).SparesWaiting leavesLast := by decide
  have hcallbacks : ∀ called, .subscribe ∉ leavesLast called := by
    intro called
    rw [leavesLast]
    split
    · decide
    · exact List.not_mem_nil
  have hiff := (dispatch_fansOut_iff (withSubscribers 3) leavesLast).2.2 hcallbacks
  exact ⟨hiff.1.mpr hspares, hiff.2.mpr hspares⟩

end SubscriberItem

end Coaty
