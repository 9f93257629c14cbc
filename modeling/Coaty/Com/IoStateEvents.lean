import Coaty.Com.IoStates
import Coaty.Com.IoValues

/-!
# IO state events

What the observers of an IO state are told. The subject of a state keeps the last state that it was given, and an Associate event gives one to the subject of its source and one to the subject of its actor.
-/

namespace Coaty

open Js

variable {Props Rate Raw Json : Type}

namespace CommunicationManager

/-- A state is dispatched to the subject of an own point that is observed. -/
def ioStateEvent (m : CommunicationManager Props Rate) (ioPointId : Uuid) (state : IoState Rate) :
    List (Uuid × IoState Rate) :=
  if (m.findIoPointById ioPointId).isSome && m.observedIoStateItems.has ioPointId then [(ioPointId, state)] else []

/-- The states that an Associate event dispatches to subjects, in this order. -/
def ioStateEvents (m : CommunicationManager Props Rate) (data : AssociateEventData Rate) : List (Uuid × IoState Rate) :=
  let m' := m.handleAssociate data
  m.ioStateEvent data.ioSourceId (m'.sourceIoState data.ioSourceId) ++
    m.ioStateEvent data.ioActorId (m'.actorIoState data.ioActorId data.associatingRoute)

def ioStateSubject (m : CommunicationManager Props Rate) (ioPointId : Uuid) : IoState Rate :=
  (m.observedIoStateItems.get ioPointId).getD (m.initialIoState ioPointId)

variable {m : CommunicationManager Props Rate}

theorem get_observeIoState (ioPointId id : Uuid) :
    (m.observeIoState ioPointId).observedIoStateItems.get id
      = if id = ioPointId then some (m.ioStateSubject ioPointId) else m.observedIoStateItems.get id := by
  rw [observeIoState, ioStateSubject]
  cases hstate : m.observedIoStateItems.get ioPointId with
  | none =>
    rw [if_neg (by rw [Map.has, hstate]; exact Bool.false_ne_true)]
    dsimp only
    rw [Map.get_set]
    rfl
  | some state =>
    rw [if_pos (by rw [Map.has, hstate]; rfl)]
    by_cases hid : id = ioPointId
    · rw [if_pos hid, hid, hstate]
      rfl
    · rw [if_neg hid]

theorem ioStateSubject_observeIoState (ioPointId id : Uuid) :
    (m.observeIoState ioPointId).ioStateSubject id = m.ioStateSubject id := by
  have hinitial : (m.observeIoState ioPointId).initialIoState id = m.initialIoState id := by
    rw [observeIoState]
    split <;> rfl
  rw [ioStateSubject, get_observeIoState, hinitial]
  by_cases hid : id = ioPointId
  · rw [if_pos hid, Option.getD_some, hid]
  · rw [if_neg hid, ioStateSubject]

theorem get_observeIoState_of_some {ioPointId id : Uuid} {state : IoState Rate}
    (h : m.observedIoStateItems.get id = some state) :
    (m.observeIoState ioPointId).observedIoStateItems.get id = some state := by
  rw [get_observeIoState]
  by_cases hid : id = ioPointId
  · rw [if_pos hid, ioStateSubject, ← hid, h, Option.getD_some]
  · rw [if_neg hid, h]

/-- What one subject is given. -/
def afterIoStateEvent (id : Uuid) (state : Option (IoState Rate)) (event : Uuid × IoState Rate) : Option (IoState Rate) :=
  if event.1 = id then some event.2 else state

theorem foldl_ioStateEvent {m m' : CommunicationManager Props Rate}
    (hobserved : m'.observedIoStateItems.has = m.observedIoStateItems.has) (ioPointId id : Uuid) (state : IoState Rate) :
    (m.ioStateEvent ioPointId state).foldl (afterIoStateEvent id) (m'.observedIoStateItems.get id)
      = (if (m.findIoPointById ioPointId).isSome then m'.dispatchIoState ioPointId state else m').observedIoStateItems.get id := by
  rw [ioStateEvent]
  by_cases howns : (m.findIoPointById ioPointId).isSome = true
  · rw [if_pos howns, howns, Bool.true_and, ← hobserved, get_dispatchIoState]
    cases hhas : m'.observedIoStateItems.has ioPointId with
    | true =>
      obtain ⟨old, hold⟩ := Map.has_iff.mp hhas
      rw [if_pos rfl, List.foldl_cons, List.foldl_nil, afterIoStateEvent]
      by_cases hid : id = ioPointId
      · rw [if_pos hid.symm, if_pos hid, hid, hold]
        rfl
      · rw [if_neg fun h => hid h.symm, if_neg hid]
    | false =>
      have hnone : m'.observedIoStateItems.get ioPointId = none := by
        rw [← Option.not_isSome_iff_eq_none, ← Map.has, hhas]
        exact Bool.false_ne_true
      rw [if_neg Bool.false_ne_true, List.foldl_nil]
      by_cases hid : id = ioPointId
      · rw [if_pos hid, hid, hnone]
        rfl
      · rw [if_neg hid]
  · rw [if_neg howns, Bool.eq_false_iff.mpr howns, Bool.false_and, if_neg Bool.false_ne_true]
    rfl

theorem get_handleAssociate_foldl (hm : Consistent m) (data : AssociateEventData Rate) (id : Uuid) :
    (m.handleAssociate data).observedIoStateItems.get id
      = (m.ioStateEvents data).foldl (afterIoStateEvent id) (m.observedIoStateItems.get id) := by
  have hobserved := afterActor_observedIoStateItems hm data
  obtain ⟨hsources, hactors, _⟩ := handleAssociate_maps (m := m) data
  have hsource : (m.handleAssociate data).sourceIoState data.ioSourceId
      = (m.afterActor data).sourceIoState data.ioSourceId := by
    rw [sourceIoState, sourceIoState, hsources]
  let m₃ := if (m.findIoPointById data.ioSourceId).isSome
    then (m.afterActor data).dispatchIoState data.ioSourceId ((m.afterActor data).sourceIoState data.ioSourceId)
    else m.afterActor data
  have hitems : m₃.ioActorItems = (m.afterActor data).ioActorItems := by
    dsimp only [m₃]
    split
    · rw [dispatchIoState_ioActorItems]
    · rfl
  have hactor : (m.handleAssociate data).actorIoState data.ioActorId data.associatingRoute
      = m₃.actorIoState data.ioActorId data.associatingRoute := by
    rw [actorIoState, actorIoState, hactors, hitems]
  have hhas : m₃.observedIoStateItems.has = m.observedIoStateItems.has := by
    funext id
    dsimp only [m₃]
    split
    · rw [Map.has, get_dispatchIoState, hobserved, Map.has]
      split
      · rw [Option.isSome_map]
      · rfl
    · rw [hobserved]
  have hsame : (m.afterActor data).observedIoStateItems.has = m.observedIoStateItems.has := by rw [hobserved]
  rw [ioStateEvents, List.foldl_append, hsource, hactor, ← hobserved, foldl_ioStateEvent hsame]
  exact (foldl_ioStateEvent hhas data.ioActorId id _).symm

theorem get_handleAssociate_source (hm : Consistent m) {data : AssociateEventData Rate} {id : Uuid}
    (hactor : id ≠ data.ioActorId) :
    (m.handleAssociate data).observedIoStateItems.get id
      = if id = data.ioSourceId ∧ m.Owns id then
          (m.observedIoStateItems.get id).map fun _ => (m.handleAssociate data).sourceIoState id
        else m.observedIoStateItems.get id := by
  have hobserved := afterActor_observedIoStateItems hm data
  have hsource : (m.handleAssociate data).sourceIoState id = (m.afterActor data).sourceIoState id := by
    rw [sourceIoState, sourceIoState, (handleAssociate_maps data).1]
  rw [hsource, handleAssociate_eq]
  dsimp only
  have hdispatched : ∀ m₃ : CommunicationManager Props Rate, (if (m.findIoPointById data.ioActorId).isSome
      then m₃.dispatchIoState data.ioActorId (m₃.actorIoState data.ioActorId data.associatingRoute)
      else m₃).observedIoStateItems.get id = m₃.observedIoStateItems.get id := by
    intro m₃
    split
    · rw [get_dispatchIoState, if_neg hactor]
    · rfl
  rw [hdispatched]
  by_cases howns : m.Owns data.ioSourceId
  · have hsome : (m.findIoPointById data.ioSourceId).isSome = true := howns
    rw [if_pos hsome, get_dispatchIoState, hobserved]
    by_cases hid : id = data.ioSourceId
    · rw [if_pos hid, if_pos ⟨hid, hid ▸ howns⟩, hid]
    · rw [if_neg hid, if_neg fun h => hid h.1]
  · have hnone : ¬ (m.findIoPointById data.ioSourceId).isSome = true := howns
    rw [if_neg hnone, hobserved, if_neg]
    rintro ⟨rfl, h⟩
    exact howns h

/-! ### Stopping -/

theorem consistent_initObservedItems (hm : Consistent m) :
    Consistent m.unobserveIoStateAndValue.initObservedItems := by
  have hstopped := stopped_initObservedItems hm.actors
  have hsources : m.unobserveIoStateAndValue.initObservedItems.ioSourceItems = Map.empty := rfl
  have hactors : m.unobserveIoStateAndValue.initObservedItems.ioActorItems = Map.empty := rfl
  obtain ⟨hnonempty, hnodup, hconsistent⟩ := start_consistent m.ioNodes
  refine ⟨hsources ▸ hnonempty, hsources ▸ hnodup, ?_⟩
  refine ⟨hactors ▸ hconsistent.actors_nonempty, hactors ▸ hconsistent.sources_nonempty,
    hactors ▸ hconsistent.sources_nodup, hactors ▸ hconsistent.one_route, fun filter => ?_⟩
  rw [hstopped.subscribed, hstopped.ioActorItems]
  simp

end CommunicationManager

end Coaty
