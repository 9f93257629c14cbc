import Coaty.Com.CommunicationManager

/-!
# IO values

What an agent does with IO values. A value of an own source is published on the route of its entry, and not at all without an entry. An inbound value is dispatched to the observers of all own actors that are listed on its route.
-/

namespace Coaty

open Js

variable {Props Rate Raw Json : Type}

/-- The payload of an IO value event, which is binary or JSON. -/
inductive IoValue (Raw Json : Type) where
  | raw (payload : Raw)
  | json (payload : Json)
deriving DecidableEq

def IoValue.isRaw : IoValue Raw Json → Bool
  | .raw _ => true
  | .json _ => false

structure IoValueEvent (Raw Json : Type) where
  topic : IoRoute
  payload : IoValue Raw Json
deriving DecidableEq

/-- The message of the error for a value in another format than that of its source. -/
def IoValueEvent.incompatibleFormat : Text :=
  text "IO value data format of given IO source is not compatible with given IO value"

/-- An agent that takes part in IO routing. The values dispatched to the observers of an actor are kept, oldest first. -/
structure IoAgent (Props Rate Raw Json : Type) where
  manager : CommunicationManager Props Rate
  observedIoValueItems : Map Uuid (List (IoValue Raw Json))

namespace IoAgent

def start (ioNodes : List (OwnIoNode Props Rate)) : IoAgent Props Rate Raw Json where
  manager := CommunicationManager.start ioNodes
  observedIoValueItems := Map.empty

variable (a : IoAgent Props Rate Raw Json)

def publishIoValue (ioSource : IoSource Props Rate) (value : IoValue Raw Json) :
    Except Text (Option (IoValueEvent Raw Json)) :=
  if value.isRaw = ioSource.useRawIoValues.getD false then
    .ok ((a.manager.ioSourceItems.get ioSource.objectId).map fun items => ⟨items.route, value⟩)
  else .error IoValueEvent.incompatibleFormat

def observeIoValue (ioActorId : Uuid) : IoAgent Props Rate Raw Json :=
  if a.observedIoValueItems.has ioActorId then a
  else { a with observedIoValueItems := a.observedIoValueItems.set ioActorId [] }

/-- `dispatchNext` of the item of an actor, if it is observed. -/
def dispatchNext (payload : IoValue Raw Json) (observedIoValueItems : Map Uuid (List (IoValue Raw Json)))
    (ioActorId : Uuid) : Map Uuid (List (IoValue Raw Json)) :=
  match observedIoValueItems.get ioActorId with
  | some payloads => observedIoValueItems.set ioActorId (payloads ++ [payload])
  | none => observedIoValueItems

/-- `_dispatchIoValue`. The binding hands over values on subscribed routes only, but on no other are there actors. -/
def dispatchIoValue (event : IoValueEvent Raw Json) : IoAgent Props Rate Raw Json :=
  match a.manager.ioActorItems.get event.topic with
  | some items =>
    { a with observedIoValueItems := items.keys.foldl (dispatchNext event.payload) a.observedIoValueItems }
  | none => a

theorem get_dispatchNext (payload : IoValue Raw Json) (observed : Map Uuid (List (IoValue Raw Json)))
    (ioActorId actorId : Uuid) :
    (dispatchNext payload observed ioActorId).get actorId
      = if actorId = ioActorId then (observed.get actorId).map fun payloads => payloads ++ [payload]
        else observed.get actorId := by
  rw [dispatchNext]
  cases hobserved : observed.get ioActorId with
  | none =>
    dsimp only
    by_cases hactor : actorId = ioActorId
    · rw [if_pos hactor, hactor, hobserved]
      rfl
    · rw [if_neg hactor]
  | some payloads =>
    dsimp only
    rw [Map.get_set]
    by_cases hactor : actorId = ioActorId
    · rw [if_pos hactor, if_pos hactor, hactor, hobserved]
      rfl
    · rw [if_neg hactor, if_neg hactor]

theorem get_foldl_dispatchNext (payload : IoValue Raw Json) {actorIds : List Uuid} (hnodup : actorIds.Nodup)
    (observed : Map Uuid (List (IoValue Raw Json))) (actorId : Uuid) :
    (actorIds.foldl (dispatchNext payload) observed).get actorId
      = if actorId ∈ actorIds then (observed.get actorId).map fun payloads => payloads ++ [payload]
        else observed.get actorId := by
  induction actorIds generalizing observed with
  | nil => rfl
  | cons first rest ih =>
    obtain ⟨hfresh, hrest⟩ := List.nodup_cons.mp hnodup
    rw [List.foldl_cons, ih hrest, get_dispatchNext]
    by_cases hactor : actorId = first
    · rw [if_neg (hactor ▸ hfresh), if_pos hactor, if_pos (hactor ▸ List.mem_cons_self)]
    · simp [hactor]

theorem get_dispatchIoValue (event : IoValueEvent Raw Json) (actorId : Uuid) :
    (a.dispatchIoValue event).observedIoValueItems.get actorId
      = if (a.manager.ioActorItems.getAt event.topic actorId).isSome
        then (a.observedIoValueItems.get actorId).map fun payloads => payloads ++ [event.payload]
        else a.observedIoValueItems.get actorId := by
  rw [dispatchIoValue]
  cases hitems : a.manager.ioActorItems.get event.topic with
  | none => rw [Map.getAt_of_get_none hitems]; rfl
  | some items =>
    dsimp only
    rw [get_foldl_dispatchNext event.payload items.keys_nodup, Map.getAt_of_get hitems]
    have hkey : actorId ∈ items.keys ↔ (items.get actorId).isSome = true := by
      rw [Map.mem_keys, Option.isSome_iff_exists]
    by_cases hmem : actorId ∈ items.keys
    · rw [if_pos hmem, if_pos (hkey.mp hmem)]
    · rw [if_neg hmem, if_neg fun h => hmem (hkey.mpr h)]

theorem has_dispatchIoValue (event : IoValueEvent Raw Json) (actorId : Uuid) :
    (a.dispatchIoValue event).observedIoValueItems.has actorId = a.observedIoValueItems.has actorId := by
  rw [Map.has, get_dispatchIoValue, Map.has]
  split
  · rw [Option.isSome_map]
  · rfl

theorem has_observeIoValue (ioActorId actorId : Uuid) :
    (a.observeIoValue ioActorId).observedIoValueItems.has actorId = true ↔
      actorId = ioActorId ∨ a.observedIoValueItems.has actorId = true := by
  rw [observeIoValue]
  by_cases hhas : a.observedIoValueItems.has ioActorId = true
  · rw [if_pos hhas]
    exact ⟨Or.inr, fun h => h.elim (fun heq => heq ▸ hhas) fun h => h⟩
  · rw [if_neg hhas, Map.has, Map.get_set]
    by_cases hactor : actorId = ioActorId
    · simp [hactor]
    · rw [if_neg hactor, Map.has]
      simp [hactor]

@[simp] theorem dispatchIoValue_manager (event : IoValueEvent Raw Json) :
    (a.dispatchIoValue event).manager = a.manager := by
  rw [dispatchIoValue]
  split <;> rfl

@[simp] theorem observeIoValue_manager (ioActorId : Uuid) : (a.observeIoValue ioActorId).manager = a.manager := by
  rw [observeIoValue]
  split <;> rfl

end IoAgent

end Coaty
