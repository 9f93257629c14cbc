import Coaty.Com.IoStateEvents
import Coaty.Runtime.Container

/-!
# The IO actor controller

Observing the IO values of actors and their associations. The controller subscribes to the IO state and to the IO values of each actor that it is asked about, and once more to both whenever the communication manager is started. Its subscriptions end when the communication manager is stopped, which completes what they observe.
-/

namespace Coaty

open Js

variable {Props Rate Raw Json : Type}

namespace IoActorController

/-- The tuple of an actor, with the open subscriptions of the controller. -/
structure IoActorItems (Props Rate Raw Json : Type) where
  actor : IoActor Props Rate
  stateSubscriptions : Nat
  valueSubscriptions : Nat
  association : Bool
  /-- What has been emitted to the observers of the values of the actor, oldest first. -/
  ioValues : List (IoValue Raw Json)

namespace IoActorItems

variable (item : IoActorItems Props Rate Raw Json)

def getIoValue : Option (IoValue Raw Json) := item.ioValues.getLast?

def onIoStateChanged (state : IoState Rate) : IoActorItems Props Rate Raw Json :=
  if item.association ≠ state.hasAssociations then { item with association := state.hasAssociations } else item

def onIoValueChanged (value : IoValue Raw Json) : IoActorItems Props Rate Raw Json :=
  { item with ioValues := item.ioValues ++ [value] }

/-- The item of a new actor. It is not registered yet when its subscription tells the current state. -/
def create (actor : IoActor Props Rate) (state : IoState Rate) : IoActorItems Props Rate Raw Json where
  actor
  stateSubscriptions := 1
  valueSubscriptions := 1
  association := state.hasAssociations
  ioValues := []

/-- Subscribe again, which tells the current state at once, and take it over in any case. -/
def reregister (state : IoState Rate) : IoActorItems Props Rate Raw Json :=
  let item := onIoStateChanged
    { item with
      stateSubscriptions := item.stateSubscriptions + 1
      valueSubscriptions := item.valueSubscriptions + 1 } state
  { item with association := state.hasAssociations }

/-- Every open subscription to the IO state calls the observer. -/
def dispatchIoState (state : IoState Rate) : IoActorItems Props Rate Raw Json :=
  (fun item => onIoStateChanged item state)^[item.stateSubscriptions] item

/-- Every open subscription to the IO values calls the observer. -/
def dispatchIoValue (value : IoValue Raw Json) : IoActorItems Props Rate Raw Json :=
  (fun item => onIoValueChanged item value)^[item.valueSubscriptions] item

end IoActorItems

end IoActorController

/-- The controller with the communication manager of its container. -/
structure IoActorController (Props Rate Raw Json : Type) where
  agent : IoAgent Props Rate Raw Json
  operatingState : OperatingState
  actorItems : Map Uuid (IoActorController.IoActorItems Props Rate Raw Json)

namespace IoActorController

inductive Event (Props Rate Raw Json : Type) where
  | associate (data : AssociateEventData Rate)
  /-- Something else of the agent observes the state or the values of a point. -/
  | observeIoState (ioPointId : Uuid)
  | observeIoValue (ioActorId : Uuid)
  /-- `observeIoValue`, `getIoValue`, `observeAssociation` and `isAssociated` -/
  | register (actor : IoActor Props Rate)
  | ioValue (event : IoValueEvent Raw Json)
  | start
  | stop

def init (ioNodes : List (OwnIoNode Props Rate)) : IoActorController Props Rate Raw Json where
  agent := IoAgent.start ioNodes
  operatingState := .stopped
  actorItems := Map.empty

variable (s : IoActorController Props Rate Raw Json)

def observeIoState (ioPointId : Uuid) : IoActorController Props Rate Raw Json :=
  { s with agent := { s.agent with manager := s.agent.manager.observeIoState ioPointId } }

def observeIoValue (ioActorId : Uuid) : IoActorController Props Rate Raw Json :=
  { s with agent := s.agent.observeIoValue ioActorId }

def update (actorId : Uuid) (f : IoActorItems Props Rate Raw Json → IoActorItems Props Rate Raw Json) :
    IoActorController Props Rate Raw Json :=
  { s with actorItems := s.actorItems.modify actorId f }

def ensureRegistered (actor : IoActor Props Rate) : IoActorController Props Rate Raw Json :=
  match s.actorItems.get actor.objectId with
  | some _ => s
  | none =>
    let state := s.agent.manager.ioStateSubject actor.objectId
    { (s.observeIoState actor.objectId).observeIoValue actor.objectId with
      actorItems := s.actorItems.set actor.objectId (IoActorItems.create actor state) }

def dispatchIoState (event : Uuid × IoState Rate) : IoActorController Props Rate Raw Json :=
  s.update event.1 fun item => item.dispatchIoState event.2

/-- Nothing is observed while the communication manager is stopped. -/
def handleAssociate (data : AssociateEventData Rate) : IoActorController Props Rate Raw Json :=
  match s.operatingState with
  | .stopped => s
  | .started =>
    (s.agent.manager.ioStateEvents data).foldl dispatchIoState
      { s with agent := { s.agent with manager := s.agent.manager.handleAssociate data } }

/-- `dispatchNext` of the item of an actor, as far as the controller has subscribed to it. -/
def dispatchNext (value : IoValue Raw Json) (s : IoActorController Props Rate Raw Json) (ioActorId : Uuid) :
    IoActorController Props Rate Raw Json :=
  if s.agent.observedIoValueItems.has ioActorId then s.update ioActorId fun item => item.dispatchIoValue value else s

def dispatchIoValue (event : IoValueEvent Raw Json) : IoActorController Props Rate Raw Json :=
  match s.operatingState with
  | .stopped => s
  | .started =>
    let s₁ := { s with agent := s.agent.dispatchIoValue event }
    match s.agent.manager.ioActorItems.get event.topic with
    | some items => items.keys.foldl (dispatchNext event.payload) s₁
    | none => s₁

/-! ### Starting and stopping -/

def reregister (actorId : Uuid) : IoActorController Props Rate Raw Json :=
  let state := s.agent.manager.ioStateSubject actorId
  ((s.observeIoState actorId).observeIoValue actorId).update actorId fun item => item.reregister state

def reregisterAll : IoActorController Props Rate Raw Json := s.actorItems.keys.foldl reregister s

/-- A communication manager that has been started is not started again. -/
def start : IoActorController Props Rate Raw Json :=
  match s.operatingState with
  | .started => s
  | .stopped => reregisterAll { s with operatingState := .started }

/-- The subject of a state is completed after a last state that has no associations. -/
def completeIoState (ioPointId : Uuid) : IoActorController Props Rate Raw Json :=
  s.update ioPointId fun item => { item.dispatchIoState ⟨false, none⟩ with stateSubscriptions := 0 }

def completeIoValue (ioActorId : Uuid) : IoActorController Props Rate Raw Json :=
  s.update ioActorId fun item => { item with valueSubscriptions := 0 }

/-- The controller does nothing itself when the communication manager is stopped, which forgets all that it has observed. -/
def stop : IoActorController Props Rate Raw Json :=
  let s₁ := s.agent.manager.observedIoStateItems.keys.foldl completeIoState s
  { s.agent.observedIoValueItems.keys.foldl completeIoValue s₁ with
    operatingState := .stopped
    agent := {
      manager := s.agent.manager.unobserveIoStateAndValue.initObservedItems
      observedIoValueItems := Map.empty } }

def step : Event Props Rate Raw Json → IoActorController Props Rate Raw Json
  | .associate data => s.handleAssociate data
  | .observeIoState ioPointId => s.observeIoState ioPointId
  | .observeIoValue ioActorId => s.observeIoValue ioActorId
  | .register actor => s.ensureRegistered actor
  | .ioValue event => s.dispatchIoValue event
  | .start => s.start
  | .stop => s.stop

end IoActorController

end Coaty
