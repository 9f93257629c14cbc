import Coaty.Com.IoStateEvents
import Coaty.Pacing
import Coaty.Runtime.Container

/-!
# The IO source controller

Publishing of IO values at the rate that is recommended for their source. The controller mirrors the IO state of each source it has been asked about, and renews the subscription that publishes values whenever the state changes, which discards what the previous one had not published yet. The mirrored subjects outlive a restart of the communication manager, the subscriptions do not.
-/

namespace Coaty

open Js Pacing

inductive IoSourceBackpressureStrategy where
  | default
  | none
  | sample
  | throttle
deriving DecidableEq

/-- What a source has in addition to an IO point. -/
structure SourceProperties (Props : Type) where
  updateStrategy : Option IoSourceBackpressureStrategy
  properties : Props
deriving DecidableEq

variable {Props Raw Json : Type}

/-- The tuple of a source. Subscriptions to its IO state that are no longer in the tuple may still be open. -/
structure IoSourceItems (Props Raw Json : Type) where
  source : IoSource (SourceProperties Props) Nat
  isSubscribed : Bool
  strayStateSubscriptions : Nat
  updateRate : Option Nat
  association : Bool
  updateSubscription : Option (Subscription (IoValue Raw Json))
  /-- What has become of the values of the source, oldest first. -/
  updateLog : List (Entry (IoValue Raw Json))
  /-- What has been handed to the binding, oldest first. -/
  published : List (IoValueEvent Raw Json)

namespace IoSourceItems

def piping (source : IoSource (SourceProperties Props) Nat) (updateRate : Option Nat) : Piping :=
  match updateRate with
  | none | some 0 => .direct
  | some rate =>
    match source.properties.updateStrategy.getD .default with
    | .default | .sample => .sampleTime rate
    | .throttle => .debounceTime rate
    | .none => .direct

variable (publishIoValue : IoSource (SourceProperties Props) Nat → IoValue Raw Json →
  Except Text (Option (IoValueEvent Raw Json)))
variable (now : Nat) (item : IoSourceItems Props Raw Json)

def stateSubscriptions : Nat := item.strayStateSubscriptions + item.isSubscribed.toNat

def record (act : Act (IoValue Raw Json)) : IoSourceItems Props Raw Json :=
  { item with updateLog := item.updateLog ++ [⟨now, act⟩] }

def updateUpdateRateObservable : IoSourceItems Props Raw Json :=
  if item.association then
    let piping := piping item.source item.updateRate
    record now { item with updateSubscription := some ⟨piping, now, []⟩ } (.opened piping.limit)
  else record now { item with updateSubscription := none } .closed

def onIoStateChanged (state : IoState Nat) : IoSourceItems Props Raw Json :=
  if item.association ≠ state.hasAssociations ∨ item.updateRate ≠ state.updateRate then
    updateUpdateRateObservable now
      { item with association := state.hasAssociations, updateRate := state.updateRate }
  else item

/-- The observer of the update subscription. An error that it throws closes the subscription. -/
def handOn (value : IoValue Raw Json) : IoSourceItems Props Raw Json :=
  let item := item.record now (.published value)
  match publishIoValue item.source value with
  | .ok event => { item with published := item.published ++ event.toList }
  | .error _ => record now { item with updateSubscription := none } .closed

/-- `next` of the update subject. Without a subscription the value is lost. -/
def next (value : IoValue Raw Json) : IoSourceItems Props Raw Json :=
  match item.updateSubscription with
  | none => item
  | some sub =>
    let item := item.record now (.scheduled value)
    match sub.piping with
    | .direct => item.handOn publishIoValue now value
    | _ => { item with updateSubscription := some (sub.give now value) }

/-- What the update subscription does when it gets `now`. -/
def elapse (rx : Operators (IoValue Raw Json)) : IoSourceItems Props Raw Json :=
  match item.updateSubscription.bind fun sub => sub.handsOn rx now with
  | none => item
  | some value => item.handOn publishIoValue now value

/-- Subscribe to the IO state, which tells the current state at once, and take it over in any case. -/
def reregister (state : IoState Nat) : IoSourceItems Props Raw Json :=
  let item := onIoStateChanged now
    { item with strayStateSubscriptions := item.stateSubscriptions, isSubscribed := true } state
  updateUpdateRateObservable now { item with updateRate := state.updateRate, association := state.hasAssociations }

def deregister : IoSourceItems Props Raw Json :=
  record now { item with isSubscribed := false, updateSubscription := none } .closed

/-- Every open subscription to the IO state calls the observer. -/
def dispatchNext (state : IoState Nat) : IoSourceItems Props Raw Json :=
  (fun item => onIoStateChanged now item state)^[item.stateSubscriptions] item

def dispatchComplete : IoSourceItems Props Raw Json :=
  { item with isSubscribed := false, strayStateSubscriptions := 0 }

/-- The item of a new source. It is not registered yet when its subscription tells the current state. -/
def create (source : IoSource (SourceProperties Props) Nat) (state : IoState Nat) : IoSourceItems Props Raw Json :=
  updateUpdateRateObservable now
    { source
      isSubscribed := true
      strayStateSubscriptions := 0
      updateRate := state.updateRate
      association := state.hasAssociations
      updateSubscription := none
      updateLog := []
      published := [] }

end IoSourceItems

/-- The controller with the communication manager of its container. -/
structure IoSourceController (Props Raw Json : Type) where
  agent : IoAgent (SourceProperties Props) Nat Raw Json
  operatingState : OperatingState
  now : Nat
  sourceItems : Map Uuid (IoSourceItems Props Raw Json)

namespace IoSourceController

/-- Time goes by in milliseconds. -/
inductive Event (Props Raw Json : Type) where
  | associate (data : AssociateEventData Nat)
  /-- Something else of the agent observes the state of a point. -/
  | observeIoState (ioPointId : Uuid)
  /-- `isAssociated`, `observeAssociation` and `observeUpdateRate` -/
  | register (source : IoSource (SourceProperties Props) Nat)
  | publish (source : IoSource (SourceProperties Props) Nat) (value : IoValue Raw Json)
  | elapse
  | start
  | stop

def init (ioNodes : List (OwnIoNode (SourceProperties Props) Nat)) : IoSourceController Props Raw Json where
  agent := IoAgent.start ioNodes
  operatingState := .stopped
  now := 0
  sourceItems := Map.empty

variable (rx : Operators (IoValue Raw Json)) (s : IoSourceController Props Raw Json)

def observeIoState (ioPointId : Uuid) : IoSourceController Props Raw Json :=
  { s with agent := { s.agent with manager := s.agent.manager.observeIoState ioPointId } }

/-- Change the item of a source that is registered. -/
def update (sourceId : Uuid) (f : IoSourceItems Props Raw Json → IoSourceItems Props Raw Json) :
    IoSourceController Props Raw Json :=
  { s with sourceItems := s.sourceItems.modify sourceId f }

def ensureRegistered (source : IoSource (SourceProperties Props) Nat) : IoSourceController Props Raw Json :=
  match s.sourceItems.get source.objectId with
  | some _ => s
  | none =>
    let state := s.agent.manager.ioStateSubject source.objectId
    { s.observeIoState source.objectId with
      sourceItems := s.sourceItems.set source.objectId (IoSourceItems.create s.now source state) }

/-- The value is discarded if the source has no associations. The copy of a value that may have to wait is the value itself here. -/
def publish (source : IoSource (SourceProperties Props) Nat) (value : IoValue Raw Json) :
    IoSourceController Props Raw Json :=
  let s := s.ensureRegistered source
  s.update source.objectId fun item =>
    if item.association then item.next s.agent.publishIoValue s.now value else item

def elapse : IoSourceController Props Raw Json :=
  { s with
    now := s.now + 1
    sourceItems := s.sourceItems.mapValues fun item => item.elapse s.agent.publishIoValue (s.now + 1) rx }

/-! ### IO states -/

def dispatchIoState (event : Uuid × IoState Nat) : IoSourceController Props Raw Json :=
  s.update event.1 fun item => item.dispatchNext s.now event.2

/-- Associate events are not observed while the communication manager is stopped. -/
def handleAssociate (data : AssociateEventData Nat) : IoSourceController Props Raw Json :=
  match s.operatingState with
  | .stopped => s
  | .started =>
    (s.agent.manager.ioStateEvents data).foldl dispatchIoState
      { s with agent := { s.agent with manager := s.agent.manager.handleAssociate data } }

/-! ### Starting and stopping -/

/-- The item is that of the key. -/
def reregister (sourceId : Uuid) : IoSourceController Props Raw Json :=
  let state := s.agent.manager.ioStateSubject sourceId
  (s.observeIoState sourceId).update sourceId fun item => item.reregister s.now state

def reregisterAll : IoSourceController Props Raw Json := s.sourceItems.keys.foldl reregister s

def deregisterAll : IoSourceController Props Raw Json :=
  { s with sourceItems := s.sourceItems.mapValues fun item => item.deregister s.now }

/-- The subject of a state is completed after a last state that has no associations. -/
def completeIoState (ioPointId : Uuid) : IoSourceController Props Raw Json :=
  s.update ioPointId fun item => (item.dispatchNext s.now ⟨false, none⟩).dispatchComplete

/-- A communication manager that has been started is not started again. -/
def start : IoSourceController Props Raw Json :=
  match s.operatingState with
  | .started => s
  | .stopped => reregisterAll { s with operatingState := .started }

/-- The communication manager forgets all that it has observed. -/
def unobserveIoState : IoSourceController Props Raw Json :=
  { s.agent.manager.observedIoStateItems.keys.foldl completeIoState s with
    agent := {
      manager := s.agent.manager.unobserveIoStateAndValue.initObservedItems
      observedIoValueItems := Map.empty } }

/-- Controllers are told before the observers are, and only if the operating state changes. -/
def stop : IoSourceController Props Raw Json :=
  match s.operatingState with
  | .started => unobserveIoState (deregisterAll { s with operatingState := .stopped })
  | .stopped => s.unobserveIoState

def step : Event Props Raw Json → IoSourceController Props Raw Json
  | .associate data => s.handleAssociate data
  | .observeIoState ioPointId => s.observeIoState ioPointId
  | .register source => s.ensureRegistered source
  | .publish source value => s.publish source value
  | .elapse => s.elapse rx
  | .start => s.start
  | .stop => s.stop

end IoSourceController

end Coaty
