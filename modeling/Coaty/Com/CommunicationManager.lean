import Coaty.Com.Associate
import Coaty.Js.NestedMap
import Coaty.Model.IoNode

/-!
# The associations of an agent

What a communication manager remembers of the Associate events for its own IO nodes: for each own source its route, actors and update rate, for each route the own actors that listen on it with their sources, and the current value of every observed IO state. A route is subscribed at the binding while an own actor listens on it.
-/

namespace Coaty

open Js

variable {Props Rate : Type}

/-- An own IO node. It always carries both arrays, and its context name is a valid event filter. -/
structure OwnIoNode (Props Rate : Type) where
  name : Text
  name_valid : CommunicationEvent.isValidEventFilter name = true
  ioSources : List (IoSource Props Rate)
  ioActors : List (IoActor Props Rate)

/-- The actors of an own source, its route and its update rate. -/
structure IoSourceItem (Rate : Type) where
  route : IoRoute
  actorIds : List Uuid
  updateRate : Option Rate
deriving DecidableEq

/-- The sources of the own actors that listen on a route, for each route. -/
abbrev IoActorItems := Map IoRoute (Map Uuid (List Uuid))

/-- The data of an IO state event. -/
structure IoState (Rate : Type) where
  hasAssociations : Bool
  updateRate : Option Rate
deriving DecidableEq

/-- What is asked of the binding. -/
inductive BindingCall where
  | subscribe (eventLike : CommunicationEventLike Empty)
  | unsubscribe (eventLike : CommunicationEventLike Empty)

structure CommunicationManager (Props Rate : Type) where
  ioNodes : List (OwnIoNode Props Rate)
  ioSourceItems : Map Uuid (IoSourceItem Rate)
  ioActorItems : IoActorItems
  observedIoStateItems : Map Uuid (IoState Rate)
  /-- The calls for IO values to the current binding, oldest first. -/
  bindingCalls : List BindingCall

namespace CommunicationManager

/-- A fresh start with a new binding. -/
def start (ioNodes : List (OwnIoNode Props Rate)) : CommunicationManager Props Rate where
  ioNodes
  ioSourceItems := Map.empty
  ioActorItems := Map.empty
  observedIoStateItems := Map.empty
  bindingCalls := []

variable (m : CommunicationManager Props Rate)

/-- A source of a node comes before its actors. -/
def findIoPointById (objectId : Uuid) : Option (IoPoint Props Rate) :=
  m.ioNodes.findSome? fun ioNode =>
    match ioNode.ioSources.find? fun src => src.objectId = objectId with
    | some source => some source
    | none => ioNode.ioActors.find? fun a => a.objectId = objectId

/-! ### Routes and bindings -/

def ioValueEventLike (ioRoute : IoRoute) (isDataRaw isExternalIoRoute : Bool) : CommunicationEventLike Empty where
  eventType := .ioValue
  eventTypeFilter := some ioRoute.val
  sourceId := none
  correlationId := none
  data := none
  isDataRaw
  isExternalIoRoute
  retain := none

def subscribe (eventLike : CommunicationEventLike Empty) : CommunicationManager Props Rate :=
  { m with bindingCalls := m.bindingCalls ++ [.subscribe eventLike] }

def unsubscribe (ioRoute : IoRoute) : CommunicationManager Props Rate :=
  { m with bindingCalls := m.bindingCalls ++ [.unsubscribe (ioValueEventLike ioRoute false false)] }

/-- The handler of `_disassociateIoActorItems`: the actor items and the routes to unsubscribe. -/
def disassociateOnRoute (ioSourceId ioActorId : Uuid) (newIoRoute : Option IoRoute)
    (state : IoActorItems × List IoRoute) (route : IoRoute) : IoActorItems × List IoRoute :=
  let (ioActorItems, ioRoutesToUnsubscribe) := state
  if newIoRoute = some route then state
  else
    match ioActorItems.get route with
    | none => state
    | some items =>
      match items.get ioActorId with
      | none => state
      | some sourceIds =>
        let sourceIds := sourceIds.erase ioSourceId
        let items := if sourceIds.length = 0 then items.delete ioActorId else items.set ioActorId sourceIds
        (ioActorItems.set route items,
          if items.size = 0 then ioRoutesToUnsubscribe ++ [route] else ioRoutesToUnsubscribe)

def giveUpRoute (route : IoRoute) : CommunicationManager Props Rate :=
  unsubscribe { m with ioActorItems := m.ioActorItems.delete route } route

/-- All routes are handled unless there is a current one. -/
def disassociateIoActorItems (ioSourceId ioActorId : Uuid) (currentIoRoute newIoRoute : Option IoRoute) :
    CommunicationManager Props Rate :=
  let routes := match currentIoRoute with
    | some route => [route]
    | none => m.ioActorItems.keys
  let (ioActorItems, ioRoutesToUnsubscribe) :=
    routes.foldl (disassociateOnRoute ioSourceId ioActorId newIoRoute) (m.ioActorItems, [])
  ioRoutesToUnsubscribe.foldl giveUpRoute { m with ioActorItems }

def associateIoActorItems (ioSourceId : Uuid) (ioActor : IoActor Props Rate) (ioRoute : IoRoute)
    (isExternalRoute : Option Bool) : CommunicationManager Props Rate :=
  let ioActorId := ioActor.objectId
  let m := m.disassociateIoActorItems ioSourceId ioActorId none (some ioRoute)
  match m.ioActorItems.get ioRoute with
  | none =>
    subscribe { m with ioActorItems := m.ioActorItems.set ioRoute (Map.empty.set ioActorId [ioSourceId]) }
      (ioValueEventLike ioRoute (ioActor.useRawIoValues.getD false) (isExternalRoute.getD false))
  | some items =>
    match items.get ioActorId with
    | none => { m with ioActorItems := m.ioActorItems.set ioRoute (items.set ioActorId [ioSourceId]) }
    | some sourceIds =>
      if ioSourceId ∈ sourceIds then m
      else { m with ioActorItems := m.ioActorItems.set ioRoute (items.set ioActorId (sourceIds ++ [ioSourceId])) }

def updateIoSourceItems (ioSourceId ioActorId : Uuid) (ioRoute : Option IoRoute) (updateRate : Option Rate) :
    CommunicationManager Props Rate :=
  match ioRoute, m.ioSourceItems.get ioSourceId with
  | some ioRoute, none =>
    { m with ioSourceItems := m.ioSourceItems.set ioSourceId ⟨ioRoute, [ioActorId], updateRate⟩ }
  | some ioRoute, some items =>
    if items.route = ioRoute then
      let actorIds := if ioActorId ∈ items.actorIds then items.actorIds else items.actorIds ++ [ioActorId]
      { m with ioSourceItems := m.ioSourceItems.set ioSourceId ⟨ioRoute, actorIds, updateRate⟩ }
    else
      -- All current actors are disassociated from the previous route.
      let m := items.actorIds.foldl (fun m actorId =>
        m.disassociateIoActorItems ioSourceId actorId (some items.route) none) m
      { m with ioSourceItems := m.ioSourceItems.set ioSourceId ⟨ioRoute, [ioActorId], updateRate⟩ }
  | none, none => m
  | none, some items =>
    let actorIds := items.actorIds.erase ioActorId
    if actorIds.length = 0 then { m with ioSourceItems := m.ioSourceItems.delete ioSourceId }
    else { m with ioSourceItems := m.ioSourceItems.set ioSourceId ⟨items.route, actorIds, updateRate⟩ }

/-! ### Observed states -/

def dispatchIoState (ioPointId : Uuid) (state : IoState Rate) : CommunicationManager Props Rate :=
  if m.observedIoStateItems.has ioPointId then
    { m with observedIoStateItems := m.observedIoStateItems.set ioPointId state }
  else m

/-- The state that a point has when it is observed for the first time. -/
def initialIoState (ioPointId : Uuid) : IoState Rate :=
  match m.ioSourceItems.get ioPointId with
  | some srcItems => ⟨true, srcItems.updateRate⟩
  | none => ⟨m.ioActorItems.values.any fun sourceItems => sourceItems.has ioPointId, none⟩

def observeIoState (ioPointId : Uuid) : CommunicationManager Props Rate :=
  if m.observedIoStateItems.has ioPointId then m
  else { m with observedIoStateItems := m.observedIoStateItems.set ioPointId (m.initialIoState ioPointId) }

/-- The state that is dispatched to the observers of the source of an event. -/
def sourceIoState (ioSourceId : Uuid) : IoState Rate :=
  let items := m.ioSourceItems.get ioSourceId
  ⟨items.isSome, items.bind IoSourceItem.updateRate⟩

/-- The state that is dispatched to the observers of the actor of an event. -/
def actorIoState (ioActorId : Uuid) (ioRoute : Option IoRoute) : IoState Rate :=
  let actorIds := ioRoute.bind m.ioActorItems.get
  ⟨match actorIds.bind fun actorIds => actorIds.get ioActorId with
    | some sourceIds => sourceIds.length > 0
    | none => false, none⟩

/-! ### Associate events -/

def handleAssociate (data : AssociateEventData Rate) : CommunicationManager Props Rate :=
  let ioSource := m.findIoPointById data.ioSourceId
  let ioActor := m.findIoPointById data.ioActorId
  let m := if ioSource.isSome
    then m.updateIoSourceItems data.ioSourceId data.ioActorId data.associatingRoute data.updateRate else m
  let m := match ioActor with
    | none => m
    | some ioActor =>
      match data.associatingRoute with
      | some ioRoute => m.associateIoActorItems data.ioSourceId ioActor ioRoute data.isExternalRoute
      | none => m.disassociateIoActorItems data.ioSourceId data.ioActorId none none
  let m := if ioSource.isSome then m.dispatchIoState data.ioSourceId (m.sourceIoState data.ioSourceId) else m
  if ioActor.isSome then m.dispatchIoState data.ioActorId (m.actorIoState data.ioActorId data.associatingRoute)
  else m

def dispatchAssociate (event : AssociateEvent Rate) : CommunicationManager Props Rate :=
  if m.ioNodes.any fun ioNode => ioNode.name = event.ioContextName then m.handleAssociate event.data else m

/-- What happens to the associations between a start and a stop. -/
inductive Event (Rate : Type) where
  | associate (data : AssociateEventData Rate)
  | observeIoState (ioPointId : Uuid)

def step : Event Rate → CommunicationManager Props Rate
  | .associate data => m.handleAssociate data
  | .observeIoState ioPointId => m.observeIoState ioPointId

/-! ### Stopping -/

/-- The observers of IO states are completed and not looked at any more. -/
def unobserveIoStateAndValue : CommunicationManager Props Rate :=
  m.ioActorItems.keys.foldl unsubscribe {
    m with observedIoStateItems := m.observedIoStateItems.mapValues fun _ => ⟨false, none⟩ }

def initObservedItems : CommunicationManager Props Rate :=
  { m with
    ioSourceItems := Map.empty
    ioActorItems := Map.empty
    observedIoStateItems := Map.empty }

end CommunicationManager

end Coaty
