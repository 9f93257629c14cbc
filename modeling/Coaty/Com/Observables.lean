import Coaty.Com.Mqtt.Delivery
import Coaty.Com.SubscriberItem

/-!
# The observables of the communication manager

The part of the communication manager that hands out observables: of inbound requests, where all observers of one request share an item, and of the responses to an outbound request, where each publication has an item of its own. An observable is the number of its item. Items are registered under their request or correlation id, and an item that is not registered any more lives on with its observable. The binding is the current one, which stopping replaces. Callbacks that subscribe, unsubscribe or observe from within a dispatch are events of their own.
-/

namespace Coaty

open Js

namespace CommunicationEvent

def typeName : CommunicationEventType → Text
  | .external => text "External"
  | .raw => text "Raw"
  | .oneWay => text "OneWay"
  | .advertise => text "Advertise"
  | .deadvertise => text "Deadvertise"
  | .channel => text "Channel"
  | .associate => text "Associate"
  | .ioValue => text "IoValue"
  | .twoWay => text "TwoWay"
  | .discover => text "Discover"
  | .resolve => text "Resolve"
  | .query => text "Query"
  | .retrieve => text "Retrieve"
  | .update => text "Update"
  | .complete => text "Complete"
  | .call => text "Call"
  | .returnEvent => text "Return"

def responseEventType : CommunicationEventType → Option CommunicationEventType
  | .discover => some .resolve
  | .query => some .retrieve
  | .update => some .complete
  | .call => some .returnEvent
  | _ => none

/-- The event types that are observed as requests. -/
def IsRequest (eventType : CommunicationEventType) : Prop :=
  eventType ∈ [.raw, .advertise, .deadvertise, .channel, .associate, .discover, .query, .update, .call]

instance (eventType : CommunicationEventType) : Decidable (IsRequest eventType) :=
  inferInstanceAs (Decidable (eventType ∈ _))

end CommunicationEvent

open CommunicationEvent

abbrev RequestType := { eventType : CommunicationEventType // IsRequest eventType }

namespace RequestType

def advertise : RequestType := ⟨.advertise, by decide⟩

def update : RequestType := ⟨.update, by decide⟩

def associate : RequestType := ⟨.associate, by decide⟩

def discover : RequestType := ⟨.discover, by decide⟩

end RequestType

variable {Data : Type}

structure ObservedRequestItem (Data : Type) where
  eventType : RequestType
  eventTypeFilter : Option Text
  item : SubscriberItem
  /-- Whether `cleanup` has not been called. -/
  cleanup : Bool

structure ObservedResponseItem (Data : Type) where
  /-- The event that the publisher hands to the binding. -/
  request : CommunicationEventLike Data
  responseType : CommunicationEventType
  correlationId : Uuid
  item : SubscriberItem
  cleanup : Bool
  hasLastObserverUnsubscribed : Bool
  /-- Whether the manager was stopped since the request was published. -/
  stoppedSince : Bool

/-- A request that was handed to the binding, with what held at that moment. -/
structure HandedRequest where
  observable : Nat
  registered : Bool
  subscribed : Bool
deriving DecidableEq

structure Observables (Data : Type) where
  binding : MqttBinding Data
  requestItems : List (ObservedRequestItem Data)
  responseItems : List (ObservedResponseItem Data)
  observedRequests : Map Text Nat
  observedResponses : Map Uuid Nat
  /-- The requests that were handed to a binding, oldest first. -/
  handed : List HandedRequest

inductive Observables.Event (Data : Type) where
  | observe (eventType : RequestType) (eventTypeFilter : Option Text)
  | subscribe (observable : Nat)
  | unsubscribe (observable : Nat) (subscriber : Subscriber)
  | publish (event : CommunicationEventLike Data)
  | subscribeResponse (observable : Nat)
  | unsubscribeResponse (observable : Nat) (subscriber : Subscriber)
  /-- An inbound event calls `next` on subscribers and does nothing else. -/
  | inbound (event : InboundEvent Data)
  | stop (options : CommunicationBindingOptions)
  /-- `start` without options. -/
  | start (joinOptions : CommunicationBindingJoinOptions Data)
  /-- What `start` does when the binding it has stopped is unjoined. -/
  | join (joinOptions : CommunicationBindingJoinOptions Data)

def getRequestId (eventType : CommunicationEventType) (requestFilter : Option Text) : Text :=
  typeName eventType ++ requestFilter.getD []

namespace ObservedRequestItem

def requestId (item : ObservedRequestItem Data) : Text := getRequestId item.eventType.val item.eventTypeFilter

/-- What the binding is asked to subscribe and unsubscribe. -/
def eventLike (item : ObservedRequestItem Data) : CommunicationEventLike Data where
  eventType := item.eventType.val
  eventTypeFilter := item.eventTypeFilter
  sourceId := none
  correlationId := none
  data := none
  isDataRaw := item.eventType.val = .raw
  isExternalIoRoute := false
  retain := none

end ObservedRequestItem

namespace ObservedResponseItem

def eventLike (item : ObservedResponseItem Data) : CommunicationEventLike Data where
  eventType := item.responseType
  eventTypeFilter := none
  sourceId := none
  correlationId := some item.correlationId.val
  data := none
  isDataRaw := false
  isExternalIoRoute := false
  retain := none

end ObservedResponseItem

namespace Observables

/-- A communication manager that has not been started. -/
def create (options : CommunicationBindingOptions) : Observables Data where
  binding := MqttBinding.create options
  requestItems := []
  responseItems := []
  observedRequests := Map.empty
  observedResponses := Map.empty
  handed := []

variable (s : Observables Data)

/-! ### Requests -/

def observeRequest (eventType : RequestType) (eventTypeFilter : Option Text) : Observables Data :=
  let requestId := getRequestId eventType.val eventTypeFilter
  match s.observedRequests.get requestId with
  | some _ => s
  | none =>
    let item : ObservedRequestItem Data := ⟨eventType, eventTypeFilter, SubscriberItem.empty 0, true⟩
    { s with
      requestItems := s.requestItems ++ [item]
      observedRequests := s.observedRequests.set requestId s.requestItems.length
      binding := s.binding.subscribe item.eventLike }

def subscribeRequest (observable : Nat) : Observables Data :=
  match s.requestItems[observable]? with
  | none => s
  | some item => { s with requestItems := s.requestItems.set observable { item with item := item.item.add } }

/-- Unsubscribing a subscriber, and with the last one cleaning up the item. Unsubscribing twice does nothing. -/
def unsubscribeRequest (observable : Nat) (subscriber : Subscriber) : Observables Data :=
  match s.requestItems[observable]? with
  | none => s
  | some item =>
    if subscriber ∈ item.item.subscribers then
      let left := item.item.remove subscriber
      if left.subscribers.length = 0 ∧ item.cleanup = true then
        { s with
          requestItems := s.requestItems.set observable { item with item := left, cleanup := false }
          observedRequests := s.observedRequests.delete item.requestId
          binding := s.binding.unsubscribe item.eventLike }
      else { s with requestItems := s.requestItems.set observable { item with item := left } }
    else s

def observableOf (eventType : RequestType) (eventTypeFilter : Option Text) : Option Nat :=
  s.observedRequests.get (getRequestId eventType.val eventTypeFilter)

def observeAndSubscribe (eventType : RequestType) (eventTypeFilter : Option Text) : Observables Data :=
  let s := s.observeRequest eventType eventTypeFilter
  match s.observableOf eventType eventTypeFilter with
  | none => s
  | some observable => s.subscribeRequest observable

/-! ### Responses -/

def observeResponse (request : CommunicationEventLike Data) (responseType : CommunicationEventType)
    (correlationId : Uuid) : Observables Data :=
  let item : ObservedResponseItem Data :=
    { request := { request with correlationId := some correlationId.val }
      responseType, correlationId, item := SubscriberItem.empty 0, cleanup := true
      hasLastObserverUnsubscribed := false, stoppedSince := false }
  { s with
    responseItems := s.responseItems ++ [item]
    observedResponses := s.observedResponses.set correlationId s.responseItems.length
    binding := s.binding.subscribe item.eventLike }

def publishRequest [Json Data] (observable : Nat) (item : ObservedResponseItem Data) : Observables Data :=
  { s with
    binding := s.binding.publish item.request
    handed := s.handed ++ [{
      observable
      registered := s.observedResponses.get item.correlationId = some observable
      subscribed := s.binding.issuedKeys.any fun key =>
        key = (item.responseType, s.binding.getTopicFilterFor item.eventLike) }] }

/-- Subscribing fails after the last observer has left. -/
def subscribeResponse [Json Data] (observable : Nat) : Except Error (Observables Data) :=
  match s.responseItems[observable]? with
  | none => .ok s
  | some item =>
    if item.hasLastObserverUnsubscribed then .error .typeError
    else
      let s := { s with responseItems := s.responseItems.set observable { item with item := item.item.add } }
      if item.item.add.subscribers.length = 1 ∧ item.cleanup = true then .ok (s.publishRequest observable item)
      else .ok s

def unsubscribeResponse (observable : Nat) (subscriber : Subscriber) : Observables Data :=
  match s.responseItems[observable]? with
  | none => s
  | some item =>
    if subscriber ∈ item.item.subscribers then
      let left := item.item.remove subscriber
      if left.subscribers.length = 0 then
        let unobserved := { item with item := left, cleanup := false, hasLastObserverUnsubscribed := true }
        let s := { s with responseItems := s.responseItems.set observable unobserved }
        if item.cleanup then
          { s with
            observedResponses := s.observedResponses.delete item.correlationId
            binding := s.binding.unsubscribe item.eventLike }
        else s
      else { s with responseItems := s.responseItems.set observable { item with item := left } }
    else s

/-! ### Starting and stopping -/

/-- Completing the subscribers of an item, the last one first. -/
def completeRequest (observable : Nat) : Observables Data :=
  match s.requestItems[observable]? with
  | none => s
  | some item => item.item.subscribers.reverse.foldl (fun s subscriber => s.unsubscribeRequest observable subscriber) s

def completeResponse (observable : Nat) : Observables Data :=
  match s.responseItems[observable]? with
  | none => s
  | some item => item.item.subscribers.reverse.foldl (fun s subscriber => s.unsubscribeResponse observable subscriber) s

def unobserveObservedItems : Observables Data :=
  let s := s.observedRequests.values.foldl completeRequest s
  let s := s.observedResponses.values.foldl completeResponse s
  { s with observedRequests := Map.empty, observedResponses := Map.empty }

/-- The new binding is created before the old one is unjoined. -/
def unjoinBinding (options : CommunicationBindingOptions) : Observables Data :=
  let s := s.unobserveObservedItems
  { s with
    binding := MqttBinding.create options
    responseItems := s.responseItems.map fun item => { item with stoppedSince := true } }

/-- Joining observes the own IO contexts, and Discover events for the own IO nodes and the identity. -/
def joinBinding (contextNames : List Text) (joinOptions : CommunicationBindingJoinOptions Data) : Observables Data :=
  let s := { s with binding := s.binding.join joinOptions }
  let s := contextNames.foldl (fun s name => s.observeAndSubscribe .associate (some name)) s
  let s := if contextNames = [] then s else s.observeAndSubscribe .discover none
  s.observeAndSubscribe .discover none

variable [Json Data]

/-- A step of a communication manager whose own IO nodes have the given context names and whose runtime creates the given ids. -/
def step (contextNames : List Text) (newUuid : Nat → Uuid) (s : Observables Data) : Event Data → Observables Data
  | .observe eventType eventTypeFilter => s.observeRequest eventType eventTypeFilter
  | .subscribe observable => s.subscribeRequest observable
  | .unsubscribe observable subscriber => s.unsubscribeRequest observable subscriber
  | .publish event =>
    match responseEventType event.eventType with
    | none => { s with binding := s.binding.publish event }
    | some responseType => s.observeResponse event responseType (newUuid s.responseItems.length)
  | .subscribeResponse observable =>
    match s.subscribeResponse observable with
    | .error _ => s
    | .ok s => s
  | .unsubscribeResponse observable subscriber => s.unsubscribeResponse observable subscriber
  | .inbound _ => s
  | .stop options => s.unjoinBinding options
  | .start joinOptions =>
    if s.binding.state = .initialized then s.joinBinding contextNames joinOptions else s
  | .join joinOptions => s.joinBinding contextNames joinOptions

end Observables

end Coaty
