import Coaty.Com.Mqtt.Topic
import Coaty.Js.PlainObject

/-!
# The MQTT binding

The state of an `MqttBinding` and everything that changes it: the protocol handlers called by the communication manager, the event handlers and publish callbacks called by the MQTT client, and the dispatch of inbound messages. The client itself is foreign code. It appears as its connection flag and as the list of calls the binding has made on it, so that a model of the client or of the broker reads what it is asked to do from that list.
-/

namespace Js

/-- `JSON.stringify` and `JSON.parse` on event data and message payloads. Stringifying fails on cyclic data. -/
class Json (Data : Type) where
  stringify : Option Data → Except Error (Option Data)
  parse : Data → Except Error Data

/-- JSON values that are represented by their own text. -/
instance jsonText : Json Text where
  stringify := .ok
  parse := .ok

end Js

namespace Coaty

open Js

structure PublicationItem (Data : Type) where
  /-- The identity of the item object. -/
  id : Nat
  topic : Text
  payload : Option Data
  retain : Option Bool
  /-- Whether the item carries the callback of `onUnjoin`, the only one in use. -/
  callback : Bool
deriving DecidableEq

structure SubscriptionItem where
  eventType : CommunicationEventType
  topicFilter : Text
  shouldDecodeData : Bool
deriving DecidableEq

/-- What identifies a subscription. -/
def SubscriptionItem.key (item : SubscriptionItem) : CommunicationEventType × Text :=
  (item.eventType, item.topicFilter)

/-- What listeners of `inboundEvent` get. The event type is unknown for an unknown event level. -/
structure InboundEvent (Data : Type) where
  eventType : Option CommunicationEventType
  eventTypeFilter : Option Text
  sourceId : Option Text
  correlationId : Option Text
  data : Data
deriving DecidableEq

inductive ClientCall (Data : Type) where
  | publish (item : PublicationItem Data)
  | subscribe (topicFilters : List Text)
  | unsubscribe (topicFilters : List Text)
  | endClient (force : Bool)
deriving DecidableEq

structure Client (Data : Type) where
  connected : Bool
  calls : List (ClientCall Data)
deriving DecidableEq

inductive CommunicationBindingState where
  | initialized
  | joined
  | unjoined
deriving DecidableEq

inductive CommunicationState where
  | offline
  | online
deriving DecidableEq

structure CommunicationBindingJoinOptions (Data : Type) where
  joinEvents : List (CommunicationEventLike Data)
  unjoinEvent : CommunicationEventLike Data
deriving DecidableEq

structure CommunicationBindingOptions where
  messagingNamespace : Option Text
  shouldEnableCrossNamespacing : Option Bool
deriving DecidableEq

structure MqttBinding (Data : Type) where
  messagingNamespace : Text
  shouldEnableCrossNamespacing : Bool
  state : CommunicationBindingState
  communicationState : CommunicationState
  joinOptions : Option (CommunicationBindingJoinOptions Data)
  pendingPublicationItems : List (PublicationItem Data)
  issuedSubscriptionItems : List SubscriptionItem
  isDrainingPublications : Bool
  client : Option (Client Data)
  /-- The identity of the next publication item. -/
  nextItem : Nat
deriving DecidableEq

namespace MqttBinding

variable {Data : Type}

def apiVersion : Integer := ⟨3, by decide⟩

def defaultNamespace : Text := text "-"

/-- The base constructor with `onInit`. -/
def create (options : CommunicationBindingOptions) : MqttBinding Data where
  messagingNamespace := options.messagingNamespace.getD defaultNamespace
  shouldEnableCrossNamespacing := options.shouldEnableCrossNamespacing.getD false
  state := .initialized
  communicationState := .offline
  joinOptions := none
  pendingPublicationItems := []
  issuedSubscriptionItems := []
  isDrainingPublications := false
  client := none
  nextItem := 0

def reset (b : MqttBinding Data) : MqttBinding Data :=
  { b with
    client := none
    joinOptions := none
    isDrainingPublications := false
    pendingPublicationItems := []
    issuedSubscriptionItems := []
    communicationState := .offline }

def callClient (b : MqttBinding Data) (call : ClientCall Data) : MqttBinding Data :=
  { b with client := b.client.map fun client => { client with calls := client.calls ++ [call] } }

def createIoRoute (b : MqttBinding Data) (ioSourceId : Uuid) : NonEmptyText :=
  ⟨MqttTopic.getTopicName apiVersion.val b.messagingNamespace .ioValue none (some ioSourceId.val) none,
    MqttTopic.getTopicName_ne_nil _ _ _ _ _ _⟩

/-- The topic of a Raw or IoValue event is its event filter, which every caller sets. -/
def getTopicFor (b : MqttBinding Data) (eventLike : CommunicationEventLike Data) : Text :=
  match eventLike.eventType with
  | .raw => eventLike.eventTypeFilter.getD []
  | .ioValue => eventLike.eventTypeFilter.getD []
  | eventType => MqttTopic.getTopicName apiVersion.val b.messagingNamespace eventType
      eventLike.eventTypeFilter eventLike.sourceId eventLike.correlationId

def getTopicFilterFor (b : MqttBinding Data) (eventLike : CommunicationEventLike Data) : Text :=
  match eventLike.eventType with
  | .raw => eventLike.eventTypeFilter.getD []
  | .ioValue => eventLike.eventTypeFilter.getD []
  | eventType => MqttTopic.getTopicFilter apiVersion.val
      (if b.shouldEnableCrossNamespacing then none else some b.messagingNamespace) eventType
      eventLike.eventTypeFilter eventLike.correlationId

/-! ### Publications -/

def encodePayload [Json Data] (eventLike : CommunicationEventLike Data) : Except Error (Option Data) :=
  if eventLike.isDataRaw then .ok eventLike.data else Json.stringify eventLike.data

def unjoinPublished (b : MqttBinding Data) (publishFailed : Bool) : MqttBinding Data :=
  b.callClient (.endClient publishFailed)

def addPublicationItem [Json Data] (b : MqttBinding Data) (eventLike : CommunicationEventLike Data)
    (callback shouldAddFirst once : Bool) : MqttBinding Data :=
  match encodePayload eventLike with
  | .error _ => if callback then b.unjoinPublished true else b
  | .ok payload =>
    let topic := b.getTopicFor eventLike
    if once && b.pendingPublicationItems.any (fun item => item.topic = topic) then
      if callback then b.unjoinPublished true else b
    else
      let item := { id := b.nextItem, topic, payload, retain := eventLike.retain, callback }
      { b with
        pendingPublicationItems :=
          if shouldAddFirst then item :: b.pendingPublicationItems else b.pendingPublicationItems ++ [item]
        nextItem := b.nextItem + 1 }

def doDrainPublications (b : MqttBinding Data) : MqttBinding Data :=
  match b.client, b.pendingPublicationItems with
  | some _, pendingItem :: _ => b.callClient (.publish pendingItem)
  | _, _ => { b with isDrainingPublications := false }

def drainPublications (b : MqttBinding Data) : MqttBinding Data :=
  if b.isDrainingPublications then b
  else doDrainPublications { b with isDrainingPublications := true }

/-- The callback handed to `client.publish` for `pendingItem`. -/
def published (b : MqttBinding Data) (pendingItem : PublicationItem Data) (err : Bool) : MqttBinding Data :=
  if err then
    b.pendingPublicationItems.foldl
      (fun b item => if item.callback then b.unjoinPublished true else b)
      { b with isDrainingPublications := false }
  else
    let isPending := b.pendingPublicationItems.any fun item => item.id = pendingItem.id
    let b := { b with
      pendingPublicationItems := b.pendingPublicationItems.eraseP fun item => item.id = pendingItem.id }
    doDrainPublications (if isPending && pendingItem.callback then b.unjoinPublished false else b)

/-! ### Subscriptions -/

def isConnected (b : MqttBinding Data) : Bool := b.client.any fun client => client.connected

def subscribeItems (b : MqttBinding Data) (items : List SubscriptionItem) : MqttBinding Data :=
  if b.isConnected then
    let subsMap := items.foldl (fun subsMap item => assign subsMap item.topicFilter ()) Map.empty
    b.callClient (.subscribe subsMap.keys)
  else b

def unsubscribeItems (b : MqttBinding Data) (items : List SubscriptionItem) : MqttBinding Data :=
  if b.isConnected then b.callClient (.unsubscribe (items.map fun item => item.topicFilter)) else b

def addSubscriptionItem (b : MqttBinding Data) (eventLike : CommunicationEventLike Data) :
    MqttBinding Data :=
  let topicFilter := b.getTopicFilterFor eventLike
  let item : SubscriptionItem :=
    { eventType := eventLike.eventType, topicFilter, shouldDecodeData := !eventLike.isDataRaw }
  let b := { b with
    issuedSubscriptionItems :=
      match b.issuedSubscriptionItems.findIdx? fun (i : SubscriptionItem) => i.key = (eventLike.eventType, topicFilter) with
      | none => b.issuedSubscriptionItems ++ [item]
      | some index => b.issuedSubscriptionItems.set index item }
  b.subscribeItems [item]

/-- The event type that can share a topic filter with the given one. -/
def otherEventType : CommunicationEventType → Option CommunicationEventType
  | .raw => some .ioValue
  | .ioValue => some .raw
  | _ => none

def removeSubscriptionItem (b : MqttBinding Data) (eventLike : CommunicationEventLike Data) :
    MqttBinding Data :=
  let topicFilter := b.getTopicFilterFor eventLike
  match b.issuedSubscriptionItems.findIdx? fun (i : SubscriptionItem) => i.key = (eventLike.eventType, topicFilter) with
  | none => b
  | some index =>
    let items := (b.issuedSubscriptionItems.drop index).take 1
    let b := { b with issuedSubscriptionItems := b.issuedSubscriptionItems.eraseIdx index }
    match otherEventType eventLike.eventType with
    | none => b.unsubscribeItems items
    | some other =>
      if b.issuedSubscriptionItems.any fun i => i.key = (other, topicFilter) then b
      else b.unsubscribeItems items

/-! ### Protocol handlers -/

/-- Whether `onPublish` takes the event. -/
def acceptsPublication (eventLike : CommunicationEventLike Data) : Bool :=
  !(eventLike.eventType = .raw &&
    (MqttTopic.isCoatyTopicLike (eventLike.eventTypeFilter.getD []) ||
      !MqttTopic.isValidTopic eventLike.eventTypeFilter false))

def onPublish [Json Data] (b : MqttBinding Data) (eventLike : CommunicationEventLike Data) :
    MqttBinding Data :=
  if acceptsPublication eventLike then
    (b.addPublicationItem eventLike false false false).drainPublications
  else b

/-- Whether `onSubscribe` takes the event. -/
def acceptsSubscription (eventLike : CommunicationEventLike Data) : Bool :=
  !(eventLike.eventType = .raw &&
      (MqttTopic.isCoatyTopicLike (eventLike.eventTypeFilter.getD []) ||
        !MqttTopic.isValidTopic eventLike.eventTypeFilter true)) &&
    !(eventLike.eventType = .ioValue &&
      ((eventLike.isExternalIoRoute && MqttTopic.isCoatyTopicLike (eventLike.eventTypeFilter.getD [])) ||
        !MqttTopic.isValidTopic eventLike.eventTypeFilter false))

def onSubscribe (b : MqttBinding Data) (eventLike : CommunicationEventLike Data) : MqttBinding Data :=
  if acceptsSubscription eventLike then b.addSubscriptionItem eventLike else b

def onUnsubscribe (b : MqttBinding Data) (eventLike : CommunicationEventLike Data) : MqttBinding Data :=
  b.removeSubscriptionItem eventLike

def publish [Json Data] (b : MqttBinding Data) (eventLike : CommunicationEventLike Data) :
    MqttBinding Data :=
  if b.state = .unjoined then b else b.onPublish eventLike

def subscribe (b : MqttBinding Data) (eventLike : CommunicationEventLike Data) : MqttBinding Data :=
  if b.state = .unjoined then b else b.onSubscribe eventLike

def unsubscribe (b : MqttBinding Data) (eventLike : CommunicationEventLike Data) : MqttBinding Data :=
  if b.state = .unjoined then b else b.onUnsubscribe eventLike

/-- `join` with `onJoin`, which creates the client. -/
def join (b : MqttBinding Data) (joinOptions : CommunicationBindingJoinOptions Data) : MqttBinding Data :=
  if b.state = .initialized then
    { b with
      state := .joined
      joinOptions := some joinOptions
      client := some { connected := false, calls := [] } }
  else b

/-- `unjoin` with `onUnjoin`, up to the promise that resolves when the client has ended. -/
def unjoin [Json Data] (b : MqttBinding Data) : MqttBinding Data :=
  if b.state = .unjoined then b
  else
    let b := { b with state := .unjoined }
    match b.client, b.joinOptions with
    | some _, some joinOptions =>
      (b.addPublicationItem joinOptions.unjoinEvent true false false).drainPublications
    | _, _ => b.reset

/-! ### Client event handlers -/

/-- The loop of the connect handler, which adds the join events last one first. -/
def addJoinEvents [Json Data] (b : MqttBinding Data) (joinEvents : List (CommunicationEventLike Data)) :
    MqttBinding Data :=
  joinEvents.foldr (fun joinEvent b => b.addPublicationItem joinEvent false true true) b

def joinEvents (b : MqttBinding Data) : List (CommunicationEventLike Data) :=
  match b.joinOptions with
  | none => []
  | some joinOptions => joinOptions.joinEvents

/-- The connect handler up to and including its queueing step. -/
def onConnectQueue [Json Data] (b : MqttBinding Data) : MqttBinding Data :=
  let b := { b with communicationState := .online }
  (b.subscribeItems b.issuedSubscriptionItems).addJoinEvents b.joinEvents

def onConnect [Json Data] (b : MqttBinding Data) : MqttBinding Data :=
  drainPublications { b.onConnectQueue with isDrainingPublications := false }

def onClose (b : MqttBinding Data) : MqttBinding Data :=
  { b with isDrainingPublications := true, communicationState := .offline }

def onOffline (b : MqttBinding Data) : MqttBinding Data :=
  { b with isDrainingPublications := true, communicationState := .offline }

/-- The client sets its own connection flag before it calls the connect handler and when it loses the connection. -/
def setConnected (b : MqttBinding Data) (connected : Bool) : MqttBinding Data :=
  { b with client := b.client.map fun client => { client with connected } }

/-- The callback handed to `client.end`, after which the promise of `unjoin` resolves. -/
def ended (b : MqttBinding Data) : MqttBinding Data := b.reset

/-! ### Inbound messages -/

variable [Json Data] (listener : MqttBinding Data → InboundEvent Data → MqttBinding Data)

def selects (item : SubscriptionItem) (topicName : Text) : Bool :=
  (item.eventType = .raw && MqttTopic.matchesFilter topicName item.topicFilter) ||
    (item.eventType = .ioValue && topicName = item.topicFilter)

/-- One turn for each item issued when the message arrived, in which a listener may change the items. An item that cannot be decoded ends the loop. -/
def dispatchItems (topicName : Text) (payload : Data) (sourceId : Option Text) :
    Nat → Nat → MqttBinding Data → List (InboundEvent Data) → MqttBinding Data × List (InboundEvent Data)
  | 0, _, b, inbound => (b, inbound)
  | turns + 1, index, b, inbound =>
    match b.issuedSubscriptionItems[index]? with
    | none => dispatchItems topicName payload sourceId turns (index + 1) b inbound
    | some item =>
      if selects item topicName then
        match if item.shouldDecodeData then Json.parse payload else .ok payload with
        | .error _ => (b, inbound)
        | .ok data =>
          let event : InboundEvent Data := {
            eventType := some item.eventType
            eventTypeFilter := some topicName
            sourceId
            correlationId := some item.topicFilter
            data }
          dispatchItems topicName payload sourceId turns (index + 1) (listener b event) (inbound ++ [event])
      else dispatchItems topicName payload sourceId turns (index + 1) b inbound

def dispatchMessage (b : MqttBinding Data) (topicName : Text) (payload : Data) :
    MqttBinding Data × List (InboundEvent Data) :=
  match MqttTopic.createByName topicName with
  | .error _ => (b, [])
  | .ok none => dispatchItems listener topicName payload none b.issuedSubscriptionItems.length 0 b []
  | .ok (some topic) =>
    if topic.eventType = some .ioValue then
      dispatchItems listener topicName payload topic.sourceId b.issuedSubscriptionItems.length 0 b []
    else
      match Json.parse payload with
      | .error _ => (b, [])
      | .ok data =>
        let event : InboundEvent Data := {
          eventType := topic.eventType
          eventTypeFilter := topic.eventTypeFilter
          sourceId := topic.sourceId
          correlationId := topic.correlationId
          data }
        (listener b event, [event])

end MqttBinding

end Coaty
