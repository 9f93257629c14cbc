import Coaty.Com.Mqtt.Binding
import Coaty.Transition
import Mathlib.Data.Finset.Lattice.Basic

/-!
# A binding, its client and the broker

An `MqttBinding` until it is unjoined, together with what the world around it remembers: the topic filters the broker holds for the current connection, and the publish callbacks the client still owes. The client is a channel that is connected from a connect event until it loses the connection. The broker starts every connection without filters and processes subscribe and unsubscribe calls in order. A publish callback is called at most once, possibly late, and reports an error only for a call that was made without a connection or whose connection has been lost. No function of the binding does anything after its publish call, so a callback called from within that call is the event right after it.
-/

namespace Coaty

open Js

namespace MqttBinding

variable {Data : Type}

/-- The calls made on the client, oldest first. -/
def calls (b : MqttBinding Data) : List (ClientCall Data) :=
  match b.client with
  | none => []
  | some client => client.calls

end MqttBinding

/-- A call of `client.publish` whose callback has not been called. -/
structure OutstandingPublish (Data : Type) where
  /-- The position of the call among the calls on the client. -/
  number : Nat
  item : PublicationItem Data
  /-- Whether the connection the call was made on still stands. -/
  live : Bool
deriving DecidableEq

inductive SessionEvent (Data : Type) where
  | join (joinOptions : CommunicationBindingJoinOptions Data)
  | publish (eventLike : CommunicationEventLike Data)
  | subscribe (eventLike : CommunicationEventLike Data)
  | unsubscribe (eventLike : CommunicationEventLike Data)
  | connect
  | lose
  | close
  | offline
  | published (number : Nat) (err : Bool)

structure Session (Data : Type) where
  binding : MqttBinding Data
  brokerFilters : Finset Text
  outstanding : List (OutstandingPublish Data)
  /-- The identities of the items that `publish` has queued, in this order. -/
  enqueued : List Nat
  /-- Whether the last accepted call for an event type and topic filter was a subscribe. -/
  lastCall : Map (CommunicationEventType × Text) Bool

/-- How the broker changes its filters for a call of the client. -/
def brokerProcess {Data : Type} (filters : Finset Text) : ClientCall Data → Finset Text
  | .subscribe topicFilters => filters ∪ topicFilters.toFinset
  | .unsubscribe topicFilters => filters \ topicFilters.toFinset
  | .publish _ => filters
  | .endClient _ => filters

/-- The publish calls among `calls`, the first of which has the given number. -/
def outstandingCalls {Data : Type} (live : Bool) (number : Nat) :
    List (ClientCall Data) → List (OutstandingPublish Data)
  | [] => []
  | .publish item :: calls => { number, item, live } :: outstandingCalls live (number + 1) calls
  | _ :: calls => outstandingCalls live (number + 1) calls

namespace Session

variable {Data : Type}

def start (options : CommunicationBindingOptions) : Session Data where
  binding := MqttBinding.create options
  brokerFilters := ∅
  outstanding := []
  enqueued := []
  lastCall := Map.empty

def connected (s : Session Data) : Bool := s.binding.isConnected

/-- Take over the next state of the binding and let client and broker process the calls it has made. -/
def absorb (s : Session Data) (b : MqttBinding Data) : Session Data :=
  let calls := b.calls.drop s.binding.calls.length
  { s with
    binding := b
    brokerFilters := calls.foldl brokerProcess s.brokerFilters
    outstanding := s.outstanding ++ outstandingCalls b.isConnected s.binding.calls.length calls }

/-- The key under which a subscription is issued. -/
def subscriptionKey (b : MqttBinding Data) (eventLike : CommunicationEventLike Data) :
    CommunicationEventType × Text :=
  (eventLike.eventType, b.getTopicFilterFor eventLike)

def step [Json Data] (s : Session Data) : SessionEvent Data → Session Data
  | .join joinOptions => s.absorb (s.binding.join joinOptions)
  | .publish eventLike =>
    let b := s.binding.publish eventLike
    { s.absorb b with
      enqueued := if b.nextItem = s.binding.nextItem then s.enqueued else s.enqueued ++ [s.binding.nextItem] }
  | .subscribe eventLike =>
    { s.absorb (s.binding.subscribe eventLike) with
      lastCall :=
        if MqttBinding.acceptsSubscription eventLike then
          s.lastCall.set (subscriptionKey s.binding eventLike) true
        else s.lastCall }
  | .unsubscribe eventLike =>
    { s.absorb (s.binding.unsubscribe eventLike) with
      lastCall := s.lastCall.set (subscriptionKey s.binding eventLike) false }
  | .connect => { s with brokerFilters := ∅ }.absorb (s.binding.setConnected true).onConnect
  | .lose =>
    { s with
      binding := s.binding.setConnected false
      outstanding := s.outstanding.map fun call => { call with live := false } }
  | .close => { s with binding := s.binding.onClose }
  | .offline => { s with binding := s.binding.onOffline }
  | .published number err =>
    match s.outstanding.find? fun call => call.number = number with
    | none => s
    | some call =>
      { s with outstanding := s.outstanding.filter fun call => call.number ≠ number }.absorb
        (s.binding.published call.item err)

def IsSubscribable (eventType : CommunicationEventType) : Prop :=
  eventType = .raw ∨ MqttTopic.HasTopicLevel eventType

/-- What the client and the communication manager can do in a state. -/
def Enabled (s : Session Data) : SessionEvent Data → Prop
  | .join _ => s.binding.state = .initialized
  | .publish _ => True
  | .subscribe eventLike => IsSubscribable eventLike.eventType
  | .unsubscribe eventLike => IsSubscribable eventLike.eventType
  | .connect => s.binding.client.isSome = true ∧ s.connected = false
  | .lose => s.connected = true
  | .close => s.binding.client.isSome = true ∧ s.connected = false
  | .offline => s.binding.client.isSome = true ∧ s.connected = false
  | .published number err => ∃ call ∈ s.outstanding, call.number = number ∧ (err = true → call.live = false)

instance (s : Session Data) : (event : SessionEvent Data) → Decidable (s.Enabled event)
  | .join _ => inferInstanceAs (Decidable (s.binding.state = .initialized))
  | .publish _ => isTrue trivial
  | .subscribe eventLike => inferInstanceAs (Decidable (_ = _ ∨ MqttTopic.HasTopicLevel eventLike.eventType))
  | .unsubscribe eventLike => inferInstanceAs (Decidable (_ = _ ∨ MqttTopic.HasTopicLevel eventLike.eventType))
  | .connect => inferInstanceAs (Decidable (_ ∧ _))
  | .lose => inferInstanceAs (Decidable (_ = _))
  | .close => inferInstanceAs (Decidable (_ ∧ _))
  | .offline => inferInstanceAs (Decidable (_ ∧ _))
  | .published number _ => inferInstanceAs (Decidable (∃ call ∈ s.outstanding, call.number = number ∧ _))

end Session

/-! ### What the functions of the binding leave alone -/

namespace MqttBinding

variable {Data : Type} (b : MqttBinding Data) (call : ClientCall Data)

@[simp] theorem callClient_pending :
    (b.callClient call).pendingPublicationItems = b.pendingPublicationItems := rfl

@[simp] theorem callClient_isSome : (b.callClient call).client.isSome = b.client.isSome := by
  simp [callClient]

@[simp] theorem callClient_isConnected : (b.callClient call).isConnected = b.isConnected := by
  cases h : b.client <;> simp [isConnected, callClient, h]

theorem calls_callClient (h : b.client.isSome = true) : (b.callClient call).calls = b.calls ++ [call] := by
  obtain ⟨client, hclient⟩ := Option.isSome_iff_exists.mp h
  simp [calls, callClient, hclient]

theorem isSome_of_isConnected {b : MqttBinding Data} (h : b.isConnected = true) :
    b.client.isSome = true := by
  cases hclient : b.client with
  | none => simp [isConnected, hclient] at h
  | some client => rfl

/-- The object in which `subscribeItems` collects the topic filters. -/
def subsMap (items : List SubscriptionItem) : Map Text Unit :=
  items.foldl (fun subsMap item => assign subsMap item.topicFilter ()) Map.empty

theorem calls_subscribeItems (items : List SubscriptionItem) (hconnected : b.isConnected = true) :
    (b.subscribeItems items).calls = b.calls ++ [.subscribe (subsMap items).keys] := by
  rw [subscribeItems, if_pos hconnected]
  exact b.calls_callClient _ (isSome_of_isConnected hconnected)

/-- The binding when the connect handler has renewed the subscriptions. -/
def resubscribed : MqttBinding Data :=
  subscribeItems { b.setConnected true with communicationState := .online } b.issuedSubscriptionItems

theorem onConnect_eq [Json Data] :
    (b.setConnected true).onConnect = drainPublications
      { b.resubscribed.addJoinEvents b.joinEvents with isDrainingPublications := false } := rfl

theorem isConnected_setConnected (h : b.client.isSome = true) (connected : Bool) :
    (b.setConnected connected).isConnected = connected := by
  obtain ⟨client, hclient⟩ := Option.isSome_iff_exists.mp h
  simp [isConnected, setConnected, hclient]

@[simp] theorem calls_setConnected (connected : Bool) : (b.setConnected connected).calls = b.calls := by
  cases hclient : b.client <;> simp [calls, setConnected, hclient]

theorem calls_resubscribed (h : b.client.isSome = true) :
    b.resubscribed.calls = b.calls ++ [.subscribe (subsMap b.issuedSubscriptionItems).keys] := by
  have hcalls : (b.setConnected true).calls = b.calls := b.calls_setConnected true
  rw [← hcalls]
  exact calls_subscribeItems { b.setConnected true with communicationState := .online } _
    (b.isConnected_setConnected h true)

theorem join_eq {b : MqttBinding Data} (h : b.state = .initialized)
    (joinOptions : CommunicationBindingJoinOptions Data) :
    b.join joinOptions = { b with
      state := .joined
      joinOptions := some joinOptions
      client := some { connected := false, calls := [] } } := by
  rw [join, if_pos h]

/-- What a function of the binding that only queues and publishes leaves alone. -/
structure SameSubscriptions (b b' : MqttBinding Data) : Prop where
  issued : b'.issuedSubscriptionItems = b.issuedSubscriptionItems
  messagingNamespace : b'.messagingNamespace = b.messagingNamespace
  crossNamespacing : b'.shouldEnableCrossNamespacing = b.shouldEnableCrossNamespacing
  isConnected : b'.isConnected = b.isConnected
  state : b'.state = b.state
  calls : ∃ calls, b'.calls = b.calls ++ calls ∧ ∀ filters, calls.foldl brokerProcess filters = filters

theorem SameSubscriptions.refl (b : MqttBinding Data) : SameSubscriptions b b :=
  ⟨rfl, rfl, rfl, rfl, rfl, [], by simp⟩

theorem SameSubscriptions.trans {b₁ b₂ b₃ : MqttBinding Data} (h : SameSubscriptions b₁ b₂)
    (h' : SameSubscriptions b₂ b₃) : SameSubscriptions b₁ b₃ := by
  obtain ⟨calls, hcalls, hfold⟩ := h.calls
  obtain ⟨calls', hcalls', hfold'⟩ := h'.calls
  refine ⟨h'.issued.trans h.issued, h'.messagingNamespace.trans h.messagingNamespace,
    h'.crossNamespacing.trans h.crossNamespacing, h'.isConnected.trans h.isConnected,
    h'.state.trans h.state, calls ++ calls', by rw [hcalls', hcalls, List.append_assoc], fun filters => ?_⟩
  rw [List.foldl_append, hfold, hfold']

theorem sameSubscriptions_callClient (hcall : ∀ filters, brokerProcess filters call = filters) :
    SameSubscriptions b (b.callClient call) := by
  refine ⟨rfl, rfl, rfl, b.callClient_isConnected call, rfl, ?_⟩
  by_cases hclient : b.client.isSome = true
  · exact ⟨[call], b.calls_callClient call hclient, hcall⟩
  · rw [Bool.not_eq_true, Option.isSome_eq_false_iff, Option.isNone_iff_eq_none] at hclient
    exact ⟨[], by simp [calls, callClient, hclient], fun _ => rfl⟩

theorem sameSubscriptions_addPublicationItem [Json Data] (eventLike : CommunicationEventLike Data)
    (callback shouldAddFirst once : Bool) :
    SameSubscriptions b (b.addPublicationItem eventLike callback shouldAddFirst once) := by
  have hfailed : SameSubscriptions b (if callback then b.unjoinPublished true else b) := by
    split
    · exact b.sameSubscriptions_callClient _ fun _ => rfl
    · exact SameSubscriptions.refl b
  rw [addPublicationItem]
  cases encodePayload eventLike with
  | error e => exact hfailed
  | ok payload =>
    dsimp only
    split
    · exact hfailed
    · exact ⟨rfl, rfl, rfl, rfl, rfl, [], (List.append_nil _).symm, fun _ => rfl⟩

theorem sameSubscriptions_doDrainPublications : SameSubscriptions b b.doDrainPublications := by
  rw [doDrainPublications]
  split
  · exact b.sameSubscriptions_callClient _ fun _ => rfl
  · exact ⟨rfl, rfl, rfl, rfl, rfl, [], (List.append_nil _).symm, fun _ => rfl⟩

theorem sameSubscriptions_draining (isDrainingPublications : Bool) :
    SameSubscriptions b { b with isDrainingPublications } :=
  ⟨rfl, rfl, rfl, rfl, rfl, [], (List.append_nil _).symm, fun _ => rfl⟩

theorem sameSubscriptions_drainPublications : SameSubscriptions b b.drainPublications := by
  rw [drainPublications]
  split
  · exact SameSubscriptions.refl b
  · exact (b.sameSubscriptions_draining true).trans (sameSubscriptions_doDrainPublications _)

theorem sameSubscriptions_notify (items : List (PublicationItem Data)) :
    SameSubscriptions b (items.foldl (fun b item => if item.callback then b.unjoinPublished true else b) b) := by
  induction items generalizing b with
  | nil => exact SameSubscriptions.refl b
  | cons item items ih =>
    rw [List.foldl_cons]
    refine SameSubscriptions.trans ?_ (ih _)
    split
    · exact b.sameSubscriptions_callClient _ fun _ => rfl
    · exact SameSubscriptions.refl b

theorem sameSubscriptions_published (pendingItem : PublicationItem Data) (err : Bool) :
    SameSubscriptions b (b.published pendingItem err) := by
  rw [published]
  cases err
  · refine SameSubscriptions.trans ?_ (sameSubscriptions_doDrainPublications _)
    have hremoved : SameSubscriptions b { b with
        pendingPublicationItems := b.pendingPublicationItems.eraseP fun item => item.id = pendingItem.id } :=
      ⟨rfl, rfl, rfl, rfl, rfl, [], (List.append_nil _).symm, fun _ => rfl⟩
    refine hremoved.trans ?_
    split
    · exact sameSubscriptions_callClient _ _ fun _ => rfl
    · exact SameSubscriptions.refl _
  · exact (b.sameSubscriptions_draining false).trans (sameSubscriptions_notify _ _)

theorem sameSubscriptions_publish [Json Data] (eventLike : CommunicationEventLike Data) :
    SameSubscriptions b (b.publish eventLike) := by
  rw [publish]
  split
  · exact SameSubscriptions.refl b
  · rw [onPublish]
    split
    · exact (b.sameSubscriptions_addPublicationItem eventLike false false false).trans
        (sameSubscriptions_drainPublications _)
    · exact SameSubscriptions.refl b

theorem sameSubscriptions_addJoinEvents [Json Data] (joinEvents : List (CommunicationEventLike Data)) :
    SameSubscriptions b (b.addJoinEvents joinEvents) := by
  induction joinEvents with
  | nil => exact SameSubscriptions.refl b
  | cons joinEvent joinEvents ih =>
    exact ih.trans (sameSubscriptions_addPublicationItem _ joinEvent false true true)

end MqttBinding

namespace Session

variable {Data : Type}

theorem brokerFilters_absorb {s : Session Data} {b : MqttBinding Data} {calls : List (ClientCall Data)}
    (h : b.calls = s.binding.calls ++ calls) :
    (s.absorb b).brokerFilters = calls.foldl brokerProcess s.brokerFilters := by
  rw [absorb, h, List.drop_left]

theorem brokerFilters_absorb_same {s : Session Data} {b : MqttBinding Data}
    (h : MqttBinding.SameSubscriptions s.binding b) : (s.absorb b).brokerFilters = s.brokerFilters := by
  obtain ⟨calls, hcalls, hfold⟩ := h.calls
  rw [brokerFilters_absorb hcalls, hfold]

def rawEvent (topic : Text) : CommunicationEventLike Text where
  eventType := .raw
  eventTypeFilter := some topic
  sourceId := some (text "agent")
  correlationId := none
  data := some (text "x")
  isDataRaw := true
  isExternalIoRoute := false
  retain := none

end Session

end Coaty
