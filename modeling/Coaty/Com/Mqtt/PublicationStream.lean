import Coaty.Com.Mqtt.QueueEffects
import Coaty.Com.Mqtt.Subscriptions

/-!
# The stream of publications

What a session does with its queue is what an outbox may do, so what the client is asked to publish is the stream of what the communication manager publishes: every message in its turn, and again right after itself as long as it is not confirmed. The join events of the connections come in between. An item keeps the message it was composed with, so the messages can be told from the events of the run alone.
-/

namespace Coaty

open Js Transition

variable {Data : Type}

/-- What the client is asked to publish for an item. -/
structure PublicationMessage (Data : Type) where
  topic : Text
  payload : Option Data
  retain : Option Bool
deriving DecidableEq

def PublicationItem.message (item : PublicationItem Data) : PublicationMessage Data where
  topic := item.topic
  payload := item.payload
  retain := item.retain

namespace MqttBinding

variable {b b₁ b₂ b' : MqttBinding Data} {item : PublicationItem Data} {messages : List (PublicationMessage Data)}

/-- The message that is composed for an event, if it can be encoded. -/
def encodeMessage [Json Data] (b : MqttBinding Data) (eventLike : CommunicationEventLike Data) :
    Option (PublicationMessage Data) :=
  match encodePayload eventLike with
  | .error _ => none
  | .ok payload => some { topic := b.getTopicFor eventLike, payload, retain := eventLike.retain }

theorem encodeMessage_congr [Json Data] (h : b'.messagingNamespace = b.messagingNamespace) :
    b'.encodeMessage = b.encodeMessage := by
  funext eventLike
  simp only [encodeMessage, getTopicFor, h]

theorem joinEvents_congr (h : b'.joinOptions = b.joinOptions) : b'.joinEvents = b.joinEvents := by
  rw [joinEvents, joinEvents, h]

theorem addPublicationItem_message [Json Data] (b : MqttBinding Data) (eventLike : CommunicationEventLike Data)
    (shouldAddFirst once : Bool) :
    (b.addPublicationItem eventLike false shouldAddFirst once = b ∧ (once = false → b.encodeMessage eventLike = none)) ∨
      ∃ item, item.id = b.nextItem ∧ b.encodeMessage eventLike = some item.message ∧
        b.addPublicationItem eventLike false shouldAddFirst once = b.queueItem item shouldAddFirst := by
  rw [addPublicationItem, encodeMessage]
  cases encodePayload eventLike with
  | error e => exact Or.inl ⟨rfl, fun _ => rfl⟩
  | ok payload =>
    dsimp only
    split
    · rename_i hpending
      refine Or.inl ⟨rfl, fun honce => ?_⟩
      rw [honce, Bool.false_and] at hpending
      cases hpending
    · exact Or.inr ⟨_, rfl, rfl, rfl⟩

/-! ### The items that become known -/

/-- The item waits for a callback or has been published. -/
def Known (b : MqttBinding Data) (item : PublicationItem Data) : Prop :=
  item ∈ b.pendingPublicationItems ∨ item ∈ publications b.calls

/-- The items that become known are new and for one of the messages. -/
structure Adds (b b' : MqttBinding Data) (messages : List (PublicationMessage Data)) : Prop where
  nextItem : b.nextItem ≤ b'.nextItem
  known : ∀ item, b'.Known item →
    b.Known item ∨ b.nextItem ≤ item.id ∧ item.id < b'.nextItem ∧ item.message ∈ messages

theorem Adds.trans (h : Adds b b₁ messages) (h' : Adds b₁ b₂ messages) : Adds b b₂ messages := by
  refine ⟨h.nextItem.trans h'.nextItem, fun item hitem => ?_⟩
  rcases h'.known item hitem with hknown | ⟨hge, hlt, hmessage⟩
  · rcases h.known item hknown with hknown | ⟨hge, hlt, hmessage⟩
    · exact Or.inl hknown
    · exact Or.inr ⟨hge, Nat.lt_of_lt_of_le hlt h'.nextItem, hmessage⟩
  · exact Or.inr ⟨h.nextItem.trans hge, hlt, hmessage⟩

theorem adds_refl (b : MqttBinding Data) (messages : List (PublicationMessage Data)) : Adds b b messages :=
  ⟨Nat.le_refl _, fun _ => Or.inl⟩

theorem Effect.adds {sent : List (PublicationItem Data)} {ends : Nat} (h : Effect b b' [] sent ends)
    (messages : List (PublicationMessage Data)) : Adds b b' messages := by
  have hpending : ∀ {item}, item ∈ b'.pendingPublicationItems → b.Known item :=
    fun hitem => Or.inl (h.pending.mem_iff.mp hitem)
  obtain ⟨calls, hcalls, hsent, -⟩ := h.calls
  refine ⟨h.nextItem, fun item hitem => Or.inl ?_⟩
  rcases hitem with hitem | hitem
  · exact hpending hitem
  · rw [hcalls, publications_append, hsent] at hitem
    rcases List.mem_append.mp hitem with hitem | hitem
    · exact Or.inr hitem
    · exact hpending (h.queued item hitem)

theorem adds_queueItem (hid : item.id = b.nextItem) (hmessage : item.message ∈ messages) (shouldAddFirst : Bool) :
    Adds b (b.queueItem item shouldAddFirst) messages := by
  refine ⟨Nat.le_succ _, fun other hother => ?_⟩
  rcases hother with hother | hother
  · have hcases : other ∈ b.pendingPublicationItems ∨ other = item := by
      rw [queueItem] at hother
      cases shouldAddFirst with
      | true => exact (List.mem_cons.mp hother).symm
      | false => exact (List.mem_append.mp hother).imp_right List.mem_singleton.mp
    rcases hcases with hold | rfl
    · exact Or.inl (Or.inl hold)
    · exact Or.inr ⟨Nat.le_of_eq hid.symm, hid ▸ Nat.lt_succ_self _, hmessage⟩
  · exact Or.inl (Or.inr hother)

theorem adds_addJoinEvents [Json Data] (joinEvents : List (CommunicationEventLike Data))
    (h : ∀ joinEvent ∈ joinEvents, ∀ message, b.encodeMessage joinEvent = some message → message ∈ messages) :
    Adds b (b.addJoinEvents joinEvents) messages := by
  induction joinEvents with
  | nil => exact b.adds_refl messages
  | cons joinEvent joinEvents ih =>
    have hrest := ih fun other hother => h other (List.mem_cons_of_mem _ hother)
    have hsame : (b.addJoinEvents joinEvents).encodeMessage = b.encodeMessage :=
      encodeMessage_congr (b.sameSubscriptions_addJoinEvents joinEvents).messagingNamespace
    rw [addJoinEvents_cons]
    rcases (b.addJoinEvents joinEvents).addPublicationItem_message joinEvent true true with
      ⟨heq, -⟩ | ⟨item, hid, hmessage, heq⟩
    · rw [heq]
      exact hrest
    · rw [heq]
      rw [hsame] at hmessage
      exact hrest.trans (adds_queueItem hid (h joinEvent List.mem_cons_self _ hmessage) true)

theorem adds_drainPublications (b : MqttBinding Data) (messages : List (PublicationMessage Data)) :
    Adds b b.drainPublications messages := by
  obtain ⟨sent, heffect, -⟩ := b.effect_drainPublications
  exact heffect.adds messages

theorem adds_onConnect [Json Data] (b : MqttBinding Data) :
    Adds b (b.setConnected true).onConnect (b.joinEvents.filterMap b.encodeMessage) := by
  have honline : Effect (b.setConnected true) { b.setConnected true with communicationState := .online } [] [] 0 :=
    effect_same rfl rfl rfl rfl rfl rfl
  have hresubscribed : Effect b b.resubscribed [] [] 0 :=
    ((b.effect_setConnected true).trans honline).trans (effect_subscribeItems _ _)
  have hsame : b.resubscribed.encodeMessage = b.encodeMessage := by
    refine encodeMessage_congr ?_
    rw [resubscribed, subscribeItems]
    split <;> rfl
  rw [onConnect_eq]
  refine (((hresubscribed.adds _).trans (adds_addJoinEvents b.joinEvents fun joinEvent hjoin message hmessage => ?_)).trans
    ((effect_draining _ false).adds _)).trans (adds_drainPublications _ _)
  rw [hsame] at hmessage
  exact List.mem_filterMap.mpr ⟨joinEvent, hjoin, hmessage⟩

theorem adds_published {call : PublicationItem Data} (hcallback : call.callback = false)
    (hpending : ∀ item ∈ b.pendingPublicationItems, item.callback = false) (err : Bool)
    (messages : List (PublicationMessage Data)) :
    Adds b (b.published call err) messages ∧ (b.published call err).joinOptions = b.joinOptions := by
  rw [published]
  cases err with
  | true =>
    rw [if_pos rfl, notify_eq _ hpending]
    exact ⟨(b.effect_draining false).adds messages, rfl⟩
  | false =>
    rw [if_neg Bool.false_ne_true]
    dsimp only
    rw [hcallback, Bool.and_false, if_neg Bool.false_ne_true]
    have hremoved : Adds b { b with
        pendingPublicationItems := b.pendingPublicationItems.eraseP fun item => item.id = call.id } messages :=
      ⟨Nat.le_refl _, fun item hitem => Or.inl (hitem.imp_left List.mem_of_mem_eraseP)⟩
    obtain ⟨sent, heffect, -⟩ := effect_doDrainPublications { b with
      pendingPublicationItems := b.pendingPublicationItems.eraseP fun item => item.id = call.id }
    exact ⟨hremoved.trans (heffect.adds messages), heffect.joinOptions⟩

/-- The message that is to be published for an event, if there is one and the binding takes the event. -/
def messageOf [Json Data] (b : MqttBinding Data) (eventLike : CommunicationEventLike Data) :
    Option (PublicationMessage Data) :=
  if acceptsPublication eventLike then b.encodeMessage eventLike else none

theorem publish_message [Json Data] (hstate : b.state ≠ .unjoined) (eventLike : CommunicationEventLike Data) :
    (b.messageOf eventLike = none ∧ (b.publish eventLike = b ∨ b.publish eventLike = b.drainPublications)) ∨
      ∃ item, item.id = b.nextItem ∧ b.messageOf eventLike = some item.message ∧
        b.publish eventLike = (b.queueItem item false).drainPublications := by
  rw [publish, if_neg hstate, onPublish, messageOf]
  by_cases haccepts : acceptsPublication eventLike = true
  · rw [if_pos haccepts, if_pos haccepts]
    rcases b.addPublicationItem_message eventLike false false with ⟨heq, hnone⟩ | ⟨item, hid, hmessage, heq⟩
    · rw [heq]
      exact Or.inl ⟨hnone rfl, Or.inr rfl⟩
    · rw [heq]
      exact Or.inr ⟨item, hid, hmessage, rfl⟩
  · rw [if_neg haccepts, if_neg haccepts]
    exact Or.inl ⟨rfl, Or.inl rfl⟩

end MqttBinding

def SessionEvent.messageOf [Json Data] (options : CommunicationBindingOptions) :
    SessionEvent Data → Option (PublicationMessage Data)
  | .publish eventLike => (MqttBinding.create options).messageOf eventLike
  | _ => none

namespace Session

variable {s s' : Session Data}

/-! ### Actions of the outbox -/

theorem follows_of_same (hpending : s'.binding.pendingPublicationItems = s.binding.pendingPublicationItems)
    (henqueued : s'.enqueued = s.enqueued)
    (hpublications : publications s'.binding.calls = publications s.binding.calls) : s.outbox.Follows s'.outbox := by
  have houtbox : s'.outbox = s.outbox := by
    rw [outbox, outbox, sent, sent, hpending, henqueued, hpublications]
  exact houtbox ▸ .refl

theorem follows_queueItem (h : s.Accounted) {item : PublicationItem Data} (hid : item.id = s.binding.nextItem)
    (shouldAddFirst : Bool) :
    s.outbox.Follows (outbox { s with
      binding := s.binding.queueItem item shouldAddFirst
      enqueued := if shouldAddFirst then s.enqueued else s.enqueued ++ [item.id] }) := by
  have hfresh := h.fresh item.id (Nat.le_of_eq hid.symm)
  cases shouldAddFirst with
  | true =>
    have hallowed : s.outbox.Allowed (.putFirst item.id) := hfresh
    exact .single hallowed
  | false =>
    have hqueued : outbox { s with
        binding := s.binding.queueItem item false
        enqueued := s.enqueued ++ [item.id] } = s.outbox.step (.enqueue item.id) := by
      simp only [outbox, Outbox.step, MqttBinding.queueItem, Bool.false_eq_true, if_false, List.map_append, List.map_cons,
        List.map_nil]
      rfl
    exact hqueued ▸ .single hfresh

theorem follows_publishHead {item : PublicationItem Data} {rest : List (PublicationItem Data)}
    (hpending : s.binding.pendingPublicationItems = item :: rest) (hclient : s.binding.client.isSome = true) :
    s.outbox.Follows (s.absorb (s.binding.callClient (.publish item))).outbox := by
  have hpublications : publications (s.binding.callClient (.publish item)).calls
      = publications s.binding.calls ++ [item] := by
    rw [s.binding.calls_callClient (.publish item) hclient, publications_append]
    rfl
  have houtbox : (s.absorb (s.binding.callClient (.publish item))).outbox = s.outbox.step .send := by
    simp only [outbox, Outbox.step, sent, absorb, hpublications, MqttBinding.callClient_pending, hpending]
    simp
  exact houtbox ▸ .single trivial

theorem follows_doDrainPublications (s : Session Data) :
    s.outbox.Follows (s.absorb s.binding.doDrainPublications).outbox := by
  rcases s.binding.doDrainPublications_cases with ⟨item, rest, hpending, hclient, heq⟩ | ⟨-, heq⟩
  · rw [heq]
    exact follows_publishHead hpending hclient
  · rw [heq]
    exact .refl

theorem follows_drainPublications (s : Session Data) :
    s.outbox.Follows (s.absorb s.binding.drainPublications).outbox := by
  rw [MqttBinding.drainPublications]
  split
  · exact .refl
  · exact follows_doDrainPublications { s with binding := { s.binding with isDrainingPublications := true } }

theorem follows_addJoinEvents [Json Data] (h : s.Accounted) (joinEvents : List (CommunicationEventLike Data)) :
    s.outbox.Follows (outbox { s with binding := s.binding.addJoinEvents joinEvents }) := by
  induction joinEvents with
  | nil => exact .refl
  | cons joinEvent joinEvents ih =>
    rw [MqttBinding.addJoinEvents_cons]
    rcases (s.binding.addJoinEvents joinEvents).addPublicationItem_cases joinEvent true true with
      heq | ⟨item, hid, -, heq⟩
    · rw [heq]
      exact ih
    · rw [heq]
      exact ih.trans (follows_queueItem (h.addJoinEvents joinEvents) hid true)

/-! ### The steps of a session -/

theorem follows_publish [Json Data] (h : s.Accounted) (eventLike : CommunicationEventLike Data) :
    s.outbox.Follows (s.step (.publish eventLike)).outbox := by
  have hidle : { s.absorb s.binding with
      enqueued := if s.binding.nextItem = s.binding.nextItem then s.enqueued
        else s.enqueued ++ [s.binding.nextItem] } = s := by
    rw [if_pos rfl, absorb_self]
  rw [step, MqttBinding.publish]
  by_cases hstate : s.binding.state = .unjoined
  · rw [if_pos hstate, hidle]
    exact .refl
  rw [if_neg hstate, MqttBinding.onPublish]
  by_cases haccepts : MqttBinding.acceptsPublication eventLike = true
  · rw [if_pos haccepts]
    rcases s.binding.addPublicationItem_cases eventLike false false with heq | ⟨item, hid, -, heq⟩
    · rw [heq, MqttBinding.drainPublications_nextItem, if_pos rfl]
      exact follows_drainPublications s
    · have hne : s.binding.nextItem + 1 ≠ s.binding.nextItem := by omega
      rw [heq, MqttBinding.drainPublications_nextItem, MqttBinding.queueItem, if_neg hne]
      have hqueued := follows_queueItem h hid false
      rw [hid] at hqueued
      exact hqueued.trans (follows_drainPublications _)
  · rw [if_neg haccepts, hidle]
    exact .refl

theorem follows_connect [Json Data] (h : s.Accounted) (hclient : s.binding.client.isSome = true) :
    s.outbox.Follows (s.step .connect).outbox := by
  let resubscribed : Session Data := { s with brokerFilters := ∅ }.absorb s.binding.resubscribed
  have hresubscribed : s.outbox.Follows resubscribed.outbox := by
    refine follows_of_same (MqttBinding.subscribeItems_pending _ _) rfl ?_
    show publications s.binding.resubscribed.calls = publications s.binding.calls
    rw [s.binding.calls_resubscribed hclient, publications_append]
    exact List.append_nil _
  have hqueued := follows_addJoinEvents (h.resubscribed hclient) s.binding.joinEvents
  have hdrained := follows_drainPublications { resubscribed with
    binding := { s.binding.resubscribed.addJoinEvents s.binding.joinEvents with isDrainingPublications := false } }
  rw [step, MqttBinding.onConnect_eq]
  exact (hresubscribed.trans hqueued).trans hdrained

theorem follows_published [Json Data] (h : s.Accounted) {number : Nat} {err : Bool}
    (henabled : s.Enabled (.published number err)) : s.outbox.Follows (s.step (.published number err)).outbox := by
  obtain ⟨call, -, -, -, hfind, hitem⟩ := h.find_outstanding henabled
  rw [step, hfind]
  dsimp only
  cases err
  · have hcallback : call.item.callback = false := h.publishedCallback call.item hitem
    rw [MqttBinding.published, if_neg Bool.false_ne_true]
    dsimp only
    rw [hcallback, Bool.and_false, if_neg Bool.false_ne_true]
    have hqueue : (s.binding.pendingPublicationItems.eraseP fun i => i.id = call.item.id).map (fun i => i.id)
        = s.outbox.queue.erase call.item.id := by
      rw [outbox, List.erase_eq_eraseP', List.eraseP_map]
      rfl
    have hconfirmed : s.outbox.Follows (s.outbox.step (.confirm call.item.id)) :=
      .single (List.mem_map_of_mem (f := fun i : PublicationItem Data => i.id) hitem)
    have hstep : outbox { s with
        outstanding := s.outstanding.filter fun call => call.number ≠ number
        binding := { s.binding with
          pendingPublicationItems := s.binding.pendingPublicationItems.eraseP fun i => i.id = call.item.id } }
        = s.outbox.step (.confirm call.item.id) := by
      rw [Outbox.step, ← hqueue]
      rfl
    exact (hstep ▸ hconfirmed).trans (follows_doDrainPublications _)
  · rw [MqttBinding.published, if_pos rfl, MqttBinding.notify_eq _ h.pendingCallback]
    exact .refl

theorem follows_step [Json Data] (h : s.Accounted) {event : SessionEvent Data} (henabled : s.Enabled event) :
    s.outbox.Follows (s.step event).outbox := by
  cases event with
  | join joinOptions =>
    have hjoin := MqttBinding.join_eq henabled joinOptions
    have hcalls : (s.binding.join joinOptions).calls = s.binding.calls := by
      rw [hjoin, MqttBinding.calls, MqttBinding.calls, h.initialized henabled]
    have hpending : (s.binding.join joinOptions).pendingPublicationItems = s.binding.pendingPublicationItems := by
      rw [hjoin]
    exact follows_of_same hpending rfl (congrArg publications hcalls)
  | publish eventLike => exact follows_publish h eventLike
  | subscribe eventLike =>
    have hsame := s.binding.samePublications_subscribe eventLike
    obtain ⟨calls, hcalls, hnone⟩ := hsame.calls
    refine follows_of_same hsame.pending rfl ?_
    show publications (s.binding.subscribe eventLike).calls = publications s.binding.calls
    rw [hcalls, publications_append, hnone, List.append_nil]
  | unsubscribe eventLike =>
    have hsame := s.binding.samePublications_unsubscribe eventLike
    obtain ⟨calls, hcalls, hnone⟩ := hsame.calls
    refine follows_of_same hsame.pending rfl ?_
    show publications (s.binding.unsubscribe eventLike).calls = publications s.binding.calls
    rw [hcalls, publications_append, hnone, List.append_nil]
  | connect => exact follows_connect h henabled.1
  | lose => exact follows_of_same rfl rfl (congrArg publications (s.binding.calls_setConnected false))
  | close => exact .refl
  | offline => exact .refl
  | published number err => exact follows_published h henabled

/-! ### The messages of the items -/

/-- The items queued by `publish` are for the messages of the run, in this order, and all other items are for join events. -/
structure Composed [Json Data] (s : Session Data) (options : CommunicationBindingOptions)
    (messages : List (PublicationMessage Data)) : Prop where
  length : s.enqueued.length = messages.length
  publication : ∀ item, s.binding.Known item → ∀ position : Nat, s.enqueued[position]? = some item.id →
    messages[position]? = some item.message
  joinEvent : ∀ item, s.binding.Known item → item.id ∉ s.enqueued →
    item.message ∈ s.binding.joinEvents.filterMap (MqttBinding.create options).encodeMessage
  joining : s.binding.state = .initialized → s.binding.joinOptions = none

theorem composed_start [Json Data] (options : CommunicationBindingOptions) :
    (start options : Session Data).Composed options [] where
  length := rfl
  publication _ _ position hid := by simp [start] at hid
  joinEvent item hitem := by
    simp [start, MqttBinding.create, MqttBinding.Known, publications, MqttBinding.calls] at hitem
  joining _ := rfl

variable {options : CommunicationBindingOptions} {messages : List (PublicationMessage Data)}

theorem Accounted.fresh_not_enqueued (h : s.Accounted) {id : Nat} (hid : s.binding.nextItem ≤ id) : id ∉ s.enqueued :=
  (h.fresh id hid).2.1

theorem Accounted.lt_of_known (h : s.Accounted) {item : PublicationItem Data} (hitem : s.binding.Known item) :
    item.id < s.binding.nextItem := by
  by_contra hle
  obtain ⟨hqueue, -, hsent⟩ := h.fresh item.id (Nat.le_of_not_lt hle)
  rcases hitem with hitem | hitem
  · exact hqueue (List.mem_map_of_mem hitem)
  · exact hsent (List.mem_map_of_mem hitem)

theorem Composed.of_adds [Json Data] (h : s.Composed options messages) (haccounted : s.Accounted)
    (henqueued : s'.enqueued = s.enqueued)
    (hadds : MqttBinding.Adds s.binding s'.binding
      (s.binding.joinEvents.filterMap (MqttBinding.create options).encodeMessage))
    (hoptions : s'.binding.joinOptions = s.binding.joinOptions) (hstate : s'.binding.state = s.binding.state) :
    s'.Composed options messages := by
  refine ⟨?_, fun item hitem position hid => ?_, fun item hitem hid => ?_, fun hinitialized => ?_⟩
  · rw [henqueued]
    exact h.length
  · rw [henqueued] at hid
    rcases hadds.known item hitem with hknown | ⟨hnew, -, -⟩
    · exact h.publication item hknown position hid
    · exact absurd (List.mem_of_getElem? hid) (haccounted.fresh_not_enqueued hnew)
  · rw [henqueued] at hid
    rw [MqttBinding.joinEvents_congr hoptions]
    rcases hadds.known item hitem with hknown | ⟨-, -, hmessage⟩
    · exact h.joinEvent item hknown hid
    · exact hmessage
  · rw [hoptions]
    exact h.joining (hstate.symm.trans hinitialized)

theorem Composed.of_effect [Json Data] (h : s.Composed options messages) (haccounted : s.Accounted)
    (henqueued : s'.enqueued = s.enqueued) {sent : List (PublicationItem Data)} {ends : Nat}
    (heffect : MqttBinding.Effect s.binding s'.binding [] sent ends) : s'.Composed options messages :=
  h.of_adds haccounted henqueued (heffect.adds _) heffect.joinOptions heffect.state

theorem Composed.join [Json Data] (h : s.Composed options messages) (hinitialized : s.binding.state = .initialized) (joinOptions : CommunicationBindingJoinOptions Data) :
    (s.step (.join joinOptions)).Composed options messages := by
  have hjoin := MqttBinding.join_eq hinitialized joinOptions
  have hknown : ∀ item, (s.binding.join joinOptions).Known item → s.binding.Known item := by
    intro item hitem
    rw [hjoin] at hitem
    refine hitem.imp_right fun hcalled => ?_
    simp [publications, MqttBinding.calls] at hcalled
  refine ⟨h.length, fun item hitem => h.publication item (hknown item hitem), fun item hitem hid => ?_, fun hstate => ?_⟩
  · -- There are no join events before the binding is joined.
    have hnone := h.joinEvent item (hknown item hitem) hid
    rw [MqttBinding.joinEvents, h.joining hinitialized] at hnone
    cases hnone
  · have hjoined := congrArg MqttBinding.state hjoin
    cases hjoined.symm.trans hstate

theorem Composed.queued [Json Data] (h : s.Composed options messages) (haccounted : s.Accounted)
    {message : PublicationMessage Data} (henqueued : s'.enqueued = s.enqueued ++ [s.binding.nextItem])
    (hadds : MqttBinding.Adds s.binding s'.binding [message]) (hnext : s'.binding.nextItem = s.binding.nextItem + 1)
    (hoptions : s'.binding.joinOptions = s.binding.joinOptions) (hstate : s'.binding.state = s.binding.state) :
    s'.Composed options (messages ++ [message]) := by
  refine ⟨?_, fun item hitem position hid => ?_, fun item hitem hid => ?_, fun hinitialized => ?_⟩
  · rw [henqueued, List.length_append, List.length_append, h.length]
    rfl
  · rw [henqueued] at hid
    rcases Nat.lt_or_ge position s.enqueued.length with hlt | hge
    · rw [List.getElem?_append_left hlt] at hid
      rw [List.getElem?_append_left (h.length ▸ hlt)]
      rcases hadds.known item hitem with hknown | ⟨hnew, -, -⟩
      · exact h.publication item hknown position hid
      · exact absurd (List.mem_of_getElem? hid) (haccounted.fresh_not_enqueued hnew)
    · rw [List.getElem?_append_right hge] at hid
      rw [List.getElem?_append_right (h.length ▸ hge), ← h.length]
      obtain ⟨hposition, hlast⟩ := List.getElem?_eq_some_iff.mp hid
      rw [List.length_singleton, Nat.lt_one_iff] at hposition
      simp only [hposition, List.getElem_cons_zero] at hlast
      rcases hadds.known item hitem with hknown | ⟨-, -, hmessage⟩
      · exact absurd (haccounted.lt_of_known hknown) (by omega)
      · rw [hposition, List.mem_singleton.mp hmessage]
        rfl
  · rw [henqueued, List.mem_append, List.mem_singleton, not_or] at hid
    rw [MqttBinding.joinEvents_congr hoptions]
    rcases hadds.known item hitem with hknown | ⟨hge, hlt, -⟩
    · exact h.joinEvent item hknown hid.1
    · rw [hnext] at hlt
      exact absurd (Nat.le_antisymm (Nat.le_of_lt_succ hlt) hge) hid.2
  · rw [hoptions]
    exact h.joining (hstate.symm.trans hinitialized)

theorem Composed.publish [Json Data] (h : s.Composed options messages) (haccounted : s.Accounted)
    (hmirrors : s.Mirrors options) (eventLike : CommunicationEventLike Data) :
    (s.step (.publish eventLike)).Composed options
      (messages ++ ((MqttBinding.create options).messageOf eventLike).toList) := by
  have hencode : s.binding.encodeMessage = (MqttBinding.create options).encodeMessage :=
    MqttBinding.encodeMessage_congr hmirrors.messagingNamespace
  have hsame : (MqttBinding.create options).messageOf eventLike = s.binding.messageOf eventLike := by
    rw [MqttBinding.messageOf, MqttBinding.messageOf, hencode]
  rw [hsame, step]
  rcases s.binding.publish_message hmirrors.state eventLike with ⟨hnone, heq⟩ | ⟨item, hid, hmessage, heq⟩
  · obtain ⟨sent, heffect, -⟩ := s.binding.effect_drainPublications
    rw [hnone, Option.toList_none, List.append_nil]
    rcases heq with heq | heq
    · rw [heq]
      exact h.of_effect haccounted (if_pos rfl) (MqttBinding.effect_refl s.binding)
    · rw [heq]
      exact h.of_effect haccounted (if_pos s.binding.drainPublications_nextItem) heffect
  · obtain ⟨sent, hdrained, -⟩ := (s.binding.queueItem item false).effect_drainPublications
    have heffect := (s.binding.effect_queueItem hid false).trans hdrained
    have hadds := (MqttBinding.adds_queueItem hid (List.mem_singleton.mpr rfl) false).trans (hdrained.adds [item.message])
    have hnext : (s.binding.queueItem item false).drainPublications.nextItem = s.binding.nextItem + 1 :=
      MqttBinding.drainPublications_nextItem _
    rw [hmessage, heq, Option.toList_some]
    refine h.queued haccounted (if_neg ?_) hadds hnext heffect.joinOptions heffect.state
    rw [hnext]
    exact Nat.succ_ne_self _

theorem Composed.published [Json Data] (h : s.Composed options messages) (haccounted : s.Accounted) {number : Nat}
    {err : Bool} (henabled : s.Enabled (.published number err)) :
    (s.step (.published number err)).Composed options messages := by
  obtain ⟨call, -, -, -, hfind, hitem⟩ := haccounted.find_outstanding henabled
  have hcallback := haccounted.publishedCallback call.item hitem
  obtain ⟨hadds, hoptions⟩ := MqttBinding.adds_published hcallback haccounted.pendingCallback err
    (s.binding.joinEvents.filterMap (MqttBinding.create options).encodeMessage)
  rw [step, hfind]
  exact h.of_adds haccounted rfl hadds hoptions (s.binding.sameSubscriptions_published call.item err).state

theorem Composed.append_none [Json Data] (h : s.Composed options messages) :
    s.Composed options (messages ++ (none : Option (PublicationMessage Data)).toList) := by
  rw [Option.toList_none, List.append_nil]
  exact h

theorem Composed.step [Json Data] (h : s.Composed options messages) (haccounted : s.Accounted)
    (hmirrors : s.Mirrors options) {event : SessionEvent Data} (henabled : s.Enabled event) :
    (s.step event).Composed options (messages ++ (event.messageOf options).toList) := by
  cases event with
  | publish eventLike => exact h.publish haccounted hmirrors eventLike
  | join joinOptions => exact Composed.append_none (h.join henabled joinOptions)
  | subscribe eventLike => exact Composed.append_none (h.of_effect haccounted rfl (s.binding.effect_subscribe eventLike))
  | unsubscribe eventLike => exact Composed.append_none (h.of_effect haccounted rfl (s.binding.effect_unsubscribe eventLike))
  | connect =>
    obtain ⟨added, sent, heffect, -⟩ := s.binding.silent_onConnect
    have hencode : s.binding.encodeMessage = (MqttBinding.create options).encodeMessage :=
      MqttBinding.encodeMessage_congr hmirrors.messagingNamespace
    have hadds := s.binding.adds_onConnect
    rw [hencode] at hadds
    exact Composed.append_none (h.of_adds haccounted rfl hadds heffect.joinOptions heffect.state)
  | lose => exact Composed.append_none (h.of_effect haccounted rfl (s.binding.effect_setConnected false))
  | close =>
    have heffect : MqttBinding.Effect s.binding s.binding.onClose [] [] 0 :=
      MqttBinding.effect_same rfl rfl rfl rfl rfl rfl
    exact Composed.append_none (h.of_effect haccounted rfl heffect)
  | offline =>
    have heffect : MqttBinding.Effect s.binding s.binding.onOffline [] [] 0 :=
      MqttBinding.effect_same rfl rfl rfl rfl rfl rfl
    exact Composed.append_none (h.of_effect haccounted rfl heffect)
  | published number err => exact Composed.append_none (h.published haccounted henabled)

/-! ### Whole runs -/

/-- What holds after a run whose publications are for the messages. -/
structure Streaming [Json Data] (s : Session Data) (options : CommunicationBindingOptions)
    (messages : List (PublicationMessage Data)) : Prop where
  accounted : s.Accounted
  awake : s.Awake
  mirrors : s.Mirrors options
  streams : s.outbox.Streams
  composed : s.Composed options messages

theorem Streaming.step [Json Data] (h : s.Streaming options messages) {event : SessionEvent Data}
    (henabled : s.Enabled event) : (s.step event).Streaming options (messages ++ (event.messageOf options).toList) := by
  obtain ⟨haccounted, hawake⟩ := h.accounted.step h.awake henabled
  exact ⟨haccounted, hawake, h.mirrors.step henabled,
    ((follows_step h.accounted henabled).streams h.accounted.fifo h.streams).2,
    h.composed.step h.accounted h.mirrors henabled⟩

theorem streaming_run [Json Data] (options : CommunicationBindingOptions) (events : List (SessionEvent Data))
    (hrun : Along Session.step Enabled (start options) events) :
    (events.foldl Session.step (start options)).Streaming options
      (events.filterMap (SessionEvent.messageOf options)) := by
  induction events using List.reverseRecOn with
  | nil =>
    exact ⟨accounted_start options, awake_start options, mirrors_start options, Outbox.streams_empty,
      composed_start options⟩
  | append_singleton events event ih =>
    obtain ⟨hbefore, henabled, -⟩ := along_append.mp hrun
    have hmessages : (events ++ [event]).filterMap (SessionEvent.messageOf options)
        = events.filterMap (SessionEvent.messageOf options) ++ (event.messageOf options).toList := by
      rw [List.filterMap_append]
      cases hmessage : event.messageOf options with
      | none => rw [List.filterMap_cons_none hmessage, List.filterMap_nil, Option.toList_none]
      | some message => rw [List.filterMap_cons_some hmessage, List.filterMap_nil, Option.toList_some]
    rw [List.foldl_append, hmessages]
    exact (ih hbefore).step henabled

/-- The message with the place of an item among those that were queued. -/
def messageAt (s : Session Data) (messages : List (PublicationMessage Data)) (id : Nat) : PublicationMessage Data :=
  messages.getD (s.enqueued.idxOf id) ⟨[], none, none⟩

theorem Composed.map_message [Json Data] (h : s.Composed options messages) {items : List (PublicationItem Data)}
    (hitems : ∀ item ∈ items, s.binding.Known item) :
    (items.filter fun item => item.id ∈ s.enqueued).map PublicationItem.message
      = ((items.map fun item => item.id).filter (· ∈ s.enqueued)).map (s.messageAt messages) := by
  rw [List.filter_map, List.map_map]
  refine List.map_congr_left fun item hitem => ?_
  obtain ⟨hmem, hid⟩ := List.mem_filter.mp hitem
  have hget : s.enqueued[s.enqueued.idxOf item.id]? = some item.id := List.getElem?_idxOf (by simpa using hid)
  have hmessage := h.publication item (hitems item hmem) _ hget
  show item.message = messages.getD (s.enqueued.idxOf item.id) ⟨[], none, none⟩
  rw [List.getD_eq_getElem?_getD, hmessage, Option.getD_some]

theorem Composed.map_messageAt [Json Data] (h : s.Composed options messages) (hnodup : s.enqueued.Nodup) :
    s.enqueued.map (s.messageAt messages) = messages := by
  refine List.ext_getElem ((List.length_map _).trans h.length) fun position hposition hposition' => ?_
  rw [List.getElem_map, messageAt, hnodup.idxOf_getElem, List.getD_eq_getElem?_getD,
    List.getElem?_eq_getElem hposition', Option.getD_some]

/-- The messages of the publish calls repeat a prefix of the stream, and what is pending is the rest of it, possibly with the last message that was published. -/
theorem Streaming.stream [Json Data] (h : s.Streaming options messages) :
    ∃ confirmed published, confirmed ≤ published ∧ published ≤ confirmed + 1 ∧ published ≤ messages.length ∧
      Outbox.Repeats (((publications s.binding.calls).filter fun item => item.id ∈ s.enqueued).map
        PublicationItem.message) (messages.take published) ∧
      (s.binding.pendingPublicationItems.filter fun item => item.id ∈ s.enqueued).map PublicationItem.message
        = messages.drop confirmed := by
  obtain ⟨confirmed, published, hprogress⟩ := h.streams
  have hmap : s.outbox.enqueued.map (s.messageAt messages) = messages :=
    h.composed.map_messageAt hprogress.nodup
  refine ⟨confirmed, published, hprogress.confirmed_le, hprogress.sent_le_succ, ?_, ?_, ?_⟩
  · exact h.composed.length ▸ hprogress.sent_le
  · have hrepeats := hprogress.transmissions.map (s.messageAt messages)
    rw [List.map_take, hmap] at hrepeats
    rw [h.composed.map_message fun item hitem => Or.inr hitem]
    exact hrepeats
  · have hwaiting := congrArg (List.map (s.messageAt messages)) hprogress.waiting
    rw [List.map_drop, hmap] at hwaiting
    rw [h.composed.map_message fun item hitem => Or.inl hitem]
    exact hwaiting

/-- The publish calls of a run, apart from those for join events, are for the messages of its publications, each in its turn and once or several times in a row. What is pending are the messages from the last one on that was published, or from the next one on. -/
theorem publishes_messages [Json Data] (options : CommunicationBindingOptions) (events : List (SessionEvent Data))
    (hrun : Along step Enabled (start options) events) :
    let s := events.foldl step (start options)
    let messages := events.filterMap (SessionEvent.messageOf options)
    (∃ confirmed published, confirmed ≤ published ∧ published ≤ confirmed + 1 ∧ published ≤ messages.length ∧
      Outbox.Repeats (((publications s.binding.calls).filter fun item => item.id ∈ s.enqueued).map
        PublicationItem.message) (messages.take published) ∧
      (s.binding.pendingPublicationItems.filter fun item => item.id ∈ s.enqueued).map PublicationItem.message
        = messages.drop confirmed) ∧
      ∀ item, s.binding.Known item → item.id ∉ s.enqueued →
        item.message ∈ s.binding.joinEvents.filterMap (MqttBinding.create options).encodeMessage := by
  intro s messages
  have h : s.Streaming options messages := streaming_run options events hrun
  exact ⟨h.stream, h.composed.joinEvent⟩

theorem publishes_messages_publishRun :
    let s := publishRun.foldl step (start ⟨none, none⟩)
    let messages := publishRun.filterMap (SessionEvent.messageOf ⟨none, none⟩)
    (∃ confirmed published, confirmed ≤ published ∧ published ≤ confirmed + 1 ∧ published ≤ messages.length ∧
      Outbox.Repeats (((publications s.binding.calls).filter fun item => item.id ∈ s.enqueued).map
        PublicationItem.message) (messages.take published) ∧
      (s.binding.pendingPublicationItems.filter fun item => item.id ∈ s.enqueued).map PublicationItem.message
        = messages.drop confirmed) ∧
      ∀ item, s.binding.Known item → item.id ∉ s.enqueued →
        item.message ∈ s.binding.joinEvents.filterMap (MqttBinding.create ⟨none, none⟩).encodeMessage :=
  publishes_messages ⟨none, none⟩ publishRun (by decide)

end Session

end Coaty
