import Coaty.Com.Mqtt.Session
import Coaty.Outbox

/-!
# Publications are lossless and ordered

The pending publications of a session are an outbox: `publish` enqueues at the end, the connect handler puts the join events first, draining sends the head, and a success callback confirms one item, possibly of an earlier connection and possibly while another one is in transit. The draining flag is set and cleared in many places, and late callbacks can start a second drain. What holds throughout is that a connected client with something to do owes a callback for a call on its current connection.
-/

namespace Coaty

open Js Transition

variable {Data : Type}

/-- The items of the publish calls, oldest first. -/
def publications (calls : List (ClientCall Data)) : List (PublicationItem Data) :=
  calls.filterMap fun
    | .publish item => some item
    | _ => none

theorem publications_append (calls calls' : List (ClientCall Data)) :
    publications (calls ++ calls') = publications calls ++ publications calls' :=
  List.filterMap_append

theorem mem_publications_of_getElem? {calls : List (ClientCall Data)} {number : Nat} {item : PublicationItem Data}
    (h : calls[number]? = some (.publish item)) : item ∈ publications calls :=
  List.mem_filterMap.mpr ⟨_, List.mem_of_getElem? h, rfl⟩

theorem outstandingCalls_eq_nil {live : Bool} {number : Nat} {calls : List (ClientCall Data)}
    (h : publications calls = []) : outstandingCalls live number calls = [] := by
  induction calls generalizing number with
  | nil => rfl
  | cons call calls ih =>
    cases call with
    | publish item => simp [publications] at h
    | subscribe topicFilters => exact ih h
    | unsubscribe topicFilters => exact ih h
    | endClient force => exact ih h

theorem outstandingCalls_append (live : Bool) (number : Nat) (calls calls' : List (ClientCall Data)) :
    outstandingCalls live number (calls ++ calls')
      = outstandingCalls live number calls ++ outstandingCalls live (number + calls.length) calls' := by
  induction calls generalizing number with
  | nil => rfl
  | cons call calls ih =>
    have hnumber : number + (call :: calls).length = number + 1 + calls.length := by
      rw [List.length_cons]
      omega
    cases call <;> simp only [List.cons_append, outstandingCalls, ih, hnumber]

/-! ### What the functions of the binding do to the queue -/

namespace MqttBinding

variable (b : MqttBinding Data)

@[simp] theorem subscribeItems_pending (items : List SubscriptionItem) :
    (b.subscribeItems items).pendingPublicationItems = b.pendingPublicationItems := by
  rw [subscribeItems]
  split <;> rfl

@[simp] theorem subscribeItems_nextItem (items : List SubscriptionItem) :
    (b.subscribeItems items).nextItem = b.nextItem := by
  rw [subscribeItems]
  split <;> rfl

@[simp] theorem subscribeItems_state (items : List SubscriptionItem) :
    (b.subscribeItems items).state = b.state := by
  rw [subscribeItems]
  split <;> rfl

@[simp] theorem doDrainPublications_pending :
    b.doDrainPublications.pendingPublicationItems = b.pendingPublicationItems := by
  rw [doDrainPublications]
  split <;> rfl

@[simp] theorem doDrainPublications_nextItem : b.doDrainPublications.nextItem = b.nextItem := by
  rw [doDrainPublications]
  split <;> rfl

@[simp] theorem drainPublications_pending :
    b.drainPublications.pendingPublicationItems = b.pendingPublicationItems := by
  rw [drainPublications]
  split
  · rfl
  · exact doDrainPublications_pending _

@[simp] theorem drainPublications_nextItem : b.drainPublications.nextItem = b.nextItem := by
  rw [drainPublications]
  split
  · rfl
  · exact doDrainPublications_nextItem _

/-- Draining publishes the head of the queue or comes to rest. -/
theorem doDrainPublications_cases :
    (∃ item rest, b.pendingPublicationItems = item :: rest ∧ b.client.isSome = true ∧
      b.doDrainPublications = b.callClient (.publish item)) ∨
    ((b.isConnected = true → b.pendingPublicationItems = []) ∧
      b.doDrainPublications = { b with isDrainingPublications := false }) := by
  rw [doDrainPublications]
  cases hclient : b.client with
  | none => exact Or.inr ⟨fun hconnected => by simp [isConnected, hclient] at hconnected, rfl⟩
  | some client =>
    cases hpending : b.pendingPublicationItems with
    | nil => exact Or.inr ⟨fun _ => rfl, rfl⟩
    | cons item rest => exact Or.inl ⟨item, rest, rfl, rfl, rfl⟩

/-- Put a new item into the queue. -/
def queueItem (item : PublicationItem Data) (shouldAddFirst : Bool) : MqttBinding Data :=
  { b with
    pendingPublicationItems :=
      if shouldAddFirst then item :: b.pendingPublicationItems else b.pendingPublicationItems ++ [item]
    nextItem := b.nextItem + 1 }

theorem addPublicationItem_cases [Json Data] (eventLike : CommunicationEventLike Data)
    (shouldAddFirst once : Bool) :
    b.addPublicationItem eventLike false shouldAddFirst once = b ∨
      ∃ item, item.id = b.nextItem ∧ item.callback = false ∧
        b.addPublicationItem eventLike false shouldAddFirst once = b.queueItem item shouldAddFirst := by
  rw [addPublicationItem]
  cases encodePayload eventLike with
  | error e => exact Or.inl rfl
  | ok payload =>
    dsimp only
    split
    · exact Or.inl rfl
    · exact Or.inr ⟨_, rfl, rfl, rfl⟩

theorem addJoinEvents_cons [Json Data] (joinEvent : CommunicationEventLike Data)
    (joinEvents : List (CommunicationEventLike Data)) :
    b.addJoinEvents (joinEvent :: joinEvents)
      = (b.addJoinEvents joinEvents).addPublicationItem joinEvent false true true := rfl

theorem calls_addJoinEvents [Json Data] (joinEvents : List (CommunicationEventLike Data)) :
    (b.addJoinEvents joinEvents).calls = b.calls := by
  induction joinEvents with
  | nil => rfl
  | cons joinEvent joinEvents ih =>
    rw [addJoinEvents_cons, ← ih]
    rcases (b.addJoinEvents joinEvents).addPublicationItem_cases joinEvent true true with
      heq | ⟨item, -, -, heq⟩
    · rw [heq]
    · rw [heq]
      rfl

theorem mem_pending_addPublicationItem [Json Data] (eventLike : CommunicationEventLike Data)
    (shouldAddFirst once : Bool) {item : PublicationItem Data} (hitem : item ∈ b.pendingPublicationItems) :
    item ∈ (b.addPublicationItem eventLike false shouldAddFirst once).pendingPublicationItems := by
  rcases b.addPublicationItem_cases eventLike shouldAddFirst once with heq | ⟨new, -, -, heq⟩
  · rw [heq]
    exact hitem
  · rw [heq, queueItem]
    cases shouldAddFirst
    · exact List.mem_append_left _ hitem
    · exact List.mem_cons_of_mem _ hitem

theorem mem_pending_addJoinEvents [Json Data] (joinEvents : List (CommunicationEventLike Data))
    {item : PublicationItem Data} (hitem : item ∈ b.pendingPublicationItems) :
    item ∈ (b.addJoinEvents joinEvents).pendingPublicationItems := by
  induction joinEvents with
  | nil => exact hitem
  | cons joinEvent joinEvents ih => exact mem_pending_addPublicationItem _ joinEvent true true ih

theorem mem_pending_publish [Json Data] (eventLike : CommunicationEventLike Data)
    {item : PublicationItem Data} (hitem : item ∈ b.pendingPublicationItems) :
    item ∈ (b.publish eventLike).pendingPublicationItems := by
  rw [publish]
  split
  · exact hitem
  · rw [onPublish]
    split
    · rw [drainPublications_pending]
      exact b.mem_pending_addPublicationItem eventLike false false hitem
    · exact hitem

theorem notify_eq {items : List (PublicationItem Data)} (h : ∀ item ∈ items, item.callback = false) :
    items.foldl (fun b item => if item.callback then b.unjoinPublished true else b) b = b := by
  induction items with
  | nil => rfl
  | cons item items ih =>
    have hitem := h item List.mem_cons_self
    rw [List.foldl_cons, hitem]
    exact ih fun item hmem => h item (List.mem_cons_of_mem _ hmem)

end MqttBinding

namespace MqttBinding

/-- What subscribing and unsubscribing leaves alone. -/
structure SamePublications (b b' : MqttBinding Data) : Prop where
  pending : b'.pendingPublicationItems = b.pendingPublicationItems
  nextItem : b'.nextItem = b.nextItem
  draining : b'.isDrainingPublications = b.isDrainingPublications
  isConnected : b'.isConnected = b.isConnected
  state : b'.state = b.state
  client : b.client = none → b'.client = none
  calls : ∃ calls, b'.calls = b.calls ++ calls ∧ publications calls = []

variable (b : MqttBinding Data)

theorem SamePublications.refl : SamePublications b b :=
  ⟨rfl, rfl, rfl, rfl, rfl, id, [], (List.append_nil _).symm, rfl⟩

theorem samePublications_callClient {call : ClientCall Data} (hcall : publications [call] = [])
    (issuedSubscriptionItems : List SubscriptionItem) :
    SamePublications b ({ b with issuedSubscriptionItems }.callClient call) := by
  refine ⟨rfl, rfl, rfl, callClient_isConnected _ _, rfl, fun hclient => ?_, ?_⟩
  · simp [callClient, hclient]
  · cases hclient : b.client with
    | none => exact ⟨[], by simp [calls, callClient, hclient], rfl⟩
    | some client => exact ⟨[call], by simp [calls, callClient, hclient], hcall⟩

theorem samePublications_subscribeItems (issuedSubscriptionItems items : List SubscriptionItem) :
    SamePublications b ({ b with issuedSubscriptionItems }.subscribeItems items) := by
  rw [subscribeItems]
  split
  · exact b.samePublications_callClient rfl issuedSubscriptionItems
  · exact ⟨rfl, rfl, rfl, rfl, rfl, id, [], (List.append_nil _).symm, rfl⟩

theorem samePublications_unsubscribeItems (issuedSubscriptionItems items : List SubscriptionItem) :
    SamePublications b ({ b with issuedSubscriptionItems }.unsubscribeItems items) := by
  rw [unsubscribeItems]
  split
  · exact b.samePublications_callClient rfl issuedSubscriptionItems
  · exact ⟨rfl, rfl, rfl, rfl, rfl, id, [], (List.append_nil _).symm, rfl⟩

theorem samePublications_subscribe (eventLike : CommunicationEventLike Data) :
    SamePublications b (b.subscribe eventLike) := by
  rw [subscribe]
  split
  · exact SamePublications.refl b
  · rw [onSubscribe]
    split
    · exact b.samePublications_subscribeItems _ _
    · exact SamePublications.refl b

theorem samePublications_unsubscribe (eventLike : CommunicationEventLike Data) :
    SamePublications b (b.unsubscribe eventLike) := by
  rw [unsubscribe]
  split
  · exact SamePublications.refl b
  · rw [onUnsubscribe, removeSubscriptionItem]
    dsimp only
    split
    · exact SamePublications.refl b
    · split
      · exact b.samePublications_unsubscribeItems _ _
      · split
        · exact ⟨rfl, rfl, rfl, rfl, rfl, id, [], (List.append_nil _).symm, rfl⟩
        · exact b.samePublications_unsubscribeItems _ _

end MqttBinding

/-! ### The accounts of a session -/

namespace Session

/-- The identities of the items that were published, one for each call, oldest first. -/
def sent (s : Session Data) : List Nat := (publications s.binding.calls).map fun item => item.id

def outbox (s : Session Data) : Outbox Nat where
  queue := s.binding.pendingPublicationItems.map fun item => item.id
  enqueued := s.enqueued
  sent := s.sent

structure Accounted (s : Session Data) : Prop where
  fifo : s.outbox.FirstInFirstOut
  fresh : ∀ id, s.binding.nextItem ≤ id → s.outbox.IsFresh id
  /-- Identities identify. -/
  same : ∀ item ∈ s.binding.pendingPublicationItems, ∀ item' ∈ publications s.binding.calls,
    item'.id = item.id → item' = item
  pendingCallback : ∀ item ∈ s.binding.pendingPublicationItems, item.callback = false
  publishedCallback : ∀ item ∈ publications s.binding.calls, item.callback = false
  outstanding : ∀ call ∈ s.outstanding, s.binding.calls[call.number]? = some (.publish call.item)
  numbers : (s.outstanding.map fun call => call.number).Nodup
  initialized : s.binding.state = .initialized → s.binding.client = none

/-- A connected client that has something to publish or takes itself to be publishing owes a callback. -/
def Awake (s : Session Data) : Prop :=
  s.connected = true → s.binding.pendingPublicationItems ≠ [] ∨ s.binding.isDrainingPublications = true →
    ∃ call ∈ s.outstanding, call.live = true

theorem accounted_start (options : CommunicationBindingOptions) :
    (start options : Session Data).Accounted where
  fifo := Outbox.firstInFirstOut_empty
  fresh id _ := by simp [outbox, Outbox.IsFresh, start, MqttBinding.create, sent, publications, MqttBinding.calls]
  same := by simp [start, MqttBinding.create]
  pendingCallback := by simp [start, MqttBinding.create]
  publishedCallback := by simp [start, MqttBinding.create, publications, MqttBinding.calls]
  outstanding := by simp [start]
  numbers := List.nodup_nil
  initialized _ := rfl

theorem awake_start (options : CommunicationBindingOptions) : (start options : Session Data).Awake := by
  intro hconnected
  simp [start, connected, MqttBinding.create, MqttBinding.isConnected] at hconnected

variable {s s' : Session Data} {b b' : MqttBinding Data}

theorem absorb_self (s : Session Data) : s.absorb s.binding = s := by
  rw [absorb, List.drop_length]
  simp [outstandingCalls]

theorem outstanding_absorb {calls : List (ClientCall Data)} (h : b.calls = s.binding.calls ++ calls) :
    (s.absorb b).outstanding
      = s.outstanding ++ outstandingCalls b.isConnected s.binding.calls.length calls := by
  rw [absorb, h, List.drop_left]

/-- Two absorptions of the same connection are one, whatever happens in between without a call. -/
theorem absorb_absorb {b₁ b₂ b₃ : MqttBinding Data} (h₁ : ∃ calls, b₁.calls = s.binding.calls ++ calls)
    (h₂ : b₂.calls = b₁.calls) (h₃ : ∃ calls, b₃.calls = b₂.calls ++ calls)
    (hconnected : b₃.isConnected = b₁.isConnected) :
    { s.absorb b₁ with binding := b₂ }.absorb b₃ = s.absorb b₃ := by
  obtain ⟨calls₁, h₁⟩ := h₁
  obtain ⟨calls₃, h₃⟩ := h₃
  have hdrop₁ : b₁.calls.drop s.binding.calls.length = calls₁ := by rw [h₁, List.drop_left]
  have hdrop : b₃.calls.drop s.binding.calls.length = calls₁ ++ calls₃ := by
    rw [h₃, h₂, h₁, List.append_assoc, List.drop_left]
  have hlength : b₂.calls.length = s.binding.calls.length + calls₁.length := by
    rw [h₂, h₁, List.length_append]
  have hdrop₂ : b₃.calls.drop (s.binding.calls.length + calls₁.length) = calls₃ := by
    rw [← hlength, h₃, List.drop_left]
  simp only [absorb, hdrop, hdrop₁, hdrop₂, hlength, List.foldl_append, outstandingCalls_append,
    hconnected, List.append_assoc]

theorem Accounted.frame (h : s.Accounted)
    (hpending : s'.binding.pendingPublicationItems = s.binding.pendingPublicationItems)
    (hnext : s'.binding.nextItem = s.binding.nextItem) (henqueued : s'.enqueued = s.enqueued)
    (hcalls : ∃ calls, s'.binding.calls = s.binding.calls ++ calls ∧ publications calls = [])
    (houtstanding : (s'.outstanding.map fun call => (call.number, call.item)).Sublist
      (s.outstanding.map fun call => (call.number, call.item)))
    (hinitialized : s'.binding.state = .initialized → s'.binding.client = none) : s'.Accounted := by
  obtain ⟨calls, hcalls, hnone⟩ := hcalls
  have hpublications : publications s'.binding.calls = publications s.binding.calls := by
    rw [hcalls, publications_append, hnone, List.append_nil]
  have houtbox : s'.outbox = s.outbox := by
    rw [outbox, outbox, sent, sent, hpending, henqueued, hpublications]
  refine ⟨houtbox ▸ h.fifo, fun id hid => ?_, ?_, hpending ▸ h.pendingCallback,
    hpublications ▸ h.publishedCallback, fun call hcall => ?_, ?_, hinitialized⟩
  · rw [houtbox]
    exact h.fresh id (hnext ▸ hid)
  · rw [hpending, hpublications]
    exact h.same
  · obtain ⟨call', hcall', heq⟩ := List.mem_map.mp (houtstanding.subset (List.mem_map_of_mem hcall))
    obtain ⟨hnumber, hitem⟩ := Prod.mk.inj heq
    have hcalled := h.outstanding call' hcall'
    rw [hnumber, hitem] at hcalled
    rw [hcalls, List.getElem?_append_left (List.getElem?_eq_some_iff.mp hcalled).1]
    exact hcalled
  · have hsublist := houtstanding.map Prod.fst
    rw [List.map_map, List.map_map] at hsublist
    exact h.numbers.sublist hsublist

theorem Accounted.queueItem (h : s.Accounted) {item : PublicationItem Data}
    (hid : item.id = s.binding.nextItem) (hcallback : item.callback = false) (shouldAddFirst : Bool) :
    { s with
      binding := s.binding.queueItem item shouldAddFirst
      enqueued := if shouldAddFirst then s.enqueued else s.enqueued ++ [item.id] }.Accounted := by
  have hfresh := h.fresh item.id (Nat.le_of_eq hid.symm)
  have hmem : ∀ {item'}, item' ∈ (s.binding.queueItem item shouldAddFirst).pendingPublicationItems →
      item' = item ∨ item' ∈ s.binding.pendingPublicationItems := by
    intro item' hitem'
    rw [MqttBinding.queueItem] at hitem'
    cases shouldAddFirst <;> simpa [or_comm] using hitem'
  refine ⟨?_, fun id hid' => ?_, fun item' hitem' => ?_, fun item' hitem' => ?_, h.publishedCallback,
    h.outstanding, h.numbers, h.initialized⟩
  · cases shouldAddFirst
    · show Outbox.FirstInFirstOut
        ⟨(s.binding.pendingPublicationItems ++ [item]).map _, s.enqueued ++ [item.id], s.sent⟩
      rw [List.map_append]
      exact h.fifo.enqueue hfresh
    · exact h.fifo.putFirst hfresh
  · have hlt : s.binding.nextItem < id := hid'
    obtain ⟨hqueue, henqueued, hsent⟩ := h.fresh id (Nat.le_of_lt hlt)
    have hne : id ≠ item.id := by omega
    refine ⟨?_, ?_, hsent⟩
    · intro hin
      obtain ⟨item', hitem', rfl⟩ := List.mem_map.mp hin
      rcases hmem hitem' with rfl | hitem'
      · exact hne rfl
      · exact hqueue (List.mem_map_of_mem hitem')
    · cases shouldAddFirst
      · simpa [outbox, hne] using henqueued
      · exact henqueued
  · rcases hmem hitem' with rfl | hitem'
    · exact fun other hother heq => absurd (List.mem_map.mpr ⟨other, hother, heq⟩) hfresh.2.2
    · exact h.same item' hitem'
  · rcases hmem hitem' with rfl | hitem'
    · exact hcallback
    · exact h.pendingCallback item' hitem'

theorem Accounted.publishHead (h : s.Accounted) {item : PublicationItem Data}
    {rest : List (PublicationItem Data)} (hpending : s.binding.pendingPublicationItems = item :: rest)
    (hclient : s.binding.client.isSome = true) :
    (s.absorb (s.binding.callClient (.publish item))).Accounted := by
  have hcalls := s.binding.calls_callClient (.publish item) hclient
  have hpublications : publications (s.binding.callClient (.publish item)).calls
      = publications s.binding.calls ++ [item] := by
    rw [hcalls, publications_append]
    rfl
  have houtstanding := outstanding_absorb hcalls
  refine ⟨?_, fun id hid => ?_, fun item' hitem' other hother heq => ?_, h.pendingCallback,
    fun item' hitem' => ?_, fun call hcall => ?_, ?_, fun hstate => ?_⟩
  · have hstep := h.fifo.send
    have houtbox : (s.absorb (s.binding.callClient (.publish item))).outbox = s.outbox.step .send := by
      simp only [outbox, Outbox.step, sent, absorb, hpublications, MqttBinding.callClient_pending, hpending]
      simp
    rw [houtbox]
    exact hstep
  · obtain ⟨hqueue, henqueued, hsent⟩ := h.fresh id hid
    refine ⟨hqueue, henqueued, ?_⟩
    have hne : id ≠ item.id := by
      rintro rfl
      exact hqueue (List.mem_map_of_mem (hpending ▸ List.mem_cons_self))
    show id ∉ (publications (s.binding.callClient (.publish item)).calls).map fun item => item.id
    rw [hpublications, List.map_append, List.mem_append]
    rintro (hin | hin)
    · exact hsent hin
    · exact hne (List.mem_singleton.mp hin)
  · change other ∈ publications (s.binding.callClient (.publish item)).calls at hother
    rw [hpublications, List.mem_append, List.mem_singleton] at hother
    rcases hother with hother | rfl
    · exact h.same item' hitem' other hother heq
    · exact List.inj_on_of_nodup_map h.fifo.nodup (hpending ▸ List.mem_cons_self) hitem' heq
  · change item' ∈ publications (s.binding.callClient (.publish item)).calls at hitem'
    rw [hpublications, List.mem_append, List.mem_singleton] at hitem'
    rcases hitem' with hitem' | rfl
    · exact h.publishedCallback item' hitem'
    · exact h.pendingCallback item' (hpending ▸ List.mem_cons_self)
  · show (s.binding.callClient (.publish item)).calls[call.number]? = _
    rw [houtstanding, List.mem_append] at hcall
    rcases hcall with hcall | hcall
    · have hcalled := h.outstanding call hcall
      rw [hcalls, List.getElem?_append_left (List.getElem?_eq_some_iff.mp hcalled).1]
      exact hcalled
    · obtain rfl : call = _ := List.mem_singleton.mp hcall
      rw [hcalls]
      exact List.getElem?_concat_length
  · rw [houtstanding, List.map_append, List.nodup_append]
    refine ⟨h.numbers, List.nodup_singleton _, ?_⟩
    intro number hnumber number' hnumber' heq
    obtain rfl : number' = s.binding.calls.length := List.mem_singleton.mp hnumber'
    obtain ⟨call, hcall, rfl⟩ := List.mem_map.mp hnumber
    exact absurd (List.getElem?_eq_some_iff.mp (h.outstanding call hcall)).1 (by omega)
  · have hnone := h.initialized hstate
    rw [hnone] at hclient
    cases hclient

theorem Accounted.doDrainPublications (h : s.Accounted) :
    (s.absorb s.binding.doDrainPublications).Accounted := by
  rcases s.binding.doDrainPublications_cases with ⟨item, rest, hpending, hclient, heq⟩ | ⟨-, heq⟩
  · rw [heq]
    exact h.publishHead hpending hclient
  · have hcalls : { s.binding with isDrainingPublications := false }.calls = s.binding.calls ++ [] :=
      (List.append_nil _).symm
    rw [heq]
    refine h.frame rfl rfl rfl ⟨[], hcalls, rfl⟩ ?_ h.initialized
    rw [outstanding_absorb hcalls]
    simp [outstandingCalls]

theorem Accounted.draining (h : s.Accounted) (isDrainingPublications : Bool) :
    { s with binding := { s.binding with isDrainingPublications } }.Accounted :=
  h.frame rfl rfl rfl ⟨[], (List.append_nil _).symm, rfl⟩ (List.Sublist.refl _) h.initialized

theorem Accounted.drainPublications (h : s.Accounted) : (s.absorb s.binding.drainPublications).Accounted := by
  rw [MqttBinding.drainPublications]
  split
  · rw [absorb_self]
    exact h
  · exact (h.draining true).doDrainPublications

/-- After an attempt to publish, whatever was to be done is under way. -/
theorem awake_doDrainPublications (hcalls : b.calls = s.binding.calls) :
    (s.absorb b.doDrainPublications).Awake := by
  rcases b.doDrainPublications_cases with ⟨item, rest, -, hclient, heq⟩ | ⟨hempty, heq⟩
  · rw [heq]
    have hcalled : (b.callClient (.publish item)).calls = s.binding.calls ++ [.publish item] := by
      rw [b.calls_callClient _ hclient, hcalls]
    intro hconnected _
    rw [outstanding_absorb hcalled]
    exact ⟨_, List.mem_append_right _ (List.mem_singleton.mpr rfl), hconnected⟩
  · rw [heq]
    rintro hconnected (hpending | hdraining)
    · exact absurd (hempty hconnected) hpending
    · cases hdraining

theorem awake_drainPublications
    (h : s.connected = true → s.binding.isDrainingPublications = true → ∃ call ∈ s.outstanding, call.live = true) :
    (s.absorb s.binding.drainPublications).Awake := by
  rw [MqttBinding.drainPublications]
  split
  · rename_i hdraining
    rw [absorb_self]
    exact fun hconnected _ => h hconnected hdraining
  · exact awake_doDrainPublications rfl

theorem Accounted.addJoinEvents [Json Data] (h : s.Accounted) (joinEvents : List (CommunicationEventLike Data)) :
    { s with binding := s.binding.addJoinEvents joinEvents }.Accounted := by
  induction joinEvents with
  | nil => exact h
  | cons joinEvent joinEvents ih =>
    rw [MqttBinding.addJoinEvents_cons]
    rcases (s.binding.addJoinEvents joinEvents).addPublicationItem_cases joinEvent true true with
      heq | ⟨item, hid, hcallback, heq⟩
    · rw [heq]
      exact ih
    · rw [heq]
      exact ih.queueItem hid hcallback true

/-! ### The steps of a session -/

theorem Accounted.publish [Json Data] (h : s.Accounted) (hawake : s.Awake)
    (eventLike : CommunicationEventLike Data) :
    (s.step (.publish eventLike)).Accounted ∧ (s.step (.publish eventLike)).Awake := by
  have hidle : { s.absorb s.binding with
      enqueued := if s.binding.nextItem = s.binding.nextItem then s.enqueued
        else s.enqueued ++ [s.binding.nextItem] } = s := by
    rw [if_pos rfl, absorb_self]
  rw [step, MqttBinding.publish]
  by_cases hstate : s.binding.state = .unjoined
  · rw [if_pos hstate, hidle]
    exact ⟨h, hawake⟩
  rw [if_neg hstate, MqttBinding.onPublish]
  by_cases haccepts : MqttBinding.acceptsPublication eventLike = true
  · rw [if_pos haccepts]
    rcases s.binding.addPublicationItem_cases eventLike false false with heq | ⟨item, hid, hcallback, heq⟩
    · rw [heq, MqttBinding.drainPublications_nextItem, if_pos rfl]
      exact ⟨h.drainPublications, awake_drainPublications fun hconnected hdraining =>
        hawake hconnected (Or.inr hdraining)⟩
    · have hne : s.binding.nextItem + 1 ≠ s.binding.nextItem := by omega
      rw [heq, MqttBinding.drainPublications_nextItem, MqttBinding.queueItem, if_neg hne]
      have hqueued := h.queueItem hid hcallback false
      rw [hid] at hqueued
      exact ⟨hqueued.drainPublications,
        awake_drainPublications (s := { s with
          binding := s.binding.queueItem item false
          enqueued := s.enqueued ++ [s.binding.nextItem] }) fun hconnected hdraining =>
          hawake hconnected (Or.inr hdraining)⟩
  · rw [if_neg haccepts, hidle]
    exact ⟨h, hawake⟩

theorem Accounted.resubscribed (h : s.Accounted) (hclient : s.binding.client.isSome = true) :
    ({ s with brokerFilters := ∅ }.absorb s.binding.resubscribed).Accounted := by
  have hcalls := s.binding.calls_resubscribed hclient
  have hnext : s.binding.resubscribed.nextItem = s.binding.nextItem := by
    rw [MqttBinding.resubscribed, MqttBinding.subscribeItems_nextItem]
    rfl
  have hstate : s.binding.resubscribed.state = s.binding.state := by
    rw [MqttBinding.resubscribed, MqttBinding.subscribeItems_state]
    rfl
  refine h.frame (MqttBinding.subscribeItems_pending _ _) hnext rfl ⟨_, hcalls, rfl⟩ ?_ fun hinitialized => ?_
  · rw [outstanding_absorb (s := { s with brokerFilters := ∅ }) hcalls]
    simp [outstandingCalls]
  · rw [h.initialized (hstate.symm.trans hinitialized)] at hclient
    cases hclient

theorem Accounted.connect [Json Data] (h : s.Accounted) (hclient : s.binding.client.isSome = true) :
    (s.step .connect).Accounted ∧ (s.step .connect).Awake := by
  let queued : MqttBinding Data :=
    { s.binding.resubscribed.addJoinEvents s.binding.joinEvents with isDrainingPublications := false }
  have hqueued := ((h.resubscribed hclient).addJoinEvents s.binding.joinEvents).draining false
  have hcalls : queued.calls = s.binding.resubscribed.calls :=
    s.binding.resubscribed.calls_addJoinEvents s.binding.joinEvents
  have hconnected : queued.isConnected = s.binding.resubscribed.isConnected :=
    (MqttBinding.sameSubscriptions_addJoinEvents _ _).isConnected
  have hdrained := queued.sameSubscriptions_drainPublications
  obtain ⟨calls, hdrainedCalls, -⟩ := hdrained.calls
  have habsorb := absorb_absorb (s := { s with brokerFilters := ∅ })
    ⟨_, s.binding.calls_resubscribed hclient⟩ hcalls ⟨calls, hdrainedCalls⟩
    (hdrained.isConnected.trans hconnected)
  rw [step, MqttBinding.onConnect_eq, ← habsorb]
  exact ⟨hqueued.drainPublications, awake_drainPublications fun _ hdraining => absurd hdraining Bool.false_ne_true⟩

theorem Accounted.confirm (h : s.Accounted) {item : PublicationItem Data}
    (hitem : item ∈ publications s.binding.calls) :
    { s with binding := { s.binding with
      pendingPublicationItems := s.binding.pendingPublicationItems.eraseP fun i => i.id = item.id } }.Accounted := by
  have hsub : ∀ {i}, i ∈ s.binding.pendingPublicationItems.eraseP (fun i => i.id = item.id) →
      i ∈ s.binding.pendingPublicationItems := fun hi => List.mem_of_mem_eraseP hi
  have hqueue : (s.binding.pendingPublicationItems.eraseP fun i => i.id = item.id).map (fun i => i.id)
      = s.outbox.queue.erase item.id := by
    rw [outbox, List.erase_eq_eraseP', List.eraseP_map]
    rfl
  refine ⟨?_, fun id hid => ?_, fun i hi => h.same i (hsub hi), fun i hi => h.pendingCallback i (hsub hi),
    h.publishedCallback, h.outstanding, h.numbers, h.initialized⟩
  · have hstep := h.fifo.confirm (List.mem_map_of_mem (f := fun i : PublicationItem Data => i.id) hitem)
    rw [Outbox.step, ← hqueue] at hstep
    exact hstep
  · obtain ⟨hfresh, henqueued, hsent⟩ := h.fresh id hid
    exact ⟨fun hin => hfresh (List.Sublist.subset (List.eraseP_sublist.map _) hin), henqueued, hsent⟩

theorem Accounted.find_outstanding (h : s.Accounted) {number : Nat} {err : Bool}
    (henabled : s.Enabled (.published number err)) :
    ∃ call ∈ s.outstanding, call.number = number ∧ (err = true → call.live = false) ∧
      (s.outstanding.find? fun call => call.number = number) = some call ∧
      call.item ∈ publications s.binding.calls := by
  obtain ⟨call, hcall, hnumber, herr⟩ := henabled
  refine ⟨call, hcall, hnumber, herr, ?_, mem_publications_of_getElem? (h.outstanding call hcall)⟩
  cases hfind : s.outstanding.find? fun call => call.number = number with
  | none => simpa [hnumber] using List.find?_eq_none.mp hfind call hcall
  | some call' =>
    have hnumber' : call'.number = number := by simpa using List.find?_some hfind
    rw [List.inj_on_of_nodup_map h.numbers (List.mem_of_find?_eq_some hfind) hcall
      (hnumber'.trans hnumber.symm)]

theorem Accounted.published [Json Data] (h : s.Accounted) (hawake : s.Awake) {number : Nat} {err : Bool}
    (henabled : s.Enabled (.published number err)) :
    (s.step (.published number err)).Accounted ∧ (s.step (.published number err)).Awake := by
  obtain ⟨call, hcall, hnumber, herr, hfind, hitem⟩ := h.find_outstanding henabled
  rw [step, hfind]
  dsimp only
  have hcalled : { s with outstanding := s.outstanding.filter fun call => call.number ≠ number }.Accounted :=
    h.frame rfl rfl rfl ⟨[], (List.append_nil _).symm, rfl⟩ (List.filter_sublist.map _) h.initialized
  cases err
  · have hcallback : call.item.callback = false := h.publishedCallback call.item hitem
    rw [MqttBinding.published, if_neg Bool.false_ne_true]
    dsimp only
    rw [hcallback, Bool.and_false, if_neg Bool.false_ne_true]
    exact ⟨(hcalled.confirm hitem).doDrainPublications, awake_doDrainPublications rfl⟩
  · -- The call that failed was made on a lost connection, and the one that is owed is another.
    rw [MqttBinding.published, if_pos rfl, MqttBinding.notify_eq _ h.pendingCallback]
    have hstopped := hcalled.draining false
    rw [← absorb_self { s with
      outstanding := s.outstanding.filter fun call => call.number ≠ number
      binding := { s.binding with isDrainingPublications := false } }] at hstopped
    refine ⟨hstopped, fun hconnected hbusy => ?_⟩
    have hpending : s.binding.pendingPublicationItems ≠ [] := hbusy.resolve_right Bool.false_ne_true
    obtain ⟨owed, howed, hlive⟩ := hawake hconnected (Or.inl hpending)
    refine ⟨owed, List.mem_append_left _ (List.mem_filter.mpr ⟨howed, ?_⟩), hlive⟩
    have hne : owed.number ≠ number := by
      intro heq
      have hsame := List.inj_on_of_nodup_map h.numbers howed hcall (heq.trans hnumber.symm)
      rw [hsame, herr rfl] at hlive
      cases hlive
    simpa using hne

theorem Accounted.of_same (h : s.Accounted) (hawake : s.Awake)
    (hsame : MqttBinding.SamePublications s.binding b) (lastCall : Map (CommunicationEventType × Text) Bool) :
    { s.absorb b with lastCall }.Accounted ∧ { s.absorb b with lastCall }.Awake := by
  obtain ⟨calls, hcalls, hnone⟩ := hsame.calls
  have houtstanding : (s.absorb b).outstanding = s.outstanding := by
    rw [outstanding_absorb hcalls, outstandingCalls_eq_nil hnone, List.append_nil]
  refine ⟨h.frame hsame.pending hsame.nextItem rfl ⟨calls, hcalls, hnone⟩ ?_ fun hstate => ?_,
    fun hconnected hbusy => ?_⟩
  · exact houtstanding ▸ List.Sublist.refl _
  · exact hsame.client (h.initialized (hsame.state.symm.trans hstate))
  · show ∃ call ∈ (s.absorb b).outstanding, call.live = true
    rw [houtstanding]
    exact hawake (hsame.isConnected.symm.trans hconnected)
      (hbusy.imp (fun hpending => hsame.pending ▸ hpending) fun hdraining => hsame.draining ▸ hdraining)

theorem Awake.of_disconnected (h : s.connected = false) : s.Awake := by
  intro hconnected
  rw [h] at hconnected
  cases hconnected

theorem Accounted.step [Json Data] (h : s.Accounted) (hawake : s.Awake) {event : SessionEvent Data}
    (henabled : s.Enabled event) : (s.step event).Accounted ∧ (s.step event).Awake := by
  cases event with
  | join joinOptions =>
    have hcalls : (s.binding.join joinOptions).calls = s.binding.calls ++ [] := by
      rw [MqttBinding.join_eq henabled, MqttBinding.calls, MqttBinding.calls, h.initialized henabled]
      rfl
    have hjoin := MqttBinding.join_eq henabled joinOptions
    have hpending := congrArg MqttBinding.pendingPublicationItems hjoin
    have hnext := congrArg MqttBinding.nextItem hjoin
    refine ⟨h.frame hpending hnext rfl ⟨[], hcalls, rfl⟩ ?_ ?_, Awake.of_disconnected ?_⟩
    · rw [Session.step, outstanding_absorb hcalls]
      simp [outstandingCalls]
    · intro hstate
      cases (congrArg MqttBinding.state hjoin).symm.trans hstate
    · exact congrArg MqttBinding.isConnected hjoin
  | publish eventLike => exact h.publish hawake eventLike
  | subscribe eventLike => exact h.of_same hawake (s.binding.samePublications_subscribe eventLike) _
  | unsubscribe eventLike => exact h.of_same hawake (s.binding.samePublications_unsubscribe eventLike) _
  | connect => exact h.connect henabled.1
  | lose =>
    have hclient : s.binding.client.isSome = true := MqttBinding.isSome_of_isConnected henabled
    refine ⟨h.frame rfl rfl rfl ⟨[], ?_, rfl⟩ ?_ fun hstate => ?_, Awake.of_disconnected ?_⟩
    · exact (s.binding.calls_setConnected false).trans (List.append_nil _).symm
    · rw [Session.step, List.map_map]
      exact List.Sublist.refl _
    · rw [h.initialized hstate] at hclient
      cases hclient
    · exact s.binding.isConnected_setConnected hclient false
  | close =>
    exact ⟨h.frame rfl rfl rfl ⟨[], (List.append_nil _).symm, rfl⟩ (List.Sublist.refl _) h.initialized,
      Awake.of_disconnected henabled.2⟩
  | offline =>
    exact ⟨h.frame rfl rfl rfl ⟨[], (List.append_nil _).symm, rfl⟩ (List.Sublist.refl _) h.initialized,
      Awake.of_disconnected henabled.2⟩
  | published number err => exact h.published hawake henabled

theorem Accounted.kept [Json Data] (h : s.Accounted) {event : SessionEvent Data} (henabled : s.Enabled event)
    {item : PublicationItem Data} (hitem : item ∈ s.binding.pendingPublicationItems)
    (hgone : item ∉ (s.step event).binding.pendingPublicationItems) :
    ∃ number, event = .published number false ∧ (∃ call ∈ s.outstanding, call.number = number) ∧
      s.binding.calls[number]? = some (.publish item) := by
  cases event with
  | published number err =>
    obtain ⟨call, hcall, hnumber, -, hfind, hpublished⟩ := h.find_outstanding henabled
    rw [Session.step, hfind] at hgone
    change item ∉ (s.binding.published call.item err).pendingPublicationItems at hgone
    rw [MqttBinding.published] at hgone
    cases err
    · refine ⟨number, rfl, ⟨call, hcall, hnumber⟩, ?_⟩
      have hcallback : call.item.callback = false := h.publishedCallback call.item hpublished
      rw [if_neg Bool.false_ne_true] at hgone
      dsimp only at hgone
      rw [hcallback, Bool.and_false, if_neg Bool.false_ne_true, MqttBinding.doDrainPublications_pending] at hgone
      have hid : item.id = call.item.id := by
        by_contra hne
        exact hgone ((List.mem_eraseP_of_neg (by simpa using hne)).mpr hitem)
      have hcalled := h.outstanding call hcall
      rwa [hnumber, h.same item hitem call.item hpublished hid.symm] at hcalled
    · rw [if_pos rfl, MqttBinding.notify_eq _ h.pendingCallback] at hgone
      exact absurd hitem hgone
  | join joinOptions =>
    have hpending := congrArg MqttBinding.pendingPublicationItems (MqttBinding.join_eq henabled joinOptions)
    exact absurd (hpending ▸ hitem) hgone
  | publish eventLike => exact absurd (s.binding.mem_pending_publish eventLike hitem) hgone
  | subscribe eventLike =>
    exact absurd ((s.binding.samePublications_subscribe eventLike).pending ▸ hitem) hgone
  | unsubscribe eventLike =>
    exact absurd ((s.binding.samePublications_unsubscribe eventLike).pending ▸ hitem) hgone
  | connect =>
    refine absurd ?_ hgone
    show item ∈ (s.binding.setConnected true).onConnect.pendingPublicationItems
    rw [MqttBinding.onConnect_eq, MqttBinding.drainPublications_pending]
    refine MqttBinding.mem_pending_addJoinEvents _ _ ?_
    rw [MqttBinding.resubscribed, MqttBinding.subscribeItems_pending]
    exact hitem
  | lose => exact absurd hitem hgone
  | close => exact absurd hitem hgone
  | offline => exact absurd hitem hgone

/-- Publications are lossless and ordered, and draining them never falls asleep. -/
theorem publications_lossless_ordered [Json Data] (options : CommunicationBindingOptions)
    (events : List (SessionEvent Data)) (hrun : Along step Enabled (start options) events) :
    let s := events.foldl step (start options)
    (∀ event, s.Enabled event → ∀ item ∈ s.binding.pendingPublicationItems,
      item ∉ (s.step event).binding.pendingPublicationItems →
        ∃ number, event = .published number false ∧ (∃ call ∈ s.outstanding, call.number = number) ∧
          s.binding.calls[number]? = some (.publish item)) ∧
      (∀ x ∈ s.enqueued, ∀ y ∈ s.enqueued, s.enqueued.idxOf x < s.enqueued.idxOf y → y ∈ s.sent →
        x ∈ s.sent ∧ s.sent.idxOf x < s.sent.idxOf y) ∧
      (s.connected = true → s.binding.pendingPublicationItems ≠ [] → s.outstanding ≠ []) := by
  obtain ⟨haccounted, hawake⟩ := hrun.invariant (I := fun s => s.Accounted ∧ s.Awake)
    (fun _ _ h henabled => h.1.step h.2 henabled) ⟨accounted_start options, awake_start options⟩
  refine ⟨fun event henabled item hitem hgone => haccounted.kept henabled hitem hgone,
    haccounted.fifo.firstSent, fun hconnected hpending => ?_⟩
  obtain ⟨call, hcall, -⟩ := hawake hconnected (Or.inl hpending)
  exact List.ne_nil_of_mem hcall

/-- A publication before the first connection, and its callback in between two others. -/
def publishRun : List (SessionEvent Text) :=
  [.join ⟨[rawEvent (text "joined")], rawEvent (text "gone")⟩, .publish (rawEvent (text "a")), .connect,
    .publish (rawEvent (text "b")), .published 2 false, .lose, .close]

theorem publications_publishRun :
    let s := publishRun.foldl step (start ⟨none, none⟩)
    (∀ event, s.Enabled event → ∀ item ∈ s.binding.pendingPublicationItems,
      item ∉ (s.step event).binding.pendingPublicationItems →
        ∃ number, event = .published number false ∧ (∃ call ∈ s.outstanding, call.number = number) ∧
          s.binding.calls[number]? = some (.publish item)) ∧
      (∀ x ∈ s.enqueued, ∀ y ∈ s.enqueued, s.enqueued.idxOf x < s.enqueued.idxOf y → y ∈ s.sent →
        x ∈ s.sent ∧ s.sent.idxOf x < s.sent.idxOf y) ∧
      (s.connected = true → s.binding.pendingPublicationItems ≠ [] → s.outstanding ≠ []) :=
  publications_lossless_ordered ⟨none, none⟩ publishRun (by decide)

end Session

end Coaty
