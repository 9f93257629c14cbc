import Coaty.Com.RequestObservables

/-!
# Requests are paired with their responses

A response item is awaited from its publication until its last subscriber leaves or the manager is stopped, and just then its correlation id is registered and its response type subscribed. The request goes out with the first subscription, so it goes out to be answered exactly if the manager has not been stopped in between.
-/

namespace Coaty

open Js CommunicationEvent Transition

variable {Data : Type}

namespace CommunicationEvent

/-- The event types that respond to a request. -/
def responseTypes : List CommunicationEventType := [.resolve, .retrieve, .complete, .returnEvent]

theorem mem_responseTypes {eventType responseType : CommunicationEventType}
    (h : responseEventType eventType = some responseType) : responseType ∈ responseTypes := by
  cases eventType <;> cases h <;> decide

theorem not_isRequest_of_response {eventType : CommunicationEventType} (h : eventType ∈ responseTypes) :
    ¬ IsRequest eventType := by
  revert h
  cases eventType <;> decide

end CommunicationEvent

namespace MqttTopic

theorem correlationId_of_getTopicFilter_eq {version : Nat} {messagingNamespace : Option Text}
    {eventType : CommunicationEventType} {left right : Uuid} (htwoWay : isOneWayEvent eventType = false)
    (h : getTopicFilter version messagingNamespace eventType none (some left.val)
      = getTopicFilter version messagingNamespace eventType none (some right.val)) : left = right := by
  have hlevel : ∀ id : Uuid, orElse (some id.val) (text "+") = id.val := by
    intro id
    rw [orElse]
    exact id.property
  simp only [getTopicFilter, htwoWay, Bool.false_eq_true, if_false, hlevel] at h
  exact Subtype.ext (List.cons.inj (List.append_cancel_left h)).2

end MqttTopic

namespace ObservedResponseItem

variable {b : MqttBinding Data} {item other : ObservedResponseItem Data}

/-- Whether responses to the request can still be received. -/
def Awaited (item : ObservedResponseItem Data) : Prop := item.cleanup = true ∧ item.stoppedSince = false

theorem accepts_eventLike (h : item.responseType ∈ responseTypes) :
    MqttBinding.acceptsSubscription item.eventLike = true := by
  refine MqttBinding.acceptsSubscription_of_ne (fun heq => ?_) (fun heq => ?_)
  · exact absurd (heq ▸ h : CommunicationEventType.raw ∈ responseTypes) (by decide)
  · exact absurd (heq ▸ h : CommunicationEventType.ioValue ∈ responseTypes) (by decide)

theorem of_subscriptionKey_eq (h : item.responseType ∈ responseTypes)
    (hkey : Session.subscriptionKey b item.eventLike = Session.subscriptionKey b other.eventLike) :
    item.correlationId = other.correlationId := by
  obtain ⟨htype, hfilter⟩ := Prod.mk.inj hkey
  have hsame : item.responseType = other.responseType := htype
  have hfilters : ∀ response : ObservedResponseItem Data, response.responseType ∈ responseTypes →
      b.getTopicFilterFor response.eventLike
        = b.eventTopicFilter response.responseType none (some response.correlationId.val) := by
    intro response hresponse
    refine b.getTopicFilterFor_eq (fun heq => ?_) (fun heq => ?_)
    · exact absurd (heq ▸ hresponse : CommunicationEventType.raw ∈ responseTypes) (by decide)
    · exact absurd (heq ▸ hresponse : CommunicationEventType.ioValue ∈ responseTypes) (by decide)
  have htwoWay : MqttTopic.isOneWayEvent item.responseType = false := by
    revert h
    cases item.responseType <;> decide
  rw [hfilters item h, hfilters other (hsame ▸ h), ← hsame] at hfilter
  exact MqttTopic.correlationId_of_getTopicFilter_eq htwoWay hfilter

end ObservedResponseItem

namespace Observables

/-- The first subscription to a response observable is made before the manager is stopped. -/
def SubscribesBeforeStop (s : Observables Data) : Event Data → Prop
  | .subscribeResponse observable => ∀ item, s.responseItems[observable]? = some item →
      item.item.created = 0 → item.stoppedSince = false
  | _ => True

/-- A request is handed to the binding at most once, and with its correlation id registered and its response subscribed there. Nothing of it is left after its last subscriber, and then subscribing fails. -/
structure Paired [Json Data] (s : Observables Data) : Prop where
  once : (s.handed.map HandedRequest.observable).Nodup
  answerable : ∀ request ∈ s.handed, request.registered = true ∧ request.subscribed = true
  left : ∀ observable item, s.responseItems[observable]? = some item →
    0 < item.item.created → item.item.subscribers = [] →
    s.observedResponses.get item.correlationId = none ∧
      Session.subscriptionKey s.binding item.eventLike ∉ s.binding.issuedKeys ∧
      ∃ error, s.subscribeResponse observable = .error error

/-- What holds of a response item after any events. -/
structure ItemBound (newUuid : Nat → Uuid) (s : Observables Data) (observable : Nat)
    (item : ObservedResponseItem Data) : Prop where
  correlationId : item.correlationId = newUuid observable
  response : item.responseType ∈ responseTypes
  left : item.hasLastObserverUnsubscribed = true ↔ 0 < item.item.created ∧ item.item.subscribers = []
  cleanup : item.cleanup = !item.hasLastObserverUnsubscribed
  registered : s.observedResponses.get item.correlationId = some observable ↔ item.Awaited
  subscribed : Session.subscriptionKey s.binding item.eventLike ∈ s.binding.issuedKeys ↔ item.Awaited

structure ResponsesBound (newUuid : Nat → Uuid) (s : Observables Data) : Prop where
  requests : s.RequestsBound
  items : ∀ observable item, s.responseItems[observable]? = some item → s.ItemBound newUuid observable item
  owner : ∀ id observable, s.observedResponses.get id = some observable → id = newUuid observable
  once : (s.handed.map HandedRequest.observable).Nodup
  handed : ∀ request ∈ s.handed, ∃ item, s.responseItems[request.observable]? = some item ∧ 0 < item.item.created

variable {newUuid : Nat → Uuid} {s s' : Observables Data}

theorem ResponsesBound.paired_iff [Json Data] (hnew : Function.Injective newUuid) (h : s.ResponsesBound newUuid) :
    s.Paired ↔ ∀ request ∈ s.handed, request.registered = true ∧ request.subscribed = true := by
  refine ⟨fun hpaired => hpaired.answerable, fun hanswerable => ⟨h.once, hanswerable, ?_⟩⟩
  intro observable item hitem hcreated hnone
  have hbound := h.items observable item hitem
  have hlast := hbound.left.mpr ⟨hcreated, hnone⟩
  have hnot : ¬ item.Awaited := by
    intro hawaited
    have hcleanup := hbound.cleanup.symm.trans hawaited.1
    rw [hlast] at hcleanup
    cases hcleanup
  refine ⟨?_, fun hkey => hnot (hbound.subscribed.mp hkey), .typeError, ?_⟩
  · cases hget : s.observedResponses.get item.correlationId with
    | none => rfl
    | some other =>
      have hother := hnew ((h.owner _ _ hget).symm.trans hbound.correlationId)
      exact absurd (hbound.registered.mp (hother ▸ hget)) hnot
  · rw [subscribeResponse, hitem]
    dsimp only
    rw [if_pos hlast]

/-! ### Events of requests -/

/-- What is registered, subscribed and handed for responses stays as it is. -/
structure SameResponses (s s' : Observables Data) : Prop where
  items : s'.responseItems = s.responseItems
  registry : s'.observedResponses = s.observedResponses
  handed : s'.handed = s.handed
  binding : MqttBinding.SameKeys (¬ IsRequest ·) s.binding s'.binding

theorem SameResponses.refl (s : Observables Data) : SameResponses s s := ⟨rfl, rfl, rfl, MqttBinding.SameKeys.refl _⟩

theorem SameResponses.trans {s₁ s₂ s₃ : Observables Data} (h : SameResponses s₁ s₂) (h' : SameResponses s₂ s₃) :
    SameResponses s₁ s₃ :=
  ⟨h'.items.trans h.items, h'.registry.trans h.registry, h'.handed.trans h.handed, h.binding.trans h'.binding⟩

theorem ItemBound.of_same {observable : Nat} {item : ObservedResponseItem Data} (h : s.ItemBound newUuid observable item)
    (hregistry : s'.observedResponses.get item.correlationId = s.observedResponses.get item.correlationId)
    (hbinding : MqttBinding.SameKeys (¬ IsRequest ·) s.binding s'.binding) :
    s'.ItemBound newUuid observable item := by
  refine { h with registered := ?_, subscribed := ?_ }
  · rw [hregistry]
    exact h.registered
  · rw [hbinding.subscriptionKey, hbinding.keys _ (not_isRequest_of_response h.response)]
    exact h.subscribed

theorem ResponsesBound.of_same (h : s.ResponsesBound newUuid) (hrequests : s'.RequestsBound)
    (hsame : SameResponses s s') : s'.ResponsesBound newUuid where
  requests := hrequests
  items observable item hitem :=
    (h.items observable item (hsame.items ▸ hitem)).of_same (by rw [hsame.registry]) hsame.binding
  owner id observable hid := h.owner id observable (hsame.registry ▸ hid)
  once := hsame.handed ▸ h.once
  handed := by
    rw [hsame.handed, hsame.items]
    exact h.handed

theorem sameResponses_observeRequest (h : s.RequestsBound) (eventType : RequestType) (eventTypeFilter : Option Text) :
    SameResponses s (s.observeRequest eventType eventTypeFilter) := by
  rw [observeRequest]
  dsimp only
  split
  · exact SameResponses.refl s
  · exact ⟨rfl, rfl, rfl, MqttBinding.sameKeys_subscribe h.state h.nodup (not_not_intro eventType.property)⟩

theorem sameResponses_subscribeRequest (s : Observables Data) (observable : Nat) :
    SameResponses s (s.subscribeRequest observable) := by
  rw [Observables.subscribeRequest]
  split
  · exact SameResponses.refl s
  · exact ⟨rfl, rfl, rfl, MqttBinding.SameKeys.refl _⟩

theorem sameResponses_unsubscribeRequest (h : s.RequestsBound) (observable : Nat) (subscriber : Subscriber) :
    SameResponses s (s.unsubscribeRequest observable subscriber) := by
  rw [unsubscribeRequest]
  split
  · exact SameResponses.refl s
  · rename_i item _
    dsimp only
    split
    · split
      · exact ⟨rfl, rfl, rfl, MqttBinding.sameKeys_unsubscribe h.state h.nodup (not_not_intro item.eventType.property)⟩
      · exact ⟨rfl, rfl, rfl, MqttBinding.SameKeys.refl _⟩
    · exact SameResponses.refl s

theorem sameResponses_observeAndSubscribe (h : s.RequestsBound) (eventType : RequestType)
    (eventTypeFilter : Option Text) : SameResponses s (s.observeAndSubscribe eventType eventTypeFilter) := by
  have hobserved := sameResponses_observeRequest h eventType eventTypeFilter
  rw [observeAndSubscribe]
  split
  · exact hobserved
  · exact hobserved.trans (sameResponses_subscribeRequest _ _)

theorem sameResponses_joinBinding (h : s.RequestsBound) (contextNames : List Text)
    (joinOptions : CommunicationBindingJoinOptions Data) : SameResponses s (s.joinBinding contextNames joinOptions) := by
  have hkeys : ∀ {P : CommunicationEventType → Prop}, MqttBinding.SameKeys P s.binding (s.binding.join joinOptions) :=
    s.binding.sameKeys_join joinOptions
  have hobserve : ∀ {s' : Observables Data} (eventType : RequestType) (eventTypeFilter : Option Text),
      eventType.val ≠ .raw → s'.RequestsBound ∧ SameResponses s s' →
      (s'.observeAndSubscribe eventType eventTypeFilter).RequestsBound ∧
        SameResponses s (s'.observeAndSubscribe eventType eventTypeFilter) := by
    intro s' eventType eventTypeFilter hraw h'
    exact ⟨(observeAndSubscribe_spec h'.1 eventType eventTypeFilter hraw).1,
      h'.2.trans (sameResponses_observeAndSubscribe h'.1 eventType eventTypeFilter)⟩
  have hjoined : ({ s with binding := s.binding.join joinOptions } : Observables Data).RequestsBound ∧
      SameResponses s { s with binding := s.binding.join joinOptions } :=
    ⟨h.of_same rfl rfl hkeys h.responses, ⟨rfl, rfl, rfl, hkeys⟩⟩
  have hcontexts : (contextNames.foldl (fun (s : Observables Data) name => s.observeAndSubscribe .associate (some name))
      { s with binding := s.binding.join joinOptions }).RequestsBound ∧
      SameResponses s (contextNames.foldl (fun (s : Observables Data) name => s.observeAndSubscribe .associate (some name))
        { s with binding := s.binding.join joinOptions }) :=
    invariant_foldl (I := fun s' : Observables Data => s'.RequestsBound ∧ SameResponses s s')
      (fun s' name h' => hobserve .associate (some name) (by decide) h') hjoined
  rw [joinBinding]
  refine (hobserve .discover none (by decide) ?_).2
  split
  · exact hcontexts
  · exact hobserve .discover none (by decide) hcontexts

/-! ### Events of responses -/

theorem ResponsesBound.update (h : s.ResponsesBound newUuid) {observable : Nat} {updated : ObservedResponseItem Data}
    (hrequests : s'.RequestsBound) (hitems : s'.responseItems = s.responseItems.set observable updated)
    (hupdated : s'.ItemBound newUuid observable updated)
    (hothers : ∀ other item, other ≠ observable → s.ItemBound newUuid other item → s'.ItemBound newUuid other item)
    (howner : ∀ id other, s'.observedResponses.get id = some other → s.observedResponses.get id = some other)
    (honce : (s'.handed.map HandedRequest.observable).Nodup)
    (hhanded : ∀ request ∈ s'.handed, request ∈ s.handed ∨ request.observable = observable)
    {item : ObservedResponseItem Data} (hitem : s.responseItems[observable]? = some item)
    (hcreated : 0 < updated.item.created) : s'.ResponsesBound newUuid := by
  have hget : ∀ other, s'.responseItems[other]? = if other = observable then some updated else s.responseItems[other]? := by
    intro other
    rw [hitems]
    exact getElem?_set_of_some hitem
  refine ⟨hrequests, fun other otherItem hother => ?_, fun id other hid => h.owner id other (howner id other hid),
    honce, fun request hrequest => ?_⟩
  · rw [hget] at hother
    split at hother
    · rename_i heq
      cases hother
      exact heq ▸ hupdated
    · rename_i hne
      exact hothers other otherItem hne (h.items other otherItem hother)
  · rw [hget]
    split
    · exact ⟨updated, rfl, hcreated⟩
    · rename_i hne
      exact h.handed request ((hhanded request hrequest).resolve_right hne)

theorem ItemBound.awaited_iff {observable : Nat} {item : ObservedResponseItem Data}
    (h : s.ItemBound newUuid observable item) (hleft : item.hasLastObserverUnsubscribed = false) :
    item.Awaited ↔ item.stoppedSince = false := by
  have hcleanup : item.cleanup = true := by
    rw [h.cleanup, hleft]
    rfl
  exact ⟨fun hawaited => hawaited.2, fun hrunning => ⟨hcleanup, hrunning⟩⟩

/-- The first subscriber of an item is the first one since its creation. -/
theorem ItemBound.created_eq_zero_iff {observable : Nat} {item : ObservedResponseItem Data}
    (h : s.ItemBound newUuid observable item) (hleft : item.hasLastObserverUnsubscribed = false) :
    item.item.created = 0 ↔ item.item.subscribers = [] := by
  refine ⟨fun hzero => ?_, fun hnone => ?_⟩
  · rw [List.eq_nil_iff_forall_not_mem]
    intro subscriber hmem
    exact absurd (item.item.lt_created subscriber hmem) (by rw [hzero]; exact Nat.not_lt_zero _)
  · refine Nat.eq_zero_of_not_pos fun hcreated => ?_
    have hlast := h.left.mpr ⟨hcreated, hnone⟩
    rw [hleft] at hlast
    cases hlast

theorem ResponsesBound.subscribeResponse [Json Data] (h : s.ResponsesBound newUuid) {observable : Nat}
    {item : ObservedResponseItem Data} (hitem : s.responseItems[observable]? = some item)
    (hleft : item.hasLastObserverUnsubscribed = false) :
    ∃ s', s.subscribeResponse observable = .ok s' ∧ s'.ResponsesBound newUuid ∧
      s'.handed = s.handed ++ if item.item.created = 0 then
        [⟨observable, decide (item.stoppedSince = false), decide (item.stoppedSince = false)⟩] else [] := by
  have hbound := h.items observable item hitem
  have hawaited := hbound.awaited_iff hleft
  set added : ObservedResponseItem Data := { item with item := item.item.add } with hadded
  have hlive : added.item.subscribers ≠ [] := by simp [hadded, SubscriberItem.add]
  have hadd : ∀ {s' : Observables Data}, s'.observedResponses = s.observedResponses →
      MqttBinding.SameKeys (¬ IsRequest ·) s.binding s'.binding → s'.ItemBound newUuid observable added := by
    intro s' hregistry hbinding
    have hsame : s'.ItemBound newUuid observable item := hbound.of_same (by rw [hregistry]) hbinding
    refine ⟨hsame.correlationId, hsame.response, ?_, hsame.cleanup, hsame.registered, hsame.subscribed⟩
    refine ⟨fun hlast => ?_, fun hnone => absurd hnone.2 hlive⟩
    have := hleft.symm.trans hlast
    cases this
  have hresponses := h.requests.responses_set hitem added rfl
  have hfirst : (item.item.add.subscribers.length = 1 ∧ item.cleanup = true) ↔ item.item.created = 0 := by
    rw [hbound.created_eq_zero_iff hleft, hbound.cleanup, hleft]
    simp [SubscriberItem.add]
  rw [Observables.subscribeResponse, hitem]
  dsimp only
  rw [if_neg (by rw [hleft]; exact Bool.false_ne_true)]
  by_cases hzero : item.item.created = 0
  · rw [if_pos (hfirst.mpr hzero), if_pos hzero]
    have hkeys : ∀ {P : CommunicationEventType → Prop}, MqttBinding.SameKeys P s.binding (s.binding.publish item.request) :=
      s.binding.sameKeys_publish item.request
    have hhanded : ({ s with responseItems := s.responseItems.set observable added }.publishRequest observable item).handed
        = s.handed ++ [⟨observable, decide (item.stoppedSince = false), decide (item.stoppedSince = false)⟩] := by
      have hregistered := hbound.registered.trans hawaited
      have hsubscribed : (s.binding.issuedKeys.any fun key =>
          key = (item.responseType, s.binding.getTopicFilterFor item.eventLike)) = decide (item.stoppedSince = false) := by
        rw [Bool.eq_iff_iff, List.any_eq_true, decide_eq_true_iff, ← hawaited, ← hbound.subscribed]
        simp only [decide_eq_true_iff, exists_eq_right]
        exact Iff.rfl
      simp only [publishRequest, decide_eq_decide.mpr hregistered, hsubscribed]
    refine ⟨_, rfl, h.update (h.requests.of_same rfl rfl hkeys hresponses) rfl (hadd rfl hkeys)
      (fun other otherItem _ hother => hother.of_same rfl hkeys) (fun _ _ => id) ?_ ?_ hitem (Nat.succ_pos _), hhanded⟩
    · rw [hhanded, List.map_append, List.map_singleton, List.nodup_append]
      refine ⟨h.once, List.nodup_singleton _, fun other hother new hnew heq => ?_⟩
      obtain ⟨request, hrequest, rfl⟩ := List.mem_map.mp hother
      obtain ⟨before, hbefore, hcreated⟩ := h.handed request hrequest
      rw [heq, List.mem_singleton.mp hnew, hitem] at hbefore
      cases hbefore
      omega
    · intro request hrequest
      rw [hhanded] at hrequest
      rcases List.mem_append.mp hrequest with hrequest | hrequest
      · exact Or.inl hrequest
      · exact Or.inr (by rw [List.mem_singleton.mp hrequest])
  · rw [if_neg (fun hcount => hzero (hfirst.mp hcount)), if_neg hzero, List.append_nil]
    have hkeys : ∀ {P : CommunicationEventType → Prop}, MqttBinding.SameKeys P s.binding s.binding :=
      MqttBinding.SameKeys.refl _
    exact ⟨_, rfl, h.update (h.requests.of_same rfl rfl hkeys hresponses) rfl (hadd rfl hkeys)
      (fun other otherItem _ hother => hother.of_same rfl hkeys) (fun _ _ => id) h.once (fun _ => Or.inl) hitem
      (Nat.succ_pos _), rfl⟩

theorem ResponsesBound.observeResponse (hnew : Function.Injective newUuid) (h : s.ResponsesBound newUuid)
    (request : CommunicationEventLike Data) {responseType : CommunicationEventType}
    (hresponse : responseType ∈ responseTypes)
    (hrequests : (s.observeResponse request responseType (newUuid s.responseItems.length)).RequestsBound) :
    (s.observeResponse request responseType (newUuid s.responseItems.length)).ResponsesBound newUuid := by
  set fresh : Uuid := newUuid s.responseItems.length with hfresh
  set added : ObservedResponseItem Data :=
    { request := { request with correlationId := some fresh.val }, responseType, correlationId := fresh
      item := SubscriberItem.empty 0, cleanup := true, hasLastObserverUnsubscribed := false, stoppedSince := false }
  obtain ⟨hsame, _, hkeys⟩ := MqttBinding.subscribe_spec h.requests.state h.requests.nodup added.eventLike
  have hadded : (s.observeResponse request responseType fresh).ItemBound newUuid s.responseItems.length added := by
    have hawaited : added.Awaited := ⟨rfl, rfl⟩
    refine ⟨hfresh, hresponse, ⟨nofun, nofun⟩, rfl, iff_of_true ?_ hawaited, iff_of_true ?_ hawaited⟩
    · show (s.observedResponses.set fresh s.responseItems.length).get fresh = some s.responseItems.length
      rw [Map.get_set, if_pos rfl]
    · show Session.subscriptionKey (s.binding.subscribe added.eventLike) added.eventLike ∈ _
      rw [hsame.subscriptionKey]
      exact (hkeys _).mpr (Or.inr ⟨ObservedResponseItem.accepts_eventLike hresponse, rfl⟩)
  refine ⟨hrequests, fun observable item hitem => ?_, fun id observable hid => ?_, h.once, fun request hrequest => ?_⟩
  · have hcase : (s.responseItems ++ [added])[observable]? = some item := hitem
    by_cases hlt : observable < s.responseItems.length
    · rw [List.getElem?_append_left hlt] at hcase
      have hbound := h.items observable item hcase
      have hne : item.correlationId ≠ fresh := by
        rw [hbound.correlationId, hfresh]
        exact fun heq => Nat.ne_of_lt hlt (hnew heq)
      refine { hbound with registered := ?_, subscribed := ?_ }
      · show (s.observedResponses.set fresh s.responseItems.length).get item.correlationId = some observable ↔ _
        rw [Map.get_set, if_neg hne]
        exact hbound.registered
      · show Session.subscriptionKey (s.binding.subscribe added.eventLike) item.eventLike ∈
          (s.binding.subscribe added.eventLike).issuedKeys ↔ _
        rw [hsame.subscriptionKey, hkeys]
        refine Iff.trans ⟨fun hkey => hkey.resolve_right fun hkey => ?_, Or.inl⟩ hbound.subscribed
        exact hne (ObservedResponseItem.of_subscriptionKey_eq hbound.response hkey.2)
    · obtain ⟨hlast, rfl⟩ : observable = s.responseItems.length ∧ added = item := by
        have hle := (List.getElem?_eq_some_iff.mp hcase).1
        rw [List.length_append, List.length_singleton] at hle
        have heq : observable = s.responseItems.length := by omega
        rw [heq, List.getElem?_concat_length] at hcase
        exact ⟨heq, Option.some.inj hcase⟩
      exact hlast ▸ hadded
  · have hcase : (s.observedResponses.set fresh s.responseItems.length).get id = some observable := hid
    rw [Map.get_set] at hcase
    split at hcase
    · rename_i heq
      cases hcase
      exact heq
    · exact h.owner id observable hcase
  · obtain ⟨item, hitem, hcreated⟩ := h.handed request hrequest
    exact ⟨item, (List.getElem?_append_left (List.getElem?_eq_some_iff.mp hitem).1).trans hitem, hcreated⟩

theorem ResponsesBound.unsubscribeResponse (hnew : Function.Injective newUuid) (h : s.ResponsesBound newUuid)
    (observable : Nat) (subscriber : Subscriber) :
    (s.unsubscribeResponse observable subscriber).ResponsesBound newUuid ∧
      (s.unsubscribeResponse observable subscriber).handed = s.handed := by
  have hrequests : (s.unsubscribeResponse observable subscriber).RequestsBound := by
    obtain ⟨hitems, hregistry, hbinding, hresponses⟩ := sameRequests_unsubscribeResponse h.requests observable subscriber
    exact h.requests.of_same hitems hregistry hbinding hresponses
  rw [Observables.unsubscribeResponse] at hrequests ⊢
  cases hitem : s.responseItems[observable]? with
  | none => exact ⟨h, rfl⟩
  | some item =>
    rw [hitem] at hrequests
    dsimp only at hrequests ⊢
    have hbound := h.items observable item hitem
    by_cases hsubscribed : subscriber ∈ item.item.subscribers
    · have hcreated : 0 < item.item.created := Nat.lt_of_le_of_lt (Nat.zero_le _) (item.item.lt_created _ hsubscribed)
      have hleft : item.hasLastObserverUnsubscribed = false := by
        rw [Bool.eq_false_iff]
        intro hlast
        exact absurd (hbound.left.mp hlast).2 (List.ne_nil_of_mem hsubscribed)
      have hcleanup : item.cleanup = true := by
        rw [hbound.cleanup, hleft]
        rfl
      rw [if_pos hsubscribed] at hrequests ⊢
      split
      · rename_i hnone
        rw [if_pos hnone, if_pos hcleanup] at hrequests
        obtain ⟨hsame, _, hkeys⟩ := MqttBinding.unsubscribe_spec h.requests.state h.requests.nodup item.eventLike
        refine ⟨h.update hrequests rfl ?_ (fun other otherItem hne hother => ?_) (fun id other hid => ?_) h.once
          (fun _ => Or.inl) hitem hcreated, rfl⟩
        · have hgone : ∀ {gone : ObservedResponseItem Data}, gone.cleanup = false → ¬ gone.Awaited :=
            fun hcleanup hawaited => Bool.noConfusion (hcleanup.symm.trans hawaited.1)
          refine ⟨hbound.correlationId, hbound.response, iff_of_true rfl ⟨hcreated, List.length_eq_zero_iff.mp hnone⟩,
            rfl, iff_of_false ?_ (hgone rfl), iff_of_false ?_ (hgone rfl)⟩
          · show ¬ (s.observedResponses.delete item.correlationId).get item.correlationId = some observable
            rw [Map.get_delete, if_pos rfl]
            exact Option.some_ne_none observable ∘ Eq.symm
          · show Session.subscriptionKey (s.binding.unsubscribe item.eventLike) item.eventLike ∉
              (s.binding.unsubscribe item.eventLike).issuedKeys
            rw [hsame.subscriptionKey, hkeys]
            exact fun hkey => hkey.2 rfl
        · have hne' : otherItem.correlationId ≠ item.correlationId := by
            rw [hother.correlationId, hbound.correlationId]
            exact fun heq => hne (hnew heq)
          refine { hother with registered := ?_, subscribed := ?_ }
          · show (s.observedResponses.delete item.correlationId).get otherItem.correlationId = some other ↔ _
            rw [Map.get_delete, if_neg hne']
            exact hother.registered
          · show Session.subscriptionKey (s.binding.unsubscribe item.eventLike) otherItem.eventLike ∈
              (s.binding.unsubscribe item.eventLike).issuedKeys ↔ _
            rw [hsame.subscriptionKey, hkeys]
            refine Iff.trans ⟨fun hkey => hkey.1, fun hkey => ⟨hkey, fun heq => ?_⟩⟩ hother.subscribed
            exact hne' (ObservedResponseItem.of_subscriptionKey_eq hother.response heq)
        · have hcase : (s.observedResponses.delete item.correlationId).get id = some other := hid
          rw [Map.get_delete] at hcase
          split at hcase
          · cases hcase
          · exact hcase
      · rename_i hsome
        rw [if_neg hsome] at hrequests
        have hlive : (item.item.remove subscriber).subscribers ≠ [] := fun hnil => hsome (congrArg List.length hnil)
        refine ⟨h.update hrequests rfl ?_
          (fun _ _ _ hother => hother.of_same rfl (MqttBinding.SameKeys.refl _)) (fun _ _ => id) h.once (fun _ => Or.inl) hitem hcreated, rfl⟩
        refine { hbound with left := ⟨fun hlast => ?_, fun hnil => absurd hnil.2 hlive⟩ }
        exact Bool.noConfusion (hleft.symm.trans hlast)
    · rw [if_neg hsubscribed]
      exact ⟨h, rfl⟩

theorem ResponsesBound.unjoinBinding (hnew : Function.Injective newUuid) (h : s.ResponsesBound newUuid)
    (options : CommunicationBindingOptions) :
    (s.unjoinBinding options).ResponsesBound newUuid ∧ (s.unjoinBinding options).handed = s.handed := by
  have hrequests : ∀ {s' : Observables Data} (observable : Nat), s'.RequestsBound ∧ SameResponses s s' →
      (s'.completeRequest observable).RequestsBound ∧ SameResponses s (s'.completeRequest observable) := by
    intro s' observable h'
    rw [completeRequest]
    split
    · exact h'
    · exact invariant_foldl (I := fun s' : Observables Data => s'.RequestsBound ∧ SameResponses s s')
        (fun s' subscriber h' => ⟨(unsubscribeRequest_spec h'.1 observable subscriber).1,
          h'.2.trans (sameResponses_unsubscribeRequest h'.1 observable subscriber)⟩) h'
  have hresponses : ∀ {s' : Observables Data} (observable : Nat), s'.ResponsesBound newUuid ∧ s'.handed = s.handed →
      (s'.completeResponse observable).ResponsesBound newUuid ∧ (s'.completeResponse observable).handed = s.handed := by
    intro s' observable h'
    rw [completeResponse]
    split
    · exact h'
    · refine invariant_foldl (I := fun s' : Observables Data => s'.ResponsesBound newUuid ∧ s'.handed = s.handed)
        (fun s' subscriber h' => ?_) h'
      obtain ⟨hbound, hhanded⟩ := h'.1.unsubscribeResponse hnew observable subscriber
      exact ⟨hbound, hhanded.trans h'.2⟩
  have hcompleted : (s.observedRequests.values.foldl completeRequest s).RequestsBound ∧
      SameResponses s (s.observedRequests.values.foldl completeRequest s) :=
    invariant_foldl (I := fun s' : Observables Data => s'.RequestsBound ∧ SameResponses s s')
      (fun s' observable h' => hrequests observable h') ⟨h.requests, SameResponses.refl s⟩
  obtain ⟨hbound, hhanded⟩ : ((s.observedRequests.values.foldl completeRequest s).observedResponses.values.foldl
      completeResponse (s.observedRequests.values.foldl completeRequest s)).ResponsesBound newUuid ∧
      s.unobserveObservedItems.handed = s.handed :=
    invariant_foldl (I := fun s' : Observables Data => s'.ResponsesBound newUuid ∧ s'.handed = s.handed)
      (fun s' observable h' => hresponses observable h') ⟨h.of_same hcompleted.1 hcompleted.2, hcompleted.2.handed⟩
  refine ⟨⟨(unjoinBinding_spec h.requests options).1, fun observable item hitem => ?_, fun id observable hid => ?_,
    hhanded ▸ h.once, fun request hrequest => ?_⟩, hhanded⟩
  · obtain ⟨before, hbefore, rfl⟩ := Option.map_eq_some_iff.mp (List.getElem?_map.symm.trans hitem)
    have hitemBound := hbound.items observable before hbefore
    have hgone : ¬ ({ before with stoppedSince := true } : ObservedResponseItem Data).Awaited :=
      fun hawaited => Bool.noConfusion hawaited.2
    exact { hitemBound with
      registered := iff_of_false (fun hget => Option.some_ne_none observable hget.symm) hgone
      subscribed := iff_of_false List.not_mem_nil hgone }
  · cases hid
  · obtain ⟨item, hitem, hcreated⟩ := hbound.handed request hrequest
    refine ⟨{ item with stoppedSince := true }, ?_, hcreated⟩
    exact List.getElem?_map.trans (congrArg (Option.map _) hitem)

/-! ### Every run -/

theorem responsesBound_create (newUuid : Nat → Uuid) (options : CommunicationBindingOptions) :
    (create options : Observables Data).ResponsesBound newUuid where
  requests := requestsBound_create options
  items observable item h := by
    simp only [create, List.getElem?_nil, reduceCtorEq] at h
  owner id observable h := by
    simp only [create, Map.get_empty, reduceCtorEq] at h
  once := List.nodup_nil
  handed request h := by
    simp only [create, List.not_mem_nil] at h

variable [Json Data] {contextNames : List Text}

theorem step_responses (hnew : Function.Injective newUuid) (h : s.ResponsesBound newUuid) (event : Event Data) :
    (step contextNames newUuid s event).ResponsesBound newUuid ∧
      (s.Paired → ((step contextNames newUuid s event).Paired ↔ s.SubscribesBeforeStop event)) := by
  have hrequests : (step contextNames newUuid s event).RequestsBound := (step_spec h.requests event).1
  have hkept : ∀ {s' : Observables Data}, s'.ResponsesBound newUuid ∧ s'.handed = s.handed →
      s'.ResponsesBound newUuid ∧ (s.Paired → (s'.Paired ↔ True)) := by
    intro s' h'
    refine ⟨h'.1, fun hpaired => iff_true_intro ?_⟩
    rw [h'.1.paired_iff hnew, h'.2]
    exact hpaired.answerable
  have hsame : ∀ {s' : Observables Data}, s'.RequestsBound → SameResponses s s' →
      s'.ResponsesBound newUuid ∧ (s.Paired → (s'.Paired ↔ True)) :=
    fun hbound hresponses => hkept ⟨h.of_same hbound hresponses, hresponses.handed⟩
  cases event with
  | observe eventType eventTypeFilter =>
    exact hsame hrequests (sameResponses_observeRequest h.requests eventType eventTypeFilter)
  | subscribe observable => exact hsame hrequests (sameResponses_subscribeRequest s observable)
  | unsubscribe observable subscriber => exact hsame hrequests (sameResponses_unsubscribeRequest h.requests observable subscriber)
  | publish request =>
    rw [step] at hrequests ⊢
    cases hresponse : responseEventType request.eventType with
    | none =>
      rw [hresponse] at hrequests
      exact hsame hrequests ⟨rfl, rfl, rfl, s.binding.sameKeys_publish request⟩
    | some responseType =>
      rw [hresponse] at hrequests
      exact hkept ⟨h.observeResponse hnew request (mem_responseTypes hresponse) hrequests, rfl⟩
  | subscribeResponse observable =>
    rw [step]
    cases hitem : s.responseItems[observable]? with
    | none =>
      have hnone : s.subscribeResponse observable = .ok s := by rw [Observables.subscribeResponse, hitem]
      rw [hnone]
      refine ⟨h, fun hpaired => iff_of_true hpaired fun item hsome => ?_⟩
      rw [hitem] at hsome
      cases hsome
    | some item =>
      cases hleft : item.hasLastObserverUnsubscribed with
      | true =>
        have herror : s.subscribeResponse observable = .error .typeError := by
          rw [Observables.subscribeResponse, hitem]
          dsimp only
          rw [if_pos hleft]
        rw [herror]
        refine ⟨h, fun hpaired => iff_of_true hpaired fun other hother hzero => ?_⟩
        cases hitem.symm.trans hother
        have hcreated := ((h.items observable item hitem).left.mp hleft).1
        omega
      | false =>
        obtain ⟨s', hok, hbound, hhanded⟩ := h.subscribeResponse hitem hleft
        rw [hok]
        refine ⟨hbound, fun hpaired => ?_⟩
        dsimp only
        rw [hbound.paired_iff hnew, hhanded]
        refine ⟨fun hall other hother hzero => ?_, fun hbefore request hrequest => ?_⟩
        · cases hitem.symm.trans hother
          rw [if_pos hzero] at hall
          exact of_decide_eq_true (hall _ (List.mem_append_right _ (List.mem_singleton_self _))).1
        · rcases List.mem_append.mp hrequest with hrequest | hrequest
          · exact hpaired.answerable request hrequest
          · split at hrequest
            · rename_i hzero
              have hrunning := decide_eq_true (hbefore item hitem hzero)
              rw [List.mem_singleton.mp hrequest]
              exact ⟨hrunning, hrunning⟩
            · cases hrequest
  | unsubscribeResponse observable subscriber => exact hkept (h.unsubscribeResponse hnew observable subscriber)
  | inbound event => exact hkept ⟨h, rfl⟩
  | stop options => exact hkept (h.unjoinBinding hnew options)
  | start joinOptions =>
    rw [step] at hrequests ⊢
    split
    · rename_i hinitialized
      rw [if_pos hinitialized] at hrequests
      exact hsame hrequests (sameResponses_joinBinding h.requests contextNames joinOptions)
    · exact hkept ⟨h, rfl⟩
  | join joinOptions => exact hsame hrequests (sameResponses_joinBinding h.requests contextNames joinOptions)

/-- In a run requests are paired with their responses in every state exactly if no response observable is subscribed for the first time after a stop that came after its publication. -/
theorem paired_iff_subscribesBeforeStop (contextNames : List Text) (newUuid : Nat → Uuid)
    (hnew : Function.Injective newUuid) (options : CommunicationBindingOptions) (events : List (Event Data)) :
    (∀ n, ((events.take n).foldl (step contextNames newUuid) (create options)).Paired) ↔
      Along (step contextNames newUuid) SubscribesBeforeStop (create options) events := by
  have hbound : (create options : Observables Data).ResponsesBound newUuid := responsesBound_create newUuid options
  refine forall_take_iff_along (fun _ event h => (step_responses hnew h event).1)
    (fun _ event h hpaired => (step_responses hnew h event).2 hpaired) hbound ?_
  rw [hbound.paired_iff hnew]
  intro request hrequest
  exact absurd hrequest List.not_mem_nil

/-- Ids of growing length. -/
def tallyUuid (n : Nat) : Uuid := ⟨List.replicate (n + 1) 124, List.cons_ne_nil _ _⟩

theorem tallyUuid_injective : Function.Injective tallyUuid := by
  intro left right h
  have hlength := congrArg (fun id : Uuid => id.val.length) h
  simpa [tallyUuid] using hlength

/-- A request for any object. -/
def discover : CommunicationEventLike Text where
  eventType := .discover
  eventTypeFilter := none
  sourceId := none
  correlationId := none
  data := none
  isDataRaw := false
  isExternalIoRoute := false
  retain := none

theorem paired_iff_subscribesBeforeStop_discover :
    (∀ n, (([.publish discover, .subscribeResponse 0].take n).foldl (step [] tallyUuid) (create ⟨none, none⟩)).Paired) ↔
      Along (step [] tallyUuid) SubscribesBeforeStop (create ⟨none, none⟩) [.publish discover, .subscribeResponse 0] :=
  paired_iff_subscribesBeforeStop [] tallyUuid tallyUuid_injective ⟨none, none⟩ [.publish discover, .subscribeResponse 0]

/-- A request that is first subscribed after a stop goes out while nothing can receive its responses. -/
theorem not_paired_after_stop :
    ¬ ([.publish discover, .stop ⟨none, none⟩, .subscribeResponse 0].foldl (step [] tallyUuid)
      (create ⟨none, none⟩)).Paired := by
  intro h
  exact absurd (h.answerable ⟨0, false, false⟩ (List.mem_singleton_self _)).1 Bool.false_ne_true

end Observables

end Coaty
