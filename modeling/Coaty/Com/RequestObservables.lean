import Coaty.Model.IoNode
import Coaty.Com.Observables
import Coaty.Transition

/-!
# Request observables stay connected

A subscriber of a request observable gets events as long as its item is the one registered under the request id and the binding holds the subscription of the request. An observable whose last subscriber has left, or that was not subscribed when the manager was stopped, keeps an item that is registered no more. Subscribing to such an observable is the only way to get disconnected, and as long as nobody does, no clean-up takes anything away from a subscriber.
-/

namespace Coaty

open Js CommunicationEvent Transition

variable {Data : Type}

namespace MqttTopic

theorem eventLevel_eq (eventType : CommunicationEventType) (eventTypeFilter : Option Text) :
    eventLevel eventType eventTypeFilter = interpolate (getEventTopicLevelPrefix eventType) ++
      if eventTypeFilter.getD [] = [] then [] else eventTypeFilterSeparator :: eventTypeFilter.getD [] := by
  match eventTypeFilter with
  | none => exact (List.append_nil _).symm
  | some [] => exact (List.append_nil _).symm
  | some (c :: rest) => rfl

theorem getD_of_eventLevel_eq {eventType : CommunicationEventType} {left right : Option Text}
    (h : eventLevel eventType left = eventLevel eventType right) : left.getD [] = right.getD [] := by
  rw [eventLevel_eq, eventLevel_eq, List.append_cancel_left_eq] at h
  split at h <;> split at h
  · rename_i hleft hright
    rw [hleft, hright]
  · cases h
  · cases h
  · exact (List.cons.inj h).2

theorem eventLevel_of_getTopicFilter_eq {version : Nat} {messagingNamespace correlationId left right : Option Text}
    {eventType : CommunicationEventType}
    (h : getTopicFilter version messagingNamespace eventType left correlationId
      = getTopicFilter version messagingNamespace eventType right correlationId) :
    eventLevel eventType left = eventLevel eventType right := by
  rw [getTopicFilter, getTopicFilter] at h
  split at h
  · simpa using h
  · simpa using List.append_cancel_right h

end MqttTopic

namespace MqttBinding

theorem getTopicFilterFor_eq (b : MqttBinding Data) {eventLike : CommunicationEventLike Data}
    (hraw : eventLike.eventType ≠ .raw) (hioValue : eventLike.eventType ≠ .ioValue) :
    b.getTopicFilterFor eventLike
      = b.eventTopicFilter eventLike.eventType eventLike.eventTypeFilter eventLike.correlationId := by
  rw [getTopicFilterFor]
  split
  · exact absurd (by assumption) hraw
  · exact absurd (by assumption) hioValue
  · rfl

theorem acceptsSubscription_of_ne {eventLike : CommunicationEventLike Data}
    (hraw : eventLike.eventType ≠ .raw) (hioValue : eventLike.eventType ≠ .ioValue) :
    acceptsSubscription eventLike = true := by
  simp [acceptsSubscription, hraw, hioValue]

end MqttBinding

namespace ObservedRequestItem

variable {b : MqttBinding Data} {item other : ObservedRequestItem Data}

/-- Requests with one subscription have one id, and the binding takes both or none. -/
theorem of_subscriptionKey_eq
    (h : Session.subscriptionKey b item.eventLike = Session.subscriptionKey b other.eventLike) :
    item.requestId = other.requestId ∧
      (MqttBinding.acceptsSubscription other.eventLike = true → MqttBinding.acceptsSubscription item.eventLike = true) := by
  obtain ⟨⟨eventType, hrequest⟩, filter, _, _⟩ := item
  obtain ⟨⟨otherType, _⟩, otherFilter, _, _⟩ := other
  simp only [Session.subscriptionKey, eventLike, Prod.mk.injEq] at h
  obtain ⟨htype, hfilter⟩ := h
  subst htype
  by_cases hraw : eventType = .raw
  · subst hraw
    have hsame : filter.getD [] = otherFilter.getD [] := hfilter
    refine ⟨by simp only [requestId, getRequestId, hsame], fun haccepts => ?_⟩
    simp only [MqttBinding.acceptsSubscription, eventLike] at haccepts ⊢
    rw [hsame]
    cases filter with
    | none =>
      cases otherFilter with
      | none => exact haccepts
      | some otherFilter =>
        obtain rfl : [] = otherFilter := hsame
        exact haccepts
    | some filter =>
      cases otherFilter with
      | none => exact absurd haccepts (by decide)
      | some otherFilter =>
        obtain rfl : filter = otherFilter := hsame
        exact haccepts
  · have hother : eventType ≠ .ioValue := by
      intro heq
      subst heq
      exact absurd hrequest (by decide)
    refine ⟨?_, fun _ => MqttBinding.acceptsSubscription_of_ne hraw hother⟩
    rw [b.getTopicFilterFor_eq hraw hother, b.getTopicFilterFor_eq hraw hother] at hfilter
    have hlevel := MqttTopic.eventLevel_of_getTopicFilter_eq hfilter
    simp only [requestId, getRequestId, MqttTopic.getD_of_eventLevel_eq hlevel]

end ObservedRequestItem

namespace Observables

/-- The item of an observable is registered and its request is subscribed at the binding. -/
def Connected (s : Observables Data) (observable : Nat) (item : ObservedRequestItem Data) : Prop :=
  s.observedRequests.get item.requestId = some observable ∧
    Session.subscriptionKey s.binding item.eventLike ∈ s.binding.issuedKeys

/-- Every subscriber that has neither unsubscribed nor been completed belongs to a connected item. -/
def AllConnected (s : Observables Data) : Prop :=
  ∀ observable item, s.requestItems[observable]? = some item → item.item.subscribers ≠ [] → s.Connected observable item

/-- Subscriptions to request observables are made while the item of the observable is registered, and for requests that the binding subscribes. -/
def SubscribesRegistered (s : Observables Data) : Event Data → Prop
  | .subscribe observable => ∀ item, s.requestItems[observable]? = some item →
      s.observedRequests.get item.requestId = some observable ∧
        MqttBinding.acceptsSubscription item.eventLike = true
  | _ => True

/-- What holds of the registry and the binding after any events. -/
structure RequestsBound (s : Observables Data) : Prop where
  state : s.binding.state ≠ .unjoined
  nodup : s.binding.issuedKeys.Nodup
  registered : ∀ id observable, s.observedRequests.get id = some observable →
    ∃ item, s.requestItems[observable]? = some item ∧ item.requestId = id ∧
      (MqttBinding.acceptsSubscription item.eventLike = true →
        Session.subscriptionKey s.binding item.eventLike ∈ s.binding.issuedKeys)
  accepted : ∀ item : ObservedRequestItem Data, Session.subscriptionKey s.binding item.eventLike ∈ s.binding.issuedKeys →
    MqttBinding.acceptsSubscription item.eventLike = true
  responses : ∀ item ∈ s.responseItems, ¬ IsRequest item.responseType

variable {s s' : Observables Data}

/-! ### Events that do not concern requests -/

theorem RequestsBound.of_same (h : s.RequestsBound) (hitems : s'.requestItems = s.requestItems)
    (hregistry : s'.observedRequests = s.observedRequests) (hbinding : MqttBinding.SameKeys IsRequest s.binding s'.binding)
    (hresponses : ∀ item ∈ s'.responseItems, ¬ IsRequest item.responseType) : s'.RequestsBound where
  state := hbinding.state h.state
  nodup := hbinding.nodup h.nodup
  registered id observable hid := by
    obtain ⟨item, hitem, hrequestId, hissued⟩ := h.registered id observable (hregistry ▸ hid)
    refine ⟨item, hitems ▸ hitem, hrequestId, fun haccepts => ?_⟩
    rw [hbinding.subscriptionKey, hbinding.keys _ item.eventType.property]
    exact hissued haccepts
  accepted item hissued := by
    rw [hbinding.subscriptionKey, hbinding.keys _ item.eventType.property] at hissued
    exact h.accepted item hissued
  responses := hresponses

theorem AllConnected.of_same (h : s.AllConnected) (hitems : s'.requestItems = s.requestItems)
    (hregistry : s'.observedRequests = s.observedRequests) (hbinding : MqttBinding.SameKeys IsRequest s.binding s'.binding) :
    s'.AllConnected := by
  intro observable item hitem hlive
  obtain ⟨hregistered, hissued⟩ := h observable item (hitems ▸ hitem) hlive
  refine ⟨hregistry ▸ hregistered, ?_⟩
  rw [hbinding.subscriptionKey, hbinding.keys _ item.eventType.property]
  exact hissued

theorem responseType_not_request {eventType responseType : CommunicationEventType}
    (h : responseEventType eventType = some responseType) : ¬ IsRequest responseType := by
  cases eventType <;> cases h <;> decide

theorem RequestsBound.responses_set (h : s.RequestsBound) {observable : Nat} {item : ObservedResponseItem Data}
    (hitem : s.responseItems[observable]? = some item) (updated : ObservedResponseItem Data)
    (hsame : updated.responseType = item.responseType) :
    ∀ other ∈ s.responseItems.set observable updated, ¬ IsRequest other.responseType := by
  intro other hother
  rcases List.mem_or_eq_of_mem_set hother with hother | hother
  · exact h.responses other hother
  · rw [hother, hsame]
    exact h.responses item (List.mem_of_getElem? hitem)

theorem sameRequests_unsubscribeResponse (h : s.RequestsBound) (observable : Nat) (subscriber : Subscriber) :
    (s.unsubscribeResponse observable subscriber).requestItems = s.requestItems ∧
      (s.unsubscribeResponse observable subscriber).observedRequests = s.observedRequests ∧
      MqttBinding.SameKeys IsRequest s.binding (s.unsubscribeResponse observable subscriber).binding ∧
      ∀ item ∈ (s.unsubscribeResponse observable subscriber).responseItems, ¬ IsRequest item.responseType := by
  rw [unsubscribeResponse]
  cases hitem : s.responseItems[observable]? with
  | none => exact ⟨rfl, rfl, MqttBinding.SameKeys.refl _, h.responses⟩
  | some item =>
    have hset := h.responses_set hitem
    dsimp only
    split
    · split
      · split
        · exact ⟨rfl, rfl, MqttBinding.sameKeys_unsubscribe h.state h.nodup
            (h.responses item (List.mem_of_getElem? hitem)), hset _ rfl⟩
        · exact ⟨rfl, rfl, MqttBinding.SameKeys.refl _, hset _ rfl⟩
      · exact ⟨rfl, rfl, MqttBinding.SameKeys.refl _, hset _ rfl⟩
    · exact ⟨rfl, rfl, MqttBinding.SameKeys.refl _, h.responses⟩

theorem sameRequests_step (h : s.RequestsBound) [Json Data] (contextNames : List Text) (newUuid : Nat → Uuid)
    {event : Event Data} (hevent : (∃ request, event = .publish request) ∨ (∃ observable, event = .subscribeResponse observable) ∨
      (∃ observable subscriber, event = .unsubscribeResponse observable subscriber) ∨ ∃ inbound, event = .inbound inbound) :
    (step contextNames newUuid s event).requestItems = s.requestItems ∧
      (step contextNames newUuid s event).observedRequests = s.observedRequests ∧
      MqttBinding.SameKeys IsRequest s.binding (step contextNames newUuid s event).binding ∧
      ∀ item ∈ (step contextNames newUuid s event).responseItems, ¬ IsRequest item.responseType := by
  obtain ⟨request, rfl⟩ | ⟨observable, rfl⟩ | ⟨observable, subscriber, rfl⟩ | ⟨inbound, rfl⟩ := hevent
  · rw [step]
    cases hresponse : responseEventType request.eventType with
    | none => exact ⟨rfl, rfl, s.binding.sameKeys_publish request, h.responses⟩
    | some responseType =>
      have hnot := responseType_not_request hresponse
      refine ⟨rfl, rfl, MqttBinding.sameKeys_subscribe h.state h.nodup hnot, fun item hitem => ?_⟩
      rcases List.mem_append.mp hitem with hitem | hitem
      · exact h.responses item hitem
      · rw [List.mem_singleton.mp hitem]
        exact hnot
  · rw [step, subscribeResponse]
    cases hitem : s.responseItems[observable]? with
    | none => exact ⟨rfl, rfl, MqttBinding.SameKeys.refl _, h.responses⟩
    | some item =>
      have hset := h.responses_set hitem
      dsimp only
      split
      · rename_i hresult
        split at hresult
        · exact ⟨rfl, rfl, MqttBinding.SameKeys.refl _, h.responses⟩
        · split at hresult <;> cases hresult
      · rename_i hresult
        split at hresult
        · cases hresult
        · split at hresult
          · cases hresult
            exact ⟨rfl, rfl, s.binding.sameKeys_publish item.request, hset _ rfl⟩
          · cases hresult
            exact ⟨rfl, rfl, MqttBinding.SameKeys.refl _, hset _ rfl⟩
  · exact sameRequests_unsubscribeResponse h observable subscriber
  · exact ⟨rfl, rfl, MqttBinding.SameKeys.refl _, h.responses⟩

/-! ### Events of requests -/

/-- Changing the subscribers of an item. -/
def setRequestItem (s : Observables Data) (observable : Nat) (item : ObservedRequestItem Data) : Observables Data :=
  { s with requestItems := s.requestItems.set observable item }

theorem RequestsBound.setRequestItem (h : s.RequestsBound) {observable : Nat} {item updated : ObservedRequestItem Data}
    (hitem : s.requestItems[observable]? = some item) (htype : updated.eventType = item.eventType)
    (hfilter : updated.eventTypeFilter = item.eventTypeFilter) : (s.setRequestItem observable updated).RequestsBound where
  state := h.state
  nodup := h.nodup
  registered id other hid := by
    obtain ⟨listed, hlisted, hrequestId, hissued⟩ := h.registered id other hid
    have hget : (s.requestItems.set observable updated)[other]?
        = if other = observable then some updated else s.requestItems[other]? := getElem?_set_of_some hitem
    by_cases heq : other = observable
    · subst heq
      cases hitem.symm.trans hlisted
      have hsame : updated.requestId = item.requestId ∧ updated.eventLike = item.eventLike := by
        simp only [ObservedRequestItem.requestId, ObservedRequestItem.eventLike, htype, hfilter, and_self]
      rw [if_pos rfl] at hget
      refine ⟨updated, hget, hsame.1.trans hrequestId, ?_⟩
      rw [hsame.2]
      exact hissued
    · rw [if_neg heq] at hget
      exact ⟨listed, hget.trans hlisted, hrequestId, hissued⟩
  accepted := h.accepted
  responses := h.responses

theorem getElem?_setRequestItem {observable other : Nat} {item updated : ObservedRequestItem Data}
    (hitem : s.requestItems[observable]? = some item) :
    (s.setRequestItem observable updated).requestItems[other]?
      = if other = observable then some updated else s.requestItems[other]? :=
  getElem?_set_of_some hitem

theorem RequestsBound.subscribeRequest (h : s.RequestsBound) (observable : Nat) :
    (s.subscribeRequest observable).RequestsBound := by
  rw [Observables.subscribeRequest]
  split
  · exact h
  · rename_i item hitem
    exact h.setRequestItem hitem rfl rfl

theorem allConnected_subscribeRequest_iff (h : s.RequestsBound) (hconnected : s.AllConnected) (observable : Nat) :
    (s.subscribeRequest observable).AllConnected ↔ s.SubscribesRegistered (.subscribe observable) := by
  rw [Observables.subscribeRequest]
  cases hitem : s.requestItems[observable]? with
  | none =>
    refine ⟨fun _ item hsome => ?_, fun _ => hconnected⟩
    rw [hitem] at hsome
    cases hsome
  | some item =>
    have hget : ∀ other, (s.setRequestItem observable { item with item := item.item.add }).requestItems[other]?
        = if other = observable then some { item with item := item.item.add } else s.requestItems[other]? :=
      fun other => getElem?_setRequestItem hitem
    have hlive : item.item.add.subscribers ≠ [] := by simp [SubscriberItem.add]
    refine ⟨fun hall other hother => ?_, fun hregistered => ?_⟩
    · cases hitem.symm.trans hother
      have hself : (s.setRequestItem observable { item with item := item.item.add }).requestItems[observable]?
          = some { item with item := item.item.add } := by rw [hget, if_pos rfl]
      obtain ⟨hregistered, hissued⟩ := hall observable _ hself hlive
      exact ⟨hregistered, h.accepted item hissued⟩
    · obtain ⟨hregistered, haccepts⟩ := hregistered item hitem
      obtain ⟨listed, hlisted, _, hissued⟩ := h.registered _ _ hregistered
      cases hitem.symm.trans hlisted
      intro other otherItem hother hotherLive
      have hother' := (hget other).symm.trans hother
      split at hother'
      · rename_i heq
        cases hother'
        subst heq
        exact ⟨hregistered, hissued haccepts⟩
      · exact hconnected other otherItem hother' hotherLive

theorem unsubscribeRequest_spec (h : s.RequestsBound) (observable : Nat) (subscriber : Subscriber) :
    (s.unsubscribeRequest observable subscriber).RequestsBound ∧
      (s.AllConnected → (s.unsubscribeRequest observable subscriber).AllConnected) := by
  rw [unsubscribeRequest]
  cases hitem : s.requestItems[observable]? with
  | none => exact ⟨h, id⟩
  | some item =>
    dsimp only
    split
    · rename_i hsubscribed
      have hwas : item.item.subscribers ≠ [] := fun hnil => List.not_mem_nil (hnil ▸ hsubscribed)
      split
      · rename_i hlast
        set updated : ObservedRequestItem Data := { item with item := item.item.remove subscriber, cleanup := false }
        have hset : (s.setRequestItem observable updated).RequestsBound := h.setRequestItem hitem rfl rfl
        have hget : ∀ other, (s.setRequestItem observable updated).requestItems[other]?
            = if other = observable then some updated else s.requestItems[other]? :=
          fun other => getElem?_setRequestItem hitem
        obtain ⟨hsame, hnodup, hkeys⟩ := MqttBinding.unsubscribe_spec h.state h.nodup item.eventLike
        have hother : ∀ other : ObservedRequestItem Data, other.requestId ≠ item.requestId →
            Session.subscriptionKey s.binding other.eventLike ∈ s.binding.issuedKeys →
            Session.subscriptionKey (s.binding.unsubscribe item.eventLike) other.eventLike
              ∈ (s.binding.unsubscribe item.eventLike).issuedKeys := by
          intro other hne hissued
          rw [hsame.subscriptionKey, hkeys]
          exact ⟨hissued, fun heq => hne (ObservedRequestItem.of_subscriptionKey_eq heq).1⟩
        refine ⟨⟨hsame.state ▸ h.state, hnodup, fun id other hid => ?_, fun other hissued => ?_, h.responses⟩,
          fun hconnected other otherItem hotherItem hlive => ?_⟩
        · rw [Map.get_delete] at hid
          split at hid
          · cases hid
          · rename_i hne
            obtain ⟨listed, hlisted, hrequestId, hissued⟩ := hset.registered id other hid
            refine ⟨listed, hlisted, hrequestId, fun haccepts => ?_⟩
            exact hother listed (hrequestId ▸ hne) (hissued haccepts)
        · rw [hsame.subscriptionKey, hkeys] at hissued
          exact h.accepted other hissued.1
        · have hcase := (hget other).symm.trans hotherItem
          split at hcase
          · cases hcase
            exact absurd (List.length_eq_zero_iff.mp hlast.1) hlive
          · rename_i hne
            obtain ⟨hregistered, hissued⟩ := hconnected other otherItem hcase hlive
            have hrequestId : otherItem.requestId ≠ item.requestId := by
              intro heq
              rw [heq, (hconnected observable item hitem hwas).1] at hregistered
              exact hne (Option.some.inj hregistered).symm
            refine ⟨?_, hother otherItem hrequestId hissued⟩
            show (s.observedRequests.delete item.requestId).get otherItem.requestId = some other
            rw [Map.get_delete, if_neg hrequestId]
            exact hregistered
      · set updated : ObservedRequestItem Data := { item with item := item.item.remove subscriber }
        have hset : (s.setRequestItem observable updated).RequestsBound := h.setRequestItem hitem rfl rfl
        refine ⟨hset, fun hconnected other otherItem hotherItem hlive => ?_⟩
        have hcase := (getElem?_setRequestItem hitem).symm.trans hotherItem
        split at hcase
        · rename_i heq
          cases hcase
          subst heq
          exact hconnected other item hitem hwas
        · exact hconnected other otherItem hcase hlive
    · exact ⟨h, id⟩

theorem observeRequest_spec (h : s.RequestsBound) (eventType : RequestType) (eventTypeFilter : Option Text) :
    (s.observeRequest eventType eventTypeFilter).RequestsBound ∧
      (s.AllConnected → (s.observeRequest eventType eventTypeFilter).AllConnected) ∧
      ∃ observable item, (s.observeRequest eventType eventTypeFilter).observableOf eventType eventTypeFilter
          = some observable ∧
        (s.observeRequest eventType eventTypeFilter).requestItems[observable]? = some item ∧
        item.requestId = getRequestId eventType.val eventTypeFilter := by
  rw [observeRequest]
  dsimp only
  cases hregistered : s.observedRequests.get (getRequestId eventType.val eventTypeFilter) with
  | some observable =>
    obtain ⟨item, hitem, hrequestId, _⟩ := h.registered _ _ hregistered
    exact ⟨h, id, observable, item, hregistered, hitem, hrequestId⟩
  | none =>
    dsimp only
    set item : ObservedRequestItem Data := ⟨eventType, eventTypeFilter, SubscriberItem.empty 0, true⟩
    have hget : ∀ other, (s.requestItems ++ [item])[other]?
        = if other = s.requestItems.length then some item else s.requestItems[other]? := by
      intro other
      by_cases heq : other = s.requestItems.length
      · rw [if_pos heq, heq, List.getElem?_concat_length]
      · rw [if_neg heq]
        by_cases hlt : other < s.requestItems.length
        · exact List.getElem?_append_left hlt
        · rw [List.getElem?_eq_none (by simp; omega), List.getElem?_eq_none (by omega)]
    obtain ⟨hsame, hnodup, hkeys⟩ := MqttBinding.subscribe_spec h.state h.nodup item.eventLike
    have hkept : ∀ other : ObservedRequestItem Data,
        Session.subscriptionKey s.binding other.eventLike ∈ s.binding.issuedKeys →
        Session.subscriptionKey (s.binding.subscribe item.eventLike) other.eventLike
          ∈ (s.binding.subscribe item.eventLike).issuedKeys := by
      intro other hissued
      rw [hsame.subscriptionKey, hkeys]
      exact Or.inl hissued
    refine ⟨⟨hsame.state ▸ h.state, hnodup, fun id other hid => ?_, fun other hissued => ?_, h.responses⟩,
      fun hconnected other otherItem hotherItem hlive => ?_, s.requestItems.length, item, ?_, ?_, rfl⟩
    · rw [Map.get_set] at hid
      split at hid
      · rename_i heq
        cases hid
        refine ⟨item, by rw [hget, if_pos rfl], heq.symm, fun haccepts => ?_⟩
        rw [hsame.subscriptionKey, hkeys]
        exact Or.inr ⟨haccepts, rfl⟩
      · obtain ⟨listed, hlisted, hrequestId, hissued⟩ := h.registered id other hid
        refine ⟨listed, ?_, hrequestId, fun haccepts => hkept listed (hissued haccepts)⟩
        rw [hget, if_neg (Nat.ne_of_lt (List.getElem?_eq_some_iff.mp hlisted).1)]
        exact hlisted
    · rw [hsame.subscriptionKey, hkeys] at hissued
      rcases hissued with hissued | ⟨haccepts, hkey⟩
      · exact h.accepted other hissued
      · exact (ObservedRequestItem.of_subscriptionKey_eq hkey).2 haccepts
    · have hcase := (hget other).symm.trans hotherItem
      split at hcase
      · cases hcase
        exact absurd rfl hlive
      · obtain ⟨hregistered', hissued⟩ := hconnected other otherItem hcase hlive
        refine ⟨?_, hkept otherItem hissued⟩
        show (s.observedRequests.set _ s.requestItems.length).get otherItem.requestId = some other
        rw [Map.get_set, if_neg ?_]
        · exact hregistered'
        · intro heq
          rw [heq, hregistered] at hregistered'
          cases hregistered'
    · show (s.observedRequests.set _ s.requestItems.length).get _ = _
      rw [Map.get_set, if_pos rfl]
    · rw [hget, if_pos rfl]

/-- No name of an event type is continued by another one. -/
theorem typeName_append_inj {left right : CommunicationEventType} {more more' : Text}
    (h : typeName left ++ more = typeName right ++ more') : left = right := by
  have hfree : ∀ left right, typeName left <+: typeName right → left = right := by
    intro left right
    cases left <;> cases right <;> decide
  have hleft : typeName left <+: typeName left ++ more := List.prefix_append _ _
  have hright : typeName right <+: typeName left ++ more := h ▸ List.prefix_append _ _
  rcases List.prefix_or_prefix_of_prefix hleft hright with hprefix | hprefix
  · exact hfree left right hprefix
  · exact (hfree right left hprefix).symm

theorem observeAndSubscribe_spec (h : s.RequestsBound) (eventType : RequestType) (eventTypeFilter : Option Text)
    (hraw : eventType.val ≠ .raw) :
    (s.observeAndSubscribe eventType eventTypeFilter).RequestsBound ∧
      (s.AllConnected → (s.observeAndSubscribe eventType eventTypeFilter).AllConnected) := by
  obtain ⟨hbound, hconnected, observable, item, hobservable, hitem, hrequestId⟩ :=
    observeRequest_spec h eventType eventTypeFilter
  rw [observeAndSubscribe, hobservable]
  refine ⟨hbound.subscribeRequest observable, fun hall => ?_⟩
  rw [allConnected_subscribeRequest_iff hbound (hconnected hall)]
  intro other hother
  cases hitem.symm.trans hother
  refine ⟨?_, MqttBinding.acceptsSubscription_of_ne ?_ ?_⟩
  · rw [hrequestId]
    exact hobservable
  · rwa [show item.eventLike.eventType = eventType.val from typeName_append_inj hrequestId]
  · intro heq
    have hrequest := item.eventType.property
    rw [show item.eventType.val = .ioValue from heq] at hrequest
    exact absurd hrequest (by decide)

theorem joinBinding_spec (h : s.RequestsBound) (contextNames : List Text)
    (joinOptions : CommunicationBindingJoinOptions Data) :
    (s.joinBinding contextNames joinOptions).RequestsBound ∧
      (s.AllConnected → (s.joinBinding contextNames joinOptions).AllConnected) := by
  have hsame : MqttBinding.SameKeys IsRequest s.binding (s.binding.join joinOptions) := s.binding.sameKeys_join joinOptions
  have hjoined : ({ s with binding := s.binding.join joinOptions } : Observables Data).RequestsBound ∧
      (s.AllConnected → ({ s with binding := s.binding.join joinOptions } : Observables Data).AllConnected) :=
    ⟨h.of_same rfl rfl hsame h.responses, fun hall => hall.of_same rfl rfl hsame⟩
  have hcontexts : ∀ {s : Observables Data}, s.RequestsBound →
      (contextNames.foldl (fun s name => s.observeAndSubscribe .associate (some name)) s).RequestsBound ∧
        (s.AllConnected → (contextNames.foldl
          (fun s name => s.observeAndSubscribe .associate (some name)) s).AllConnected) := by
    induction contextNames with
    | nil => exact fun h => ⟨h, id⟩
    | cons name contextNames ih =>
      intro s h
      obtain ⟨hbound, hall⟩ := observeAndSubscribe_spec h .associate (some name) (by decide)
      exact ⟨(ih hbound).1, (ih hbound).2 ∘ hall⟩
  obtain ⟨hbound, hall⟩ := hcontexts hjoined.1
  rw [joinBinding]
  split
  · obtain ⟨hlast, hlastAll⟩ := observeAndSubscribe_spec hbound .discover none (by decide)
    exact ⟨hlast, hlastAll ∘ hall ∘ hjoined.2⟩
  · obtain ⟨hnodes, hnodesAll⟩ := observeAndSubscribe_spec hbound .discover none (by decide)
    obtain ⟨hlast, hlastAll⟩ := observeAndSubscribe_spec hnodes .discover none (by decide)
    exact ⟨hlast, hlastAll ∘ hnodesAll ∘ hall ∘ hjoined.2⟩

/-! ### Stopping -/

def subscribersAt (s : Observables Data) (observable : Nat) : Option (List Subscriber) :=
  s.requestItems[observable]?.map fun item => item.item.subscribers

theorem subscribersAt_unsubscribeRequest (s : Observables Data) (observable other : Nat) (subscriber : Subscriber) :
    (s.unsubscribeRequest observable subscriber).subscribersAt other
      = if other = observable then (s.subscribersAt other).map (List.erase · subscriber) else s.subscribersAt other := by
  rw [unsubscribeRequest]
  cases hitem : s.requestItems[observable]? with
  | none =>
    dsimp only
    split
    · rename_i heq
      rw [subscribersAt, heq, hitem]
      rfl
    · rfl
  | some item =>
    have hset : ∀ updated : ObservedRequestItem Data, updated.item.subscribers = item.item.subscribers.erase subscriber →
        (s.setRequestItem observable updated).subscribersAt other
          = if other = observable then (s.subscribersAt other).map (List.erase · subscriber) else s.subscribersAt other := by
      intro updated herase
      rw [subscribersAt, getElem?_setRequestItem hitem, subscribersAt]
      split
      · rename_i heq
        rw [heq, hitem, Option.map_some, Option.map_some, Option.map_some, herase]
      · rfl
    dsimp only
    split
    · split
      · exact hset _ rfl
      · exact hset _ rfl
    · rename_i hnot
      split
      · rename_i heq
        rw [subscribersAt, heq, hitem, Option.map_some, Option.map_some, List.erase_of_not_mem hnot]
      · rfl

theorem subscribersAt_foldl (s : Observables Data) (observable other : Nat) (subscribers : List Subscriber) :
    (subscribers.foldl (fun s subscriber => s.unsubscribeRequest observable subscriber) s).subscribersAt other
      = if other = observable then (s.subscribersAt other).map (List.diff · subscribers) else s.subscribersAt other := by
  induction subscribers generalizing s with
  | nil => simp [List.diff_nil]
  | cons subscriber subscribers ih =>
    rw [List.foldl_cons, ih, subscribersAt_unsubscribeRequest]
    split
    · rw [Option.map_map]
      congr 1
      funext listed
      exact (List.diff_cons listed subscribers subscriber).symm
    · rfl

theorem subscribersAt_completeRequest (s : Observables Data) (observable other : Nat) :
    (s.completeRequest observable).subscribersAt other
      = if other = observable then (s.subscribersAt other).map fun _ => [] else s.subscribersAt other := by
  rw [completeRequest]
  cases hitem : s.requestItems[observable]? with
  | none =>
    dsimp only
    split
    · rename_i heq
      rw [subscribersAt, heq, hitem]
      rfl
    · rfl
  | some item =>
    dsimp only
    rw [subscribersAt_foldl]
    split
    · rename_i heq
      rw [subscribersAt, heq, hitem, Option.map_some, Option.map_some, Option.map_some]
      have hempty : item.item.subscribers.diff item.item.subscribers.reverse = [] := by
        rw [List.eq_nil_iff_forall_not_mem]
        intro subscriber hmem
        rw [item.item.nodup.mem_sdiff_iff, List.mem_reverse] at hmem
        exact hmem.2 hmem.1
      rw [hempty]
    · rfl

theorem subscribersAt_foldl_completeRequest (observables : List Nat) (s : Observables Data) (other : Nat) :
    (observables.foldl completeRequest s).subscribersAt other
      = if other ∈ observables then (s.subscribersAt other).map fun _ => [] else s.subscribersAt other := by
  induction observables generalizing s with
  | nil => simp
  | cons observable observables ih =>
    rw [List.foldl_cons, ih, subscribersAt_completeRequest]
    by_cases heq : other = observable
    · simp [heq, Function.comp_def]
    · simp [heq]

theorem completeRequest_spec (h : s.RequestsBound) (observable : Nat) : (s.completeRequest observable).RequestsBound := by
  rw [completeRequest]
  split
  · exact h
  · exact invariant_foldl (fun s subscriber h => (unsubscribeRequest_spec h observable subscriber).1) h

theorem completeResponse_spec (h : s.RequestsBound) (observable : Nat) :
    (s.completeResponse observable).RequestsBound ∧ (s.completeResponse observable).requestItems = s.requestItems := by
  rw [completeResponse]
  split
  · exact ⟨h, rfl⟩
  · refine invariant_foldl (I := fun s' : Observables Data => s'.RequestsBound ∧ s'.requestItems = s.requestItems)
      (fun s' subscriber h => ?_) ⟨h, rfl⟩
    obtain ⟨hitems, hregistry, hbinding, hresponses⟩ := sameRequests_unsubscribeResponse h.1 observable subscriber
    exact ⟨h.1.of_same hitems hregistry hbinding hresponses, hitems.trans h.2⟩

theorem unjoinBinding_spec (h : s.RequestsBound) (options : CommunicationBindingOptions) :
    (s.unjoinBinding options).RequestsBound ∧ (s.AllConnected → (s.unjoinBinding options).AllConnected) := by
  have hrequests : (s.observedRequests.values.foldl completeRequest s).RequestsBound :=
    invariant_foldl (fun s observable h => completeRequest_spec h observable) h
  have hresponses : ∀ {s : Observables Data} (observables : List Nat), s.RequestsBound →
      (observables.foldl completeResponse s).RequestsBound ∧
        (observables.foldl completeResponse s).requestItems = s.requestItems := by
    intro s observables h
    refine invariant_foldl (I := fun s' : Observables Data => s'.RequestsBound ∧ s'.requestItems = s.requestItems)
      (fun s' observable h => ?_) ⟨h, rfl⟩
    obtain ⟨hbound, hitems⟩ := completeResponse_spec h.1 observable
    exact ⟨hbound, hitems.trans h.2⟩
  obtain ⟨hbound, hitems⟩ := hresponses
    (s.observedRequests.values.foldl completeRequest s).observedResponses.values hrequests
  have hstopped : ∀ item ∈ (s.unjoinBinding options).responseItems, ¬ IsRequest item.responseType := by
    intro item hitem
    obtain ⟨before, hbefore, rfl⟩ := List.mem_map.mp hitem
    exact hbound.responses before hbefore
  refine ⟨⟨nofun, List.nodup_nil, nofun, nofun, hstopped⟩, fun hconnected observable item hitem hlive => ?_⟩
  have hsubscribers : (s.observedRequests.values.foldl completeRequest s).subscribersAt observable
      = some item.item.subscribers := by
    rw [subscribersAt, ← hitems]
    exact congrArg (Option.map _) hitem
  rw [subscribersAt_foldl_completeRequest] at hsubscribers
  split at hsubscribers
  · obtain ⟨_, _, hnil⟩ := Option.map_eq_some_iff.mp hsubscribers
    exact absurd hnil.symm hlive
  · rename_i hnot
    obtain ⟨before, hbefore, hsame⟩ := Option.map_eq_some_iff.mp hsubscribers
    obtain ⟨hregistered, _⟩ := hconnected observable before hbefore (hsame ▸ hlive)
    exact absurd (Map.mem_values.mpr ⟨_, hregistered⟩) hnot

/-! ### Every run -/

theorem requestsBound_create (options : CommunicationBindingOptions) :
    (create options : Observables Data).RequestsBound where
  state := nofun
  nodup := List.nodup_nil
  registered id observable h := by
    simp only [create, Map.get_empty, reduceCtorEq] at h
  accepted item h := by
    have hnone : (MqttBinding.create options : MqttBinding Data).issuedKeys = [] := rfl
    simp only [create, hnone, List.not_mem_nil] at h
  responses item h := by
    simp only [create, List.not_mem_nil] at h

variable [Json Data] {contextNames : List Text} {newUuid : Nat → Uuid}

theorem step_spec (h : s.RequestsBound) (event : Event Data) :
    (step contextNames newUuid s event).RequestsBound ∧
      (s.AllConnected → ((step contextNames newUuid s event).AllConnected ↔ s.SubscribesRegistered event)) := by
  have hkept : ∀ {s' : Observables Data}, s'.RequestsBound ∧ (s.AllConnected → s'.AllConnected) →
      s'.RequestsBound ∧ (s.AllConnected → (s'.AllConnected ↔ True)) :=
    fun hspec => ⟨hspec.1, fun hall => iff_true_intro (hspec.2 hall)⟩
  have hother : ∀ {event : Event Data}, (∃ request, event = .publish request) ∨
      (∃ observable, event = .subscribeResponse observable) ∨
      (∃ observable subscriber, event = .unsubscribeResponse observable subscriber) ∨
      (∃ inbound, event = .inbound inbound) → (step contextNames newUuid s event).RequestsBound ∧
        (s.AllConnected → ((step contextNames newUuid s event).AllConnected ↔ True)) := by
    intro event hevent
    obtain ⟨hitems, hregistry, hbinding, hresponses⟩ := sameRequests_step h contextNames newUuid hevent
    exact hkept ⟨h.of_same hitems hregistry hbinding hresponses, fun hall => hall.of_same hitems hregistry hbinding⟩
  cases event with
  | observe eventType eventTypeFilter =>
    have hspec := observeRequest_spec h eventType eventTypeFilter
    exact hkept ⟨hspec.1, hspec.2.1⟩
  | subscribe observable =>
    exact ⟨h.subscribeRequest observable, fun hall => allConnected_subscribeRequest_iff h hall observable⟩
  | unsubscribe observable subscriber => exact hkept (unsubscribeRequest_spec h observable subscriber)
  | publish request => exact hother (Or.inl ⟨request, rfl⟩)
  | subscribeResponse observable => exact hother (Or.inr (Or.inl ⟨observable, rfl⟩))
  | unsubscribeResponse observable subscriber =>
    exact hother (Or.inr (Or.inr (Or.inl ⟨observable, subscriber, rfl⟩)))
  | inbound event => exact hother (Or.inr (Or.inr (Or.inr ⟨event, rfl⟩)))
  | stop options => exact hkept (unjoinBinding_spec h options)
  | start joinOptions =>
    apply hkept
    rw [step]
    split
    · exact joinBinding_spec h contextNames joinOptions
    · exact ⟨h, id⟩
  | join joinOptions => exact hkept (joinBinding_spec h contextNames joinOptions)

/-- In a run all subscribers are connected in every state exactly if each subscription is made to an observable whose item is registered, and for a request that the binding subscribes. -/
theorem allConnected_iff (contextNames : List Text) (newUuid : Nat → Uuid) (options : CommunicationBindingOptions)
    (events : List (Event Data)) :
    (∀ n, ((events.take n).foldl (step contextNames newUuid) (create options)).AllConnected) ↔
      Along (step contextNames newUuid) SubscribesRegistered (create options) events :=
  forall_take_iff_along (fun _ event h => (step_spec h event).1) (fun _ event h hall => (step_spec h event).2 hall)
    (requestsBound_create options) nofun

/-- The observable of Discover requests. -/
def observeDiscover : Event Text := .observe .discover none

/-- A subscriber that comes after the last one has left is not connected, and by leaving disconnects the subscribers of a newer observable of the same request. -/
theorem not_allConnected_of_resubscription :
    (let s := [observeDiscover, .subscribe 0, .unsubscribe 0 0, .subscribe 0].foldl
        (step [] fun _ => thermometerId) (create ⟨none, none⟩)
     ¬ s.AllConnected) ∧
      let s := [observeDiscover, .stop ⟨none, none⟩, observeDiscover, .subscribe 1, .subscribe 0, .unsubscribe 0 0].foldl
        (step [] fun _ => thermometerId) (create ⟨none, none⟩)
      ¬ s.AllConnected := by
  refine ⟨fun h => ?_, fun h => ?_⟩
  · have hregistered : none = some 0 := (h 0 _ rfl (List.cons_ne_nil _ _)).1
    exact absurd hregistered (by decide)
  · have hregistered : none = some 1 := (h 1 _ rfl (List.cons_ne_nil _ _)).1
    exact absurd hregistered (by decide)

end Observables

end Coaty
