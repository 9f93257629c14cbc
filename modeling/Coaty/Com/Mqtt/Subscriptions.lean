import Coaty.Com.Mqtt.Session
import Coaty.Com.Mqtt.TopicSelection
import Coaty.Js.Array

/-!
# The broker mirrors the issued subscriptions

Subscriptions are issued under an event type and a topic filter, the broker only knows filters. Two issued items can share a filter only if one is Raw and the other is IoValue, so a filter may be given up exactly when no item of the other of these two types is left. What the binding passes to the client is collected in an object with the filters as property names, and there the name `__proto__` gets lost: the broker never holds that filter, and otherwise it holds exactly the issued ones.
-/

namespace Coaty

open Js Transition

namespace MqttBinding

variable {Data : Type} (b : MqttBinding Data)

def protoName : Text := text "__proto__"

/-! ### Issued items and their filters -/

/-- The filters that can occur for the event types with a topic level, for a fixed namespace option. -/
def eventTopicFilter (eventType : CommunicationEventType) (eventTypeFilter correlationId : Option Text) : Text :=
  MqttTopic.getTopicFilter apiVersion.val
    (if b.shouldEnableCrossNamespacing then none else some b.messagingNamespace) eventType eventTypeFilter
    correlationId

def FilterShape (eventType : CommunicationEventType) (topicFilter : Text) : Prop :=
  match eventType with
  | .raw => MqttTopic.isCoatyTopicLike topicFilter = false
  | .ioValue => unit '+' ∉ topicFilter
  | eventType => MqttTopic.HasTopicLevel eventType ∧
      ∃ eventTypeFilter correlationId, topicFilter = b.eventTopicFilter eventType eventTypeFilter correlationId

theorem isCoatyTopicLike_eventTopicFilter (eventType : CommunicationEventType)
    (eventTypeFilter correlationId : Option Text) :
    MqttTopic.isCoatyTopicLike (b.eventTopicFilter eventType eventTypeFilter correlationId) = true := by
  have hfront : MqttTopic.protocolNamePrefix
      = MqttTopic.protocolName ++ [MqttTopic.levelSeparator] := by decide
  rw [MqttTopic.isCoatyTopicLike, Text.startsWith_iff, hfront, eventTopicFilter, MqttTopic.getTopicFilter]
  split
  · exact ⟨_, by rw [List.append_assoc]; rfl⟩
  · exact ⟨_, by rw [List.append_assoc, List.append_assoc]; rfl⟩

theorem plus_mem_eventTopicFilter (eventType : CommunicationEventType)
    (eventTypeFilter correlationId : Option Text) :
    unit '+' ∈ b.eventTopicFilter eventType eventTypeFilter correlationId := by
  have hplus : unit '+' ∈ text "+" := by decide
  rw [eventTopicFilter, MqttTopic.getTopicFilter]
  split <;> simp [hplus]

theorem prefix_length {eventType : CommunicationEventType} (h : MqttTopic.HasTopicLevel eventType) :
    (interpolate (MqttTopic.getEventTopicLevelPrefix eventType)).length = 3 := by
  revert h
  cases eventType <;> decide

theorem eventLevel_front (eventType : CommunicationEventType) (eventTypeFilter : Option Text) :
    ∃ rest, MqttTopic.eventLevel eventType eventTypeFilter
      = interpolate (MqttTopic.getEventTopicLevelPrefix eventType) ++ rest := by
  match eventTypeFilter with
  | none => exact ⟨[], (List.append_nil _).symm⟩
  | some [] => exact ⟨[], (List.append_nil _).symm⟩
  | some (c :: rest) => exact ⟨_, MqttTopic.eventLevel_some eventType (by simp)⟩

theorem eventTopicFilter_front (eventType : CommunicationEventType)
    (eventTypeFilter correlationId : Option Text) :
    ∃ rest, b.eventTopicFilter eventType eventTypeFilter correlationId
      = (MqttTopic.protocolName ++ MqttTopic.levelSeparator :: (numberToString apiVersion.val ++
          MqttTopic.levelSeparator :: (orElse (if b.shouldEnableCrossNamespacing then none
            else some b.messagingNamespace) (text "+") ++ [MqttTopic.levelSeparator]))) ++
        (interpolate (MqttTopic.getEventTopicLevelPrefix eventType) ++ rest) := by
  obtain ⟨rest, hrest⟩ := eventLevel_front eventType eventTypeFilter
  rw [eventTopicFilter, MqttTopic.getTopicFilter, hrest]
  split
  · exact ⟨rest ++ MqttTopic.levelSeparator :: text "+", by simp only [List.append_assoc, List.cons_append,
      List.nil_append]⟩
  · exact ⟨rest ++ MqttTopic.levelSeparator :: (text "+" ++ MqttTopic.levelSeparator ::
      orElse correlationId (text "+")), by simp only [List.append_assoc, List.cons_append, List.nil_append]⟩

theorem eventTopicFilter_eventType {left right : CommunicationEventType} {f c f' c' : Option Text}
    (hleft : MqttTopic.HasTopicLevel left) (hright : MqttTopic.HasTopicLevel right)
    (h : b.eventTopicFilter left f c = b.eventTopicFilter right f' c') : left = right := by
  obtain ⟨rest, hrest⟩ := b.eventTopicFilter_front left f c
  obtain ⟨rest', hrest'⟩ := b.eventTopicFilter_front right f' c'
  rw [hrest, hrest', List.append_cancel_left_eq] at h
  have hfront := List.append_inj_left h (by rw [prefix_length hleft, prefix_length hright])
  rcases (MqttTopic.prefix_eq_iff left right).mp hfront with heq | ⟨hnone, -⟩
  · exact heq
  · exact absurd hleft hnone

/-- Only a Raw and an IoValue subscription can share a filter. -/
theorem otherEventType_of_shared {left right : CommunicationEventType} {topicFilter : Text}
    (hleft : b.FilterShape left topicFilter) (hright : b.FilterShape right topicFilter) (hne : left ≠ right) :
    otherEventType left = some right := by
  have hcoaty : ∀ {eventType f c}, topicFilter = b.eventTopicFilter eventType f c →
      MqttTopic.isCoatyTopicLike topicFilter = true ∧ unit '+' ∈ topicFilter := by
    rintro eventType f c rfl
    exact ⟨b.isCoatyTopicLike_eventTopicFilter eventType f c, b.plus_mem_eventTopicFilter eventType f c⟩
  have hpair : (left = .raw ∧ right = .ioValue) ∨ (left = .ioValue ∧ right = .raw) ∨
      (otherEventType left = none ∧ otherEventType right = none) ∨
      (otherEventType left ≠ none ∧ otherEventType right = none) ∨
      (otherEventType left = none ∧ otherEventType right ≠ none) := by
    revert hne
    cases left <;> cases right <;> decide
  have hother : ∀ {eventType}, otherEventType eventType = none → b.FilterShape eventType topicFilter →
      MqttTopic.HasTopicLevel eventType ∧ ∃ f c, topicFilter = b.eventTopicFilter eventType f c := by
    intro eventType hnone hshape
    cases eventType <;> first | exact hshape | simp [otherEventType] at hnone
  have hshared : ∀ {eventType}, otherEventType eventType ≠ none → b.FilterShape eventType topicFilter →
      MqttTopic.isCoatyTopicLike topicFilter = false ∨ unit '+' ∉ topicFilter := by
    intro eventType hsome hshape
    cases eventType <;> first | exact Or.inl hshape | exact Or.inr hshape | simp [otherEventType] at hsome
  rcases hpair with ⟨rfl, rfl⟩ | ⟨rfl, rfl⟩ | ⟨hl, hr⟩ | ⟨hl, hr⟩ | ⟨hl, hr⟩
  · rfl
  · rfl
  · obtain ⟨hlevel, f, c, hf⟩ := hother hl hleft
    obtain ⟨hlevel', f', c', hf'⟩ := hother hr hright
    exact absurd (b.eventTopicFilter_eventType hlevel hlevel' (hf ▸ hf')) hne
  · obtain ⟨-, f, c, hf⟩ := hother hr hright
    have hboth := hcoaty hf
    rcases hshared hl hleft with h | h
    · rw [hboth.1] at h
      cases h
    · exact absurd hboth.2 h
  · obtain ⟨-, f, c, hf⟩ := hother hl hleft
    have hboth := hcoaty hf
    rcases hshared hr hright with h | h
    · rw [hboth.1] at h
      cases h
    · exact absurd hboth.2 h

theorem filterShape_of_accepts {eventLike : CommunicationEventLike Data}
    (haccepts : acceptsSubscription eventLike = true) (hsub : Session.IsSubscribable eventLike.eventType) :
    b.FilterShape eventLike.eventType (b.getTopicFilterFor eventLike) := by
  rw [acceptsSubscription, Bool.and_eq_true, Bool.not_eq_true', Bool.not_eq_true',
    Bool.and_eq_false_imp, Bool.and_eq_false_imp] at haccepts
  obtain ⟨hraw, hio⟩ := haccepts
  rw [getTopicFilterFor]
  cases htype : eventLike.eventType <;> rw [htype] at hraw hio hsub
  case raw =>
    have := hraw (by decide)
    rw [Bool.or_eq_false_iff] at this
    exact this.1
  case ioValue =>
    have := hio (by decide)
    rw [Bool.or_eq_false_iff, Bool.not_eq_false'] at this
    have hvalid := this.2
    cases hfilter : eventLike.eventTypeFilter with
    | none =>
      rw [hfilter] at hvalid
      cases hvalid
    | some topic =>
      rw [hfilter] at hvalid
      exact fun hplus => absurd hplus (MqttTopic.not_mem_of_isValidTopic (by decide) hvalid)
  all_goals
    rcases hsub with h | h
    · cases h
    · exact ⟨h, _, _, rfl⟩

/-! ### What the operations on subscriptions do -/

theorem filterShape_congr {b b' : MqttBinding Data} (hnamespace : b'.messagingNamespace = b.messagingNamespace)
    (hcross : b'.shouldEnableCrossNamespacing = b.shouldEnableCrossNamespacing)
    (eventType : CommunicationEventType) (topicFilter : Text) :
    b'.FilterShape eventType topicFilter ↔ b.FilterShape eventType topicFilter := by
  have hfilter : b'.eventTopicFilter = b.eventTopicFilter := by
    funext eventType eventTypeFilter correlationId
    rw [eventTopicFilter, eventTopicFilter, hnamespace, hcross]
  cases eventType <;> simp only [FilterShape, hfilter]

/-- An object with topic filters as property names has all of them but `__proto__`. -/
theorem mem_subsMap (items : List SubscriptionItem) (topicFilter : Text) :
    topicFilter ∈ (subsMap items).keys ↔
      topicFilter ≠ protoName ∧ ∃ item ∈ items, item.topicFilter = topicFilter := by
  have hassign : ∀ (object : Map Text Unit) (name : Text), topicFilter ∈ (assign object name ()).keys ↔
      topicFilter ∈ object.keys ∨ (topicFilter ≠ protoName ∧ name = topicFilter) := by
    intro object name
    rw [assign, show text "__proto__" = protoName from rfl]
    by_cases hproto : name = protoName
    · rw [if_pos hproto]
      refine ⟨Or.inl, fun h => h.resolve_right ?_⟩
      rintro ⟨hne, rfl⟩
      exact hne hproto
    · rw [if_neg hproto, Map.mem_keys, Map.mem_keys]
      simp only [Map.get_set]
      by_cases heq : topicFilter = name
      · subst heq
        simp [hproto]
      · simp [heq, Ne.symm heq]
  have hfold : ∀ object : Map Text Unit,
      topicFilter ∈ (items.foldl (fun object item => assign object item.topicFilter ()) object).keys ↔
        topicFilter ∈ object.keys ∨
          (topicFilter ≠ protoName ∧ ∃ item ∈ items, item.topicFilter = topicFilter) := by
    induction items with
    | nil => simp
    | cons item items ih =>
      intro object
      rw [List.foldl_cons, ih, hassign, or_assoc, ← and_or_left]
      simp only [List.mem_cons, exists_eq_or_imp]
  rw [subsMap, hfold]
  simp [Map.keys, Map.empty]

theorem calls_unsubscribeItems {items : List SubscriptionItem} (hconnected : b.isConnected = true) :
    (b.unsubscribeItems items).calls
      = b.calls ++ [.unsubscribe (items.map fun item => item.topicFilter)] := by
  rw [unsubscribeItems, if_pos hconnected]
  exact b.calls_callClient _ (isSome_of_isConnected hconnected)

/-- What subscribing and unsubscribing leaves alone. -/
structure SameConnection (b b' : MqttBinding Data) : Prop where
  messagingNamespace : b'.messagingNamespace = b.messagingNamespace
  crossNamespacing : b'.shouldEnableCrossNamespacing = b.shouldEnableCrossNamespacing
  isConnected : b'.isConnected = b.isConnected
  state : b'.state = b.state

def issue (items : List SubscriptionItem) : MqttBinding Data := { b with issuedSubscriptionItems := items }

theorem sameConnection_subscribeItems (issued items : List SubscriptionItem) :
    SameConnection b ((b.issue issued).subscribeItems items) ∧
      ((b.issue issued).subscribeItems items).issuedSubscriptionItems = issued := by
  rw [subscribeItems]
  split
  · exact ⟨⟨rfl, rfl, callClient_isConnected _ _, rfl⟩, rfl⟩
  · exact ⟨⟨rfl, rfl, rfl, rfl⟩, rfl⟩

theorem sameConnection_unsubscribeItems (issued items : List SubscriptionItem) :
    SameConnection b ((b.issue issued).unsubscribeItems items) ∧
      ((b.issue issued).unsubscribeItems items).issuedSubscriptionItems = issued := by
  rw [unsubscribeItems]
  split
  · exact ⟨⟨rfl, rfl, callClient_isConnected _ _, rfl⟩, rfl⟩
  · exact ⟨⟨rfl, rfl, rfl, rfl⟩, rfl⟩

def subscriptionItem (eventLike : CommunicationEventLike Data) : SubscriptionItem where
  eventType := eventLike.eventType
  topicFilter := b.getTopicFilterFor eventLike
  shouldDecodeData := !eventLike.isDataRaw

theorem addSubscriptionItem_eq (eventLike : CommunicationEventLike Data) :
    b.addSubscriptionItem eventLike
      = (b.issue (upsert SubscriptionItem.key b.issuedSubscriptionItems
          (b.subscriptionItem eventLike))).subscribeItems [b.subscriptionItem eventLike] := rfl

theorem removeSubscriptionItem_none {eventLike : CommunicationEventLike Data}
    (h : b.issuedSubscriptionItems.findIdx?
      (fun item => item.key = Session.subscriptionKey b eventLike) = none) :
    b.removeSubscriptionItem eventLike = b := by
  rw [removeSubscriptionItem]
  dsimp only
  split
  · rfl
  · rename_i index hsome
    cases h.symm.trans hsome

theorem removeSubscriptionItem_some {eventLike : CommunicationEventLike Data} {index : Nat}
    (h : b.issuedSubscriptionItems.findIdx?
      (fun item => item.key = Session.subscriptionKey b eventLike) = some index) :
    b.removeSubscriptionItem eventLike =
      let left := b.issuedSubscriptionItems.eraseIdx index
      if ∃ other, otherEventType eventLike.eventType = some other ∧
          (other, b.getTopicFilterFor eventLike) ∈ left.map SubscriptionItem.key then b.issue left
      else (b.issue left).unsubscribeItems ((b.issuedSubscriptionItems.drop index).take 1) := by
  rw [removeSubscriptionItem]
  dsimp only
  split
  · rename_i hnone
    cases h.symm.trans hnone
  · rename_i index' hsome
    cases h.symm.trans hsome
    cases otherEventType eventLike.eventType with
    | none => simp [issue]
    | some other => simp [issue]

/-- Unsubscribing an item that is not issued does nothing. Otherwise its key is removed and its filter given up, unless an item with the same filter is left. -/
theorem removeSubscriptionItem_spec (eventLike : CommunicationEventLike Data)
    (hnodup : (b.issuedSubscriptionItems.map SubscriptionItem.key).Nodup)
    (hshape : ∀ item ∈ b.issuedSubscriptionItems, b.FilterShape item.eventType item.topicFilter) :
    SameConnection b (b.removeSubscriptionItem eventLike) ∧
      ((b.removeSubscriptionItem eventLike).issuedSubscriptionItems.map SubscriptionItem.key).Nodup ∧
      (∀ item, item ∈ (b.removeSubscriptionItem eventLike).issuedSubscriptionItems ↔
        item ∈ b.issuedSubscriptionItems ∧ item.key ≠ Session.subscriptionKey b eventLike) ∧
      (b.isConnected = true → ∃ calls, (b.removeSubscriptionItem eventLike).calls = b.calls ++ calls ∧
        ∀ filters topicFilter, topicFilter ∈ calls.foldl brokerProcess filters ↔ topicFilter ∈ filters ∧
          ((∃ item ∈ b.issuedSubscriptionItems, item.topicFilter = topicFilter) →
            ∃ item ∈ (b.removeSubscriptionItem eventLike).issuedSubscriptionItems,
              item.topicFilter = topicFilter)) := by
  cases hfind : b.issuedSubscriptionItems.findIdx?
      fun (i : SubscriptionItem) => i.key = Session.subscriptionKey b eventLike with
  | none =>
    have hnot := findIdx?_key_none SubscriptionItem.key hfind
    rw [b.removeSubscriptionItem_none hfind]
    refine ⟨⟨rfl, rfl, rfl, rfl⟩, hnodup, fun item => ?_, fun _ => ⟨[], (List.append_nil _).symm, ?_⟩⟩
    · exact ⟨fun hitem => ⟨hitem, fun hkey => hnot (hkey ▸ List.mem_map_of_mem hitem)⟩, fun h => h.1⟩
    · simp
  | some index =>
    obtain ⟨⟨hit, htake, hkey, hhit⟩, hnodup', hmem⟩ :=
      eraseIdx_findIdx? SubscriptionItem.key hnodup hfind
    have htype : hit.eventType = eventLike.eventType := congrArg Prod.fst hkey
    have hfilter : hit.topicFilter = b.getTopicFilterFor eventLike := congrArg Prod.snd hkey
    rw [b.removeSubscriptionItem_some hfind, htake]
    dsimp only
    split
    · rename_i hother
      obtain ⟨other, -, hleft⟩ := hother
      obtain ⟨rest, hrest, hrestKey⟩ := List.mem_map.mp hleft
      refine ⟨⟨rfl, rfl, rfl, rfl⟩, hnodup', hmem, fun _ => ⟨[], (List.append_nil _).symm, ?_⟩⟩
      intro filters topicFilter
      refine ⟨fun h => ⟨h, ?_⟩, fun h => h.1⟩
      rintro ⟨item, hitem, rfl⟩
      by_cases heq : item.key = Session.subscriptionKey b eventLike
      · exact ⟨rest, hrest, (congrArg Prod.snd hrestKey).trans (congrArg Prod.snd heq).symm⟩
      · exact ⟨item, (hmem item).mpr ⟨hitem, heq⟩, rfl⟩
    · rename_i hother
      obtain ⟨hsame, hissued⟩ :=
        b.sameConnection_unsubscribeItems (b.issuedSubscriptionItems.eraseIdx index) [hit]
      rw [hissued]
      refine ⟨hsame, hnodup', hmem, fun hconnected =>
        ⟨_, calls_unsubscribeItems (b.issue (b.issuedSubscriptionItems.eraseIdx index)) hconnected, ?_⟩⟩
      intro filters topicFilter
      have hprocess : topicFilter ∈ [(.unsubscribe
          ([hit].map fun item => item.topicFilter) : ClientCall Data)].foldl brokerProcess filters ↔
          topicFilter ∈ filters ∧ topicFilter ≠ hit.topicFilter := by
        simp [brokerProcess]
      rw [hprocess]
      refine and_congr_right fun _ => ⟨?_, ?_⟩
      · rintro hne ⟨item, hitem, rfl⟩
        exact ⟨item, (hmem item).mpr ⟨hitem, fun heq => hne ((congrArg Prod.snd heq).trans hfilter.symm)⟩, rfl⟩
      · rintro hleft rfl
        obtain ⟨rest, hrest, hrestFilter⟩ := hleft ⟨hit, hhit, rfl⟩
        obtain ⟨hrestMem, hrestKey⟩ := (hmem rest).mp hrest
        -- Two issued items share the filter, so the one left is of the other type.
        have hne : hit.eventType ≠ rest.eventType := fun heq =>
          hrestKey (Prod.ext (heq.symm.trans htype) (hrestFilter.trans hfilter))
        have hshared := b.otherEventType_of_shared (hshape hit hhit)
          (hrestFilter ▸ hshape rest hrestMem) hne
        refine hother ⟨rest.eventType, htype ▸ hshared, List.mem_map.mpr ⟨rest, hrest, ?_⟩⟩
        exact Prod.ext rfl (hrestFilter.trans hfilter)

end MqttBinding

/-! ### The mirror -/

namespace Session

variable {Data : Type}

/-- What holds of the subscriptions in every state reachable with the given options. -/
structure Mirrors (s : Session Data) (options : CommunicationBindingOptions) : Prop where
  messagingNamespace :
    s.binding.messagingNamespace = options.messagingNamespace.getD MqttBinding.defaultNamespace
  crossNamespacing : s.binding.shouldEnableCrossNamespacing = options.shouldEnableCrossNamespacing.getD false
  state : s.binding.state ≠ .unjoined
  shape : ∀ item ∈ s.binding.issuedSubscriptionItems,
    s.binding.FilterShape item.eventType item.topicFilter
  nodup : (s.binding.issuedSubscriptionItems.map SubscriptionItem.key).Nodup
  broker : s.connected = true → ∀ topicFilter, topicFilter ∈ s.brokerFilters ↔
    topicFilter ≠ MqttBinding.protoName ∧
      ∃ item ∈ s.binding.issuedSubscriptionItems, item.topicFilter = topicFilter
  lastCall : ∀ item ∈ s.binding.issuedSubscriptionItems, s.lastCall.get item.key = some true

theorem mirrors_start (options : CommunicationBindingOptions) :
    (start options : Session Data).Mirrors options where
  messagingNamespace := rfl
  crossNamespacing := rfl
  state := by simp [start, MqttBinding.create]
  shape := by simp [start, MqttBinding.create]
  nodup := by simp [start, MqttBinding.create]
  broker := by simp [start, connected, MqttBinding.create, MqttBinding.isConnected]
  lastCall := by simp [start, MqttBinding.create]

variable {s s' : Session Data} {options : CommunicationBindingOptions}

theorem Mirrors.of_same (h : s.Mirrors options) (hsame : MqttBinding.SameSubscriptions s.binding s'.binding)
    (hbroker : s'.brokerFilters = s.brokerFilters) (hlast : s'.lastCall = s.lastCall) : s'.Mirrors options where
  messagingNamespace := hsame.messagingNamespace.trans h.messagingNamespace
  crossNamespacing := hsame.crossNamespacing.trans h.crossNamespacing
  state := hsame.state ▸ h.state
  shape item hitem := by
    rw [MqttBinding.filterShape_congr hsame.messagingNamespace hsame.crossNamespacing]
    exact h.shape item (hsame.issued ▸ hitem)
  nodup := hsame.issued ▸ h.nodup
  broker hconnected := by
    rw [hbroker, hsame.issued]
    exact h.broker (hsame.isConnected.symm.trans hconnected)
  lastCall item hitem := by
    rw [hlast]
    exact h.lastCall item (hsame.issued ▸ hitem)

theorem Mirrors.of_disconnected (h : s.Mirrors options) (hstate : s'.binding.state ≠ .unjoined)
    (hissued : s'.binding.issuedSubscriptionItems = s.binding.issuedSubscriptionItems)
    (hnamespace : s'.binding.messagingNamespace = s.binding.messagingNamespace)
    (hcross : s'.binding.shouldEnableCrossNamespacing = s.binding.shouldEnableCrossNamespacing)
    (hconnected : s'.connected = false) (hlast : s'.lastCall = s.lastCall) : s'.Mirrors options where
  messagingNamespace := hnamespace.trans h.messagingNamespace
  crossNamespacing := hcross.trans h.crossNamespacing
  state := hstate
  shape item hitem := by
    rw [MqttBinding.filterShape_congr hnamespace hcross]
    exact h.shape item (hissued ▸ hitem)
  nodup := hissued ▸ h.nodup
  broker hconnected' := by
    rw [hconnected] at hconnected'
    cases hconnected'
  lastCall item hitem := by
    rw [hlast]
    exact h.lastCall item (hissued ▸ hitem)

theorem Mirrors.subscribe [Json Data] (h : s.Mirrors options) {eventLike : CommunicationEventLike Data}
    (hsub : IsSubscribable eventLike.eventType) : (s.step (.subscribe eventLike)).Mirrors options := by
  by_cases haccepts : MqttBinding.acceptsSubscription eventLike = true
  · have hstep : s.step (.subscribe eventLike) =
        { s.absorb (s.binding.addSubscriptionItem eventLike) with
          lastCall := s.lastCall.set (subscriptionKey s.binding eventLike) true } := by
      rw [step, MqttBinding.subscribe, if_neg h.state, MqttBinding.onSubscribe, if_pos haccepts, if_pos haccepts]
    rw [hstep]
    have hkey : (s.binding.subscriptionItem eventLike).key = subscriptionKey s.binding eventLike := rfl
    obtain ⟨hsame, hissued⟩ := s.binding.sameConnection_subscribeItems
      (upsert SubscriptionItem.key s.binding.issuedSubscriptionItems (s.binding.subscriptionItem eventLike))
      [s.binding.subscriptionItem eventLike]
    rw [← MqttBinding.addSubscriptionItem_eq] at hsame hissued
    have hmem : ∀ item, item ∈ (s.binding.addSubscriptionItem eventLike).issuedSubscriptionItems ↔
        item = s.binding.subscriptionItem eventLike ∨ (item ∈ s.binding.issuedSubscriptionItems ∧
          item.key ≠ subscriptionKey s.binding eventLike) := by
      intro item
      rw [hissued, mem_upsert SubscriptionItem.key h.nodup, hkey]
    refine ⟨hsame.messagingNamespace.trans h.messagingNamespace,
      hsame.crossNamespacing.trans h.crossNamespacing, hsame.state ▸ h.state, fun item hitem => ?_, ?_,
      fun hconnected topicFilter => ?_, fun item hitem => ?_⟩
    · refine (MqttBinding.filterShape_congr hsame.messagingNamespace hsame.crossNamespacing _ _).mpr ?_
      rcases (hmem item).mp hitem with rfl | ⟨hitem, -⟩
      · exact s.binding.filterShape_of_accepts haccepts hsub
      · exact h.shape item hitem
    · show ((s.binding.addSubscriptionItem eventLike).issuedSubscriptionItems.map _).Nodup
      rw [hissued]
      exact nodup_upsert SubscriptionItem.key h.nodup _
    · have hconnected' : s.binding.isConnected = true := hsame.isConnected ▸ hconnected
      have hcalls := MqttBinding.calls_subscribeItems
        (s.binding.issue (upsert SubscriptionItem.key s.binding.issuedSubscriptionItems
          (s.binding.subscriptionItem eventLike)))
        [s.binding.subscriptionItem eventLike] hconnected'
      rw [← MqttBinding.addSubscriptionItem_eq] at hcalls
      have hbroker : (s.absorb (s.binding.addSubscriptionItem eventLike)).brokerFilters = s.brokerFilters ∪
          (MqttBinding.subsMap [s.binding.subscriptionItem eventLike]).keys.toFinset :=
        brokerFilters_absorb hcalls
      show topicFilter ∈ (s.absorb (s.binding.addSubscriptionItem eventLike)).brokerFilters ↔ _
      rw [hbroker, Finset.mem_union, List.mem_toFinset, MqttBinding.mem_subsMap, h.broker hconnected',
        ← and_or_left]
      refine and_congr_right fun _ => ?_
      constructor
      · rintro (⟨item, hitem, rfl⟩ | ⟨item, hitem, rfl⟩)
        · by_cases heq : item.key = subscriptionKey s.binding eventLike
          · exact ⟨_, (hmem _).mpr (Or.inl rfl), (congrArg Prod.snd heq).symm⟩
          · exact ⟨item, (hmem item).mpr (Or.inr ⟨hitem, heq⟩), rfl⟩
        · exact ⟨item, (hmem item).mpr (Or.inl (List.mem_singleton.mp hitem)), rfl⟩
      · rintro ⟨item, hitem, rfl⟩
        rcases (hmem item).mp hitem with heq | ⟨hitem, -⟩
        · exact Or.inr ⟨item, List.mem_singleton.mpr heq, rfl⟩
        · exact Or.inl ⟨item, hitem, rfl⟩
    · show (s.lastCall.set (subscriptionKey s.binding eventLike) true).get item.key = some true
      rw [Map.get_set]
      split
      · rfl
      · rename_i hne
        rcases (hmem item).mp hitem with rfl | ⟨hitem, -⟩
        · exact absurd hkey hne
        · exact h.lastCall item hitem
  · have hstep : s.step (.subscribe eventLike) = s.absorb s.binding := by
      rw [step, MqttBinding.subscribe, if_neg h.state, MqttBinding.onSubscribe, if_neg haccepts, if_neg haccepts]
      rfl
    rw [hstep]
    exact h.of_same (MqttBinding.SameSubscriptions.refl _)
      (brokerFilters_absorb_same (MqttBinding.SameSubscriptions.refl _)) rfl

theorem Mirrors.unsubscribe [Json Data] (h : s.Mirrors options) (eventLike : CommunicationEventLike Data) :
    (s.step (.unsubscribe eventLike)).Mirrors options := by
  have hstep : s.step (.unsubscribe eventLike) =
      { s.absorb (s.binding.removeSubscriptionItem eventLike) with
        lastCall := s.lastCall.set (subscriptionKey s.binding eventLike) false } := by
    rw [step, MqttBinding.unsubscribe, if_neg h.state, MqttBinding.onUnsubscribe]
  rw [hstep]
  obtain ⟨hsame, hnodup, hmem, hcalls⟩ := s.binding.removeSubscriptionItem_spec eventLike h.nodup h.shape
  refine ⟨hsame.messagingNamespace.trans h.messagingNamespace,
    hsame.crossNamespacing.trans h.crossNamespacing, hsame.state ▸ h.state, fun item hitem => ?_, hnodup,
    fun hconnected topicFilter => ?_, fun item hitem => ?_⟩
  · exact (MqttBinding.filterShape_congr hsame.messagingNamespace hsame.crossNamespacing _ _).mpr
      (h.shape item ((hmem item).mp hitem).1)
  · have hconnected' : s.binding.isConnected = true := hsame.isConnected ▸ hconnected
    obtain ⟨calls, hcalls, hfold⟩ := hcalls hconnected'
    show topicFilter ∈ (s.absorb (s.binding.removeSubscriptionItem eventLike)).brokerFilters ↔ _
    rw [brokerFilters_absorb hcalls, hfold, h.broker hconnected', and_assoc]
    refine and_congr_right fun _ => ⟨fun hleft => hleft.2 hleft.1, ?_⟩
    rintro ⟨item, hitem, rfl⟩
    exact ⟨⟨item, ((hmem item).mp hitem).1, rfl⟩, fun _ => ⟨item, hitem, rfl⟩⟩
  · obtain ⟨hold, hne⟩ := (hmem item).mp hitem
    show (s.lastCall.set (subscriptionKey s.binding eventLike) false).get item.key = some true
    rw [Map.get_set, if_neg hne]
    exact h.lastCall item hold

theorem Mirrors.connect [Json Data] (h : s.Mirrors options) (hclient : s.binding.client.isSome = true) :
    (s.step .connect).Mirrors options := by
  have hsame : MqttBinding.SameSubscriptions s.binding.resubscribed (s.step .connect).binding :=
    ((MqttBinding.sameSubscriptions_addJoinEvents _ _).trans
      (MqttBinding.sameSubscriptions_draining _ false)).trans
      (MqttBinding.sameSubscriptions_drainPublications _)
  obtain ⟨hconnection, hissued⟩ := MqttBinding.sameConnection_subscribeItems
    { s.binding.setConnected true with communicationState := .online }
    s.binding.issuedSubscriptionItems s.binding.issuedSubscriptionItems
  have hissued' : (s.step .connect).binding.issuedSubscriptionItems = s.binding.issuedSubscriptionItems :=
    hsame.issued.trans hissued
  have hbroker : (s.step .connect).brokerFilters
      = ∅ ∪ (MqttBinding.subsMap s.binding.issuedSubscriptionItems).keys.toFinset := by
    obtain ⟨rest, hrest, hfold⟩ := hsame.calls
    rw [s.binding.calls_resubscribed hclient, List.append_assoc] at hrest
    have hbroker := brokerFilters_absorb (s := { s with brokerFilters := ∅ }) hrest
    rw [List.foldl_append, hfold] at hbroker
    exact hbroker
  have hnamespace := hsame.messagingNamespace.trans hconnection.messagingNamespace
  have hcross := hsame.crossNamespacing.trans hconnection.crossNamespacing
  refine ⟨hnamespace.trans h.messagingNamespace, hcross.trans h.crossNamespacing, ?_, fun item hitem => ?_,
    hissued' ▸ h.nodup, fun _ topicFilter => ?_, fun item hitem => ?_⟩
  · exact fun hunjoined => h.state ((hsame.state.trans hconnection.state).symm.trans hunjoined)
  · exact (MqttBinding.filterShape_congr hnamespace hcross _ _).mpr (h.shape item (hissued' ▸ hitem))
  · rw [hbroker, hissued', Finset.empty_union, List.mem_toFinset, MqttBinding.mem_subsMap]
  · exact h.lastCall item (hissued' ▸ hitem)

theorem Mirrors.step [Json Data] (h : s.Mirrors options) {event : SessionEvent Data} (henabled : s.Enabled event) :
    (s.step event).Mirrors options := by
  cases event with
  | join joinOptions =>
    have hstep := MqttBinding.join_eq henabled joinOptions
    exact h.of_disconnected (by simp [Session.step, absorb, hstep]) (by simp [Session.step, absorb, hstep])
      (by simp [Session.step, absorb, hstep]) (by simp [Session.step, absorb, hstep])
      (by simp [Session.step, absorb, hstep, connected, MqttBinding.isConnected]) rfl
  | publish eventLike =>
    have hsame := s.binding.sameSubscriptions_publish eventLike
    exact h.of_same hsame (brokerFilters_absorb_same hsame) rfl
  | subscribe eventLike => exact h.subscribe henabled
  | unsubscribe eventLike => exact h.unsubscribe eventLike
  | connect => exact h.connect henabled.1
  | lose =>
    refine h.of_disconnected h.state rfl rfl rfl ?_ rfl
    cases hclient : s.binding.client <;>
      simp [Session.step, connected, MqttBinding.isConnected, MqttBinding.setConnected, hclient]
  | close =>
    have hconnected : (s.step .close).connected = false := henabled.2
    exact h.of_disconnected h.state rfl rfl rfl hconnected rfl
  | offline =>
    have hconnected : (s.step .offline).connected = false := henabled.2
    exact h.of_disconnected h.state rfl rfl rfl hconnected rfl
  | published number err =>
    rw [Session.step]
    split
    · exact h
    · rename_i call _
      have hsame := s.binding.sameSubscriptions_published call.item err
      exact h.of_same hsame (brokerFilters_absorb_same hsame) rfl

/-- A subscription is not accepted under a filter that gets lost on the way to the client. -/
def KeepsFilter (s : Session Data) : SessionEvent Data → Prop
  | .subscribe eventLike => MqttBinding.acceptsSubscription eventLike = true →
      s.binding.getTopicFilterFor eventLike ≠ MqttBinding.protoName
  | _ => True

theorem lastCall_step [Json Data] {event : SessionEvent Data} (hkeeps : s.KeepsFilter event)
    (h : ∀ key, s.lastCall.get key = some true → key.2 ≠ MqttBinding.protoName)
    {key : CommunicationEventType × Text} (hkey : (s.step event).lastCall.get key = some true) :
    key.2 ≠ MqttBinding.protoName := by
  cases event with
  | subscribe eventLike =>
    rw [step] at hkey
    dsimp only at hkey
    split at hkey
    · rename_i haccepts
      rw [Map.get_set] at hkey
      split at hkey
      · rename_i heq
        exact heq ▸ hkeeps haccepts
      · exact h key hkey
    · exact h key hkey
  | unsubscribe eventLike =>
    change (s.lastCall.set (subscriptionKey s.binding eventLike) false).get key = some true at hkey
    rw [Map.get_set] at hkey
    split at hkey
    · simp at hkey
    · exact h key hkey
  | published number err =>
    rw [step] at hkey
    split at hkey
    · exact h key hkey
    · exact h key hkey
  | join joinOptions => exact h key hkey
  | publish eventLike => exact h key hkey
  | connect => exact h key hkey
  | lose => exact h key hkey
  | close => exact h key hkey
  | offline => exact h key hkey

/-- As long as no subscription is accepted under `__proto__`, the broker holds the issued filters. -/
theorem broker_mirrors_issued [Json Data] (options : CommunicationBindingOptions)
    (events : List (SessionEvent Data))
    (hrun : Along step (fun s event => s.Enabled event ∧ s.KeepsFilter event) (start options) events) :
    let s := events.foldl step (start options)
    (s.connected = true → s.brokerFilters =
        (s.binding.issuedSubscriptionItems.map fun item => item.topicFilter).toFinset) ∧
      (s.binding.issuedSubscriptionItems.map fun item => (item.eventType, item.topicFilter)).Nodup ∧
      ∀ item ∈ s.binding.issuedSubscriptionItems,
        s.lastCall.get (item.eventType, item.topicFilter) = some true := by
  have hmirrors : (events.foldl step (start options)).Mirrors options :=
    hrun.invariant (I := fun s => s.Mirrors options) (fun _ _ h hC => h.step hC.1) (mirrors_start options)
  have hkept : ∀ key, (events.foldl step (start options)).lastCall.get key = some true →
      key.2 ≠ MqttBinding.protoName :=
    hrun.invariant (I := fun s => ∀ key, s.lastCall.get key = some true → key.2 ≠ MqttBinding.protoName)
      (fun _ _ h hC _ hkey => lastCall_step hC.2 h hkey) (by simp [start])
  refine ⟨fun hconnected => ?_, hmirrors.nodup, hmirrors.lastCall⟩
  ext topicFilter
  rw [hmirrors.broker hconnected, List.mem_toFinset, List.mem_map]
  constructor
  · exact fun h => h.2
  · rintro ⟨item, hitem, rfl⟩
    exact ⟨hkept item.key (hmirrors.lastCall item hitem), item, hitem, rfl⟩

def subscribeRun (topic : Text) : List (SessionEvent Text) :=
  [.join ⟨[], rawEvent (text "gone")⟩, .connect, .subscribe (rawEvent topic)]

theorem broker_mirrors_subscribeRun :
    let s := (subscribeRun (text "a/+")).foldl step (start ⟨none, none⟩)
    (s.connected = true → s.brokerFilters =
        (s.binding.issuedSubscriptionItems.map fun item => item.topicFilter).toFinset) ∧
      (s.binding.issuedSubscriptionItems.map fun item => (item.eventType, item.topicFilter)).Nodup ∧
      ∀ item ∈ s.binding.issuedSubscriptionItems,
        s.lastCall.get (item.eventType, item.topicFilter) = some true :=
  broker_mirrors_issued ⟨none, none⟩ (subscribeRun (text "a/+"))
    ⟨⟨rfl, trivial⟩, ⟨⟨rfl, rfl⟩, trivial⟩,
      ⟨Or.inl rfl, fun _ => by decide⟩, trivial⟩

/-- The binding takes `__proto__` for subscribed, and the broker has never heard of it. -/
theorem broker_loses_proto :
    Along step Enabled (start ⟨none, none⟩) (subscribeRun (text "__proto__")) ∧
      let s := (subscribeRun (text "__proto__")).foldl step (start ⟨none, none⟩)
      ¬ (s.connected = true → s.brokerFilters =
        (s.binding.issuedSubscriptionItems.map fun item => item.topicFilter).toFinset) := by
  refine ⟨⟨rfl, ⟨rfl, rfl⟩, Or.inl rfl, trivial⟩, by decide⟩

end Session

end Coaty
