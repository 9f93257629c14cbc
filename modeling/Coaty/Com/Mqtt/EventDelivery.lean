import Coaty.Com.Mqtt.Isolation
import Coaty.Com.Mqtt.TopicRoundTrip

/-!
# Coaty events between agents

A Coaty event is published on a topic that is composed of what the event is about, selected by the broker with topic filters that are composed of what a subscription is about, and dispatched by what its topic is parsed to. Put together, a connected agent is forwarded an event exactly if its last call for a subscription of such events was a subscribe, or if it has a Raw or IoValue subscription on the topic, and what it is handed is the event as it was published.
-/

namespace Coaty

open Js CommunicationEvent Transition

variable {Data : Type}

/-- A Coaty event as it is published, other than an IoValue event. -/
structure CommunicationEventLike.IsCoatyEvent (eventLike : CommunicationEventLike Data) : Prop where
  level : MqttTopic.HasTopicLevel eventLike.eventType
  notIoValue : eventLike.eventType ≠ .ioValue
  filter : ∀ filter ∈ eventLike.eventTypeFilter, isValidEventFilter filter = true
  source : isValidEventFilter (eventLike.sourceId.getD []) = true
  correlation : ∀ id ∈ eventLike.correlationId, isValidEventFilter id = true
  present : eventLike.correlationId.isSome = !MqttTopic.isOneWayEvent eventLike.eventType

/-- The event that listeners get for a published event whose data are parsed to `data`. -/
def CommunicationEventLike.inbound (eventLike : CommunicationEventLike Data) (data : Data) : InboundEvent Data where
  eventType := some eventLike.eventType
  eventTypeFilter := eventLike.eventTypeFilter
  sourceId := eventLike.sourceId
  correlationId := eventLike.correlationId
  data

variable {eventLike : CommunicationEventLike Data} {b : MqttBinding Data}

theorem CommunicationEventLike.IsCoatyEvent.sourceId_eq (h : eventLike.IsCoatyEvent) :
    eventLike.sourceId = some (eventLike.sourceId.getD []) := by
  have hsource := h.source
  cases hid : eventLike.sourceId with
  | none =>
    rw [hid] at hsource
    exact absurd hsource (by decide)
  | some id => rfl

def CommunicationEventLike.IsCoatyEvent.levels (h : eventLike.IsCoatyEvent) (b : MqttBinding Data)
    (hnamespace : isValidEventFilter b.messagingNamespace = true) : TopicLevels where
  version := MqttBinding.apiVersion
  messagingNamespace := b.messagingNamespace
  eventType := eventLike.eventType
  eventTypeFilter := eventLike.eventTypeFilter
  sourceId := eventLike.sourceId.getD []
  correlationId := eventLike.correlationId
  namespace_valid := hnamespace
  eventType_level := h.level
  filter_valid := h.filter
  source_valid := h.source
  correlation_valid := h.correlation
  correlation_present := h.present

theorem CommunicationEventLike.IsCoatyEvent.getTopicFor_eq (h : eventLike.IsCoatyEvent) (b : MqttBinding Data)
    (hnamespace : isValidEventFilter b.messagingNamespace = true) :
    b.getTopicFor eventLike = (h.levels b hnamespace).name := by
  rw [b.getTopicFor_of_level h.level h.notIoValue, h.sourceId_eq]
  rfl

namespace MqttBinding

variable [Json Data]

theorem dispatchMessage_getTopicFor (h : eventLike.IsCoatyEvent) (publisher : MqttBinding Data)
    (hnamespace : isValidEventFilter publisher.messagingNamespace = true) {payload data : Data}
    (hparsed : Json.parse payload = .ok data)
    (listener : MqttBinding Data → InboundEvent Data → MqttBinding Data) :
    (b.dispatchMessage listener (publisher.getTopicFor eventLike) payload).2 = [eventLike.inbound data] := by
  have htopic : MqttTopic.createByName (publisher.getTopicFor eventLike)
      = .ok (some (h.levels publisher hnamespace).topic) := by
    rw [h.getTopicFor_eq publisher hnamespace]
    have hversion : MqttBinding.apiVersion.val < 10 ^ 21 := by decide
    exact TopicLevels.createByName_name _ hversion
  have hvalue : (h.levels publisher hnamespace).topic.eventType ≠ some .ioValue :=
    fun heq => h.notIoValue (Option.some.inj heq)
  rw [dispatchMessage, htopic]
  dsimp only
  rw [if_neg hvalue, hparsed, CommunicationEventLike.inbound, h.sourceId_eq]
  rfl

end MqttBinding

/-! ### Topics and filters -/

namespace TopicLevels

variable (t : TopicLevels)

theorem name_front : ∃ rest, t.name = MqttTopic.protocolName ++ MqttTopic.levelSeparator :: rest := by
  obtain ⟨more, hname⟩ := MqttTopic.getTopicName_front t.version.val t.messagingNamespace t.eventType
    t.eventTypeFilter (some t.sourceId) t.correlationId
  exact ⟨_, hname⟩

/-- The filter that gets lost on the way to the client matches no topic of a Coaty event. -/
theorem not_matches_protoName : ¬ Mqtt.Matches t.name MqttBinding.protoName := by
  intro hmatches
  have hlevels := hmatches.levels
  change Mqtt.LevelsMatch _ (t.name.split MqttTopic.levelSeparator) at hlevels
  rw [t.split_name, show MqttBinding.protoName.split Mqtt.separator = [MqttBinding.protoName] by decide,
    List.cons_append, Mqtt.levelsMatch_cons (by decide)] at hlevels
  exact absurd hlevels.1 (by decide)

/-- The filters of a Coaty subscription select a topic of the same version if the event types and filters are equal, and the namespace and the correlation id are equal as far as they are fixed. -/
theorem matches_getTopicFilter {messagingNamespace eventTypeFilter correlationId : Option Text}
    {eventType : CommunicationEventType} (hlevel : MqttTopic.HasTopicLevel eventType)
    (hnamespace : ∀ name ∈ messagingNamespace, isValidEventFilter name = true)
    (hfilter : ∀ filter ∈ eventTypeFilter, isValidEventFilter filter = true)
    (hcorrelation : ∀ id ∈ correlationId, isValidEventFilter id = true) :
    Mqtt.Matches t.name
        (MqttTopic.getTopicFilter t.version.val messagingNamespace eventType eventTypeFilter correlationId) ↔
      (messagingNamespace = none ∨ messagingNamespace = some t.messagingNamespace) ∧
        (eventType = t.eventType ∧ eventTypeFilter = t.eventTypeFilter) ∧
        (MqttTopic.isOneWayEvent t.eventType = false → correlationId = none ∨ correlationId = t.correlationId) := by
  have hsource : ∀ id ∈ some t.sourceId, IsLevel id := by
    rintro id ⟨⟩
    exact (isValidEventFilter_iff.mp t.source_valid).2
  have hlevels : Mqtt.LevelsMatch (Text.split (MqttTopic.getTopicFilter t.version.val messagingNamespace eventType
      eventTypeFilter correlationId) MqttTopic.levelSeparator) (t.name.split MqttTopic.levelSeparator) ↔ _ :=
    MqttTopic.levelsMatch_getTopicFilter (isValidEventFilter_iff.mp t.namespace_valid).2 hnamespace
      t.filter_valid hfilter hsource (MqttTopic.isLevel_of_valid t.correlation_valid) hcorrelation
  have hevent : MqttTopic.eventLevel eventType eventTypeFilter = MqttTopic.eventLevel t.eventType t.eventTypeFilter ↔
      eventType = t.eventType ∧ eventTypeFilter = t.eventTypeFilter := by
    rw [MqttTopic.eventLevel_eq_iff (MqttTopic.ne_nil_of_valid hfilter) (MqttTopic.ne_nil_of_valid t.filter_valid),
      MqttTopic.prefix_eq_iff]
    exact and_congr_left fun _ => or_iff_left fun hnone => hnone.1 hlevel
  have hid : (MqttTopic.isOneWayEvent t.eventType = false →
        correlationId = none ∨ correlationId = some (interpolate t.correlationId)) ↔
      (MqttTopic.isOneWayEvent t.eventType = false → correlationId = none ∨ correlationId = t.correlationId) := by
    refine forall_congr' fun hway => ?_
    have hpresent := t.correlation_present
    rw [hway, Bool.not_false] at hpresent
    obtain ⟨id, hid⟩ := Option.isSome_iff_exists.mp hpresent
    rw [hid]
    rfl
  rw [hevent, hid] at hlevels
  constructor
  · intro hmatches
    exact (hlevels.mp hmatches.levels).2
  · intro hselects
    refine ⟨hlevels.mpr ⟨rfl, hselects⟩, fun hreserved => ?_⟩
    obtain ⟨rest, hname⟩ := t.name_front
    have hhead : t.name.head? = MqttTopic.protocolName.head? := by
      rw [hname]
      rfl
    rw [hhead] at hreserved
    exact absurd hreserved (by decide)

end TopicLevels

/-! ### The calls of a subscriber -/

/-- What the communication manager subscribes: Raw and IoValue events on topics, and other events with valid filters and correlation ids. -/
structure CommunicationEventLike.IsSubscription (eventLike : CommunicationEventLike Data) : Prop where
  subscribable : Session.IsSubscribable eventLike.eventType
  filter : eventLike.eventType ≠ .raw → eventLike.eventType ≠ .ioValue →
    ∀ filter ∈ eventLike.eventTypeFilter, isValidEventFilter filter = true
  correlation : eventLike.eventType ≠ .raw → eventLike.eventType ≠ .ioValue →
    ∀ id ∈ eventLike.correlationId, isValidEventFilter id = true

theorem MqttBinding.getTopicFilterFor_of_level (b : MqttBinding Data) (hraw : eventLike.eventType ≠ .raw)
    (hvalue : eventLike.eventType ≠ .ioValue) :
    b.getTopicFilterFor eventLike = b.eventTopicFilter eventLike.eventType eventLike.eventTypeFilter
      eventLike.correlationId := by
  rw [getTopicFilterFor]
  cases htype : eventLike.eventType <;> first | rfl | skip
  · exact absurd htype hraw
  · exact absurd htype hvalue

theorem MqttBinding.issued_onConnect [Json Data] (b : MqttBinding Data) :
    (b.setConnected true).onConnect.issuedSubscriptionItems = b.issuedSubscriptionItems := by
  have hsame : SameSubscriptions b.resubscribed (b.setConnected true).onConnect :=
    ((sameSubscriptions_addJoinEvents _ _).trans (sameSubscriptions_draining _ false)).trans
      (sameSubscriptions_drainPublications _)
  exact hsame.issued.trans (sameConnection_subscribeItems
    { b.setConnected true with communicationState := .online } b.issuedSubscriptionItems b.issuedSubscriptionItems).2

theorem MqttBinding.eventTopicFilter_of_oneWay (b : MqttBinding Data) {eventType : CommunicationEventType}
    (hway : MqttTopic.isOneWayEvent eventType = true) (eventTypeFilter correlationId correlationId' : Option Text) :
    b.eventTopicFilter eventType eventTypeFilter correlationId
      = b.eventTopicFilter eventType eventTypeFilter correlationId' := by
  rw [eventTopicFilter, eventTopicFilter, MqttTopic.getTopicFilter, MqttTopic.getTopicFilter, if_pos hway, if_pos hway]

namespace Session

variable {s s' : Session Data} {options : CommunicationBindingOptions}

/-- What is subscribed are subscriptions of the communication manager, all of them issued. -/
structure Subscribed (s : Session Data) (options : CommunicationBindingOptions) : Prop where
  mirrors : s.Mirrors options
  issued : ∀ key, s.lastCall.get key = some true → ∃ item ∈ s.binding.issuedSubscriptionItems, item.key = key
  subscription : ∀ key, s.lastCall.get key = some true → ∃ eventLike : CommunicationEventLike Data,
    eventLike.IsSubscription ∧ subscriptionKey s.binding eventLike = key

/-- What may happen to an agent whose subscriptions are those of a communication manager. -/
def EnabledManaged (s : Session Data) (event : SessionEvent Data) : Prop :=
  s.Enabled event ∧ ∀ eventLike, event = .subscribe eventLike → eventLike.IsSubscription

theorem subscriptionKey_congr {b b' : MqttBinding Data} (hnamespace : b'.messagingNamespace = b.messagingNamespace)
    (hcross : b'.shouldEnableCrossNamespacing = b.shouldEnableCrossNamespacing)
    (eventLike : CommunicationEventLike Data) : subscriptionKey b' eventLike = subscriptionKey b eventLike := by
  simp only [subscriptionKey, MqttBinding.getTopicFilterFor, hnamespace, hcross]

theorem Mirrors.subscriptionKey_eq (h : s.Mirrors options) (h' : s'.Mirrors options)
    (eventLike : CommunicationEventLike Data) :
    subscriptionKey s'.binding eventLike = subscriptionKey s.binding eventLike :=
  subscriptionKey_congr (h'.messagingNamespace.trans h.messagingNamespace.symm)
    (h'.crossNamespacing.trans h.crossNamespacing.symm) eventLike

theorem Subscribed.of_same (h : s.Subscribed options) (hmirrors : s'.Mirrors options)
    (hissued : s'.binding.issuedSubscriptionItems = s.binding.issuedSubscriptionItems)
    (hlast : s'.lastCall = s.lastCall) : s'.Subscribed options := by
  refine ⟨hmirrors, fun key hkey => ?_, fun key hkey => ?_⟩
  · rw [hissued]
    exact h.issued key (hlast ▸ hkey)
  · obtain ⟨eventLike, hsubscription, hkey'⟩ := h.subscription key (hlast ▸ hkey)
    exact ⟨eventLike, hsubscription, (h.mirrors.subscriptionKey_eq hmirrors eventLike).trans hkey'⟩

theorem Subscribed.subscribe [Json Data] (h : s.Subscribed options) {eventLike : CommunicationEventLike Data}
    (hsubscription : eventLike.IsSubscription) : (s.step (.subscribe eventLike)).Subscribed options := by
  have hmirrors := h.mirrors.subscribe hsubscription.subscribable
  by_cases haccepts : MqttBinding.acceptsSubscription eventLike = true
  · have hissued : (s.step (.subscribe eventLike)).binding.issuedSubscriptionItems
        = upsert SubscriptionItem.key s.binding.issuedSubscriptionItems (s.binding.subscriptionItem eventLike) := by
      show (s.binding.subscribe eventLike).issuedSubscriptionItems = _
      rw [MqttBinding.subscribe, if_neg h.mirrors.state, MqttBinding.onSubscribe, if_pos haccepts,
        MqttBinding.addSubscriptionItem_eq]
      exact (s.binding.sameConnection_subscribeItems _ _).2
    have hlast : (s.step (.subscribe eventLike)).lastCall = s.lastCall.set (subscriptionKey s.binding eventLike) true :=
      if_pos haccepts
    have hmem : ∀ item, item ∈ (s.step (.subscribe eventLike)).binding.issuedSubscriptionItems ↔
        item = s.binding.subscriptionItem eventLike ∨
          (item ∈ s.binding.issuedSubscriptionItems ∧ item.key ≠ subscriptionKey s.binding eventLike) := by
      intro item
      rw [hissued]
      exact mem_upsert SubscriptionItem.key h.mirrors.nodup
    refine ⟨hmirrors, fun key hkey => ?_, fun key hkey => ?_⟩
    · by_cases heq : key = subscriptionKey s.binding eventLike
      · exact ⟨_, (hmem _).mpr (Or.inl rfl), heq.symm⟩
      · rw [hlast, Map.get_set, if_neg heq] at hkey
        obtain ⟨item, hitem, rfl⟩ := h.issued key hkey
        exact ⟨item, (hmem item).mpr (Or.inr ⟨hitem, heq⟩), rfl⟩
    · by_cases heq : key = subscriptionKey s.binding eventLike
      · exact ⟨eventLike, hsubscription, (h.mirrors.subscriptionKey_eq hmirrors eventLike).trans heq.symm⟩
      · rw [hlast, Map.get_set, if_neg heq] at hkey
        obtain ⟨other, hother, hkey'⟩ := h.subscription key hkey
        exact ⟨other, hother, (h.mirrors.subscriptionKey_eq hmirrors other).trans hkey'⟩
  · refine h.of_same hmirrors ?_ (if_neg haccepts)
    show (s.binding.subscribe eventLike).issuedSubscriptionItems = _
    rw [MqttBinding.subscribe, if_neg h.mirrors.state, MqttBinding.onSubscribe, if_neg haccepts]

theorem Subscribed.unsubscribe [Json Data] (h : s.Subscribed options) (eventLike : CommunicationEventLike Data) :
    (s.step (.unsubscribe eventLike)).Subscribed options := by
  have hmirrors := h.mirrors.unsubscribe eventLike
  have hissued : (s.step (.unsubscribe eventLike)).binding = s.binding.removeSubscriptionItem eventLike := by
    show s.binding.unsubscribe eventLike = _
    rw [MqttBinding.unsubscribe, if_neg h.mirrors.state, MqttBinding.onUnsubscribe]
  obtain ⟨-, -, hmem, -⟩ := s.binding.removeSubscriptionItem_spec eventLike h.mirrors.nodup h.mirrors.shape
  have hkept : ∀ {key}, (s.step (.unsubscribe eventLike)).lastCall.get key = some true →
      key ≠ subscriptionKey s.binding eventLike ∧ s.lastCall.get key = some true := by
    intro key hkey
    change (s.lastCall.set (subscriptionKey s.binding eventLike) false).get key = some true at hkey
    rw [Map.get_set] at hkey
    split at hkey
    · cases hkey
    · rename_i hne
      exact ⟨hne, hkey⟩
  refine ⟨hmirrors, fun key hkey => ?_, fun key hkey => ?_⟩
  · obtain ⟨hne, hold⟩ := hkept hkey
    obtain ⟨item, hitem, rfl⟩ := h.issued key hold
    rw [hissued]
    exact ⟨item, (hmem item).mpr ⟨hitem, hne⟩, rfl⟩
  · obtain ⟨other, hother, hkey'⟩ := h.subscription key (hkept hkey).2
    exact ⟨other, hother, (h.mirrors.subscriptionKey_eq hmirrors other).trans hkey'⟩

theorem Subscribed.step [Json Data] (h : s.Subscribed options) {event : SessionEvent Data}
    (henabled : s.EnabledManaged event) : (s.step event).Subscribed options := by
  have hmirrors := h.mirrors.step henabled.1
  cases event with
  | subscribe eventLike => exact h.subscribe (henabled.2 eventLike rfl)
  | unsubscribe eventLike => exact h.unsubscribe eventLike
  | join joinOptions =>
    have hissued := congrArg MqttBinding.issuedSubscriptionItems (MqttBinding.join_eq henabled.1 joinOptions)
    exact h.of_same hmirrors hissued rfl
  | publish eventLike => exact h.of_same hmirrors (s.binding.sameSubscriptions_publish eventLike).issued rfl
  | connect => exact h.of_same hmirrors s.binding.issued_onConnect rfl
  | lose => exact h.of_same hmirrors rfl rfl
  | close => exact h.of_same hmirrors rfl rfl
  | offline => exact h.of_same hmirrors rfl rfl
  | published number err =>
    rw [Session.step] at hmirrors ⊢
    split at hmirrors
    · exact h
    · rename_i call _
      exact h.of_same hmirrors (s.binding.sameSubscriptions_published call.item err).issued rfl

theorem subscribed_start (options : CommunicationBindingOptions) :
    (start options : Session Data).Subscribed options where
  mirrors := mirrors_start options
  issued key hkey := by simp [start] at hkey
  subscription key hkey := by simp [start] at hkey

/-- The namespace level of the filters of a session. -/
def filterNamespace (s : Session Data) : Option Text :=
  if s.binding.shouldEnableCrossNamespacing then none else some s.binding.messagingNamespace

theorem Mirrors.filterNamespace_iff (h : s.Mirrors options) (name : Text) :
    s.filterNamespace = none ∨ s.filterNamespace = some name ↔
      options.shouldEnableCrossNamespacing = some true ∨
        name = options.messagingNamespace.getD MqttBinding.defaultNamespace := by
  rw [filterNamespace, h.crossNamespacing, h.messagingNamespace]
  cases options.shouldEnableCrossNamespacing with
  | none => simp [eq_comm]
  | some cross => cases cross <;> simp [eq_comm]

theorem Mirrors.filterNamespace_valid (h : s.Mirrors options)
    (hvalid : ∀ name ∈ options.messagingNamespace, isValidEventFilter name = true) :
    ∀ name ∈ s.filterNamespace, isValidEventFilter name = true := by
  intro name hname
  rw [filterNamespace] at hname
  split at hname
  · cases hname
  · rw [← Option.some.inj hname, h.messagingNamespace]
    exact MqttBinding.isValidEventFilter_getD hvalid

/-- A connected agent is forwarded a Coaty event exactly if its last call for a Raw or IoValue subscription that matches the topic was a subscribe, or its last call for a subscription of events of this type and filter, for all correlation ids or this one, and the event comes from its own namespace or cross-namespacing is enabled. It is then handed the event as it was published, and nothing else. -/
theorem delivers_coatyEvent [Json Data] (publisher subscriber : CommunicationBindingOptions)
    (events : List (SessionEvent Data)) (hrun : Along Session.step EnabledManaged (start subscriber) events)
    (hpublisher : ∀ name ∈ publisher.messagingNamespace, isValidEventFilter name = true)
    (hsubscriber : ∀ name ∈ subscriber.messagingNamespace, isValidEventFilter name = true)
    (eventLike : CommunicationEventLike Data) (hevent : eventLike.IsCoatyEvent) :
    let s := events.foldl Session.step (start subscriber)
    let topicName := (MqttBinding.create publisher : MqttBinding Data).getTopicFor eventLike
    (s.connected = true →
      ((∃ topicFilter ∈ s.brokerFilters, Mqtt.Matches topicName topicFilter) ↔
        (∃ eventType topicFilter, (eventType = .raw ∨ eventType = .ioValue) ∧
          s.lastCall.get (eventType, topicFilter) = some true ∧ Mqtt.Matches topicName topicFilter) ∨
        (subscriber.shouldEnableCrossNamespacing = some true ∨
          publisher.messagingNamespace.getD MqttBinding.defaultNamespace
            = subscriber.messagingNamespace.getD MqttBinding.defaultNamespace) ∧
          ∃ correlationId, (correlationId = none ∨ correlationId = eventLike.correlationId) ∧
            s.lastCall.get (eventLike.eventType, s.binding.eventTopicFilter eventLike.eventType
              eventLike.eventTypeFilter correlationId) = some true)) ∧
      ∀ (listener : MqttBinding Data → InboundEvent Data → MqttBinding Data) (payload data : Data),
        Json.parse payload = .ok data →
          (s.binding.dispatchMessage listener topicName payload).2 = [eventLike.inbound data] := by
  intro s topicName
  have h : s.Subscribed subscriber :=
    hrun.invariant (I := fun s => s.Subscribed subscriber) (fun _ _ h henabled => h.step henabled)
      (subscribed_start subscriber)
  have hnamespace := MqttBinding.isValidEventFilter_getD hpublisher
  let t := hevent.levels (MqttBinding.create publisher) hnamespace
  have hname : topicName = t.name := hevent.getTopicFor_eq (MqttBinding.create publisher) hnamespace
  have hown := h.mirrors.filterNamespace_iff t.messagingNamespace
  have hvalid := h.mirrors.filterNamespace_valid hsubscriber
  refine ⟨fun hconnected => ?_, fun listener payload data hparsed =>
    MqttBinding.dispatchMessage_getTopicFor hevent _ hnamespace hparsed listener⟩
  rw [hname]
  constructor
  · rintro ⟨topicFilter, hheld, hmatches⟩
    obtain ⟨-, item, hitem, rfl⟩ := (h.mirrors.broker hconnected topicFilter).mp hheld
    have hlast := h.mirrors.lastCall item hitem
    by_cases hraw : item.eventType = .raw ∨ item.eventType = .ioValue
    · exact Or.inl ⟨item.eventType, item.topicFilter, hraw, hlast, hmatches⟩
    · obtain ⟨subscribed, hsubscription, hkey⟩ := h.subscription item.key hlast
      have htype : subscribed.eventType = item.eventType := congrArg Prod.fst hkey
      rw [← htype, not_or] at hraw
      have hlevel := hsubscription.subscribable.resolve_left hraw.1
      have hfilter : item.topicFilter = s.binding.eventTopicFilter subscribed.eventType subscribed.eventTypeFilter
          subscribed.correlationId :=
        (congrArg Prod.snd hkey).symm.trans (s.binding.getTopicFilterFor_of_level hraw.1 hraw.2)
      have hkeys : (subscribed.eventType, s.binding.eventTopicFilter subscribed.eventType subscribed.eventTypeFilter
          subscribed.correlationId) = item.key := Prod.ext htype hfilter.symm
      rw [hfilter] at hmatches
      obtain ⟨hselects, ⟨heventType, heventFilter⟩, hid⟩ := (t.matches_getTopicFilter hlevel hvalid
        (hsubscription.filter hraw.1 hraw.2) (hsubscription.correlation hraw.1 hraw.2)).mp hmatches
      refine Or.inr ⟨hown.mp hselects, ?_⟩
      rw [← hkeys, heventType, heventFilter] at hlast
      cases hway : MqttTopic.isOneWayEvent t.eventType with
      | true =>
        rw [s.binding.eventTopicFilter_of_oneWay hway _ _ none] at hlast
        exact ⟨none, Or.inl rfl, hlast⟩
      | false => exact ⟨subscribed.correlationId, hid hway, hlast⟩
  · rintro (⟨eventType, topicFilter, -, hlast, hmatches⟩ | ⟨hselects, correlationId, hid, hlast⟩)
    · obtain ⟨item, hitem, hkey⟩ := h.issued _ hlast
      have hkept : topicFilter ≠ MqttBinding.protoName := fun heq => t.not_matches_protoName (heq ▸ hmatches)
      exact ⟨topicFilter, (h.mirrors.broker hconnected topicFilter).mpr
        ⟨hkept, item, hitem, congrArg Prod.snd hkey⟩, hmatches⟩
    · have hcorrelation : ∀ id ∈ correlationId, isValidEventFilter id = true := by
        rcases hid with rfl | rfl
        · simp
        · exact hevent.correlation
      have hmatches := (t.matches_getTopicFilter hevent.level hvalid hevent.filter hcorrelation).mpr
        ⟨hown.mpr hselects, ⟨rfl, rfl⟩, fun _ => hid⟩
      obtain ⟨item, hitem, hkey⟩ := h.issued _ hlast
      have hkept : s.binding.eventTopicFilter eventLike.eventType eventLike.eventTypeFilter correlationId
          ≠ MqttBinding.protoName := fun heq => t.not_matches_protoName (heq ▸ hmatches)
      exact ⟨_, (h.mirrors.broker hconnected _).mpr ⟨hkept, item, hitem, congrArg Prod.snd hkey⟩, hmatches⟩

theorem isCoatyEvent_identityEvent : identityEvent.IsCoatyEvent where
  level := by decide
  notIoValue := by decide
  filter := by decide
  source := by decide
  correlation := by decide
  present := by decide

/-- Join, connect and observe identities. -/
def identityRun : List (SessionEvent Text) :=
  [.join ⟨[], rawEvent (text "gone")⟩, .connect, .subscribe identityEvent]

theorem along_identityRun : Along Session.step EnabledManaged (start ⟨none, none⟩) identityRun := by
  refine ⟨⟨by decide, ?_⟩, ⟨by decide, ?_⟩, ⟨by decide, ?_⟩, trivial⟩
  · intro eventLike heq
    cases heq
  · intro eventLike heq
    cases heq
  · intro eventLike heq
    cases heq
    exact ⟨Or.inr isCoatyEvent_identityEvent.level, fun _ _ => isCoatyEvent_identityEvent.filter,
      fun _ _ => isCoatyEvent_identityEvent.correlation⟩

theorem delivers_identityEvent :
    let s := identityRun.foldl Session.step (start ⟨none, none⟩)
    let topicName := (MqttBinding.create ⟨none, none⟩ : MqttBinding Text).getTopicFor identityEvent
    (∃ topicFilter ∈ s.brokerFilters, Mqtt.Matches topicName topicFilter) ∧
      (s.binding.dispatchMessage (fun b _ => b) topicName (text "agent")).2
        = [identityEvent.inbound (text "agent")] := by
  have hdelivers := delivers_coatyEvent ⟨none, none⟩ ⟨none, none⟩ identityRun along_identityRun (by simp) (by simp)
    identityEvent isCoatyEvent_identityEvent
  exact ⟨(hdelivers.1 (by decide)).mpr (Or.inr ⟨Or.inr rfl, none, Or.inl rfl, by decide⟩),
    hdelivers.2 (fun b _ => b) (text "agent") (text "agent") rfl⟩

end Session

end Coaty
