import Coaty.Com.Mqtt.Subscriptions

/-!
# Namespaces

A broker forwards a message to every client with a filter that matches its topic. The filters of Coaty events carry the namespace of the binding, so none of them matches a topic of another namespace. Inbound messages are dispatched by their topic alone, however: a message that was forwarded because of a Raw or IoValue subscription is handed on as the Coaty event its topic stands for, whatever its namespace.
-/

namespace Coaty

open Js CommunicationEvent Transition

namespace MqttTopic

theorem eventLevel_append (eventType : CommunicationEventType) (eventTypeFilter : Option Text) (more : Text) :
    ∃ first rest, eventLevel eventType eventTypeFilter ++ levelSeparator :: more
        = first ++ levelSeparator :: rest ∧ levelSeparator ∉ first ∧
      (first = interpolate (getEventTopicLevelPrefix eventType) ∨ ∃ filter,
        first = interpolate (getEventTopicLevelPrefix eventType) ++ eventTypeFilterSeparator :: filter) := by
  have hcode := level_no_separator (prefix_isLevel eventType)
  match eventTypeFilter with
  | none => exact ⟨_, more, rfl, hcode, Or.inl rfl⟩
  | some [] => exact ⟨_, more, rfl, hcode, Or.inl rfl⟩
  | some (c :: filter) =>
    have hmem : levelSeparator ∈ (c :: filter) ++ levelSeparator :: more := by simp
    obtain ⟨front, back, hsplit, hfront⟩ := List.eq_append_cons_of_mem hmem
    refine ⟨interpolate (getEventTopicLevelPrefix eventType) ++ eventTypeFilterSeparator :: front, back, ?_, ?_,
      Or.inr ⟨front, rfl⟩⟩
    · rw [eventLevel_some eventType (by simp), List.append_assoc, List.cons_append, hsplit, List.append_assoc,
        List.cons_append]
    · rw [List.mem_append, List.mem_cons, not_or, not_or]
      exact ⟨hcode, by decide, hfront⟩

theorem parseEvent_code {eventType : CommunicationEventType} (hlevel : HasTopicLevel eventType) {first : Text}
    (h : first = interpolate (getEventTopicLevelPrefix eventType) ∨ ∃ filter,
      first = interpolate (getEventTopicLevelPrefix eventType) ++ eventTypeFilterSeparator :: filter) :
    ∃ filter, parseEvent (some first) = .ok (some eventType, filter) := by
  have hsep := prefix_no_separator eventType
  have htype : getEventType (interpolate (getEventTopicLevelPrefix eventType)) = some eventType := by
    rw [getEventType_code, if_pos hlevel]
  rcases h with rfl | ⟨filter, rfl⟩
  · refine ⟨none, ?_⟩
    simp only [parseEvent, Text.indexOf_of_not_mem hsep, htype]
  · refine ⟨some filter, ?_⟩
    simp only [parseEvent, Text.indexOf_append_cons filter hsep]
    rw [List.take_left, htype, ← List.drop_drop, List.drop_left]
    rfl

theorem getTopicName_front (version : Nat) (messagingNamespace : Text) (eventType : CommunicationEventType)
    (eventTypeFilter sourceId correlationId : Option Text) :
    ∃ more, getTopicName version messagingNamespace eventType eventTypeFilter sourceId correlationId
      = protocolName ++ levelSeparator :: (numberToString version ++ levelSeparator :: (messagingNamespace ++
          levelSeparator :: (eventLevel eventType eventTypeFilter ++ levelSeparator :: more))) := by
  rw [getTopicName]
  split
  · exact ⟨_, rfl⟩
  · exact ⟨_, by simp only [List.append_assoc, List.cons_append]; rfl⟩

theorem getTopicFilter_front (version : Nat) (messagingNamespace : Option Text) (eventType : CommunicationEventType)
    (eventTypeFilter correlationId : Option Text) :
    ∃ more, getTopicFilter version messagingNamespace eventType eventTypeFilter correlationId
      = protocolName ++ levelSeparator :: (numberToString version ++ levelSeparator ::
          (orElse messagingNamespace (text "+") ++ levelSeparator :: more)) := by
  rw [getTopicFilter]
  split
  · exact ⟨_, rfl⟩
  · exact ⟨_, by simp only [List.append_assoc, List.cons_append]; rfl⟩

theorem split_front (version : Nat) {messagingNamespace : Text} (more : Text) (hnamespace : IsLevel messagingNamespace) :
    (protocolName ++ levelSeparator :: (numberToString version ++ levelSeparator ::
        (messagingNamespace ++ levelSeparator :: more)) : Text).split levelSeparator
      = protocolName :: numberToString version :: messagingNamespace :: Text.split more levelSeparator := by
  have hprotocol : levelSeparator ∉ protocolName := by decide
  rw [Text.split_append_cons _ hprotocol, Text.split_append_cons _ (version_no_separator version),
    Text.split_append_cons _ (level_no_separator hnamespace)]

/-- Whatever a Coaty event is published with, its topic is dispatched as an event of its type. -/
theorem createByName_getTopicName (version : Nat) {eventType : CommunicationEventType} {messagingNamespace : Text}
    (eventTypeFilter sourceId correlationId : Option Text) (hnamespace : IsLevel messagingNamespace)
    (hlevel : HasTopicLevel eventType) :
    ∃ topic : MqttTopic, topic.eventType = some eventType ∧
      createByName (getTopicName version messagingNamespace eventType eventTypeFilter sourceId correlationId)
        = .ok (some topic) := by
  obtain ⟨more, hname⟩ :=
    getTopicName_front version messagingNamespace eventType eventTypeFilter sourceId correlationId
  obtain ⟨first, rest, hevent, hfirst, hcode⟩ := eventLevel_append eventType eventTypeFilter more
  obtain ⟨filter, hparse⟩ := parseEvent_code hlevel hcode
  have hfront : protocolNamePrefix = protocolName ++ [levelSeparator] := by decide
  have hcoaty : isCoatyTopicLike (getTopicName version messagingNamespace eventType eventTypeFilter sourceId
      correlationId) = true := by
    rw [isCoatyTopicLike, Text.startsWith_iff, hfront, hname]
    exact ⟨_, by rw [List.append_assoc]; rfl⟩
  rw [createByName, hcoaty, hname, split_front version _ hnamespace, hevent, Text.split_append_cons _ hfirst]
  simp only [Bool.not_true, Bool.false_eq_true, if_false, List.getElem?_cons_succ, List.getElem?_cons_zero, hparse]
  exact ⟨_, rfl, rfl⟩

/-- A topic filter with a namespace matches no topic name of another namespace. -/
theorem not_matches_namespace (version : Nat) (eventType eventType' : CommunicationEventType)
    {messagingNamespace messagingNamespace' : Text} (eventTypeFilter sourceId correlationId : Option Text)
    (eventTypeFilter' correlationId' : Option Text) (hnamespace : isValidEventFilter messagingNamespace = true)
    (hnamespace' : isValidEventFilter messagingNamespace' = true) (hne : messagingNamespace ≠ messagingNamespace') :
    ¬ Mqtt.Matches (getTopicName version messagingNamespace eventType eventTypeFilter sourceId correlationId)
      (getTopicFilter version (some messagingNamespace') eventType' eventTypeFilter' correlationId') := by
  intro hmatches
  obtain ⟨hfilled, hlevel'⟩ := isValidEventFilter_iff.mp hnamespace'
  obtain ⟨-, hlevel⟩ := isValidEventFilter_iff.mp hnamespace
  obtain ⟨more, hname⟩ :=
    getTopicName_front version messagingNamespace eventType eventTypeFilter sourceId correlationId
  obtain ⟨more', hfilter⟩ :=
    getTopicFilter_front version (some messagingNamespace') eventType' eventTypeFilter' correlationId'
  have hlevels := hmatches.levels
  rw [hname, hfilter, orElse_some hfilled] at hlevels
  change Mqtt.LevelsMatch (Text.split _ levelSeparator) (Text.split _ levelSeparator) at hlevels
  rw [split_front version _ hlevel, split_front version _ hlevel', Mqtt.levelsMatch_cons (by decide),
    Mqtt.levelsMatch_cons (version_ne_wildcard version).2,
    Mqtt.levelsMatch_cons (isLevel_ne_wildcard hlevel').2] at hlevels
  rcases hlevels.2.2.1 with hwild | heq
  · exact (isLevel_ne_wildcard hlevel').1 hwild
  · exact hne heq.symm

end MqttTopic

namespace MqttBinding

variable {Data : Type} (b : MqttBinding Data)

/-- The broker forwards a message on this topic to the client of the binding. -/
def Forwarded (topicName : Text) : Prop :=
  ∃ item ∈ b.issuedSubscriptionItems, Mqtt.Matches topicName item.topicFilter

/-- A message is forwarded and handed to the listeners as a Coaty event. -/
def HandedAsCoatyEvent [Json Data] (listener : MqttBinding Data → InboundEvent Data → MqttBinding Data)
    (topicName : Text) (payload : Data) : Prop :=
  b.Forwarded topicName ∧ ∃ event ∈ (b.dispatchMessage listener topicName payload).2,
    event.eventType ≠ some .raw ∧ event.eventType ≠ some .ioValue

def SelectsTopic (topicName : Text) : Prop :=
  ∃ item ∈ b.issuedSubscriptionItems, (item.eventType = .raw ∨ item.eventType = .ioValue) ∧
    Mqtt.Matches topicName item.topicFilter

theorem getTopicFor_of_level {eventLike : CommunicationEventLike Data}
    (hlevel : MqttTopic.HasTopicLevel eventLike.eventType) (hvalue : eventLike.eventType ≠ .ioValue) :
    b.getTopicFor eventLike = MqttTopic.getTopicName apiVersion.val b.messagingNamespace eventLike.eventType
      eventLike.eventTypeFilter eventLike.sourceId eventLike.correlationId := by
  rw [getTopicFor]
  cases htype : eventLike.eventType <;> first | rfl | skip
  · rw [htype] at hlevel
    exact absurd hlevel (by decide)
  · exact absurd htype hvalue

theorem isValidEventFilter_getD {messagingNamespace : Option Text}
    (h : ∀ name ∈ messagingNamespace, isValidEventFilter name = true) :
    isValidEventFilter (messagingNamespace.getD defaultNamespace) = true := by
  cases messagingNamespace with
  | none => decide
  | some name => exact h name rfl

theorem dispatchMessage_coaty [Json Data] (listener : MqttBinding Data → InboundEvent Data → MqttBinding Data)
    {topicName : Text} {topic : MqttTopic} {eventType : CommunicationEventType} {payload parsed : Data}
    (htopic : MqttTopic.createByName topicName = .ok (some topic)) (htype : topic.eventType = some eventType)
    (hvalue : eventType ≠ .ioValue) (hparsed : Json.parse payload = .ok parsed) :
    ∃ event ∈ (b.dispatchMessage listener topicName payload).2, event.eventType = some eventType := by
  have hne : topic.eventType ≠ some .ioValue := by
    rw [htype]
    exact fun heq => hvalue (Option.some.inj heq)
  rw [dispatchMessage, htopic]
  dsimp only
  rw [if_neg hne, hparsed]
  exact ⟨_, List.mem_singleton.mpr rfl, htype⟩

end MqttBinding

namespace Session

variable {Data : Type} [Json Data]

/-- A Coaty event of another namespace is handed on exactly when it is forwarded for a Raw or IoValue subscription. -/
theorem namespace_isolation (publisher subscriber : CommunicationBindingOptions)
    (events : List (SessionEvent Data)) (hrun : Along step Enabled (start subscriber) events)
    (eventLike : CommunicationEventLike Data) (payload : Data)
    (listener : MqttBinding Data → InboundEvent Data → MqttBinding Data)
    (hpublisher : ∀ name ∈ publisher.messagingNamespace, isValidEventFilter name = true)
    (hsubscriber : ∀ name ∈ subscriber.messagingNamespace, isValidEventFilter name = true)
    (hne : publisher.messagingNamespace.getD MqttBinding.defaultNamespace
      ≠ subscriber.messagingNamespace.getD MqttBinding.defaultNamespace)
    (hcross : subscriber.shouldEnableCrossNamespacing ≠ some true)
    (hlevel : MqttTopic.HasTopicLevel eventLike.eventType) (hvalue : eventLike.eventType ≠ .ioValue)
    (hjson : eventLike.isDataRaw = false) (hencoded : MqttBinding.encodePayload eventLike = .ok (some payload))
    (hparse : ∀ (data : Option Data) (payload : Data), Json.stringify data = .ok (some payload) →
      ∃ parsed : Data, Json.parse payload = .ok parsed) :
    let b := (events.foldl step (start subscriber)).binding
    let topicName := (MqttBinding.create publisher : MqttBinding Data).getTopicFor eventLike
    ¬ b.HandedAsCoatyEvent listener topicName payload ↔ ¬ b.SelectsTopic topicName := by
  intro b topicName
  have hmirrors : (events.foldl step (start subscriber)).Mirrors subscriber :=
    hrun.invariant (I := fun s => s.Mirrors subscriber) (fun _ _ h henabled => h.step henabled)
      (mirrors_start subscriber)
  have hvalid := MqttBinding.isValidEventFilter_getD hpublisher
  have hvalid' := MqttBinding.isValidEventFilter_getD hsubscriber
  have hname : topicName = MqttTopic.getTopicName MqttBinding.apiVersion.val
      (publisher.messagingNamespace.getD MqttBinding.defaultNamespace) eventLike.eventType
      eventLike.eventTypeFilter eventLike.sourceId eventLike.correlationId :=
    (MqttBinding.create publisher : MqttBinding Data).getTopicFor_of_level hlevel hvalue
  have hown : b.shouldEnableCrossNamespacing = false := by
    rw [hmirrors.crossNamespacing]
    cases hoption : subscriber.shouldEnableCrossNamespacing with
    | none => rfl
    | some cross =>
      rw [hoption] at hcross
      simpa using hcross
  rw [not_iff_not]
  constructor
  · rintro ⟨⟨item, hitem, hmatches⟩, _⟩
    refine ⟨item, hitem, ?_, hmatches⟩
    -- The filter of any other item carries the own namespace.
    by_contra hother
    rw [not_or] at hother
    have hshape : ∃ f c, item.topicFilter = b.eventTopicFilter item.eventType f c := by
      have hshape := hmirrors.shape item hitem
      cases htype : item.eventType <;> rw [htype] at hshape hother <;>
        first | exact hshape.2 | exact absurd rfl hother.1 | exact absurd rfl hother.2
    obtain ⟨filter, correlationId, hfilter⟩ := hshape
    rw [hfilter, hname, MqttBinding.eventTopicFilter, hown, if_neg Bool.false_ne_true,
      hmirrors.messagingNamespace] at hmatches
    exact MqttTopic.not_matches_namespace _ _ _ _ _ _ _ _ hvalid hvalid' hne hmatches
  · rintro ⟨item, hitem, _, hmatches⟩
    obtain ⟨topic, htype, htopic⟩ := MqttTopic.createByName_getTopicName MqttBinding.apiVersion.val
      eventLike.eventTypeFilter eventLike.sourceId eventLike.correlationId (isValidEventFilter_iff.mp hvalid).2 hlevel
    rw [← hname] at htopic
    rw [MqttBinding.encodePayload, hjson, if_neg Bool.false_ne_true] at hencoded
    obtain ⟨parsed, hparsed⟩ := hparse eventLike.data payload hencoded
    obtain ⟨event, hevent, heventType⟩ := b.dispatchMessage_coaty listener htopic htype hvalue hparsed
    refine ⟨⟨item, hitem, hmatches⟩, event, hevent, ?_, ?_⟩
    · rw [heventType]
      intro heq
      rw [Option.some.inj heq] at hlevel
      exact absurd hlevel (by decide)
    · rw [heventType]
      exact fun heq => hvalue (Option.some.inj heq)

def identityEvent : CommunicationEventLike Text where
  eventType := .advertise
  eventTypeFilter := some (text "Identity")
  sourceId := some (text "agent")
  correlationId := none
  data := some (text "agent")
  isDataRaw := false
  isExternalIoRoute := false
  retain := none

theorem namespace_isolation_identityEvent :
    let b := ((subscribeRun (text "plant/+")).foldl step (start ⟨none, none⟩)).binding
    let topicName := (MqttBinding.create ⟨some (text "plant"), none⟩ : MqttBinding Text).getTopicFor identityEvent
    ¬ b.HandedAsCoatyEvent (fun b _ => b) topicName (text "agent") ↔ ¬ b.SelectsTopic topicName :=
  namespace_isolation ⟨some (text "plant"), none⟩ ⟨none, none⟩ (subscribeRun (text "plant/+")) (by decide)
    identityEvent (text "agent") (fun b _ => b) (by rintro name ⟨⟩; decide) (by simp) (by decide) (by decide)
    (by decide) (by decide) rfl rfl (fun _ payload _ => ⟨payload, rfl⟩)

/-- A Raw subscription to all topics makes an agent of the default namespace see the identities of every other one. -/
theorem handedAsCoatyEvent_of_wildcard :
    Along step Enabled (start ⟨none, none⟩) (subscribeRun (text "#")) ∧
      ((subscribeRun (text "#")).foldl step (start ⟨none, none⟩)).binding.HandedAsCoatyEvent (fun b _ => b)
        ((MqttBinding.create ⟨some (text "plant"), none⟩ : MqttBinding Text).getTopicFor identityEvent)
        (text "agent") := by
  refine ⟨by decide, ⟨⟨.raw, text "#", false⟩, by decide, ⟨?_, fun hreserved => ?_⟩⟩, ?_⟩
  · rw [show (text "#").split Mqtt.separator = [Mqtt.multiWildcard] by decide]
    exact .multi _
  · exact absurd hreserved (by decide)
  · decide

end Session

end Coaty
