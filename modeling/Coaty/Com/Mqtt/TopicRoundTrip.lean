import Coaty.Com.Mqtt.Binding
import Coaty.Com.Mqtt.TopicSelection

/-!
# Topic names can be read back

The levels of a publication topic as a value of their own, with everything that makes them publishable as fields. Below the version where numbers change to exponent notation the parser recovers all of them, so a name determines its levels, and no Raw event can be published on such a name.
-/

namespace Coaty

open Js CommunicationEvent

/-- The levels of a publishable Coaty topic. -/
@[ext] structure TopicLevels where
  version : Integer
  messagingNamespace : Text
  eventType : CommunicationEventType
  eventTypeFilter : Option Text
  sourceId : Text
  correlationId : Option Text
  namespace_valid : isValidEventFilter messagingNamespace = true
  eventType_level : MqttTopic.HasTopicLevel eventType
  filter_valid : ∀ filter ∈ eventTypeFilter, isValidEventFilter filter = true
  source_valid : isValidEventFilter sourceId = true
  correlation_valid : ∀ id ∈ correlationId, isValidEventFilter id = true
  correlation_present : correlationId.isSome = !MqttTopic.isOneWayEvent eventType

namespace TopicLevels

def name (t : TopicLevels) : Text :=
  MqttTopic.getTopicName t.version.val t.messagingNamespace t.eventType t.eventTypeFilter (some t.sourceId)
    t.correlationId

def topic (t : TopicLevels) : MqttTopic where
  version := some t.version.val
  messagingNamespace := some t.messagingNamespace
  eventType := some t.eventType
  eventTypeFilter := t.eventTypeFilter
  sourceId := some t.sourceId
  correlationId := t.correlationId

theorem split_name (t : TopicLevels) :
    t.name.split MqttTopic.levelSeparator
      = [MqttTopic.protocolName, numberToString t.version.val, t.messagingNamespace,
          MqttTopic.eventLevel t.eventType t.eventTypeFilter, t.sourceId] ++ t.correlationId.toList := by
  have hsource : ∀ id ∈ some t.sourceId, IsLevel id := by
    rintro id ⟨⟩
    exact (isValidEventFilter_iff.mp t.source_valid).2
  rw [name, MqttTopic.split_getTopicName t.version.val t.eventType
    (isValidEventFilter_iff.mp t.namespace_valid).2 (MqttTopic.isLevel_of_valid t.filter_valid) hsource
    (MqttTopic.isLevel_of_valid t.correlation_valid)]
  have hpresent := t.correlation_present
  cases hcorrelation : t.correlationId with
  | none =>
    rw [hcorrelation] at hpresent
    have hway : MqttTopic.isOneWayEvent t.eventType = true := by simpa using hpresent
    rw [hway]
    rfl
  | some id =>
    rw [hcorrelation] at hpresent
    have hway : MqttTopic.isOneWayEvent t.eventType = false := by simpa using hpresent
    rw [hway]
    rfl

theorem isCoatyTopicLike_name (t : TopicLevels) : MqttTopic.isCoatyTopicLike t.name = true := by
  have hfront : MqttTopic.protocolNamePrefix
      = MqttTopic.protocolName ++ [MqttTopic.levelSeparator] := by decide
  rw [MqttTopic.isCoatyTopicLike, Text.startsWith_iff, hfront, name, MqttTopic.getTopicName]
  split
  · exact ⟨_, by rw [List.append_assoc]; rfl⟩
  · exact ⟨_, by rw [List.append_assoc, List.append_assoc]; rfl⟩

theorem createByName_eq (t : TopicLevels) :
    MqttTopic.createByName t.name
      = .ok (some { t.topic with version := parseInt (numberToString t.version.val) }) := by
  have hparse := MqttTopic.parseEvent_eventLevel t.eventType (MqttTopic.ne_nil_of_valid t.filter_valid)
  rw [if_pos t.eventType_level] at hparse
  have hcorrelation : (if t.correlationId = some [] then none else t.correlationId) = t.correlationId := by
    rw [if_neg (MqttTopic.ne_nil_of_valid t.correlation_valid)]
  have hlast : t.correlationId.toList[0]? = t.correlationId := by
    cases t.correlationId <;> rfl
  rw [MqttTopic.createByName, isCoatyTopicLike_name, split_name]
  simp only [Bool.not_true, Bool.false_eq_true, if_false, List.cons_append, List.nil_append,
    List.getElem?_cons_succ, List.getElem?_cons_zero, hparse, hlast, hcorrelation]
  rfl

theorem createByName_name (t : TopicLevels) (hversion : t.version.val < 10 ^ 21) :
    MqttTopic.createByName t.name = .ok (some t.topic) := by
  rw [createByName_eq, parseInt_numberToString hversion t.version.exact]
  rfl

/-- Names are injective for every version, since exponent forms are never written for two versions. -/
theorem name_injective {s t : TopicLevels} (h : s.name = t.name) : s = t := by
  have hsplit := congrArg (fun name => name.split MqttTopic.levelSeparator) h
  simp only [split_name, List.cons_append, List.nil_append, List.cons.injEq, true_and] at hsplit
  obtain ⟨hversion, hnamespace, hlevel, hsource, hcorrelation⟩ := hsplit
  obtain ⟨hfront, hfilter⟩ := (MqttTopic.eventLevel_eq_iff (MqttTopic.ne_nil_of_valid s.filter_valid)
    (MqttTopic.ne_nil_of_valid t.filter_valid)).mp hlevel
  have htype : s.eventType = t.eventType := by
    rcases (MqttTopic.prefix_eq_iff _ _).mp hfront with heq | ⟨hnone, -⟩
    · exact heq
    · exact absurd s.eventType_level hnone
  have hval := numberToString_injective s.version.exact t.version.exact hversion
  have hid : s.correlationId = t.correlationId := by simpa using congrArg List.head? hcorrelation
  exact TopicLevels.ext (Integer.ext hval) hnamespace htype hfilter hsource hid

theorem not_acceptsPublication_name {Data : Type} (t : TopicLevels) {eventLike : CommunicationEventLike Data}
    (hraw : eventLike.eventType = .raw) (hname : eventLike.eventTypeFilter = some t.name) :
    MqttBinding.acceptsPublication eventLike = false := by
  simp [MqttBinding.acceptsPublication, hraw, hname, isCoatyTopicLike_name]

/-- A topic name is read back level for level below version `10^21`. That it determines the levels, and that a Raw event on it is not published, does not depend on the version. -/
theorem round_trip {Data : Type} [Json Data] (t : TopicLevels) :
    (t.version.val < 10 ^ 21 → MqttTopic.createByName t.name = .ok (some t.topic)) ∧
      (∀ s : TopicLevels, s.name = t.name → s = t) ∧
      ∀ (b : MqttBinding Data) (eventLike : CommunicationEventLike Data), eventLike.eventType = .raw →
        eventLike.eventTypeFilter = some t.name → b.onPublish eventLike = b := by
  refine ⟨createByName_name t, fun s h => name_injective h, fun b eventLike hraw hname => ?_⟩
  rw [MqttBinding.onPublish, not_acceptsPublication_name t hraw hname]
  rfl

/-- The topic on which an agent advertises its identity. -/
def identityTopic : TopicLevels where
  version := MqttBinding.apiVersion
  messagingNamespace := text "-"
  eventType := .advertise
  eventTypeFilter := some (text "Identity")
  sourceId := text "agent"
  correlationId := none
  namespace_valid := by decide
  eventType_level := by decide
  filter_valid := by decide
  source_valid := by decide
  correlation_valid := by decide
  correlation_present := by decide

theorem round_trip_identityTopic :
    MqttTopic.createByName identityTopic.name = .ok (some identityTopic.topic) :=
  (@round_trip Text jsonText identityTopic).1 (by decide)

/-- The same topic at the first version that is written with an exponent. -/
def exponentTopic : TopicLevels := { identityTopic with version := ⟨10 ^ 21, by decide⟩ }

/-- The version level is `1e+21`, of which the parser reads the leading digit only. -/
theorem createByName_exponentTopic :
    MqttTopic.createByName exponentTopic.name = .ok (some { exponentTopic.topic with version := some 1 }) ∧
      MqttTopic.createByName exponentTopic.name ≠ .ok (some exponentTopic.topic) := by
  decide +kernel

end TopicLevels

end Coaty
