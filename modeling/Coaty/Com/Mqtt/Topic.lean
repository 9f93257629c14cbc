import Coaty.Com.CommunicationEvent
import Coaty.Js.Map
import Coaty.Js.Number

/-!
# Coaty topics

Publication topics and subscription topic filters of Coaty events, the parser for topic names, the validity check and the matcher of the MQTT binding. A topic consists of the levels protocol name, version, namespace, event and source id, and of a correlation id for every event type that is not one-way. The event level is a three-letter code, followed by `:` and the event filter if there is one.
-/

namespace Coaty

open Js

structure MqttTopic where
  version : Option Int
  messagingNamespace : Option Text
  eventType : Option CommunicationEventType
  eventTypeFilter : Option Text
  sourceId : Option Text
  correlationId : Option Text
deriving DecidableEq

namespace MqttTopic

def protocolName : Text := text "coaty"

def protocolNamePrefix : Text := protocolName ++ text "/"

def eventTypeFilterSeparator : UInt16 := unit ':'

def levelSeparator : UInt16 := unit '/'

def illegalTopicChars : Text := [0, unit '+', unit '#']

def eventTypeTopicLevels : List (Text × CommunicationEventType) :=
  [(text "ADV", .advertise), (text "DAD", .deadvertise), (text "CHN", .channel), (text "ASC", .associate),
    (text "IOV", .ioValue), (text "DSC", .discover), (text "RSV", .resolve), (text "QRY", .query),
    (text "RTV", .retrieve), (text "UPD", .update), (text "CPL", .complete), (text "CLL", .call),
    (text "RTN", .returnEvent)]

/-- `TOPIC_LEVELS_BY_EVENT_TYPE`, filled by walking over the keys of the table above. -/
def topicLevelsByEventType : Map CommunicationEventType Text :=
  eventTypeTopicLevels.foldl (fun levels entry => levels.set entry.2 entry.1) Map.empty

def getEventType (topicLevel : Text) : Option CommunicationEventType := eventTypeTopicLevels.lookup topicLevel

def getEventTopicLevelPrefix (eventType : CommunicationEventType) : Option Text :=
  topicLevelsByEventType.get eventType

def isOneWayEvent (eventType : CommunicationEventType) : Bool :=
  eventType.value > CommunicationEventType.oneWay.value &&
    eventType.value < CommunicationEventType.twoWay.value

/-- The event level of both topic names and topic filters. -/
def eventLevel (eventType : CommunicationEventType) (eventTypeFilter : Option Text) : Text :=
  match eventTypeFilter with
  | none => interpolate (getEventTopicLevelPrefix eventType)
  | some [] => interpolate (getEventTopicLevelPrefix eventType)
  | some filter => interpolate (getEventTopicLevelPrefix eventType) ++ eventTypeFilterSeparator :: filter

def getTopicName (version : Nat) (messagingNamespace : Text) (eventType : CommunicationEventType)
    (eventTypeFilter sourceId correlationId : Option Text) : Text :=
  let topic := protocolName ++ levelSeparator :: (numberToString version ++ levelSeparator ::
    (messagingNamespace ++ levelSeparator :: (eventLevel eventType eventTypeFilter ++ levelSeparator ::
      interpolate sourceId)))
  if isOneWayEvent eventType then topic else topic ++ levelSeparator :: interpolate correlationId

theorem getTopicName_ne_nil (version : Nat) (messagingNamespace : Text) (eventType : CommunicationEventType)
    (eventTypeFilter sourceId correlationId : Option Text) :
    getTopicName version messagingNamespace eventType eventTypeFilter sourceId correlationId ≠ [] := by
  rw [getTopicName]
  split <;> simp

def getTopicFilter (version : Nat) (messagingNamespace : Option Text) (eventType : CommunicationEventType)
    (eventTypeFilter correlationId : Option Text) : Text :=
  let levels := protocolName ++ levelSeparator :: (numberToString version ++ levelSeparator ::
    (orElse messagingNamespace (text "+") ++ levelSeparator :: (eventLevel eventType eventTypeFilter ++
      levelSeparator :: text "+")))
  if isOneWayEvent eventType then levels else levels ++ levelSeparator :: orElse correlationId (text "+")

def isCoatyTopicLike (topicName : Text) : Bool := topicName.startsWith protocolNamePrefix

/-- The UTF-8 length as the binding counts it, one code unit at a time. -/
def getUtf8BytesCount (str : Text) : Nat :=
  str.foldl (fun count code =>
    if code.toNat ≤ 0x7f then count + 1
    else if code.toNat ≤ 0x7ff then count + 2
    else if 0xd800 ≤ code.toNat ∧ code.toNat ≤ 0xdfff then count + 4
    else count + 3) 0

def isValidTopic (topic : Option Text) (forSubscription : Bool) : Bool :=
  match topic with
  | none => false
  | some topic =>
    if topic = [] then false
    else if topic.length * 4 > 65535 && getUtf8BytesCount topic > 65535 then false
    else if forSubscription then !topic.contains 0
    else !topic.any illegalTopicChars.contains

theorem not_mem_of_isValidTopic {topic : Text} {c : UInt16} (hc : c ∈ illegalTopicChars)
    (h : isValidTopic (some topic) false = true) : c ∉ topic := by
  intro hmem
  have hany : topic.any illegalTopicChars.contains = true :=
    List.any_eq_true.mpr ⟨c, hmem, List.contains_iff_mem.mpr hc⟩
  simp [isValidTopic, hany] at h

/-- The event level, split at the first `:`. A missing level raises the error of a method call on `undefined`. -/
def parseEvent (event : Option Text) : Except Error (Option CommunicationEventType × Option Text) :=
  match event with
  | none => .error .typeError
  | some event =>
    match event.indexOf eventTypeFilterSeparator with
    | none => .ok (getEventType event, none)
    | some index => .ok (getEventType (event.take index), some (event.drop (index + 1)))

/-- The inner `none` stands for a topic name that is not like a Coaty topic. -/
def createByName (topicName : Text) : Except Error (Option MqttTopic) := do
  if !isCoatyTopicLike topicName then
    return none
  let levels := topicName.split levelSeparator
  let (eventType, eventTypeFilter) ← parseEvent levels[3]?
  return some {
    version := parseInt (interpolate levels[1]?)
    messagingNamespace := levels[2]?
    eventType
    eventTypeFilter
    sourceId := levels[4]?
    correlationId := if levels[5]? = some [] then none else levels[5]? }

/-- The loop of `matches` from some pattern level on, where the topic has no level left once its list is empty. -/
def matchLevels (patternLength topicLength : Nat) : List Text → List Text → Bool
  | [], _ => patternLength == topicLength
  | pattern :: patterns, levels =>
    let level := levels.head?.getD []
    if level = [] ∧ pattern = [] then matchLevels patternLength topicLength patterns levels.tail
    else if level = [] ∧ pattern = text "+" then matchLevels patternLength topicLength patterns levels.tail
    else if level = [] ∧ pattern ≠ text "#" then false
    else if pattern = text "#" then patterns.isEmpty
    else if pattern ≠ text "+" ∧ pattern ≠ level then false
    else matchLevels patternLength topicLength patterns levels.tail

/-- `matches` -/
def matchesFilter (topic filter : Text) : Bool :=
  if topic = [] ∨ filter = [] then false
  else
    let patternLevels := filter.split levelSeparator
    let topicLevels := topic.split levelSeparator
    matchLevels patternLevels.length topicLevels.length patternLevels topicLevels

/-! ### The codes of the event level -/

/-- The event types that occur in topics. -/
def HasTopicLevel (eventType : CommunicationEventType) : Prop :=
  (getEventTopicLevelPrefix eventType).isSome = true

instance (eventType : CommunicationEventType) : Decidable (HasTopicLevel eventType) :=
  inferInstanceAs (Decidable (_ = true))

theorem getEventType_code (eventType : CommunicationEventType) :
    getEventType (interpolate (getEventTopicLevelPrefix eventType))
      = if HasTopicLevel eventType then some eventType else none := by
  cases eventType <;> decide

theorem prefix_eq_iff (left right : CommunicationEventType) :
    interpolate (getEventTopicLevelPrefix left) = interpolate (getEventTopicLevelPrefix right) ↔
      left = right ∨ (¬ HasTopicLevel left ∧ ¬ HasTopicLevel right) := by
  cases left <;> cases right <;> decide

theorem prefix_isLevel (eventType : CommunicationEventType) :
    IsLevel (interpolate (getEventTopicLevelPrefix eventType)) := by
  cases eventType <;> decide

theorem prefix_no_separator (eventType : CommunicationEventType) :
    eventTypeFilterSeparator ∉ interpolate (getEventTopicLevelPrefix eventType) := by
  cases eventType <;> decide

theorem isOneWayEvent_of_prefix_eq {left right : CommunicationEventType}
    (h : interpolate (getEventTopicLevelPrefix left) = interpolate (getEventTopicLevelPrefix right)) :
    isOneWayEvent left = isOneWayEvent right := by
  rcases (prefix_eq_iff left right).mp h with rfl | ⟨hleft, hright⟩
  · rfl
  · revert hleft hright
    cases left <;> cases right <;> decide

/-! ### The event level can be taken apart again -/

theorem eventLevel_none (eventType : CommunicationEventType) :
    eventLevel eventType none = interpolate (getEventTopicLevelPrefix eventType) := rfl

theorem eventLevel_some (eventType : CommunicationEventType) {filter : Text} (h : filter ≠ []) :
    eventLevel eventType (some filter)
      = interpolate (getEventTopicLevelPrefix eventType) ++ eventTypeFilterSeparator :: filter := by
  cases filter with
  | nil => exact absurd rfl h
  | cons c rest => rfl

theorem parseEvent_eventLevel (eventType : CommunicationEventType) {eventTypeFilter : Option Text}
    (hfilter : eventTypeFilter ≠ some []) :
    parseEvent (some (eventLevel eventType eventTypeFilter))
      = .ok (if HasTopicLevel eventType then some eventType else none, eventTypeFilter) := by
  have hsep := prefix_no_separator eventType
  cases eventTypeFilter with
  | none =>
    rw [eventLevel_none, parseEvent]
    simp only [Text.indexOf_of_not_mem hsep, getEventType_code]
  | some filter =>
    have hne : filter ≠ [] := fun h => hfilter (congrArg some h)
    rw [eventLevel_some eventType hne, parseEvent]
    simp only [Text.indexOf_append_cons filter hsep]
    rw [List.take_left, getEventType_code, ← List.drop_drop, List.drop_left]
    rfl

theorem eventLevel_isLevel (eventType : CommunicationEventType) {eventTypeFilter : Option Text}
    (hfilter : ∀ filter ∈ eventTypeFilter, IsLevel filter) :
    IsLevel (eventLevel eventType eventTypeFilter) := by
  match eventTypeFilter with
  | none => exact prefix_isLevel eventType
  | some [] => exact prefix_isLevel eventType
  | some (c :: rest) =>
    rw [eventLevel_some eventType (by simp)]
    refine (prefix_isLevel eventType).append fun d hd => ?_
    rcases List.mem_cons.mp hd with rfl | hd
    · decide
    · exact hfilter _ rfl d hd

theorem eventLevel_eq_iff {left right : CommunicationEventType} {leftFilter rightFilter : Option Text}
    (hleft : leftFilter ≠ some []) (hright : rightFilter ≠ some []) :
    eventLevel left leftFilter = eventLevel right rightFilter ↔
      interpolate (getEventTopicLevelPrefix left) = interpolate (getEventTopicLevelPrefix right) ∧
        leftFilter = rightFilter := by
  constructor
  · intro h
    have hparse := parseEvent_eventLevel left hleft
    rw [h, parseEvent_eventLevel right hright] at hparse
    have hpair := Except.ok.inj hparse
    rw [Prod.mk.injEq] at hpair
    refine ⟨?_, hpair.2.symm⟩
    rw [prefix_eq_iff]
    have htypes := hpair.1
    split at htypes <;> split at htypes
    · exact Or.inl (Option.some.inj htypes).symm
    · cases htypes
    · cases htypes
    · exact Or.inr ⟨by assumption, by assumption⟩
  · rintro ⟨hfront, rfl⟩
    match leftFilter with
    | none => exact hfront
    | some [] => exact hfront
    | some (c :: rest) =>
      rw [eventLevel_some left (by simp), eventLevel_some right (by simp), hfront]

end MqttTopic

end Coaty
