import Coaty.Js.Text

/-!
# Communication events

The event types of Coaty communication in the order of their numbers, the event like that a binding and the communication manager exchange, and the check on event filters. An event filter is a non-empty string without the characters that MQTT topics reserve.
-/

namespace Coaty

open Js

abbrev Uuid := NonEmptyText

inductive CommunicationEventType where
  | external
  | raw
  | oneWay
  | advertise
  | deadvertise
  | channel
  | associate
  | ioValue
  | twoWay
  | discover
  | resolve
  | query
  | retrieve
  | update
  | complete
  | call
  | returnEvent
deriving DecidableEq, Repr

/-- The number of an event type, its position in the enumeration. -/
def CommunicationEventType.value : CommunicationEventType → Nat
  | .external => 0
  | .raw => 1
  | .oneWay => 2
  | .advertise => 3
  | .deadvertise => 4
  | .channel => 5
  | .associate => 6
  | .ioValue => 7
  | .twoWay => 8
  | .discover => 9
  | .resolve => 10
  | .query => 11
  | .retrieve => 12
  | .update => 13
  | .complete => 14
  | .call => 15
  | .returnEvent => 16

/-- What a binding publishes, subscribes or unsubscribes. The type of the event data is left to the caller. -/
structure CommunicationEventLike (Data : Type) where
  eventType : CommunicationEventType
  eventTypeFilter : Option Text
  sourceId : Option Text
  correlationId : Option Text
  data : Option Data
  isDataRaw : Bool
  isExternalIoRoute : Bool
  /-- The binding option `retain`, the only one that the MQTT binding reads. -/
  retain : Option Bool
deriving DecidableEq

namespace CommunicationEvent

/-- The characters that `EVENT_FILTER_REGEX` excludes. -/
def illegalFilterChars : Text := [0, unit '+', unit '#', unit '/']

def isValidEventFilter (name : Text) : Bool :=
  !name.isEmpty && name.all fun c => !illegalFilterChars.contains c

end CommunicationEvent

open CommunicationEvent

/-- Text that fits into one topic level. -/
def IsLevel (s : Text) : Prop := ∀ c ∈ s, c ∉ illegalFilterChars

instance (s : Text) : Decidable (IsLevel s) := List.decidableBAll (· ∉ illegalFilterChars) s

theorem isValidEventFilter_iff {name : Text} :
    isValidEventFilter name = true ↔ name ≠ [] ∧ IsLevel name := by
  simp only [isValidEventFilter, Bool.and_eq_true, Bool.not_eq_true', List.isEmpty_eq_false_iff,
    List.all_eq_true, List.contains_eq_mem, decide_eq_false_iff_not, IsLevel]

theorem IsLevel.not_mem {s : Text} {c : UInt16} (h : IsLevel s) (hc : c ∈ illegalFilterChars) : c ∉ s :=
  fun hs => h c hs hc

theorem IsLevel.append {s t : Text} (hs : IsLevel s) (ht : IsLevel t) : IsLevel (s ++ t) := by
  intro c hc
  rcases List.mem_append.mp hc with hc | hc
  · exact hs c hc
  · exact ht c hc

end Coaty
