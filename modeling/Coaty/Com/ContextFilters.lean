import Coaty.Com.EventData
import Coaty.Model.FilterEvaluation

/-!
# Filters of inbound events

A Call event carries a filter that is matched against the context of an observer, and a Query event one for the objects it asks for. Both have passed the check on filters when the event data is there. The filter of a Call event is evaluated for every context. That of a Query event never is, since one of its two lists of types is always absent and an absent list lets every object pass.
-/

namespace Coaty

open Js Value Evaluation ObjectMatcher

namespace EventData

namespace CallEventData

def contextFilter (data : CallEventData) : Option ContextFilter := data.filter.bind ContextFilter.ofValue

def matchesFilter (engine : Engine) (data : CallEventData) (context : Option Value) : Except Error Bool :=
  if data.filter.isSome && context.isSome then ObjectMatcher.matchesFilter engine context data.contextFilter
  else if data.filter.isNone && context.isSome then .ok false
  else .ok true

end CallEventData

namespace QueryEventData

/-- `types === undefined || types.some(t => t === type)` -/
def isListed (types : Option Value) (type : Option Value) : Bool :=
  match types with
  | none => true
  | some (.array types) => types.any fun t => type.any (Deep.strictEquals t)
  | some _ => false

def contextFilter (data : QueryEventData) : Option ContextFilter := data.objectFilter.bind ContextFilter.ofValue

def matchesObject (engine : Engine) (data : QueryEventData) (object : Option Value) : Except Error Bool :=
  if isTruthy object then
    if isListed data.coreTypes (object.bind (·.get (text "coreType"))) then .ok true
    else if isListed data.objectTypes (object.bind (·.get (text "objectType"))) then .ok true
    else if data.objectFilter.isNone then .ok true
    else ObjectMatcher.matchesFilter engine object data.contextFilter
  else .ok false

/-- The filter of a Query event is not evaluated. -/
theorem matchesObject_eq (engine : Engine) (data : QueryEventData) (object : Option Value) :
    data.matchesObject engine object = .ok (isTruthy object) := by
  rw [matchesObject]
  cases htruthy : isTruthy object with
  | false => rfl
  | true =>
    obtain ⟨htypes, _⟩ | ⟨htypes, _⟩ := data.valid.2.2
    · simp [htypes, isListed]
    · simp [htypes, isListed]

end QueryEventData

end EventData

open EventData

/-- The conditions that are reached can be evaluated. -/
def EvaluableWhereReached (engine : Engine) (obj : Value) (filter : ContextFilter) : Prop :=
  ∀ conditions, filter.conditions = some conditions → ∀ condition, IsReached engine obj condition conditions →
    Evaluable engine obj condition

/-- A valid filter is evaluated without an error, by itself and as the filter of a Call event, exactly if the conditions that are reached can be evaluated. As the filter of a Query event it does no harm. -/
theorem evaluates_iff (engine : Engine) (obj filter : Value) (hvalid : isContextFilterValid (some filter) = true) :
    ∃ contextFilter, ContextFilter.ofValue filter = some contextFilter ∧
      (Returns (matchesFilter engine (some obj) (some contextFilter)) ↔
        EvaluableWhereReached engine obj contextFilter) ∧
      (∀ data : CallEventData, data.filter = some filter →
        (Returns (data.matchesFilter engine (some obj)) ↔ EvaluableWhereReached engine obj contextFilter)) ∧
      ∀ data : QueryEventData, data.objectFilter = some filter → Returns (data.matchesObject engine (some obj)) := by
  obtain ⟨contextFilter, hread⟩ := Option.isSome_iff_exists.mp (isSome_ofValue_of_isContextFilterValid hvalid)
  have hreturns := returns_matchesFilter_iff engine obj contextFilter
  refine ⟨contextFilter, hread, hreturns, ?_, ?_⟩
  · intro data hfilter
    have hmatches : data.matchesFilter engine (some obj) = matchesFilter engine (some obj) (some contextFilter) := by
      rw [CallEventData.matchesFilter, CallEventData.contextFilter, hfilter, Option.bind_some, hread]
      rfl
    rw [hmatches]
    exact hreturns
  · intro data _
    rw [data.matchesObject_eq]
    exact returns_ok _

/-- An engine in which nothing is inherited and strings are never numbers. -/
def bareEngine : Engine where
  objectMethods _ := none
  arrayMethods _ := none
  compare s t := compareOfLessAndEq s t
  numberToString _ := text "0"
  stringToNumber _ := none

/-- A lamp with a nested state. -/
def lamp : Value :=
  .object [(text "name", .string (text "Lamp")), (text "objectType", .string (text "com.lamp")),
    (text "coreType", .string (text "CoatyObject")), (text "objectId", .string (text "lamp")),
    (text "state", .object [(text "toString", .bool true), (text "hasOwnProperty", .bool true)])]

/-- The filter with a single condition. -/
def filterOn (property : String) (operator : ObjectFilterOperator) (operands : List Value) : Value :=
  .object [(text "conditions", .array [.string (text property), .array (.number operator.value :: operands)])]

/-- What matching the lamp against a filter yields. -/
def matchLamp (filter : Value) : Option (Except Error Bool) :=
  (ContextFilter.ofValue filter).map fun filter => matchesFilter bareEngine (some lamp) (some filter)

theorem evaluates_iff_lamp :
    ∃ contextFilter, ContextFilter.ofValue (filterOn "name" .equals [.string (text "Lamp")]) = some contextFilter ∧
      (Returns (matchesFilter bareEngine (some lamp) (some contextFilter)) ↔
        EvaluableWhereReached bareEngine lamp contextFilter) ∧
      (∀ data : CallEventData, data.filter = some (filterOn "name" .equals [.string (text "Lamp")]) →
        (Returns (data.matchesFilter bareEngine (some lamp)) ↔ EvaluableWhereReached bareEngine lamp contextFilter)) ∧
      ∀ data : QueryEventData, data.objectFilter = some (filterOn "name" .equals [.string (text "Lamp")]) →
        Returns (data.matchesObject bareEngine (some lamp)) :=
  evaluates_iff bareEngine lamp (filterOn "name" .equals [.string (text "Lamp")]) (by decide)

/-- Valid filters that cannot be evaluated: an operand that is no array, `null` in an object, an object that hides `hasOwnProperty` and one that hides `toString`. -/
theorem not_evaluates_lamp :
    CoreTypes.isObject lamp = true ∧
      ∀ filter ∈ [filterOn "name" .isIn [.string (text "Lamp")], filterOn "state" .contains [.null],
        filterOn "state" .contains [.object [(text "on", .bool true)]], filterOn "state" .lessThan [.number 1]],
        isContextFilterValid (some filter) = true ∧ matchLamp filter = some (.error .typeError) := by
  refine ⟨by decide, ?_⟩
  simp only [List.forall_mem_cons, List.not_mem_nil, false_imp_iff, implies_true, and_true]
  exact ⟨⟨by decide, rfl⟩, ⟨by decide, rfl⟩, ⟨by decide, rfl⟩, ⟨by decide, rfl⟩⟩

end Coaty
