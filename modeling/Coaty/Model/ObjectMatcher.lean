import Coaty.Model.ObjectFilter
import Coaty.Util.Deep

/-!
# Matching objects against filters

A filter that has passed the validity check is read as its conditions, each with the path of a property, an operator and up to two operands. The path of a property leads through everything that a property can be read of, inherited members included. The pattern of a `Like` condition is a regular expression, built once and tested on the value.
-/

namespace Coaty

open Js Value Evaluation
open Checkable (hasProperty hasOptional)

inductive ObjectFilterProperties where
  | dotted (propNames : Text)
  | chain (propNames : List Text)

structure ObjectFilterCondition where
  properties : ObjectFilterProperties
  operator : ObjectFilterOperator
  operand1 : Option Value
  operand2 : Option Value

inductive ContextFilterConditions where
  | condition (condition : ObjectFilterCondition)
  | combined (and or : Option (List ObjectFilterCondition))

structure ContextFilter where
  conditions : Option ContextFilterConditions

/-! ### Reading filters -/

namespace ObjectFilterProperties

def stringOf : Value → Option Text
  | .string s => some s
  | _ => none

def ofValue : Value → Option ObjectFilterProperties
  | .string propNames => some (.dotted propNames)
  | .array propNames => (propNames.mapM stringOf).map .chain
  | _ => none

end ObjectFilterProperties

namespace ObjectFilterCondition

def ofValue : Value → Option ObjectFilterCondition
  | .array [properties, .array (operator :: operands)] => do
    let properties ← ObjectFilterProperties.ofValue properties
    let operator ← ObjectFilterOperator.ofValue operator
    return { properties, operator, operand1 := operands[0]?, operand2 := operands[1]? }
  | _ => none

/-- An array of conditions, or `undefined` if it is absent. -/
def listOf : Option Value → Option (Option (List ObjectFilterCondition))
  | none => some none
  | some (.array conditions) => (conditions.mapM ofValue).map some
  | some _ => none

end ObjectFilterCondition

namespace ContextFilter

def ofValue (filter : Value) : Option ContextFilter :=
  match filter.get (text "conditions") with
  | none => some ⟨none⟩
  | some (.object conditions) => do
    let and ← ObjectFilterCondition.listOf ((Value.object conditions).get (text "and"))
    let or ← ObjectFilterCondition.listOf ((Value.object conditions).get (text "or"))
    return ⟨some (.combined and or)⟩
  | some condition => (ObjectFilterCondition.ofValue condition).map fun condition => ⟨some (.condition condition)⟩

end ContextFilter

theorem isSome_ofValue_of_isFilterPropertiesValid {properties : Value} (h : isFilterPropertiesValid properties = true) :
    (ObjectFilterProperties.ofValue properties).isSome = true := by
  cases properties with
  | string propNames => rfl
  | array propNames =>
    rw [ObjectFilterProperties.ofValue, Option.isSome_map]
    apply isSome_mapM
    intro propName hmem
    have hstring := List.all_eq_true.mp h propName hmem
    cases propName with
    | string s => rfl
    | _ => cases hstring
  | _ => cases h

theorem isSome_ofValue_of_isFilterConditionValid {condition : Value} (h : isFilterConditionValid condition = true) :
    (ObjectFilterCondition.ofValue condition).isSome = true := by
  unfold isFilterConditionValid at h
  split at h
  · rename_i properties expression
    rw [Bool.and_eq_true] at h
    obtain ⟨hproperties, hexpression⟩ := h
    unfold isFilterExpressionValid at hexpression
    split at hexpression
    · rename_i operator operands
      obtain ⟨properties', hread⟩ := Option.isSome_iff_exists.mp (isSome_ofValue_of_isFilterPropertiesValid hproperties)
      obtain ⟨operator', hoperator⟩ := Option.isSome_iff_exists.mp hexpression
      rw [ObjectFilterCondition.ofValue, hread, hoperator]
      rfl
    · cases hexpression
  · cases h

theorem isSome_listOf {conditions : Value} {name : String}
    (h : hasOptional isFilterConditionArrayValid conditions name = true) :
    (ObjectFilterCondition.listOf (conditions.get (text name))).isSome = true := by
  rw [hasOptional, Checkable.get_value] at h
  cases hget : conditions.get (text name) with
  | none => rfl
  | some list =>
    rw [hget] at h
    cases list with
    | array list =>
      rw [ObjectFilterCondition.listOf, Option.isSome_map]
      exact isSome_mapM fun condition hmem =>
        isSome_ofValue_of_isFilterConditionValid (List.all_eq_true.mp h condition hmem)
    | _ => cases h

/-- Every filter that has passed the check can be read. -/
theorem isSome_ofValue_of_isContextFilterValid {filter : Value} (h : isContextFilterValid (some filter) = true) :
    (ContextFilter.ofValue filter).isSome = true := by
  rw [isContextFilterValid, Bool.and_eq_true] at h
  rw [ContextFilter.ofValue]
  cases hconditions : filter.get (text "conditions") with
  | none => rfl
  | some conditions =>
    have hvalid := h.2
    rw [hconditions, areFilterConditionsValid] at hvalid
    cases conditions with
    | object properties =>
      simp only [isFilterConditionValid, Bool.false_or, Bool.and_eq_true] at hvalid
      obtain ⟨and, hand⟩ := Option.isSome_iff_exists.mp (isSome_listOf hvalid.1.2)
      obtain ⟨or, hor⟩ := Option.isSome_iff_exists.mp (isSome_listOf hvalid.2)
      simp only [hand, hor]
      rfl
    | array items =>
      simp only [isPlainObject, Bool.false_and, Bool.or_false] at hvalid
      simp only [Option.isSome_map]
      exact isSome_ofValue_of_isFilterConditionValid hvalid
    | _ => cases hvalid

/-! ### Patterns -/

/-- A part of the regular expression for a `LIKE` pattern: a literal, `.` or `.*`. -/
inductive LikePart where
  | literal (c : UInt16)
  | anyOne
  | anyMany

/-- `_createLikeRegexp`, with the parts between `^` and `$`. -/
def createLikeRegexp (isEscaped : Bool) : Text → List LikePart
  | [] => []
  | c :: pattern =>
    if c = unit '\\' then
      if isEscaped then .literal c :: createLikeRegexp false pattern else createLikeRegexp true pattern
    else if c ∈ text ".*+?^$\x7b\x7d()|[]" then .literal c :: createLikeRegexp false pattern
    else if c = unit '_' ∧ isEscaped = false then .anyOne :: createLikeRegexp isEscaped pattern
    else if c = unit '%' ∧ isEscaped = false then .anyMany :: createLikeRegexp isEscaped pattern
    else .literal c :: createLikeRegexp false pattern

/-- What `.` does not match. -/
def isLineTerminator (c : UInt16) : Bool := c = 10 || c = 13 || c = 0x2028 || c = 0x2029

/-- Some rest of the text passes, and what comes before it has no line terminator. -/
def testMany (rest : Text → Bool) : Text → Bool
  | [] => rest []
  | c :: s => rest (c :: s) || (!isLineTerminator c && testMany rest s)

def testLike : List LikePart → Text → Bool
  | [], s => s.isEmpty
  | .literal c :: parts, s =>
    match s with
    | [] => false
    | c' :: s => c = c' && testLike parts s
  | .anyOne :: parts, s =>
    match s with
    | [] => false
    | c :: s => !isLineTerminator c && testLike parts s
  | .anyMany :: parts, s => testMany (testLike parts) s

/-! ### Matching -/

namespace ObjectMatcher

variable (engine : Engine)

def getFilterProperties : ObjectFilterProperties → List Text
  | .dotted propNames => propNames.split (unit '.')
  | .chain propNames => propNames

def getFilterPropertyValue (properties : ObjectFilterProperties) (obj : Value) : Option Member :=
  (getFilterProperties properties).foldl (fun p c => p.bind fun p => engine.read p c) (some (.value obj))

/-- The comparison of a value with an operand, by the collator if both are strings. -/
def compareOperand (value : Member) (operand : Option Value) (test : Ordering → Bool) : Except Error Bool :=
  match value, operand with
  | .value (.string value), some (.string operand) => .ok (test (engine.compare value operand))
  | value, operand => do return (← engine.orderOf (some value) (operand.map .value)).any test

def isBetween (value : Member) (lower upper : Option Value) : Except Error Bool := do
  if (← engine.orderOf (some value) (lower.map .value)).any Ordering.isGE then
    return (← engine.orderOf (some value) (upper.map .value)).any Ordering.isLE
  else return false

def isNotBetween (value : Member) (lower upper : Option Value) : Except Error Bool := do
  if (← engine.orderOf (some value) (lower.map .value)).any Ordering.isLT then return true
  else return (← engine.orderOf (some value) (upper.map .value)).any Ordering.isGT

def between (value : Member) (operand1 operand2 : Option Value) : Except Error Bool :=
  match value, operand1, operand2 with
  | .value (.string value), some (.string operand1), some (.string operand2) =>
    if (engine.compare operand1 operand2).isGT then
      .ok ((engine.compare value operand2).isGE && (engine.compare value operand1).isLE)
    else .ok ((engine.compare value operand1).isGE && (engine.compare value operand2).isLE)
  | value, operand1, operand2 => do
    if (← engine.orderOf (operand1.map .value) (operand2.map .value)).any Ordering.isGT then
      isBetween engine value operand2 operand1
    else isBetween engine value operand1 operand2

def notBetween (value : Member) (operand1 operand2 : Option Value) : Except Error Bool :=
  match value, operand1, operand2 with
  | .value (.string value), some (.string operand1), some (.string operand2) =>
    if (engine.compare operand1 operand2).isGT then
      .ok ((engine.compare value operand2).isLT || (engine.compare value operand1).isGT)
    else .ok ((engine.compare value operand1).isLT || (engine.compare value operand2).isGT)
  | value, operand1, operand2 => do
    if (← engine.orderOf (operand1.map .value) (operand2.map .value)).any Ordering.isGT then
      isNotBetween engine value operand2 operand1
    else isNotBetween engine value operand1 operand2

def like (value : Member) (operand : Option Value) : Bool :=
  match value, operand with
  | .value (.string value), some (.string pattern) => testLike (createLikeRegexp false pattern) value
  | _, _ => false

/-- `_matchesCondition` -/
def matchesCondition (obj : Value) (condition : ObjectFilterCondition) : Except Error Bool :=
  match getFilterPropertyValue engine condition.properties obj with
  | none => .ok (condition.operator = .notExists)
  | some value =>
    match condition.operator with
    | .notExists => .ok false
    | .lessThan => compareOperand engine value condition.operand1 Ordering.isLT
    | .lessThanOrEqual => compareOperand engine value condition.operand1 Ordering.isLE
    | .greaterThan => compareOperand engine value condition.operand1 Ordering.isGT
    | .greaterThanOrEqual => compareOperand engine value condition.operand1 Ordering.isGE
    | .between => between engine value condition.operand1 condition.operand2
    | .notBetween => notBetween engine value condition.operand1 condition.operand2
    | .like => .ok (like value condition.operand1)
    | .equals => Deep.equalsOperand value condition.operand1
    | .notEquals => do return !(← Deep.equalsOperand value condition.operand1)
    | .exist => .ok true
    | .contains => Deep.contains value condition.operand1
    | .notContains => do return !(← Deep.contains value condition.operand1)
    | .isIn => Deep.includes condition.operand1 value
    | .notIn => do return !(← Deep.includes condition.operand1 value)

def matchesFilter (obj : Option Value) (filter : Option ContextFilter) : Except Error Bool :=
  match obj, filter with
  | none, _ => .ok false
  | some _, none => .ok true
  | some obj, some filter =>
    match filter.conditions with
    | none => .ok true
    | some (.condition condition) => matchesCondition engine obj condition
    | some (.combined (some conditions) _) => conditions.allM (matchesCondition engine obj)
    | some (.combined none (some conditions)) => conditions.anyM (matchesCondition engine obj)
    | some (.combined none none) => .ok true

end ObjectMatcher

end Coaty
