import Coaty.Js.Value

/-!
# Filters and join conditions

The validity checks on filters and join conditions, which look at the structure of a filter and at its operators but not at the operands. The check on an object filter reads `skip` after the check on a context filter has let a missing filter pass.
-/

namespace Coaty

open Js Value
open Checkable (hasProperty hasOptional)

inductive ObjectFilterOperator where
  | lessThan
  | lessThanOrEqual
  | greaterThan
  | greaterThanOrEqual
  | between
  | notBetween
  | like
  | equals
  | notEquals
  | exist
  | notExists
  | contains
  | notContains
  | isIn
  | notIn
deriving DecidableEq

namespace ObjectFilterOperator

/-- The operators in the order of their numbers. -/
def all : List ObjectFilterOperator :=
  [.lessThan, .lessThanOrEqual, .greaterThan, .greaterThanOrEqual, .between, .notBetween, .like, .equals, .notEquals,
    .exist, .notExists, .contains, .notContains, .isIn, .notIn]

/-- The number of an operator. -/
def value (operator : ObjectFilterOperator) : Rat := all.idxOf operator

/-- The operator with the given number. -/
def ofValue : Value → Option ObjectFilterOperator
  | .number n => all.find? fun operator => operator.value = n
  | _ => none

end ObjectFilterOperator

/-! ### Filters -/

def isFilterPropertiesValid : Value → Bool
  | .string properties => !properties.isEmpty
  | .array properties => properties.all isString
  | _ => false

def isFilterExpressionValid : Value → Bool
  | .array (operator :: _) => (ObjectFilterOperator.ofValue operator).isSome
  | _ => false

def isFilterConditionValid : Value → Bool
  | .array [properties, expression] => isFilterPropertiesValid properties && isFilterExpressionValid expression
  | _ => false

def isFilterConditionArrayValid : Value → Bool := isArrayOf isFilterConditionValid

def areFilterConditionsValid : Option Value → Bool
  | none => true
  | some conds =>
    isFilterConditionValid conds ||
      (isPlainObject conds && !(isTruthy (conds.get (text "and")) && isTruthy (conds.get (text "or"))) &&
        hasOptional isFilterConditionArrayValid conds "and" && hasOptional isFilterConditionArrayValid conds "or")

def isContextFilterValid : Option Value → Bool
  | none => true
  | some filter => isPlainObject filter && areFilterConditionsValid (filter.get (text "conditions"))

def isOrderByPropertyValid : Value → Bool
  | .array [.string _, .string order] => order = text "Asc" || order = text "Desc"
  | .array [.array properties, .string order] => properties.all isString && (order = text "Asc" || order = text "Desc")
  | _ => false

def areOrderByPropertiesValid : Value → Bool := isArrayOf isOrderByPropertyValid

def isObjectFilterValid (filter : Option Value) : Except Error Bool :=
  if isContextFilterValid filter then
    match filter with
    | none => .error .typeError
    | some filter => .ok (hasOptional isNumber filter "skip" && hasOptional isNumber filter "take" &&
        hasOptional areOrderByPropertiesValid filter "orderByProperties")
  else .ok false

/-! ### Join conditions -/

def isJoinConditionValid (joinCond : Value) : Bool :=
  isPlainObject joinCond && hasProperty isString joinCond "localProperty" &&
    hasProperty isString joinCond "asProperty" && hasOptional isBoolean joinCond "isLocalPropertyArray" &&
    hasOptional isBoolean joinCond "isOneToOneRelation"

def areObjectJoinConditionsValid : Option Value → Bool
  | none => true
  | some (.array joinConds) => joinConds.all isJoinConditionValid
  | some joinCond => isJoinConditionValid joinCond

end Coaty
