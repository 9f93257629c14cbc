import Coaty.Db.Postgres.Jsonb
import Coaty.Db.Postgres.LikePattern
import Coaty.Model.FilterLaws

/-!
# The meaning of a WHERE clause

A filter condition with valid operands becomes one SQL condition, whose text is the clause that the adapter writes for it. What the database server makes of an SQL condition on a stored object is a truth, where no truth at all means that the statement fails.
-/

namespace Coaty

namespace Postgres

open Js Deep Evaluation

/-! ### Conditions with valid operands -/

inductive OrderOperator where
  | lessThan
  | lessThanOrEqual
  | greaterThan
  | greaterThanOrEqual

def OrderOperator.toComparison : OrderOperator → Comparison
  | lessThan => .less
  | lessThanOrEqual => .lessEqual
  | greaterThan => .greater
  | greaterThanOrEqual => .greaterEqual

/-- What a condition asks of the value of a property. -/
inductive Criterion where
  | ordering (operator : OrderOperator) (operand : Value)
  | interval (isNegated : Bool) (operand1 operand2 : Value)
  | like (likePattern : Text)
  | equality (isNegated : Bool) (operand : Value)
  | existence (isNegated : Bool)
  | containment (isNegated : Bool) (operand : Value)
  | membership (isNegated : Bool) (items : List Value)

/-- Both are numbers, or both are strings. -/
def ofOneKind : Value → Value → Bool
  | .number _, .number _ => true
  | .string _, .string _ => true
  | _, _ => false

namespace Criterion

def orderingOf (operator : OrderOperator) : Option Value → Option Criterion
  | some operand => if ofOneKind operand operand then some (.ordering operator operand) else none
  | none => none

def intervalOf (isNegated : Bool) : Option Value → Option Value → Option Criterion
  | some operand1, some operand2 => if ofOneKind operand1 operand2 then some (.interval isNegated operand1 operand2) else none
  | _, _ => none

def likeOf : Option Value → Option Criterion
  | some (.string likePattern) => some (.like likePattern)
  | _ => none

def membershipOf (isNegated : Bool) : Option Value → Option Criterion
  | some (.array items) => some (.membership isNegated items)
  | _ => none

/-- The criterion of a condition, if its operands are valid: numbers or strings of one kind for an order, a string for a pattern, an array for membership, and JSON values elsewhere. -/
def ofCondition (cond : ObjectFilterCondition) : Option Criterion :=
  match cond.operator with
  | .lessThan => orderingOf .lessThan cond.operand1
  | .lessThanOrEqual => orderingOf .lessThanOrEqual cond.operand1
  | .greaterThan => orderingOf .greaterThan cond.operand1
  | .greaterThanOrEqual => orderingOf .greaterThanOrEqual cond.operand1
  | .between => intervalOf false cond.operand1 cond.operand2
  | .notBetween => intervalOf true cond.operand1 cond.operand2
  | .like => likeOf cond.operand1
  | .equals => cond.operand1.map (.equality false)
  | .notEquals => cond.operand1.map (.equality true)
  | .exist => some (.existence false)
  | .notExists => some (.existence true)
  | .contains => cond.operand1.map (.containment false)
  | .notContains => cond.operand1.map (.containment true)
  | .isIn => membershipOf false cond.operand1
  | .notIn => membershipOf true cond.operand1

end Criterion

/-- A property, which is at the end of a path that is not empty, and what is asked of its value. -/
structure Requirement where
  prop : Text
  propsChain : List Text
  criterion : Criterion

namespace Requirement

def keys (requirement : Requirement) : List Text := requirement.prop :: requirement.propsChain

def ofCondition (cond : ObjectFilterCondition) : Option Requirement :=
  match ObjectMatcher.getFilterProperties cond.properties, Criterion.ofCondition cond with
  | prop :: propsChain, some criterion => some ⟨prop, propsChain, criterion⟩
  | _, _ => none

end Requirement

/-! ### SQL conditions -/

inductive SqlCondition where
  | jsonpath (expression : JsonpathExpression Value)
  | order (keys : List Text) (operator : Comparison) (operand : Value)
  | between (keys : List Text) (isNegated : Bool) (operand1 operand2 : Value)
  | like (keys : List Text) (likePattern : Text)
  | equality (keys : List Text) (isNegated : Bool) (operand : Value)
  | existence (prop : Text) (propsChain : List Text) (isNegated : Bool)
  | containment (isNegated : Bool) (operand : Value)
  | membership (keys : List Text) (isNegated : Bool) (items : List Value)

section Text

variable (engine : Engine)

/-- The expression between the quotes. -/
def expressionText : JsonpathExpression Value → Text
  | .comparison keys operator operand =>
    getJsonpathKeys keys ++ text " " ++ operator.toText ++ text " " ++ asJsonpathLiteral (engine.stringify operand) true
  | .existence keys isNegated => (if isNegated then text "!" else []) ++ text "exists(" ++ getJsonpathKeys keys ++ text ")"
  | .likeRegex keys pattern => getJsonpathKeys keys ++ text " like_regex " ++ asJsonpathLiteral (jsonString pattern) true
  | .interval keys isNegated lower upper =>
    getJsonpathKeys keys ++ text " ? (@ " ++ text (if isNegated then "<" else ">=") ++ text " " ++
      asJsonpathLiteral (engine.stringify lower) true ++ text " " ++ text (if isNegated then "|| @ >" else "&& @ <=") ++
      text " " ++ asJsonpathLiteral (engine.stringify upper) true ++ text ")"

namespace SqlCondition

/-- The texts that are passed as parameters. -/
def params : SqlCondition → List Text
  | jsonpath _ => []
  | order _ _ operand => [engine.stringify operand]
  | between _ _ operand1 operand2 => [engine.stringify operand1, engine.stringify operand2]
  | like _ likePattern => [likePattern]
  | equality _ _ operand => [engine.stringify operand]
  | existence _ _ _ => []
  | containment _ operand => [engine.stringify operand]
  | membership _ _ items => [engine.stringify (.array items)]

/-- A parameter or its placeholder. -/
def paramText (embedParams : Bool) (param : Text) (index : Nat) : Text :=
  if embedParams then asLiteral param else text "$" ++ decimal index

/-- The clause, in which the first parameter has the given index. -/
def clauseText (embedParams : Bool) (index : Nat) : SqlCondition → Text
  | jsonpath (.interval keys isNegated lower upper) =>
    text "(object @? '" ++ expressionText engine (.interval keys isNegated lower upper) ++ text "')"
  | jsonpath expression => text "(object @@ '" ++ expressionText engine expression ++ text "')"
  | order keys operator operand =>
    text "(" ++ getObjectIndexer keys false ++ text " " ++ operator.toText ++ text " " ++
      paramText embedParams (engine.stringify operand) index ++ text "::jsonb)"
  | between keys isNegated operand1 operand2 =>
    text "(" ++ getObjectIndexer keys false ++ text " " ++ text (if isNegated then "NOT BETWEEN" else "BETWEEN") ++
      text " SYMMETRIC " ++ paramText embedParams (engine.stringify operand1) index ++ text "::jsonb AND " ++
      paramText embedParams (engine.stringify operand2) (index + 1) ++ text "::jsonb)"
  | like keys likePattern =>
    text "(" ++ getObjectIndexer keys true ++ text " LIKE " ++ paramText embedParams likePattern index ++ text ")"
  | equality keys isNegated operand =>
    text "(" ++ getObjectIndexer keys false ++ (if isNegated then text " <> " else text " = ") ++
      paramText embedParams (engine.stringify operand) index ++ text "::jsonb)"
  | existence prop propsChain isNegated =>
    text "(" ++ (if isNegated then text "NOT (" else []) ++
      (text "object ? " ++ asLiteral prop ++ existenceRest [prop] propsChain) ++ (if isNegated then text ")" else []) ++ text ")"
  | containment isNegated operand =>
    text "(" ++ (if isNegated then text "NOT " else []) ++ text "object @> " ++
      paramText embedParams (engine.stringify operand) index ++ text "::jsonb)"
  | membership keys isNegated items =>
    text "(" ++ getObjectIndexer keys false ++ text " " ++ text (if isNegated then "not in" else "in") ++
      text " (SELECT value FROM jsonb_array_elements(" ++
      paramText embedParams (engine.stringify (.array items)) index ++ text "::jsonb)))"

end SqlCondition

end Text

/-! ### What an SQL condition means -/

mutual

def textsOf : Value → List Text
  | .string s => [s]
  | .array items => textsOfItems items
  | .object properties => textsOfProperties properties
  | _ => []

def textsOfItems : List Value → List Text
  | [] => []
  | item :: items => textsOf item ++ textsOfItems items

def textsOfProperties : List (Text × Value) → List Text
  | [] => []
  | (name, value) :: properties => name :: textsOf value ++ textsOfProperties properties

end

def JsonpathExpression.texts : JsonpathExpression Value → List Text
  | comparison keys _ operand => keys ++ textsOf operand
  | existence keys _ => keys
  | likeRegex keys pattern => keys ++ [pattern]
  | interval keys _ lower upper => keys ++ (textsOf lower ++ textsOf upper)

namespace SqlCondition

def texts : SqlCondition → List Text
  | jsonpath expression => expression.texts
  | order keys _ operand => keys ++ textsOf operand
  | between keys _ operand1 operand2 => keys ++ (textsOf operand1 ++ textsOf operand2)
  | like keys likePattern => keys ++ [likePattern]
  | equality keys _ operand => keys ++ textsOf operand
  | existence prop propsChain _ => prop :: propsChain
  | containment _ operand => textsOf operand
  | membership keys _ items => keys ++ textsOfItems items

end SqlCondition

namespace Lax

def likeRegex (parts : List LikePart) : Value → Truth
  | .string s => some (testRegex parts s)
  | _ => none

def evaluate (obj : Value) : JsonpathExpression Value → Option Truth
  | .comparison keys operator operand =>
    some (Lax.holds (fun v => Lax.compareItems operator v operand) (Lax.items keys obj))
  | .existence keys isNegated => some (Truth.notIf isNegated (some !(Lax.items keys obj).isEmpty))
  | .likeRegex keys pattern => (readRegex pattern).map fun parts => Lax.holds (likeRegex parts) (Lax.items keys obj)
  | .interval keys isNegated lower upper =>
    some (some (((Lax.items keys obj).flatMap Lax.opened).any fun v =>
      Lax.inInterval isNegated lower upper v = some true))

end Lax

namespace Database

variable (database : Database)

/-- `BETWEEN SYMMETRIC` -/
def isBetween (v a b : Value) : Bool :=
  ((database.compareValues v a).isGE && (database.compareValues v b).isLE) ||
    ((database.compareValues v b).isGE && (database.compareValues v a).isLE)

/-- The truth of a condition on a stored object. -/
def truthOf (obj : Value) : SqlCondition → Option Truth
  | .jsonpath expression => Lax.evaluate obj expression
  | .order keys operator operand =>
    some ((database.find obj keys).map fun v => operator.test (database.compareValues v operand))
  | .between keys isNegated operand1 operand2 =>
    some (Truth.notIf isNegated ((database.find obj keys).map fun v => database.isBetween v operand1 operand2))
  | .like keys likePattern =>
    (likeParts likePattern).map fun parts => ((database.find obj keys).bind database.asText).map (testLikeParts parts)
  | .equality keys isNegated operand =>
    some (Truth.notIf isNegated ((database.find obj keys).map fun v => sameContent v operand))
  | .existence prop propsChain isNegated => some (Truth.notIf isNegated (database.hasKeys (some obj) (prop :: propsChain)))
  | .containment isNegated operand => some (Truth.notIf isNegated (some (Jsonb.contains obj operand)))
  | .membership keys isNegated items =>
    some (Truth.notIf isNegated
      (if items.isEmpty then some false else (database.find obj keys).map fun v => items.any fun item => sameContent item v))

/-- A statement fails if one of its texts cannot be held by the database. -/
def evaluate (obj : Value) (condition : SqlCondition) : Option Truth :=
  if ∀ s ∈ condition.texts, IsStorable s then database.truthOf obj condition else none

end Database

structure WhereClause where
  conditions : List SqlCondition
  combineAnd : Bool

/-- The truth of the clause on a stored object. Without conditions there is no clause, and every object is selected. -/
def WhereClause.evaluate (database : Database) (obj : Value) (clause : WhereClause) : Option Truth :=
  if clause.conditions.isEmpty then some (some true)
  else (clause.conditions.mapM (database.evaluate obj)).map (if clause.combineAnd then Truth.all else Truth.any)

end Postgres

end Coaty
