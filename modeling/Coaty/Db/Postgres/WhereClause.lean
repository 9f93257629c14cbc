import Coaty.Db.Postgres.Jsonpath
import Coaty.Js.Stringify
import Coaty.Model.ObjectMatcher

/-!
# The WHERE clause of a filter

Each condition of a filter adds a clause to the SQL text, whose operands are embedded in it or passed along as parameters. With jsonpath support most conditions are jsonpath expressions, in which operands are always embedded. Conditions on what an object contains are put off until all others are written.
-/

namespace Coaty

namespace Postgres

open Js Evaluation

variable (engine : Engine) (supportsJsonpath embedParams : Bool)

/-! ### Operands -/

/-- `asLiteral` on any value. What has no JSON text has no length either. -/
def asLiteralOf : Option Value → Except Error Text
  | none => .error .typeError
  | some (.string s) => .ok (asLiteral s)
  | some value => .ok (asLiteral (engine.stringify value))

/-- `para(param, index)` -/
def para (param : Option Value) (index : Nat) : Except Error Text :=
  if embedParams then asLiteralOf engine param else .ok (text "$" ++ decimal index)

/-- `para(param, index, true)` for a JSON text, which is missing if there is no operand. -/
def jsonpathPara : Option Text → Except Error Text
  | none => .error .typeError
  | some param => .ok (asJsonpathLiteral param true)

/-- `JSON.stringify(opnd)` -/
def stringifyOperand (opnd : Option Value) : Option Text := opnd.map engine.stringify

/-! ### Patterns -/

/-- The loop over the characters of a pattern, or over the items of an array. -/
def regexOf (isEscaped : Bool) : List Value → Except Error Text
  | [] => .ok []
  | c :: likePattern => do
    let s ← engine.toString c
    if s = text "\\" ∧ c.isString then
      if isEscaped then return text "\\\\" ++ (← regexOf false likePattern)
      else regexOf true likePattern
    else if s <:+: text ".*+?^$\x7b\x7d()|[]" then return text "\\" ++ s ++ (← regexOf false likePattern)
    else if (s = text "_" ∧ c.isString) ∧ isEscaped = false then return text "." ++ (← regexOf isEscaped likePattern)
    else if (s = text "%" ∧ c.isString) ∧ isEscaped = false then return text ".*" ++ (← regexOf isEscaped likePattern)
    else return s ++ (← regexOf false likePattern)

/-- `like2PosixRegex`, where what is neither a string nor an array has nothing to go through. -/
def like2PosixRegex : Option Value → Except Error Text
  | none => .error .typeError
  | some .null => .error .typeError
  | some (.string likePattern) => do
    return text "^" ++ (← regexOf engine false (likePattern.map fun c => .string [c])) ++ text "$"
  | some (.array items) => do return text "^" ++ (← regexOf engine false items) ++ text "$"
  | some _ => .ok (text "^$")

/-! ### Clauses -/

def getObjectIndexer (propsChain : List Text) (asText : Bool) : Text :=
  match propsChain with
  | [prop] => text "object ->" ++ (if asText then text ">" else []) ++ asLiteral prop
  | propsChain =>
    text "object #>" ++ (if asText then text ">" else []) ++ text "array[" ++
      (text ",").intercalate (propsChain.map asLiteral) ++ text "]"

structure WhereState where
  clauses : List Text
  params : List (Option Value)
  contains : List (List Text × Option Value)
  notContains : List (List Text × Option Value)
  pi : Nat

namespace WhereState

def initial : WhereState := ⟨[], [], [], [], 1⟩

end WhereState

/-- The further properties of a chain that are to exist, each in the value of those before it. -/
def existenceRest (before : List Text) : List Text → Text
  | [] => []
  | prop :: propsChain =>
    text " AND " ++ getObjectIndexer before false ++ text " ? " ++ asLiteral prop ++ existenceRest (before ++ [prop]) propsChain

def checkExistence (propsArray : List Text) (isNegated : Bool) (st : WhereState) : WhereState :=
  if supportsJsonpath then
    { st with clauses := st.clauses ++ [text "(object @@ '" ++ (if isNegated then text "!" else []) ++ text "exists(" ++
        getJsonpathKeys propsArray ++ text ")')"] }
  else
    match propsArray with
    | [] => if isNegated then { st with clauses := st.clauses ++ [text "(false)"] } else st
    | prop :: propsChain =>
      let clause := text "object ? " ++ asLiteral prop ++ existenceRest [prop] propsChain
      { st with clauses := st.clauses ++ [text "(" ++ (if isNegated then text "NOT (" else []) ++ clause ++
          (if isNegated then text ")" else []) ++ text ")"] }

/-- The object with nothing but the chain of properties that leads to the operand. -/
def nested (opnd : Option Value) : List Text → Value
  | [] => .object []
  | [prop] => .object (opnd.toList.map fun value => (prop, value))
  | prop :: propsArray => .object [(prop, nested opnd propsArray)]

def checkContainments (isNegated : Bool) :
    List (List Text × Option Value) → WhereState → Except Error WhereState
  | [], st => .ok st
  | (propsArray, opnd) :: containment, st => do
    let p1 := engine.stringify (nested opnd propsArray)
    let p ← para engine embedParams (some (.string p1)) st.pi
    checkContainments isNegated containment { st with
      clauses := st.clauses ++ [text "(" ++ (if isNegated then text "NOT " else []) ++ text "object @> " ++ p ++ text "::jsonb)"]
      params := st.params ++ [some (.string p1)]
      pi := st.pi + 1 }

/-- The branches of `LessThan`, `LessThanOrEqual`, `GreaterThan` and `GreaterThanOrEqual`. -/
def addComparison (operator : Text) (propsArray : List Text) (opnd1 : Option Value) (st : WhereState) :
    Except Error WhereState := do
  let p1 := stringifyOperand engine opnd1
  if supportsJsonpath then
    let p ← jsonpathPara p1
    return { st with clauses := st.clauses ++
      [text "(object @@ '" ++ getJsonpathKeys propsArray ++ text " " ++ operator ++ text " " ++ p ++ text "')"] }
  else
    let p ← para engine embedParams (p1.map .string) st.pi
    return { st with
      clauses := st.clauses ++ [text "(" ++ getObjectIndexer propsArray false ++ text " " ++ operator ++ text " " ++ p ++
        text "::jsonb)"]
      params := st.params ++ [p1.map .string]
      pi := st.pi + 1 }

/-- Whether the operands of an interval are the wrong way round. -/
def swapOpnds (opnd1 opnd2 : Option Value) : Except Error Bool :=
  ObjectMatcher.matchesFilter engine (some (Value.jsonImage [(text "value", opnd1)]))
    (some ⟨some (.condition ⟨.dotted (text "value"), .greaterThan, opnd2, none⟩)⟩)

/-- The branches of `Between` and `NotBetween`. -/
def addBetween (lower upper sqlOperator : Text) (propsArray : List Text) (opnd1 opnd2 : Option Value) (st : WhereState) :
    Except Error WhereState := do
  let p1 := stringifyOperand engine opnd1
  let p2 := stringifyOperand engine opnd2
  if supportsJsonpath then
    let swaps ← swapOpnds engine opnd1 opnd2
    let p ← jsonpathPara (if swaps then p2 else p1)
    let q ← jsonpathPara (if swaps then p1 else p2)
    return { st with clauses := st.clauses ++
      [text "(object @? '" ++ getJsonpathKeys propsArray ++ text " ? (@ " ++ lower ++ text " " ++ p ++ text " " ++ upper ++
        text " " ++ q ++ text ")')"] }
  else
    let p ← para engine embedParams (p1.map .string) st.pi
    let q ← para engine embedParams (p2.map .string) (st.pi + 1)
    return { st with
      clauses := st.clauses ++ [text "(" ++ getObjectIndexer propsArray false ++ text " " ++ sqlOperator ++
        text " SYMMETRIC " ++ p ++ text "::jsonb AND " ++ q ++ text "::jsonb)"]
      params := st.params ++ [p1.map .string, p2.map .string]
      pi := st.pi + 2 }

def addLike (propsArray : List Text) (opnd1 : Option Value) (st : WhereState) : Except Error WhereState := do
  if supportsJsonpath then
    let likeRegex ← like2PosixRegex engine opnd1
    let p ← jsonpathPara (some (jsonString likeRegex))
    return { st with clauses := st.clauses ++
      [text "(object @@ '" ++ getJsonpathKeys propsArray ++ text " like_regex " ++ p ++ text "')"] }
  else
    let p ← para engine embedParams opnd1 st.pi
    return { st with
      clauses := st.clauses ++ [text "(" ++ getObjectIndexer propsArray true ++ text " LIKE " ++ p ++ text ")"]
      params := st.params ++ [opnd1]
      pi := st.pi + 1 }

/-- Whether an operand is compared by containment. -/
def isPrimitive : Value → Bool
  | .array _ => false
  | .object _ => false
  | _ => true

/-- The branches of `Equals` and `NotEquals`. -/
def addEquality (isNegated : Bool) (propsArray : List Text) (opnd1 : Option Value) (st : WhereState) :
    Except Error WhereState :=
  match opnd1 with
  | none => .ok (checkExistence supportsJsonpath propsArray (!isNegated) st)
  | some value =>
    if isPrimitive value then
      if supportsJsonpath then
        addComparison engine supportsJsonpath embedParams (if isNegated then text "!=" else text "==") propsArray opnd1 st
      else if isNegated then .ok { st with notContains := st.notContains ++ [(propsArray, opnd1)] }
      else .ok { st with contains := st.contains ++ [(propsArray, opnd1)] }
    else do
      let p1 := stringifyOperand engine opnd1
      let p ← para engine embedParams (p1.map .string) st.pi
      return { st with
        clauses := st.clauses ++ [text "(" ++ getObjectIndexer propsArray false ++
          (if isNegated then text " <> " else text " = ") ++ p ++ text "::jsonb)"]
        params := st.params ++ [p1.map .string]
        pi := st.pi + 1 }

/-- The branches of `In` and `NotIn`. -/
def addMembership (sqlOp : Text) (propsArray : List Text) (opnd1 : Option Value) (st : WhereState) :
    Except Error WhereState :=
  if opnd1.any Value.isArray then do
    let p1 := stringifyOperand engine opnd1
    let p ← para engine embedParams (p1.map .string) st.pi
    return { st with
      clauses := st.clauses ++ [text "(" ++ getObjectIndexer propsArray false ++ text " " ++ sqlOp ++
        text " (SELECT value FROM jsonb_array_elements(" ++ p ++ text "::jsonb)))"]
      params := st.params ++ [p1.map .string]
      pi := st.pi + 1 }
  else .error .typeError

def addCondition (st : WhereState) (cond : ObjectFilterCondition) : Except Error WhereState :=
  let propsArray := ObjectMatcher.getFilterProperties cond.properties
  let opnd1 := cond.operand1
  let opnd2 := cond.operand2
  match cond.operator with
  | .lessThan => addComparison engine supportsJsonpath embedParams (text "<") propsArray opnd1 st
  | .lessThanOrEqual => addComparison engine supportsJsonpath embedParams (text "<=") propsArray opnd1 st
  | .greaterThan => addComparison engine supportsJsonpath embedParams (text ">") propsArray opnd1 st
  | .greaterThanOrEqual => addComparison engine supportsJsonpath embedParams (text ">=") propsArray opnd1 st
  | .between =>
    addBetween engine supportsJsonpath embedParams (text ">=") (text "&& @ <=") (text "BETWEEN") propsArray opnd1 opnd2 st
  | .notBetween =>
    addBetween engine supportsJsonpath embedParams (text "<") (text "|| @ >") (text "NOT BETWEEN") propsArray opnd1 opnd2 st
  | .like => addLike engine supportsJsonpath embedParams propsArray opnd1 st
  | .equals => addEquality engine supportsJsonpath embedParams false propsArray opnd1 st
  | .notEquals => addEquality engine supportsJsonpath embedParams true propsArray opnd1 st
  | .exist => .ok (checkExistence supportsJsonpath propsArray false st)
  | .notExists => .ok (checkExistence supportsJsonpath propsArray true st)
  | .contains => .ok { st with contains := st.contains ++ [(propsArray, opnd1)] }
  | .notContains => .ok { st with notContains := st.notContains ++ [(propsArray, opnd1)] }
  | .isIn => addMembership engine embedParams (text "in") propsArray opnd1 st
  | .notIn => addMembership engine embedParams (text "not in") propsArray opnd1 st

/-- The conditions and whether all of them are to be met. -/
def conditionsOf : ContextFilterConditions → Except Error (List ObjectFilterCondition × Bool)
  | .condition cond => .ok ([cond], true)
  | .combined _ (some or) => .ok (or, false)
  | .combined (some and) none => .ok (and, true)
  | .combined none none => .error .typeError

/-- `_getWhereClauseAndParams` -/
def getWhereClauseAndParams (filter : Option ContextFilter) : Except Error (Text × List (Option Value)) :=
  match filter.bind ContextFilter.conditions with
  | none => .ok ([], [])
  | some conditions => do
    let (conds, combineAnd) ← conditionsOf conditions
    let st ← conds.foldlM (addCondition engine supportsJsonpath embedParams) WhereState.initial
    let st ← checkContainments engine embedParams true st.notContains st
    let st ← checkContainments engine embedParams false st.contains st
    if st.clauses = [] then return ([], [])
    else return (text "WHERE " ++ (if combineAnd then text " AND " else text " OR ").intercalate st.clauses, st.params)

end Postgres

end Coaty
