import Coaty.Db.Postgres.SqlCondition

/-!
# The WHERE clause as SQL conditions

Every condition with valid operands adds exactly one SQL condition to the WHERE clause, and the text of the clause is that of its SQL conditions. Those on what an object contains come last, the negated ones first.
-/

namespace Coaty

namespace Postgres

open Js Deep Evaluation

variable (engine : Engine) (supportsJsonpath embedParams : Bool)

/-! ### Translation -/

/-- The condition on what an object contains that is put off, if the criterion is one. -/
def Criterion.putOff : Criterion → Option (Bool × Value)
  | equality isNegated operand =>
    if isPrimitive operand && !supportsJsonpath then some (isNegated, operand) else none
  | containment isNegated operand => some (isNegated, operand)
  | _ => none

/-- The bounds are the wrong way round. -/
def areSwapped (operand1 operand2 : Value) : Bool :=
  (ObjectMatcher.operandOrder engine operand1 operand2).any Ordering.isGT

namespace Requirement

def sqlCondition (requirement : Requirement) : SqlCondition :=
  match requirement.criterion with
  | .ordering operator operand =>
    if supportsJsonpath then .jsonpath (.comparison requirement.keys operator.toComparison operand)
    else .order requirement.keys operator.toComparison operand
  | .interval isNegated operand1 operand2 =>
    if supportsJsonpath then
      if areSwapped engine operand1 operand2 then .jsonpath (.interval requirement.keys isNegated operand2 operand1)
      else .jsonpath (.interval requirement.keys isNegated operand1 operand2)
    else .between requirement.keys isNegated operand1 operand2
  | .like likePattern =>
    if supportsJsonpath then .jsonpath (.likeRegex requirement.keys (posixRegex likePattern))
    else .like requirement.keys likePattern
  | .equality isNegated operand =>
    if isPrimitive operand then
      if supportsJsonpath then
        .jsonpath (.comparison requirement.keys (if isNegated then .notEqual else .equal) operand)
      else .containment isNegated (nested (some operand) requirement.keys)
    else .equality requirement.keys isNegated operand
  | .existence isNegated =>
    if supportsJsonpath then .jsonpath (.existence requirement.keys isNegated)
    else .existence requirement.prop requirement.propsChain isNegated
  | .containment isNegated operand => .containment isNegated (nested (some operand) requirement.keys)
  | .membership isNegated items => .membership requirement.keys isNegated items

def putOffAs (isNegated : Bool) (requirement : Requirement) : Option (List Text × Option Value) :=
  (requirement.criterion.putOff supportsJsonpath).bind fun contained =>
    if contained.1 = isNegated then some (requirement.keys, some contained.2) else none

end Requirement

/-- The SQL conditions in the order in which they are written. -/
def sqlConditions (requirements : List Requirement) : List SqlCondition :=
  (requirements.filter fun requirement => (requirement.criterion.putOff supportsJsonpath).isNone).map
      (Requirement.sqlCondition engine supportsJsonpath) ++
    (requirements.filterMap (Requirement.putOffAs supportsJsonpath true)).map
      (fun contained => .containment true (nested contained.2 contained.1)) ++
    (requirements.filterMap (Requirement.putOffAs supportsJsonpath false)).map
      (fun contained => .containment false (nested contained.2 contained.1))

def whereClause (filter : ContextFilter) : Except Error WhereClause :=
  match filter.conditions with
  | none => .ok ⟨[], true⟩
  | some conditions => do
    let (conds, combineAnd) ← conditionsOf conditions
    return ⟨sqlConditions engine supportsJsonpath (conds.filterMap Requirement.ofCondition), combineAnd⟩

namespace WhereState

/-- A further SQL condition with its parameters. -/
def add (st : WhereState) (condition : SqlCondition) : WhereState :=
  { st with
    clauses := st.clauses ++ [condition.clauseText engine embedParams st.pi]
    params := st.params ++ (condition.params engine).map fun param => some (.string param)
    pi := st.pi + (condition.params engine).length }

def addAll (st : WhereState) (conditions : List SqlCondition) : WhereState := conditions.foldl (add engine embedParams) st

def putOff (st : WhereState) (contains notContains : List (List Text × Option Value)) : WhereState :=
  { st with contains := st.contains ++ contains, notContains := st.notContains ++ notContains }

end WhereState

/-- What a condition does to the state. -/
def WhereState.collect (st : WhereState) (requirement : Requirement) : WhereState :=
  match requirement.criterion.putOff supportsJsonpath with
  | none => st.add engine embedParams (requirement.sqlCondition engine supportsJsonpath)
  | some (true, operand) => st.putOff [] [(requirement.keys, some operand)]
  | some (false, operand) => st.putOff [(requirement.keys, some operand)] []

def WhereClause.toSql (clause : WhereClause) : Text × List (Option Value) :=
  let st := WhereState.initial.addAll engine embedParams clause.conditions
  if clause.conditions.isEmpty then ([], [])
  else (text "WHERE " ++ (if clause.combineAnd then text " AND " else text " OR ").intercalate st.clauses, st.params)

/-! ### The code writes the translation -/

variable {engine supportsJsonpath embedParams}

theorem para_string (param : Text) (index : Nat) :
    para engine embedParams (some (.string param)) index = .ok (SqlCondition.paramText embedParams param index) := by
  cases embedParams <;> rfl

theorem add_of_no_params (st : WhereState) {condition : SqlCondition} (h : condition.params engine = []) :
    st.add engine embedParams condition =
      { st with clauses := st.clauses ++ [condition.clauseText engine embedParams st.pi] } := by
  rw [WhereState.add, h]
  simp

theorem addComparison_eq (operator : Comparison) (keys : List Text) (operand : Value) (st : WhereState) :
    addComparison engine supportsJsonpath embedParams operator.toText keys (some operand) st =
      .ok (st.add engine embedParams
        (if supportsJsonpath then .jsonpath (.comparison keys operator operand) else .order keys operator operand)) := by
  cases supportsJsonpath with
  | true =>
    rw [if_pos rfl, add_of_no_params st rfl]
    simp [addComparison, stringifyOperand, jsonpathPara, SqlCondition.clauseText, expressionText]
  | false =>
    simp [addComparison, stringifyOperand, para_string, WhereState.add, SqlCondition.clauseText, SqlCondition.params]

theorem swapOpnds_eq {operand1 operand2 : Value} (h : ofOneKind operand1 operand2 = true) :
    swapOpnds engine (some operand1) (some operand2) = .ok (areSwapped engine operand1 operand2) := by
  have hvalue : ObjectMatcher.getFilterPropertyValue engine (.dotted (text "value")) (.object [(text "value", operand1)]) =
      some (.value operand1) := rfl
  obtain ⟨order, horder⟩ : ∃ order, ObjectMatcher.operandOrder engine operand1 operand2 = some order := by
    cases operand1 <;> cases operand2 <;> cases h
    · exact ⟨_, rfl⟩
    · exact ⟨_, rfl⟩
  rw [areSwapped, horder]
  have hcompare := ObjectMatcher.compareOperand_of_order horder Ordering.isGT
  exact hcompare

theorem addBetween_eq (isNegated : Bool) (keys : List Text) {operand1 operand2 : Value}
    (h : ofOneKind operand1 operand2 = true) (st : WhereState) :
    addBetween engine supportsJsonpath embedParams (text (if isNegated then "<" else ">="))
        (text (if isNegated then "|| @ >" else "&& @ <=")) (text (if isNegated then "NOT BETWEEN" else "BETWEEN")) keys
        (some operand1) (some operand2) st =
      .ok (st.add engine embedParams
        (if supportsJsonpath then
          if areSwapped engine operand1 operand2 then .jsonpath (.interval keys isNegated operand2 operand1)
          else .jsonpath (.interval keys isNegated operand1 operand2)
        else .between keys isNegated operand1 operand2)) := by
  cases supportsJsonpath with
  | true =>
    rw [if_pos rfl, addBetween, if_pos rfl, swapOpnds_eq h, ok_bind]
    cases areSwapped engine operand1 operand2 with
    | true =>
      rw [if_pos rfl, add_of_no_params st rfl]
      simp [stringifyOperand, jsonpathPara, SqlCondition.clauseText, expressionText]
      rfl
    | false =>
      rw [if_neg Bool.false_ne_true, add_of_no_params st rfl]
      simp [stringifyOperand, jsonpathPara, SqlCondition.clauseText, expressionText]
      rfl
  | false =>
    simp [addBetween, stringifyOperand, para_string, WhereState.add, SqlCondition.clauseText, SqlCondition.params]

theorem addLike_eq (keys : List Text) (likePattern : Text) (st : WhereState) :
    addLike engine supportsJsonpath embedParams keys (some (.string likePattern)) st =
      .ok (st.add engine embedParams
        (if supportsJsonpath then .jsonpath (.likeRegex keys (posixRegex likePattern)) else .like keys likePattern)) := by
  cases supportsJsonpath with
  | true =>
    rw [if_pos rfl, add_of_no_params st rfl, addLike, if_pos rfl, like2PosixRegex_string]
    simp [jsonpathPara, SqlCondition.clauseText, expressionText]
  | false => simp [addLike, para_string, WhereState.add, SqlCondition.clauseText, SqlCondition.params]

theorem checkExistence_eq (prop : Text) (propsChain : List Text) (isNegated : Bool) (st : WhereState) :
    checkExistence supportsJsonpath (prop :: propsChain) isNegated st =
      st.add engine embedParams
        (if supportsJsonpath then .jsonpath (.existence (prop :: propsChain) isNegated)
        else .existence prop propsChain isNegated) := by
  cases supportsJsonpath with
  | true =>
    rw [if_pos rfl, add_of_no_params st rfl]
    simp [checkExistence, SqlCondition.clauseText, expressionText]
    rfl
  | false =>
    rw [if_neg Bool.false_ne_true, add_of_no_params st rfl]
    simp [checkExistence, SqlCondition.clauseText]

theorem addMembership_eq (isNegated : Bool) (keys : List Text) (items : List Value) (st : WhereState) :
    addMembership engine embedParams (text (if isNegated then "not in" else "in")) keys (some (.array items)) st =
      .ok (st.add engine embedParams (.membership keys isNegated items)) := by
  simp [addMembership, Value.isArray, stringifyOperand, para_string, WhereState.add, SqlCondition.clauseText,
    SqlCondition.params]

theorem addEquality_eq (isNegated : Bool) (prop : Text) (propsChain : List Text) (operand : Value) (st : WhereState) :
    addEquality engine supportsJsonpath embedParams isNegated (prop :: propsChain) (some operand) st =
      .ok (st.collect engine supportsJsonpath embedParams ⟨prop, propsChain, .equality isNegated operand⟩) := by
  rw [WhereState.collect, Criterion.putOff]
  cases hprimitive : isPrimitive operand with
  | true =>
    cases supportsJsonpath with
    | true =>
      simp only [addEquality, hprimitive, Requirement.sqlCondition, if_true, Bool.not_true, Bool.and_false, Bool.false_eq_true,
        if_false]
      cases isNegated with
      | true => exact addComparison_eq .notEqual (prop :: propsChain) operand st
      | false => exact addComparison_eq .equal (prop :: propsChain) operand st
    | false =>
      cases isNegated with
      | true => simp [addEquality, hprimitive, WhereState.putOff, Requirement.keys]
      | false => simp [addEquality, hprimitive, WhereState.putOff, Requirement.keys]
  | false =>
    simp [addEquality, hprimitive, stringifyOperand, para_string, WhereState.add, SqlCondition.clauseText,
      SqlCondition.params, Requirement.sqlCondition, Requirement.keys]

section Families

variable {prop : Text} {propsChain : List Text} {criterion : Criterion} {operand1 operand2 : Option Value} {isNegated : Bool}
  (st : WhereState)

theorem addComparison_of_orderingOf (operator : OrderOperator) (h : Criterion.orderingOf operator operand1 = some criterion) :
    addComparison engine supportsJsonpath embedParams operator.toComparison.toText (prop :: propsChain) operand1 st =
      .ok (st.collect engine supportsJsonpath embedParams ⟨prop, propsChain, criterion⟩) := by
  unfold Criterion.orderingOf at h
  split at h
  · split at h
    · cases h
      exact addComparison_eq operator.toComparison (prop :: propsChain) _ st
    · cases h
  · cases h

theorem addBetween_of_intervalOf (h : Criterion.intervalOf isNegated operand1 operand2 = some criterion) :
    addBetween engine supportsJsonpath embedParams (text (if isNegated then "<" else ">="))
        (text (if isNegated then "|| @ >" else "&& @ <=")) (text (if isNegated then "NOT BETWEEN" else "BETWEEN"))
        (prop :: propsChain) operand1 operand2 st =
      .ok (st.collect engine supportsJsonpath embedParams ⟨prop, propsChain, criterion⟩) := by
  unfold Criterion.intervalOf at h
  split at h
  · split at h
    · rename_i hkind
      cases h
      exact addBetween_eq isNegated (prop :: propsChain) hkind st
    · cases h
  · cases h

theorem addLike_of_likeOf (h : Criterion.likeOf operand1 = some criterion) :
    addLike engine supportsJsonpath embedParams (prop :: propsChain) operand1 st =
      .ok (st.collect engine supportsJsonpath embedParams ⟨prop, propsChain, criterion⟩) := by
  unfold Criterion.likeOf at h
  split at h
  · cases h
    exact addLike_eq (prop :: propsChain) _ st
  · cases h

theorem addMembership_of_membershipOf (h : Criterion.membershipOf isNegated operand1 = some criterion) :
    addMembership engine embedParams (text (if isNegated then "not in" else "in")) (prop :: propsChain) operand1 st =
      .ok (st.collect engine supportsJsonpath embedParams ⟨prop, propsChain, criterion⟩) := by
  unfold Criterion.membershipOf at h
  split at h
  · cases h
    exact addMembership_eq isNegated (prop :: propsChain) _ st
  · cases h

theorem addEquality_of_map (h : operand1.map (.equality isNegated) = some criterion) :
    addEquality engine supportsJsonpath embedParams isNegated (prop :: propsChain) operand1 st =
      .ok (st.collect engine supportsJsonpath embedParams ⟨prop, propsChain, criterion⟩) := by
  obtain ⟨operand, rfl, rfl⟩ := Option.map_eq_some_iff.mp h
  exact addEquality_eq isNegated prop propsChain operand st

end Families

/-- Each condition with valid operands does what its requirement says. -/
theorem addCondition_eq {cond : ObjectFilterCondition} {requirement : Requirement}
    (h : Requirement.ofCondition cond = some requirement) (st : WhereState) :
    addCondition engine supportsJsonpath embedParams st cond =
      .ok (st.collect engine supportsJsonpath embedParams requirement) := by
  obtain ⟨properties, operator, operand1, operand2⟩ := cond
  rw [Requirement.ofCondition] at h
  split at h
  · rename_i prop propsChain criterion hkeys hcriterion
    cases h
    simp only at hkeys
    rw [addCondition]
    simp only [hkeys]
    cases operator with
    | lessThan => exact addComparison_of_orderingOf st .lessThan hcriterion
    | lessThanOrEqual => exact addComparison_of_orderingOf st .lessThanOrEqual hcriterion
    | greaterThan => exact addComparison_of_orderingOf st .greaterThan hcriterion
    | greaterThanOrEqual => exact addComparison_of_orderingOf st .greaterThanOrEqual hcriterion
    | between =>
      have hadded := @addBetween_of_intervalOf engine supportsJsonpath embedParams prop propsChain _ _ _ false st hcriterion
      simpa only [Bool.false_eq_true, if_false] using hadded
    | notBetween =>
      have hadded := @addBetween_of_intervalOf engine supportsJsonpath embedParams prop propsChain _ _ _ true st hcriterion
      simpa only [if_true] using hadded
    | like => exact addLike_of_likeOf st hcriterion
    | equals => exact addEquality_of_map st hcriterion
    | notEquals => exact addEquality_of_map st hcriterion
    | exist =>
      cases hcriterion
      exact congrArg Except.ok (checkExistence_eq prop propsChain false st)
    | notExists =>
      cases hcriterion
      exact congrArg Except.ok (checkExistence_eq prop propsChain true st)
    | contains =>
      obtain ⟨operand, rfl, rfl⟩ := Option.map_eq_some_iff.mp hcriterion
      simp [WhereState.collect, Criterion.putOff, WhereState.putOff, Requirement.keys]
    | notContains =>
      obtain ⟨operand, rfl, rfl⟩ := Option.map_eq_some_iff.mp hcriterion
      simp [WhereState.collect, Criterion.putOff, WhereState.putOff, Requirement.keys]
    | isIn =>
      have hadded := @addMembership_of_membershipOf engine supportsJsonpath embedParams prop propsChain _ _ false st hcriterion
      simpa only [Bool.false_eq_true, if_false] using hadded
    | notIn =>
      have hadded := @addMembership_of_membershipOf engine supportsJsonpath embedParams prop propsChain _ _ true st hcriterion
      simpa only [if_true] using hadded
  · cases h

theorem foldlM_addCondition {conds : List ObjectFilterCondition}
    (hvalid : ∀ cond ∈ conds, (Requirement.ofCondition cond).isSome = true) (st : WhereState) :
    conds.foldlM (addCondition engine supportsJsonpath embedParams) st =
      .ok ((conds.filterMap Requirement.ofCondition).foldl (WhereState.collect engine supportsJsonpath embedParams) st) := by
  induction conds generalizing st with
  | nil => rfl
  | cons cond conds ih =>
    rw [List.forall_mem_cons] at hvalid
    obtain ⟨requirement, hrequirement⟩ := Option.isSome_iff_exists.mp hvalid.1
    rw [List.foldlM_cons, addCondition_eq hrequirement, ok_bind, ih hvalid.2, List.filterMap_cons_some hrequirement,
      List.foldl_cons]

/-! ### Conditions that are put off -/

namespace WhereState

variable (st : WhereState)

theorem addAll_putOff (contains notContains : List (List Text × Option Value)) (conditions : List SqlCondition) :
    (st.putOff contains notContains).addAll engine embedParams conditions =
      (st.addAll engine embedParams conditions).putOff contains notContains := by
  induction conditions generalizing st with
  | nil => rfl
  | cons condition conditions ih => exact ih (st.add engine embedParams condition)

theorem putOff_putOff (contains notContains contains' notContains' : List (List Text × Option Value)) :
    (st.putOff contains notContains).putOff contains' notContains' =
      st.putOff (contains ++ contains') (notContains ++ notContains') := by
  simp [putOff]

theorem putOff_nil : st.putOff [] [] = st := by
  simp [putOff]

theorem addAll_append (conditions conditions' : List SqlCondition) :
    st.addAll engine embedParams (conditions ++ conditions') =
      (st.addAll engine embedParams conditions).addAll engine embedParams conditions' := List.foldl_append

theorem addAll_frame (conditions : List SqlCondition) :
    (st.addAll engine embedParams conditions).contains = st.contains ∧
      (st.addAll engine embedParams conditions).notContains = st.notContains := by
  induction conditions generalizing st with
  | nil => exact ⟨rfl, rfl⟩
  | cons condition conditions ih => exact ih (st.add engine embedParams condition)

theorem length_clauses_addAll (conditions : List SqlCondition) :
    (st.addAll engine embedParams conditions).clauses.length = st.clauses.length + conditions.length := by
  induction conditions generalizing st with
  | nil => rfl
  | cons condition conditions ih =>
    have hlength : (st.add engine embedParams condition).clauses.length = st.clauses.length + 1 := by
      rw [add, List.length_append, List.length_singleton]
    have hrest := ih (st.add engine embedParams condition)
    rw [hlength] at hrest
    rw [List.length_cons, Nat.add_comm conditions.length, ← Nat.add_assoc]
    exact hrest

theorem foldl_collect (requirements : List Requirement) :
    requirements.foldl (collect engine supportsJsonpath embedParams) st =
      (st.addAll engine embedParams
        ((requirements.filter fun requirement => (requirement.criterion.putOff supportsJsonpath).isNone).map
          (Requirement.sqlCondition engine supportsJsonpath))).putOff
        (requirements.filterMap (Requirement.putOffAs supportsJsonpath false))
        (requirements.filterMap (Requirement.putOffAs supportsJsonpath true)) := by
  induction requirements generalizing st with
  | nil => exact st.putOff_nil.symm
  | cons requirement requirements ih =>
    rw [List.foldl_cons, ih, List.filter_cons, List.filterMap_cons, List.filterMap_cons, collect, Requirement.putOffAs,
      Requirement.putOffAs]
    cases hputOff : requirement.criterion.putOff supportsJsonpath with
    | none => rfl
    | some contained =>
      obtain ⟨isNegated, operand⟩ := contained
      cases isNegated with
      | true =>
        simp only [addAll_putOff, putOff_putOff]
        rfl
      | false =>
        simp only [addAll_putOff, putOff_putOff]
        rfl

end WhereState

theorem checkContainments_eq (isNegated : Bool) (containment : List (List Text × Option Value)) (st : WhereState) :
    checkContainments engine embedParams isNegated containment st =
      .ok (st.addAll engine embedParams
        (containment.map fun contained => .containment isNegated (nested contained.2 contained.1))) := by
  induction containment generalizing st with
  | nil => rfl
  | cons contained containment ih =>
    obtain ⟨keys, operand⟩ := contained
    rw [checkContainments]
    simp only [para_string, ok_bind]
    rw [ih]
    rfl

theorem checkContainments_collected {requirements : List Requirement} {st : WhereState}
    (hst : requirements.foldl (WhereState.collect engine supportsJsonpath embedParams) .initial = st) :
    ∃ st₁ st₂, checkContainments engine embedParams true st.notContains st = .ok st₁ ∧
      checkContainments engine embedParams false st₁.contains st₁ = .ok st₂ ∧
      st₂.clauses = (WhereState.initial.addAll engine embedParams (sqlConditions engine supportsJsonpath requirements)).clauses ∧
      st₂.params = (WhereState.initial.addAll engine embedParams (sqlConditions engine supportsJsonpath requirements)).params := by
  refine ⟨_, _, checkContainments_eq _ _ _, checkContainments_eq _ _ _, ?_⟩
  have hputOff : ∀ (conditions : List SqlCondition) (contains notContains : List (List Text × Option Value)),
      ((WhereState.initial.addAll engine embedParams conditions).putOff contains notContains).contains = contains ∧
        ((WhereState.initial.addAll engine embedParams conditions).putOff contains notContains).notContains = notContains := by
    intro conditions contains notContains
    rw [WhereState.putOff, (WhereState.addAll_frame _ _).1, (WhereState.addAll_frame _ _).2]
    exact ⟨rfl, rfl⟩
  rw [(WhereState.addAll_frame _ _).1, ← hst, WhereState.foldl_collect, (hputOff _ _ _).1, (hputOff _ _ _).2,
    ← WhereState.addAll_append, WhereState.addAll_putOff, ← WhereState.addAll_append, ← List.append_assoc]
  exact ⟨rfl, rfl⟩

/-- The code generates the text and the parameters of the translated clause, or fails where there is none. -/
theorem getWhereClauseAndParams_eq {filter : ContextFilter}
    (hvalid : ∀ conditions conds combineAnd, filter.conditions = some conditions →
      conditionsOf conditions = .ok (conds, combineAnd) → ∀ cond ∈ conds, (Requirement.ofCondition cond).isSome = true) :
    getWhereClauseAndParams engine supportsJsonpath embedParams (some filter) =
      (whereClause engine supportsJsonpath filter).map (WhereClause.toSql engine embedParams) := by
  rw [getWhereClauseAndParams, whereClause, Option.bind_some]
  cases hconditions : filter.conditions with
  | none => rfl
  | some conditions =>
    cases hconds : conditionsOf conditions with
    | error error =>
      simp only [hconds]
      rfl
    | ok pair =>
      obtain ⟨conds, combineAnd⟩ := pair
      obtain ⟨st₁, st₂, hst₁, hst₂, hclauses, hparams⟩ :=
        @checkContainments_collected engine supportsJsonpath embedParams (conds.filterMap Requirement.ofCondition) _ rfl
      have hempty : st₂.clauses = [] ↔
          (sqlConditions engine supportsJsonpath (conds.filterMap Requirement.ofCondition)).isEmpty = true := by
        rw [hclauses, ← List.length_eq_zero_iff, WhereState.length_clauses_addAll, List.isEmpty_iff_length_eq_zero]
        exact Eq.congr_left (Nat.zero_add _)
      simp only [hconds, ok_bind]
      rw [foldlM_addCondition (hvalid conditions conds combineAnd hconditions hconds), ok_bind]
      simp only [hst₁, hst₂, ok_bind, hempty]
      simp only [hclauses, hparams]
      exact (apply_ite Except.ok _ _ _).symm

end Postgres

end Coaty
