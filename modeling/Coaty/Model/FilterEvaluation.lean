import Coaty.Model.ObjectMatcher

/-!
# Filters that can be evaluated

The check on filters looks at no operand. Evaluating a condition fails if an operator for a list has another operand, if an ordering operator comes to an object that hides `toString`, if a comparison comes to an object that hides `hasOwnProperty`, or if `null` is looked for in an object. A filter can be evaluated exactly if none of this happens for a condition that is reached.
-/

namespace Coaty

open Js Evaluation Deep

namespace ObjectMatcher

/-- The operator does not fail on the value of a property. -/
def OperandsFit (value : Member) (operand1 operand2 : Option Value) : ObjectFilterOperator → Prop
  | .lessThan | .lessThanOrEqual | .greaterThan | .greaterThanOrEqual =>
    ¬ Unconvertible (some value) ∧ ¬ Unconvertible (operand1.map .value)
  | .between | .notBetween =>
    ¬ Unconvertible (some value) ∧ ¬ Unconvertible (operand1.map .value) ∧ ¬ Unconvertible (operand2.map .value)
  | .equals | .notEquals =>
    ∀ a b, comparand value = some a → operand1 = some b → ∀ u v, EqualsCompares a b u v → ¬ EqualsFails u v
  | .contains | .notContains =>
    (∀ x y, value = .value x → operand1 = some y → ∀ u v, ContainsCompares x y u v → ¬ ContainsFails u v) ∧
      ¬ (value = .objectPrototype ∧ operand1 = some .null)
  | .isIn | .notIn =>
    ∃ items, operand1 = some (.array items) ∧ ∀ b, comparand value = some b →
      ∀ av, Reached (fun av => equals av b) false items av → ∀ u v, EqualsCompares av b u v → ¬ EqualsFails u v
  | .like | .exist | .notExists => True

/-- The condition can be evaluated for the object. -/
def Evaluable (engine : Engine) (obj : Value) (condition : ObjectFilterCondition) : Prop :=
  ∀ value, getFilterPropertyValue engine condition.properties obj = some value →
    OperandsFit value condition.operand1 condition.operand2 condition.operator

/-- The condition is reached: those before it in its list do not decide the list. -/
def IsReached (engine : Engine) (obj : Value) (condition : ObjectFilterCondition) : ContextFilterConditions → Prop
  | .condition c => condition = c
  | .combined (some conditions) _ => Reached (matchesCondition engine obj) true conditions condition
  | .combined none (some conditions) => Reached (matchesCondition engine obj) false conditions condition
  | .combined none none => False

variable (engine : Engine)

/-! ### Operators -/

theorem not_unconvertible_string (s : Text) : ¬ Unconvertible (some (.value (.string s))) := by
  intro ⟨v, hv, hhides⟩
  cases hv
  cases hhides

theorem returns_compareOperand_iff (value : Member) (operand : Option Value) (test : Ordering → Bool) :
    Returns (compareOperand engine value operand test) ↔
      ¬ Unconvertible (some value) ∧ ¬ Unconvertible (operand.map .value) := by
  unfold compareOperand
  split
  · exact iff_of_true (returns_ok _) ⟨not_unconvertible_string _, not_unconvertible_string _⟩
  · rw [← engine.returns_orderOf_iff]
    exact returns_map_iff fun order => returns_pure _

theorem returns_orderOf_bind_iff {value : Member} {bound : Option Value} (hbound : ¬ Unconvertible (bound.map .value))
    {f : Option Ordering → Except Error Bool} (hf : ¬ Unconvertible (some value) → ∀ order, Returns (f order)) :
    Returns (engine.orderOf (some value) (bound.map .value) >>= f) ↔ ¬ Unconvertible (some value) := by
  rw [returns_bind_iff]
  constructor
  · intro ⟨order, horder, _⟩
    exact ((engine.returns_orderOf_iff _ _).mp ⟨order, horder⟩).1
  · intro hvalue
    obtain ⟨order, horder⟩ := (engine.returns_orderOf_iff _ _).mpr ⟨hvalue, hbound⟩
    exact ⟨order, horder, hf hvalue order⟩

theorem returns_isBetween_iff {value : Member} {lower upper : Option Value} (hlower : ¬ Unconvertible (lower.map .value))
    (hupper : ¬ Unconvertible (upper.map .value)) :
    Returns (isBetween engine value lower upper) ↔ ¬ Unconvertible (some value) := by
  refine returns_orderOf_bind_iff engine hlower fun hvalue order => ?_
  split
  · rw [returns_map_iff fun order => returns_pure _]
    exact (engine.returns_orderOf_iff _ _).mpr ⟨hvalue, hupper⟩
  · exact returns_pure _

theorem returns_isNotBetween_iff {value : Member} {lower upper : Option Value}
    (hlower : ¬ Unconvertible (lower.map .value)) (hupper : ¬ Unconvertible (upper.map .value)) :
    Returns (isNotBetween engine value lower upper) ↔ ¬ Unconvertible (some value) := by
  refine returns_orderOf_bind_iff engine hlower fun hvalue order => ?_
  split
  · exact returns_pure _
  · rw [returns_map_iff fun order => returns_pure _]
    exact (engine.returns_orderOf_iff _ _).mpr ⟨hvalue, hupper⟩

theorem returns_interval_iff {inInterval : Option Value → Option Value → Except Error Bool} {value : Member}
    {operand1 operand2 : Option Value}
    (hin : ∀ lower upper, ¬ Unconvertible (lower.map .value) → ¬ Unconvertible (upper.map .value) →
      (Returns (inInterval lower upper) ↔ ¬ Unconvertible (some value))) :
    Returns (do
      if (← engine.orderOf (operand1.map .value) (operand2.map .value)).any Ordering.isGT then inInterval operand2 operand1
      else inInterval operand1 operand2) ↔
      ¬ Unconvertible (some value) ∧ ¬ Unconvertible (operand1.map .value) ∧ ¬ Unconvertible (operand2.map .value) := by
  have hbranch : ∀ order : Option Ordering, ¬ Unconvertible (operand1.map .value) →
      ¬ Unconvertible (operand2.map .value) →
      (Returns (if order.any Ordering.isGT = true then inInterval operand2 operand1 else inInterval operand1 operand2) ↔
        ¬ Unconvertible (some value)) := by
    intro order h1 h2
    split
    · exact hin _ _ h2 h1
    · exact hin _ _ h1 h2
  rw [returns_bind_iff]
  constructor
  · intro ⟨order, horder, hreturns⟩
    obtain ⟨h1, h2⟩ := (engine.returns_orderOf_iff _ _).mp ⟨order, horder⟩
    exact ⟨(hbranch order h1 h2).mp hreturns, h1, h2⟩
  · intro ⟨hvalue, h1, h2⟩
    obtain ⟨order, horder⟩ := (engine.returns_orderOf_iff _ _).mpr ⟨h1, h2⟩
    exact ⟨order, horder, (hbranch order h1 h2).mpr hvalue⟩

theorem returns_between_iff (value : Member) (operand1 operand2 : Option Value) :
    Returns (between engine value operand1 operand2) ↔
      ¬ Unconvertible (some value) ∧ ¬ Unconvertible (operand1.map .value) ∧ ¬ Unconvertible (operand2.map .value) := by
  unfold between
  split
  · refine iff_of_true ?_ ⟨not_unconvertible_string _, not_unconvertible_string _, not_unconvertible_string _⟩
    split
    · exact returns_ok _
    · exact returns_ok _
  · exact returns_interval_iff engine fun lower upper => returns_isBetween_iff engine

theorem returns_notBetween_iff (value : Member) (operand1 operand2 : Option Value) :
    Returns (notBetween engine value operand1 operand2) ↔
      ¬ Unconvertible (some value) ∧ ¬ Unconvertible (operand1.map .value) ∧ ¬ Unconvertible (operand2.map .value) := by
  unfold notBetween
  split
  · refine iff_of_true ?_ ⟨not_unconvertible_string _, not_unconvertible_string _, not_unconvertible_string _⟩
    split
    · exact returns_ok _
    · exact returns_ok _
  · exact returns_interval_iff engine fun lower upper => returns_isNotBetween_iff engine

theorem returns_equalsOperand_iff (value : Member) (operand : Option Value) :
    Returns (equalsOperand value operand) ↔
      ∀ a b, comparand value = some a → operand = some b → ∀ u v, EqualsCompares a b u v → ¬ EqualsFails u v := by
  unfold equalsOperand
  cases comparand value with
  | none => simp
  | some a =>
    cases operand with
    | none => simp
    | some b => simp [returns_equals_iff]

theorem returns_contains_iff (value : Member) (operand : Option Value) :
    Returns (contains value operand) ↔
      (∀ x y, value = .value x → operand = some y → ∀ u v, ContainsCompares x y u v → ¬ ContainsFails u v) ∧
        ¬ (value = .objectPrototype ∧ operand = some .null) := by
  cases value with
  | value x =>
    cases operand with
    | none => simp [contains]
    | some y => simp [contains, returns_containsInternal_iff]
  | function source => simp [contains]
  | objectPrototype =>
    cases operand with
    | none => simp [contains]
    | some y => cases y <;> simp [contains]
  | arrayPrototype =>
    cases operand with
    | none => simp [contains]
    | some y =>
      have hreturns : Returns (contains .arrayPrototype (some y)) := by
        refine (returns_containsInternal_iff (.array []) y true).mpr ?_
        intro u v hcompares
        cases hcompares with
        | self => exact not_false
        | item _ hx => exact absurd hx not_reached_nil
      simp [hreturns]

theorem returns_includes_iff (operand : Option Value) (value : Member) :
    Returns (includes operand value) ↔
      ∃ items, operand = some (.array items) ∧ ∀ b, comparand value = some b →
        ∀ av, Reached (fun av => equals av b) false items av → ∀ u v, EqualsCompares av b u v → ¬ EqualsFails u v := by
  unfold includes
  split
  · rename_i items
    simp only [Option.some.injEq, Value.array.injEq, exists_eq_left']
    cases hvalue : comparand value with
    | none =>
      have hmember : (fun av => equalsMember av value) = fun _ => .ok false := by
        funext av
        rw [equalsMember, hvalue]
      rw [hmember, returns_anyM_iff]
      simp
    | some b =>
      have hmember : (fun av => equalsMember av value) = fun av => equals av b := by
        funext av
        rw [equalsMember, hvalue]
      rw [hmember, returns_anyM_iff]
      simp [returns_equals_iff]
  · rename_i hother
    refine iff_of_false (not_returns_error _) ?_
    intro ⟨items, hitems, _⟩
    exact hother items hitems

/-! ### Conditions and filters -/

theorem returns_matchesCondition_iff (obj : Value) (condition : ObjectFilterCondition) :
    Returns (matchesCondition engine obj condition) ↔ Evaluable engine obj condition := by
  rw [matchesCondition, Evaluable]
  cases hvalue : getFilterPropertyValue engine condition.properties obj with
  | none => exact iff_of_true (returns_ok _) nofun
  | some value =>
    simp only [Option.some.injEq, forall_eq']
    cases condition.operator with
    | lessThan => exact returns_compareOperand_iff engine _ _ _
    | lessThanOrEqual => exact returns_compareOperand_iff engine _ _ _
    | greaterThan => exact returns_compareOperand_iff engine _ _ _
    | greaterThanOrEqual => exact returns_compareOperand_iff engine _ _ _
    | between => exact returns_between_iff engine _ _ _
    | notBetween => exact returns_notBetween_iff engine _ _ _
    | like => exact iff_of_true (returns_ok _) trivial
    | equals => exact returns_equalsOperand_iff _ _
    | notEquals => exact (returns_map_iff fun b => returns_pure _).trans (returns_equalsOperand_iff _ _)
    | exist => exact iff_of_true (returns_ok _) trivial
    | notExists => exact iff_of_true (returns_ok _) trivial
    | contains => exact returns_contains_iff _ _
    | notContains => exact (returns_map_iff fun b => returns_pure _).trans (returns_contains_iff _ _)
    | isIn => exact returns_includes_iff _ _
    | notIn => exact (returns_map_iff fun b => returns_pure _).trans (returns_includes_iff _ _)

/-- Matching an object against a filter returns exactly if the conditions that are reached can be evaluated. -/
theorem returns_matchesFilter_iff (obj : Value) (filter : ContextFilter) :
    Returns (matchesFilter engine (some obj) (some filter)) ↔
      ∀ conditions, filter.conditions = some conditions → ∀ condition, IsReached engine obj condition conditions →
        Evaluable engine obj condition := by
  rw [matchesFilter]
  cases hconditions : filter.conditions with
  | none => exact iff_of_true (returns_ok _) nofun
  | some conditions =>
    simp only [Option.some.injEq, forall_eq']
    cases conditions with
    | condition condition => simp [IsReached, returns_matchesCondition_iff]
    | combined and or =>
      cases and with
      | some conditions => simp [IsReached, returns_allM_iff, returns_matchesCondition_iff]
      | none =>
        cases or with
        | some conditions => simp [IsReached, returns_anyM_iff, returns_matchesCondition_iff]
        | none => simp [IsReached]

end ObjectMatcher

end Coaty
