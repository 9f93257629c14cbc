import Coaty.Model.ObjectMatcher

/-!
# Filters as they come

A database passes on as a filter whatever is a plain object. Matching reads of it what there is: a condition is taken apart by its indices, a path need not be one of strings, an operator that is not one matches nothing, and what is no list of conditions cannot be gone through. On a filter that is well formed this is the same as matching against its conditions.
-/

namespace Coaty

open Js Value Evaluation

namespace ObjectMatcher

variable (engine : Engine)

/-- `value[i]` -/
def itemAt : Option Value → Nat → Except Error (Option Value)
  | none, _ => .error .typeError
  | some .null, _ => .error .typeError
  | some (.array items), i => .ok items[i]?
  | some (.string s), i => .ok (s[i]?.map fun c => .string [c])
  | some (.object properties), i => .ok (properties.lookup (decimal i))
  | some _, _ => .ok none

/-- `p !== null && typeof p === "object"` -/
def isReadable : Option Member → Bool
  | some (.value (.object _)) => true
  | some (.value (.array _)) => true
  | some .objectPrototype => true
  | some .arrayPrototype => true
  | _ => false

/-- The names that the items of a path stand for, as far as there is something to read from. Any name stands for the others. -/
def propertyNames : Option Member → List Value → Except Error (List Text)
  | _, [] => .ok []
  | p, c :: path =>
    if isReadable p then do
      let name ← engine.toString c
      let names ← propertyNames (p.bind fun p => engine.read p name) path
      return name :: names
    else .ok [[]]

def readProperties (obj : Value) : Option Value → Except Error ObjectFilterProperties
  | some (.string propNames) => .ok (.dotted propNames)
  | some (.array path) => do return .chain (← propertyNames engine (some (.value obj)) path)
  | _ => .error .typeError

/-- `_matchesCondition` -/
def matchesConditionValue (obj condition : Value) : Except Error Bool := do
  let props ← itemAt (some condition) 0
  let expression ← itemAt (some condition) 1
  let op ← itemAt expression 0
  let value1 ← itemAt expression 1
  let value2 ← itemAt expression 2
  let properties ← readProperties engine obj props
  match op.bind ObjectFilterOperator.ofValue with
  | some operator => matchesCondition engine obj { properties, operator, operand1 := value1, operand2 := value2 }
  | none => return false

def everyCondition (obj : Value) : Option Value → Except Error Bool
  | some (.array conditions) => conditions.allM (matchesConditionValue engine obj)
  | _ => .error .typeError

def someCondition (obj : Value) : Option Value → Except Error Bool
  | some (.array conditions) => conditions.anyM (matchesConditionValue engine obj)
  | _ => .error .typeError

/-- `matchesFilter` -/
def matchesFilterValue (obj filter : Option Value) : Except Error Bool :=
  match obj, filter with
  | none, _ => .ok false
  | some _, none => .ok true
  | some obj, some filter => do
    match ← filter.read "conditions" with
    | none => return true
    | some (.array condition) => matchesConditionValue engine obj (.array condition)
    | some conditions =>
      let and ← conditions.read "and"
      if isTruthy and then everyCondition engine obj and
      else
        let or ← conditions.read "or"
        if isTruthy or then someCondition engine obj or else return true

/-! ### Well-formed filters -/

variable {engine} {obj : Value}

theorem eq_map_string {path : List Value} {names : List Text} (h : path.mapM ObjectFilterProperties.stringOf = some names) :
    path = names.map .string := by
  induction path generalizing names with
  | nil =>
    cases h
    rfl
  | cons c path ih =>
    rw [List.mapM_cons] at h
    cases c with
    | string s =>
      cases hrest : path.mapM ObjectFilterProperties.stringOf with
      | none =>
        rw [hrest] at h
        cases h
      | some rest =>
        rw [hrest] at h
        cases h
        rw [List.map_cons, ih hrest]
    | _ => cases h

theorem read_of_not_isReadable {p : Option Member} (h : isReadable p = false) (name : Text) :
    (p.bind fun p => engine.read p name) = none := by
  cases p with
  | none => rfl
  | some p =>
    cases p with
    | value v =>
      cases v with
      | object properties => cases h
      | array items => cases h
      | _ => rfl
    | function source => rfl
    | objectPrototype => cases h
    | arrayPrototype => cases h

theorem foldl_read_none (names : List Text) :
    names.foldl (fun p c => p.bind fun p => engine.read p c) none = none := by
  induction names with
  | nil => rfl
  | cons name names ih => exact ih

theorem propertyNames_string (p : Option Member) (names : List Text) :
    ∃ names', propertyNames engine p (names.map .string) = .ok names' ∧
      names'.foldl (fun p c => p.bind fun p => engine.read p c) p =
        names.foldl (fun p c => p.bind fun p => engine.read p c) p := by
  induction names generalizing p with
  | nil => exact ⟨[], rfl, rfl⟩
  | cons name names ih =>
    rw [List.map_cons, propertyNames]
    cases hp : isReadable p with
    | true =>
      obtain ⟨names', hnames, hfoldl⟩ := ih (p.bind fun p => engine.read p name)
      refine ⟨name :: names', ?_, ?_⟩
      · simp only [if_true, Engine.toString, ok_bind, hnames]
        rfl
      · rw [List.foldl_cons, List.foldl_cons, hfoldl]
    | false =>
      refine ⟨[[]], rfl, ?_⟩
      rw [List.foldl_cons, List.foldl_cons, read_of_not_isReadable hp, read_of_not_isReadable hp]
      exact (foldl_read_none names).symm

theorem readProperties_of_ofValue {props : Value} {properties : ObjectFilterProperties}
    (h : ObjectFilterProperties.ofValue props = some properties) :
    ∃ properties', readProperties engine obj (some props) = .ok properties' ∧
      getFilterPropertyValue engine properties' obj = getFilterPropertyValue engine properties obj := by
  cases props with
  | string propNames =>
    cases h
    exact ⟨.dotted propNames, rfl, rfl⟩
  | array path =>
    obtain ⟨names, hnames, rfl⟩ := Option.map_eq_some_iff.mp h
    obtain ⟨names', hread, hfoldl⟩ := propertyNames_string (some (.value obj)) names
    refine ⟨.chain names', ?_, hfoldl⟩
    rw [readProperties, eq_map_string hnames, hread]
    rfl
  | _ => cases h

theorem matchesConditionValue_of_ofValue {condition : Value} {c : ObjectFilterCondition}
    (h : ObjectFilterCondition.ofValue condition = some c) :
    matchesConditionValue engine obj condition = matchesCondition engine obj c := by
  unfold ObjectFilterCondition.ofValue at h
  split at h
  · rename_i props op operands
    obtain ⟨properties, hproperties, h⟩ := Option.bind_eq_some_iff.mp h
    obtain ⟨operator, hoperator, h⟩ := Option.bind_eq_some_iff.mp h
    cases h
    obtain ⟨properties', hread, hvalue⟩ : ∃ properties', readProperties engine obj (some props) = .ok properties' ∧
        getFilterPropertyValue engine properties' obj = getFilterPropertyValue engine properties obj :=
      readProperties_of_ofValue hproperties
    rw [matchesConditionValue]
    simp only [itemAt, ok_bind, List.getElem?_cons_zero, List.getElem?_cons_succ, hread, Option.bind_some, hoperator]
    rw [matchesCondition, matchesCondition, hvalue]
  · cases h

theorem allM_of_ofValue {conditions : List Value} {cs : List ObjectFilterCondition}
    (h : conditions.mapM ObjectFilterCondition.ofValue = some cs) :
    conditions.allM (matchesConditionValue engine obj) = cs.allM (matchesCondition engine obj) := by
  induction conditions generalizing cs with
  | nil =>
    cases h
    rfl
  | cons condition conditions ih =>
    rw [List.mapM_cons] at h
    obtain ⟨c, hc, h⟩ := Option.bind_eq_some_iff.mp h
    obtain ⟨cs', hcs, h⟩ := Option.bind_eq_some_iff.mp h
    cases h
    rw [List.allM_cons, List.allM_cons, matchesConditionValue_of_ofValue hc, ih hcs]

theorem anyM_of_ofValue {conditions : List Value} {cs : List ObjectFilterCondition}
    (h : conditions.mapM ObjectFilterCondition.ofValue = some cs) :
    conditions.anyM (matchesConditionValue engine obj) = cs.anyM (matchesCondition engine obj) := by
  induction conditions generalizing cs with
  | nil =>
    cases h
    rfl
  | cons condition conditions ih =>
    rw [List.mapM_cons] at h
    obtain ⟨c, hc, h⟩ := Option.bind_eq_some_iff.mp h
    obtain ⟨cs', hcs, h⟩ := Option.bind_eq_some_iff.mp h
    cases h
    rw [List.anyM_cons, List.anyM_cons, matchesConditionValue_of_ofValue hc, ih hcs]

theorem listOf_cases {value : Option Value} {list : Option (List ObjectFilterCondition)}
    (h : ObjectFilterCondition.listOf value = some list) :
    value = none ∧ list = none ∨ ∃ conditions cs, value = some (.array conditions) ∧ list = some cs ∧
      conditions.mapM ObjectFilterCondition.ofValue = some cs := by
  cases value with
  | none =>
    cases h
    exact Or.inl ⟨rfl, rfl⟩
  | some value =>
    cases value with
    | array conditions =>
      obtain ⟨cs, hcs, rfl⟩ := Option.map_eq_some_iff.mp h
      exact Or.inr ⟨conditions, cs, rfl, rfl, hcs⟩
    | _ => cases h

theorem matchesFilterValue_of_ofValue {properties : List (Text × Value)} {filter : ContextFilter}
    (h : ContextFilter.ofValue (.object properties) = some filter) :
    matchesFilterValue engine (some obj) (some (.object properties)) = matchesFilter engine (some obj) (some filter) := by
  have hread : Value.read (.object properties) "conditions" = .ok ((Value.object properties).get (text "conditions")) := rfl
  unfold ContextFilter.ofValue at h
  unfold matchesFilterValue matchesFilter
  simp only [hread, ok_bind]
  cases hconditions : (Value.object properties).get (text "conditions") with
  | none =>
    rw [hconditions] at h
    cases h
    rfl
  | some conditions =>
    rw [hconditions] at h
    cases conditions with
    | object own =>
      obtain ⟨and, hand, h⟩ := Option.bind_eq_some_iff.mp h
      obtain ⟨or, hor, h⟩ := Option.bind_eq_some_iff.mp h
      cases h
      have hget : ∀ name, Value.read (.object own) name = .ok ((Value.object own).get (text name)) := fun _ => rfl
      simp only [hget, ok_bind]
      obtain ⟨hnone, rfl⟩ | ⟨conditions, cs, hsome, rfl, hcs⟩ := listOf_cases hand
      · obtain ⟨hnone', rfl⟩ | ⟨conditions, cs, hsome, rfl, hcs⟩ := listOf_cases hor
        · rw [hnone, hnone']
          rfl
        · rw [hnone, hsome]
          exact anyM_of_ofValue hcs
      · rw [hsome]
        exact allM_of_ofValue hcs
    | array items =>
      obtain ⟨c, hc, rfl⟩ := Option.map_eq_some_iff.mp h
      exact matchesConditionValue_of_ofValue hc
    | _ => cases h

end ObjectMatcher

end Coaty
