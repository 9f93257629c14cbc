import Coaty.Db.Postgres.FilterAgreement

/-!
# Selecting the objects of a filter

The text that is generated for a filter is that of a WHERE clause which selects, on both code paths, exactly the objects that the filter accepts in memory, if no condition comes to a difference between the two on the object, the filter has either `and` or `or`, and a list of alternatives is not empty.
-/

namespace Coaty

namespace Postgres

open Js Deep Evaluation

def Selects (engine : Engine) (database : Database) (supportsJsonpath : Bool) (filter : ContextFilter) (obj : Value) : Prop :=
  ∃ clause, whereClause engine supportsJsonpath filter = .ok clause ∧ clause.evaluate database obj = some (some true)

/-- The condition has valid operands and comes to no difference on the object. -/
def ConditionAgrees (engine : Engine) (database : Database) (supportsJsonpath : Bool) (obj : Value)
    (cond : ObjectFilterCondition) : Prop :=
  ∃ requirement, Requirement.ofCondition cond = some requirement ∧
    requirement.Agrees engine database supportsJsonpath obj

/-- The filter is read alike, and all its conditions come to no difference on the object. -/
def FilterAgrees (engine : Engine) (database : Database) (supportsJsonpath : Bool) (filter : ContextFilter) (obj : Value) :
    Prop :=
  match filter.conditions with
  | none => True
  | some (.condition cond) => ConditionAgrees engine database supportsJsonpath obj cond
  | some (.combined (some conds) none) => ∀ cond ∈ conds, ConditionAgrees engine database supportsJsonpath obj cond
  | some (.combined none (some conds)) =>
    conds ≠ [] ∧ ∀ cond ∈ conds, ConditionAgrees engine database supportsJsonpath obj cond
  | some (.combined _ _) => False

variable {engine : Engine} {database : Database} {supportsJsonpath : Bool}

/-! ### The order of the conditions -/

theorem sqlCondition_of_putOff {requirement : Requirement} {isNegated : Bool} {operand : Value}
    (h : requirement.criterion.putOff supportsJsonpath = some (isNegated, operand)) :
    requirement.sqlCondition engine supportsJsonpath = .containment isNegated (nested (some operand) requirement.keys) := by
  obtain ⟨prop, propsChain, criterion⟩ := requirement
  cases criterion with
  | equality isNegated' operand' =>
    simp only [Criterion.putOff, Bool.and_eq_true, Bool.not_eq_true', Option.ite_none_right_eq_some, Option.some.injEq,
      Prod.mk.injEq] at h
    obtain ⟨⟨hprimitive, hplain⟩, rfl, rfl⟩ := h
    simp [Requirement.sqlCondition, hprimitive, hplain]
  | containment isNegated' operand' =>
    cases h
    rfl
  | _ => cases h

theorem mem_putOffAs_iff {requirements : List Requirement} {isNegated : Bool} {condition : SqlCondition} :
    condition ∈ (requirements.filterMap (Requirement.putOffAs supportsJsonpath isNegated)).map
        (fun contained => SqlCondition.containment isNegated (nested contained.2 contained.1)) ↔
      ∃ requirement ∈ requirements, (∃ operand, requirement.criterion.putOff supportsJsonpath = some (isNegated, operand)) ∧
        requirement.sqlCondition engine supportsJsonpath = condition := by
  simp only [List.mem_map, List.mem_filterMap, Requirement.putOffAs, Option.bind_eq_some_iff, Option.ite_none_right_eq_some,
    Option.some.injEq]
  constructor
  · rintro ⟨_, ⟨requirement, hmem, ⟨isNegated', operand⟩, hputOff, rfl, rfl⟩, rfl⟩
    exact ⟨requirement, hmem, ⟨operand, hputOff⟩, sqlCondition_of_putOff hputOff⟩
  · rintro ⟨requirement, hmem, ⟨operand, hputOff⟩, rfl⟩
    exact ⟨_, ⟨requirement, hmem, _, hputOff, rfl, rfl⟩, (sqlCondition_of_putOff hputOff).symm⟩

/-- The SQL conditions are those of the requirements, in whatever order. -/
theorem mem_sqlConditions_iff {requirements : List Requirement} {condition : SqlCondition} :
    condition ∈ sqlConditions engine supportsJsonpath requirements ↔
      ∃ requirement ∈ requirements, requirement.sqlCondition engine supportsJsonpath = condition := by
  rw [sqlConditions, List.mem_append, List.mem_append, @mem_putOffAs_iff engine, @mem_putOffAs_iff engine,
    List.mem_map]
  simp only [List.mem_filter]
  constructor
  · rintro ((⟨requirement, ⟨hmem, _⟩, h⟩ | ⟨requirement, hmem, _, h⟩) | ⟨requirement, hmem, _, h⟩)
    · exact ⟨requirement, hmem, h⟩
    · exact ⟨requirement, hmem, h⟩
    · exact ⟨requirement, hmem, h⟩
  · intro ⟨requirement, hmem, h⟩
    cases hputOff : requirement.criterion.putOff supportsJsonpath with
    | none => exact Or.inl (Or.inl ⟨requirement, ⟨hmem, by rw [hputOff]; rfl⟩, h⟩)
    | some contained =>
      obtain ⟨isNegated, operand⟩ := contained
      cases isNegated with
      | true => exact Or.inl (Or.inr ⟨requirement, hmem, ⟨operand, hputOff⟩, h⟩)
      | false => exact Or.inr ⟨requirement, hmem, ⟨operand, hputOff⟩, h⟩

/-! ### The truth of the clause -/

/-- A condition that comes to no difference has a truth in the database, and the code returns whether it is true. -/
theorem ConditionAgrees.agreement [Std.TransCmp engine.compare] (hcollation : database.compare = engine.compare) {obj : Value}
    {cond : ObjectFilterCondition} (h : ConditionAgrees engine database supportsJsonpath obj cond) :
    ∃ requirement, Requirement.ofCondition cond = some requirement ∧
      Agreement (ObjectMatcher.matchesCondition engine obj cond)
        (database.evaluate obj (requirement.sqlCondition engine supportsJsonpath)) := by
  obtain ⟨requirement, hrequirement, hagrees⟩ := h
  refine ⟨requirement, hrequirement, ?_⟩
  rw [matchesCondition_eq hrequirement hagrees.straight, Database.evaluate, if_pos (isStorable_texts hagrees.storable)]
  exact hagrees.isDecided hcollation

theorem allM_singleton_iff {α ε : Type} {f : α → Except ε Bool} {x : α} : [x].allM f = .ok true ↔ f x = .ok true := by
  rw [List.allM_cons, List.allM_nil]
  cases f x with
  | error e => exact iff_of_false nofun nofun
  | ok b =>
    cases b with
    | true => exact iff_of_true rfl rfl
    | false => exact iff_of_false nofun nofun

theorem mapM_of_isSome {α β : Type} {f : α → Option β} {xs : List α} (h : ∀ x ∈ xs, (f x).isSome = true) (default : β) :
    xs.mapM f = some (xs.map fun x => (f x).getD default) := by
  rw [mapM_eq_some_iff, List.forall₂_map_right_iff, List.forall₂_same]
  intro x hmem
  obtain ⟨y, hy⟩ := Option.isSome_iff_exists.mp (h x hmem)
  rw [hy, Option.getD_some]

section List

variable [Std.TransCmp engine.compare] {obj : Value} {conds : List ObjectFilterCondition}

/-- The SQL conditions of a list have truths, and what is true of them is what the code accepts. -/
theorem evaluate_iff (hcollation : database.compare = engine.compare)
    (h : ∀ cond ∈ conds, ConditionAgrees engine database supportsJsonpath obj cond) :
    (∀ condition ∈ sqlConditions engine supportsJsonpath (conds.filterMap Requirement.ofCondition),
      (database.evaluate obj condition).isSome = true) ∧
    (∀ cond ∈ conds, ∃ condition ∈ sqlConditions engine supportsJsonpath (conds.filterMap Requirement.ofCondition),
      ((database.evaluate obj condition).getD none = some true ↔
        ObjectMatcher.matchesCondition engine obj cond = .ok true)) ∧
    ∀ condition ∈ sqlConditions engine supportsJsonpath (conds.filterMap Requirement.ofCondition), ∃ cond ∈ conds,
      ((database.evaluate obj condition).getD none = some true ↔
        ObjectMatcher.matchesCondition engine obj cond = .ok true) := by
  have hfrom : ∀ condition ∈ sqlConditions engine supportsJsonpath (conds.filterMap Requirement.ofCondition), ∃ cond ∈ conds,
      Agreement (ObjectMatcher.matchesCondition engine obj cond) (database.evaluate obj condition) := by
    intro condition hmem
    obtain ⟨requirement, hrequirement, rfl⟩ := mem_sqlConditions_iff.mp hmem
    obtain ⟨cond, hcond, hof⟩ := List.mem_filterMap.mp hrequirement
    obtain ⟨requirement', hof', hagreement⟩ := (h cond hcond).agreement hcollation
    rw [hof, Option.some.injEq] at hof'
    subst hof'
    exact ⟨cond, hcond, hagreement⟩
  have htruth : ∀ {cond condition}, Agreement (ObjectMatcher.matchesCondition engine obj cond) (database.evaluate obj condition) →
      (database.evaluate obj condition).isSome = true ∧
        ((database.evaluate obj condition).getD none = some true ↔
          ObjectMatcher.matchesCondition engine obj cond = .ok true) := by
    rintro cond condition ⟨b, truth, hb, htruth, hiff⟩
    rw [hb, htruth, Except.ok.injEq]
    exact ⟨rfl, hiff⟩
  refine ⟨?_, ?_, ?_⟩
  · intro condition hmem
    obtain ⟨cond, _, hagreement⟩ := hfrom condition hmem
    exact (htruth hagreement).1
  · intro cond hcond
    obtain ⟨requirement, hof, hagreement⟩ := (h cond hcond).agreement hcollation
    have hmem := List.mem_filterMap.mpr ⟨cond, hcond, hof⟩
    exact ⟨_, mem_sqlConditions_iff.mpr ⟨requirement, hmem, rfl⟩, (htruth hagreement).2⟩
  · intro condition hmem
    obtain ⟨cond, hcond, hagreement⟩ := hfrom condition hmem
    exact ⟨cond, hcond, (htruth hagreement).2⟩

theorem returns_of_agrees (hcollation : database.compare = engine.compare)
    (h : ∀ cond ∈ conds, ConditionAgrees engine database supportsJsonpath obj cond) {cond : ObjectFilterCondition}
    (hmem : cond ∈ conds) : Returns (ObjectMatcher.matchesCondition engine obj cond) := by
  obtain ⟨_, _, b, _, hb, _⟩ := (h cond hmem).agreement hcollation
  exact ⟨b, hb⟩

theorem evaluate_all_iff (hcollation : database.compare = engine.compare)
    (h : ∀ cond ∈ conds, ConditionAgrees engine database supportsJsonpath obj cond) :
    WhereClause.evaluate database obj ⟨sqlConditions engine supportsJsonpath (conds.filterMap Requirement.ofCondition), true⟩ =
        some (some true) ↔
      conds.allM (ObjectMatcher.matchesCondition engine obj) = .ok true := by
  obtain ⟨hsome, hto, hfrom⟩ := evaluate_iff hcollation h
  obtain ⟨c, hc⟩ := returns_allM_iff.mpr fun cond hreached => returns_of_agrees hcollation h hreached.mem
  have hall : c = true ↔ ∀ cond ∈ conds, ObjectMatcher.matchesCondition engine obj cond = .ok true :=
    decides_allM (fun cond _ => decides_self _) c hc
  have htruths : WhereClause.evaluate database obj
      ⟨sqlConditions engine supportsJsonpath (conds.filterMap Requirement.ofCondition), true⟩ =
        some (Truth.all ((sqlConditions engine supportsJsonpath (conds.filterMap Requirement.ofCondition)).map
          fun condition => (database.evaluate obj condition).getD none)) := by
    rw [WhereClause.evaluate]
    cases hempty : sqlConditions engine supportsJsonpath (conds.filterMap Requirement.ofCondition) with
    | nil => rfl
    | cons condition conditions =>
      rw [hempty] at hsome
      rw [if_neg (by simp), mapM_of_isSome hsome none, Option.map_some, if_pos rfl]
  rw [htruths, hc, Option.some.injEq, Except.ok.injEq, Truth.all_eq_true, List.forall_mem_map, hall]
  constructor
  · intro hconditions cond hcond
    obtain ⟨condition, hmem, hiff⟩ := hto cond hcond
    exact hiff.mp (hconditions condition hmem)
  · intro hconds condition hmem
    obtain ⟨cond, hcond, hiff⟩ := hfrom condition hmem
    exact hiff.mpr (hconds cond hcond)

theorem evaluate_any_iff (hcollation : database.compare = engine.compare) (hne : conds ≠ [])
    (h : ∀ cond ∈ conds, ConditionAgrees engine database supportsJsonpath obj cond) :
    WhereClause.evaluate database obj ⟨sqlConditions engine supportsJsonpath (conds.filterMap Requirement.ofCondition), false⟩ =
        some (some true) ↔
      conds.anyM (ObjectMatcher.matchesCondition engine obj) = .ok true := by
  obtain ⟨hsome, hto, hfrom⟩ := evaluate_iff hcollation h
  obtain ⟨c, hc⟩ := returns_anyM_iff.mpr fun cond hreached => returns_of_agrees hcollation h hreached.mem
  have hany : c = true ↔ ∃ cond ∈ conds, ObjectMatcher.matchesCondition engine obj cond = .ok true :=
    decides_anyM (fun cond _ => decides_self _) c hc
  have htruths : WhereClause.evaluate database obj
      ⟨sqlConditions engine supportsJsonpath (conds.filterMap Requirement.ofCondition), false⟩ =
        some (Truth.any ((sqlConditions engine supportsJsonpath (conds.filterMap Requirement.ofCondition)).map
          fun condition => (database.evaluate obj condition).getD none)) := by
    obtain ⟨cond, hcond⟩ := List.exists_mem_of_ne_nil conds hne
    obtain ⟨condition, hmem, _⟩ := hto cond hcond
    rw [WhereClause.evaluate, if_neg (by simpa using List.ne_nil_of_mem hmem), mapM_of_isSome hsome none, Option.map_some,
      if_neg Bool.false_ne_true]
  rw [htruths, hc, Option.some.injEq, Except.ok.injEq, Truth.any_eq_true, hany]
  simp only [List.mem_map]
  constructor
  · rintro ⟨_, ⟨condition, hmem, rfl⟩, htrue⟩
    obtain ⟨cond, hcond, hiff⟩ := hfrom condition hmem
    exact ⟨cond, hcond, hiff.mp htrue⟩
  · intro ⟨cond, hcond, htrue⟩
    obtain ⟨condition, hmem, hiff⟩ := hto cond hcond
    exact ⟨_, ⟨condition, hmem, rfl⟩, hiff.mpr htrue⟩

end List

/-! ### Filters -/

theorem isSome_ofCondition {obj : Value} {cond : ObjectFilterCondition}
    (h : ConditionAgrees engine database supportsJsonpath obj cond) : (Requirement.ofCondition cond).isSome = true := by
  obtain ⟨requirement, hrequirement, _⟩ := h
  rw [hrequirement]
  rfl

theorem selects_iff {filter : ContextFilter} {conditions : ContextFilterConditions} {conds : List ObjectFilterCondition}
    {combineAnd : Bool} (hconditions : filter.conditions = some conditions)
    (hconds : conditionsOf conditions = .ok (conds, combineAnd)) (obj : Value) :
    Selects engine database supportsJsonpath filter obj ↔
      WhereClause.evaluate database obj
        ⟨sqlConditions engine supportsJsonpath (conds.filterMap Requirement.ofCondition), combineAnd⟩ = some (some true) := by
  rw [Selects, whereClause, hconditions]
  simp only [hconds, ok_bind]
  constructor
  · rintro ⟨_, hclause, htrue⟩
    cases hclause
    exact htrue
  · intro htrue
    exact ⟨_, rfl, htrue⟩

/-- The generated text is that of a clause which selects the objects that the filter accepts in memory. -/
theorem selects_iff_matchesFilter [Std.TransCmp engine.compare] (hcollation : database.compare = engine.compare)
    (embedParams : Bool) {filter : ContextFilter} {properties : List (Text × Value)}
    (h : FilterAgrees engine database supportsJsonpath filter (.object properties)) :
    getWhereClauseAndParams engine supportsJsonpath embedParams (some filter) =
        (whereClause engine supportsJsonpath filter).map (WhereClause.toSql engine embedParams) ∧
      (Selects engine database supportsJsonpath filter (.object properties) ↔
        ObjectMatcher.matchesFilter engine (some (.object properties)) (some filter) = .ok true) := by
  have hselects : ∀ {conditions conds combineAnd}, filter.conditions = some conditions →
      conditionsOf conditions = .ok (conds, combineAnd) →
      (∀ cond ∈ conds, ConditionAgrees engine database supportsJsonpath (.object properties) cond) →
      getWhereClauseAndParams engine supportsJsonpath embedParams (some filter) =
        (whereClause engine supportsJsonpath filter).map (WhereClause.toSql engine embedParams) := by
    intro conditions conds combineAnd hconditions hconds hagree
    apply getWhereClauseAndParams_eq
    intro conditions' conds' combineAnd' hconditions' hconds' cond hmem
    rw [hconditions, Option.some.injEq] at hconditions'
    rw [← hconditions', hconds, Except.ok.injEq, Prod.mk.injEq] at hconds'
    exact isSome_ofCondition (hagree cond (hconds'.1 ▸ hmem))
  obtain ⟨conditions⟩ := filter
  cases conditions with
  | none => exact ⟨rfl, iff_of_true ⟨_, rfl, rfl⟩ rfl⟩
  | some conditions =>
    cases conditions with
    | condition cond =>
      have hagree : ∀ cond' ∈ [cond], ConditionAgrees engine database supportsJsonpath (.object properties) cond' :=
        List.forall_mem_singleton.mpr h
      refine ⟨hselects rfl rfl hagree, ?_⟩
      rw [selects_iff rfl rfl, evaluate_all_iff hcollation hagree, ObjectMatcher.matchesFilter]
      exact allM_singleton_iff
    | combined and or =>
      cases and with
      | some conds =>
        cases or with
        | some conds' => exact h.elim
        | none =>
          refine ⟨hselects rfl rfl h, ?_⟩
          rw [selects_iff rfl rfl, evaluate_all_iff hcollation h, ObjectMatcher.matchesFilter]
      | none =>
        cases or with
        | none => exact h.elim
        | some conds =>
          refine ⟨hselects rfl rfl h.2, ?_⟩
          rw [selects_iff rfl rfl, evaluate_any_iff hcollation h.1 h.2, ObjectMatcher.matchesFilter]

/-- A database in which arrays offer nothing to paths. -/
def plainDatabase : Database where
  compare := bareEngine.compare
  order _ _ := .eq
  textOf _ := []
  element _ _ := none

def switchedLamp : List (Text × Value) :=
  [(text "name", .string (text "Lamp")), (text "state", .object [(text "on", .bool true)])]

/-- Lamps by their name or their nested state. -/
def namedOrOff : ContextFilter where
  conditions := some (.combined none (some
    [⟨.dotted (text "name"), .like, some (.string (text "L%")), none⟩,
      ⟨.dotted (text "state.on"), .notEquals, some (.bool true), none⟩]))

theorem filterAgrees_namedOrOff : FilterAgrees bareEngine plainDatabase true namedOrOff (.object switchedLamp) := by
  refine ⟨List.cons_ne_nil _ _, ?_⟩
  rw [List.forall_mem_cons, List.forall_mem_singleton]
  constructor
  · refine ⟨⟨text "name", [], .like (text "L%")⟩, rfl, ?_⟩
    refine ⟨⟨Or.inl (by decide), fun w _ => trivial⟩, ?_, nofun, nofun, ?_⟩
    · exact List.all_iff_forall_prop.mp (by decide)
    · intro w hw
      cases hw
      exact ⟨Or.inl (List.all_iff_forall_prop.mp (by decide)), fun _ => by decide⟩
  · refine ⟨⟨text "state", [text "on"], .equality true (.bool true)⟩, rfl, ?_⟩
    refine ⟨⟨Or.inl (by decide), fun w hw => ?_⟩, ?_, nofun, ?_⟩
    · cases hw
      exact ⟨Or.inl (by decide), fun w _ => trivial⟩
    · exact List.all_iff_forall_prop.mp (by decide)
    · intro w hw
      cases hw
      exact ⟨rfl, fun _ => rfl⟩

theorem selects_iff_matchesFilter_lamp :
    getWhereClauseAndParams bareEngine true false (some namedOrOff) =
        (whereClause bareEngine true namedOrOff).map (WhereClause.toSql bareEngine false) ∧
      (Selects bareEngine plainDatabase true namedOrOff (.object switchedLamp) ↔
        ObjectMatcher.matchesFilter bareEngine (some (.object switchedLamp)) (some namedOrOff) = .ok true) :=
  haveI : Std.TransCmp bareEngine.compare := transCmp_codeUnits
  selects_iff_matchesFilter rfl false filterAgrees_namedOrOff

end Postgres

end Coaty
