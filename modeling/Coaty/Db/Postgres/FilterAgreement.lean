import Coaty.Db.Postgres.StraightPaths
import Coaty.Db.Postgres.WhereTranslation

/-!
# Filters in the database and in memory

The WHERE clause of a filter selects the objects that the filter accepts in memory, as long as no condition comes to one of the differences between the two: inherited members and arrays on the way to a property, missing properties in negated conditions, values of another kind or order than the operand, and what containment and patterns make of arrays and line terminators.
-/

namespace Coaty

namespace Postgres

open Js Deep Evaluation Order

variable (engine : Engine) (database : Database) (supportsJsonpath embedParams : Bool)

/-! ### In memory -/

def negatedIf (isNegated : Bool) (e : Except Error Bool) : Except Error Bool :=
  if isNegated then do return !(← e) else e

/-- Whether the own property at the end of a path meets the criterion in memory. -/
def Criterion.accepts : Option Value → Criterion → Except Error Bool
  | none, existence isNegated => .ok isNegated
  | none, _ => .ok false
  | some _, existence isNegated => .ok !isNegated
  | some v, ordering operator operand =>
    ObjectMatcher.compareOperand engine (.value v) (some operand) operator.toComparison.test
  | some v, interval isNegated operand1 operand2 =>
    if isNegated then ObjectMatcher.notBetween engine (.value v) (some operand1) (some operand2)
    else ObjectMatcher.between engine (.value v) (some operand1) (some operand2)
  | some v, like likePattern => .ok (ObjectMatcher.like (.value v) (some (.string likePattern)))
  | some v, equality isNegated operand => negatedIf isNegated (equals v operand)
  | some v, containment isNegated operand => negatedIf isNegated (containsInternal v operand true)
  | some v, membership isNegated items => negatedIf isNegated (includes (some (.array items)) (.value v))

variable {engine database supportsJsonpath embedParams}

theorem accepts_of_orderingOf {operator : OrderOperator} {operand : Option Value} {criterion : Criterion}
    (h : Criterion.orderingOf operator operand = some criterion) :
    criterion.accepts engine none = .ok false ∧ ∀ v, criterion.accepts engine (some v) =
      ObjectMatcher.compareOperand engine (.value v) operand operator.toComparison.test := by
  unfold Criterion.orderingOf at h
  split at h
  · split at h
    · cases h
      exact ⟨rfl, fun v => rfl⟩
    · cases h
  · cases h

theorem accepts_of_intervalOf {isNegated : Bool} {operand1 operand2 : Option Value} {criterion : Criterion}
    (h : Criterion.intervalOf isNegated operand1 operand2 = some criterion) :
    criterion.accepts engine none = .ok false ∧ ∀ v, criterion.accepts engine (some v) =
      if isNegated then ObjectMatcher.notBetween engine (.value v) operand1 operand2
      else ObjectMatcher.between engine (.value v) operand1 operand2 := by
  unfold Criterion.intervalOf at h
  split at h
  · split at h
    · cases h
      exact ⟨rfl, fun v => rfl⟩
    · cases h
  · cases h

theorem accepts_of_likeOf {operand : Option Value} {criterion : Criterion} (h : Criterion.likeOf operand = some criterion) :
    criterion.accepts engine none = .ok false ∧
      ∀ v, criterion.accepts engine (some v) = .ok (ObjectMatcher.like (.value v) operand) := by
  unfold Criterion.likeOf at h
  split at h
  · cases h
    exact ⟨rfl, fun v => rfl⟩
  · cases h

theorem accepts_of_membershipOf {isNegated : Bool} {operand : Option Value} {criterion : Criterion}
    (h : Criterion.membershipOf isNegated operand = some criterion) :
    criterion.accepts engine none = .ok false ∧
      ∀ v, criterion.accepts engine (some v) = negatedIf isNegated (includes operand (.value v)) := by
  unfold Criterion.membershipOf at h
  split at h
  · cases h
    exact ⟨rfl, fun v => rfl⟩
  · cases h

/-- A condition on an own property with valid operands is matched as its criterion says. -/
theorem matchesCondition_eq {cond : ObjectFilterCondition} {requirement : Requirement}
    (h : Requirement.ofCondition cond = some requirement) {obj : Value}
    (hpath : IsStraight engine database requirement.keys obj) :
    ObjectMatcher.matchesCondition engine obj cond = requirement.criterion.accepts engine (ownAt requirement.keys obj) := by
  obtain ⟨properties, operator, operand1, operand2⟩ := cond
  rw [Requirement.ofCondition] at h
  split at h
  · rename_i prop propsChain criterion hkeys hcriterion
    cases h
    rw [Requirement.keys] at hpath ⊢
    simp only at hkeys ⊢
    have hvalue := @getFilterPropertyValue_of_isStraight engine database obj properties (hkeys ▸ hpath)
    rw [hkeys] at hvalue
    rw [ObjectMatcher.matchesCondition]
    simp only [hvalue]
    cases ownAt (prop :: propsChain) obj with
    | none =>
      cases operator with
      | lessThan => exact ((accepts_of_orderingOf hcriterion).1).symm
      | lessThanOrEqual => exact ((accepts_of_orderingOf hcriterion).1).symm
      | greaterThan => exact ((accepts_of_orderingOf hcriterion).1).symm
      | greaterThanOrEqual => exact ((accepts_of_orderingOf hcriterion).1).symm
      | between => exact ((accepts_of_intervalOf hcriterion).1).symm
      | notBetween => exact ((accepts_of_intervalOf hcriterion).1).symm
      | like => exact ((accepts_of_likeOf hcriterion).1).symm
      | isIn => exact ((accepts_of_membershipOf hcriterion).1).symm
      | notIn => exact ((accepts_of_membershipOf hcriterion).1).symm
      | exist =>
        cases hcriterion
        rfl
      | notExists =>
        cases hcriterion
        rfl
      | _ =>
        obtain ⟨operand, rfl, rfl⟩ := Option.map_eq_some_iff.mp hcriterion
        rfl
    | some v =>
      cases operator with
      | lessThan => exact ((accepts_of_orderingOf hcriterion).2 v).symm
      | lessThanOrEqual => exact ((accepts_of_orderingOf hcriterion).2 v).symm
      | greaterThan => exact ((accepts_of_orderingOf hcriterion).2 v).symm
      | greaterThanOrEqual => exact ((accepts_of_orderingOf hcriterion).2 v).symm
      | between => exact ((accepts_of_intervalOf hcriterion).2 v).symm
      | notBetween => exact ((accepts_of_intervalOf hcriterion).2 v).symm
      | like => exact ((accepts_of_likeOf hcriterion).2 v).symm
      | isIn => exact ((accepts_of_membershipOf hcriterion).2 v).symm
      | notIn => exact ((accepts_of_membershipOf hcriterion).2 v).symm
      | exist =>
        cases hcriterion
        rfl
      | notExists =>
        cases hcriterion
        rfl
      | _ =>
        obtain ⟨operand, rfl, rfl⟩ := Option.map_eq_some_iff.mp hcriterion
        rfl
  · cases h

/-! ### Where both agree -/

/-- A comparison of two items in jsonpath has a truth. -/
def areComparable : Value → Value → Bool
  | .null, _ => true
  | _, .null => true
  | .bool _, .bool _ => true
  | v, operand => ofOneKind v operand

/-- Strings are in the order of the code, which jsonpath does not use. -/
def OrderedAlike (engine : Engine) (supportsJsonpath : Bool) : Value → Value → Prop
  | .string s, .string t => supportsJsonpath = true → Lax.compareCodePoints s t = engine.compare s t
  | _, _ => True

/-- The wildcards of a pattern in the database, where a regular expression leaves out newlines. -/
def wildcardOf (supportsJsonpath : Bool) (c : UInt16) : Bool := if supportsJsonpath then regexWildcard c else true

namespace Criterion

def texts : Criterion → List Text
  | ordering _ operand => textsOf operand
  | interval _ operand1 operand2 => textsOf operand1 ++ textsOf operand2
  | like likePattern => [likePattern]
  | equality _ operand => textsOf operand
  | existence _ => []
  | containment _ operand => textsOf operand
  | membership _ items => textsOfItems items

def LikeAgrees (supportsJsonpath : Bool) (likePattern : Text) : Value → Prop
  | .string s => MatchedAlike (wildcardOf supportsJsonpath) likePattern s
  | .null => True
  | .array _ => False
  | _ => supportsJsonpath = true

/-- The criterion comes to no difference between the database and the code on the value of the property, if it has one. -/
def Agrees (engine : Engine) (supportsJsonpath : Bool) (v : Option Value) : Criterion → Prop
  | ordering _ operand =>
    ∀ w, v = some w → ofOneKind w operand = true ∧ OrderedAlike engine supportsJsonpath w operand
  | interval _ operand1 operand2 =>
    ∀ w, v = some w → (ofOneKind w operand1 = true ∧ ofOneKind operand1 operand2 = true) ∧
      OrderedAlike engine supportsJsonpath w operand1 ∧ OrderedAlike engine supportsJsonpath w operand2
  | like likePattern =>
    (supportsJsonpath = false → (likeParts likePattern).isSome = true) ∧
      ∀ w, v = some w → LikeAgrees supportsJsonpath likePattern w
  | equality isNegated operand =>
    if isPrimitive operand then
      if supportsJsonpath then
        ∀ w, v = some w → w.isArray = false ∧ (isNegated = true → areComparable w operand = true)
      else isNegated = true → v.isSome = true
    else ∀ w, v = some w → ∀ a b, EqualsCompares w operand a b → ¬ EqualsFails a b
  | existence _ => True
  | containment isNegated operand =>
    (isNegated = true → v.isSome = true) ∧ ∀ w, v = some w →
      NoSearchFails w operand ∧ (ContainedAtTop true w operand → Contained false w operand)
  | membership isNegated items =>
    (isNegated = true → v = none → items ≠ []) ∧ ∀ w, v = some w →
      ∀ av, Reached (fun av => equals av w) false items av → ∀ a b, EqualsCompares av w a b → ¬ EqualsFails a b

end Criterion

/-- The requirement comes to no difference between the database and the code on the object. -/
structure Requirement.Agrees (engine : Engine) (database : Database) (supportsJsonpath : Bool) (obj : Value)
    (requirement : Requirement) : Prop where
  straight : IsStraight engine database requirement.keys obj
  storable : ∀ s ∈ requirement.keys ++ requirement.criterion.texts, IsStorable s
  names : ∀ isNegated, requirement.criterion = .existence isNegated → supportsJsonpath = false →
    TakesNoName requirement.keys obj
  value : requirement.criterion.Agrees engine supportsJsonpath (ownAt requirement.keys obj)

/-- What the code returns is whether the truth in the database is true. -/
def Agreement (e : Except Error Bool) (t : Option Truth) : Prop :=
  ∃ b truth, e = .ok b ∧ t = some truth ∧ (truth = some true ↔ b = true)

/-- The truth of the requirement in the database is what the code returns. -/
def Requirement.IsDecided (engine : Engine) (database : Database) (supportsJsonpath : Bool) (obj : Value)
    (requirement : Requirement) : Prop :=
  Agreement (requirement.criterion.accepts engine (ownAt requirement.keys obj))
    (database.truthOf obj (requirement.sqlCondition engine supportsJsonpath))

theorem agreement_of_definite (b : Bool) : Agreement (.ok b) (some (some b)) :=
  ⟨b, some b, rfl, rfl, by simp⟩

theorem agreement_of_null : Agreement (.ok false) (some none) := ⟨false, none, rfl, rfl, by simp⟩

theorem agreement_negated {e : Except Error Bool} {b : Bool} (he : e = .ok b) (isNegated : Bool) :
    Agreement (negatedIf isNegated e) (some (Truth.notIf isNegated (some b))) := by
  subst he
  cases isNegated with
  | true => exact agreement_of_definite (!b)
  | false => exact agreement_of_definite b

theorem agreement_of_missing (isNegated : Bool) : Agreement (.ok false) (some (Truth.notIf isNegated none)) := by
  cases isNegated with
  | true => exact agreement_of_null
  | false => exact agreement_of_null

/-! ### Texts that can be held -/

theorem textsOf_nested {operand : Value} {key : Text} {keys : List Text} :
    textsOf (nested (some operand) (key :: keys)) = key :: keys ++ textsOf operand := by
  induction keys generalizing key with
  | nil => simp [nested, textsOf, textsOfProperties]
  | cons next keys ih =>
    rw [nested]
    · rw [textsOf, textsOfProperties, ih, textsOfProperties]
      simp
    · simp

theorem isStorable_texts {requirement : Requirement}
    (h : ∀ s ∈ requirement.keys ++ requirement.criterion.texts, IsStorable s) :
    ∀ s ∈ (requirement.sqlCondition engine supportsJsonpath).texts, IsStorable s := by
  obtain ⟨prop, propsChain, criterion⟩ := requirement
  obtain ⟨hkeys, hcriterion⟩ := List.forall_mem_append.mp h
  have hbehind : ∀ texts : List Text, (∀ s ∈ texts, IsStorable s) → ∀ s ∈ (prop :: propsChain) ++ texts, IsStorable s :=
    fun texts htexts => List.forall_mem_append.mpr ⟨hkeys, htexts⟩
  have hnested : ∀ operand, (∀ s ∈ textsOf operand, IsStorable s) →
      ∀ s ∈ textsOf (nested (some operand) (prop :: propsChain)), IsStorable s := by
    intro operand hoperand
    rw [textsOf_nested]
    exact hbehind _ hoperand
  cases criterion with
  | ordering operator operand => cases supportsJsonpath <;> exact hbehind _ hcriterion
  | interval isNegated operand1 operand2 =>
    have hswapped : ∀ s ∈ textsOf operand2 ++ textsOf operand1, IsStorable s :=
      List.forall_mem_append.mpr (List.forall_mem_append.mp hcriterion).symm
    rw [Requirement.sqlCondition]
    simp only
    split
    · split
      · exact hbehind _ hswapped
      · exact hbehind _ hcriterion
    · exact hbehind _ hcriterion
  | like likePattern =>
    cases supportsJsonpath with
    | true => exact hbehind _ (List.forall_mem_singleton.mpr (isStorable_posixRegex (List.forall_mem_singleton.mp hcriterion)))
    | false => exact hbehind _ hcriterion
  | equality isNegated operand =>
    rw [Requirement.sqlCondition]
    simp only
    split
    · split
      · exact hbehind _ hcriterion
      · exact hnested operand hcriterion
    · exact hbehind _ hcriterion
  | existence isNegated => cases supportsJsonpath <;> exact hkeys
  | containment isNegated operand => exact hnested operand hcriterion
  | membership isNegated items => exact hbehind _ hcriterion

/-! ### Orders and intervals -/

section Kinds

variable {v operand : Value}

theorem operandOrder_of_ofOneKind (hcollation : database.compare = engine.compare) (h : ofOneKind v operand = true) :
    ObjectMatcher.operandOrder engine v operand = some (database.compareValues v operand) := by
  cases v <;> cases operand <;> cases h
  · rfl
  · rw [ObjectMatcher.operandOrder, Database.compareValues, hcollation]

theorem compareItems_of_ofOneKind (hcollation : database.compare = engine.compare) (h : ofOneKind v operand = true)
    (hordered : OrderedAlike engine true v operand) (operator : OrderOperator) :
    Lax.compareItems operator.toComparison v operand =
      some (operator.toComparison.test (database.compareValues v operand)) := by
  cases v <;> cases operand <;> cases h
  · rfl
  · rw [Database.compareValues, hcollation, ← hordered rfl]
    cases operator <;> rfl

theorem isArray_of_ofOneKind (h : ofOneKind v operand = true) : v.isArray = false := by
  cases v <;> cases operand <;> cases h
  · rfl
  · rfl

theorem holds_of_ofOneKind (hcollation : database.compare = engine.compare) (h : ofOneKind v operand = true)
    (hordered : OrderedAlike engine true v operand) (operator : OrderOperator) :
    Lax.holds (fun v => Lax.compareItems operator.toComparison v operand) [v] =
      some (operator.toComparison.test (database.compareValues v operand)) := by
  rw [Lax.holds_singleton (isArray_of_ofOneKind h), compareItems_of_ofOneKind hcollation h hordered]

theorem between_of_ofOneKind (hcollation : database.compare = engine.compare) {operand1 operand2 : Value}
    (h : ofOneKind v operand1 = true) (h' : ofOneKind operand1 operand2 = true) :
    ObjectMatcher.between engine (.value v) (some operand1) (some operand2) =
        .ok (Order.between database.compareValues v operand1 operand2) ∧
      ObjectMatcher.notBetween engine (.value v) (some operand1) (some operand2) =
        .ok (Order.notBetween database.compareValues v operand1 operand2) := by
  cases v <;> cases operand1 <;> cases h <;> cases operand2 <;> cases h'
  · exact ⟨ObjectMatcher.between_numbers _ _ _, ObjectMatcher.notBetween_numbers _ _ _⟩
  · rw [ObjectMatcher.between_strings, ObjectMatcher.notBetween_strings, ← hcollation]
    exact ⟨rfl, rfl⟩

end Kinds

section Own

variable {obj : Value} {prop : Text} {propsChain : List Text}

theorem isDecided_ordering (hpath : IsStraight engine database (prop :: propsChain) obj)
    (hcollation : database.compare = engine.compare) (operator : OrderOperator) {operand : Value}
    (hvalue : ∀ w, ownAt (prop :: propsChain) obj = some w →
      ofOneKind w operand = true ∧ OrderedAlike engine supportsJsonpath w operand) :
    Requirement.IsDecided engine database supportsJsonpath obj ⟨prop, propsChain, .ordering operator operand⟩ := by
  have hfind := find_of_isStraight hpath
  have hitems := items_of_isStraight hpath
  rw [Requirement.IsDecided, Requirement.sqlCondition, Requirement.keys]
  cases hown : ownAt (prop :: propsChain) obj with
  | none =>
    rw [hown] at hfind hitems
    cases supportsJsonpath with
    | true =>
      simp only [if_true, Database.truthOf, Lax.evaluate, hitems]
      exact agreement_of_definite false
    | false =>
      simp only [Bool.false_eq_true, if_false, Database.truthOf, hfind]
      exact agreement_of_null
  | some w =>
    obtain ⟨hkind, hordered⟩ := hvalue w hown
    rw [hown] at hfind hitems
    rw [Criterion.accepts, ObjectMatcher.compareOperand_of_order (operandOrder_of_ofOneKind hcollation hkind)]
    cases supportsJsonpath with
    | true =>
      simp only [if_true, Database.truthOf, Lax.evaluate, hitems, Option.toList_some,
        holds_of_ofOneKind hcollation hkind hordered]
      exact agreement_of_definite _
    | false =>
      simp only [Bool.false_eq_true, if_false, Database.truthOf, hfind]
      exact agreement_of_definite _

theorem isBetween_of_ofOneKind [Std.TransCmp engine.compare] (hcollation : database.compare = engine.compare)
    {w operand1 operand2 : Value} (h : ofOneKind w operand1 = true) (h' : ofOneKind operand1 operand2 = true) :
    database.isBetween w operand1 operand2 = Order.between database.compareValues w operand1 operand2 := by
  cases w <;> cases operand1 <;> cases h <;> cases operand2 <;> cases h'
  · rename_i x a b
    exact (@Order.between_eq_or Rat compare _ x a b).symm
  · rename_i s a b
    have hor := @Order.between_eq_or _ engine.compare _ s a b
    rw [← hcollation] at hor
    exact hor.symm

theorem ofOneKind_trans {u v w : Value} (h : ofOneKind u v = true) (h' : ofOneKind v w = true) : ofOneKind u w = true := by
  cases u <;> cases v <;> cases h <;> cases w <;> cases h'
  · rfl
  · rfl

theorem inInterval_of_ofOneKind (hcollation : database.compare = engine.compare) {w lower upper : Value}
    (hlower : ofOneKind w lower = true ∧ OrderedAlike engine true w lower)
    (hupper : ofOneKind w upper = true ∧ OrderedAlike engine true w upper) (isNegated : Bool) :
    Lax.inInterval isNegated lower upper w =
      some (if isNegated then (database.compareValues w lower).isLT || (database.compareValues w upper).isGT
        else (database.compareValues w lower).isGE && (database.compareValues w upper).isLE) := by
  cases isNegated with
  | true =>
    have hless : Lax.holds (fun v => Lax.compareItems .less v lower) [w] =
        some (database.compareValues w lower).isLT := holds_of_ofOneKind hcollation hlower.1 hlower.2 .lessThan
    have hgreater : Lax.holds (fun v => Lax.compareItems .greater v upper) [w] =
        some (database.compareValues w upper).isGT := holds_of_ofOneKind hcollation hupper.1 hupper.2 .greaterThan
    rw [Lax.inInterval, if_pos rfl, if_pos rfl, hless, hgreater, Truth.or_some]
  | false =>
    have hgreater : Lax.holds (fun v => Lax.compareItems .greaterEqual v lower) [w] =
        some (database.compareValues w lower).isGE := holds_of_ofOneKind hcollation hlower.1 hlower.2 .greaterThanOrEqual
    have hless : Lax.holds (fun v => Lax.compareItems .lessEqual v upper) [w] =
        some (database.compareValues w upper).isLE := holds_of_ofOneKind hcollation hupper.1 hupper.2 .lessThanOrEqual
    rw [Lax.inInterval, if_neg Bool.false_ne_true, if_neg Bool.false_ne_true, hgreater, hless, Truth.and_some]

theorem opened_of_not_isArray {w : Value} (hw : w.isArray = false) : Lax.opened w = [w] := by
  cases w with
  | array items => cases hw
  | _ => rfl

theorem accepts_interval {w operand1 operand2 : Value} (hcollation : database.compare = engine.compare)
    (h : ofOneKind w operand1 = true) (h' : ofOneKind operand1 operand2 = true) (isNegated : Bool) :
    (Criterion.interval isNegated operand1 operand2).accepts engine (some w) =
      .ok (if isNegated then Order.notBetween database.compareValues w operand1 operand2
        else Order.between database.compareValues w operand1 operand2) := by
  obtain ⟨hbetween, hnotBetween⟩ := between_of_ofOneKind hcollation h h'
  cases isNegated with
  | true => exact hnotBetween
  | false => exact hbetween

theorem isDecided_expression {w operand1 operand2 : Value} (hcollation : database.compare = engine.compare)
    (h : ofOneKind w operand1 = true) (h' : ofOneKind operand1 operand2 = true)
    (hordered : OrderedAlike engine true w operand1 ∧ OrderedAlike engine true w operand2) (isNegated : Bool) :
    (if areSwapped engine operand1 operand2 then Lax.inInterval isNegated operand2 operand1 w
      else Lax.inInterval isNegated operand1 operand2 w) =
      some (if isNegated then Order.notBetween database.compareValues w operand1 operand2
        else Order.between database.compareValues w operand1 operand2) := by
  have h'' := ofOneKind_trans h h'
  rw [areSwapped, operandOrder_of_ofOneKind hcollation h', Option.any_some, inInterval_of_ofOneKind hcollation ⟨h'', hordered.2⟩ ⟨h, hordered.1⟩,
    inInterval_of_ofOneKind hcollation ⟨h, hordered.1⟩ ⟨h'', hordered.2⟩, Order.notBetween, Order.between]
  cases isNegated <;> split <;> rfl

theorem isDecided_interval [Std.TransCmp engine.compare] (hpath : IsStraight engine database (prop :: propsChain) obj)
    (hcollation : database.compare = engine.compare) (isNegated : Bool) {operand1 operand2 : Value}
    (hvalue : ∀ w, ownAt (prop :: propsChain) obj = some w →
      (ofOneKind w operand1 = true ∧ ofOneKind operand1 operand2 = true) ∧
        OrderedAlike engine supportsJsonpath w operand1 ∧ OrderedAlike engine supportsJsonpath w operand2) :
    Requirement.IsDecided engine database supportsJsonpath obj ⟨prop, propsChain, .interval isNegated operand1 operand2⟩ := by
  have hfind := find_of_isStraight hpath
  have hitems := items_of_isStraight hpath
  have hexpression : ∀ expression, (if areSwapped engine operand1 operand2 then
        SqlCondition.jsonpath (.interval (prop :: propsChain) isNegated operand2 operand1)
      else .jsonpath (.interval (prop :: propsChain) isNegated operand1 operand2)) = expression →
      database.truthOf obj expression =
        some (some (((ownAt (prop :: propsChain) obj).toList.flatMap Lax.opened).any fun v =>
          (if areSwapped engine operand1 operand2 then Lax.inInterval isNegated operand2 operand1 v
            else Lax.inInterval isNegated operand1 operand2 v) = some true)) := by
    rintro expression rfl
    split
    · rw [Database.truthOf, Lax.evaluate, hitems]
    · rw [Database.truthOf, Lax.evaluate, hitems]
  rw [Requirement.IsDecided, Requirement.sqlCondition, Requirement.keys]
  cases hown : ownAt (prop :: propsChain) obj with
  | none =>
    rw [hown] at hfind hexpression
    cases supportsJsonpath with
    | true =>
      simp only [if_true]
      rw [hexpression _ rfl]
      exact agreement_of_definite false
    | false =>
      simp only [Bool.false_eq_true, if_false, Database.truthOf, hfind]
      exact agreement_of_missing isNegated
  | some w =>
    obtain ⟨⟨hkind, hkinds⟩, hordered⟩ := hvalue w hown
    rw [hown] at hfind hexpression
    rw [accepts_interval hcollation hkind hkinds]
    cases supportsJsonpath with
    | true =>
      simp only [if_true]
      rw [hexpression _ rfl, Option.toList_some, List.flatMap_singleton, opened_of_not_isArray (isArray_of_ofOneKind hkind),
        List.any_cons, List.any_nil, Bool.or_false, isDecided_expression hcollation hkind hkinds hordered]
      have hdecide : ∀ b : Bool, decide (some b = some true) = b := by decide
      rw [hdecide]
      exact agreement_of_definite _
    | false =>
      simp only [Bool.false_eq_true, if_false, Database.truthOf, hfind, Option.map_some,
        isBetween_of_ofOneKind hcollation hkind hkinds, Order.notBetween_eq]
      cases isNegated with
      | true => exact agreement_of_definite _
      | false => exact agreement_of_definite _

/-! ### Patterns -/

theorem leavesOut_wildcardOf (supportsJsonpath : Bool) : LeavesOutLineTerminators (wildcardOf supportsJsonpath) := by
  cases supportsJsonpath with
  | true => exact leavesOut_regexWildcard
  | false => exact fun c _ => rfl

theorem isDecided_like (hpath : IsStraight engine database (prop :: propsChain) obj) {likePattern : Text}
    (hparts : supportsJsonpath = false → (likeParts likePattern).isSome = true)
    (hvalue : ∀ w, ownAt (prop :: propsChain) obj = some w → Criterion.LikeAgrees supportsJsonpath likePattern w) :
    Requirement.IsDecided engine database supportsJsonpath obj ⟨prop, propsChain, .like likePattern⟩ := by
  have hfind := find_of_isStraight hpath
  have hitems := items_of_isStraight hpath
  rw [Requirement.IsDecided, Requirement.sqlCondition, Requirement.keys]
  cases supportsJsonpath with
  | true =>
    simp only [if_true, Database.truthOf, Lax.evaluate, hitems, readRegex_posixRegex, Option.map_some]
    cases hown : ownAt (prop :: propsChain) obj with
    | none => exact agreement_of_definite false
    | some w =>
      have hagrees := hvalue w hown
      cases w with
      | string s =>
        have htest : testRegex (createLikeRegexp false likePattern) s = testLike (createLikeRegexp false likePattern) s :=
          Bool.eq_iff_iff.mpr (testCharacters_iff_testLike (leavesOut_wildcardOf true) hagrees)
        rw [Option.toList_some, Lax.holds_singleton rfl, Lax.likeRegex, htest]
        exact agreement_of_definite _
      | array items => exact hagrees.elim
      | _ =>
        rw [Option.toList_some, Lax.holds_singleton rfl]
        exact agreement_of_null
  | false =>
    obtain ⟨parts, hparts⟩ := Option.isSome_iff_exists.mp (hparts rfl)
    have hcreate := createLikeRegexp_of_likeParts hparts
    simp only [Bool.false_eq_true, if_false, Database.truthOf, hfind, hparts, Option.map_some]
    cases hown : ownAt (prop :: propsChain) obj with
    | none => exact agreement_of_null
    | some w =>
      have hagrees := hvalue w hown
      cases w with
      | string s =>
        have htest : testLikeParts (createLikeRegexp false likePattern) s =
            testLike (createLikeRegexp false likePattern) s :=
          Bool.eq_iff_iff.mpr (testCharacters_iff_testLike (leavesOut_wildcardOf false) hagrees)
        rw [Option.bind_some, Database.asText, Option.map_some, ← hcreate, htest]
        exact agreement_of_definite _
      | null => exact agreement_of_null
      | array items => exact hagrees.elim
      | _ => cases hagrees

/-! ### Equality -/

theorem equals_of_isPrimitive {w operand : Value} (h : isPrimitive operand = true) :
    equals w operand = .ok (strictEquals w operand) := by
  cases operand with
  | array items => cases h
  | object properties => cases h
  | _ => cases w <;> rfl

theorem contained_of_isPrimitive {w operand : Value} (h : isPrimitive operand = true) :
    Contained false w operand ↔ strictEquals w operand = true := by
  cases operand with
  | array items => cases h
  | object properties => cases h
  | _ => cases w <;> exact Iff.rfl

theorem test_equal (order : Ordering) : Comparison.equal.test order = decide (order = .eq) := rfl

theorem test_notEqual (order : Ordering) : Comparison.notEqual.test order = !decide (order = .eq) := decide_not

theorem compareBooleans : ∀ a b : Bool, compareOfLessAndEq a b = .eq ↔ a = b := by decide

/-- What is not comparable with a primitive operand is not equal to it. -/
theorem compareItems_equal {w operand : Value} (h : isPrimitive operand = true) :
    Lax.compareItems .equal w operand = some true ↔ strictEquals w operand = true := by
  cases operand with
  | array items => cases h
  | object properties => cases h
  | _ => cases w <;> simp [Lax.compareItems, strictEquals, test_equal, compareBooleans]

theorem compareItems_notEqual {w operand : Value} (h : isPrimitive operand = true) (hw : areComparable w operand = true) :
    Lax.compareItems .notEqual w operand = some (!strictEquals w operand) := by
  cases operand with
  | array items => cases h
  | object properties => cases h
  | _ => cases w <;> simp_all [Lax.compareItems, strictEquals, test_notEqual, areComparable, ofOneKind, compareBooleans]

theorem isDecided_comparison (hpath : IsStraight engine database (prop :: propsChain) obj) (isNegated : Bool) {operand : Value}
    (hprimitive : isPrimitive operand = true)
    (hvalue : ∀ w, ownAt (prop :: propsChain) obj = some w →
      w.isArray = false ∧ (isNegated = true → areComparable w operand = true)) :
    Requirement.IsDecided engine database true obj ⟨prop, propsChain, .equality isNegated operand⟩ := by
  have hitems := items_of_isStraight hpath
  rw [Requirement.IsDecided, Requirement.sqlCondition, Requirement.keys]
  simp only [hprimitive, if_true, Database.truthOf, Lax.evaluate, hitems]
  cases hown : ownAt (prop :: propsChain) obj with
  | none => exact agreement_of_definite false
  | some w =>
    obtain ⟨harray, hcomparable⟩ := hvalue w hown
    rw [Option.toList_some, Lax.holds_singleton harray, Criterion.accepts, equals_of_isPrimitive hprimitive]
    cases isNegated with
    | true =>
      rw [if_pos rfl, compareItems_notEqual hprimitive (hcomparable rfl)]
      exact agreement_of_definite _
    | false =>
      rw [if_neg Bool.false_ne_true]
      exact ⟨_, _, rfl, rfl, compareItems_equal hprimitive⟩

theorem isDecided_of_contained {criterion : Criterion} (isNegated : Bool) (operand : Value)
    (hcondition : (⟨prop, propsChain, criterion⟩ : Requirement).sqlCondition engine supportsJsonpath =
      .containment isNegated (nested (some operand) (prop :: propsChain)))
    (hmissing : criterion.accepts engine none = .ok false) (hsome : isNegated = true → (ownAt (prop :: propsChain) obj).isSome = true)
    (hvalue : ∀ w, ownAt (prop :: propsChain) obj = some w →
      ∃ b, criterion.accepts engine (some w) = negatedIf isNegated (.ok b) ∧ (b = true ↔ Contained false w operand)) :
    Requirement.IsDecided engine database supportsJsonpath obj ⟨prop, propsChain, criterion⟩ := by
  rw [Requirement.IsDecided, hcondition, Database.truthOf, Requirement.keys]
  have hcontains : Jsonb.contains obj (nested (some operand) (prop :: propsChain)) = true ↔
      ∃ w, ownAt (prop :: propsChain) obj = some w ∧ Contained false w operand := Jsonb.contains_iff.trans contained_nested
  cases hown : ownAt (prop :: propsChain) obj with
  | none =>
    rw [hown] at hcontains hsome
    simp only [reduceCtorEq, false_and, exists_false, iff_false, Bool.not_eq_true] at hcontains
    cases isNegated with
    | true => exact absurd (hsome rfl) Bool.false_ne_true
    | false =>
      rw [hcontains, hmissing]
      exact agreement_of_definite false
  | some w =>
    obtain ⟨b, hb, hiff⟩ := hvalue w hown
    rw [hown] at hcontains
    simp only [Option.some.injEq, exists_eq_left'] at hcontains
    rw [hb, Bool.eq_iff_iff.mpr (hcontains.trans hiff.symm)]
    exact agreement_negated rfl isNegated

theorem isDecided_equality (hpath : IsStraight engine database (prop :: propsChain) obj) {isNegated : Bool} {operand : Value}
    (h : (Criterion.equality isNegated operand).Agrees engine supportsJsonpath (ownAt (prop :: propsChain) obj)) :
    Requirement.IsDecided engine database supportsJsonpath obj ⟨prop, propsChain, .equality isNegated operand⟩ := by
  rw [Criterion.Agrees] at h
  by_cases hprimitive : isPrimitive operand = true
  · rw [if_pos hprimitive] at h
    cases supportsJsonpath with
    | true => exact isDecided_comparison hpath isNegated hprimitive h
    | false =>
      apply isDecided_of_contained isNegated operand
      · simp [Requirement.sqlCondition, hprimitive, Requirement.keys]
      · rfl
      · exact h
      · intro w _
        refine ⟨strictEquals w operand, ?_, (contained_of_isPrimitive hprimitive).symm⟩
        rw [Criterion.accepts, equals_of_isPrimitive hprimitive]
  · rw [if_neg hprimitive] at h
    have hfind := find_of_isStraight hpath
    rw [Requirement.IsDecided, Requirement.sqlCondition, Requirement.keys]
    simp only [if_neg hprimitive, Database.truthOf, hfind]
    cases hown : ownAt (prop :: propsChain) obj with
    | none => exact agreement_of_missing isNegated
    | some w =>
      obtain ⟨b, hb⟩ := (returns_equals_iff w operand).mpr (h w hown)
      rw [Criterion.accepts, Option.map_some, ← eq_sameContent_of_equals hb]
      exact agreement_negated hb isNegated

/-! ### Existence, containment and membership -/

theorem isDecided_existence (hpath : IsStraight engine database (prop :: propsChain) obj) {isNegated : Bool}
    (hnames : supportsJsonpath = false → TakesNoName (prop :: propsChain) obj) :
    Requirement.IsDecided engine database supportsJsonpath obj ⟨prop, propsChain, .existence isNegated⟩ := by
  have haccepts : ∀ v, (Criterion.existence isNegated).accepts engine v = negatedIf isNegated (.ok v.isSome) := by
    intro v
    cases v <;> cases isNegated <;> rfl
  rw [Requirement.IsDecided, Requirement.sqlCondition, Requirement.keys, haccepts]
  cases supportsJsonpath with
  | true =>
    have hempty : (!(Lax.items (prop :: propsChain) obj).isEmpty) = (ownAt (prop :: propsChain) obj).isSome := by
      rw [items_of_isStraight hpath]
      cases ownAt (prop :: propsChain) obj <;> rfl
    simp only [if_true, Database.truthOf, Lax.evaluate, hempty]
    exact agreement_negated rfl isNegated
  | false =>
    simp only [Bool.false_eq_true, if_false, Database.truthOf, hasKeys_of_isStraight hpath (hnames rfl)]
    exact agreement_negated rfl isNegated

theorem isDecided_containment {isNegated : Bool} {operand : Value}
    (h : (Criterion.containment isNegated operand).Agrees engine supportsJsonpath (ownAt (prop :: propsChain) obj)) :
    Requirement.IsDecided engine database supportsJsonpath obj ⟨prop, propsChain, .containment isNegated operand⟩ := by
  apply isDecided_of_contained isNegated operand
  · rfl
  · rfl
  · exact h.1
  · intro w hown
    obtain ⟨hsearch, hnarrow⟩ := h.2 w hown
    obtain ⟨b, hb⟩ := (returns_containsInternal_iff_noSearchFails w operand true).mpr hsearch
    have hdecides : b = true ↔ ContainedAtTop true w operand := decides_containsInternal w operand true b hb
    refine ⟨b, congrArg (negatedIf isNegated) hb, hdecides.trans ⟨hnarrow, ?_⟩⟩
    intro hcontained
    exact containedAtTop_widen (Or.inl hcontained)

theorem isDecided_membership (hpath : IsStraight engine database (prop :: propsChain) obj) {isNegated : Bool}
    {items : List Value}
    (h : (Criterion.membership isNegated items).Agrees engine supportsJsonpath (ownAt (prop :: propsChain) obj)) :
    Requirement.IsDecided engine database supportsJsonpath obj ⟨prop, propsChain, .membership isNegated items⟩ := by
  have hfind := find_of_isStraight hpath
  rw [Requirement.IsDecided, Requirement.sqlCondition, Requirement.keys]
  simp only [Database.truthOf, hfind]
  cases hown : ownAt (prop :: propsChain) obj with
  | none =>
    cases items with
    | nil =>
      cases isNegated with
      | true => exact absurd rfl (h.1 rfl hown)
      | false => exact agreement_of_definite false
    | cons item items => exact agreement_of_missing isNegated
  | some w =>
    obtain ⟨b, hb⟩ : Returns (includes (some (.array items)) (.value w)) := by
      rw [includes_array, returns_anyM_iff]
      intro av hreached
      exact (returns_equals_iff av w).mpr (h.2 w hown av hreached)
    have hdecides : Decides (items.anyM fun av => equals av w) (∃ av ∈ items, sameContent av w = true) :=
      decides_anyM fun av _ c hc => by rw [eq_sameContent_of_equals hc]
    have hany : b = items.any fun item => sameContent item w := by
      rw [Bool.eq_iff_iff, List.any_eq_true]
      exact hdecides b hb
    have hitems : (if items.isEmpty then some false else (some w).map fun v => items.any fun item => sameContent item v) =
        some b := by
      rw [hany]
      cases items <;> rfl
    rw [hitems]
    exact agreement_negated hb isNegated

/-- A requirement that comes to no difference is decided alike. -/
theorem Requirement.Agrees.isDecided [Std.TransCmp engine.compare] (hcollation : database.compare = engine.compare)
    {requirement : Requirement} (h : requirement.Agrees engine database supportsJsonpath obj) :
    requirement.IsDecided engine database supportsJsonpath obj := by
  obtain ⟨prop, propsChain, criterion⟩ := requirement
  cases criterion with
  | ordering operator operand => exact isDecided_ordering h.straight hcollation operator h.value
  | interval isNegated operand1 operand2 => exact isDecided_interval h.straight hcollation isNegated h.value
  | like likePattern => exact isDecided_like h.straight h.value.1 h.value.2
  | equality isNegated operand => exact isDecided_equality h.straight h.value
  | existence isNegated => exact isDecided_existence h.straight (h.names isNegated rfl)
  | containment isNegated operand => exact isDecided_containment h.value
  | membership isNegated items => exact isDecided_membership h.straight h.value

end Own

end Postgres

end Coaty
