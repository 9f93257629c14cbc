import Coaty.Com.ContextFilters
import Coaty.Order.Between
import Coaty.Util.Equality
import Mathlib.Data.Rat.Lemmas

/-!
# Laws of filter operators

The operators come in complementary pairs, intervals do not depend on the order of their bounds, inclusion goes by equality, and sets of conditions are conjunctions and disjunctions. All of this holds for the properties that an object has itself. But the path of a property that is missing may lead to an inherited member, which then counts as its value.
-/

namespace Coaty

open Js Evaluation Deep

namespace ObjectMatcher

/-- An own property of an object or an array, where the length of an array is one. -/
def ownProperty : Value → Text → Option Value
  | .object properties, name => properties.lookup name
  | .array items, name =>
    (ownProperties (.array items)).lookup name <|> if name = text "length" then some (.number items.length) else none
  | _, _ => none

def ownValue (properties : ObjectFilterProperties) (obj : Value) : Option Value :=
  (getFilterProperties properties).foldl (fun v name => v.bind fun v => ownProperty v name) (some obj)

def operandOrder (engine : Engine) : Value → Value → Option Ordering
  | .number x, .number y => some (compare x y)
  | .string s, .string t => some (engine.compare s t)
  | _, _ => none

section Laws

variable (engine : Engine) (obj : Value) (properties : ObjectFilterProperties)

/-- A condition on the property with up to two operands matches. -/
def Matches (operator : ObjectFilterOperator) (operand1 operand2 : Option Value) : Prop :=
  matchesCondition engine obj ⟨properties, operator, operand1, operand2⟩ = .ok true

/-- Evaluating the condition does not throw. -/
def IsEvaluated (operator : ObjectFilterOperator) (operand : Value) : Prop :=
  Returns (matchesCondition engine obj ⟨properties, operator, some operand, none⟩)

/-- Only `NotExists` matches a property that is missing. -/
def MissingOnlyNotExists : Prop :=
  ownValue properties obj = none → ∀ operator operand1 operand2,
    Matches engine obj properties operator operand1 operand2 ↔ operator = .notExists

/-- The ordering operators are complementary in pairs. -/
def OrderingCoherent (v : Value) : Prop :=
  ∀ operand, (operandOrder engine v operand).isSome = true →
    Xor (Matches engine obj properties .lessThan (some operand) none)
        (Matches engine obj properties .greaterThanOrEqual (some operand) none) ∧
      Xor (Matches engine obj properties .lessThanOrEqual (some operand) none)
        (Matches engine obj properties .greaterThan (some operand) none)

/-- Intervals are complementary, and those of the smaller and the larger bound. -/
def IntervalsCoherent (v : Value) : Prop :=
  ∀ a b, (operandOrder engine v a).isSome = true → (operandOrder engine v b).isSome = true →
    Xor (Matches engine obj properties .between (some a) (some b))
        (Matches engine obj properties .notBetween (some a) (some b)) ∧
      (Matches engine obj properties .between (some a) (some b) ↔
        Matches engine obj properties .between (some b) (some a)) ∧
      ((operandOrder engine a b).any Ordering.isLE = true →
        (Matches engine obj properties .between (some a) (some b) ↔
          Matches engine obj properties .greaterThanOrEqual (some a) none ∧
            Matches engine obj properties .lessThanOrEqual (some b) none))

/-- Equality and its negation are complementary. -/
def EqualityCoherent : Prop :=
  ∀ operand : JsonValue, IsEvaluated engine obj properties .equals operand.val →
    Xor (Matches engine obj properties .equals (some operand.val) none)
      (Matches engine obj properties .notEquals (some operand.val) none)

/-- Inclusion and its negation are complementary, and inclusion is equality with some element. -/
def InclusionCoherent : Prop :=
  ∀ items : List JsonValue, IsEvaluated engine obj properties .isIn (.array (items.map Subtype.val)) →
    Xor (Matches engine obj properties .isIn (some (.array (items.map Subtype.val))) none)
        (Matches engine obj properties .notIn (some (.array (items.map Subtype.val))) none) ∧
      ((∀ item ∈ items, IsEvaluated engine obj properties .equals item.val) →
        (Matches engine obj properties .isIn (some (.array (items.map Subtype.val))) none ↔
          ∃ item ∈ items, Matches engine obj properties .equals (some item.val) none))

/-- The laws of a single property. -/
structure Coherent : Prop where
  missing : MissingOnlyNotExists engine obj properties
  ordering : ∀ v, ownValue properties obj = some v → OrderingCoherent engine obj properties v
  intervals : ∀ v, ownValue properties obj = some v → IntervalsCoherent engine obj properties v
  equality : ∀ v, ownValue properties obj = some v → EqualityCoherent engine obj properties
  inclusion : ∀ v, ownValue properties obj = some v → InclusionCoherent engine obj properties

structure SetsCoherent : Prop where
  all : ∀ conditions, Returns (matchesFilter engine (some obj) (some ⟨some (.combined (some conditions) none)⟩)) →
    (matchesFilter engine (some obj) (some ⟨some (.combined (some conditions) none)⟩) = .ok true ↔
      ∀ condition ∈ conditions, matchesCondition engine obj condition = .ok true)
  any : ∀ conditions, Returns (matchesFilter engine (some obj) (some ⟨some (.combined none (some conditions))⟩)) →
    (matchesFilter engine (some obj) (some ⟨some (.combined none (some conditions))⟩) = .ok true ↔
      ∃ condition ∈ conditions, matchesCondition engine obj condition = .ok true)
  empty_all : matchesFilter engine (some obj) (some ⟨some (.combined (some []) none)⟩) = .ok true
  empty_any : matchesFilter engine (some obj) (some ⟨some (.combined none (some []))⟩) = .ok false

/-- The property is missing, but the path leads to an inherited member. -/
def ReadsInherited : Prop :=
  ownValue properties obj = none ∧ getFilterPropertyValue engine properties obj ≠ none

end Laws

variable {engine : Engine} {obj : Value} {properties : ObjectFilterProperties}

/-! ### Own properties -/

theorem read_of_ownProperty {v w : Value} {name : Text} (h : ownProperty v name = some w) :
    engine.read (.value v) name = some (.value w) := by
  cases v with
  | object own =>
    rw [ownProperty] at h
    rw [Engine.read, h]
  | array items =>
    rw [ownProperty] at h
    rw [Engine.read]
    cases hlookup : (ownProperties (.array items)).lookup name with
    | some item =>
      rw [hlookup] at h
      cases h
      rfl
    | none =>
      rw [hlookup] at h
      by_cases hlength : name = text "length"
      · rw [if_pos hlength] at h
        cases h
        simp only [if_pos hlength]
      · rw [if_neg hlength] at h
        cases h
  | _ => cases h

theorem getFilterPropertyValue_of_ownValue {v : Value} (h : ownValue properties obj = some v) :
    getFilterPropertyValue engine properties obj = some (.value v) := by
  rw [ownValue] at h
  rw [getFilterPropertyValue]
  generalize getFilterProperties properties = path at h ⊢
  induction path generalizing obj with
  | nil =>
    cases h
    rfl
  | cons name path ih =>
    rw [List.foldl_cons, Option.bind_some] at h ⊢
    cases hown : ownProperty obj name with
    | some w =>
      rw [hown] at h
      rw [read_of_ownProperty hown]
      exact ih h
    | none =>
      have hnone : ∀ path : List Text,
          path.foldl (fun v name => v.bind fun v => ownProperty v name) none = none := by
        intro path
        induction path with
        | nil => rfl
        | cons name path ih => exact ih
      rw [hown, hnone] at h
      cases h

theorem wellFormed_ownProperty {v w : Value} (hv : WellFormed v) {name : Text} (h : ownProperty v name = some w) :
    WellFormed w := by
  cases v with
  | object own => exact hv.of_property (mem_of_lookup h)
  | array items =>
    rw [ownProperty] at h
    cases hlookup : (ownProperties (.array items)).lookup name with
    | some item =>
      rw [hlookup] at h
      cases h
      have hmem := mem_of_lookup hlookup
      rw [ownProperties, List.mem_mapIdx] at hmem
      obtain ⟨i, hi, heq⟩ := hmem
      have hitem : items[i] = w := congrArg Prod.snd heq
      exact hitem ▸ hv.of_item (List.getElem_mem hi)
    | none =>
      rw [hlookup] at h
      by_cases hlength : name = text "length"
      · rw [if_pos hlength] at h
        cases h
        exact .number _
      · rw [if_neg hlength] at h
        cases h
  | _ => cases h

theorem wellFormed_ownValue (hobj : WellFormed obj) {v : Value} (h : ownValue properties obj = some v) :
    WellFormed v := by
  have hfold : ∀ (path : List Text) (from? : Option Value), (∀ u, from? = some u → WellFormed u) →
      ∀ v, path.foldl (fun v name => v.bind fun v => ownProperty v name) from? = some v → WellFormed v := by
    intro path
    induction path with
    | nil => exact fun from? hfrom => hfrom
    | cons name path ih =>
      intro from? hfrom
      apply ih
      intro w hw
      obtain ⟨u, hu, hread⟩ := Option.bind_eq_some_iff.mp hw
      exact wellFormed_ownProperty (hfrom u hu) hread
  refine hfold _ _ ?_ v h
  intro u hu
  cases hu
  exact hobj

/-! ### Missing properties -/

theorem matches_iff_of_none (h : getFilterPropertyValue engine properties obj = none) (operator : ObjectFilterOperator)
    (operand1 operand2 : Option Value) :
    Matches engine obj properties operator operand1 operand2 ↔ operator = .notExists := by
  simp only [Matches, matchesCondition, h, Except.ok.injEq, decide_eq_true_eq]

theorem exist_matches_of_some {value : Member} (h : getFilterPropertyValue engine properties obj = some value) :
    Matches engine obj properties .exist none none := by
  simp only [Matches, matchesCondition, h]

theorem missingOnlyNotExists_iff : MissingOnlyNotExists engine obj properties ↔ ¬ ReadsInherited engine obj properties := by
  constructor
  · intro hmissing ⟨hnone, hread⟩
    obtain ⟨value, hvalue⟩ := Option.ne_none_iff_exists'.mp hread
    have hexist := (hmissing hnone .exist none none).mp (exist_matches_of_some hvalue)
    cases hexist
  · intro hown hnone operator operand1 operand2
    apply matches_iff_of_none
    by_contra hread
    exact hown ⟨hnone, hread⟩

/-! ### Order -/

theorem compareOfLessAndEq_coe (x y : Rat) :
    compareOfLessAndEq (((x : WithTop Rat)) : ExtendedNumber) (y : WithTop Rat) = compare x y := by
  rw [LinearOrder.compare_eq_compareOfLessAndEq]
  simp only [compareOfLessAndEq, WithBot.coe_lt_coe, WithTop.coe_lt_coe, WithBot.coe_inj, WithTop.coe_inj]

theorem orderOf_numbers (x y : Rat) :
    engine.orderOf (some (.value (.number x))) (some (.value (.number y))) = .ok (some (compare x y)) := by
  rw [← compareOfLessAndEq_coe]
  rfl

theorem compareOperand_of_order {v operand : Value} {order : Ordering}
    (h : operandOrder engine v operand = some order) (test : Ordering → Bool) :
    compareOperand engine (.value v) (some operand) test = .ok (test order) := by
  cases v <;> cases operand <;> cases h
  · rw [compareOperand, Option.map_some, orderOf_numbers]
    · rfl
    · intro value operand hvalue
      cases hvalue
  · rfl

theorem between_numbers (x a b : Rat) :
    between engine (.value (.number x)) (some (.number a)) (some (.number b)) = .ok (Order.between compare x a b) := by
  rw [between, Option.map_some, Option.map_some, orderOf_numbers]
  · simp only [isBetween, Option.map_some, orderOf_numbers, Order.between]
    show (if (compare a b).isGT then _ else _) = _
    split
    · show (if (compare x b).isGE then _ else _) = _
      cases (compare x b).isGE <;> rfl
    · show (if (compare x a).isGE then _ else _) = _
      cases (compare x a).isGE <;> rfl
  · intro value operand1 operand2 hvalue
    cases hvalue

theorem notBetween_numbers (x a b : Rat) :
    notBetween engine (.value (.number x)) (some (.number a)) (some (.number b)) =
      .ok (Order.notBetween compare x a b) := by
  rw [notBetween, Option.map_some, Option.map_some, orderOf_numbers]
  · simp only [isNotBetween, Option.map_some, orderOf_numbers, Order.notBetween]
    show (if (compare a b).isGT then _ else _) = _
    split
    · show (if (compare x b).isLT then _ else _) = _
      cases (compare x b).isLT <;> rfl
    · show (if (compare x a).isLT then _ else _) = _
      cases (compare x a).isLT <;> rfl
  · intro value operand1 operand2 hvalue
    cases hvalue

theorem between_strings (s a b : Text) :
    between engine (.value (.string s)) (some (.string a)) (some (.string b)) =
      .ok (Order.between engine.compare s a b) := by
  rw [between, Order.between]
  split <;> rfl

theorem notBetween_strings (s a b : Text) :
    notBetween engine (.value (.string s)) (some (.string a)) (some (.string b)) =
      .ok (Order.notBetween engine.compare s a b) := by
  rw [notBetween, Order.notBetween]
  split <;> rfl

/-! ### Laws of single properties -/

section Present

variable {v : Value}

theorem xor_true (b : Bool) : Xor (b = true) ((!b) = true) := by
  cases b <;> simp [Xor]

theorem orderingCoherent_of_ownValue (hv : ownValue properties obj = some v) :
    OrderingCoherent engine obj properties v := by
  intro operand hsome
  obtain ⟨order, horder⟩ := Option.isSome_iff_exists.mp hsome
  simp only [Matches, matchesCondition, getFilterPropertyValue_of_ownValue hv, compareOperand_of_order horder,
    Except.ok.injEq]
  rw [Order.isGE_eq, Order.isLE_eq]
  exact ⟨xor_true _, (xor_true order.isGT).symm⟩

theorem intervals_coherent {α : Type} {cmp : α → α → Ordering} [Std.TransCmp cmp] (x a b : α) :
    Xor (Order.between cmp x a b = true) (Order.notBetween cmp x a b = true) ∧
      (Order.between cmp x a b = true ↔ Order.between cmp x b a = true) ∧
      ((cmp a b).isLE = true →
        (Order.between cmp x a b = true ↔ (cmp x a).isGE = true ∧ (cmp x b).isLE = true)) := by
  refine ⟨?_, ?_, ?_⟩
  · rw [Order.notBetween_eq]
    exact xor_true _
  · rw [Order.between_comm]
  · intro hle
    rw [Order.between_of_isLE hle, Bool.and_eq_true]

theorem intervalsCoherent_of_ownValue [Std.TransCmp engine.compare] (hv : ownValue properties obj = some v) :
    IntervalsCoherent engine obj properties v := by
  intro a b ha hb
  obtain ⟨orderA, horderA⟩ := Option.isSome_iff_exists.mp ha
  obtain ⟨orderB, horderB⟩ := Option.isSome_iff_exists.mp hb
  simp only [Matches, matchesCondition, getFilterPropertyValue_of_ownValue hv, compareOperand_of_order horderA,
    compareOperand_of_order horderB]
  cases v with
  | number x =>
    cases a <;> cases horderA
    cases b <;> cases horderB
    simp only [between_numbers, notBetween_numbers, Except.ok.injEq]
    exact intervals_coherent x _ _
  | string s =>
    cases a <;> cases horderA
    cases b <;> cases horderB
    simp only [between_strings, notBetween_strings, Except.ok.injEq]
    exact intervals_coherent s _ _
  | _ => cases horderA

theorem not_ok_iff {e : Except Error Bool} (h : Returns e) :
    Xor (e = .ok true) ((do return !(← e)) = .ok true) := by
  obtain ⟨b, rfl⟩ := h
  cases b <;> simp [Xor]

theorem equalityCoherent_of_ownValue (hv : ownValue properties obj = some v) : EqualityCoherent engine obj properties := by
  intro operand hreturns
  simp only [IsEvaluated, Matches, matchesCondition, getFilterPropertyValue_of_ownValue hv] at hreturns ⊢
  exact not_ok_iff hreturns

theorem decides_equalsOperand (hv : WellFormed v) (operand : Value) :
    Decides (equalsOperand (.value v) (some operand)) (Same v operand) := decides_equals hv operand

theorem matches_equals_iff (hobj : WellFormed obj) (hv : ownValue properties obj = some v) {operand : Value}
    (hreturns : IsEvaluated engine obj properties .equals operand) :
    Matches engine obj properties .equals (some operand) none ↔ Same v operand := by
  simp only [IsEvaluated, Matches, matchesCondition, getFilterPropertyValue_of_ownValue hv] at hreturns ⊢
  obtain ⟨b, hb⟩ := hreturns
  rw [hb, Except.ok.injEq]
  exact decides_equalsOperand (wellFormed_ownValue hobj hv) operand b hb

theorem inclusionCoherent_of_ownValue (hobj : WellFormed obj) (hv : ownValue properties obj = some v) :
    InclusionCoherent engine obj properties := by
  intro items hreturns
  have hitems : ∀ item ∈ items.map Subtype.val, WellFormed item := by
    intro item hmem
    obtain ⟨own, _, rfl⟩ := List.mem_map.mp hmem
    exact own.property
  have hdecides := decides_anyM fun av hmem => decides_equals (hitems av hmem) v
  have hincludes : Xor (Matches engine obj properties .isIn (some (.array (items.map Subtype.val))) none)
      (Matches engine obj properties .notIn (some (.array (items.map Subtype.val))) none) ∧
      (Matches engine obj properties .isIn (some (.array (items.map Subtype.val))) none ↔
        ∃ av ∈ items.map Subtype.val, Same av v) := by
    simp only [IsEvaluated, Matches, matchesCondition, getFilterPropertyValue_of_ownValue hv] at hreturns ⊢
    obtain ⟨b, hb⟩ := hreturns
    refine ⟨not_ok_iff ⟨b, hb⟩, ?_⟩
    rw [hb, Except.ok.injEq]
    exact hdecides b hb
  refine ⟨hincludes.1, fun hequals => ?_⟩
  simp only [hincludes.2, List.mem_map, exists_exists_and_eq_and]
  constructor
  · intro h
    obtain ⟨item, hmem, hsame⟩ := h
    exact ⟨item, hmem, (matches_equals_iff hobj hv (hequals item hmem)).mpr hsame.symm⟩
  · intro h
    obtain ⟨item, hmem, hmatches⟩ := h
    exact ⟨item, hmem, ((matches_equals_iff hobj hv (hequals item hmem)).mp hmatches).symm⟩

end Present

/-- The laws hold for every object and property exactly if the path does not lead to an inherited member where the property is missing. -/
theorem coherent_iff [Std.TransCmp engine.compare] (obj : JsonValue) :
    Coherent engine obj.val properties ∧ SetsCoherent engine obj.val ↔ ¬ ReadsInherited engine obj.val properties := by
  constructor
  · intro h
    exact missingOnlyNotExists_iff.mp h.1.missing
  · intro hown
    refine ⟨⟨missingOnlyNotExists_iff.mpr hown, ?_, ?_, ?_, ?_⟩, ⟨?_, ?_, rfl, rfl⟩⟩
    · exact fun v hv => orderingCoherent_of_ownValue hv
    · exact fun v hv => intervalsCoherent_of_ownValue hv
    · exact fun v hv => equalityCoherent_of_ownValue hv
    · exact fun v hv => inclusionCoherent_of_ownValue obj.property hv
    · intro conditions ⟨b, hb⟩
      have hdecides := decides_allM fun condition (_ : condition ∈ conditions) =>
        decides_self (matchesCondition engine obj.val condition)
      rw [hb, Except.ok.injEq]
      exact hdecides b hb
    · intro conditions ⟨b, hb⟩
      have hdecides := decides_anyM fun condition (_ : condition ∈ conditions) =>
        decides_self (matchesCondition engine obj.val condition)
      rw [hb, Except.ok.injEq]
      exact hdecides b hb

/-- An engine whose objects inherit the method `toString`. -/
def inheritingEngine : Engine where
  objectMethods name := if name = text "toString" then some (text "function toString() \x7b [native code] \x7d") else none
  arrayMethods _ := none
  compare s t := compareOfLessAndEq s t
  numberToString _ := []
  stringToNumber _ := none

theorem transCmp_inheritingEngine : Std.TransCmp inheritingEngine.compare := transCmp_codeUnits

/-- An object with a single property. -/
def named (value : Text) : JsonValue :=
  ⟨.object [(text "name", .string value)], .object (List.nodup_singleton _) fun name value hmem => by
    cases List.mem_singleton.mp hmem
    exact .string _⟩

theorem coherent_iff_named :
    Coherent inheritingEngine (named (text "lamp")).val (.dotted (text "name")) ∧
        SetsCoherent inheritingEngine (named (text "lamp")).val ↔
      ¬ ReadsInherited inheritingEngine (named (text "lamp")).val (.dotted (text "name")) :=
  have := transCmp_inheritingEngine
  coherent_iff (named (text "lamp"))

/-- An object without a property `toString` matches the condition that it exists. -/
theorem not_coherent_of_inherited :
    ¬ ∀ (engine : Engine) [Std.TransCmp engine.compare] (obj : JsonValue) (properties : ObjectFilterProperties),
      Coherent engine obj.val properties ∧ SetsCoherent engine obj.val := by
  intro h
  have := transCmp_inheritingEngine
  obtain ⟨hcoherent, -⟩ := h inheritingEngine (named (text "lamp")) (.dotted (text "toString"))
  have hexist : Matches inheritingEngine (named (text "lamp")).val (.dotted (text "toString")) .exist none none := rfl
  have hmissing := (hcoherent.missing rfl .exist none none).mp hexist
  cases hmissing

end ObjectMatcher

end Coaty
