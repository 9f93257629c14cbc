import Coaty.Model.ObjectFilter
import Mathlib.Data.List.Forall2

/-!
# Join conditions of query events

What a query joins is given by mappings of the agent that answers it, which name the collection and the property to join with for a local property. The conditions of a query event are merged with their mappings by `Object.assign`, so that a property of the event hides the one of the mapping.
-/

namespace Coaty

open Js Value

structure FromMapping where
  localProperty : Text
  fromProperty : Text
  fromCollection : Text
deriving DecidableEq

/-- The own properties of an object, and its prototype unless it is the one of every object literal. -/
structure DbJoinCondition where
  own : List (Text × Value)
  proto : Option Value

namespace DbJoinCondition

def get (c : DbJoinCondition) (name : String) : Option Value :=
  (c.own.lookup (text name)).or (c.proto.bind (·.get (text name)))

/-- Whether an assignment to `__proto__` sets the prototype. -/
def isPrototype : Value → Bool
  | .null | .array _ | .object _ => true
  | _ => false

/-- `Object.assign(target, source)` for a new object and a plain object. -/
def assign (target : List (Text × Value)) : Value → DbJoinCondition
  | .object properties =>
    { own := target.map (fun property => (property.1, (properties.lookup property.1).getD property.2)) ++
        properties.filter fun property => property.1 ≠ text "__proto__" && (target.lookup property.1).isNone
      proto := (properties.lookup (text "__proto__")).filter isPrototype }
  | _ => { own := target, proto := none }

end DbJoinCondition

def FromMapping.isFor (m : FromMapping) (jc : Value) : Bool :=
  match jc.get (text "localProperty") with
  | some (.string localProperty) => m.localProperty = localProperty
  | _ => false

/-- The join conditions of a query event, which have been checked. -/
structure JoinConditions where
  value : Option Value
  valid : areObjectJoinConditionsValid value = true

namespace JoinConditions

def toArray (joinConditions : JoinConditions) : List Value :=
  match joinConditions.value with
  | none => []
  | some (.array items) => items
  | some joinCond => [joinCond]

def getDbJoinConditionsFrom (joinConditions : JoinConditions) (fromMappings : List FromMapping) :
    Option (List DbJoinCondition) :=
  if isTruthy joinConditions.value then
    some (joinConditions.toArray.filterMap fun jc =>
      (fromMappings.find? (·.isFor jc)).map fun m =>
        .assign [(text "fromCollection", .string m.fromCollection), (text "fromProperty", .string m.fromProperty)] jc)
  else none

/-! ### What is joined -/

/-- The conditions that have a mapping, each with the first one. -/
def mapped (joinConditions : JoinConditions) (fromMappings : List FromMapping) : List (Value × FromMapping) :=
  joinConditions.toArray.filterMap fun jc => (fromMappings.find? (·.isFor jc)).map (jc, ·)

def entries (joinConditions : JoinConditions) (fromMappings : List FromMapping) : List DbJoinCondition :=
  (joinConditions.getDbJoinConditionsFrom fromMappings).getD []

def IsEntry (entry : DbJoinCondition) (condition : Value × FromMapping) : Prop :=
  (∀ name, name ∉ [text "fromCollection", text "fromProperty", text "__proto__"] →
    entry.own.lookup name = condition.1.get name) ∧
  entry.get "fromCollection" = some (.string condition.2.fromCollection) ∧
  entry.get "fromProperty" = some (.string condition.2.fromProperty)

def JoinsAsMapped (joinConditions : JoinConditions) (fromMappings : List FromMapping) : Prop :=
  List.Forall₂ IsEntry (joinConditions.entries fromMappings) (joinConditions.mapped fromMappings)

/-- The collections and properties that are read for the joins. -/
def reads (joinConditions : JoinConditions) (fromMappings : List FromMapping) : List (Option Value × Option Value) :=
  (joinConditions.entries fromMappings).map fun entry => (entry.get "fromCollection", entry.get "fromProperty")

/-- The conditions have the same properties of an `ObjectJoinCondition`. -/
def SameCondition (jc jc' : Value) : Prop :=
  ∀ name ∈ [text "localProperty", text "asProperty", text "isLocalPropertyArray", text "isOneToOneRelation"],
    jc.get name = jc'.get name

def DifferInFurtherProperties (joinConditions joinConditions' : JoinConditions) : Prop :=
  List.Forall₂ SameCondition joinConditions.toArray joinConditions'.toArray

/-- The property of a condition is not there, or has the value of the mapping. -/
def Keeps (jc : Value) (name : String) (mappedTo : Text) : Prop :=
  ∀ value, jc.get (text name) = some value → value = .string mappedTo

/-- No condition that has a mapping has a collection or a property to join with other than those of the mapping. -/
def NoneOverridden (joinConditions : JoinConditions) (fromMappings : List FromMapping) : Prop :=
  ∀ condition ∈ joinConditions.mapped fromMappings,
    Keeps condition.1 "fromCollection" condition.2.fromCollection ∧
      Keeps condition.1 "fromProperty" condition.2.fromProperty

/-! ### Entries -/

def entryOf (condition : Value × FromMapping) : DbJoinCondition :=
  .assign [(text "fromCollection", .string condition.2.fromCollection),
    (text "fromProperty", .string condition.2.fromProperty)] condition.1

theorem isTruthy_or_toArray (joinConditions : JoinConditions) :
    isTruthy joinConditions.value = true ∨ joinConditions.toArray = [] := by
  obtain ⟨value, hvalid⟩ := joinConditions
  cases value with
  | none => exact Or.inr rfl
  | some value =>
    cases value with
    | array items => exact Or.inl rfl
    | object properties => exact Or.inl rfl
    | _ => simp [areObjectJoinConditionsValid, isJoinConditionValid, isPlainObject] at hvalid

theorem entries_eq_map (joinConditions : JoinConditions) (fromMappings : List FromMapping) :
    joinConditions.entries fromMappings = (joinConditions.mapped fromMappings).map entryOf := by
  rw [entries, getDbJoinConditionsFrom, mapped, List.map_filterMap]
  obtain htruthy | hnil := joinConditions.isTruthy_or_toArray
  · rw [if_pos htruthy, Option.getD_some]
    simp only [Option.map_map]
    rfl
  · rw [hnil]
    split <;> rfl

/-- A condition that has a mapping is an object. -/
theorem exists_properties_of_mem_mapped {joinConditions : JoinConditions} {fromMappings : List FromMapping}
    {condition : Value × FromMapping} (h : condition ∈ joinConditions.mapped fromMappings) :
    ∃ properties, condition.1 = .object properties := by
  obtain ⟨jc, hmem, hmap⟩ := List.mem_filterMap.mp h
  obtain ⟨m, hfind, rfl⟩ := Option.map_eq_some_iff.mp hmap
  have hfor := List.find?_some hfind
  cases jc with
  | object properties => exact ⟨properties, rfl⟩
  | _ => simp [FromMapping.isFor, Value.get] at hfor

theorem lookup_map_value (f : Text → Value → Value) (properties : List (Text × Value)) (name : Text) :
    (properties.map fun property => (property.1, f property.1 property.2)).lookup name =
      (properties.lookup name).map (f name) := by
  induction properties with
  | nil => rfl
  | cons property properties ih =>
    obtain ⟨other, value⟩ := property
    by_cases heq : name = other
    · simp [heq]
    · simp [List.lookup_cons, beq_false_of_ne heq, ih]

theorem lookup_filter_name (p : Text → Bool) (properties : List (Text × Value)) (name : Text) :
    (properties.filter fun property => p property.1).lookup name = if p name then properties.lookup name else none := by
  induction properties with
  | nil => simp
  | cons property properties ih =>
    obtain ⟨other, value⟩ := property
    by_cases heq : name = other
    · subst heq
      by_cases hp : p name = true
      · simp [hp]
      · simpa [hp] using ih
    · by_cases hp : p other = true
      · simpa [hp, List.lookup_cons, beq_false_of_ne heq] using ih
      · simpa [hp, List.lookup_cons, beq_false_of_ne heq] using ih

theorem lookup_assign {target properties : List (Text × Value)} {name : Text} (hproto : name ≠ text "__proto__") :
    (DbJoinCondition.assign target (.object properties)).own.lookup name =
      (properties.lookup name).or (target.lookup name) := by
  rw [DbJoinCondition.assign, List.lookup_append,
    lookup_map_value fun name value => (properties.lookup name).getD value,
    lookup_filter_name fun name => name ≠ text "__proto__" && (target.lookup name).isNone]
  cases htarget : target.lookup name with
  | none => simp [hproto]
  | some value => cases hsource : properties.lookup name <;> simp

theorem lookup_entryOf {condition : Value × FromMapping} (hobject : ∃ properties, condition.1 = .object properties)
    {name : Text} (hproto : name ≠ text "__proto__") :
    (entryOf condition).own.lookup name = (condition.1.get name).or
      ([(text "fromCollection", Value.string condition.2.fromCollection),
        (text "fromProperty", .string condition.2.fromProperty)].lookup name) := by
  obtain ⟨properties, hproperties⟩ := hobject
  rw [entryOf, hproperties, lookup_assign hproto]
  rfl

theorem get_entryOf {condition : Value × FromMapping} (hobject : ∃ properties, condition.1 = .object properties) :
    (entryOf condition).get "fromCollection"
        = some ((condition.1.get (text "fromCollection")).getD (.string condition.2.fromCollection)) ∧
      (entryOf condition).get "fromProperty"
        = some ((condition.1.get (text "fromProperty")).getD (.string condition.2.fromProperty)) := by
  refine ⟨?_, ?_⟩
  · rw [DbJoinCondition.get, lookup_entryOf hobject (by decide)]
    cases condition.1.get (text "fromCollection") <;> rfl
  · rw [DbJoinCondition.get, lookup_entryOf hobject (by decide)]
    cases condition.1.get (text "fromProperty") <;> rfl

theorem getD_eq_iff_keeps {jc : Value} {name : String} {mappedTo : Text} :
    some ((jc.get (text name)).getD (.string mappedTo)) = some (.string mappedTo) ↔ Keeps jc name mappedTo := by
  rw [Option.some_inj, Keeps]
  cases jc.get (text name) <;> simp

theorem isEntry_entryOf_iff {condition : Value × FromMapping}
    (hobject : ∃ properties, condition.1 = .object properties) :
    IsEntry (entryOf condition) condition ↔ Keeps condition.1 "fromCollection" condition.2.fromCollection ∧
      Keeps condition.1 "fromProperty" condition.2.fromProperty := by
  obtain ⟨hcollection, hproperty⟩ := get_entryOf hobject
  rw [IsEntry, hcollection, hproperty, getD_eq_iff_keeps, getD_eq_iff_keeps, and_iff_right]
  intro name hname
  simp only [List.mem_cons, List.not_mem_nil, or_false, not_or] at hname
  obtain ⟨hfromCollection, hfromProperty, hproto⟩ := hname
  rw [lookup_entryOf hobject hproto]
  simp [List.lookup_cons, beq_false_of_ne hfromCollection, beq_false_of_ne hfromProperty]

theorem joinsAsMapped_iff_noneOverridden (joinConditions : JoinConditions) (fromMappings : List FromMapping) :
    joinConditions.JoinsAsMapped fromMappings ↔ joinConditions.NoneOverridden fromMappings := by
  rw [JoinsAsMapped, entries_eq_map, List.forall₂_map_left_iff, List.forall₂_same, NoneOverridden]
  exact forall₂_congr fun condition hmem => isEntry_entryOf_iff (exists_properties_of_mem_mapped hmem)

/-! ### Further properties -/

theorem isFor_congr {jc jc' : Value} (h : SameCondition jc jc') (m : FromMapping) : m.isFor jc = m.isFor jc' := by
  rw [FromMapping.isFor, FromMapping.isFor, h (text "localProperty") (by simp)]

theorem map_snd_mapped (joinConditions : JoinConditions) (fromMappings : List FromMapping) :
    (joinConditions.mapped fromMappings).map Prod.snd =
      joinConditions.toArray.filterMap fun jc => fromMappings.find? (·.isFor jc) := by
  rw [mapped, List.map_filterMap]
  apply List.filterMap_congr
  intro jc _
  rw [Option.map_map]
  exact congrFun Option.map_id (fromMappings.find? (·.isFor jc))

theorem map_snd_mapped_congr {joinConditions joinConditions' : JoinConditions}
    (h : joinConditions.DifferInFurtherProperties joinConditions') (fromMappings : List FromMapping) :
    (joinConditions.mapped fromMappings).map Prod.snd = (joinConditions'.mapped fromMappings).map Prod.snd := by
  rw [map_snd_mapped, map_snd_mapped]
  rw [DifferInFurtherProperties] at h
  generalize joinConditions.toArray = jcs at h ⊢
  generalize joinConditions'.toArray = jcs' at h ⊢
  induction h with
  | nil => rfl
  | @cons jc jc' _ _ hsame _ ih =>
    have hfind : fromMappings.find? (·.isFor jc) = fromMappings.find? (·.isFor jc') := by
      simp only [isFor_congr hsame]
    rw [List.filterMap_cons, List.filterMap_cons, hfind, ih]

theorem JoinsAsMapped.reads_eq {joinConditions : JoinConditions} {fromMappings : List FromMapping}
    (h : joinConditions.JoinsAsMapped fromMappings) :
    joinConditions.reads fromMappings = ((joinConditions.mapped fromMappings).map Prod.snd).map fun m =>
      (some (.string m.fromCollection), some (.string m.fromProperty)) := by
  rw [reads, List.map_map]
  rw [JoinsAsMapped] at h
  generalize joinConditions.entries fromMappings = entries at h ⊢
  generalize joinConditions.mapped fromMappings = conditions at h ⊢
  induction h with
  | nil => rfl
  | cons hentry _ ih =>
    rw [List.map_cons, List.map_cons, ih, hentry.2.1, hentry.2.2]
    rfl

theorem reads_congr {joinConditions joinConditions' : JoinConditions} {fromMappings : List FromMapping}
    (hsame : joinConditions.DifferInFurtherProperties joinConditions')
    (h : joinConditions.JoinsAsMapped fromMappings) (h' : joinConditions'.JoinsAsMapped fromMappings) :
    joinConditions.reads fromMappings = joinConditions'.reads fromMappings := by
  rw [h.reads_eq, h'.reads_eq, map_snd_mapped_congr hsame]

/-- The conditions are joined as their mappings say, whatever further properties they have, exactly if none of them overrides its mapping. -/
theorem joinsAsMapped_iff (joinConditions : JoinConditions) (fromMappings : List FromMapping) :
    (joinConditions.JoinsAsMapped fromMappings ∧
      ∀ joinConditions' : JoinConditions, joinConditions.DifferInFurtherProperties joinConditions' →
        joinConditions'.NoneOverridden fromMappings →
          joinConditions.reads fromMappings = joinConditions'.reads fromMappings) ↔
      joinConditions.NoneOverridden fromMappings := by
  rw [joinsAsMapped_iff_noneOverridden, and_iff_left_iff_imp]
  intro hnone joinConditions' hsame hnone'
  exact reads_congr hsame ((joinsAsMapped_iff_noneOverridden _ _).mpr hnone)
    ((joinsAsMapped_iff_noneOverridden _ _).mpr hnone')

/-- A condition that names a collection of its own. -/
def overriding : JoinConditions where
  value := some (.object [(text "localProperty", .string (text "a")), (text "asProperty", .string (text "b")),
    (text "fromCollection", .string (text "secrets"))])
  valid := by decide

/-- The collection that a condition names is read instead of the one of the mapping. -/
theorem not_joinsAsMapped_of_overriding :
    ¬ ∀ (joinConditions : JoinConditions) (fromMappings : List FromMapping),
      joinConditions.JoinsAsMapped fromMappings := by
  intro h
  have hkeeps := (joinsAsMapped_iff_noneOverridden _ _).mp (h overriding [⟨text "a", text "objectId", text "things"⟩])
  have hvalue := (hkeeps (_, _) (List.mem_singleton.mpr rfl)).1 (.string (text "secrets")) rfl
  rw [Value.string.injEq] at hvalue
  exact absurd hvalue (by decide)

end JoinConditions

end Coaty
