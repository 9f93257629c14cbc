import Coaty.Js.Text
import Mathlib.Data.Rat.Defs

/-!
# JSON values

What `JSON.parse` returns. An object is the list of its own properties, and a missing property reads as `undefined`, which is `none` here. Numbers are the rationals, of which the finite floating point numbers are some, without a negative zero.
-/

namespace Js

theorem mem_of_lookup {α : Type} {properties : List (Text × α)} {name : Text} {value : α}
    (h : properties.lookup name = some value) : (name, value) ∈ properties := by
  obtain ⟨before, after, heq, -⟩ := List.lookup_eq_some_iff.mp h
  simp [heq]

inductive Value where
  | null
  | bool (b : Bool)
  | number (n : Rat)
  | string (s : Text)
  | array (items : List Value)
  | object (properties : List (Text × Value))

namespace Value

/-- An object in the value has a property of the name. -/
inductive Mentions (name : Text) : Value → Prop
  | item {items : List Value} {value : Value} (hmem : value ∈ items) (h : Mentions name value) : Mentions name (.array items)
  | name {properties : List (Text × Value)} {value : Value} (hmem : (name, value) ∈ properties) :
    Mentions name (.object properties)
  | property {properties : List (Text × Value)} {other : Text} {value : Value} (hmem : (other, value) ∈ properties)
    (h : Mentions name value) : Mentions name (.object properties)

theorem not_mentions_array_iff {name : Text} {items : List Value} :
    ¬ Mentions name (.array items) ↔ ∀ item ∈ items, ¬ Mentions name item := by
  constructor
  · intro h item hitem hmentions
    exact h (.item hitem hmentions)
  · intro h hmentions
    cases hmentions with
    | item hmem hitem => exact h _ hmem hitem

theorem not_mentions_object_iff {name : Text} {properties : List (Text × Value)} :
    ¬ Mentions name (.object properties) ↔
      ∀ property ∈ properties, property.1 ≠ name ∧ ¬ Mentions name property.2 := by
  constructor
  · intro h property hproperty
    refine ⟨?_, fun hmentions => h (.property hproperty hmentions)⟩
    intro heq
    subst heq
    exact h (.name hproperty)
  · intro h hmentions
    cases hmentions with
    | name hmem => exact (h _ hmem).1 rfl
    | property hmem hvalue => exact (h _ hmem).2 hvalue

/-- An own property of a plain object. -/
def get : Value → Text → Option Value
  | .object properties, name => properties.lookup name
  | _, _ => none

/-! ### What a value is -/

def isPlainObject : Value → Bool
  | .object _ => true
  | _ => false

def isString : Value → Bool
  | .string _ => true
  | _ => false

def isNonEmptyString : Value → Bool
  | .string s => !s.isEmpty
  | _ => false

def isNumber : Value → Bool
  | .number _ => true
  | _ => false

def isMemberOf (members : List Rat) : Value → Bool
  | .number n => members.contains n
  | _ => false

def isBoolean : Value → Bool
  | .bool _ => true
  | _ => false

def isArray : Value → Bool
  | .array _ => true
  | _ => false

def isArrayOf (p : Value → Bool) : Value → Bool
  | .array items => items.all p
  | _ => false

/-- Whether a condition does not count an optional value as false. -/
def isTruthy : Option Value → Bool
  | none => false
  | some .null => false
  | some (.bool b) => b
  | some (.number n) => n ≠ 0
  | some (.string s) => !s.isEmpty
  | some (.array _) => true
  | some (.object _) => true

end Value

/-- Data that can be checked: what is asked of a value, and of the properties and the items below it. -/
class Checkable (D : Type) where
  /-- A property that has a value. -/
  get : D → Text → Option D
  string : D → Option Text
  isPlainObject : D → Bool
  isString : D → Bool
  isNonEmptyString : D → Bool
  isArray : D → Bool
  isArrayOf : (D → Bool) → D → Bool
  isNumber : D → Bool
  isMemberOf : List Rat → D → Bool
  isNonNegative : D → Bool
  isBoolean : D → Bool
  isTruthy : D → Bool

instance : Checkable Value where
  get := Value.get
  string value := match value with | .string s => some s | _ => none
  isPlainObject := Value.isPlainObject
  isString := Value.isString
  isNonEmptyString := Value.isNonEmptyString
  isArray := Value.isArray
  isArrayOf := Value.isArrayOf
  isNumber := Value.isNumber
  isMemberOf := Value.isMemberOf
  isNonNegative value := match value with | .number n => 0 ≤ n | _ => false
  isBoolean := Value.isBoolean
  isTruthy value := Value.isTruthy (some value)

namespace Checkable

variable {D : Type} [Checkable D]

/-- Whether the property is there and meets the condition. -/
def hasProperty (p : D → Bool) (value : D) (name : String) : Bool := (get value (text name)).any p

/-- Whether the property meets the condition if it is there. -/
def hasOptional (p : D → Bool) (value : D) (name : String) : Bool := (get value (text name)).all p

@[simp] theorem get_value (value : Value) (name : Text) : get value name = value.get name := rfl

end Checkable

namespace Value

/-! ### Object literals on the wire -/

/-- What `JSON.parse` makes of the JSON text of an object literal. Properties without a value are left out. -/
def jsonImage (literal : List (Text × Option Value)) : Value :=
  .object (literal.filterMap fun property => property.2.map (property.1, ·))

theorem lookup_filterMap_of_not_mem {literal : List (Text × Option Value)} {name : Text}
    (h : name ∉ literal.map Prod.fst) :
    (literal.filterMap fun property => property.2.map (property.1, ·)).lookup name = none := by
  rw [List.lookup_eq_none_iff]
  intro property hproperty
  obtain ⟨listed, hlisted, hvalue⟩ := List.mem_filterMap.mp hproperty
  obtain ⟨value, _, rfl⟩ := Option.map_eq_some_iff.mp hvalue
  have hne : name ≠ listed.1 := fun heq => h (heq ▸ List.mem_map.mpr ⟨listed, hlisted, rfl⟩)
  exact bne_iff_ne.mpr hne

theorem get_jsonImage {literal : List (Text × Option Value)} (hnodup : (literal.map Prod.fst).Nodup) (name : Text) :
    (jsonImage literal).get name = (literal.lookup name).getD none := by
  rw [jsonImage, get]
  induction literal with
  | nil => rfl
  | cons property literal ih =>
    obtain ⟨other, value⟩ := property
    rw [List.map_cons, List.nodup_cons] at hnodup
    by_cases heq : name = other
    · subst heq
      cases value with
      | none =>
        rw [List.filterMap_cons_none rfl, lookup_filterMap_of_not_mem hnodup.1]
        simp
      | some value => simp
    · have hbeq : (name == other) = false := beq_false_of_ne heq
      have htail := ih hnodup.2
      cases value with
      | none => simpa [List.lookup_cons, hbeq] using htail
      | some value => simpa [List.lookup_cons, hbeq] using htail

/-- Reading a property of what has been parsed, which is an error for `null`. -/
def read (value : Value) (name : String) : Except Error (Option Value) :=
  match value with
  | .null => .error .typeError
  | value => .ok (value.get (text name))

theorem read_jsonImage {literal : List (Text × Option Value)} (hnodup : (literal.map Prod.fst).Nodup) (name : String) :
    (jsonImage literal).read name = .ok ((literal.lookup (text name)).getD none) := by
  rw [← get_jsonImage hnodup]
  rfl

end Value

end Js
