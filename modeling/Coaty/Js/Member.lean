import Coaty.Evaluation
import Coaty.Js.Number
import Coaty.Js.Value
import Mathlib.Algebra.Order.Ring.Unbundled.Rat
import Mathlib.Order.WithBot

/-!
# Members of JSON values

Reading a property that a JSON value does not have itself gives what it inherits from its prototype: a function, or the prototype of an object or an array. The comparison operators convert their operands to primitive values and throw if an own property hides the method `toString` of an object. What differs between engines and locales, such as the source text of a function or the order of a collator, is left open.
-/

namespace Js

/-- What reading properties of JSON values gives. A function is its source text. -/
inductive Member where
  | value (v : Value)
  | function (source : Text)
  | objectPrototype
  | arrayPrototype

/-- Numbers in the order of `<`, with the infinite ones. -/
abbrev ExtendedNumber := WithBot (WithTop Rat)

structure Engine where
  /-- The functions that are properties of `Object.prototype`. -/
  objectMethods : Text → Option Text
  /-- The functions that are properties of `Array.prototype`. -/
  arrayMethods : Text → Option Text
  /-- The collator with the default locale and options. -/
  compare : Text → Text → Ordering
  numberToString : Rat → Text
  /-- The number a string is converted to, where `none` is `NaN`. -/
  stringToNumber : Text → Option ExtendedNumber

theorem transCmp_codeUnits : Std.TransCmp fun (s t : Text) => compareOfLessAndEq s t := by
  apply Std.TransOrd.compareOfLessAndEq_of_lt_trans_of_lt_iff
  · intro s t u
    exact List.lt_trans
  · intro s t
    constructor
    · intro hlt
      refine ⟨List.lt_asymm hlt, ?_⟩
      rintro rfl
      exact List.lt_irrefl _ hlt
    · intro ⟨hle, hne⟩
      by_contra hlt
      exact hne (List.le_antisymm hle hlt)

def hasOwnProperty (properties : List (Text × Value)) (name : Text) : Bool := (properties.lookup name).isSome

/-- The own enumerable properties of an object or an array in the order of `Object.keys`. -/
def ownProperties : Value → List (Text × Value)
  | .array items => items.mapIdx fun i item => (decimal i, item)
  | .object properties => properties
  | _ => []

namespace Engine

variable (engine : Engine)

/-- `p[c]` if `p` is an object, and `undefined` otherwise. -/
def read : Member → Text → Option Member
  | .value (.object properties), name =>
    match properties.lookup name with
    | some value => some (.value value)
    | none =>
      if name = text "__proto__" then some .objectPrototype else (engine.objectMethods name).map .function
  | .value (.array items), name =>
    match (ownProperties (.array items)).lookup name with
    | some value => some (.value value)
    | none =>
      if name = text "length" then some (.value (.number items.length))
      else if name = text "__proto__" then some .arrayPrototype
      else (engine.arrayMethods name <|> engine.objectMethods name).map .function
  | .objectPrototype, name =>
    if name = text "__proto__" then some (.value .null) else (engine.objectMethods name).map .function
  | .arrayPrototype, name =>
    if name = text "length" then some (.value (.number 0))
    else if name = text "__proto__" then some .objectPrototype
    else (engine.arrayMethods name <|> engine.objectMethods name).map .function
  | _, _ => none

/-! ### Conversion to primitive values -/

inductive Primitive where
  | undefined
  | null
  | bool (b : Bool)
  | number (n : Rat)
  | string (s : Text)

mutual

/-- `String(value)` -/
def toString : Value → Except Error Text
  | .null => .ok (text "null")
  | .bool b => .ok (text (if b then "true" else "false"))
  | .number n => .ok (engine.numberToString n)
  | .string s => .ok s
  | .array items => joinRest true items
  | .object properties =>
    if hasOwnProperty properties (text "toString") then .error .typeError else .ok (text "[object Object]")

/-- The items joined with commas. There is none before the first one, and `null` is left out. -/
def joinRest (isFirst : Bool) : List Value → Except Error Text
  | [] => .ok []
  | .null :: items => do
    let rest ← joinRest false items
    return (if isFirst then [] else text ",") ++ rest
  | item :: items => do
    let s ← toString item
    let rest ← joinRest false items
    return (if isFirst then [] else text ",") ++ s ++ rest

end

def toPrimitive : Option Member → Except Error Primitive
  | none => .ok .undefined
  | some (.value .null) => .ok .null
  | some (.value (.bool b)) => .ok (.bool b)
  | some (.value (.number n)) => .ok (.number n)
  | some (.value value) => do return .string (← engine.toString value)
  | some (.function source) => .ok (.string source)
  | some .objectPrototype => .ok (.string (text "[object Object]"))
  | some .arrayPrototype => .ok (.string [])

def toNumber : Primitive → Option ExtendedNumber
  | .undefined => none
  | .null => some ((0 : Rat) : WithTop Rat)
  | .bool b => some ((if b then 1 else 0 : Rat) : WithTop Rat)
  | .number n => some (n : WithTop Rat)
  | .string s => engine.stringToNumber s

/-- The order of two primitive values, if they are comparable. Strings compare by code units. -/
def order : Primitive → Primitive → Option Ordering
  | .string s, .string t => some (compareOfLessAndEq s t)
  | a, b =>
    match engine.toNumber a, engine.toNumber b with
    | some a, some b => some (compareOfLessAndEq a b)
    | _, _ => none

/-- The order that the operators `<`, `<=`, `>` and `>=` go by. -/
def orderOf (a b : Option Member) : Except Error (Option Ordering) := do
  return engine.order (← engine.toPrimitive a) (← engine.toPrimitive b)

/-! ### Conversion returns -/

end Engine

/-- An own property hides the method `toString` of an object, or of one in an array. -/
inductive HidesToString : Value → Prop
  | object {properties : List (Text × Value)} (h : hasOwnProperty properties (text "toString") = true) :
    HidesToString (.object properties)
  | item {items : List Value} {item : Value} (hmem : item ∈ items) (h : HidesToString item) :
    HidesToString (.array items)

/-- Converting the member to a primitive value is an error. -/
def Unconvertible (member : Option Member) : Prop := ∃ v, member = some (.value v) ∧ HidesToString v

namespace Engine

open Evaluation

variable (engine : Engine)

theorem returns_joinRest_iff {items : List Value}
    (ih : ∀ item ∈ items, (Returns (engine.toString item) ↔ ¬ HidesToString item)) (isFirst : Bool) :
    Returns (engine.joinRest isFirst items) ↔ ∀ item ∈ items, ¬ HidesToString item := by
  induction items generalizing isFirst with
  | nil => exact iff_of_true (returns_ok _) (by simp)
  | cons item items ihItems =>
    rw [List.forall_mem_cons] at ih ⊢
    have hrest : Returns (engine.joinRest false items) ↔ ∀ item ∈ items, ¬ HidesToString item := ihItems ih.2 false
    have hjoined : ∀ s : Text, Returns (do
        let rest ← engine.joinRest false items
        return (if isFirst then [] else text ",") ++ s ++ rest) ↔ ∀ item ∈ items, ¬ HidesToString item :=
      fun s => (returns_map_iff fun rest => returns_pure _).trans hrest
    cases item with
    | null =>
      have hnull : ¬ HidesToString .null := nofun
      rw [joinRest, returns_map_iff fun rest => returns_pure _, hrest]
      simp [hnull]
    | _ =>
      rw [joinRest, returns_bind_iff, ← ih.1]
      · simp only [hjoined]
        exact exists_and_right
      · simp

theorem returns_toString_iff (v : Value) : Returns (engine.toString v) ↔ ¬ HidesToString v := by
  induction hsize : sizeOf v using Nat.strong_induction_on generalizing v with
  | _ n ih =>
    subst hsize
    cases v with
    | array items =>
      have hitems : ∀ item ∈ items, (Returns (engine.toString item) ↔ ¬ HidesToString item) := by
        intro item hmem
        have hlt : sizeOf item < sizeOf (Value.array items) := by
          have := List.sizeOf_lt_of_mem hmem
          simp only [Value.array.sizeOf_spec]
          omega
        exact ih _ hlt item rfl
      rw [toString, engine.returns_joinRest_iff hitems]
      constructor
      · intro h hhides
        cases hhides with
        | item hmem hitem => exact h _ hmem hitem
      · intro h item hmem hitem
        exact h (.item hmem hitem)
    | object properties =>
      rw [toString]
      split
      · rename_i hown
        exact iff_of_false (not_returns_error _) (not_not_intro (.object hown))
      · rename_i hown
        refine iff_of_true (returns_ok _) ?_
        intro hhides
        cases hhides with
        | object h => exact hown h
    | _ => exact iff_of_true ⟨_, by rw [toString]⟩ nofun

theorem returns_toPrimitive_iff (member : Option Member) :
    Returns (engine.toPrimitive member) ↔ ¬ Unconvertible member := by
  have hother : (∀ v, member = some (.value v) → ¬ HidesToString v) → Returns (engine.toPrimitive member) →
      (Returns (engine.toPrimitive member) ↔ ¬ Unconvertible member) := by
    intro hnone hreturns
    refine iff_of_true hreturns ?_
    intro ⟨v, hv, hhides⟩
    exact hnone v hv hhides
  have hvalue : ∀ v, Unconvertible (some (.value v)) ↔ HidesToString v := by
    intro v
    constructor
    · intro ⟨v', hv, hhides⟩
      cases hv
      exact hhides
    · intro hhides
      exact ⟨v, rfl, hhides⟩
  have hconverted : ∀ v, Returns (do return Primitive.string (← engine.toString v)) ↔
      ¬ Unconvertible (some (.value v)) := by
    intro v
    rw [hvalue, ← engine.returns_toString_iff v]
    exact returns_map_iff fun s => returns_pure _
  cases member with
  | none => exact hother nofun (returns_ok _)
  | some member =>
    cases member with
    | value v =>
      cases v with
      | array items => exact hconverted _
      | object properties => exact hconverted _
      | string s => exact hconverted _
      | _ =>
        refine hother ?_ (returns_ok _)
        intro v hv
        cases hv
        exact nofun
    | _ => exact hother nofun (returns_ok _)

theorem returns_orderOf_iff (a b : Option Member) :
    Returns (engine.orderOf a b) ↔ ¬ Unconvertible a ∧ ¬ Unconvertible b := by
  rw [← engine.returns_toPrimitive_iff a, ← engine.returns_toPrimitive_iff b, orderOf, returns_bind_iff]
  have hright : ∀ x, Returns (do return engine.order x (← engine.toPrimitive b)) ↔ Returns (engine.toPrimitive b) :=
    fun x => returns_map_iff fun y => returns_pure _
  simp only [hright]
  exact exists_and_right

end Engine

end Js
