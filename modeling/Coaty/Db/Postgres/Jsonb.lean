import Coaty.Db.Postgres.Jsonpath
import Coaty.Util.Containment

/-!
# Values in the database

What the operators of the database server make of stored JSON values: containment, the value at the end of a path, and jsonpath expressions in lax mode, which open arrays and order strings by their code points. The order of values that are not of one kind, the text of a value with parts and what a path finds in an array are left open.
-/

namespace Coaty

namespace Postgres

open Js Deep

structure Database where
  /-- The order of strings outside of jsonpath, which is that of the collation. -/
  compare : Text → Text → Ordering
  /-- The order of values that are not both numbers or both strings. -/
  order : Value → Value → Ordering
  /-- The text of a value that is neither a string nor `null`. -/
  textOf : Value → Text
  /-- What a path finds in an array. -/
  element : List Value → Text → Option Value

/-! ### Three-valued logic -/

/-- The truth of an SQL condition, where `none` is `NULL`. -/
abbrev Truth := Option Bool

namespace Truth

def and : Truth → Truth → Truth
  | some false, _ => some false
  | some true, b => b
  | none, some false => some false
  | none, _ => none

def or : Truth → Truth → Truth
  | some true, _ => some true
  | some false, b => b
  | none, some true => some true
  | none, _ => none

def not (a : Truth) : Truth := a.map Bool.not

def notIf (isNegated : Bool) (a : Truth) : Truth := if isNegated then a.not else a

def all (truths : List Truth) : Truth := truths.foldr and (some true)

def any (truths : List Truth) : Truth := truths.foldr or (some false)

theorem and_some (a b : Bool) : Truth.and (some a) (some b) = some (a && b) := by
  cases a <;> cases b <;> rfl

theorem or_some (a b : Bool) : Truth.or (some a) (some b) = some (a || b) := by
  cases a <;> cases b <;> rfl

theorem and_eq_true {a b : Truth} : a.and b = some true ↔ a = some true ∧ b = some true := by
  unfold Truth.and
  split
  · simp
  · simp
  · simp
  · simp

theorem or_eq_true {a b : Truth} : a.or b = some true ↔ a = some true ∨ b = some true := by
  unfold Truth.or
  split
  · simp
  · simp
  · simp
  · rename_i hb
    simp only [reduceCtorEq, false_or, false_iff]
    exact hb

theorem all_eq_true {truths : List Truth} : all truths = some true ↔ ∀ a ∈ truths, a = some true := by
  induction truths with
  | nil => exact iff_of_true rfl (List.forall_mem_nil _)
  | cons a truths ih =>
    rw [List.forall_mem_cons, ← ih]
    exact and_eq_true

theorem any_eq_true {truths : List Truth} : any truths = some true ↔ ∃ a ∈ truths, a = some true := by
  induction truths with
  | nil => simp [any]
  | cons a truths ih =>
    rw [List.exists_mem_cons_iff, ← ih]
    exact or_eq_true

theorem not_eq_true {a : Truth} : a.not = some true ↔ a = some false := by
  cases a with
  | none => simp [Truth.not]
  | some a => simp [Truth.not]

end Truth

/-! ### Containment and keys -/

namespace Jsonb

mutual

/-- `@>`, but for an array that contains a primitive value at the top level. -/
def contains : Value → Value → Bool
  | .array xs, .array ys => containsItems xs ys
  | .object xs, .object ys => containsProperties xs ys
  | x, y => strictEquals x y
termination_by structural _ y => y

def containsItems (xs : List Value) : List Value → Bool
  | [] => true
  | y :: ys => (xs.any fun x => contains x y) && containsItems xs ys
termination_by structural ys => ys

def containsProperties (xs : List (Text × Value)) : List (Text × Value) → Bool
  | [] => true
  | (name, y) :: ys => (xs.lookup name).any (fun x => contains x y) && containsProperties xs ys
termination_by structural ys => ys

end

theorem containsItems_iff {xs ys : List Value} :
    containsItems xs ys = true ↔ ∀ y ∈ ys, ∃ x ∈ xs, contains x y = true := by
  induction ys with
  | nil => exact iff_of_true rfl (List.forall_mem_nil _)
  | cons y ys ih => rw [containsItems, Bool.and_eq_true, List.any_eq_true, List.forall_mem_cons, ih]

theorem containsProperties_iff {xs ys : List (Text × Value)} :
    containsProperties xs ys = true ↔
      ∀ property ∈ ys, ∃ x, xs.lookup property.1 = some x ∧ contains x property.2 = true := by
  induction ys with
  | nil => exact iff_of_true rfl (List.forall_mem_nil _)
  | cons property ys ih =>
    obtain ⟨name, y⟩ := property
    rw [containsProperties, Bool.and_eq_true, List.forall_mem_cons, ih, Option.any_eq_true_iff_get]
    simp only [Option.eq_some_iff_get_eq]
    constructor
    · intro h
      obtain ⟨⟨hsome, hx⟩, hrest⟩ := h
      exact ⟨⟨_, ⟨hsome, rfl⟩, hx⟩, hrest⟩
    · intro h
      obtain ⟨⟨x, ⟨hsome, rfl⟩, hx⟩, hrest⟩ := h
      exact ⟨⟨hsome, hx⟩, hrest⟩

/-- The database goes by the documented relation. -/
theorem contains_iff {x y : Value} : contains x y = true ↔ Contained false x y := by
  induction hsize : sizeOf y using Nat.strong_induction_on generalizing x y with
  | _ n ih =>
    subst hsize
    cases y with
    | array ys =>
      cases x with
      | array xs =>
        rw [contains, containsItems_iff, contained_array_array]
        exact forall₂_congr fun y hmem => exists_congr fun x => and_congr_right fun _ =>
          ih _ (lt_of_mem_items hmem) rfl
      | object xs =>
        have hnot : ¬ Contained false (.object xs) (.array ys) := fun h => Bool.false_ne_true (contained_object_array.mp h).1
        exact iff_of_false Bool.false_ne_true hnot
      | _ => exact Iff.rfl
    | object ys =>
      cases x with
      | object xs =>
        rw [contains, containsProperties_iff, contained_object_object]
        exact forall₂_congr fun property hmem => exists_congr fun x => and_congr_right fun _ =>
          ih _ (lt_of_mem_properties hmem) rfl
      | _ => exact Iff.rfl
    | _ =>
      rw [contains, Contained]
      all_goals simp

/-- `?` -/
def hasKey : Value → Text → Bool
  | .object properties, key => hasOwnProperty properties key
  | .array items, key => items.any (strictEquals (.string key))
  | .string s, key => s = key
  | _, _ => false

end Jsonb

/-! ### Paths and comparison -/

namespace Database

variable (database : Database)

/-- What a path finds next. -/
def get : Value → Text → Option Value
  | .object properties, key => properties.lookup key
  | .array items, key => database.element items key
  | _, _ => none

/-- `#>` -/
def find (v : Value) (keys : List Text) : Option Value := keys.foldl (fun v key => v.bind fun v => database.get v key) (some v)

/-- Each key exists in the value that the keys in front lead to. -/
def hasKeys : Option Value → List Text → Truth
  | _, [] => some true
  | v, key :: keys => Truth.and (v.map fun v => Jsonb.hasKey v key) (hasKeys (v.bind fun v => database.get v key) keys)

def compareValues : Value → Value → Ordering
  | .number a, .number b => Ord.compare a b
  | .string s, .string t => database.compare s t
  | a, b => database.order a b

/-- What `->>` makes of a value. -/
def asText : Value → Option Text
  | .null => none
  | .string s => some s
  | v => some (database.textOf v)

end Database

/-! ### Jsonpath in lax mode -/

namespace Comparison

def test : Comparison → Ordering → Bool
  | less => Ordering.isLT
  | lessEqual => Ordering.isLE
  | greater => Ordering.isGT
  | greaterEqual => Ordering.isGE
  | equal => (· = .eq)
  | notEqual => (· ≠ .eq)

end Comparison

namespace Lax

/-- A member of an object, or of each object in an array. -/
def member (key : Text) : Value → List Value
  | .array items => items.flatMap fun item => (item.get key).toList
  | v => (v.get key).toList

/-- What a path leads to. -/
def items (keys : List Text) (v : Value) : List Value := keys.foldl (fun items key => items.flatMap (member key)) [v]

def opened : Value → List Value
  | .array items => items
  | v => [v]

/-- A predicate on a sequence, whose arrays are opened. It holds if it does for some item. -/
def holds (predicate : Value → Truth) (items : List Value) : Truth :=
  let results := (items.flatMap opened).map predicate
  if results.contains (some true) then some true
  else if results.contains none then none
  else some false

/-- The code points of a text, where an unpaired surrogate stands for itself. -/
def codePoints : Text → List Nat
  | [] => []
  | c :: s =>
    if isHighSurrogate c then
      match s with
      | [] => [c.toNat]
      | d :: s =>
        if isLowSurrogate d then (0x10000 + 0x400 * (c.toNat - 0xD800) + (d.toNat - 0xDC00)) :: codePoints s
        else c.toNat :: codePoints (d :: s)
    else c.toNat :: codePoints s

/-- The order of strings in jsonpath, whatever the collation is. -/
def compareCodePoints (s t : Text) : Ordering := compareOfLessAndEq (codePoints s) (codePoints t)

/-- Values of different types are not comparable, apart from `null`, and neither are values with parts. -/
def compareItems (operator : Comparison) : Value → Value → Truth
  | .null, .null => some (operator.test .eq)
  | .null, _ => some (operator = .notEqual)
  | _, .null => some (operator = .notEqual)
  | .bool a, .bool b => some (operator.test (compareOfLessAndEq a b))
  | .number a, .number b => some (operator.test (Ord.compare a b))
  | .string s, .string t =>
    match operator with
    | .equal => some (s = t)
    | .notEqual => some (s ≠ t)
    | operator => some (operator.test (compareCodePoints s t))
  | _, _ => none

/-- A filter expression with two comparisons of the current item. -/
def inInterval (isNegated : Bool) (lower upper : Value) (v : Value) : Truth :=
  if isNegated then
    (holds (fun v => compareItems .less v lower) [v]).or (holds (fun v => compareItems .greater v upper) [v])
  else
    (holds (fun v => compareItems .greaterEqual v lower) [v]).and
      (holds (fun v => compareItems .lessEqual v upper) [v])

theorem holds_singleton {predicate : Value → Truth} {v : Value} (hv : v.isArray = false) : holds predicate [v] = predicate v := by
  have hopened : opened v = [v] := by
    cases v with
    | array items => cases hv
    | _ => rfl
  rw [holds]
  simp only [List.flatMap_cons, hopened, List.flatMap_nil, List.append_nil, List.map_cons, List.map_nil]
  cases predicate v with
  | none => rfl
  | some b => cases b <;> rfl

end Lax

end Postgres

end Coaty
