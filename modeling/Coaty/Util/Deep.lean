import Coaty.Js.Member

/-!
# Deep comparison

Deep equality, containment and inclusion as the code computes them. They call the method `hasOwnProperty` of an object, which is an error if an own property of the object hides it, and containment takes the keys of `null`, which is an error, too. The comparison of two values returns exactly if it comes to no pair of values for which one of these happens.
-/

namespace Coaty

namespace Deep

open Js Evaluation

/-- Calling the method `hasOwnProperty` of an object with these properties is an error. -/
def hidesHasOwnProperty (properties : List (Text × Value)) : Bool := hasOwnProperty properties (text "hasOwnProperty")

/-- `===` on values of which one is primitive. -/
def strictEquals : Value → Value → Bool
  | .null, .null => true
  | .bool a, .bool b => a = b
  | .number a, .number b => a = b
  | .string a, .string b => a = b
  | _, _ => false

/-! ### Equality -/

mutual

def equals : Value → Value → Except Error Bool
  | .array as, .array bs => if as.length = bs.length then equalItems as bs else .ok false
  | .object as, .object bs =>
    if as.length = bs.length then
      if !as.isEmpty && hidesHasOwnProperty bs then .error .typeError
      else if as.all fun property => hasOwnProperty bs property.1 then equalProperties as bs
      else .ok false
    else .ok false
  | a, b => .ok (strictEquals a b)

def equalItems : List Value → List Value → Except Error Bool
  | a :: as, b :: bs => do if ← equals a b then equalItems as bs else return false
  | _, _ => .ok true

/-- The loop over the properties of the first object, all of which the second one has. -/
def equalProperties : List (Text × Value) → List (Text × Value) → Except Error Bool
  | (name, a) :: as, bs =>
    match bs.lookup name with
    | some b => do if ← equals a b then equalProperties as bs else return false
    | none => .ok false
  | [], _ => .ok true

end

/-! ### Containment -/

mutual

def containsInternal : Value → Value → Bool → Except Error Bool
  | .array xs, .array ys, _ => containsItems xs ys
  | .array _, .object _, _ => .ok false
  | .array xs, y, isToplevel => .ok (isToplevel && xs.any fun x => strictEquals x y)
  | .object _, .null, _ => .error .typeError
  | .object xs, .object ys, _ => containsProperties xs ys
  | .object xs, .array ys, _ => containsIndices xs 0 ys
  | .object _, _, _ => .ok false
  | x, y, _ => .ok (strictEquals x y)
termination_by structural _ y => y

/-- `y.every(yv => x.some(xv => containsInternal(xv, yv, false)))` -/
def containsItems (xs : List Value) : List Value → Except Error Bool
  | [] => .ok true
  | y :: ys => do
    if ← xs.anyM fun x => containsInternal x y false then containsItems xs ys else return false
termination_by structural ys => ys

/-- The keys of an object in an object. -/
def containsProperties (xs : List (Text × Value)) : List (Text × Value) → Except Error Bool
  | [] => .ok true
  | (name, y) :: ys =>
    if hidesHasOwnProperty xs then .error .typeError
    else match xs.lookup name with
      | none => .ok false
      | some x => do if ← containsInternal x y false then containsProperties xs ys else return false
termination_by structural ys => ys

/-- The keys of an array, from the given index on, in an object. -/
def containsIndices (xs : List (Text × Value)) (i : Nat) : List Value → Except Error Bool
  | [] => .ok true
  | y :: ys =>
    if hidesHasOwnProperty xs then .error .typeError
    else match xs.lookup (decimal i) with
      | none => .ok false
      | some x => do if ← containsInternal x y false then containsIndices xs (i + 1) ys else return false
termination_by structural ys => ys

end

/-! ### What inherited members are compared as

The prototypes have no enumerable properties and no items. `Object.prototype` has the property `__proto__`, which is `null`, and functions, which are no JSON values.
-/

/-- The value that a member is compared as, unless it is a function, which equals nothing else. -/
def comparand : Member → Option Value
  | .value v => some v
  | .function _ => none
  | .objectPrototype => some (.object [])
  | .arrayPrototype => some (.array [])

/-- `equals(value, operand)` -/
def equalsOperand (value : Member) (operand : Option Value) : Except Error Bool :=
  match comparand value, operand with
  | some a, some b => equals a b
  | _, _ => .ok false

def contains (value : Member) (operand : Option Value) : Except Error Bool :=
  match value, operand with
  | .value x, some y => containsInternal x y true
  | .arrayPrototype, some y => containsInternal (.array []) y true
  | .objectPrototype, some .null => .error .typeError
  | .objectPrototype, some y =>
    .ok ((y.isArray || y.isPlainObject) &&
      (ownProperties y).all fun property => property.1 = text "__proto__" && strictEquals .null property.2)
  | _, _ => .ok false

/-- `equals(av, value)` -/
def equalsMember (av : Value) (value : Member) : Except Error Bool :=
  match comparand value with
  | some b => equals av b
  | none => .ok false

def includes (operand : Option Value) (value : Member) : Except Error Bool :=
  match operand with
  | some (.array items) => items.anyM fun av => equalsMember av value
  | _ => .error .typeError

/-! ### Loops as quantifiers -/

def equalProperty (bs : List (Text × Value)) (property : Text × Value) : Except Error Bool :=
  match bs.lookup property.1 with
  | some b => equals property.2 b
  | none => .ok false

def containsProperty (xs : List (Text × Value)) (property : Text × Value) : Except Error Bool :=
  if hidesHasOwnProperty xs then .error .typeError
  else match xs.lookup property.1 with
    | none => .ok false
    | some x => containsInternal x property.2 false

theorem equalItems_eq (as bs : List Value) : equalItems as bs = (as.zip bs).allM fun pair => equals pair.1 pair.2 := by
  induction as generalizing bs with
  | nil => rfl
  | cons a as ih =>
    cases bs with
    | nil => rfl
    | cons b bs => rw [equalItems, List.zip_cons_cons, List.allM_cons, ih]

theorem equalProperties_eq (as bs : List (Text × Value)) : equalProperties as bs = as.allM (equalProperty bs) := by
  induction as with
  | nil => rfl
  | cons property as ih =>
    obtain ⟨name, a⟩ := property
    rw [equalProperties, List.allM_cons, ih, equalProperty]
    cases bs.lookup name with
    | none => rfl
    | some b => rfl

theorem containsItems_eq (xs ys : List Value) :
    containsItems xs ys = ys.allM fun y => xs.anyM fun x => containsInternal x y false := by
  induction ys with
  | nil => rfl
  | cons y ys ih => rw [containsItems, List.allM_cons, ih]

theorem containsProperties_eq (xs ys : List (Text × Value)) :
    containsProperties xs ys = ys.allM (containsProperty xs) := by
  induction ys with
  | nil => rfl
  | cons property ys ih =>
    obtain ⟨name, y⟩ := property
    rw [containsProperties, List.allM_cons, ih, containsProperty]
    split
    · rfl
    · cases xs.lookup name with
      | none => rfl
      | some x => rfl

theorem indices_succ (i : Nat) :
    (fun j y => (decimal (i + (j + 1)), y)) = fun (j : Nat) (y : Value) => (decimal (i + 1 + j), y) := by
  funext j y
  rw [Nat.add_right_comm, Nat.add_assoc]

theorem containsIndices_eq (xs : List (Text × Value)) (i : Nat) (ys : List Value) :
    containsIndices xs i ys = (ys.mapIdx fun j y => (decimal (i + j), y)).allM (containsProperty xs) := by
  induction ys generalizing i with
  | nil => rfl
  | cons y ys ih =>
    rw [containsIndices, List.mapIdx_cons, List.allM_cons, indices_succ, ih, containsProperty]
    split
    · rfl
    · rw [Nat.add_zero]
      cases xs.lookup (decimal i) with
      | none => rfl
      | some x => rfl

/-! ### Compared values -/

/-- Comparing `a` and `b` comes to comparing `u` and `v`. -/
inductive EqualsCompares : Value → Value → Value → Value → Prop
  | self (a b : Value) : EqualsCompares a b a b
  | item {as bs : List Value} {a b u v : Value} (hlength : as.length = bs.length)
      (hreached : Reached (fun pair => equals pair.1 pair.2) true (as.zip bs) (a, b))
      (h : EqualsCompares a b u v) : EqualsCompares (.array as) (.array bs) u v
  | property {as bs : List (Text × Value)} {name : Text} {a b u v : Value} (hlength : as.length = bs.length)
      (hown : as.all (fun property => hasOwnProperty bs property.1) = true)
      (hreached : Reached (equalProperty bs) true as (name, a)) (hb : bs.lookup name = some b)
      (h : EqualsCompares a b u v) : EqualsCompares (.object as) (.object bs) u v

/-- Two objects with as many properties, of which the second one hides `hasOwnProperty`. -/
def EqualsFails : Value → Value → Prop
  | .object as, .object bs => as.length = bs.length ∧ as ≠ [] ∧ hidesHasOwnProperty bs = true
  | _, _ => False

/-- Looking for `y` in `x` comes to looking for `v` in `u`. -/
inductive ContainsCompares : Value → Value → Value → Value → Prop
  | self (x y : Value) : ContainsCompares x y x y
  | item {xs ys : List Value} {x y u v : Value}
      (hy : Reached (fun y => xs.anyM fun x => containsInternal x y false) true ys y)
      (hx : Reached (fun x => containsInternal x y false) false xs x)
      (h : ContainsCompares x y u v) : ContainsCompares (.array xs) (.array ys) u v
  | property {xs : List (Text × Value)} {ys : Value} {name : Text} {x y u v : Value}
      (hreached : Reached (containsProperty xs) true (ownProperties ys) (name, y)) (hx : xs.lookup name = some x)
      (h : ContainsCompares x y u v) : ContainsCompares (.object xs) ys u v

/-- An object in which `null` is looked for, or in which there is something to look for although it hides `hasOwnProperty`. -/
def ContainsFails : Value → Value → Prop
  | .object _, .null => True
  | .object xs, y => ownProperties y ≠ [] ∧ hidesHasOwnProperty xs = true
  | _, _ => False

theorem lt_of_mem_items {items : List Value} {item : Value} (h : item ∈ items) : sizeOf item < sizeOf (Value.array items) := by
  have hmem := List.sizeOf_lt_of_mem h
  simp only [Value.array.sizeOf_spec]
  omega

theorem lt_of_reached_zip {f : Value × Value → Except Error Bool} {as bs : List Value} {a b : Value}
    (h : Reached f true (as.zip bs) (a, b)) : sizeOf a < sizeOf (Value.array as) :=
  lt_of_mem_items (List.of_mem_zip h.mem).1

theorem lt_of_mem_properties {as : List (Text × Value)} {name : Text} {a : Value} (h : (name, a) ∈ as) :
    sizeOf a < sizeOf (Value.object as) := by
  have hmem := List.sizeOf_lt_of_mem h
  simp only [Prod.mk.sizeOf_spec] at hmem
  simp only [Value.object.sizeOf_spec]
  omega

theorem returns_equals_array {as bs : List Value} (hlength : as.length = bs.length)
    (ih : ∀ a b, Reached (fun pair => equals pair.1 pair.2) true (as.zip bs) (a, b) →
      (Returns (equals a b) ↔ ∀ u v, EqualsCompares a b u v → ¬ EqualsFails u v)) :
    Returns (equals (.array as) (.array bs)) ↔
      ∀ u v, EqualsCompares (.array as) (.array bs) u v → ¬ EqualsFails u v := by
  rw [equals, if_pos hlength, equalItems_eq, returns_allM_iff]
  constructor
  · intro h u v hcompares
    cases hcompares with
    | self => exact not_false
    | item _ hreached hcompares => exact (ih _ _ hreached).mp (h _ hreached) u v hcompares
  · intro h pair hreached
    exact (ih pair.1 pair.2 hreached).mpr fun u v hcompares => h u v (.item hlength hreached hcompares)

theorem hides_iff_equalsFails {as bs : List (Text × Value)} (hlength : as.length = bs.length) :
    (!as.isEmpty && hidesHasOwnProperty bs) = true ↔ EqualsFails (.object as) (.object bs) := by
  rw [Bool.and_eq_true, Bool.not_eq_true', List.isEmpty_eq_false_iff]
  exact (and_iff_right hlength).symm

theorem returns_equals_object {as bs : List (Text × Value)} (hlength : as.length = bs.length)
    (ih : ∀ name a b, (name, a) ∈ as →
      (Returns (equals a b) ↔ ∀ u v, EqualsCompares a b u v → ¬ EqualsFails u v)) :
    Returns (equals (.object as) (.object bs)) ↔
      ∀ u v, EqualsCompares (.object as) (.object bs) u v → ¬ EqualsFails u v := by
  rw [equals, if_pos hlength]
  by_cases hfails : EqualsFails (.object as) (.object bs)
  · rw [if_pos ((hides_iff_equalsFails hlength).mpr hfails)]
    simp only [not_returns_error, false_iff]
    intro h
    exact h _ _ (.self _ _) hfails
  · rw [if_neg (mt (hides_iff_equalsFails hlength).mp hfails)]
    by_cases hown : as.all (fun property => hasOwnProperty bs property.1) = true
    · rw [if_pos hown, equalProperties_eq, returns_allM_iff]
      constructor
      · intro h u v hcompares
        cases hcompares with
        | self => exact hfails
        | property _ _ hreached hb hcompares =>
          have hreturns := h _ hreached
          rw [equalProperty, hb] at hreturns
          exact (ih _ _ _ hreached.mem).mp hreturns u v hcompares
      · intro h property hreached
        rw [equalProperty]
        cases hb : bs.lookup property.1 with
        | none => simp
        | some b =>
          exact (ih property.1 property.2 b hreached.mem).mpr fun u v hcompares =>
            h u v (.property hlength hown hreached hb hcompares)
    · rw [if_neg hown]
      simp only [returns_ok, true_iff]
      intro u v hcompares
      cases hcompares with
      | self => exact hfails
      | property _ hown' => exact absurd hown' hown

theorem returns_equals_of_self {a b : Value} {c : Bool} (hok : equals a b = .ok c)
    (hself : ∀ u v, EqualsCompares a b u v → u = a ∧ v = b) (hfails : ¬ EqualsFails a b) :
    Returns (equals a b) ↔ ∀ u v, EqualsCompares a b u v → ¬ EqualsFails u v := by
  refine iff_of_true ⟨c, hok⟩ ?_
  intro u v hcompares
  obtain ⟨hu, hv⟩ := hself u v hcompares
  rwa [hu, hv]

/-- Comparing two values returns exactly if it comes to no failing pair. -/
theorem returns_equals_iff (a b : Value) :
    Returns (equals a b) ↔ ∀ u v, EqualsCompares a b u v → ¬ EqualsFails u v := by
  induction hsize : sizeOf a using Nat.strong_induction_on generalizing a b with
  | _ n ih =>
    subst hsize
    cases a with
    | array as =>
      cases b with
      | array bs =>
        by_cases hlength : as.length = bs.length
        · exact returns_equals_array hlength fun a b hreached => ih _ (lt_of_reached_zip hreached) a b rfl
        · refine returns_equals_of_self (if_neg hlength) ?_ not_false
          intro u v hcompares
          cases hcompares with
          | self => exact ⟨rfl, rfl⟩
          | item hlength' => exact absurd hlength' hlength
      | _ => exact returns_equals_of_self rfl (fun u v h => by cases h; exact ⟨rfl, rfl⟩) not_false
    | object as =>
      cases b with
      | object bs =>
        by_cases hlength : as.length = bs.length
        · exact returns_equals_object hlength fun name a b hmem => ih _ (lt_of_mem_properties hmem) a b rfl
        · refine returns_equals_of_self (if_neg hlength) ?_ fun hfails => hlength hfails.1
          intro u v hcompares
          cases hcompares with
          | self => exact ⟨rfl, rfl⟩
          | property hlength' => exact absurd hlength' hlength
      | _ => exact returns_equals_of_self rfl (fun u v h => by cases h; exact ⟨rfl, rfl⟩) not_false
    | _ => exact returns_equals_of_self (by simp [equals]; rfl) (fun u v h => by cases h; exact ⟨rfl, rfl⟩) not_false

/-! ### Containment returns -/

theorem lt_of_mem_ownProperties {y z : Value} {name : Text} (h : (name, z) ∈ ownProperties y) : sizeOf z < sizeOf y := by
  cases y with
  | array items =>
    rw [ownProperties, List.mem_mapIdx] at h
    obtain ⟨i, hi, heq⟩ := h
    have hz : items[i] = z := congrArg Prod.snd heq
    rw [← hz]
    exact lt_of_mem_items (List.getElem_mem hi)
  | object properties => exact lt_of_mem_properties h
  | _ => simp [ownProperties] at h

theorem containsInternal_object {xs : List (Text × Value)} {y : Value} (hnull : ¬ ContainsFails (.object xs) y)
    (isToplevel : Bool) :
    containsInternal (.object xs) y isToplevel = (ownProperties y).allM (containsProperty xs) ∨
      ownProperties y = [] ∧ containsInternal (.object xs) y isToplevel = .ok false := by
  cases y with
  | null => exact absurd trivial hnull
  | array ys =>
    left
    rw [containsInternal, containsIndices_eq, ownProperties]
    simp only [Nat.zero_add]
  | object ys =>
    left
    rw [containsInternal, containsProperties_eq, ownProperties]
  | _ => exact Or.inr ⟨rfl, rfl⟩

theorem not_returns_of_containsFails {xs : List (Text × Value)} {y : Value} (hfails : ContainsFails (.object xs) y)
    (isToplevel : Bool) : ¬ Returns (containsInternal (.object xs) y isToplevel) := by
  cases y with
  | null => exact not_returns_error _
  | array ys =>
    obtain ⟨hne, hhides⟩ := hfails
    cases ys with
    | nil => exact absurd rfl hne
    | cons y ys =>
      rw [containsInternal, containsIndices, if_pos hhides]
      exact not_returns_error _
  | object ys =>
    obtain ⟨hne, hhides⟩ := hfails
    cases ys with
    | nil => exact absurd rfl hne
    | cons property ys =>
      rw [containsInternal, containsProperties, if_pos hhides]
      exact not_returns_error _
  | _ => exact absurd rfl hfails.1

theorem not_hides_of_mem {xs : List (Text × Value)} {y : Value} {property : Text × Value}
    (hfails : ¬ ContainsFails (.object xs) y) (hmem : property ∈ ownProperties y) : ¬ hidesHasOwnProperty xs = true := by
  intro hhides
  apply hfails
  cases y with
  | null => trivial
  | _ => exact ⟨List.ne_nil_of_mem hmem, hhides⟩

theorem returns_containsInternal_object {xs : List (Text × Value)} {ys : Value} (isToplevel : Bool)
    (ih : ∀ name x y, (name, y) ∈ ownProperties ys →
      (Returns (containsInternal x y false) ↔ ∀ u v, ContainsCompares x y u v → ¬ ContainsFails u v)) :
    Returns (containsInternal (.object xs) ys isToplevel) ↔
      ∀ u v, ContainsCompares (.object xs) ys u v → ¬ ContainsFails u v := by
  by_cases hfails : ContainsFails (.object xs) ys
  · refine iff_of_false (not_returns_of_containsFails hfails isToplevel) ?_
    intro h
    exact h _ _ (.self _ _) hfails
  · obtain hloop | ⟨hnone, hfalse⟩ := containsInternal_object hfails isToplevel
    · rw [hloop, returns_allM_iff]
      constructor
      · intro h u v hcompares
        cases hcompares with
        | self => exact hfails
        | property hreached hx hcompares =>
          have hreturns := h _ hreached
          rw [containsProperty] at hreturns
          split at hreturns
          · exact absurd hreturns (not_returns_error _)
          · rw [hx] at hreturns
            exact (ih _ _ _ hreached.mem).mp hreturns u v hcompares
      · intro h property hreached
        rw [containsProperty, if_neg (not_hides_of_mem hfails hreached.mem)]
        cases hx : xs.lookup property.1 with
        | none => exact returns_ok _
        | some x =>
          exact (ih property.1 x property.2 hreached.mem).mpr fun u v hcompares =>
            h u v (.property hreached hx hcompares)
    · refine iff_of_true ⟨false, hfalse⟩ ?_
      intro u v hcompares
      cases hcompares with
      | self => exact hfails
      | property hreached =>
        rw [hnone] at hreached
        exact absurd hreached not_reached_nil

theorem returns_containsInternal_array {xs ys : List Value} (isToplevel : Bool)
    (ih : ∀ x y, y ∈ ys →
      (Returns (containsInternal x y false) ↔ ∀ u v, ContainsCompares x y u v → ¬ ContainsFails u v)) :
    Returns (containsInternal (.array xs) (.array ys) isToplevel) ↔
      ∀ u v, ContainsCompares (.array xs) (.array ys) u v → ¬ ContainsFails u v := by
  rw [containsInternal, containsItems_eq, returns_allM_iff]
  constructor
  · intro h u v hcompares
    cases hcompares with
    | self => exact not_false
    | item hy hx hcompares => exact (ih _ _ hy.mem).mp (returns_anyM_iff.mp (h _ hy) _ hx) u v hcompares
  · intro h y hy
    rw [returns_anyM_iff]
    intro x hx
    exact (ih x y hy.mem).mpr fun u v hcompares => h u v (.item hy hx hcompares)

theorem returns_containsInternal_iff (x y : Value) (isToplevel : Bool) :
    Returns (containsInternal x y isToplevel) ↔ ∀ u v, ContainsCompares x y u v → ¬ ContainsFails u v := by
  induction hsize : sizeOf y using Nat.strong_induction_on generalizing x y isToplevel with
  | _ n ih =>
    subst hsize
    have hself : ∀ {c : Bool}, containsInternal x y isToplevel = .ok c →
        (∀ u v, ContainsCompares x y u v → u = x ∧ v = y) → ¬ ContainsFails x y →
        (Returns (containsInternal x y isToplevel) ↔ ∀ u v, ContainsCompares x y u v → ¬ ContainsFails u v) := by
      intro c hok hself hfails
      refine iff_of_true ⟨c, hok⟩ ?_
      intro u v hcompares
      obtain ⟨hu, hv⟩ := hself u v hcompares
      rwa [hu, hv]
    cases x with
    | object xs =>
      exact returns_containsInternal_object isToplevel fun name x z hmem =>
        ih _ (lt_of_mem_ownProperties hmem) x z false rfl
    | array xs =>
      cases y with
      | array ys =>
        apply returns_containsInternal_array
        intro x z hmem
        exact ih _ (lt_of_mem_items hmem) x z false rfl
      | _ => exact hself rfl (fun u v h => by cases h; exact ⟨rfl, rfl⟩) not_false
    | _ => exact hself (by simp [containsInternal]; rfl) (fun u v h => by cases h; exact ⟨rfl, rfl⟩) not_false

end Deep

end Coaty
