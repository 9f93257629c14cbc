import Coaty.Util.Equality

/-!
# Containment of JSON values

A value contains another one if it has the same structure and the same data, apart from array elements and properties that it has in addition. The search for a value in another one is an error where it comes to an object in which `null` is looked for, or to an object that hides `hasOwnProperty` and in which there is something to look for. Elsewhere it goes by a wider relation, for which an object contains an array if its properties named by the indices do.
-/

namespace Coaty

namespace Deep

open Js Evaluation

mutual

/-- The first value contains the second one below the top level. In the wider relation objects may stand in for arrays. -/
def Contained (wider : Bool) : Value → Value → Prop
  | .array xs, .array ys => ContainedItems wider xs ys
  | .object xs, .object ys => ContainedProperties wider xs ys
  | .object xs, .array ys => wider = true ∧ ContainedIndices wider xs 0 ys
  | x, y => strictEquals x y = true
termination_by structural _ y => y

/-- Every element is contained in some element. -/
def ContainedItems (wider : Bool) (xs : List Value) : List Value → Prop
  | [] => True
  | y :: ys => (∃ x ∈ xs, Contained wider x y) ∧ ContainedItems wider xs ys
termination_by structural ys => ys

/-- Every property exists with a value in which its value is contained. -/
def ContainedProperties (wider : Bool) (xs : List (Text × Value)) : List (Text × Value) → Prop
  | [] => True
  | (name, y) :: ys => (∃ x, xs.lookup name = some x ∧ Contained wider x y) ∧ ContainedProperties wider xs ys
termination_by structural ys => ys

/-- Every index, from the given one on, is the name of a property in whose value the element is contained. -/
def ContainedIndices (wider : Bool) (xs : List (Text × Value)) (i : Nat) : List Value → Prop
  | [] => True
  | y :: ys => (∃ x, xs.lookup (decimal i) = some x ∧ Contained wider x y) ∧ ContainedIndices wider xs (i + 1) ys
termination_by structural ys => ys

end

def ContainedAtTop (wider : Bool) (x y : Value) : Prop :=
  Contained wider x y ∨ ∃ xs, x = .array xs ∧ ∃ item ∈ xs, strictEquals item y = true

/-- Looking for `y` in `x` comes to looking for `v` in `u`, since what comes before decides nothing. -/
inductive SeeksIn : Value → Value → Value → Value → Prop
  | self (x y : Value) : SeeksIn x y x y
  | item {xs ys : List Value} {x y u v : Value}
      (hy : ReachedWhile (fun y => ∃ x ∈ xs, Contained true x y) ys y)
      (hx : ReachedWhile (fun x => ¬ Contained true x y) xs x)
      (h : SeeksIn x y u v) : SeeksIn (.array xs) (.array ys) u v
  | property {xs : List (Text × Value)} {ys : Value} {name : Text} {x y u v : Value}
      (hreached : ReachedWhile (fun property => ∃ x, xs.lookup property.1 = some x ∧ Contained true x property.2)
        (ownProperties ys) (name, y))
      (hx : xs.lookup name = some x) (h : SeeksIn x y u v) : SeeksIn (.object xs) ys u v

/-- The search comes to no object in which `null` is looked for, or in which there is something to look for although it hides `hasOwnProperty`. -/
def NoSearchFails (x y : Value) : Prop := ∀ u v, SeeksIn x y u v → ¬ ContainsFails u v

/-- Containment returns whether the first value contains the second one. -/
def DecidesContained (x y : Value) : Prop :=
  ∃ c, contains (.value x) (some y) = .ok c ∧ (c = true ↔ ContainedAtTop false x y)

/-! ### The relation -/

variable {wider : Bool}

theorem containedItems_iff {xs ys : List Value} :
    ContainedItems wider xs ys ↔ ∀ y ∈ ys, ∃ x ∈ xs, Contained wider x y := by
  induction ys with
  | nil => exact iff_of_true trivial (List.forall_mem_nil _)
  | cons y ys ih =>
    rw [List.forall_mem_cons, ← ih]
    exact Iff.rfl

theorem containedProperties_iff {xs ys : List (Text × Value)} :
    ContainedProperties wider xs ys ↔
      ∀ property ∈ ys, ∃ x, xs.lookup property.1 = some x ∧ Contained wider x property.2 := by
  induction ys with
  | nil => exact iff_of_true trivial (List.forall_mem_nil _)
  | cons property ys ih =>
    rw [List.forall_mem_cons, ← ih]
    exact Iff.rfl

theorem containedIndices_iff {xs : List (Text × Value)} {ys : List Value} (i : Nat) :
    ContainedIndices wider xs i ys ↔ ∀ property ∈ ys.mapIdx fun j y => (decimal (i + j), y),
      ∃ x, xs.lookup property.1 = some x ∧ Contained wider x property.2 := by
  induction ys generalizing i with
  | nil => exact iff_of_true trivial (List.forall_mem_nil _)
  | cons y ys ih =>
    rw [List.mapIdx_cons, List.forall_mem_cons, indices_succ, ← ih]
    exact Iff.rfl

theorem contained_array_array {xs ys : List Value} :
    Contained wider (.array xs) (.array ys) ↔ ∀ y ∈ ys, ∃ x ∈ xs, Contained wider x y :=
  containedItems_iff

theorem contained_object_object {xs ys : List (Text × Value)} :
    Contained wider (.object xs) (.object ys) ↔
      ∀ property ∈ ys, ∃ x, xs.lookup property.1 = some x ∧ Contained wider x property.2 :=
  containedProperties_iff

theorem contained_object_array {xs : List (Text × Value)} {ys : List Value} :
    Contained wider (.object xs) (.array ys) ↔ wider = true ∧
      ∀ property ∈ ownProperties (.array ys), ∃ x, xs.lookup property.1 = some x ∧ Contained wider x property.2 := by
  have hindices := @containedIndices_iff wider xs ys 0
  simp only [Nat.zero_add] at hindices
  exact and_congr_right fun _ => hindices

theorem eq_of_contained_primitive {x y : Value} (harray : ∀ items, y ≠ .array items)
    (hobject : ∀ properties, y ≠ .object properties) (h : Contained wider x y) : x = y := by
  cases y with
  | array items => exact absurd rfl (harray items)
  | object properties => exact absurd rfl (hobject properties)
  | _ =>
    rw [Contained] at h
    · exact eq_of_strictEquals h
    all_goals simp

theorem exists_array_of_contained {x : Value} {ys : List Value} (h : Contained false x (.array ys)) :
    ∃ xs, x = .array xs ∧ ∀ y ∈ ys, ∃ x ∈ xs, Contained false x y := by
  cases x with
  | array xs => exact ⟨xs, rfl, contained_array_array.mp h⟩
  | object xs => exact absurd (contained_object_array.mp h).1 Bool.false_ne_true
  | _ => cases h

theorem exists_object_of_contained {x : Value} {ys : List (Text × Value)} (h : Contained wider x (.object ys)) :
    ∃ xs, x = .object xs ∧ ∀ property ∈ ys, ∃ x, xs.lookup property.1 = some x ∧ Contained wider x property.2 := by
  cases x with
  | object xs => exact ⟨xs, rfl, contained_object_object.mp h⟩
  | _ => cases h

theorem contained_refl {a : Value} (ha : WellFormed a) : Contained false a a := by
  induction ha with
  | @array items hitems ih =>
    rw [contained_array_array]
    exact fun y hmem => ⟨y, hmem, ih y hmem⟩
  | @object properties hnodup hproperties ih =>
    rw [contained_object_object]
    exact fun property hmem => ⟨property.2, lookup_of_mem hnodup hmem, ih property.1 property.2 hmem⟩
  | _ => simp [Contained, strictEquals]

theorem contained_trans {a b c : Value} (hc : WellFormed c) (hab : Contained false a b) (hbc : Contained false b c) :
    Contained false a c := by
  induction hc generalizing a b with
  | @array cs hcs ih =>
    obtain ⟨bs, rfl, hbs⟩ := exists_array_of_contained hbc
    obtain ⟨as, rfl, has⟩ := exists_array_of_contained hab
    rw [contained_array_array]
    intro c hmem
    obtain ⟨b, hb, hcontained⟩ := hbs c hmem
    obtain ⟨a, ha, hcontained'⟩ := has b hb
    exact ⟨a, ha, ih c hmem hcontained' hcontained⟩
  | @object cs hnodup hcs ih =>
    obtain ⟨bs, rfl, hbs⟩ := exists_object_of_contained hbc
    obtain ⟨as, rfl, has⟩ := exists_object_of_contained hab
    rw [contained_object_object]
    intro property hmem
    obtain ⟨b, hb, hcontained⟩ := hbs property hmem
    obtain ⟨a, ha, hcontained'⟩ := has (property.1, b) (mem_of_lookup hb)
    exact ⟨a, ha, ih property.1 property.2 hmem hcontained' hcontained⟩
  | _ => exact eq_of_contained_primitive (by simp) (by simp) hbc ▸ hab

/-! ### What the search decides -/

theorem decides_containsItems {xs ys : List Value}
    (ih : ∀ x, ∀ y ∈ ys, Decides (containsInternal x y false) (Contained true x y)) :
    Decides (containsItems xs ys) (ContainedItems true xs ys) := by
  rw [containsItems_eq, containedItems_iff]
  exact decides_allM fun y hy => decides_anyM fun x _ => ih x y hy

theorem decides_containsProperty {xs : List (Text × Value)} {property : Text × Value}
    (ih : ∀ x, Decides (containsInternal x property.2 false) (Contained true x property.2)) :
    Decides (containsProperty xs property) (∃ x, xs.lookup property.1 = some x ∧ Contained true x property.2) := by
  rw [containsProperty]
  split
  · exact decides_error _ _
  · cases xs.lookup property.1 with
    | none => exact decides_ok (by simp)
    | some x => simpa using ih x

theorem containedAtTop_of_not_array {x y : Value} (hx : ∀ xs, x ≠ .array xs) :
    ContainedAtTop wider x y ↔ Contained wider x y := by
  apply or_iff_left
  intro ⟨xs, hxs, _⟩
  exact hx xs hxs

theorem containedAtTop_of_structured {x y : Value} (hy : ∀ item, strictEquals item y = false) :
    ContainedAtTop wider x y ↔ Contained wider x y := by
  apply or_iff_left
  rintro ⟨xs, -, item, -, hitem⟩
  rw [hy item] at hitem
  cases hitem

theorem strictEquals_array (x : Value) (ys : List Value) : strictEquals x (.array ys) = false := by
  cases x <;> rfl

theorem strictEquals_object (x : Value) (ys : List (Text × Value)) : strictEquals x (.object ys) = false := by
  cases x <;> rfl

/-- What the search is to decide, on the top level or below. -/
def Sought (wider isToplevel : Bool) (x y : Value) : Prop :=
  if isToplevel = true then ContainedAtTop wider x y else Contained wider x y

theorem sought_iff {isToplevel : Bool} {x y : Value} (h : ContainedAtTop wider x y ↔ Contained wider x y) :
    Sought wider isToplevel x y ↔ Contained wider x y := by
  rw [Sought]
  split
  · exact h
  · exact Iff.rfl

theorem decides_array_primitive {xs : List Value} {y : Value} {isToplevel : Bool}
    (hy : Contained true (.array xs) y ↔ strictEquals (.array xs) y = true) :
    Decides (.ok (isToplevel && xs.any fun x => strictEquals x y) : Except Error Bool)
      (Sought true isToplevel (.array xs) y) := by
  apply decides_ok
  have hnot : ¬ Contained true (.array xs) y := by
    rw [hy]
    exact Bool.false_ne_true
  rw [Sought]
  cases isToplevel with
  | false => simp [hnot]
  | true => simp [ContainedAtTop, hnot]

theorem decides_containsInternal (x y : Value) (isToplevel : Bool) :
    Decides (containsInternal x y isToplevel) (Sought true isToplevel x y) := by
  induction hsize : sizeOf y using Nat.strong_induction_on generalizing x y isToplevel with
  | _ n ih =>
    subst hsize
    have hbelow : ∀ x z, sizeOf z < sizeOf y → Decides (containsInternal x z false) (Contained true x z) :=
      fun x z hlt => ih _ hlt x z false rfl
    have hproperties : ∀ xs, Decides ((ownProperties y).allM (containsProperty xs))
        (∀ property ∈ ownProperties y, ∃ x, xs.lookup property.1 = some x ∧ Contained true x property.2) :=
      fun xs => decides_allM fun property hmem =>
        decides_containsProperty fun x => hbelow x property.2 (lt_of_mem_ownProperties hmem)
    cases x with
    | array xs =>
      cases y with
      | array ys =>
        rw [containsInternal, sought_iff (containedAtTop_of_structured fun item => strictEquals_array item ys), Contained]
        apply decides_containsItems
        intro x z hmem
        exact hbelow x z (lt_of_mem_items hmem)
      | object ys =>
        rw [sought_iff (containedAtTop_of_structured fun item => strictEquals_object item ys)]
        exact decides_ok Iff.rfl
      | _ => exact decides_array_primitive Iff.rfl
    | object xs =>
      rw [sought_iff (containedAtTop_of_not_array (by simp))]
      cases y with
      | null => exact decides_error _ _
      | object ys =>
        rw [containsInternal, containsProperties_eq, contained_object_object]
        exact hproperties xs
      | array ys =>
        have hloop := hproperties xs
        rw [containsInternal, containsIndices_eq, contained_object_array, and_iff_right rfl]
        simpa only [ownProperties, Nat.zero_add] using hloop
      | _ => exact decides_ok Iff.rfl
    | _ =>
      rw [sought_iff (containedAtTop_of_not_array (by simp)), containsInternal, Contained]
      · exact decides_ok Iff.rfl
      all_goals simp

/-! ### When the search returns -/

theorem noSearchFails_of_self {x y : Value} (hself : ∀ u v, SeeksIn x y u v → u = x ∧ v = y)
    (hfails : ¬ ContainsFails x y) : NoSearchFails x y := by
  intro u v hseeks
  obtain ⟨hu, hv⟩ := hself u v hseeks
  rwa [hu, hv]

theorem returns_array_iff {xs ys : List Value} (isToplevel : Bool)
    (ih : ∀ x, ∀ y ∈ ys, Returns (containsInternal x y false) ↔ NoSearchFails x y) :
    Returns (containsInternal (.array xs) (.array ys) isToplevel) ↔ NoSearchFails (.array xs) (.array ys) := by
  have hdecides : ∀ y x, Decides (containsInternal x y false) (Contained true x y) :=
    fun y x => decides_containsInternal x y false
  rw [containsInternal, containsItems_eq, returns_allM_iff_of_decides fun y _ => decides_anyM fun x _ => hdecides y x]
  constructor
  · intro h u v hseeks
    cases hseeks with
    | self => exact not_false
    | item hy hx hseeks =>
      have hreturns := (returns_anyM_iff_of_decides fun x _ => hdecides _ x).mp (h _ hy) _ hx
      exact (ih _ _ hy.mem).mp hreturns u v hseeks
  · intro h y hy
    rw [returns_anyM_iff_of_decides fun x _ => hdecides y x]
    intro x hx
    exact (ih x y hy.mem).mpr fun u v hseeks => h u v (.item hy hx hseeks)

theorem returns_object_iff {xs : List (Text × Value)} {y : Value} (isToplevel : Bool)
    (ih : ∀ name x z, (name, z) ∈ ownProperties y → (Returns (containsInternal x z false) ↔ NoSearchFails x z)) :
    Returns (containsInternal (.object xs) y isToplevel) ↔ NoSearchFails (.object xs) y := by
  by_cases hfails : ContainsFails (.object xs) y
  · refine iff_of_false (not_returns_of_containsFails hfails isToplevel) ?_
    intro h
    exact h _ _ (.self _ _) hfails
  · have hdecides : ∀ property ∈ ownProperties y, Decides (containsProperty xs property)
        (∃ x, xs.lookup property.1 = some x ∧ Contained true x property.2) :=
      fun property _ => decides_containsProperty fun x => decides_containsInternal x property.2 false
    obtain hloop | ⟨hnone, hfalse⟩ := containsInternal_object hfails isToplevel
    · rw [hloop, returns_allM_iff_of_decides hdecides]
      constructor
      · intro h u v hseeks
        cases hseeks with
        | self => exact hfails
        | property hreached hx hseeks =>
          have hreturns := h _ hreached
          rw [containsProperty] at hreturns
          split at hreturns
          · exact absurd hreturns (not_returns_error _)
          · rw [hx] at hreturns
            exact (ih _ _ _ hreached.mem).mp hreturns u v hseeks
      · intro h property hreached
        rw [containsProperty, if_neg (not_hides_of_mem hfails hreached.mem)]
        cases hx : xs.lookup property.1 with
        | none => exact returns_ok _
        | some x =>
          exact (ih property.1 x property.2 hreached.mem).mpr fun u v hseeks => h u v (.property hreached hx hseeks)
    · refine iff_of_true ⟨false, hfalse⟩ (noSearchFails_of_self ?_ hfails)
      intro u v hseeks
      cases hseeks with
      | self => exact ⟨rfl, rfl⟩
      | property hreached =>
        rw [hnone] at hreached
        exact absurd hreached not_reachedWhile_nil

/-- The search returns exactly if it comes to no failing pair. -/
theorem returns_containsInternal_iff_noSearchFails (x y : Value) (isToplevel : Bool) :
    Returns (containsInternal x y isToplevel) ↔ NoSearchFails x y := by
  induction hsize : sizeOf y using Nat.strong_induction_on generalizing x y isToplevel with
  | _ n ih =>
    subst hsize
    cases x with
    | object xs =>
      exact returns_object_iff isToplevel fun name x z hmem => ih _ (lt_of_mem_ownProperties hmem) x z false rfl
    | array xs =>
      cases y with
      | array ys =>
        apply returns_array_iff
        intro x z hmem
        exact ih _ (lt_of_mem_items hmem) x z false rfl
      | _ => exact iff_of_true ⟨_, rfl⟩ (noSearchFails_of_self (fun u v h => by cases h; exact ⟨rfl, rfl⟩) not_false)
    | _ =>
      refine iff_of_true ⟨_, by rw [containsInternal] <;> simp⟩ (noSearchFails_of_self (fun u v h => ?_) not_false)
      cases h
      exact ⟨rfl, rfl⟩

/-! ### Containment -/

theorem Contained.widen {x y : Value} (h : Contained false x y) : Contained true x y := by
  induction hsize : sizeOf y using Nat.strong_induction_on generalizing x y with
  | _ n ih =>
    subst hsize
    cases y with
    | array ys =>
      obtain ⟨xs, rfl, hxs⟩ := exists_array_of_contained h
      rw [contained_array_array]
      intro y hmem
      obtain ⟨x, hx, hcontained⟩ := hxs y hmem
      exact ⟨x, hx, ih _ (lt_of_mem_items hmem) hcontained rfl⟩
    | object ys =>
      obtain ⟨xs, rfl, hxs⟩ := exists_object_of_contained h
      rw [contained_object_object]
      intro property hmem
      obtain ⟨x, hx, hcontained⟩ := hxs property hmem
      exact ⟨x, hx, ih _ (lt_of_mem_properties hmem) hcontained rfl⟩
    | _ =>
      rw [Contained] at h ⊢
      · exact h
      all_goals simp

theorem containedAtTop_widen {x y : Value} (h : ContainedAtTop false x y) : ContainedAtTop true x y :=
  h.imp_left Contained.widen

theorem decidesContained_iff (x y : Value) :
    DecidesContained x y ↔ NoSearchFails x y ∧ (ContainedAtTop true x y → ContainedAtTop false x y) := by
  have hdecides : Decides (contains (.value x) (some y)) (ContainedAtTop true x y) := decides_containsInternal x y true
  have hreturns : Returns (contains (.value x) (some y)) ↔ NoSearchFails x y :=
    returns_containsInternal_iff_noSearchFails x y true
  rw [← hreturns]
  constructor
  · intro ⟨c, hc, hiff⟩
    exact ⟨⟨c, hc⟩, fun h => hiff.mp ((hdecides c hc).mpr h)⟩
  · intro ⟨⟨c, hc⟩, hnarrow⟩
    exact ⟨c, hc, fun h => hnarrow ((hdecides c hc).mp h), fun h => (hdecides c hc).mpr (containedAtTop_widen h)⟩

theorem not_containedAtTop_of_mixed (xs : List (Text × Value)) (ys : List Value) :
    ¬ ContainedAtTop false (.object xs) (.array ys) ∧ ¬ ContainedAtTop false (.array ys) (.object xs) ∧
      ¬ ContainedAtTop false (.object xs) .null ∧ ¬ ContainedAtTop false .null (.object xs) := by
  refine ⟨?_, ?_, ?_, ?_⟩
  · rw [containedAtTop_of_not_array (by simp), contained_object_array]
    exact fun h => Bool.false_ne_true h.1
  · rw [containedAtTop_of_structured fun item => strictEquals_object item xs]
    exact Bool.false_ne_true
  · rw [containedAtTop_of_not_array (by simp)]
    exact Bool.false_ne_true
  · rw [containedAtTop_of_not_array (by simp)]
    exact Bool.false_ne_true

/-- Containment goes by the documented relation exactly if the search comes to no object in which `null` is looked for or which hides `hasOwnProperty`, and does not succeed only by taking objects for arrays. The relation is reflexive, transitive below the top level, and none of values of different structure. -/
theorem contains_decides_iff (a b : JsonValue) :
    (DecidesContained a.val b.val ↔
      NoSearchFails a.val b.val ∧ (ContainedAtTop true a.val b.val → ContainedAtTop false a.val b.val)) ∧
      ContainedAtTop false a.val a.val ∧
      (∀ c : JsonValue, Contained false a.val b.val → Contained false b.val c.val → Contained false a.val c.val) ∧
      ∀ xs ys, ¬ ContainedAtTop false (.object xs) (.array ys) ∧ ¬ ContainedAtTop false (.array ys) (.object xs) ∧
        ¬ ContainedAtTop false (.object xs) .null ∧ ¬ ContainedAtTop false .null (.object xs) :=
  ⟨decidesContained_iff a.val b.val, Or.inl (contained_refl a.property), fun c => contained_trans c.property,
    not_containedAtTop_of_mixed⟩

/-- An empty array is no part of an empty object. -/
theorem not_decidesContained_of_object : ¬ ∀ a b : JsonValue, DecidesContained a.val b.val := by
  intro h
  have hobject : WellFormed (.object []) := .object List.nodup_nil fun name value hmem => by cases hmem
  have harray : WellFormed (.array []) := .array fun item hmem => by cases hmem
  obtain ⟨c, hc, hiff⟩ := h ⟨_, hobject⟩ ⟨_, harray⟩
  cases hc
  exact (not_containedAtTop_of_mixed [] []).1 (hiff.mp rfl)

end Deep

end Coaty
