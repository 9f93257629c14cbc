import Coaty.Db.InMemory.Pipeline
import Coaty.Order.Lexicographic

/-!
# Consistency of the query order

The comparer of a query compares values of one type by that type and values of different types as numbers. So it is a total preorder only as long as values of different types can be told apart as numbers, and strings that are on both sides of a value of another type come in the order that their numbers have.
-/

namespace Coaty

open Js Heap Value Evaluation Order

namespace InMemory

variable (engine : Engine) (depth : Nat)

/-- A value that is missing or a primitive JSON value. -/
def primitiveOf : Option Member → Option Engine.Primitive
  | none => some .undefined
  | some (.value .null) => some .null
  | some (.value (.bool b)) => some (.bool b)
  | some (.value (.number n)) => some (.number n)
  | some (.value (.string s)) => some (.string s)
  | _ => none

/-! ### The order of values -/

/-- Values that tie: the same value, or strings that the collator does not tell apart. -/
def Tied : Engine.Primitive → Engine.Primitive → Prop
  | .string s, .string t => engine.compare s t = .eq
  | p, q => p = q

/-- The order of two numbers, if both of them are any. -/
def Less (m n : Option ExtendedNumber) : Prop := ∃ x y, m = some x ∧ n = some y ∧ x < y

/-- The value comes before the other one: a missing value before the others, strings by the collator, and all others by the numbers they convert to. -/
def Precedes : Engine.Primitive → Engine.Primitive → Prop
  | .string s, .string t => engine.compare s t = .lt
  | .undefined, q => q ≠ .undefined
  | p, q => Less (engine.toNumber p) (engine.toNumber q)

/-- Values of one type, or of types that convert to different numbers. -/
def Commensurable : Engine.Primitive → Engine.Primitive → Prop
  | .undefined, _ => True
  | _, .undefined => True
  | .null, .null => True
  | .bool _, .bool _ => True
  | .number _, .number _ => True
  | .string _, .string _ => True
  | p, q => Less (engine.toNumber p) (engine.toNumber q) ∨ Less (engine.toNumber q) (engine.toNumber p)

def IsString : Engine.Primitive → Prop
  | .string _ => True
  | _ => False

/-- Two strings on different sides of a value that is none. -/
def Straddles (p v q : Engine.Primitive) : Prop :=
  (IsString p ∧ ¬ IsString v ∧ IsString q) ∧ Precedes engine p v ∧ Precedes engine v q

/-! ### The order of objects -/

def keyValue (h : Heap) (key : ObjectFilterProperties × SortOrder) (obj : Ref) : Engine.Primitive :=
  (primitiveOf (orderByValue engine depth h key.1 obj)).getD .undefined

/-- The value comes before the other one in ascending or descending order. -/
def Ahead (order : SortOrder) (p q : Engine.Primitive) : Prop :=
  match order with
  | .asc => Precedes engine p q
  | .desc => Precedes engine q p

/-- Two strings on different sides of a value that is none, the first one ahead. -/
def StraddlesIn (order : SortOrder) (p v q : Engine.Primitive) : Prop :=
  match order with
  | .asc => Straddles engine p v q
  | .desc => Straddles engine q v p

/-- The object comes before the other one by the first key that their values do not tie for. -/
def Before (h : Heap) : List (ObjectFilterProperties × SortOrder) → Ref → Ref → Prop
  | [], _, _ => False
  | key :: keys, a, b =>
    Ahead engine key.2 (keyValue engine depth h key a) (keyValue engine depth h key b) ∨
      Tied engine (keyValue engine depth h key a) (keyValue engine depth h key b) ∧ Before h keys a b

/-- Among objects that tie for all keys before, the values of a key can be told apart, and strings on different sides of another value are in that order. -/
def Consistent (h : Heap) : List (ObjectFilterProperties × SortOrder) → Set Ref → Prop
  | [], _ => True
  | key :: keys, S =>
    (∀ a ∈ S, ∀ b ∈ S, Commensurable engine (keyValue engine depth h key a) (keyValue engine depth h key b)) ∧
    (∀ a ∈ S, ∀ v ∈ S, ∀ b ∈ S,
      StraddlesIn engine key.2 (keyValue engine depth h key a) (keyValue engine depth h key v)
        (keyValue engine depth h key b) → Before engine depth h (key :: keys) a b) ∧
    ∀ o ∈ S, Consistent h keys {a | a ∈ S ∧ Tied engine (keyValue engine depth h key o) (keyValue engine depth h key a)}

/-- The comparison returns and is a total preorder on the objects. -/
structure IsTotalPreorder (compare : Ref → Ref → Except Error Ordering) (S : Set Ref) : Prop where
  swap : ∀ a ∈ S, ∀ b ∈ S, ∃ o, compare a b = .ok o ∧ compare b a = .ok o.swap
  trans : ∀ a ∈ S, ∀ b ∈ S, ∀ c ∈ S, (∃ o, compare a b = .ok o ∧ o.isLE = true) →
    (∃ o, compare b c = .ok o ∧ o.isLE = true) → ∃ o, compare a c = .ok o ∧ o.isLE = true

/-! ### Comparing values -/

/-- What comparing two values comes to. -/
noncomputable def baseOrder (p q : Engine.Primitive) : Ordering :=
  open Classical in if Tied engine p q then .eq else if Precedes engine p q then .lt else .gt

variable {engine} {depth} {p q r : Engine.Primitive}

theorem less_asymm {m n : Option ExtendedNumber} (h : Less m n) : ¬ Less n m := by
  intro ⟨y', x', hn', hm', hlt'⟩
  obtain ⟨x, y, hm, hn, hlt⟩ := h
  rw [hm, Option.some.injEq] at hm'
  rw [hn, Option.some.injEq] at hn'
  subst hm' hn'
  exact absurd hlt' (not_lt_of_gt hlt)

theorem less_trans {l m n : Option ExtendedNumber} (h : Less l m) (h' : Less m n) : Less l n := by
  obtain ⟨x, y, hl, hm, hlt⟩ := h
  obtain ⟨y', z, hm', hn, hlt'⟩ := h'
  rw [hm, Option.some.injEq] at hm'
  subst hm'
  exact ⟨x, z, hl, hn, hlt.trans hlt'⟩

theorem less_some_iff {x y : ExtendedNumber} : Less (some x) (some y) ↔ x < y := by
  constructor
  · intro ⟨x', y', hx, hy, hlt⟩
    cases hx
    cases hy
    exact hlt
  · intro hlt
    exact ⟨x, y, rfl, rfl, hlt⟩

theorem less_coe_iff {x y : Rat} :
    Less (some (((x : WithTop Rat)) : ExtendedNumber)) (some ((y : WithTop Rat) : ExtendedNumber)) ↔ x < y := by
  rw [less_some_iff, WithBot.coe_lt_coe, WithTop.coe_lt_coe]

theorem precedes_iff_less (hp : p ≠ .undefined) (h : ¬ (IsString p ∧ IsString q)) :
    Precedes engine p q ↔ Less (engine.toNumber p) (engine.toNumber q) := by
  cases p with
  | undefined => exact absurd rfl hp
  | string s =>
    cases q with
    | string t => exact absurd ⟨trivial, trivial⟩ h
    | _ => rfl
  | _ => cases q <;> rfl

theorem precedes_undefined (hq : q ≠ .undefined) : Precedes engine .undefined q := by
  cases q <;> exact hq

theorem eq_of_tied (h : Tied engine p q) (hstrings : ¬ (IsString p ∧ IsString q)) : p = q := by
  cases p with
  | string s =>
    cases q with
    | string t => exact absurd ⟨trivial, trivial⟩ hstrings
    | _ => cases h
  | _ => exact h

theorem precedes_ne_undefined (h : Precedes engine p q) : q ≠ .undefined := by
  rintro rfl
  cases p with
  | undefined => exact h rfl
  | _ =>
    obtain ⟨x, y, hx, hy, hlt⟩ := h
    cases hy

theorem not_precedes_of_tied (h : Tied engine p q) : ¬ Precedes engine p q := by
  intro hlt
  cases p with
  | string s =>
    cases q with
    | string t =>
      rw [Precedes, show engine.compare s t = .eq from h] at hlt
      cases hlt
    | _ => cases h
  | undefined =>
    cases h
    exact hlt rfl
  | _ =>
    cases h
    exact less_asymm hlt hlt

theorem baseOrder_eq_eq_iff : baseOrder engine p q = .eq ↔ Tied engine p q := by
  unfold baseOrder
  split
  · simpa
  · split <;> simpa

theorem baseOrder_eq_lt_iff : baseOrder engine p q = .lt ↔ Precedes engine p q := by
  unfold baseOrder
  split
  · rename_i htied
    exact iff_of_false (by simp) (not_precedes_of_tied htied)
  · split <;> simpa

theorem eq_baseOrder {o : Ordering} (htied : o = .eq ↔ Tied engine p q) (hprecedes : o = .lt ↔ Precedes engine p q) :
    o = baseOrder engine p q := by
  rw [← baseOrder_eq_eq_iff] at htied
  rw [← baseOrder_eq_lt_iff] at hprecedes
  revert htied hprecedes
  cases o <;> cases baseOrder engine p q <;> simp

section Collator

variable [Std.TransCmp engine.compare]

theorem tied_equivalence : Equivalence (Tied engine) := by
  refine ⟨?_, ?_, ?_⟩
  · intro p
    cases p with
    | string s => exact Std.ReflCmp.compare_self
    | _ => rfl
  · intro p q h
    cases p with
    | string s =>
      cases q with
      | string t => exact Std.OrientedCmp.eq_symm h
      | _ => cases h
    | _ =>
      cases h
      rfl
  · intro p q r hpq hqr
    cases p with
    | string s =>
      cases q with
      | string t =>
        cases r with
        | string u => exact Std.TransCmp.eq_trans hpq hqr
        | _ => cases hqr
      | _ => cases hpq
    | _ =>
      cases hpq
      exact hqr

theorem precedes_asymm (h : Precedes engine p q) : ¬ Precedes engine q p := by
  intro h'
  by_cases hstrings : IsString p ∧ IsString q
  · cases p with
    | string s =>
      cases q with
      | string t =>
        have hgt : engine.compare t s = .gt := Std.OrientedCmp.gt_iff_lt.mpr h
        rw [Precedes, hgt] at h'
        cases h'
      | _ => exact hstrings.2
    | _ => exact hstrings.1
  · have hq := precedes_ne_undefined h
    rw [precedes_iff_less (precedes_ne_undefined h') hstrings] at h
    rw [precedes_iff_less hq fun hboth => hstrings hboth.symm] at h'
    exact less_asymm h h'

theorem precedes_trans_of_strings (hp : IsString p) (hq : IsString q) (hr : IsString r) (hpq : Precedes engine p q)
    (hqr : Precedes engine q r) : Precedes engine p r := by
  cases p with
  | string s =>
    cases q with
    | string t =>
      cases r with
      | string u => exact Std.TransCmp.lt_trans hpq hqr
      | _ => cases hr
    | _ => cases hq
  | _ => cases hp

theorem commensurable_iff : Commensurable engine p q ↔ Tied engine p q ∨ Precedes engine p q ∨ Precedes engine q p := by
  cases p with
  | undefined => cases q <;> simp [Commensurable, Tied, Precedes]
  | null => cases q <;> simp [Commensurable, Tied, Precedes]
  | bool b =>
    cases q with
    | bool c => cases b <;> cases c <;> simp [Commensurable, Tied, Precedes, Engine.toNumber, less_some_iff]
    | _ => simp [Commensurable, Tied, Precedes]
  | number x =>
    cases q with
    | number y =>
      refine iff_of_true trivial ?_
      obtain hlt | heq | hgt := lt_trichotomy x y
      · exact .inr (.inl (less_coe_iff.mpr hlt))
      · exact .inl (congrArg Engine.Primitive.number heq)
      · exact .inr (.inr (less_coe_iff.mpr hgt))
    | _ => simp [Commensurable, Tied, Precedes]
  | string s =>
    cases q with
    | string t =>
      refine iff_of_true trivial ?_
      cases hcompare : engine.compare s t with
      | lt => exact .inr (.inl hcompare)
      | eq => exact .inl hcompare
      | gt => exact .inr (.inr (Std.OrientedCmp.gt_iff_lt.mp hcompare))
    | _ => simp [Commensurable, Tied, Precedes]

theorem baseOrder_swap_iff : baseOrder engine p q = (baseOrder engine q p).swap ↔ Commensurable engine p q := by
  rw [commensurable_iff]
  cases hpq : baseOrder engine p q with
  | eq =>
    have htied := baseOrder_eq_eq_iff.mp hpq
    rw [baseOrder_eq_eq_iff.mpr (tied_equivalence.symm htied)]
    exact iff_of_true rfl (.inl htied)
  | lt =>
    have hlt := baseOrder_eq_lt_iff.mp hpq
    refine iff_of_true ?_ (.inr (.inl hlt))
    cases hqp : baseOrder engine q p with
    | gt => rfl
    | eq => exact absurd hlt (not_precedes_of_tied (tied_equivalence.symm (baseOrder_eq_eq_iff.mp hqp)))
    | lt => exact absurd (baseOrder_eq_lt_iff.mp hqp) (precedes_asymm hlt)
  | gt =>
    have hnottied : ¬ Tied engine p q := by
      rw [← baseOrder_eq_eq_iff, hpq]
      decide
    have hnotlt : ¬ Precedes engine p q := by
      rw [← baseOrder_eq_lt_iff, hpq]
      decide
    rw [or_iff_right hnottied, or_iff_right hnotlt, ← baseOrder_eq_lt_iff]
    cases baseOrder engine q p <;> decide

/-- A cycle is one of two strings and a value that is none. -/
theorem straddles_of_cycle (hpr : Commensurable engine p r) (hpq : Precedes engine p q) (hqr : Precedes engine q r)
    (hnot : ¬ Precedes engine p r) : Straddles engine p q r ∨ Straddles engine q r p ∨ Straddles engine r p q := by
  by_cases hends : IsString p ∧ IsString r
  · by_cases hq : IsString q
    · exact absurd (precedes_trans_of_strings hends.1 hq hends.2 hpq hqr) hnot
    · exact .inl ⟨⟨hends.1, hq, hends.2⟩, hpq, hqr⟩
  · have hp : p ≠ .undefined := by
      rintro rfl
      exact hnot (precedes_undefined (precedes_ne_undefined hqr))
    have hrp : Precedes engine r p := by
      obtain htied | hlt | hlt := commensurable_iff.mp hpr
      · rw [eq_of_tied htied hends] at hpq
        exact absurd hqr (precedes_asymm hpq)
      · exact absurd hlt hnot
      · exact hlt
    by_cases hleft : IsString p ∧ IsString q
    · exact .inr (.inl ⟨⟨hleft.2, fun hr => hends ⟨hleft.1, hr⟩, hleft.1⟩, hqr, hrp⟩)
    · by_cases hright : IsString q ∧ IsString r
      · exact .inr (.inr ⟨⟨hright.2, fun hp => hends ⟨hp, hright.2⟩, hright.1⟩, hrp, hpq⟩)
      · -- all of them are numbers
        have hq := precedes_ne_undefined hpq
        rw [precedes_iff_less hp hleft] at hpq
        rw [precedes_iff_less hq hright] at hqr
        exact absurd ((precedes_iff_less hp hends).mpr (less_trans hpq hqr)) hnot

end Collator

theorem order_eq_lt_iff (h : ¬ (IsString p ∧ IsString q)) :
    engine.order p q = some .lt ↔ Less (engine.toNumber p) (engine.toNumber q) := by
  unfold Engine.order
  split
  · exact absurd ⟨trivial, trivial⟩ h
  · cases hm : engine.toNumber p with
    | none => simp [Less]
    | some m =>
      cases hn : engine.toNumber q with
      | none => simp [Less]
      | some n =>
        simp only [Option.some.injEq]
        rw [less_some_iff, compareOfLessAndEq_eq_lt]

theorem ite_order_eq_baseOrder (hp : p ≠ .undefined) (h : ¬ (IsString p ∧ IsString q)) (hnot : ¬ Tied engine p q) :
    (if engine.order p q = some .lt then .lt else .gt) = baseOrder engine p q := by
  apply eq_baseOrder
  · refine iff_of_false ?_ hnot
    split <;> decide
  · rw [precedes_iff_less hp h, ← order_eq_lt_iff h]
    split <;> simpa

theorem compare_eq_baseOrder (x y : Rat) : compare x y = baseOrder engine (.number x) (.number y) := by
  apply eq_baseOrder
  · rw [compare_eq_iff_eq]
    exact (Engine.Primitive.number.injEq x y).symm ▸ Iff.rfl
  · rw [compare_lt_iff_lt]
    exact less_coe_iff.symm

theorem ite_bool_eq_baseOrder (b c : Bool) :
    (if b = c then .eq else if b = false then .lt else .gt) = baseOrder engine (.bool b) (.bool c) := by
  apply eq_baseOrder
  · cases b <;> cases c <;> simp [Tied]
  · cases b <;> cases c <;> simp [Precedes, Engine.toNumber, less_some_iff]

/-- The value as it is read. -/
def memberOf : Engine.Primitive → Option Member
  | .undefined => none
  | .null => some (.value .null)
  | .bool b => some (.value (.bool b))
  | .number n => some (.value (.number n))
  | .string s => some (.value (.string s))

theorem eq_memberOf {x : Option Member} (h : primitiveOf x = some p) : x = memberOf p := by
  unfold primitiveOf at h
  split at h
  all_goals
    cases h
    try rfl

theorem baseComparer_eq_baseOrder [Std.TransCmp engine.compare] (p q : Engine.Primitive) :
    baseComparer engine (memberOf p) (memberOf q) = .ok (baseOrder engine p q) := by
  have htied : ∀ {p q}, Tied engine p q → (.ok .eq : Except Error Ordering) = .ok (baseOrder engine p q) :=
    fun h => congrArg Except.ok (baseOrder_eq_eq_iff.mpr h).symm
  have hmissing : ∀ {p}, p ≠ .undefined → (.ok .gt : Except Error Ordering) = .ok (baseOrder engine p .undefined) := by
    intro p hp
    refine congrArg Except.ok (eq_baseOrder (iff_of_false (by decide) fun htied => ?_) (iff_of_false (by decide) fun hlt => ?_))
    · exact hp (eq_of_tied htied (by simp [IsString]))
    · exact precedes_ne_undefined hlt rfl
  cases p with
  | undefined =>
    cases q with
    | undefined => exact htied rfl
    | _ => exact congrArg Except.ok (baseOrder_eq_lt_iff.mpr (precedes_undefined (by simp))).symm
  | null =>
    cases q with
    | undefined => exact hmissing (by simp)
    | null => exact htied rfl
    | _ =>
      rw [← ite_order_eq_baseOrder (by simp) (by simp [IsString]) (by simp [Tied])]
      rfl
  | bool b =>
    cases q with
    | undefined => exact hmissing (by simp)
    | bool c => exact congrArg Except.ok (ite_bool_eq_baseOrder b c)
    | _ =>
      rw [← ite_order_eq_baseOrder (by simp) (by simp [IsString]) (by simp [Tied])]
      rfl
  | number x =>
    cases q with
    | undefined => exact hmissing (by simp)
    | number y => exact congrArg Except.ok (compare_eq_baseOrder x y)
    | _ =>
      rw [← ite_order_eq_baseOrder (by simp) (by simp [IsString]) (by simp [Tied])]
      rfl
  | string s =>
    cases q with
    | undefined => exact hmissing (by simp)
    | string t =>
      refine congrArg Except.ok (eq_baseOrder ?_ ?_)
      · split
        · rename_i heq
          subst heq
          exact iff_of_true rfl (tied_equivalence.refl _)
        · rfl
      · split
        · rename_i heq
          subst heq
          exact iff_of_false (by decide) (not_precedes_of_tied (tied_equivalence.refl _))
        · rfl
    | _ =>
      rw [← ite_order_eq_baseOrder (by simp) (by simp [IsString]) (by simp [Tied])]
      rfl

/-! ### Comparing objects -/

noncomputable def keyOrder (engine : Engine) (depth : Nat) (h : Heap) (key : ObjectFilterProperties × SortOrder)
    (a b : Ref) : Ordering :=
  match key.2 with
  | .asc => baseOrder engine (keyValue engine depth h key a) (keyValue engine depth h key b)
  | .desc => baseOrder engine (keyValue engine depth h key b) (keyValue engine depth h key a)

variable {h : Heap} {key : ObjectFilterProperties × SortOrder} {keys : List (ObjectFilterProperties × SortOrder)}
  {a b c : Ref}

theorem keyOrder_eq_lt_iff : keyOrder engine depth h key a b = .lt ↔
    Ahead engine key.2 (keyValue engine depth h key a) (keyValue engine depth h key b) := by
  obtain ⟨props, order⟩ := key
  cases order with
  | asc => exact baseOrder_eq_lt_iff
  | desc => exact baseOrder_eq_lt_iff

theorem ahead_of_straddlesIn {order : SortOrder} (hstraddles : StraddlesIn engine order p q r) :
    Ahead engine order p q ∧ Ahead engine order q r := by
  cases order with
  | asc => exact hstraddles.2
  | desc => exact hstraddles.2.symm

section Collator

variable [Std.TransCmp engine.compare]

theorem ties_keyOrder_iff : Ties (keyOrder engine depth h key) a b ↔
    Tied engine (keyValue engine depth h key a) (keyValue engine depth h key b) := by
  obtain ⟨props, order⟩ := key
  cases order with
  | asc => exact baseOrder_eq_eq_iff
  | desc => exact baseOrder_eq_eq_iff.trans ⟨tied_equivalence.symm, tied_equivalence.symm⟩

theorem ties_equivalence : Equivalence (Ties (keyOrder engine depth h key)) := by
  refine ⟨?_, ?_, ?_⟩
  · intro a
    exact ties_keyOrder_iff.mpr (tied_equivalence.refl _)
  · intro a b hab
    rw [ties_keyOrder_iff] at hab ⊢
    exact tied_equivalence.symm hab
  · intro a b c hab hbc
    rw [ties_keyOrder_iff] at hab hbc ⊢
    exact tied_equivalence.trans hab hbc

theorem keyOrder_swap_iff : keyOrder engine depth h key a b = (keyOrder engine depth h key b a).swap ↔
    Commensurable engine (keyValue engine depth h key a) (keyValue engine depth h key b) := by
  obtain ⟨props, order⟩ := key
  cases order with
  | asc => exact baseOrder_swap_iff
  | desc => exact (eq_comm.trans Ordering.swap_eq_iff_eq_swap).trans baseOrder_swap_iff

theorem before_iff : Before engine depth h keys a b ↔ lexOrder (keys.map (keyOrder engine depth h)) a b = .lt := by
  induction keys with
  | nil => exact iff_of_false not_false (by simp [lexOrder])
  | cons key keys ih => rw [Before, List.map_cons, lexOrder_eq_lt_iff, keyOrder_eq_lt_iff, ties_keyOrder_iff, ih]

theorem straddlesIn_of_cycle {order : SortOrder} (hpr : Commensurable engine p r) (hpq : Ahead engine order p q)
    (hqr : Ahead engine order q r) (hnot : ¬ Ahead engine order p r) :
    StraddlesIn engine order p q r ∨ StraddlesIn engine order q r p ∨ StraddlesIn engine order r p q := by
  cases order with
  | asc => exact straddles_of_cycle hpr hpq hqr hnot
  | desc =>
    have hrp : Commensurable engine r p := by
      rw [commensurable_iff] at hpr ⊢
      exact hpr.imp tied_equivalence.symm Or.symm
    obtain h | h | h := straddles_of_cycle hrp hqr hpq hnot
    · exact .inl h
    · exact .inr (.inr h)
    · exact .inr (.inl h)

/-- Strings on different sides of another value come in order exactly if elements in order are never in a cycle. -/
theorem cycles_iff (S : Set Ref) (hcommensurable : ∀ a ∈ S, ∀ b ∈ S,
      Commensurable engine (keyValue engine depth h key a) (keyValue engine depth h key b)) :
    (∀ a ∈ S, ∀ v ∈ S, ∀ b ∈ S, keyOrder engine depth h key a v = .lt → keyOrder engine depth h key v b = .lt →
      lexOrder ((key :: keys).map (keyOrder engine depth h)) a b = .lt) ↔
    ∀ a ∈ S, ∀ v ∈ S, ∀ b ∈ S,
      StraddlesIn engine key.2 (keyValue engine depth h key a) (keyValue engine depth h key v)
        (keyValue engine depth h key b) → Before engine depth h (key :: keys) a b := by
  constructor
  · intro hcycle a ha v hv b hb hstraddles
    obtain ⟨hav, hvb⟩ := ahead_of_straddlesIn hstraddles
    exact before_iff.mpr (hcycle a ha v hv b hb (keyOrder_eq_lt_iff.mpr hav) (keyOrder_eq_lt_iff.mpr hvb))
  · intro hbefore a ha v hv b hb hav hvb
    by_cases hab : keyOrder engine depth h key a b = .lt
    · exact lexOrder_of_lt hab
    · -- two elements in order by the key are not in the other order by all keys
      have hopposite : ∀ {a b}, a ∈ S → b ∈ S → keyOrder engine depth h key a b = .lt →
          ¬ Before engine depth h (key :: keys) b a := by
        intro a b ha hb hlt hba
        have hgt : keyOrder engine depth h key b a = .gt := by
          rw [keyOrder_swap_iff.mpr (hcommensurable b hb a ha), hlt]
          rfl
        rw [before_iff, List.map_cons, lexOrder_of_gt hgt] at hba
        cases hba
      obtain hstraddles | hstraddles | hstraddles := straddlesIn_of_cycle (hcommensurable a ha b hb)
        (keyOrder_eq_lt_iff.mp hav) (keyOrder_eq_lt_iff.mp hvb) (mt keyOrder_eq_lt_iff.mpr hab)
      · exact before_iff.mp (hbefore a ha v hv b hb hstraddles)
      · exact absurd (hbefore v hv b hb a ha hstraddles) (hopposite ha hv hav)
      · exact absurd (hbefore b hb a ha v hv hstraddles) (hopposite hv hb hvb)

theorem lexConsistent_iff (S : Set Ref) :
    LexConsistent (keys.map (keyOrder engine depth h)) S ↔ Consistent engine depth h keys S := by
  induction keys generalizing S with
  | nil => rfl
  | cons key keys ih =>
    rw [List.map_cons, LexConsistent, Consistent]
    simp only [keyOrder_swap_iff, ties_keyOrder_iff, ih]
    refine and_congr_right fun hcommensurable => ?_
    rw [← List.map_cons, cycles_iff S hcommensurable]

/-- Comparing objects whose values are missing or primitive returns, and goes by one key after the other. -/
theorem comparer_eq_lexOrder (ha : ∀ key ∈ keys, (primitiveOf (orderByValue engine depth h key.1 a)).isSome = true)
    (hb : ∀ key ∈ keys, (primitiveOf (orderByValue engine depth h key.1 b)).isSome = true) :
    comparer engine depth h keys a b = .ok (lexOrder (keys.map (keyOrder engine depth h)) a b) := by
  induction keys with
  | nil => rfl
  | cons key keys ih =>
    obtain ⟨props, order⟩ := key
    rw [List.forall_mem_cons] at ha hb
    obtain ⟨p, hp⟩ := Option.isSome_iff_exists.mp ha.1
    obtain ⟨q, hq⟩ := Option.isSome_iff_exists.mp hb.1
    have hvalueA : keyValue engine depth h (props, order) a = p := by
      rw [keyValue, hp, Option.getD_some]
    have hvalueB : keyValue engine depth h (props, order) b = q := by
      rw [keyValue, hq, Option.getD_some]
    unfold comparer
    rw [ih ha.2 hb.2, eq_memberOf hp, eq_memberOf hq]
    cases order with
    | asc =>
      simp only [baseComparer_eq_baseOrder, ok_bind, List.map_cons, lexOrder, keyOrder, hvalueA, hvalueB]
      cases baseOrder engine p q <;> rfl
    | desc =>
      simp only [baseComparer_eq_baseOrder, ok_bind, List.map_cons, lexOrder, keyOrder, hvalueA, hvalueB]
      cases baseOrder engine q p <;> rfl

theorem isTotalPreorder_iff_of_eq {compare : Ref → Ref → Except Error Ordering} {cmp : Ref → Ref → Ordering} {S : Set Ref}
    (heq : ∀ a ∈ S, ∀ b ∈ S, compare a b = .ok (cmp a b)) : IsTotalPreorder compare S ↔ TotalPreorderOn cmp S := by
  have hle : ∀ {a b}, a ∈ S → b ∈ S → ((∃ o, compare a b = .ok o ∧ o.isLE = true) ↔ (cmp a b).isLE = true) := by
    intro a b ha hb
    simp only [heq a ha b hb, Except.ok.injEq, exists_eq_left']
  constructor
  · intro h
    constructor
    · intro a ha b hb
      obtain ⟨o, hab, hba⟩ := h.swap b hb a ha
      rw [heq b hb a ha, Except.ok.injEq] at hab
      rw [heq a ha b hb, Except.ok.injEq] at hba
      rw [hba, hab]
    · intro a ha b hb c hc hab hbc
      exact (hle ha hc).mp (h.trans a ha b hb c hc ((hle ha hb).mpr hab) ((hle hb hc).mpr hbc))
  · intro h
    constructor
    · intro a ha b hb
      refine ⟨cmp a b, heq a ha b hb, ?_⟩
      rw [heq b hb a ha, h.swap b hb a ha]
    · intro a ha b hb c hc hab hbc
      exact (hle ha hc).mpr (h.trans a ha b hb c hc ((hle ha hb).mp hab) ((hle hb hc).mp hbc))

/-- The comparer of a query is a total preorder on objects whose values are missing or primitive exactly if values of different types can be told apart as numbers and strings on different sides of another value are in that order. -/
theorem isTotalPreorder_iff (h : Heap) (filter : Option DbObjectFilter) (S : Set Ref)
    (hprimitive : ∀ a ∈ S, ∀ key ∈ DbObjectFilter.orderBy filter,
      (primitiveOf (orderByValue engine depth h key.1 a)).isSome = true)
    {compare : Ref → Ref → Except Error Ordering} (hcompare : getFilterComparer engine depth h filter = some compare) :
    IsTotalPreorder compare S ↔ Consistent engine depth h (DbObjectFilter.orderBy filter) S := by
  have hcomparer : compare = comparer engine depth h (DbObjectFilter.orderBy filter) := by
    rw [getFilterComparer] at hcompare
    split at hcompare
    · cases hcompare
    · exact (Option.some.inj hcompare).symm
  subst hcomparer
  rw [isTotalPreorder_iff_of_eq fun a ha b hb => comparer_eq_lexOrder (hprimitive a ha) (hprimitive b hb),
    totalPreorderOn_lexOrder_iff, lexConsistent_iff]
  intro cmp hmem
  obtain ⟨key, -, rfl⟩ := List.mem_map.mp hmem
  exact ties_equivalence

end Collator

/-- Lamps with the levels `null` and zero. -/
def leveledLamps : Heap := [plainCell "lamp" [(text "level", .null)], plainCell "bulb" [(text "level", .number 0)]]

def byLevel : DbObjectFilter :=
  { conditions := none, orderByProperties := some [(.dotted (text "level"), .asc)], skip := none, take := none }

def lampPair : Set Ref := {a | a = .address 0 ∨ a = .address 1}

theorem primitive_leveledLamps : ∀ a ∈ lampPair, ∀ key ∈ DbObjectFilter.orderBy (some byLevel),
    (primitiveOf (orderByValue bareEngine 8 leveledLamps key.1 a)).isSome = true := by
  intro a ha key hkey
  obtain rfl := List.mem_singleton.mp hkey
  obtain rfl | rfl := ha
  · rfl
  · rfl

theorem isTotalPreorder_iff_leveledLamps :
    IsTotalPreorder (comparer bareEngine 8 leveledLamps (DbObjectFilter.orderBy (some byLevel))) lampPair ↔
      Consistent bareEngine 8 leveledLamps (DbObjectFilter.orderBy (some byLevel)) lampPair :=
  have := transCmp_bareEngine
  isTotalPreorder_iff leveledLamps (some byLevel) lampPair primitive_leveledLamps rfl

/-- Each of the lamps comes behind the other one. -/
theorem not_isTotalPreorder_leveledLamps :
    ¬ ∀ (engine : Engine) [Std.TransCmp engine.compare] (depth : Nat) (h : Heap) (filter : Option DbObjectFilter)
      (S : Set Ref), (∀ a ∈ S, ∀ key ∈ DbObjectFilter.orderBy filter,
        (primitiveOf (orderByValue engine depth h key.1 a)).isSome = true) →
      ∀ compare, getFilterComparer engine depth h filter = some compare → IsTotalPreorder compare S := by
  intro h
  have := transCmp_bareEngine
  have hpreorder := h bareEngine 8 leveledLamps (some byLevel) lampPair primitive_leveledLamps _ rfl
  obtain ⟨o, hab, hba⟩ := hpreorder.swap (.address 0) (.inl rfl) (.address 1) (.inr rfl)
  have hbehind : comparer bareEngine 8 leveledLamps (DbObjectFilter.orderBy (some byLevel)) (.address 0) (.address 1) =
      .ok .gt := by
    decide +kernel
  have hbehind' : comparer bareEngine 8 leveledLamps (DbObjectFilter.orderBy (some byLevel)) (.address 1) (.address 0) =
      .ok .gt := by
    decide +kernel
  rw [hbehind] at hab
  cases hab
  rw [hbehind'] at hba
  cases hba

end InMemory

end Coaty
