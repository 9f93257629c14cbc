import Coaty.Db.InMemory.Atomicity
import Coaty.Db.InMemory.Find
import Mathlib.Algebra.BigOperators.Group.List.Basic
import Mathlib.Algebra.Order.Ring.Rat
import Mathlib.Data.Set.List

/-!
# Aggregating objects in memory

An aggregate is a left fold over the values that the matching objects have for a property. It starts with the first value, and goes on with whatever the operators of the language make of the aggregated and the current value, be they numbers or not.
-/

namespace Coaty

open Js Heap Value Evaluation

namespace InMemory

inductive AggregateOp where
  | max
  | min
  | sum
  | avg
  | every
  | some
deriving DecidableEq

/-- A value to aggregate: a number, which may be infinite or `NaN`, or a member that is none. -/
inductive Aggregated where
  | number (n : Option ExtendedNumber)
  | member (m : Option Member)

namespace Aggregated

def undefined : Aggregated := .member none

def ofRat (x : Rat) : Aggregated := .number (some (x : WithTop Rat))

def ofBool (b : Bool) : Aggregated := .member (some (.value (.bool b)))

def ofMember : Option Member → Aggregated
  | some (.value (.number x)) => ofRat x
  | m => .member m

variable (engine : Engine)

/-! ### Operators of the language -/

def isTruthy : Aggregated → Bool
  | .number none => false
  | .number (some n) => n ≠ ((0 : Rat) : WithTop Rat)
  | .member none => false
  | .member (some (.value v)) => Value.isTruthy (some v)
  | .member (some _) => true

def toNumber : Aggregated → Except Error (Option ExtendedNumber)
  | .number n => .ok n
  | .member m => do return engine.toNumber (← engine.toPrimitive m)

/-- A number in a string. -/
def numberText : Option ExtendedNumber → Text
  | none => text "NaN"
  | some none => text "-Infinity"
  | some (some none) => text "Infinity"
  | some (some (some x)) => engine.numberToString x

def primitiveText : Engine.Primitive → Text
  | .undefined => text "undefined"
  | .null => text "null"
  | .bool b => text (if b then "true" else "false")
  | .number x => engine.numberToString x
  | .string s => s

/-- An operand of `+`: whether it is a string, and how it reads as a string and as a number. -/
structure Operand where
  isString : Bool
  toText : Text
  toNumber : Option ExtendedNumber

def operand : Aggregated → Except Error Operand
  | .number n => .ok ⟨false, numberText engine n, n⟩
  | .member m => do
    let p ← engine.toPrimitive m
    let isString := match p with
      | .string _ => true
      | _ => false
    return ⟨isString, primitiveText engine p, engine.toNumber p⟩

/-- The sum of two numbers, which is `NaN` for infinite ones of different signs. -/
def addNumbers : Option ExtendedNumber → Option ExtendedNumber → Option ExtendedNumber
  | some (some (some x)), some (some (some y)) => some ((x + y : Rat) : WithTop Rat)
  | some none, some (some none) => none
  | some (some none), some none => none
  | some none, some _ => some none
  | some _, some none => some none
  | some (some none), some _ => some (some none)
  | some _, some (some none) => some (some none)
  | _, _ => none

/-- `av + cv` -/
def add (av cv : Aggregated) : Except Error Aggregated := do
  let a ← operand engine av
  let c ← operand engine cv
  if a.isString || c.isString then return .member (some (.value (.string (a.toText ++ c.toText))))
  else return .number (addNumbers a.toNumber c.toNumber)

/-- `Math.max` and `Math.min` of two values -/
def select (choose : ExtendedNumber → ExtendedNumber → ExtendedNumber) (av cv : Aggregated) : Except Error Aggregated := do
  let a ← toNumber engine av
  let c ← toNumber engine cv
  match a, c with
  | some a, some c => return .number (some (choose a c))
  | _, _ => return .number none

/-- `aggregatedValue / aggregatedCount` -/
def divide (aggregatedValue : Aggregated) (aggregatedCount : Nat) : Except Error Aggregated := do
  match ← toNumber engine aggregatedValue with
  | some (some (some x)) => return ofRat (x / aggregatedCount)
  | n => return .number n

end Aggregated

open Aggregated

variable (engine : Engine) (depth : Nat)

def getAggregator (aggregateOp : AggregateOp) (av cv : Aggregated) : Except Error Aggregated :=
  match av with
  | .member none => .ok cv
  | av =>
    match aggregateOp with
    | .avg => add engine av cv
    | .sum => add engine av cv
    | .max => select engine max av cv
    | .min => select engine min av cv
    | .every => .ok (if isTruthy av then cv else av)
    | .some => .ok (if isTruthy av then av else cv)

def aggregateValue (h : Heap) (aggregateProps : ObjectFilterProperties) (obj : Ref) : Aggregated :=
  ofMember ((h.view depth obj).bind (ObjectMatcher.getFilterPropertyValue engine aggregateProps))

/-- The loop over the objects of the collection. -/
def aggregateLoop (matcher : Option (Ref → Except Error Bool)) (value : Ref → Aggregated) (aggregateOp : AggregateOp) :
    List Ref → Aggregated → Nat → Except Error (Aggregated × Nat)
  | [], aggregatedValue, aggregatedCount => .ok (aggregatedValue, aggregatedCount)
  | obj :: objs, aggregatedValue, aggregatedCount => do
    if ← isMatch matcher obj then
      let aggregatedValue ← getAggregator engine aggregateOp aggregatedValue (value obj)
      aggregateLoop matcher value aggregateOp objs aggregatedValue (aggregatedCount + 1)
    else aggregateLoop matcher value aggregateOp objs aggregatedValue aggregatedCount

/-- What is made of the aggregated value of as many objects. -/
def finish (aggregateOp : AggregateOp) (aggregatedValue : Aggregated) (aggregatedCount : Nat) : Except Error Aggregated := do
  let aggregatedValue ←
    if aggregatedCount > 1 && aggregateOp = .avg then divide engine aggregatedValue aggregatedCount
    else .ok aggregatedValue
  return if aggregatedCount = 0 then undefined else aggregatedValue

def Database.aggregateObjects (db : Database) (collectionName : Text) (aggregateProps : ObjectFilterProperties)
    (aggregateOp : AggregateOp) (filter : Option Value) : Except Rejection Aggregated :=
  match db.collections.get collectionName with
  | none => .error (notExisting "aggregate objects in" collectionName)
  | some coll => Except.mapError .error do
    let (aggregatedValue, aggregatedCount) ← aggregateLoop engine (getFilterMatcher engine depth db.heap filter)
      (aggregateValue engine depth db.heap aggregateProps) aggregateOp coll.values undefined 0
    finish engine aggregateOp aggregatedValue aggregatedCount

/-! ### Operators on present values -/

/-- The values of the type that an operator is for. -/
def AggregateOp.HasType (aggregateOp : AggregateOp) (value : Aggregated) : Prop :=
  match aggregateOp with
  | .every => ∃ b, value = ofBool b
  | .some => ∃ b, value = ofBool b
  | _ => ∃ x, value = ofRat x

def numbers (values : List Aggregated) : List Rat :=
  values.filterMap fun value => match value with
    | .number (some (some (some x))) => some x
    | _ => none

def booleans (values : List Aggregated) : List Bool :=
  values.filterMap fun value => match value with
    | .member (some (.value (.bool b))) => some b
    | _ => none

/-- The operator applied to a list of values, and `undefined` if there is none. -/
def AggregateOp.apply (aggregateOp : AggregateOp) (values : List Aggregated) : Aggregated :=
  if values.isEmpty then undefined
  else match aggregateOp with
    | .max => (numbers values).max?.elim undefined ofRat
    | .min => (numbers values).min?.elim undefined ofRat
    | .sum => ofRat (numbers values).sum
    | .avg => ofRat ((numbers values).sum / values.length)
    | .every => ofBool ((booleans values).all id)
    | .some => ofBool ((booleans values).any id)

def isPresent : Aggregated → Bool
  | .member none => false
  | _ => true

/-- Whether the object matches, where matching does not fail. -/
def isMatching (matcher : Option (Ref → Except Error Bool)) (obj : Ref) : Bool :=
  match isMatch matcher obj with
  | .ok isMatch => isMatch
  | .error _ => false

def matchingValues (db : Database) (coll : Collection) (aggregateProps : ObjectFilterProperties) (filter : Option Value) :
    List Aggregated :=
  (coll.values.filter (isMatching (getFilterMatcher engine depth db.heap filter))).map
    (aggregateValue engine depth db.heap aggregateProps)

/-- In whatever order the objects of the collection have been inserted, the aggregate is the operator applied to the present values of those that match. -/
def AggregatesPresent (db : Database) (collectionName : Text) (coll : Collection) (aggregateProps : ObjectFilterProperties)
    (aggregateOp : AggregateOp) (filter : Option Value) : Prop :=
  ∀ reordered : Collection, reordered.entries.Perm coll.entries →
    Database.aggregateObjects engine depth { db with collections := db.collections.set collectionName reordered }
        collectionName aggregateProps aggregateOp filter =
      .ok (aggregateOp.apply ((matchingValues engine depth db coll aggregateProps filter).filter isPresent))

/-- No value is missing, or the missing ones do not matter. -/
def AggregateOp.ToleratesMissing (aggregateOp : AggregateOp) (values : List Aggregated) : Prop :=
  (∀ value ∈ values, isPresent value = true) ∨
    match aggregateOp with
    | .avg => values = [undefined]
    | .every => (∀ value ∈ values, isPresent value = false) ∨ ofBool false ∈ values
    | .some => (∀ value ∈ values, isPresent value = false) ∨ ofBool true ∈ values
    | _ => ∀ value ∈ values, isPresent value = false

variable {engine} {depth} {aggregateOp : AggregateOp}

/-! ### The loop is a fold over the values of the matching objects -/

section Loop

variable {matcher : Option (Ref → Except Error Bool)} {value : Ref → Aggregated} {objs : List Ref}

theorem aggregateLoop_eq (hreturns : ∀ obj ∈ objs, Returns (isMatch matcher obj)) (av : Aggregated) (count : Nat) :
    aggregateLoop engine matcher value aggregateOp objs av count = (do
      let av ← ((objs.filter (isMatching matcher)).map value).foldlM (getAggregator engine aggregateOp) av
      return (av, count + (objs.filter (isMatching matcher)).length)) := by
  induction objs generalizing av count with
  | nil => rfl
  | cons obj objs ih =>
    rw [List.forall_mem_cons] at hreturns
    obtain ⟨isMatch, hmatch⟩ := hreturns.1
    rw [aggregateLoop, hmatch, ok_bind]
    cases isMatch with
    | false =>
      have hnot : isMatching matcher obj = false := by
        rw [isMatching, hmatch]
      rw [if_neg Bool.false_ne_true, ih hreturns.2, List.filter_cons_of_neg (by simp [hnot])]
    | true =>
      have hmatching : isMatching matcher obj = true := by
        rw [isMatching, hmatch]
      rw [if_pos rfl, List.filter_cons_of_pos hmatching, List.map_cons, List.foldlM_cons, List.length_cons]
      cases getAggregator engine aggregateOp av (value obj) with
      | error e => rfl
      | ok av =>
        rw [ok_bind, ok_bind, ih hreturns.2, Nat.add_right_comm, Nat.add_assoc]

theorem returns_of_aggregateLoop {av : Aggregated} {count : Nat}
    (h : Returns (aggregateLoop engine matcher value aggregateOp objs av count)) :
    ∀ obj ∈ objs, Returns (isMatch matcher obj) := by
  induction objs generalizing av count with
  | nil => simp
  | cons obj objs ih =>
    rw [aggregateLoop, returns_bind_iff] at h
    obtain ⟨isMatch, hmatch, h⟩ := h
    rw [List.forall_mem_cons]
    refine ⟨⟨isMatch, hmatch⟩, ?_⟩
    split at h
    · rw [returns_bind_iff] at h
      obtain ⟨av, -, h⟩ := h
      exact ih h
    · exact ih h

end Loop

/-! ### Folding numbers -/

/-- The operator for numbers is not one for booleans. -/
def AggregateOp.IsNumeric (aggregateOp : AggregateOp) : Prop := aggregateOp ≠ .every ∧ aggregateOp ≠ .some

def combine : AggregateOp → Rat → Rat → Rat
  | .max => max
  | .min => min
  | _ => (· + ·)

/-- `NaN` -/
def nan : Aggregated := .number none

theorem getAggregator_undefined (v : Aggregated) : getAggregator engine aggregateOp undefined v = .ok v := rfl

theorem getAggregator_ofRat (hnumeric : aggregateOp.IsNumeric) (x y : Rat) :
    getAggregator engine aggregateOp (ofRat x) (ofRat y) = .ok (ofRat (combine aggregateOp x y)) := by
  cases aggregateOp with
  | max =>
    rw [combine, ofRat, ofRat, ofRat, WithTop.coe_max, WithBot.coe_max]
    rfl
  | min =>
    rw [combine, ofRat, ofRat, ofRat, WithTop.coe_min, WithBot.coe_min]
    rfl
  | every => exact absurd rfl hnumeric.1
  | some => exact absurd rfl hnumeric.2
  | _ => rfl

/-- Numbers and missing values make `NaN` together. -/
theorem getAggregator_missing (hnumeric : aggregateOp.IsNumeric) (x : Rat) :
    getAggregator engine aggregateOp (ofRat x) undefined = .ok nan := by
  cases aggregateOp with
  | every => exact absurd rfl hnumeric.1
  | some => exact absurd rfl hnumeric.2
  | _ => rfl

theorem getAggregator_nan (hnumeric : aggregateOp.IsNumeric) : getAggregator engine aggregateOp nan undefined = .ok nan := by
  cases aggregateOp with
  | every => exact absurd rfl hnumeric.1
  | some => exact absurd rfl hnumeric.2
  | _ => rfl

theorem foldlM_ofRat (hnumeric : aggregateOp.IsNumeric) (x : Rat) (xs : List Rat) :
    (xs.map ofRat).foldlM (getAggregator engine aggregateOp) (ofRat x) =
      .ok (ofRat (xs.foldl (combine aggregateOp) x)) := by
  induction xs generalizing x with
  | nil => rfl
  | cons y xs ih => rw [List.map_cons, List.foldlM_cons, getAggregator_ofRat hnumeric, ok_bind, ih, List.foldl_cons]

theorem foldlM_undefined (count : Nat) :
    (List.replicate count undefined).foldlM (getAggregator engine aggregateOp) undefined = .ok undefined := by
  induction count with
  | zero => rfl
  | succ count ih => rw [List.replicate_succ, List.foldlM_cons, getAggregator_undefined, ok_bind, ih]

theorem foldlM_missing (hnumeric : aggregateOp.IsNumeric) (x : Rat) (count : Nat) :
    (List.replicate (count + 1) undefined).foldlM (getAggregator engine aggregateOp) (ofRat x) = .ok nan := by
  have hnan : ∀ count : Nat,
      (List.replicate count undefined).foldlM (getAggregator engine aggregateOp) nan = .ok nan := by
    intro count
    induction count with
    | zero => rfl
    | succ count ih => rw [List.replicate_succ, List.foldlM_cons, getAggregator_nan hnumeric, ok_bind, ih]
  rw [List.replicate_succ, List.foldlM_cons, getAggregator_missing hnumeric, ok_bind, hnan]

/-! ### Folding booleans -/

/-- The boolean that decides the result of the operator. -/
def AggregateOp.absorbing (aggregateOp : AggregateOp) : Bool := aggregateOp = .some

theorem getAggregator_absorbing (hboolean : aggregateOp = .every ∨ aggregateOp = .some) (v : Aggregated) :
    getAggregator engine aggregateOp (ofBool aggregateOp.absorbing) v = .ok (ofBool aggregateOp.absorbing) := by
  obtain rfl | rfl := hboolean <;> rfl

/-- Any other value is replaced by the next one. -/
theorem getAggregator_replaced (hboolean : aggregateOp = .every ∨ aggregateOp = .some) {av : Aggregated}
    (hav : av = undefined ∨ av = ofBool (!aggregateOp.absorbing)) (v : Aggregated) :
    getAggregator engine aggregateOp av v = .ok v := by
  obtain rfl | rfl := hav
  · rfl
  · obtain rfl | rfl := hboolean <;> rfl

theorem foldlM_absorbing (hboolean : aggregateOp = .every ∨ aggregateOp = .some) (values : List Aggregated) :
    values.foldlM (getAggregator engine aggregateOp) (ofBool aggregateOp.absorbing) =
      .ok (ofBool aggregateOp.absorbing) := by
  induction values with
  | nil => rfl
  | cons v values ih => rw [List.foldlM_cons, getAggregator_absorbing hboolean, ok_bind, ih]

section Booleans

variable (hboolean : aggregateOp = .every ∨ aggregateOp = .some) {values : List Aggregated}
  (hvalues : ∀ v ∈ values, v = undefined ∨ v = ofBool (!aggregateOp.absorbing) ∨ v = ofBool aggregateOp.absorbing)
include hboolean hvalues

theorem foldlM_of_mem (hmem : ofBool aggregateOp.absorbing ∈ values) {av : Aggregated}
    (hav : av = undefined ∨ av = ofBool (!aggregateOp.absorbing)) :
    values.foldlM (getAggregator engine aggregateOp) av = .ok (ofBool aggregateOp.absorbing) := by
  induction values generalizing av with
  | nil => cases hmem
  | cons v values ih =>
    rw [List.forall_mem_cons] at hvalues
    rw [List.foldlM_cons, getAggregator_replaced hboolean hav, ok_bind]
    obtain rfl | hmem := List.mem_cons.mp hmem
    · exact foldlM_absorbing hboolean values
    · obtain hv | hv | rfl := hvalues.1
      · exact ih hvalues.2 hmem (.inl hv)
      · exact ih hvalues.2 hmem (.inr hv)
      · exact foldlM_absorbing hboolean values

theorem foldlM_of_not_mem (hmem : ofBool aggregateOp.absorbing ∉ values) {av : Aggregated}
    (hav : av = undefined ∨ av = ofBool (!aggregateOp.absorbing)) :
    values.foldlM (getAggregator engine aggregateOp) av = .ok (values.getLastD av) := by
  induction values generalizing av with
  | nil => rfl
  | cons v values ih =>
    rw [List.forall_mem_cons] at hvalues
    rw [List.mem_cons, not_or] at hmem
    have hv : v = undefined ∨ v = ofBool (!aggregateOp.absorbing) := by
      obtain hv | hv | hv := hvalues.1
      · exact .inl hv
      · exact .inr hv
      · exact absurd hv.symm hmem.1
    rw [List.foldlM_cons, getAggregator_replaced hboolean hav, ok_bind, ih hvalues.2 hmem.2 hv, List.getLastD_cons]

end Booleans

/-! ### Aggregating values -/

/-- What the loop makes of the values of the matching objects. -/
def foldValues (engine : Engine) (aggregateOp : AggregateOp) (values : List Aggregated) : Except Error Aggregated := do
  finish engine aggregateOp (← values.foldlM (getAggregator engine aggregateOp) undefined) values.length

theorem finish_of_ne_avg (hop : aggregateOp ≠ .avg) (v : Aggregated) (count : Nat) :
    finish engine aggregateOp v (count + 1) = .ok v := by
  rw [finish, decide_eq_false hop, Bool.and_false, if_neg Bool.false_ne_true]
  rfl

theorem finish_avg (x : Rat) (count : Nat) :
    finish engine .avg (ofRat x) (count + 1) = .ok (ofRat (x / (count + 1 : Nat))) := by
  cases count with
  | zero =>
    rw [Nat.zero_add, Nat.cast_one, div_one]
    rfl
  | succ count => rfl

theorem finish_nan (count : Nat) : finish engine aggregateOp nan (count + 1) = .ok nan := by
  by_cases hop : aggregateOp = .avg
  · subst hop
    cases count <;> rfl
  · exact finish_of_ne_avg hop nan count

theorem numbers_map_ofRat (xs : List Rat) : numbers (xs.map ofRat) = xs := by
  induction xs with
  | nil => rfl
  | cons x xs ih => exact congrArg (x :: ·) ih

theorem foldl_add (x : Rat) (xs : List Rat) : xs.foldl (· + ·) x = (x :: xs).sum := by
  rw [List.sum_eq_foldl, List.foldl_cons, zero_add]

theorem apply_map_ofRat (hnumeric : aggregateOp.IsNumeric) (x : Rat) (xs : List Rat) :
    finish engine aggregateOp (ofRat (xs.foldl (combine aggregateOp) x)) (xs.length + 1) =
      .ok (aggregateOp.apply ((x :: xs).map ofRat)) := by
  have hnonempty : ((x :: xs).map ofRat).isEmpty = false := rfl
  unfold AggregateOp.apply
  rw [hnonempty, if_neg Bool.false_ne_true, numbers_map_ofRat, List.length_map, List.length_cons]
  cases aggregateOp with
  | max => exact finish_of_ne_avg (by decide) _ _
  | min => exact finish_of_ne_avg (by decide) _ _
  | sum =>
    rw [finish_of_ne_avg (by decide)]
    exact congrArg (fun x => Except.ok (ofRat x)) (foldl_add x xs)
  | avg =>
    rw [finish_avg]
    exact congrArg (fun y => Except.ok (ofRat (y / (xs.length + 1 : Nat)))) (foldl_add x xs)
  | every => exact absurd rfl hnumeric.1
  | some => exact absurd rfl hnumeric.2

theorem apply_map_ofRat_ne_nan (hnumeric : aggregateOp.IsNumeric) (x : Rat) (xs : List Rat) :
    aggregateOp.apply ((x :: xs).map ofRat) ≠ nan := by
  have hnonempty : ((x :: xs).map ofRat).isEmpty = false := rfl
  unfold AggregateOp.apply
  rw [hnonempty, if_neg Bool.false_ne_true, numbers_map_ofRat]
  cases aggregateOp with
  | every => exact absurd rfl hnumeric.1
  | some => exact absurd rfl hnumeric.2
  | _ =>
    intro heq
    cases heq

theorem foldValues_map_ofRat (hnumeric : aggregateOp.IsNumeric) (xs : List Rat) :
    foldValues engine aggregateOp (xs.map ofRat) = .ok (aggregateOp.apply (xs.map ofRat)) := by
  cases xs with
  | nil =>
    cases aggregateOp <;> rfl
  | cons x xs =>
    rw [foldValues, List.map_cons, List.foldlM_cons, getAggregator_undefined, ok_bind, foldlM_ofRat hnumeric, ok_bind,
      List.length_cons, List.length_map, apply_map_ofRat hnumeric, List.map_cons]

theorem foldValues_missing (hnumeric : aggregateOp.IsNumeric) (x : Rat) (xs : List Rat) (count : Nat) :
    foldValues engine aggregateOp ((x :: xs).map ofRat ++ List.replicate (count + 1) undefined) = .ok nan := by
  rw [foldValues, List.foldlM_append, List.map_cons, List.foldlM_cons, getAggregator_undefined, ok_bind,
    foldlM_ofRat hnumeric, ok_bind, foldlM_missing hnumeric, ok_bind, List.length_append, List.length_replicate,
    ← Nat.add_assoc, finish_nan]

theorem foldValues_undefined (hop : aggregateOp ≠ .avg) (count : Nat) :
    foldValues engine aggregateOp (List.replicate count undefined) = .ok undefined := by
  rw [foldValues, foldlM_undefined, ok_bind, List.length_replicate]
  cases count with
  | zero => cases aggregateOp <;> rfl
  | succ count => exact finish_of_ne_avg hop undefined count

theorem foldValues_avg_undefined (count : Nat) :
    foldValues engine .avg (List.replicate (count + 2) undefined) = .ok nan := by
  rw [foldValues, foldlM_undefined, ok_bind, List.length_replicate]
  rfl

/-! ### Present values -/

theorem perm_apply {values values' : List Aggregated} (h : values'.Perm values) :
    aggregateOp.apply values' = aggregateOp.apply values := by
  have hnumbers : (numbers values').Perm (numbers values) := h.filterMap _
  have hbooleans : (booleans values').Perm (booleans values) := h.filterMap _
  have hmax : (numbers values').max? = (numbers values).max? := by
    apply Option.ext
    intro x
    simp only [List.max?_eq_some_iff, hnumbers.mem_iff]
  have hmin : (numbers values').min? = (numbers values).min? := by
    apply Option.ext
    intro x
    simp only [List.min?_eq_some_iff, hnumbers.mem_iff]
  unfold AggregateOp.apply
  rw [h.isEmpty_eq, hmax, hmin, hnumbers.sum_eq, h.length_eq, hbooleans.all_eq,
    hbooleans.any_eq]

theorem eq_undefined {v : Aggregated} (h : isPresent v = false) : v = undefined := by
  unfold isPresent at h
  split at h
  · rfl
  · cases h

theorem eq_replicate_of_missing {values : List Aggregated} (h : ∀ v ∈ values, isPresent v = false) :
    values = List.replicate values.length undefined :=
  List.eq_replicate_of_mem fun v hmem => eq_undefined (h v hmem)

/-! ### Missing values -/

theorem ne_avg_of_boolean (hboolean : aggregateOp = .every ∨ aggregateOp = .some) : aggregateOp ≠ .avg := by
  obtain rfl | rfl := hboolean <;> decide

theorem booleans_map_ofBool (bs : List Bool) : booleans (bs.map ofBool) = bs := by
  induction bs with
  | nil => rfl
  | cons b bs ih => exact congrArg (b :: ·) ih

theorem apply_map_ofBool (hboolean : aggregateOp = .every ∨ aggregateOp = .some) {bs : List Bool} (hbs : bs ≠ []) :
    aggregateOp.apply (bs.map ofBool) =
      if aggregateOp.absorbing ∈ bs then ofBool aggregateOp.absorbing else ofBool (!aggregateOp.absorbing) := by
  have hnonempty : (bs.map ofBool).isEmpty = false := by
    rw [List.isEmpty_eq_false_iff]
    exact mt List.map_eq_nil_iff.mp hbs
  unfold AggregateOp.apply
  rw [hnonempty, if_neg Bool.false_ne_true, booleans_map_ofBool]
  obtain rfl | rfl := hboolean
  · show ofBool (bs.all id) = if false ∈ bs then ofBool false else ofBool true
    split
    · rename_i hmem
      exact congrArg ofBool (List.all_eq_false.mpr ⟨false, hmem, by decide⟩)
    · rename_i hmem
      refine congrArg ofBool (List.all_eq_true.mpr fun b hb => ?_)
      cases b with
      | true => rfl
      | false => exact absurd hb hmem
  · show ofBool (bs.any id) = if true ∈ bs then ofBool true else ofBool false
    split
    · rename_i hmem
      exact congrArg ofBool (List.any_eq_true.mpr ⟨true, hmem, rfl⟩)
    · rename_i hmem
      refine congrArg ofBool (List.any_eq_false.mpr fun b hb => ?_)
      cases b with
      | false => decide
      | true => exact absurd hb hmem

section Missing

variable {values : List Aggregated} (htyped : ∀ v ∈ values, isPresent v = true → aggregateOp.HasType v)

theorem perm_toleratesMissing {values' : List Aggregated} (hperm : values'.Perm values)
    (h : aggregateOp.ToleratesMissing values) : aggregateOp.ToleratesMissing values' := by
  have hall : ∀ {P : Aggregated → Prop}, (∀ v ∈ values, P v) → ∀ v ∈ values', P v :=
    fun h v hmem => h v (hperm.mem_iff.mp hmem)
  obtain h | h := h
  · exact .inl (hall h)
  · right
    cases aggregateOp with
    | avg =>
      subst h
      exact hperm.eq_singleton
    | every => exact h.imp hall hperm.mem_iff.mpr
    | some => exact h.imp hall hperm.mem_iff.mpr
    | _ => exact hall h

theorem toleratesMissing_boolean_iff (hboolean : aggregateOp = .every ∨ aggregateOp = .some) :
    aggregateOp.ToleratesMissing values ↔ (∀ v ∈ values, isPresent v = true) ∨
      (∀ v ∈ values, isPresent v = false) ∨ ofBool aggregateOp.absorbing ∈ values := by
  obtain rfl | rfl := hboolean <;> rfl

theorem exists_replicate_missing (hnot : ¬ ∀ v ∈ values, isPresent v = true) :
    ∃ count, values.filter (!isPresent ·) = List.replicate (count + 1) undefined := by
  have hmissing : values.filter (!isPresent ·) ≠ [] := by
    intro hnil
    rw [List.filter_eq_nil_iff] at hnil
    exact hnot fun v hmem => by simpa using hnil v hmem
  have hundefined : ∀ v ∈ values.filter (!isPresent ·), isPresent v = false := by
    intro v hmem
    simpa using (List.mem_filter.mp hmem).2
  obtain ⟨count, hcount⟩ := Nat.exists_eq_add_one_of_ne_zero (mt List.length_eq_zero_iff.mp hmissing)
  refine ⟨count, ?_⟩
  rw [← hcount]
  exact eq_replicate_of_missing hundefined

include htyped

theorem exists_numbers (hnumeric : aggregateOp.IsNumeric) :
    ∃ xs : List Rat, xs.map ofRat = values.filter isPresent := by
  rw [← Set.mem_range, Set.range_list_map]
  intro v hmem
  obtain ⟨hmem, hpresent⟩ := List.mem_filter.mp hmem
  have htype := htyped v hmem hpresent
  cases aggregateOp with
  | every => exact absurd rfl hnumeric.1
  | some => exact absurd rfl hnumeric.2
  | _ =>
    obtain ⟨x, rfl⟩ := htype
    exact Set.mem_range_self x

theorem foldValues_of_toleratesMissing_numeric (hnumeric : aggregateOp.IsNumeric)
    (h : aggregateOp.ToleratesMissing values) :
    foldValues engine aggregateOp values = .ok (aggregateOp.apply (values.filter isPresent)) := by
  obtain h | h := h
  · obtain ⟨xs, hxs⟩ := exists_numbers htyped hnumeric
    rw [List.filter_eq_self.mpr h] at hxs ⊢
    rw [← hxs]
    exact foldValues_map_ofRat hnumeric xs
  · have hmissing : (∀ v ∈ values, isPresent v = false) →
        aggregateOp.apply (values.filter isPresent) = undefined := by
      intro hnone
      rw [List.filter_eq_nil_iff.mpr fun v hmem => by simp [hnone v hmem]]
      rfl
    cases aggregateOp with
    | every => exact absurd rfl hnumeric.1
    | some => exact absurd rfl hnumeric.2
    | avg =>
      subst h
      rfl
    | _ =>
      rw [hmissing h, eq_replicate_of_missing h]
      exact foldValues_undefined (by decide) _

theorem toleratesMissing_of_foldValues_numeric (hnumeric : aggregateOp.IsNumeric)
    (h : foldValues engine aggregateOp (values.filter isPresent ++ values.filter (!isPresent ·)) =
      .ok (aggregateOp.apply (values.filter isPresent))) : aggregateOp.ToleratesMissing values := by
  by_cases hall : ∀ v ∈ values, isPresent v = true
  · exact .inl hall
  · obtain ⟨count, hreplicate⟩ := exists_replicate_missing hall
    obtain ⟨xs, hxs⟩ := exists_numbers htyped hnumeric
    rw [hreplicate, ← hxs] at h
    cases xs with
    | cons x xs =>
      rw [foldValues_missing hnumeric] at h
      exact absurd (Except.ok.inj h).symm (apply_map_ofRat_ne_nan hnumeric x xs)
    | nil =>
      have hnone : ∀ v ∈ values, isPresent v = false := by
        rw [List.map_nil, eq_comm, List.filter_eq_nil_iff] at hxs
        exact fun v hmem => by simpa using hxs v hmem
      have hself : values.filter (!isPresent ·) = values := by
        rw [List.filter_eq_self]
        intro v hmem
        rw [hnone v hmem]
        rfl
      cases aggregateOp with
      | every => exact absurd rfl hnumeric.1
      | some => exact absurd rfl hnumeric.2
      | avg =>
        cases count with
        | zero =>
          rw [hself] at hreplicate
          exact .inr hreplicate
        | succ count =>
          rw [List.map_nil, List.nil_append, foldValues_avg_undefined] at h
          cases Except.ok.inj h
      | _ => exact .inr hnone

theorem boolean_values (hboolean : aggregateOp = .every ∨ aggregateOp = .some) :
    ∀ v ∈ values, v = undefined ∨ v = ofBool (!aggregateOp.absorbing) ∨ v = ofBool aggregateOp.absorbing := by
  intro v hmem
  cases hpresent : isPresent v with
  | false => exact .inl (eq_undefined hpresent)
  | true =>
    have htype := htyped v hmem hpresent
    obtain rfl | rfl := hboolean
    · obtain ⟨b, rfl⟩ := htype
      cases b
      · exact .inr (.inr rfl)
      · exact .inr (.inl rfl)
    · obtain ⟨b, rfl⟩ := htype
      cases b
      · exact .inr (.inl rfl)
      · exact .inr (.inr rfl)

theorem exists_booleans (hboolean : aggregateOp = .every ∨ aggregateOp = .some) :
    ∃ bs : List Bool, bs.map ofBool = values.filter isPresent := by
  rw [← Set.mem_range, Set.range_list_map]
  intro v hmem
  obtain ⟨hmem, hpresent⟩ := List.mem_filter.mp hmem
  obtain rfl | rfl | rfl := boolean_values htyped hboolean v hmem
  · cases hpresent
  · exact Set.mem_range_self _
  · exact Set.mem_range_self _

theorem apply_of_mem (hboolean : aggregateOp = .every ∨ aggregateOp = .some)
    (hmem : ofBool aggregateOp.absorbing ∈ values) :
    aggregateOp.apply (values.filter isPresent) = ofBool aggregateOp.absorbing := by
  obtain ⟨bs, hbs⟩ := exists_booleans htyped hboolean
  have hpresent : ofBool aggregateOp.absorbing ∈ values.filter isPresent := List.mem_filter.mpr ⟨hmem, rfl⟩
  rw [← hbs] at hpresent ⊢
  rw [apply_map_ofBool hboolean (mt List.map_eq_nil_iff.mpr (List.ne_nil_of_mem hpresent)), if_pos]
  obtain ⟨b, hb, heq⟩ := List.mem_map.mp hpresent
  cases heq
  exact hb

theorem apply_of_not_mem (hboolean : aggregateOp = .every ∨ aggregateOp = .some)
    (hmem : ofBool aggregateOp.absorbing ∉ values) (hpresent : values.filter isPresent ≠ []) :
    aggregateOp.apply (values.filter isPresent) = ofBool (!aggregateOp.absorbing) := by
  obtain ⟨bs, hbs⟩ := exists_booleans htyped hboolean
  have hnot : aggregateOp.absorbing ∉ bs := by
    intro hb
    have hmem' : ofBool aggregateOp.absorbing ∈ values.filter isPresent := by
      rw [← hbs]
      exact List.mem_map_of_mem hb
    exact hmem (List.mem_filter.mp hmem').1
  rw [← hbs] at hpresent ⊢
  rw [apply_map_ofBool hboolean (mt List.map_eq_nil_iff.mpr hpresent), if_neg hnot]

omit htyped in
theorem foldValues_of_not_mem (hboolean : aggregateOp = .every ∨ aggregateOp = .some)
    (hvalues : ∀ v ∈ values, v = undefined ∨ v = ofBool (!aggregateOp.absorbing) ∨ v = ofBool aggregateOp.absorbing)
    (hmem : ofBool aggregateOp.absorbing ∉ values) :
    foldValues engine aggregateOp values = .ok (values.getLastD undefined) := by
  rw [foldValues, foldlM_of_not_mem hboolean hvalues hmem (.inl rfl), ok_bind]
  cases values with
  | nil => cases aggregateOp <;> rfl
  | cons v values => exact finish_of_ne_avg (ne_avg_of_boolean hboolean) _ _

theorem foldValues_of_toleratesMissing_boolean (hboolean : aggregateOp = .every ∨ aggregateOp = .some)
    (h : aggregateOp.ToleratesMissing values) :
    foldValues engine aggregateOp values = .ok (aggregateOp.apply (values.filter isPresent)) := by
  have hvalues := boolean_values htyped hboolean
  by_cases hmem : ofBool aggregateOp.absorbing ∈ values
  · obtain ⟨count, hcount⟩ := Nat.exists_eq_add_one_of_ne_zero (mt List.length_eq_zero_iff.mp (List.ne_nil_of_mem hmem))
    rw [foldValues, foldlM_of_mem hboolean hvalues hmem (.inl rfl), ok_bind, apply_of_mem htyped hboolean hmem, hcount,
      finish_of_ne_avg (ne_avg_of_boolean hboolean)]
  · rw [foldValues_of_not_mem hboolean hvalues hmem]
    congr 1
    rw [toleratesMissing_boolean_iff hboolean, or_iff_left hmem] at h
    obtain hall | hnone := h
    · cases values with
      | nil => rfl
      | cons v values =>
        have hlast : values.getLastD v ∈ v :: values := List.getLastD_mem_cons
        have hself : (v :: values).filter isPresent = v :: values := List.filter_eq_self.mpr hall
        rw [apply_of_not_mem htyped hboolean hmem (by rw [hself]; exact List.cons_ne_nil v values), List.getLastD_cons]
        obtain heq | heq | heq := hvalues _ hlast
        · have hpresent := hall _ hlast
          rw [heq] at hpresent
          cases hpresent
        · exact heq
        · exact absurd (heq ▸ hlast) hmem
    · have hnil : values.filter isPresent = [] := by
        rw [List.filter_eq_nil_iff]
        intro v hv
        rw [hnone v hv]
        exact Bool.false_ne_true
      rw [hnil]
      obtain heq | hlast := List.mem_cons.mp (List.getLastD_mem_cons (l := values) (a := undefined))
      · exact heq
      · exact eq_undefined (hnone _ hlast)

theorem toleratesMissing_of_foldValues_boolean (hboolean : aggregateOp = .every ∨ aggregateOp = .some)
    (h : foldValues engine aggregateOp (values.filter isPresent ++ values.filter (!isPresent ·)) =
      .ok (aggregateOp.apply (values.filter isPresent))) : aggregateOp.ToleratesMissing values := by
  rw [toleratesMissing_boolean_iff hboolean]
  by_cases hall : ∀ v ∈ values, isPresent v = true
  · exact .inl hall
  · by_cases hmem : ofBool aggregateOp.absorbing ∈ values
    · exact .inr (.inr hmem)
    · refine .inr (.inl ?_)
      by_contra hsome
      -- the last value is missing, but some value is present
      have hperm : (values.filter isPresent ++ values.filter (!isPresent ·)).Perm values :=
        List.filter_append_perm isPresent values
      have hvalues := boolean_values htyped hboolean
      rw [foldValues_of_not_mem hboolean (fun v hv => hvalues v (hperm.mem_iff.mp hv)) (mt hperm.mem_iff.mp hmem)] at h
      obtain ⟨count, hreplicate⟩ := exists_replicate_missing hall
      rw [hreplicate, List.replicate_succ', ← List.append_assoc, List.getLastD_concat] at h
      have hpresent : values.filter isPresent ≠ [] := by
        intro hnil
        rw [List.filter_eq_nil_iff] at hnil
        exact hsome fun v hv => by simpa using hnil v hv
      rw [apply_of_not_mem htyped hboolean hmem hpresent] at h
      cases h

end Missing

/-! ### Aggregates -/

theorem foldValues_of_toleratesMissing {values : List Aggregated}
    (htyped : ∀ v ∈ values, isPresent v = true → aggregateOp.HasType v) (h : aggregateOp.ToleratesMissing values) :
    foldValues engine aggregateOp values = .ok (aggregateOp.apply (values.filter isPresent)) := by
  by_cases hboolean : aggregateOp = .every ∨ aggregateOp = .some
  · exact foldValues_of_toleratesMissing_boolean htyped hboolean h
  · exact foldValues_of_toleratesMissing_numeric htyped (not_or.mp hboolean) h

theorem toleratesMissing_of_foldValues {values : List Aggregated}
    (htyped : ∀ v ∈ values, isPresent v = true → aggregateOp.HasType v)
    (h : foldValues engine aggregateOp (values.filter isPresent ++ values.filter (!isPresent ·)) =
      .ok (aggregateOp.apply (values.filter isPresent))) : aggregateOp.ToleratesMissing values := by
  by_cases hboolean : aggregateOp = .every ∨ aggregateOp = .some
  · exact toleratesMissing_of_foldValues_boolean htyped hboolean h
  · exact toleratesMissing_of_foldValues_numeric htyped (not_or.mp hboolean) h

variable {db : Database} {collectionName : Text} {coll : Collection} {aggregateProps : ObjectFilterProperties}
  {filter : Option Value}

theorem aggregateObjects_eq
    (hreturns : ∀ obj ∈ coll.values, Returns (isMatch (getFilterMatcher engine depth db.heap filter) obj)) :
    Database.aggregateObjects engine depth { db with collections := db.collections.set collectionName coll }
        collectionName aggregateProps aggregateOp filter =
      (foldValues engine aggregateOp (matchingValues engine depth db coll aggregateProps filter)).mapError .error := by
  rw [Database.aggregateObjects, Map.get_set, if_pos rfl, foldValues, matchingValues]
  simp only [aggregateLoop_eq hreturns, List.length_map, Nat.zero_add]
  cases List.foldlM (getAggregator engine aggregateOp) undefined _ with
  | error e => rfl
  | ok av => rfl

theorem returns_of_aggregateObjects {v : Aggregated}
    (h : Database.aggregateObjects engine depth { db with collections := db.collections.set collectionName coll }
      collectionName aggregateProps aggregateOp filter = .ok v) :
    ∀ obj ∈ coll.values, Returns (isMatch (getFilterMatcher engine depth db.heap filter) obj) := by
  rw [Database.aggregateObjects, Map.get_set, if_pos rfl] at h
  have hloop : Returns (aggregateLoop engine (getFilterMatcher engine depth db.heap filter)
      (aggregateValue engine depth db.heap aggregateProps) aggregateOp coll.values undefined 0) := by
    rw [mapError_eq_ok_iff] at h
    obtain ⟨result, hresult, -⟩ := returns_bind_iff.mp ⟨v, h⟩
    exact ⟨result, hresult⟩
  exact returns_of_aggregateLoop hloop

/-- The same objects, those with a value for the property first. -/
def presentFirst (engine : Engine) (depth : Nat) (db : Database) (coll : Collection)
    (aggregateProps : ObjectFilterProperties) : Collection :=
  let hasValue (entry : Text × Ref) : Bool := isPresent (aggregateValue engine depth db.heap aggregateProps entry.2)
  ⟨coll.entries.filter hasValue ++ coll.entries.filter (!hasValue ·),
    ((List.filter_append_perm hasValue coll.entries).map Prod.fst).nodup_iff.mpr coll.nodup⟩

theorem matchingValues_presentFirst :
    matchingValues engine depth db (presentFirst engine depth db coll aggregateProps) aggregateProps filter =
      (matchingValues engine depth db coll aggregateProps filter).filter isPresent ++
        (matchingValues engine depth db coll aggregateProps filter).filter (!isPresent ·) := by
  simp only [matchingValues, presentFirst, Map.values, List.map_append, List.filter_append, List.filter_map,
    List.filter_filter, Function.comp_def, Bool.and_comm]

theorem perm_matchingValues {reordered : Collection} (hperm : reordered.entries.Perm coll.entries) :
    (matchingValues engine depth db reordered aggregateProps filter).Perm
      (matchingValues engine depth db coll aggregateProps filter) :=
  ((hperm.map Prod.snd).filter _).map _

/-- An aggregate does not depend on the order of insertion, and is the operator applied to the present values, exactly if the filter can be evaluated for all objects and missing values do not matter. -/
theorem aggregatesPresent_iff (db : Database) (collectionName : Text) (coll : Collection)
    (aggregateProps : ObjectFilterProperties) (aggregateOp : AggregateOp) (filter : Option Value)
    (htyped : ∀ v ∈ matchingValues engine depth db coll aggregateProps filter, isPresent v = true → aggregateOp.HasType v) :
    AggregatesPresent engine depth db collectionName coll aggregateProps aggregateOp filter ↔
      (∀ obj ∈ coll.values, Returns (isMatch (getFilterMatcher engine depth db.heap filter) obj)) ∧
        aggregateOp.ToleratesMissing (matchingValues engine depth db coll aggregateProps filter) := by
  constructor
  · intro h
    have hreturns := returns_of_aggregateObjects (h coll (.refl _))
    refine ⟨hreturns, ?_⟩
    have hperm : (presentFirst engine depth db coll aggregateProps).entries.Perm coll.entries :=
      List.filter_append_perm _ coll.entries
    have haggregate := h _ hperm
    rw [aggregateObjects_eq fun obj hobj => hreturns obj ((hperm.map Prod.snd).mem_iff.mp hobj),
      mapError_eq_ok_iff, matchingValues_presentFirst] at haggregate
    exact toleratesMissing_of_foldValues htyped haggregate
  · intro ⟨hreturns, htolerates⟩ reordered hperm
    have hvalues : (matchingValues engine depth db reordered aggregateProps filter).Perm
        (matchingValues engine depth db coll aggregateProps filter) := perm_matchingValues hperm
    have hfold : foldValues engine aggregateOp (matchingValues engine depth db reordered aggregateProps filter) = _ :=
      foldValues_of_toleratesMissing (fun v hv => htyped v (hvalues.mem_iff.mp hv))
        (perm_toleratesMissing hvalues htolerates)
    rw [aggregateObjects_eq fun obj hobj => hreturns obj ((hperm.map Prod.snd).mem_iff.mp hobj), mapError_eq_ok_iff,
      hfold, perm_apply (hvalues.filter isPresent)]

/-- Two lamps, of which one has no level. -/
def dimmedLamps : Database where
  heap := [plainCell "lamp" [(text "level", .number 1)], plainCell "bulb" []]
  collections := Map.empty

def dimmed : Collection := (Map.empty.set (text "lamp") (.address 0)).set (text "bulb") (.address 1)

theorem typed_dimmed : ∀ v ∈ matchingValues bareEngine 8 dimmedLamps dimmed (.dotted (text "level")) none,
    isPresent v = true → AggregateOp.sum.HasType v := by
  have hvalues : matchingValues bareEngine 8 dimmedLamps dimmed (.dotted (text "level")) none = [ofRat 1, undefined] := rfl
  rw [hvalues, List.forall_mem_cons, List.forall_mem_singleton]
  exact ⟨fun _ => ⟨1, rfl⟩, nofun⟩

theorem aggregatesPresent_iff_dimmed :
    AggregatesPresent bareEngine 8 dimmedLamps (text "lamps") dimmed (.dotted (text "level")) .sum none ↔
      (∀ obj ∈ dimmed.values, Returns (isMatch (getFilterMatcher bareEngine 8 dimmedLamps.heap none) obj)) ∧
        AggregateOp.sum.ToleratesMissing (matchingValues bareEngine 8 dimmedLamps dimmed (.dotted (text "level")) none) :=
  aggregatesPresent_iff dimmedLamps (text "lamps") dimmed (.dotted (text "level")) .sum none typed_dimmed

/-- The sum of the levels is `NaN`. -/
theorem not_aggregatesPresent_of_missing :
    ¬ ∀ (engine : Engine) (depth : Nat) (db : Database) (collectionName : Text) (coll : Collection)
      (aggregateProps : ObjectFilterProperties) (aggregateOp : AggregateOp) (filter : Option Value),
      (∀ v ∈ matchingValues engine depth db coll aggregateProps filter, isPresent v = true → aggregateOp.HasType v) →
        AggregatesPresent engine depth db collectionName coll aggregateProps aggregateOp filter := by
  intro h
  have haggregate := h bareEngine 8 dimmedLamps (text "lamps") dimmed (.dotted (text "level")) .sum none typed_dimmed
    dimmed (.refl _)
  have hnan : Database.aggregateObjects bareEngine 8
      { dimmedLamps with collections := dimmedLamps.collections.set (text "lamps") dimmed } (text "lamps")
      (.dotted (text "level")) .sum none = .ok nan := rfl
  rw [hnan] at haggregate
  cases haggregate

end InMemory

end Coaty
