import Coaty.Db.FailingIteration
import Coaty.Db.InMemory.Atomicity
import Coaty.Db.InMemory.Find

/-!
# Queries as they are documented

A query is documented as a pipeline: the objects of the collection that match, in the order of the order-by properties, without those to skip and no more than those to take, and each of them copied and joined. Whatever fails on the way rejects the promise of the iteration. The loop of the in-memory database does this, but for three cases: a `take` of zero is no limit, what fails before the objects are in order is thrown, and a copy has no property `__proto__`.
-/

namespace Coaty

open Js Heap Value Evaluation

namespace InMemory

variable (engine : Engine) (depth : Nat) {E : Type}

/-! ### The order of the order-by properties -/

def rank : Option Member → Nat
  | none => 0
  | some (.value .null) => 1
  | some (.value (.bool _)) => 2
  | some (.value (.number _)) => 3
  | some (.value (.string _)) => 4
  | some _ => 5

def boolOf : Option Member → Bool
  | some (.value (.bool b)) => b
  | _ => false

def numberOf : Option Member → Rat
  | some (.value (.number n)) => n
  | _ => 0

def stringOf : Option Member → Text
  | some (.value (.string s)) => s
  | _ => []

/-- The order of values, of which `undefined` comes first. Numbers are in the order of their size and strings in that of the collator. -/
def valueOrder : Option Member → Option Member → Ordering :=
  compareLex (fun x y => compare (rank x) (rank y))
    (compareLex (fun x y => compare (boolOf x) (boolOf y))
      (compareLex (fun x y => compare (numberOf x) (numberOf y))
        fun x y => engine.compare (stringOf x) (stringOf y)))

/-- The order of objects, by one property after the other. -/
def objectOrder (h : Heap) : List (ObjectFilterProperties × SortOrder) → Ref → Ref → Ordering
  | [] => fun _ _ => .eq
  | (props, .asc) :: orderByProperties =>
    compareLex (fun a b => valueOrder engine (orderByValue engine depth h props a) (orderByValue engine depth h props b))
      (objectOrder h orderByProperties)
  | (props, .desc) :: orderByProperties =>
    compareLex (fun a b => valueOrder engine (orderByValue engine depth h props b) (orderByValue engine depth h props a))
      (objectOrder h orderByProperties)

/-- Values of the same kind are comparable, and `undefined` is with all values. -/
def Comparable : Option Member → Option Member → Prop
  | none, _ => True
  | _, none => True
  | some (.value .null), some (.value .null) => True
  | some (.value (.bool _)), some (.value (.bool _)) => True
  | some (.value (.number _)), some (.value (.number _)) => True
  | some (.value (.string _)), some (.value (.string _)) => True
  | _, _ => False

/-! ### The pipeline -/

/-- The objects that match, up to one on which matching fails. -/
def hits (matcher : Option (Ref → Except Error Bool)) : List Ref → Rows Ref (Failure E)
  | [] => ⟨[], none⟩
  | obj :: objs =>
    match isMatch matcher obj with
    | .error e => Rows.failed (.error e)
    | .ok true => (hits matcher objs).cons obj
    | .ok false => hits matcher objs

/-- What an object that can be copied reads like, with the objects that are joined with it. -/
def contentOf (db : Database) (joinConditions : DbJoinConditions) (obj : Ref) : Except (Failure E) Value := do
  let _ ← (Deep.clone db.heap depth obj).mapError .error
  joinObjectProperties engine depth db ((db.heap.view depth obj).getD .null) joinConditions

/-- The objects that match are in order, if there is one. There is no order if matching fails. -/
def InOrder (h : Heap) (filter : Option DbObjectFilter) (matching ordered : Rows Ref (Failure E)) : Prop :=
  if DbObjectFilter.orderBy filter = [] then ordered = matching
  else
    match matching.failure with
    | some e => ordered = Rows.failed e
    | none => ordered.failure = none ∧
        Sorting.StablySorted (fun a b => (objectOrder engine depth h (DbObjectFilter.orderBy filter) a b).isLE = true)
          matching.values ordered.values

def matching (h : Heap) (objects : Collection) (filter : Option DbObjectFilter) : Rows Ref (Failure E) :=
  hits (getFilterMatcher engine depth h (filter.map DbObjectFilter.toValue)) objects.values

/-- The iteration is the one over the results of the pipeline. -/
def AsDocumented (db : Database) (objects : Collection) (filter : Option DbObjectFilter)
    (joinConditions : DbJoinConditions) (iterator : QueryIterator Value (Failure E)) (outcome : FindOutcome E) : Prop :=
  ∃ ordered, InOrder engine depth db.heap filter (matching engine depth db.heap objects filter) ordered ∧
    outcome = .settled (iterator.documentedUntil
      (((ordered.skip (DbObjectFilter.offset filter)).limit (filter.bind DbObjectFilter.take)).evaluate
        (contentOf engine depth db joinConditions)))

/-- The values that the objects are to be ordered by are comparable with each other. -/
def MutuallyComparable (h : Heap) (filter : Option DbObjectFilter) (objs : List Ref) : Prop :=
  ∀ order ∈ DbObjectFilter.orderBy filter,
    objs.Pairwise fun a b => Comparable (orderByValue engine depth h order.1 a) (orderByValue engine depth h order.1 b)

variable {engine} {depth}

/-! ### Comparing goes by the order -/

theorem transCmp_valueOrder [Std.TransCmp engine.compare] : Std.TransCmp (valueOrder engine) := by
  have hrank := Sorting.transCmp_comap (fun m n : Nat => compare m n) rank
  have hbool := Sorting.transCmp_comap (fun b c : Bool => compare b c) boolOf
  have hnumber := Sorting.transCmp_comap (fun m n : Rat => compare m n) numberOf
  have hstring := Sorting.transCmp_comap engine.compare stringOf
  unfold valueOrder
  infer_instance

theorem transCmp_objectOrder [Std.TransCmp engine.compare] (h : Heap)
    (orderByProperties : List (ObjectFilterProperties × SortOrder)) :
    Std.TransCmp (objectOrder engine depth h orderByProperties) := by
  have hvalues : Std.TransCmp (valueOrder engine) := transCmp_valueOrder
  induction orderByProperties with
  | nil => exact { eq_swap := rfl, isLE_trans := fun _ _ => rfl }
  | cons property orderByProperties ih =>
    obtain ⟨props, order⟩ := property
    cases order with
    | asc =>
      have hfirst := Sorting.transCmp_comap (valueOrder engine) (orderByValue engine depth h props)
      rw [objectOrder]
      infer_instance
    | desc =>
      have hfirst := Sorting.transCmp_reverse (valueOrder engine) (orderByValue engine depth h props)
      rw [objectOrder]
      infer_instance

theorem Comparable.symm {x y : Option Member} (hcomparable : Comparable x y) : Comparable y x := by
  unfold Comparable at hcomparable
  split at hcomparable
  · cases y <;> trivial
  · trivial
  · trivial
  · trivial
  · trivial
  · trivial
  · exact hcomparable.elim

theorem rank_some_pos (x : Member) : 0 < rank (some x) := by
  unfold rank
  split
  · rename_i heq
    cases heq
  all_goals decide

theorem baseComparer_eq [Std.TransCmp engine.compare] {x y : Option Member} (hcomparable : Comparable x y) :
    baseComparer engine x y = .ok (valueOrder engine x y) := by
  have hcollator : ∀ s, engine.compare s s = .eq := fun s => Std.ReflCmp.compare_self
  unfold Comparable at hcomparable
  split at hcomparable
  · cases y with
    | none => simp [baseComparer, valueOrder, compareLex, hcollator]
    | some y =>
      have hlt : compare (rank none) (rank (some y)) = .lt := Nat.compare_eq_lt.mpr (rank_some_pos y)
      rw [valueOrder, compareLex, hlt]
      rfl
  · rename_i hsome
    cases x with
    | none => exact absurd rfl hsome
    | some x =>
      have hgt : compare (rank (some x)) (rank none) = .gt := Nat.compare_eq_gt.mpr (rank_some_pos x)
      rw [valueOrder, compareLex, hgt]
      cases x with
      | value v => cases v <;> rfl
      | _ => rfl
  · simp [baseComparer, isSame, Deep.strictEquals, valueOrder, compareLex, boolOf, numberOf, stringOf, hcollator]
  · rename_i b c
    simp only [baseComparer, valueOrder, compareLex, rank, boolOf, numberOf, stringOf, hcollator]
    cases b <;> cases c <;> rfl
  · simp [baseComparer, valueOrder, compareLex, rank, boolOf, numberOf, stringOf, hcollator]
  · rename_i s t
    simp only [baseComparer, valueOrder, compareLex, rank, boolOf, numberOf, stringOf]
    split
    · rename_i heq
      simp [heq, hcollator]
    · simp
  · exact hcomparable.elim

theorem comparer_eq [Std.TransCmp engine.compare] {h : Heap}
    {orderByProperties : List (ObjectFilterProperties × SortOrder)} {a b : Ref}
    (hcomparable : ∀ order ∈ orderByProperties,
      Comparable (orderByValue engine depth h order.1 a) (orderByValue engine depth h order.1 b)) :
    comparer engine depth h orderByProperties a b = .ok (objectOrder engine depth h orderByProperties a b) := by
  induction orderByProperties with
  | nil => rfl
  | cons property orderByProperties ih =>
    obtain ⟨props, order⟩ := property
    rw [List.forall_mem_cons] at hcomparable
    obtain ⟨hfirst, hrest⟩ := hcomparable
    unfold comparer
    rw [ih hrest]
    cases order with
    | asc =>
      simp only [baseComparer_eq hfirst, ok_bind, objectOrder, compareLex]
      cases valueOrder engine (orderByValue engine depth h props a) (orderByValue engine depth h props b) <;> rfl
    | desc =>
      simp only [baseComparer_eq hfirst.symm, ok_bind, objectOrder, compareLex]
      cases valueOrder engine (orderByValue engine depth h props b) (orderByValue engine depth h props a) <;> rfl

/-! ### The loop goes through the pipeline -/

variable {matcher : Option (Ref → Except Error Bool)} {objs : List Ref}

theorem limit_cons_of_within {T : Type} {limit : Option Nat} {offset matchIndex : Nat} (hskip : offset ≤ matchIndex)
    (hwithin : (limit.all fun (limit : Nat) => (matchIndex : Int) - offset < limit) = true) {value : T}
    {rows : Rows T (Failure E)} :
    (rows.cons value).limit (limit.map (· - (matchIndex - offset))) =
      (rows.limit (limit.map (· - (matchIndex + 1 - offset)))).cons value := by
  cases limit with
  | none => rfl
  | some limit =>
    rw [Option.all_some, decide_eq_true_eq] at hwithin
    have hleft : limit - (matchIndex - offset) = limit - (matchIndex + 1 - offset) + 1 := by omega
    rw [Option.map_some, Option.map_some, hleft, Rows.limit_cons_succ]

/-- The loop over the objects does what the loop over the results of the pipeline does. -/
theorem settle_findLoop {T : Type} (result : Ref → Except (Failure E) T) (iterator : QueryIterator T (Failure E))
    (offset : Nat) (limit : Option Nat) (matchIndex : Nat) (s : Iteration T) :
    iterator.settle (findLoop matcher result iterator offset limit objs matchIndex s) =
      iterator.settle (iterator.loopRows s
        ((((hits matcher objs).skip (offset - matchIndex)).limit
          (limit.map (· - (matchIndex - offset)))).evaluate result)) := by
  induction objs generalizing matchIndex s with
  | nil =>
    rw [hits, Rows.evaluate_range_of_nil]
    rfl
  | cons obj objs ih =>
    rw [findLoop, hits]
    cases hmatch : isMatch matcher obj with
    | error e =>
      simp only [Rows.failed, Rows.evaluate_range_of_nil]
      rfl
    | ok matched =>
      cases matched with
      | false => exact ih matchIndex s
      | true =>
        simp only
        by_cases hskip : matchIndex < offset
        · have hnegative : ¬ ((matchIndex : Int) - offset ≥ 0) := by omega
          have hleft : offset - matchIndex = (offset - (matchIndex + 1)) + 1 := by omega
          have hcount : matchIndex - offset = matchIndex + 1 - offset := by omega
          rw [if_neg hnegative, ih, hleft, hcount, Rows.skip_cons_succ]
        · have hpositive : (matchIndex : Int) - offset ≥ 0 := by omega
          have hnone : offset - matchIndex = 0 := by omega
          have hnone' : offset - (matchIndex + 1) = 0 := by omega
          rw [if_pos hpositive, hnone, Rows.skip_zero]
          by_cases hwithin : (limit.all fun (limit : Nat) => (matchIndex : Int) - offset < limit) = true
          · rw [if_pos hwithin, limit_cons_of_within (by omega) hwithin, Rows.evaluate_cons]
            cases hresult : result obj with
            | error e => rfl
            | ok value =>
              simp only [QueryIterator.loopRows_cons]
              cases iterator.yield s value with
              | mk s' outcome =>
                cases outcome with
                | throw error => rfl
                | breakOff => rfl
                | proceed =>
                  simp only
                  rw [ih, hnone', Rows.skip_zero]
          · obtain ⟨most, rfl⟩ : ∃ most, limit = some most := by
              cases limit with
              | none => exact absurd rfl hwithin
              | some most => exact ⟨most, rfl⟩
            have hleft : most - (matchIndex - offset) = 0 := by
              rw [Option.all_some, decide_eq_true_eq] at hwithin
              omega
            rw [if_neg hwithin, Option.map_some, hleft, Rows.limit_zero_cons]
            rfl

/-! ### The objects that match -/

theorem hits_none (objs : List Ref) : hits none objs = (⟨objs, none⟩ : Rows Ref (Failure E)) := by
  induction objs with
  | nil => rfl
  | cons obj objs ih =>
    rw [hits, ih]
    rfl

theorem failure_hits_eq_none_iff :
    (hits matcher objs : Rows Ref (Failure E)).failure = none ↔ ∀ obj ∈ objs, Returns (isMatch matcher obj) := by
  induction objs with
  | nil => simp [hits]
  | cons obj objs ih =>
    rw [List.forall_mem_cons, ← ih, hits]
    cases hmatch : isMatch matcher obj with
    | error e => simp [Rows.failed]
    | ok matched => cases matched <;> simp [Rows.cons]

theorem objectsToOrder_of_returns (hreturns : (hits matcher objs : Rows Ref (Failure E)).failure = none) :
    objectsToOrder matcher objs = .ok (hits matcher objs : Rows Ref (Failure E)).values := by
  induction objs with
  | nil => rfl
  | cons obj objs ih =>
    rw [hits] at hreturns ⊢
    rw [objectsToOrder]
    cases hmatch : isMatch matcher obj with
    | error e => simp [hmatch, Rows.failed] at hreturns
    | ok matched =>
      simp only [hmatch] at hreturns
      cases matched with
      | false => exact ih hreturns
      | true =>
        simp only [ok_bind, if_true, ih hreturns]
        rfl

theorem objectsToOrder_of_fails (hfails : ¬ ∀ obj ∈ objs, Returns (isMatch matcher obj)) :
    ∃ e, objectsToOrder matcher objs = .error e := by
  induction objs with
  | nil => exact absurd (by simp) hfails
  | cons obj objs ih =>
    rw [objectsToOrder]
    cases hmatch : isMatch matcher obj with
    | error e => exact ⟨e, rfl⟩
    | ok matched =>
      obtain ⟨e, hrest⟩ := ih fun hall => hfails (List.forall_mem_cons.mpr ⟨⟨matched, hmatch⟩, hall⟩)
      refine ⟨e, ?_⟩
      cases matched with
      | false => exact hrest
      | true => simp only [ok_bind, if_true, hrest, error_bind]

/-! ### Copies -/

theorem copyOf_eq {h : Heap} (hplain : h.Plain) {obj : Ref} (hlossless : Deep.Lossless h depth obj) :
    copyOf depth h obj = (Deep.clone h depth obj).map fun _ => (h.view depth obj).getD .null := by
  rw [copyOf]
  cases hclone : Deep.clone h depth obj with
  | error e => rfl
  | ok outcome =>
    obtain ⟨copy, heap⟩ := outcome
    simp only [ok_bind, Deep.view_of_clone hplain hlossless hclone]
    rfl

theorem resultOf_eq_contentOf {db : Database} (hplain : db.heap.Plain) (joinConditions : DbJoinConditions) {obj : Ref}
    (hlossless : Deep.Lossless db.heap depth obj) :
    (resultOf engine depth db joinConditions obj : Except (Failure E) Value) =
      contentOf engine depth db joinConditions obj := by
  rw [resultOf, contentOf, copyOf_eq hplain hlossless]
  cases Deep.clone db.heap depth obj <;> rfl

theorem fails_of_not_copyable {db : Database} (joinConditions : DbJoinConditions) (obj : Ref)
    (hcopyable : (Deep.clone db.heap depth obj).isOk = false) :
    ∃ e : Failure E, resultOf engine depth db joinConditions obj = .error e ∧
      contentOf engine depth db joinConditions obj = .error e := by
  cases hclone : Deep.clone db.heap depth obj with
  | error e => exact ⟨.error e, by rw [resultOf, copyOf, hclone]; rfl, by rw [contentOf, hclone]; rfl⟩
  | ok outcome =>
    rw [hclone] at hcopyable
    cases hcopyable

/-- Without joins, an object that can be copied is handed over. -/
theorem results_of_copyable {db : Database} (obj : Ref) (hcopyable : (Deep.clone db.heap depth obj).isOk = true) :
    ∃ copy heap, Deep.clone db.heap depth obj = .ok (copy, heap) ∧
      (resultOf engine depth db .none obj : Except (Failure E) Value) = .ok ((heap.view depth copy).getD .null) ∧
      (contentOf engine depth db .none obj : Except (Failure E) Value) = .ok ((db.heap.view depth obj).getD .null) := by
  cases hclone : Deep.clone db.heap depth obj with
  | error e =>
    rw [hclone] at hcopyable
    cases hcopyable
  | ok outcome =>
    obtain ⟨copy, heap⟩ := outcome
    refine ⟨copy, heap, rfl, ?_, ?_⟩
    · rw [resultOf, copyOf, hclone]
      rfl
    · rw [contentOf, hclone]
      rfl

/-! ### The iteration -/

variable {db : Database} {objects : Collection} {filter : Option DbObjectFilter} {joinConditions : DbJoinConditions}
  {iterator : QueryIterator Value (Failure E)}

theorem settle_loop_eq (matcher : Option (Ref → Except Error Bool)) (objs : List Ref) (offset : Nat) (limit : Option Nat) :
    iterator.settle (findLoop matcher (resultOf engine depth db joinConditions) iterator offset limit objs 0 .initial) =
      iterator.documentedUntil
        ((((hits matcher objs).skip offset).limit limit).evaluate (resultOf engine depth db joinConditions)) := by
  have hlimit : limit.map (· - (0 - offset)) = limit := by
    rw [Nat.zero_sub]
    exact Option.map_id'
  rw [settle_findLoop, hlimit, Nat.sub_zero, QueryIterator.settle_loopRows]

theorem start_of_unordered (horder : DbObjectFilter.orderBy filter = []) :
    db.start engine depth objects filter joinConditions iterator =
      .settled (iterator.documentedUntil
        ((((matching engine depth db.heap objects filter).skip (DbObjectFilter.offset filter)).limit
          (DbObjectFilter.limit filter)).evaluate (resultOf engine depth db joinConditions))) := by
  have hcomparer : getFilterComparer engine depth db.heap filter = none := by
    rw [getFilterComparer, horder]
  simp only [Database.start, hcomparer]
  rw [settle_loop_eq]
  rfl

theorem getFilterComparer_of_ordered (h : Heap) (horder : DbObjectFilter.orderBy filter ≠ []) :
    getFilterComparer engine depth h filter = some (comparer engine depth h (DbObjectFilter.orderBy filter)) := by
  unfold getFilterComparer
  split
  · contradiction
  · rfl

theorem Database.start_of_fails (db : Database) (joinConditions : DbJoinConditions)
    (iterator : QueryIterator Value (Failure E)) (horder : DbObjectFilter.orderBy filter ≠ [])
    (hfails : (matching engine depth db.heap objects filter : Rows Ref (Failure E)).failure ≠ none) :
    ∃ e, db.start engine depth objects filter joinConditions iterator = .thrown (.error e) := by
  obtain ⟨e, hobjects⟩ := objectsToOrder_of_fails (fun hall => hfails (failure_hits_eq_none_iff.mpr hall))
  refine ⟨e, ?_⟩
  simp only [Database.start, getFilterComparer_of_ordered db.heap horder, hobjects, error_bind]

theorem start_of_sorted (horder : DbObjectFilter.orderBy filter ≠ [])
    (hreturns : (matching engine depth db.heap objects filter : Rows Ref (Failure E)).failure = none) {sorted : List Ref}
    (hsorted : Sorting.sortM (comparer engine depth db.heap (DbObjectFilter.orderBy filter))
      (matching engine depth db.heap objects filter : Rows Ref (Failure E)).values = .ok sorted) :
    db.start engine depth objects filter joinConditions iterator =
      .settled (iterator.documentedUntil
        ((((⟨sorted, none⟩ : Rows Ref (Failure E)).skip (DbObjectFilter.offset filter)).limit
          (DbObjectFilter.limit filter)).evaluate (resultOf engine depth db joinConditions))) := by
  have hobjects := objectsToOrder_of_returns hreturns
  rw [matching] at hsorted
  simp only [Database.start, getFilterComparer_of_ordered db.heap horder, hobjects, ok_bind, hsorted]
  rw [settle_loop_eq, hits_none]

/-- The objects in order, in which the loop comes to them. -/
theorem exists_ordered [Std.TransCmp engine.compare] (joinConditions : DbJoinConditions)
    (hcomparable : MutuallyComparable engine depth db.heap filter
      (matching engine depth db.heap objects filter : Rows Ref (Failure E)).values)
    (hreturns : DbObjectFilter.orderBy filter ≠ [] →
      (matching engine depth db.heap objects filter : Rows Ref (Failure E)).failure = none) :
    ∃ ordered, InOrder engine depth db.heap filter (matching engine depth db.heap objects filter) ordered ∧
      ordered.values.Perm (matching engine depth db.heap objects filter : Rows Ref (Failure E)).values ∧
      ∀ iterator : QueryIterator Value (Failure E), db.start engine depth objects filter joinConditions iterator =
        .settled (iterator.documentedUntil
          (((ordered.skip (DbObjectFilter.offset filter)).limit (DbObjectFilter.limit filter)).evaluate
            (resultOf engine depth db joinConditions))) := by
  by_cases horder : DbObjectFilter.orderBy filter = []
  · refine ⟨matching engine depth db.heap objects filter, ?_, List.Perm.refl _, fun iterator => ?_⟩
    · rw [InOrder, if_pos horder]
    · exact start_of_unordered horder
  · have hnone := hreturns horder
    have htrans : Std.TransCmp (objectOrder engine depth db.heap (DbObjectFilter.orderBy filter)) :=
      transCmp_objectOrder db.heap _
    have hcomparer : (matching engine depth db.heap objects filter : Rows Ref (Failure E)).values.Pairwise fun a b =>
        comparer engine depth db.heap (DbObjectFilter.orderBy filter) a b =
          .ok (objectOrder engine depth db.heap (DbObjectFilter.orderBy filter) a b) := by
      apply List.pairwise_of_forall_sublist
      intro a b hsub
      apply comparer_eq
      intro order hmem
      exact (hcomparable order hmem).forall_sublist hsub
    obtain ⟨sorted, hsort, hstable⟩ := Sorting.stablySorted_of_sortM hcomparer
    refine ⟨⟨sorted, none⟩, ?_, hstable.perm, fun iterator => ?_⟩
    · rw [InOrder, if_neg horder, hnone]
      exact ⟨rfl, hstable⟩
    · exact start_of_sorted horder hnone hsort

theorem InOrder.unique [Std.TransCmp engine.compare] {matching ordered ordered' : Rows Ref (Failure E)} {h : Heap}
    (hordered : InOrder engine depth h filter matching ordered) (hordered' : InOrder engine depth h filter matching ordered') :
    ordered = ordered' := by
  unfold InOrder at hordered hordered'
  split at hordered
  · rename_i horder
    rw [if_pos horder] at hordered'
    rw [hordered, hordered']
  · rename_i horder
    rw [if_neg horder] at hordered'
    cases hfailure : matching.failure with
    | some e =>
      rw [hfailure] at hordered hordered'
      rw [hordered, hordered']
    | none =>
      rw [hfailure] at hordered hordered'
      have htrans : Std.TransCmp (objectOrder engine depth h (DbObjectFilter.orderBy filter)) := transCmp_objectOrder h _
      obtain ⟨values, failure⟩ := ordered
      obtain ⟨values', failure'⟩ := ordered'
      obtain ⟨rfl, hstable⟩ := hordered
      obtain ⟨rfl, hstable'⟩ := hordered'
      exact congrArg (Rows.mk · none) (hstable.unique hstable')

theorem InOrder.perm {matching ordered : Rows Ref (Failure E)} {h : Heap}
    (hordered : InOrder engine depth h filter matching ordered)
    (hreturns : DbObjectFilter.orderBy filter ≠ [] → matching.failure = none) : ordered.values.Perm matching.values := by
  unfold InOrder at hordered
  split at hordered
  · rw [hordered]
  · rename_i horder
    rw [hreturns horder] at hordered
    exact hordered.2.perm

variable (engine depth E)

/-- A `take` of zero has nothing to leave out, and matching does not fail before the objects are in order. -/
def WithinPipeline (db : Database) (objects : Collection) (filter : Option DbObjectFilter) : Prop :=
  (filter.bind DbObjectFilter.take = some 0 →
    (matching engine depth db.heap objects filter : Rows Ref (Failure E)).values.length ≤ DbObjectFilter.offset filter) ∧
  (DbObjectFilter.orderBy filter ≠ [] → ∀ obj ∈ objects.values,
    Returns (isMatch (getFilterMatcher engine depth db.heap (filter.map DbObjectFilter.toValue)) obj))

/-- The objects that are in the range of the filter, up to one that cannot be copied, have no property `__proto__` anywhere, which a copy loses. -/
def LosslessInRange (db : Database) (objects : Collection) (filter : Option DbObjectFilter) : Prop :=
  ∀ ordered : Rows Ref (Failure E), InOrder engine depth db.heap filter (matching engine depth db.heap objects filter) ordered →
    ∀ obj ∈ ((ordered.skip (DbObjectFilter.offset filter)).limit (filter.bind DbObjectFilter.take)).values.takeWhile
        fun obj => (Deep.clone db.heap depth obj).isOk,
      Deep.Lossless db.heap depth obj

/-- The query returns, and its iteration is the documented one. -/
def FindsAsDocumented (db : Database) (collectionName : Text) (objects : Collection) (filter : Option DbObjectFilter)
    (joinConditions : DbJoinConditions) (iterator : QueryIterator Value (Failure E)) : Prop :=
  ∃ run, db.findObjects engine depth collectionName filter joinConditions = .ok run ∧
    AsDocumented engine depth db objects filter joinConditions iterator (run iterator)

variable {engine depth E}

theorem limit_of_ne_zero (htake : filter.bind DbObjectFilter.take ≠ some 0) :
    DbObjectFilter.limit filter = filter.bind DbObjectFilter.take := by
  unfold DbObjectFilter.limit
  split
  · contradiction
  · rfl

theorem limit_of_zero (htake : filter.bind DbObjectFilter.take = some 0) : DbObjectFilter.limit filter = none := by
  simp only [DbObjectFilter.limit, htake]

/-- Outside of these conditions the iteration is another one, whatever the action. -/
theorem withinPipeline_of_asDocumented [Std.TransCmp engine.compare]
    (hcomparable : MutuallyComparable engine depth db.heap filter
      (matching engine depth db.heap objects filter : Rows Ref (Failure E)).values)
    (hdocumented : AsDocumented engine depth db objects filter joinConditions iterator
      (db.start engine depth objects filter joinConditions iterator)) :
    WithinPipeline engine depth E db objects filter := by
  obtain ⟨ordered, hordered, houtcome⟩ := hdocumented
  have hreturns : DbObjectFilter.orderBy filter ≠ [] →
      (matching engine depth db.heap objects filter : Rows Ref (Failure E)).failure = none := by
    intro horder
    by_contra hfails
    obtain ⟨e, hthrown⟩ := db.start_of_fails joinConditions iterator horder hfails
    rw [hthrown] at houtcome
    cases houtcome
  refine ⟨fun htake => ?_, fun horder => failure_hits_eq_none_iff.mp (hreturns horder)⟩
  by_contra hover
  have hlength := (hordered.perm hreturns).length_eq
  obtain ⟨ordered', -, hperm, hstart⟩ := exists_ordered joinConditions hcomparable hreturns
  have hskip : (ordered.skip (DbObjectFilter.offset filter)).values ≠ [] := by
    rw [Rows.skip, Ne, List.drop_eq_nil_iff]
    omega
  have hskip' : (ordered'.skip (DbObjectFilter.offset filter)).values ≠ [] := by
    rw [Rows.skip, Ne, List.drop_eq_nil_iff, hperm.length_eq]
    omega
  rw [hstart iterator, htake, Rows.limit_zero hskip, limit_of_zero htake] at houtcome
  have hiteration := FindOutcome.settled.inj houtcome
  exact QueryIterator.documentedUntil_ne_nil (Rows.evaluate_ne_nil hskip') hiteration

/-- Where the pipeline is kept to, a `take` of zero is as good as no limit. -/
theorem limit_of_withinPipeline {ordered : Rows Ref (Failure E)} (hwithin : WithinPipeline engine depth E db objects filter)
    (hperm : ordered.values.Perm (matching engine depth db.heap objects filter : Rows Ref (Failure E)).values) :
    (ordered.skip (DbObjectFilter.offset filter)).limit (DbObjectFilter.limit filter) =
      (ordered.skip (DbObjectFilter.offset filter)).limit (filter.bind DbObjectFilter.take) := by
  by_cases hzero : filter.bind DbObjectFilter.take = some 0
  · have hskip : (ordered.skip (DbObjectFilter.offset filter)).values = [] := by
      rw [Rows.skip, List.drop_eq_nil_iff, hperm.length_eq]
      exact hwithin.1 hzero
    rw [Rows.limit_of_nil hskip, Rows.limit_of_nil hskip]
  · rw [limit_of_ne_zero hzero]

/-- The objects are handed over one by one, so what is lost in a copy shows. -/
theorem losslessInRange_of_asDocumented [Std.TransCmp engine.compare] (hplain : db.heap.Plain)
    (hcomparable : MutuallyComparable engine depth db.heap filter
      (matching engine depth db.heap objects filter : Rows Ref (Failure E)).values)
    (hwithin : WithinPipeline engine depth E db objects filter)
    {action : List (IteratorCall Value) → ActionOutcome (Failure E)} (hproceed : ∀ calls, action calls = .proceed)
    (hdocumented : AsDocumented engine depth db objects filter .none (.forEach action)
      (db.start engine depth objects filter .none (.forEach action))) :
    LosslessInRange engine depth E db objects filter := by
  obtain ⟨ordered, hordered, houtcome⟩ := hdocumented
  obtain ⟨ordered', hordered', hperm, hstart⟩ := exists_ordered .none hcomparable
    fun horder => failure_hits_eq_none_iff.mpr (hwithin.2 horder)
  obtain rfl := hordered.unique hordered'
  rw [hstart, limit_of_withinPipeline hwithin hperm] at houtcome
  have hresults := congrArg (fun outcome => outcome.1.flatMap IteratorCall.results) (FindOutcome.settled.inj houtcome)
  simp only [QueryIterator.results_documentedUntil hproceed] at hresults
  intro other hother obj hobj
  obtain rfl := hordered.unique hother
  have hsame := Rows.eq_of_evaluate (fun obj hcopyable => by
    obtain ⟨copy, heap, -, hresult, hcontent⟩ := results_of_copyable obj hcopyable
    exact ⟨⟨_, hresult⟩, ⟨_, hcontent⟩⟩) hresults obj hobj
  have hcopyable := List.mem_takeWhile_imp (p := fun obj => (Deep.clone db.heap depth obj).isOk) hobj
  obtain ⟨copy, heap, hclone, hresult, hcontent⟩ := results_of_copyable obj hcopyable
  rw [hresult, hcontent] at hsame
  exact Deep.lossless_of_view_clone hplain.closed hclone (Except.ok.inj hsame)

theorem asDocumented_of_withinPipeline [Std.TransCmp engine.compare] (hplain : db.heap.Plain)
    (hcomparable : MutuallyComparable engine depth db.heap filter
      (matching engine depth db.heap objects filter : Rows Ref (Failure E)).values)
    (hlossless : LosslessInRange engine depth E db objects filter)
    (hwithin : WithinPipeline engine depth E db objects filter) :
    AsDocumented engine depth db objects filter joinConditions iterator
      (db.start engine depth objects filter joinConditions iterator) := by
  obtain ⟨ordered, hordered, hperm, hstart⟩ := exists_ordered joinConditions hcomparable
    fun horder => failure_hits_eq_none_iff.mpr (hwithin.2 horder)
  refine ⟨ordered, hordered, ?_⟩
  rw [hstart iterator, limit_of_withinPipeline hwithin hperm]
  rw [Rows.evaluate_congr
    (fun obj hobj => resultOf_eq_contentOf hplain joinConditions (hlossless ordered hordered obj hobj))
    (fails_of_not_copyable joinConditions)]

theorem findObjects_of_some {collectionName : Text} (hget : db.collections.get collectionName = some objects) :
    @Database.findObjects engine depth E db collectionName filter joinConditions =
      .ok (db.start engine depth objects filter joinConditions) := by
  rw [Database.findObjects, hget]

theorem findsAsDocumented_iff {collectionName : Text} (hget : db.collections.get collectionName = some objects) :
    FindsAsDocumented engine depth E db collectionName objects filter joinConditions iterator ↔
      AsDocumented engine depth db objects filter joinConditions iterator
        (db.start engine depth objects filter joinConditions iterator) := by
  rw [FindsAsDocumented, findObjects_of_some hget]
  constructor
  · intro ⟨run, hrun, hdocumented⟩
    cases hrun
    exact hdocumented
  · intro hdocumented
    exact ⟨_, rfl, hdocumented⟩

/-- Queries in memory are the pipeline that is documented, whatever is joined and whatever the action does, if and only if a `take` of zero has nothing to leave out, matching does not fail before the objects are in order, and the copies lose nothing. Without one of the first two, no query is. -/
theorem asDocumented_iff [Std.TransCmp engine.compare] (hplain : db.heap.Plain) {collectionName : Text}
    (hget : db.collections.get collectionName = some objects)
    (hcomparable : MutuallyComparable engine depth db.heap filter
      (matching engine depth db.heap objects filter : Rows Ref (Failure E)).values) :
    ((∀ joinConditions iterator, FindsAsDocumented engine depth E db collectionName objects filter joinConditions iterator) ↔
      WithinPipeline engine depth E db objects filter ∧ LosslessInRange engine depth E db objects filter) ∧
    ∀ joinConditions iterator, FindsAsDocumented engine depth E db collectionName objects filter joinConditions iterator →
      WithinPipeline engine depth E db objects filter := by
  have hnecessary : ∀ joinConditions iterator,
      FindsAsDocumented engine depth E db collectionName objects filter joinConditions iterator →
        WithinPipeline engine depth E db objects filter := fun joinConditions iterator hdocumented =>
    withinPipeline_of_asDocumented hcomparable ((findsAsDocumented_iff hget).mp hdocumented)
  refine ⟨⟨fun hall => ?_, fun ⟨hwithin, hlossless⟩ joinConditions iterator => ?_⟩, hnecessary⟩
  · have hdocumented := hall .none (.forEach fun _ => .proceed)
    have hwithin := hnecessary _ _ hdocumented
    exact ⟨hwithin, losslessInRange_of_asDocumented hplain hcomparable hwithin (fun _ => rfl)
      ((findsAsDocumented_iff hget).mp hdocumented)⟩
  · exact (findsAsDocumented_iff hget).mpr (asDocumented_of_withinPipeline hplain hcomparable hlossless hwithin)

def lamps : Collection := (Map.empty.set (text "lamp") (.address 0)).set (text "bulb") (.address 1)

def lampStore : Database where
  heap := [plainCell "lamp" [], plainCell "bulb" []]
  collections := Map.empty.set (text "lamps") lamps

/-- The first of the lamps by their ids. -/
def firstLamp : DbObjectFilter :=
  { conditions := none, orderByProperties := some [(.dotted (text "objectId"), .asc)], skip := none, take := some 1 }

def noLamps : DbObjectFilter := { conditions := none, orderByProperties := none, skip := none, take := some 0 }

theorem plain_lampStore : lampStore.heap.Plain := by
  constructor
  · simp [lampStore, plainCell, Heap.Closed, Cell.refs, Ref.Within, Ref.In]
  · simp [lampStore, plainCell, Cell.IsOrdinary]

theorem transCmp_bareEngine : Std.TransCmp bareEngine.compare := transCmp_codeUnits

theorem mutuallyComparable_lamps :
    MutuallyComparable bareEngine 8 lampStore.heap (some firstLamp)
      (matching bareEngine 8 lampStore.heap lamps (some firstLamp) : Rows Ref (Failure Text)).values := by
  intro order hmem
  obtain rfl := List.mem_singleton.mp hmem
  have hmatching : (matching bareEngine 8 lampStore.heap lamps (some firstLamp) : Rows Ref (Failure Text)).values =
      [.address 0, .address 1] := rfl
  rw [hmatching, List.pairwise_pair]
  exact trivial

theorem losslessInRange_lamps : LosslessInRange bareEngine 8 Text lampStore lamps (some firstLamp) := by
  have hlacks : ∀ cell ∈ lampStore.heap, cell.Lacks (text "__proto__") := by
    rw [lampStore, List.forall_mem_cons, List.forall_mem_singleton]
    constructor <;> decide
  intro ordered _ obj _
  exact Deep.lossless_of_lacks hlacks 8 obj

theorem withinPipeline_lamps : WithinPipeline bareEngine 8 Text lampStore lamps (some firstLamp) := by
  constructor
  · intro htake
    cases htake
  · intro _ obj _
    exact ⟨true, rfl⟩

theorem asDocumented_iff_lamps :
    FindsAsDocumented bareEngine 8 Text lampStore (text "lamps") lamps (some firstLamp) .none
      (.forEach fun _ => .proceed) := by
  have htrans := transCmp_bareEngine
  have hget : lampStore.collections.get (text "lamps") = some lamps := rfl
  have hiff := asDocumented_iff plain_lampStore hget mutuallyComparable_lamps
  exact hiff.1.mpr ⟨withinPipeline_lamps, losslessInRange_lamps⟩ .none (.forEach fun _ => .proceed)

/-- All lamps are found by a query that is to take none of them. -/
theorem not_asDocumented_of_take_zero :
    ¬ FindsAsDocumented bareEngine 8 Text lampStore (text "lamps") lamps (some noLamps) .none (.forEach fun _ => .proceed) := by
  have htrans := transCmp_bareEngine
  intro hdocumented
  have hcomparable : MutuallyComparable bareEngine 8 lampStore.heap (some noLamps)
      (matching bareEngine 8 lampStore.heap lamps (some noLamps) : Rows Ref (Failure Text)).values := by
    intro order hmem
    cases hmem
  have hget : lampStore.collections.get (text "lamps") = some lamps := rfl
  have hnone := (withinPipeline_of_asDocumented hcomparable ((findsAsDocumented_iff hget).mp hdocumented)).1 rfl
  exact absurd hnone (by decide)

end InMemory

end Coaty
