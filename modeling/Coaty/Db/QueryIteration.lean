import Mathlib.Data.List.Basic
import Mathlib.Order.Lattice

/-!
# Iterating query results

An iterator calls its action on the results of a query, one by one or in batches, until the action breaks the iteration or throws. What the action does at a call may depend on all the calls so far. Results come at once or in chunks, and what comes of the loop over all of them is the same, as the loop over a chunk goes on where the one over the chunk before has ended.
-/

namespace Coaty

inductive IteratorCall (T : Type) where
  | forEach (result : T) (index : Nat)
  | forBatch (batch : List T)
deriving DecidableEq

/-- How a call ends. What is thrown is an error, or a falsy value. -/
inductive ActionOutcome (E : Type) where
  | proceed
  | breakOff
  | throw (error : Option E)
deriving DecidableEq

/-- An iterator with its action, which is given the calls so far including the present one. -/
inductive QueryIterator (T E : Type) where
  | forEach (action : List (IteratorCall T) → ActionOutcome E)
  | forBatch (action : List (IteratorCall T) → ActionOutcome E) (batchSize : Int)

/-- How the promise of an iteration settles. -/
inductive IterationResult (E : Type) where
  | resolved (resultIndex : Nat) (isBreakInvoked : Bool)
  | rejected (error : Option E)
deriving DecidableEq

structure Iteration (T : Type) where
  resultIndex : Nat
  currentBatch : List T
  calls : List (IteratorCall T)
deriving DecidableEq

/-- How the loop over some results ends. -/
inductive LoopEnd (E : Type) where
  | completed
  | breakInvoked
  | allTaken
  | thrown (error : Option E)
deriving DecidableEq

variable {T E : Type}

namespace Iteration

def initial : Iteration T := ⟨0, [], []⟩

def call (s : Iteration T) (c : IteratorCall T) : Iteration T := { s with calls := s.calls ++ [c] }

end Iteration

namespace QueryIterator

/-- What the loop does with one result. -/
def yield (iter : QueryIterator T E) (s : Iteration T) (obj : T) : Iteration T × ActionOutcome E :=
  match iter with
  | .forEach action =>
    let s := s.call (.forEach obj s.resultIndex)
    ({ s with resultIndex := s.resultIndex + 1 }, action s.calls)
  | .forBatch action batchSize =>
    let batch := s.currentBatch ++ [obj]
    if batchSize > 0 ∧ batch.length = batchSize then
      let s := s.call (.forBatch batch)
      ({ s with currentBatch := [], resultIndex := s.resultIndex + 1 }, action s.calls)
    else ({ s with currentBatch := batch, resultIndex := s.resultIndex + 1 }, .proceed)

/-- The loop over some results, which ends when `take` results have been yielded. A `take` of zero or less is no limit. -/
def loop (iter : QueryIterator T E) (take : Int) : Iteration T → List T → Iteration T × LoopEnd E
  | s, [] => (s, .completed)
  | s, obj :: objs =>
    match iter.yield s obj with
    | (s, .throw error) => (s, .thrown error)
    | (s, .breakOff) => (s, .breakInvoked)
    | (s, .proceed) => if take > 0 ∧ s.resultIndex ≥ take then (s, .allTaken) else iter.loop take s objs

/-- The last batch is yielded if needed, which is the first one if there are no results at all. -/
def yieldLast (iter : QueryIterator T E) (s : Iteration T) : Iteration T × ActionOutcome E :=
  match iter with
  | .forEach _ => (s, .proceed)
  | .forBatch action _ =>
    if s.currentBatch.length > 0 ∨ s.resultIndex = 0 then
      let s := s.call (.forBatch s.currentBatch)
      (s, action s.calls)
    else (s, .proceed)

def finish (iter : QueryIterator T E) (s : Iteration T) (isBreakInvoked : Bool) :
    List (IteratorCall T) × IterationResult E :=
  match iter.yieldLast s with
  | (s', .throw error) => (s'.calls, .rejected error)
  | (s', .breakOff) => (s'.calls, .resolved s'.resultIndex true)
  | (s', .proceed) => (s'.calls, .resolved s'.resultIndex isBreakInvoked)

/-- What comes of the end of a loop that is not continued. -/
def settle (iter : QueryIterator T E) : Iteration T × LoopEnd E → List (IteratorCall T) × IterationResult E
  | (s, .thrown error) => (s.calls, .rejected error)
  | (s, .breakInvoked) => iter.finish s true
  | (s, .completed) => iter.finish s false
  | (s, .allTaken) => iter.finish s false

/-- `_fetchOnce` with the rows of the query. Its loop has no limit. -/
def fetchOnce (iter : QueryIterator T E) (rows : List T) : List (IteratorCall T) × IterationResult E :=
  iter.settle (iter.loop (-1) .initial rows)

/-! ### Loops over parts -/

variable (iter : QueryIterator T E)

theorem resultIndex_yield (s : Iteration T) (obj : T) : (iter.yield s obj).1.resultIndex = s.resultIndex + 1 := by
  cases iter with
  | forEach action => rfl
  | forBatch action batchSize =>
    rw [yield]
    split <;> rfl

theorem loop_append (take : Int) (s : Iteration T) (objs more : List T) :
    iter.loop take s (objs ++ more) =
      match iter.loop take s objs with
      | (s, .completed) => iter.loop take s more
      | ended => ended := by
  induction objs generalizing s with
  | nil => rfl
  | cons obj objs ih =>
    rw [List.cons_append, loop, loop]
    cases hyield : iter.yield s obj with
    | mk s' outcome =>
      cases outcome with
      | throw error => rfl
      | breakOff => rfl
      | proceed =>
        dsimp only
        split
        · rfl
        · exact ih s'

theorem settle_loop_take {take : Nat} {s : Iteration T} (hlimit : s.resultIndex < take) (objs : List T) :
    iter.settle (iter.loop take s objs) = iter.settle (iter.loop (-1) s (objs.take (take - s.resultIndex))) := by
  induction objs generalizing s with
  | nil => rw [List.take_nil]; rfl
  | cons obj objs ih =>
    obtain ⟨left, hleft⟩ := Nat.exists_eq_add_of_lt hlimit
    have hcount : take - s.resultIndex = left + 1 := by omega
    rw [hcount, List.take_succ_cons, loop, loop]
    have hindex := iter.resultIndex_yield s obj
    cases hyield : iter.yield s obj with
    | mk s' outcome =>
      rw [hyield] at hindex
      dsimp only at hindex
      cases outcome with
      | throw error => rfl
      | breakOff => rfl
      | proceed =>
        dsimp only
        by_cases hreached : s'.resultIndex < take
        · have hgo : ¬ ((take : Int) > 0 ∧ (s'.resultIndex : Int) ≥ take) := by omega
          have hleft' : left = take - s'.resultIndex := by omega
          rw [if_neg hgo, if_neg (by omega), ih hreached, hleft']
        · have hstop : (take : Int) > 0 ∧ (s'.resultIndex : Int) ≥ take := by omega
          have hleft' : left = 0 := by omega
          rw [if_pos hstop, if_neg (by omega), hleft', List.take_zero]
          rfl

theorem fetchOnce_nil_eq_iff :
    iter.fetchOnce [] = ([], .resolved 0 false) ↔ ∃ action, iter = .forEach action := by
  cases iter with
  | forEach action => exact iff_of_true rfl ⟨action, rfl⟩
  | forBatch action batchSize =>
    refine iff_of_false ?_ nofun
    intro h
    have hcalls : ((QueryIterator.forBatch action batchSize).fetchOnce []).1 = [.forBatch []] := by
      have hfirst : (Iteration.initial : Iteration T).currentBatch.length > 0 ∨ (Iteration.initial : Iteration T).resultIndex = 0 :=
        Or.inr rfl
      rw [fetchOnce, loop, settle, finish, yieldLast, if_pos hfirst]
      dsimp only
      cases action _ <;> rfl
    rw [h] at hcalls
    cases hcalls

end QueryIterator

end Coaty
