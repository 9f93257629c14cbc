import Coaty.Db.DocumentedIteration

/-!
# Iterating the rows of an SQLite query

The database calls back for every row in order and once at the end. The two callbacks share the state of the iteration, and the promise is settled by whichever is the first to do so. What is thrown counts as an error only if it is truthy. The callback at the end takes the iterator for one on batches if there was no result or a batch has been left over.
-/

namespace Coaty

namespace Sqlite

/-- The variables that the callbacks share, with the calls of the action and the settled promise. -/
structure RowIteration (T E : Type) where
  resultIndex : Nat
  currentBatch : List T
  isBreakInvoked : Bool
  iterationError : Option E
  calls : List (IteratorCall T)
  done : Option (IterationResult E)

namespace RowIteration

variable {T E : Type}

def initial : RowIteration T E where
  resultIndex := 0
  currentBatch := []
  isBreakInvoked := false
  iterationError := none
  calls := []
  done := none

/-- `resolveDone` or `rejectDone`, of which only the first call counts. -/
def settle (s : RowIteration T E) (result : IterationResult E) : RowIteration T E :=
  { s with done := s.done.or (some result) }

/-- What follows a call of the action in the row callback. -/
def afterAction (s : RowIteration T E) : ActionOutcome E → RowIteration T E
  | .throw error => { s with iterationError := error }.settle (.rejected error)
  | .breakOff => { s with resultIndex := s.resultIndex + 1, isBreakInvoked := true }
  | .proceed => { s with resultIndex := s.resultIndex + 1 }

/-- The row callback. -/
def onRow (iter : QueryIterator T E) (s : RowIteration T E) (row : T) : RowIteration T E :=
  if s.iterationError.isSome || s.isBreakInvoked then s
  else
    match iter with
    | .forEach action =>
      let calls := s.calls ++ [.forEach row s.resultIndex]
      { s with calls }.afterAction (action calls)
    | .forBatch action batchSize =>
      let batch := s.currentBatch ++ [row]
      if batchSize > 0 ∧ batch.length = batchSize then
        let calls := s.calls ++ [.forBatch batch]
        match action calls with
        | .throw error => { s with currentBatch := batch, calls }.afterAction (.throw error)
        | outcome => { s with currentBatch := [], calls }.afterAction outcome
      else { s with currentBatch := batch }.afterAction .proceed

variable (typeError : E)

/-- The completion callback. An iterator without an action on batches has nothing to call. -/
def onComplete (iter : QueryIterator T E) (s : RowIteration T E) : RowIteration T E :=
  if s.currentBatch.length > 0 ∨ s.resultIndex = 0 then
    match iter with
    | .forEach _ => s.settle (.rejected (some typeError))
    | .forBatch action _ =>
      let calls := s.calls ++ [.forBatch s.currentBatch]
      let s := { s with calls }
      match action calls with
      | .throw (some error) => s.settle (.rejected (some error))
      | .throw none => s.settle (.resolved s.resultIndex s.isBreakInvoked)
      | .breakOff => { s with isBreakInvoked := true }.settle (.resolved s.resultIndex true)
      | .proceed => s.settle (.resolved s.resultIndex s.isBreakInvoked)
  else s.settle (.resolved s.resultIndex s.isBreakInvoked)

/-- The calls of the action that `iquery` makes for the rows of a query, and how the promise is settled. -/
def iquery (iter : QueryIterator T E) (rows : List T) : List (IteratorCall T) × Option (IterationResult E) :=
  let s := (rows.foldl (onRow iter) initial).onComplete typeError iter
  (s.calls, s.done)

/-! ### Where an iteration ends -/

/-- The first call that does not proceed, what it does, and the calls that would follow. -/
def ending (action : List (IteratorCall T) → ActionOutcome E) (calls : List (IteratorCall T)) :
    List (IteratorCall T) → Option (IteratorCall T × ActionOutcome E × List (IteratorCall T))
  | [] => none
  | c :: remaining =>
    let calls := calls ++ [c]
    match action calls with
    | .proceed => ending action calls remaining
    | outcome => some (c, outcome, remaining)

/-- The throw at the end of an iteration does no harm: a falsy value is thrown for the last row only, and nothing is thrown on a full batch. -/
def Harmless (iter : QueryIterator T E) (c : IteratorCall T) (error : Option E) (remaining : List (IteratorCall T)) : Prop :=
  match iter with
  | .forEach _ => error = none → remaining = []
  | .forBatch _ batchSize => error ≠ none ∧ ¬ (batchSize > 0 ∧ (c.size : Int) = batchSize)

/-- There are rows, or an action on batches, and a throw at the end of the iteration does no harm. -/
def EndsWell (iter : QueryIterator T E) (rows : List T) : Prop :=
  (rows = [] → ∀ action, iter ≠ .forEach action) ∧
    ∀ c error remaining, ending iter.action [] (iter.documentedCalls rows) = some (c, .throw error, remaining) →
      Harmless iter c error remaining

/-! ### The callbacks -/

variable {typeError} {iter : QueryIterator T E} {s : RowIteration T E}

theorem foldl_onRow_of_stopped (h : s.iterationError.isSome = true ∨ s.isBreakInvoked = true) (rows : List T) :
    rows.foldl (onRow iter) s = s := by
  induction rows with
  | nil => rfl
  | cons row rows ih =>
    have hrow : onRow iter s row = s := by
      unfold onRow
      rw [if_pos (by simpa using h)]
    rw [List.foldl_cons, hrow, ih]

/-- The iteration goes on, with nothing settled. -/
structure Active (s : RowIteration T E) : Prop where
  isBreakInvoked : s.isBreakInvoked = false
  iterationError : s.iterationError = none
  done : s.done = none

theorem active_initial : Active (initial : RowIteration T E) := ⟨rfl, rfl, rfl⟩

/-- What the iteration comes to if the rows to come are these. -/
def outcome (typeError : E) (iter : QueryIterator T E) (s : RowIteration T E) (rows : List T) :
    List (IteratorCall T) × Option (IterationResult E) :=
  let s := (rows.foldl (onRow iter) s).onComplete typeError iter
  (s.calls, s.done)

theorem calls_afterAction (o : ActionOutcome E) : (s.afterAction o).calls = s.calls := by
  cases o <;> rfl

theorem outcome_cons (row : T) (rows : List T) :
    outcome typeError iter s (row :: rows) = outcome typeError iter (onRow iter s row) rows := rfl

theorem outcome_of_stopped (h : s.iterationError.isSome = true ∨ s.isBreakInvoked = true) (rows : List T) :
    outcome typeError iter s rows = ((s.onComplete typeError iter).calls, (s.onComplete typeError iter).done) := by
  rw [outcome, foldl_onRow_of_stopped h]

theorem onRow_forEach (action : List (IteratorCall T) → ActionOutcome E) (hactive : Active s) (row : T) :
    onRow (.forEach action) s row =
      { s with calls := s.calls ++ [IteratorCall.forEach row s.resultIndex] }.afterAction (action (s.calls ++ [IteratorCall.forEach row s.resultIndex])) := by
  unfold onRow
  rw [if_neg (by simp [hactive.isBreakInvoked, hactive.iterationError])]

theorem onComplete_of_handedOver (h : ¬ (s.currentBatch.length > 0 ∨ s.resultIndex = 0)) :
    s.onComplete typeError iter = s.settle (.resolved s.resultIndex s.isBreakInvoked) := by
  unfold onComplete
  rw [if_neg h]

/-! ### One by one -/

section ForEach

variable (typeError) (action : List (IteratorCall T) → ActionOutcome E)

theorem length_calls_onRow_forEach (row : T) :
    s.calls.length ≤ (onRow (.forEach action) s row).calls.length := by
  unfold onRow
  split
  · exact le_refl _
  · dsimp only
    cases action (s.calls ++ [IteratorCall.forEach row s.resultIndex]) <;> simp [afterAction, settle]

theorem length_calls_outcome_forEach (rows : List T) :
    s.calls.length ≤ (outcome typeError (.forEach action) s rows).1.length := by
  induction rows generalizing s with
  | nil =>
    simp only [outcome, List.foldl_nil]
    unfold onComplete
    split <;> exact le_refl _
  | cons row rows ih =>
    rw [outcome_cons]
    exact (length_calls_onRow_forEach action row).trans ih

/-- A falsy value that is thrown settles the promise, but does not stop the iteration. -/
theorem outcome_of_falsy (row : T) (rows : List T) (herror : s.iterationError = none) (hbreak : s.isBreakInvoked = false) :
    s.calls.length < (outcome typeError (.forEach action) s (row :: rows)).1.length := by
  rw [outcome_cons]
  refine lt_of_lt_of_le ?_ (length_calls_outcome_forEach typeError action rows)
  unfold onRow
  rw [if_neg (by simp [herror, hbreak])]
  dsimp only
  cases action (s.calls ++ [IteratorCall.forEach row s.resultIndex]) <;> simp [afterAction, settle]

theorem outcome_forEach_iff (hactive : Active s) (hbatch : s.currentBatch = []) (hcount : s.resultIndex = handedOver s.calls)
    (rows : List T) (hsome : rows ≠ [] ∨ s.resultIndex ≠ 0) :
    (outcome typeError (.forEach action) s rows =
      let (calls, result) := QueryIterator.perform action s.calls ((QueryIterator.forEach action).remainingCalls s.resultIndex [] rows)
      (calls, some result)) ↔
    ∀ c error remaining, ending action s.calls ((QueryIterator.forEach action).remainingCalls s.resultIndex [] rows) =
      some (c, .throw error, remaining) → Harmless (.forEach action) c error remaining := by
  induction rows generalizing s with
  | nil =>
    have hindex : s.resultIndex ≠ 0 := hsome.resolve_left fun hne => hne rfl
    have hcomplete : s.onComplete typeError (.forEach action) = s.settle (.resolved s.resultIndex s.isBreakInvoked) :=
      onComplete_of_handedOver (by simp [hbatch, hindex])
    refine iff_of_true ?_ ?_
    · rw [outcome, List.foldl_nil, hcomplete, QueryIterator.remainingCalls, List.zipIdx_nil, List.map_nil,
        QueryIterator.perform]
      simp [settle, hactive.done, hactive.isBreakInvoked, hcount]
    · simp [QueryIterator.remainingCalls, ending]
  | cons row rows ih =>
    have hnext : handedOver (s.calls ++ [IteratorCall.forEach row s.resultIndex]) = s.resultIndex + 1 := by
      rw [handedOver_append_singleton, hcount]
      rfl
    have hcalls : (QueryIterator.forEach action).remainingCalls s.resultIndex [] (row :: rows) =
        .forEach row s.resultIndex :: (QueryIterator.forEach action).remainingCalls (s.resultIndex + 1) [] rows := by
      rw [QueryIterator.remainingCalls, List.zipIdx_cons, List.map_cons]
      rfl
    have hrow := onRow_forEach action hactive row
    rw [hcalls, QueryIterator.perform, ending]
    simp only
    cases haction : action (s.calls ++ [IteratorCall.forEach row s.resultIndex]) with
    | proceed =>
      rw [outcome_cons, hrow, haction]
      refine ih ⟨hactive.isBreakInvoked, hactive.iterationError, hactive.done⟩ hbatch hnext.symm (Or.inr (by simp [afterAction]))
    | breakOff =>
      refine iff_of_true ?_ (by simp)
      rw [outcome_cons, hrow, haction, outcome_of_stopped (Or.inr rfl),
        onComplete_of_handedOver (by simp [afterAction, hbatch])]
      simp [afterAction, settle, hactive.done, hnext]
    | throw error =>
      cases error with
      | some error =>
        refine iff_of_true ?_ (by simp [Harmless])
        rw [outcome_cons, hrow, haction, outcome_of_stopped (Or.inl rfl)]
        unfold onComplete
        split <;> simp [afterAction, settle, hactive.done]
      | none =>
        cases rows with
        | nil =>
          refine iff_of_true ?_ fun c error remaining hending _ => ?_
          · rw [outcome_cons, hrow, haction, outcome, List.foldl_nil]
            unfold onComplete
            split <;> simp [afterAction, settle, hactive.done]
          · simp only [QueryIterator.remainingCalls, List.zipIdx_nil, List.map_nil, Option.some.injEq, Prod.mk.injEq] at hending
            exact hending.2.2.symm
        | cons next rows =>
          refine iff_of_false ?_ ?_
          · intro heq
            have hlonger := outcome_of_falsy typeError action (s := onRow (.forEach action) s row) next rows
              (by rw [hrow, haction]; rfl) (by rw [hrow, haction]; exact hactive.isBreakInvoked)
            rw [← outcome_cons, heq, hrow, haction] at hlonger
            simp [afterAction, settle] at hlonger
          · intro hharmless
            have hnil := hharmless _ _ _ rfl rfl
            simp [QueryIterator.remainingCalls] at hnil

end ForEach

/-! ### In batches -/

section ForBatch

variable (typeError) (action : List (IteratorCall T) → ActionOutcome E) (batchSize : Int)

theorem onRow_forBatch_of_full (hactive : Active s) {row : T}
    (hfull : batchSize > 0 ∧ ((s.currentBatch ++ [row]).length : Int) = batchSize) :
    onRow (.forBatch action batchSize) s row =
      match action (s.calls ++ [IteratorCall.forBatch (s.currentBatch ++ [row])]) with
      | .throw error => { s with
          currentBatch := s.currentBatch ++ [row]
          calls := s.calls ++ [IteratorCall.forBatch (s.currentBatch ++ [row])] }.afterAction (.throw error)
      | outcome => { s with
          currentBatch := []
          calls := s.calls ++ [IteratorCall.forBatch (s.currentBatch ++ [row])] }.afterAction outcome := by
  unfold onRow
  rw [if_neg (by simp [hactive.isBreakInvoked, hactive.iterationError])]
  simp only [if_pos hfull]

theorem onRow_forBatch_of_not_full (hactive : Active s) {row : T}
    (hfull : ¬ (batchSize > 0 ∧ ((s.currentBatch ++ [row]).length : Int) = batchSize)) :
    onRow (.forBatch action batchSize) s row =
      { s with currentBatch := s.currentBatch ++ [row], resultIndex := s.resultIndex + 1 } := by
  unfold onRow
  rw [if_neg (by simp [hactive.isBreakInvoked, hactive.iterationError])]
  simp only [if_neg hfull]
  rfl

theorem onComplete_forBatch (h : s.currentBatch.length > 0 ∨ s.resultIndex = 0) :
    s.onComplete typeError (.forBatch action batchSize) =
      let s' := { s with calls := s.calls ++ [IteratorCall.forBatch s.currentBatch] }
      match action s'.calls with
      | .throw (some error) => s'.settle (.rejected (some error))
      | .throw none => s'.settle (.resolved s.resultIndex s.isBreakInvoked)
      | .breakOff => { s' with isBreakInvoked := true }.settle (.resolved s.resultIndex true)
      | .proceed => s'.settle (.resolved s.resultIndex s.isBreakInvoked) := by
  unfold onComplete
  rw [if_pos h]

theorem calls_onComplete_forBatch (h : s.currentBatch.length > 0 ∨ s.resultIndex = 0) :
    (s.onComplete typeError (.forBatch action batchSize)).calls = s.calls ++ [IteratorCall.forBatch s.currentBatch] := by
  rw [onComplete_forBatch typeError action batchSize h]
  dsimp only
  split <;> rfl

theorem length_calls_outcome_forBatch {n : Nat} (h : n < s.calls.length ∨ n = s.calls.length ∧ s.currentBatch ≠ [])
    (rows : List T) : n < (outcome typeError (.forBatch action batchSize) s rows).1.length := by
  induction rows generalizing s with
  | nil =>
    simp only [outcome, List.foldl_nil]
    by_cases hpending : s.currentBatch.length > 0 ∨ s.resultIndex = 0
    · rw [calls_onComplete_forBatch typeError action batchSize hpending, List.length_append, List.length_singleton]
      omega
    · rw [onComplete_of_handedOver hpending]
      rw [not_or, gt_iff_lt, List.length_pos_iff, not_not] at hpending
      exact h.resolve_right fun hleft => hleft.2 hpending.1
  | cons row rows ih =>
    rw [outcome_cons]
    apply ih
    unfold onRow
    split
    · exact h
    · dsimp only
      split
      · left
        split <;> simp [calls_afterAction] <;> omega
      · obtain h | h := h
        · exact Or.inl h
        · exact Or.inr ⟨h.1, by simp [afterAction]⟩

theorem onComplete_forBatch_iff (hactive : Active s) (hcount : s.resultIndex = handedOver s.calls + s.currentBatch.length)
    (hroom : ¬ (batchSize > 0 ∧ (s.currentBatch.length : Int) = batchSize))
    (hpending : s.currentBatch.length > 0 ∨ s.resultIndex = 0) :
    (outcome typeError (.forBatch action batchSize) s [] =
      let (calls, result) := QueryIterator.perform action s.calls [.forBatch s.currentBatch]
      (calls, some result)) ↔
    ∀ c error remaining, ending action s.calls [.forBatch s.currentBatch] = some (c, .throw error, remaining) →
      Harmless (.forBatch action batchSize) c error remaining := by
  have hnext : handedOver (s.calls ++ [IteratorCall.forBatch s.currentBatch]) = s.resultIndex := by
    rw [handedOver_append_singleton, hcount]
    rfl
  rw [outcome, List.foldl_nil, onComplete_forBatch typeError action batchSize hpending, QueryIterator.perform, ending]
  dsimp only
  cases action (s.calls ++ [IteratorCall.forBatch s.currentBatch]) with
  | proceed =>
    refine iff_of_true ?_ (by simp [ending])
    simp [settle, QueryIterator.perform, hactive.done, hactive.isBreakInvoked, hnext]
  | breakOff =>
    refine iff_of_true ?_ (by simp)
    simp [settle, hactive.done, hnext]
  | throw error =>
    cases error with
    | some error =>
      refine iff_of_true (by simp [settle, hactive.done]) ?_
      intro c error' remaining hending
      simp only [Option.some.injEq, Prod.mk.injEq, ActionOutcome.throw.injEq] at hending
      obtain ⟨rfl, rfl, _⟩ := hending
      exact ⟨by simp, hroom⟩
    | none =>
      refine iff_of_false (by simp [settle, hactive.done]) ?_
      intro hharmless
      exact (hharmless _ _ _ rfl).1 rfl

theorem outcome_forBatch_iff (hactive : Active s) (hcount : s.resultIndex = handedOver s.calls + s.currentBatch.length)
    (hroom : ¬ (batchSize > 0 ∧ (s.currentBatch.length : Int) = batchSize)) (rows : List T)
    (hsome : rows ≠ [] ∨ s.resultIndex ≠ 0) :
    (outcome typeError (.forBatch action batchSize) s rows =
      let (calls, result) := QueryIterator.perform action s.calls ((batches batchSize s.currentBatch rows).map .forBatch)
      (calls, some result)) ↔
    ∀ c error remaining, ending action s.calls ((batches batchSize s.currentBatch rows).map .forBatch) =
      some (c, .throw error, remaining) → Harmless (.forBatch action batchSize) c error remaining := by
  induction rows generalizing s with
  | nil =>
    have hindex : s.resultIndex ≠ 0 := hsome.resolve_left fun hne => hne rfl
    by_cases hbatch : s.currentBatch = []
    · have hcomplete : s.onComplete typeError (.forBatch action batchSize) = s.settle (.resolved s.resultIndex s.isBreakInvoked) :=
        onComplete_of_handedOver (by simp [hbatch, hindex])
      rw [batches, if_pos hbatch, List.map_nil]
      refine iff_of_true ?_ (by simp [ending])
      rw [outcome, List.foldl_nil, hcomplete, QueryIterator.perform]
      simp [settle, hactive.done, hactive.isBreakInvoked, hcount, hbatch]
    · rw [batches, if_neg hbatch, List.map_singleton]
      exact onComplete_forBatch_iff typeError action batchSize hactive hcount hroom (Or.inl (List.length_pos_iff.mpr hbatch))
  | cons row rows ih =>
    rw [batches]
    by_cases hfull : batchSize > 0 ∧ ((s.currentBatch ++ [row]).length : Int) = batchSize
    · have hnext : handedOver (s.calls ++ [IteratorCall.forBatch (s.currentBatch ++ [row])]) = s.resultIndex + 1 := by
        rw [handedOver_append_singleton, hcount, IteratorCall.size, List.length_append, List.length_singleton]
        omega
      have hrow := onRow_forBatch_of_full action batchSize hactive hfull
      rw [if_pos hfull, List.map_cons, QueryIterator.perform, ending, outcome_cons, hrow]
      dsimp only
      cases haction : action (s.calls ++ [IteratorCall.forBatch (s.currentBatch ++ [row])]) with
      | proceed =>
        have hroom' : ¬ (batchSize > 0 ∧ ((0 : Nat) : Int) = batchSize) := by omega
        exact ih ⟨hactive.isBreakInvoked, hactive.iterationError, hactive.done⟩ (by simp [afterAction, hnext]) hroom'
          (Or.inr (by simp [afterAction]))
      | breakOff =>
        refine iff_of_true ?_ (by simp)
        rw [outcome_of_stopped (Or.inr rfl), onComplete_of_handedOver (by simp [afterAction])]
        simp [afterAction, settle, hactive.done, hnext]
      | throw error =>
        refine iff_of_false ?_ ?_
        · intro heq
          have hlonger := length_calls_outcome_forBatch typeError action batchSize (n := (s.calls ++ [IteratorCall.forBatch (s.currentBatch ++ [row])]).length)
            (s := afterAction { s with
              currentBatch := s.currentBatch ++ [row]
              calls := s.calls ++ [IteratorCall.forBatch (s.currentBatch ++ [row])] } (.throw error))
            (Or.inr ⟨by rw [calls_afterAction], by simp [afterAction, settle]⟩) rows
          rw [heq] at hlonger
          exact lt_irrefl _ hlonger
        · intro hharmless
          exact (hharmless _ _ _ rfl).2 hfull
    · rw [if_neg hfull, outcome_cons, onRow_forBatch_of_not_full action batchSize hactive hfull]
      have hcount' : s.resultIndex + 1 = handedOver s.calls + (s.currentBatch ++ [row]).length := by
        rw [hcount, List.length_append, List.length_singleton]
        omega
      exact ih ⟨hactive.isBreakInvoked, hactive.iterationError, hactive.done⟩ hcount' hfull (Or.inr (by simp))

end ForBatch

/-! ### Every iteration -/

/-- The rows of a query are iterated as documented exactly if the iteration ends well. -/
theorem iquery_eq_documented_iff (typeError : E) (iter : QueryIterator T E) (rows : List T) :
    (iquery typeError iter rows = ((iter.documented rows).1, some (iter.documented rows).2)) ↔ EndsWell iter rows := by
  have houtcome : iquery typeError iter rows = outcome typeError iter initial rows := rfl
  rw [houtcome, QueryIterator.documented, EndsWell]
  cases iter with
  | forEach action =>
    cases rows with
    | nil =>
      refine iff_of_false ?_ fun hends => hends.1 rfl action rfl
      simp [outcome, onComplete, initial, settle, QueryIterator.documentedCalls, QueryIterator.remainingCalls,
        QueryIterator.perform]
    | cons row rows =>
      rw [and_iff_right (by simp)]
      exact outcome_forEach_iff typeError action active_initial rfl rfl (row :: rows) (Or.inl (by simp))
  | forBatch action batchSize =>
    rw [and_iff_right (by simp)]
    have hroom : ¬ (batchSize > 0 ∧ (([] : List T).length : Int) = batchSize) := by
      rw [List.length_nil]
      omega
    cases rows with
    | nil => exact onComplete_forBatch_iff typeError action batchSize active_initial rfl hroom (Or.inr rfl)
    | cons row rows =>
      exact outcome_forBatch_iff typeError action batchSize active_initial rfl hroom (row :: rows) (Or.inl (by simp))

/-- An empty result is an error if it is iterated one by one. -/
theorem iquery_ne_documented_of_empty :
    ¬ ∀ (typeError : Unit) (iter : QueryIterator Nat Unit) (rows : List Nat),
      iquery typeError iter rows = ((iter.documented rows).1, some (iter.documented rows).2) := by
  intro h
  have hempty := h () (.forEach fun _ => .proceed) []
  cases hempty

end RowIteration

end Sqlite

end Coaty
