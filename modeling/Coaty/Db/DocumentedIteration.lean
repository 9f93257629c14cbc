import Coaty.Db.QueryIteration

/-!
# Iterations as they are documented

The calls of an iteration are given by the results alone: one call for each result, or one for each batch, where an empty result is one empty batch. They are made in order up to the first one that breaks the iteration or throws. What comes of them is the number of results handed over and whether the iteration was broken, or what was thrown.
-/

namespace Coaty

variable {T E : Type}

/-- The number of results that a call hands over. -/
def IteratorCall.size : IteratorCall T → Nat
  | .forEach _ _ => 1
  | .forBatch batch => batch.length

def handedOver : List (IteratorCall T) → Nat
  | [] => 0
  | c :: calls => c.size + handedOver calls

@[simp] theorem handedOver_append_singleton (calls : List (IteratorCall T)) (c : IteratorCall T) :
    handedOver (calls ++ [c]) = handedOver calls + c.size := by
  induction calls with
  | nil => simp [handedOver]
  | cons first calls ih =>
    rw [List.cons_append, handedOver, handedOver, ih]
    omega

/-- The results that a call hands over. -/
def IteratorCall.results : IteratorCall T → List T
  | .forEach result _ => [result]
  | .forBatch batch => batch

theorem handedOver_eq (calls : List (IteratorCall T)) : handedOver calls = (calls.flatMap IteratorCall.results).length := by
  induction calls with
  | nil => rfl
  | cons c calls ih =>
    rw [handedOver, ih, List.flatMap_cons, List.length_append]
    cases c <;> rfl

/-- The batches of the results that follow on those in the current batch. A size of zero or less is no limit. -/
def batches (batchSize : Int) : List T → List T → List (List T)
  | currentBatch, [] => if currentBatch = [] then [] else [currentBatch]
  | currentBatch, row :: rows =>
    let batch := currentBatch ++ [row]
    if batchSize > 0 ∧ batch.length = batchSize then batch :: batches batchSize [] rows
    else batches batchSize batch rows

theorem flatten_batches (batchSize : Int) (currentBatch rows : List T) :
    (batches batchSize currentBatch rows).flatten = currentBatch ++ rows := by
  induction rows generalizing currentBatch with
  | nil =>
    rw [batches]
    split
    · rename_i hnil
      simp [hnil]
    · simp
  | cons row rows ih =>
    rw [batches]
    split
    · rw [List.flatten_cons, ih]
      simp
    · rw [ih]
      simp

theorem batches_ne_nil {batchSize : Int} {currentBatch rows : List T} (h : rows ≠ [] ∨ currentBatch ≠ []) :
    batches batchSize currentBatch rows ≠ [] := by
  intro hnil
  have hflatten := flatten_batches batchSize currentBatch rows
  rw [hnil, List.flatten_nil] at hflatten
  obtain ⟨hcurrent, hrows⟩ := List.append_eq_nil_iff.mp hflatten.symm
  exact h.elim (fun hne => hne hrows) fun hne => hne hcurrent

/-- All batches but the last have the batch size. -/
theorem length_of_mem_dropLast_batches {batchSize : Int} {currentBatch rows batch : List T}
    (h : batch ∈ (batches batchSize currentBatch rows).dropLast) : (batch.length : Int) = batchSize := by
  induction rows generalizing currentBatch with
  | nil =>
    rw [batches] at h
    split at h <;> simp at h
  | cons row rows ih =>
    rw [batches] at h
    split at h
    · rename_i hfull
      by_cases hrows : rows = []
      · rw [hrows] at h
        simp [batches] at h
      · rw [List.dropLast_cons_of_ne_nil (batches_ne_nil (Or.inl hrows)), List.mem_cons] at h
        obtain rfl | h := h
        · exact hfull.2
        · exact ih h
    · exact ih h

namespace QueryIterator

/-- What the action does at a call, given the calls so far. -/
def action : QueryIterator T E → List (IteratorCall T) → ActionOutcome E
  | .forEach action => action
  | .forBatch action _ => action

/-- The calls for the results that follow on those already handed over or in the current batch. -/
def remainingCalls (iter : QueryIterator T E) (index : Nat) (currentBatch rows : List T) : List (IteratorCall T) :=
  match iter with
  | .forEach _ => rows.zipIdx index |>.map fun (row, i) => .forEach row i
  | .forBatch _ batchSize => (batches batchSize currentBatch rows).map .forBatch

def documentedCalls (iter : QueryIterator T E) (rows : List T) : List (IteratorCall T) :=
  match iter, rows with
  | .forBatch _ _, [] => [.forBatch []]
  | iter, rows => iter.remainingCalls 0 [] rows

/-- Make calls until one of them does not proceed. -/
def perform (action : List (IteratorCall T) → ActionOutcome E) (calls : List (IteratorCall T)) :
    List (IteratorCall T) → List (IteratorCall T) × IterationResult E
  | [] => (calls, .resolved (handedOver calls) false)
  | c :: remaining =>
    let calls := calls ++ [c]
    match action calls with
    | .throw error => (calls, .rejected error)
    | .breakOff => (calls, .resolved (handedOver calls) true)
    | .proceed => perform action calls remaining

def documented (iter : QueryIterator T E) (rows : List T) : List (IteratorCall T) × IterationResult E :=
  perform iter.action [] (iter.documentedCalls rows)

/-! ### Iterating over all rows at once -/

variable (iter : QueryIterator T E)

def Counts (s : Iteration T) : Prop := s.resultIndex = handedOver s.calls + s.currentBatch.length

variable {iter} {s : Iteration T}

theorem Counts.handedOver_forEach (hcounts : Counts s) (hbatch : s.currentBatch = []) (row : T) :
    handedOver (s.calls ++ [.forEach row s.resultIndex]) = s.resultIndex + 1 := by
  rw [Counts, hbatch, List.length_nil, Nat.add_zero] at hcounts
  rw [handedOver_append_singleton, ← hcounts]
  rfl

theorem Counts.forEach (hcounts : Counts s) (hbatch : s.currentBatch = []) (row : T) :
    Counts { s with
      calls := s.calls ++ [.forEach row s.resultIndex]
      resultIndex := s.resultIndex + 1 } := by
  simp [Counts, hcounts.handedOver_forEach hbatch row, hbatch]

theorem Counts.handedOver_forBatch (hcounts : Counts s) (row : T) :
    handedOver (s.calls ++ [.forBatch (s.currentBatch ++ [row])]) = s.resultIndex + 1 := by
  rw [Counts] at hcounts
  rw [handedOver_append_singleton, hcounts, IteratorCall.size, List.length_append, List.length_singleton]
  omega

theorem Counts.forBatch (hcounts : Counts s) (row : T) :
    Counts { s with
      calls := s.calls ++ [.forBatch (s.currentBatch ++ [row])]
      currentBatch := []
      resultIndex := s.resultIndex + 1 } := by
  simp [Counts, hcounts.handedOver_forBatch row]

theorem Counts.collect (hcounts : Counts s) (row : T) :
    Counts { s with
      currentBatch := s.currentBatch ++ [row]
      resultIndex := s.resultIndex + 1 } := by
  rw [Counts] at hcounts ⊢
  simp only [hcounts, List.length_append, List.length_singleton]
  omega

theorem settle_loop_forEach (action : List (IteratorCall T) → ActionOutcome E) (hcounts : Counts s)
    (hbatch : s.currentBatch = []) (rows : List T) :
    (forEach action).settle ((forEach action).loop (-1) s rows) =
      perform action s.calls ((forEach action).remainingCalls s.resultIndex [] rows) := by
  induction rows generalizing s with
  | nil =>
    rw [Counts, hbatch] at hcounts
    rw [loop, settle, finish, yieldLast, remainingCalls, List.zipIdx_nil, List.map_nil, perform]
    simp [hcounts]
  | cons row rows ih =>
    have hnext := hcounts.handedOver_forEach hbatch row
    rw [loop, yield, remainingCalls, List.zipIdx_cons, List.map_cons, perform]
    simp only [Iteration.call]
    cases action (s.calls ++ [.forEach row s.resultIndex]) with
    | throw error => rfl
    | breakOff => simp [settle, finish, yieldLast, hnext]
    | proceed => exact ih (hcounts.forEach hbatch row) hbatch

theorem settle_loop_forBatch (action : List (IteratorCall T) → ActionOutcome E) (batchSize : Int) (hcounts : Counts s)
    (rows : List T) (hsome : rows ≠ [] ∨ s.resultIndex ≠ 0) :
    (forBatch action batchSize).settle ((forBatch action batchSize).loop (-1) s rows) =
      perform action s.calls ((batches batchSize s.currentBatch rows).map .forBatch) := by
  induction rows generalizing s with
  | nil =>
    have hindex : s.resultIndex ≠ 0 := hsome.resolve_left fun hne => hne rfl
    rw [Counts] at hcounts
    rw [loop, settle, finish, yieldLast, batches]
    by_cases hbatch : s.currentBatch = []
    · rw [if_pos hbatch, if_neg (by simp [hbatch, hindex]), List.map_nil, perform]
      simp [hcounts, hbatch]
    · have hpos : s.currentBatch.length > 0 := List.length_pos_iff.mpr hbatch
      rw [if_neg hbatch, if_pos (Or.inl hpos), List.map_singleton, perform]
      simp only [Iteration.call]
      have hnext : handedOver (s.calls ++ [.forBatch s.currentBatch]) = s.resultIndex := by
        rw [handedOver_append_singleton, hcounts]
        rfl
      cases action (s.calls ++ [.forBatch s.currentBatch]) with
      | throw error => rfl
      | breakOff => simp [hnext]
      | proceed => simp [perform, hnext]
  | cons row rows ih =>
    rw [loop, yield, batches]
    by_cases hfull : batchSize > 0 ∧ ((s.currentBatch ++ [row]).length : Int) = batchSize
    · rw [if_pos hfull, if_pos hfull, List.map_cons, perform]
      simp only [Iteration.call]
      have hnext := hcounts.handedOver_forBatch row
      cases action (s.calls ++ [.forBatch (s.currentBatch ++ [row])]) with
      | throw error => rfl
      | breakOff => simp [settle, finish, yieldLast, hnext]
      | proceed => exact ih (hcounts.forBatch row) (Or.inr (by simp))
    · rw [if_neg hfull, if_neg hfull]
      exact ih (hcounts.collect row) (Or.inr (by simp))

theorem fetchOnce_eq_documented (rows : List T) : iter.fetchOnce rows = iter.documented rows := by
  have hcounts : Counts (Iteration.initial : Iteration T) := rfl
  rw [fetchOnce, documented]
  cases iter with
  | forEach action => exact settle_loop_forEach action hcounts rfl rows
  | forBatch action batchSize =>
    cases rows with
    | nil =>
      have hfirst : (Iteration.initial : Iteration T).currentBatch.length > 0 ∨ (Iteration.initial : Iteration T).resultIndex = 0 :=
        Or.inr rfl
      rw [loop, settle, finish, yieldLast, if_pos hfirst, documentedCalls, perform]
      simp only [Iteration.call, Iteration.initial, QueryIterator.action]
      cases action ([] ++ [.forBatch []]) <;> rfl
    | cons row rows => exact settle_loop_forBatch action batchSize hcounts (row :: rows) (Or.inl (by simp))

/-! ### Iterations that are not broken -/

variable {action : List (IteratorCall T) → ActionOutcome E}

theorem perform_of_proceed (hproceed : ∀ calls, action calls = .proceed) (calls remaining : List (IteratorCall T)) :
    perform action calls remaining = (calls ++ remaining, .resolved (handedOver (calls ++ remaining)) false) := by
  induction remaining generalizing calls with
  | nil => rw [perform, List.append_nil]
  | cons c remaining ih =>
    rw [perform]
    simp only [hproceed, ih]
    rw [List.append_assoc, List.singleton_append]

theorem flatMap_results_forEach (index : Nat) (rows : List T) :
    (rows.zipIdx index |>.map fun (row, i) => IteratorCall.forEach row i).flatMap IteratorCall.results = rows := by
  induction rows generalizing index with
  | nil => rfl
  | cons row rows ih =>
    rw [List.zipIdx_cons, List.map_cons, List.flatMap_cons, ih]
    rfl

theorem flatMap_results_forBatch (batchSize : Int) (currentBatch rows : List T) :
    ((batches batchSize currentBatch rows).map IteratorCall.forBatch).flatMap IteratorCall.results = currentBatch ++ rows := by
  rw [← flatten_batches batchSize currentBatch rows, List.flatMap_map]
  exact List.flatMap_id

theorem documented_of_proceed (hproceed : ∀ calls, iter.action calls = .proceed) (rows : List T) :
    ∃ calls, iter.documented rows = (calls, .resolved rows.length false) ∧ calls.flatMap IteratorCall.results = rows := by
  have hresults : (iter.documentedCalls rows).flatMap IteratorCall.results = rows := by
    cases iter with
    | forEach action => exact flatMap_results_forEach 0 rows
    | forBatch action batchSize =>
      cases rows with
      | nil => rfl
      | cons row rows => exact flatMap_results_forBatch batchSize [] (row :: rows)
  refine ⟨iter.documentedCalls rows, ?_, hresults⟩
  rw [documented, perform_of_proceed hproceed, List.nil_append, handedOver_eq, hresults]

end QueryIterator

end Coaty
