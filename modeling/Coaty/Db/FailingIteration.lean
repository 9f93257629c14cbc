import Coaty.Db.DocumentedIteration
import Coaty.Evaluation

/-!
# Iterations that end in a failure

Results that come up one by one may end in a failure instead of coming to an end. The action is called for what comes before the failure, where a batch that is not full yet is lost. An iteration that has been broken before does not come to the failure.
-/

namespace Coaty

variable {T U E : Type}

/-- Results and what has kept any further ones from coming up. -/
structure Rows (T E : Type) where
  values : List T
  failure : Option E
deriving DecidableEq

namespace Rows

def failed (e : E) : Rows T E := ⟨[], some e⟩

def cons (value : T) (rows : Rows T E) : Rows T E := ⟨value :: rows.values, rows.failure⟩

def skip (n : Nat) (rows : Rows T E) : Rows T E := ⟨rows.values.drop n, rows.failure⟩

/-- No more than a number of results. The one after these is still waited for, so the failure is come to only if there is none. -/
def limit (limit : Option Nat) (rows : Rows T E) : Rows T E :=
  match limit with
  | none => rows
  | some n => if n < rows.values.length then ⟨rows.values.take n, none⟩ else rows

/-- Each of the results evaluated, up to the first one that fails. -/
def evaluate (f : T → Except E U) (rows : Rows T E) : Rows U E :=
  go rows.failure rows.values
where
  go (failure : Option E) : List T → Rows U E
  | [] => ⟨[], failure⟩
  | value :: values =>
    match f value with
    | .error e => failed e
    | .ok result => (go failure values).cons result

variable {rows : Rows T E} {f : T → Except E U} {value : T}

theorem skip_zero : rows.skip 0 = rows := rfl

theorem skip_cons_succ (n : Nat) : (rows.cons value).skip (n + 1) = rows.skip n := rfl

theorem limit_cons_succ (n : Nat) : (rows.cons value).limit (some (n + 1)) = (rows.limit (some n)).cons value := by
  rw [limit, limit]
  by_cases hlonger : n < rows.values.length
  · have hlonger' : n + 1 < (rows.cons value).values.length := Nat.succ_lt_succ hlonger
    simp only [if_pos hlonger, if_pos hlonger']
    rfl
  · have hlonger' : ¬ n + 1 < (rows.cons value).values.length := fun h => hlonger (Nat.lt_of_succ_lt_succ h)
    simp only [if_neg hlonger, if_neg hlonger']

theorem limit_zero_cons : (rows.cons value).limit (some 0) = ⟨[], none⟩ := rfl

theorem evaluate_cons : (rows.cons value).evaluate f =
    match f value with
    | .error e => failed e
    | .ok result => (rows.evaluate f).cons result := rfl

theorem limit_zero (hvalues : rows.values ≠ []) : rows.limit (some 0) = ⟨[], none⟩ :=
  if_pos (List.length_pos_iff.mpr hvalues)

theorem limit_of_nil (hvalues : rows.values = []) (l : Option Nat) : rows.limit l = rows := by
  cases l with
  | none => rfl
  | some n =>
    rw [limit, hvalues]
    exact if_neg (Nat.not_lt_zero n)

theorem evaluate_ne_nil (hvalues : rows.values ≠ []) :
    (rows.evaluate f).values ≠ [] ∨ (rows.evaluate f).failure ≠ none := by
  obtain ⟨values, failure⟩ := rows
  cases values with
  | nil => exact absurd rfl hvalues
  | cons value values =>
    rw [evaluate, evaluate.go]
    cases f value with
    | error e => exact Or.inr (Option.some_ne_none e)
    | ok result => exact Or.inl (List.cons_ne_nil _ _)

/-- What comes behind the first failure is not evaluated. -/
theorem evaluate_congr {g : T → Except E U} {p : T → Bool}
    (hvalues : ∀ value ∈ rows.values.takeWhile p, f value = g value)
    (hfails : ∀ value, p value = false → ∃ e, f value = .error e ∧ g value = .error e) :
    rows.evaluate f = rows.evaluate g := by
  obtain ⟨values, failure⟩ := rows
  rw [evaluate, evaluate]
  induction values with
  | nil => rfl
  | cons value values ih =>
    rw [evaluate.go, evaluate.go]
    cases hp : p value with
    | false =>
      obtain ⟨e, hf, hg⟩ := hfails value hp
      rw [hf, hg]
    | true =>
      simp only [List.takeWhile_cons, hp, if_true, List.forall_mem_cons] at hvalues
      rw [hvalues.1, ih hvalues.2]

theorem eq_of_evaluate {g : T → Except E U} {p : T → Bool}
    (hreturns : ∀ value, p value = true → Evaluation.Returns (f value) ∧ Evaluation.Returns (g value))
    (hvalues : (rows.evaluate f).values = (rows.evaluate g).values) :
    ∀ value ∈ rows.values.takeWhile p, f value = g value := by
  obtain ⟨values, failure⟩ := rows
  rw [evaluate, evaluate] at hvalues
  induction values with
  | nil => simp
  | cons value values ih =>
    cases hp : p value with
    | false => simp [hp]
    | true =>
      obtain ⟨⟨result, hf⟩, ⟨result', hg⟩⟩ := hreturns value hp
      simp only [evaluate.go, hf, hg, cons, List.cons.injEq] at hvalues
      simp only [List.takeWhile_cons, hp, if_true, List.forall_mem_cons]
      refine ⟨?_, ih hvalues.2⟩
      rw [hf, hg, hvalues.1]

theorem evaluate_of_ok {g : T → U} (hvalues : ∀ value ∈ rows.values, f value = .ok (g value)) :
    rows.evaluate f = ⟨rows.values.map g, rows.failure⟩ := by
  obtain ⟨values, failure⟩ := rows
  rw [evaluate]
  induction values with
  | nil => rfl
  | cons value values ih =>
    rw [List.forall_mem_cons] at hvalues
    simp only [evaluate.go, hvalues.1, ih hvalues.2]
    rfl

theorem returns_of_evaluate (hnone : (rows.evaluate f).failure = none) : ∀ value ∈ rows.values, Evaluation.Returns (f value) := by
  obtain ⟨values, failure⟩ := rows
  rw [evaluate] at hnone
  induction values with
  | nil => simp
  | cons value values ih =>
    rw [evaluate.go] at hnone
    cases hvalue : f value with
    | error e => simp [hvalue, failed] at hnone
    | ok result =>
      simp only [hvalue] at hnone
      exact List.forall_mem_cons.mpr ⟨⟨result, hvalue⟩, ih hnone⟩

theorem evaluate_range_of_nil (failure : Option E) (n : Nat) (l : Option Nat) :
    (((⟨[], failure⟩ : Rows T E).skip n).limit l).evaluate f = ⟨[], failure⟩ := by
  cases l with
  | none => rw [skip, List.drop_nil]; rfl
  | some l => rw [skip, List.drop_nil]; rfl

end Rows

namespace QueryIterator

/-- The loop over results that may end in a failure. -/
def loopRows (iter : QueryIterator T E) (s : Iteration T) (rows : Rows T E) : Iteration T × LoopEnd E :=
  match iter.loop (-1) s rows.values, rows.failure with
  | (s, .completed), some e => (s, .thrown (some e))
  | ended, _ => ended

def fullBatches (batchSize : Int) (currentBatch rows : List T) : List (List T) :=
  (batches batchSize currentBatch rows).filter fun batch => (batch.length : Int) = batchSize

/-- The calls that do not wait for more results. -/
def completeCalls (iter : QueryIterator T E) (rows : List T) : List (IteratorCall T) :=
  match iter with
  | .forEach _ => iter.remainingCalls 0 [] rows
  | .forBatch _ batchSize => (fullBatches batchSize [] rows).map .forBatch

def rejectAtEnd (e : E) : List (IteratorCall T) × IterationResult E → List (IteratorCall T) × IterationResult E
  | (calls, .resolved _ false) => (calls, .rejected (some e))
  | ended => ended

/-- The calls and the result of an iteration over rows that may end in a failure. -/
def documentedUntil (iter : QueryIterator T E) (rows : Rows T E) : List (IteratorCall T) × IterationResult E :=
  match rows.failure with
  | none => iter.documented rows.values
  | some e => rejectAtEnd e (perform iter.action [] (iter.completeCalls rows.values))

/-! ### The loop does what is documented -/

variable {iter : QueryIterator T E} {s : Iteration T} {e : E}

theorem loopRows_cons (value : T) (rows : Rows T E) :
    iter.loopRows s (rows.cons value) =
      match iter.yield s value with
      | (s, .throw error) => (s, .thrown error)
      | (s, .breakOff) => (s, .breakInvoked)
      | (s, .proceed) => iter.loopRows s rows := by
  have hloop : iter.loop (-1) s (rows.cons value).values =
      match iter.yield s value with
      | (s, .throw error) => (s, .thrown error)
      | (s, .breakOff) => (s, .breakInvoked)
      | (s, .proceed) => if (-1 : Int) > 0 ∧ (s.resultIndex : Int) ≥ -1 then (s, .allTaken) else iter.loop (-1) s rows.values :=
    rfl
  rw [loopRows, hloop]
  cases iter.yield s value with
  | mk s' outcome =>
    cases outcome with
    | throw error => rfl
    | breakOff => rfl
    | proceed =>
      simp only [if_neg (by omega : ¬ ((-1 : Int) > 0 ∧ (s'.resultIndex : Int) ≥ -1))]
      rfl

theorem settle_loopRows_forEach (action : List (IteratorCall T) → ActionOutcome E) (hcounts : Counts s)
    (hbatch : s.currentBatch = []) (rows : List T) :
    (forEach action).settle ((forEach action).loopRows s ⟨rows, some e⟩) =
      rejectAtEnd e (perform action s.calls ((forEach action).remainingCalls s.resultIndex [] rows)) := by
  induction rows generalizing s with
  | nil => rfl
  | cons row rows ih =>
    have hnext := hcounts.handedOver_forEach hbatch row
    rw [loopRows, loop, yield, remainingCalls, List.zipIdx_cons, List.map_cons, perform]
    simp only [Iteration.call]
    cases action (s.calls ++ [.forEach row s.resultIndex]) with
    | throw error => rfl
    | breakOff => simp [settle, finish, yieldLast, hnext, rejectAtEnd]
    | proceed => exact ih (hcounts.forEach hbatch row) hbatch

theorem fullBatches_nil {batchSize : Int} {currentBatch : List T}
    (hlack : batchSize ≤ 0 ∨ (currentBatch.length : Int) < batchSize) :
    fullBatches batchSize currentBatch ([] : List T) = [] := by
  rw [fullBatches, batches]
  split
  · rfl
  · rename_i hne
    have hlength : 0 < currentBatch.length := List.length_pos_iff.mpr hne
    rw [List.filter_singleton, decide_eq_false (by omega)]
    rfl

theorem fullBatches_cons (batchSize : Int) (currentBatch : List T) (row : T) (rows : List T) :
    fullBatches batchSize currentBatch (row :: rows) =
      if batchSize > 0 ∧ ((currentBatch ++ [row]).length : Int) = batchSize then
        (currentBatch ++ [row]) :: fullBatches batchSize [] rows
      else fullBatches batchSize (currentBatch ++ [row]) rows := by
  rw [fullBatches, batches]
  split
  · rename_i hfull
    rw [List.filter_cons, if_pos (decide_eq_true hfull.2)]
    rfl
  · rfl

theorem settle_loopRows_forBatch (action : List (IteratorCall T) → ActionOutcome E) (batchSize : Int)
    (hcounts : Counts s) (hlack : batchSize ≤ 0 ∨ (s.currentBatch.length : Int) < batchSize) (rows : List T) :
    (forBatch action batchSize).settle ((forBatch action batchSize).loopRows s ⟨rows, some e⟩) =
      rejectAtEnd e (perform action s.calls ((fullBatches batchSize s.currentBatch rows).map .forBatch)) := by
  induction rows generalizing s with
  | nil =>
    rw [fullBatches_nil hlack]
    rfl
  | cons row rows ih =>
    rw [loopRows, loop, yield, fullBatches_cons]
    by_cases hfull : batchSize > 0 ∧ ((s.currentBatch ++ [row]).length : Int) = batchSize
    · rw [if_pos hfull, if_pos hfull, List.map_cons, perform]
      simp only [Iteration.call]
      have hnext := hcounts.handedOver_forBatch row
      cases action (s.calls ++ [.forBatch (s.currentBatch ++ [row])]) with
      | throw error => rfl
      | breakOff => simp [settle, finish, yieldLast, hnext, rejectAtEnd]
      | proceed => exact ih (hcounts.forBatch row) (Or.inr hfull.1)
    · rw [if_neg hfull, if_neg hfull]
      refine ih (hcounts.collect row) ?_
      simp only [List.length_append, List.length_singleton] at hfull ⊢
      omega

theorem settle_loopRows (rows : Rows T E) : iter.settle (iter.loopRows .initial rows) = iter.documentedUntil rows := by
  obtain ⟨values, failure⟩ := rows
  cases failure with
  | none =>
    have hloop : iter.loopRows .initial ⟨values, none⟩ = iter.loop (-1) .initial values := by
      rw [loopRows]
      split
      · rename_i heq
        cases heq
      · rfl
    rw [hloop, documentedUntil]
    exact fetchOnce_eq_documented values
  | some e =>
    have hcounts : Counts (Iteration.initial : Iteration T) := rfl
    rw [documentedUntil]
    cases iter with
    | forEach action => exact settle_loopRows_forEach action hcounts rfl values
    | forBatch action batchSize =>
      have hlack : batchSize ≤ 0 ∨ ((Iteration.initial : Iteration T).currentBatch.length : Int) < batchSize :=
        le_or_gt batchSize 0
      exact settle_loopRows_forBatch action batchSize hcounts hlack values

/-! ### The calls are those of the results -/

variable {action : List (IteratorCall T) → ActionOutcome E}

theorem exists_done (action : List (IteratorCall T) → ActionOutcome E) (calls remaining : List (IteratorCall T)) :
    ∃ done, done <+: remaining ∧ (perform action calls remaining).1 = calls ++ done ∧ (done = [] → remaining = []) := by
  induction remaining generalizing calls with
  | nil => exact ⟨[], List.prefix_refl _, by simp [perform], fun _ => rfl⟩
  | cons c remaining ih =>
    rw [perform]
    obtain ⟨done, hdone, hcalls, -⟩ := ih (calls ++ [c])
    have hfirst : [c] <+: c :: remaining := ⟨remaining, rfl⟩
    cases action (calls ++ [c]) with
    | throw error => exact ⟨[c], hfirst, rfl, by simp⟩
    | breakOff => exact ⟨[c], hfirst, rfl, by simp⟩
    | proceed =>
      refine ⟨c :: done, List.prefix_cons_inj c |>.mpr hdone, ?_, by simp⟩
      simpa using hcalls

theorem calls_rejectAtEnd (outcome : List (IteratorCall T) × IterationResult E) :
    (rejectAtEnd e outcome).1 = outcome.1 := by
  unfold rejectAtEnd
  split <;> rfl

theorem documentedUntil_of_failure (hproceed : ∀ calls, iter.action calls = .proceed) {rows : Rows T E}
    (hfailure : rows.failure = some e) :
    iter.documentedUntil rows = (iter.completeCalls rows.values, .rejected (some e)) := by
  rw [documentedUntil, hfailure]
  simp only [perform_of_proceed hproceed, List.nil_append]
  rfl

/-- An iteration one by one that is not broken hands over all results. -/
theorem results_documentedUntil {action : List (IteratorCall T) → ActionOutcome E} (hproceed : ∀ calls, action calls = .proceed)
    (rows : Rows T E) : ((forEach action).documentedUntil rows).1.flatMap IteratorCall.results = rows.values := by
  obtain ⟨values, failure⟩ := rows
  have hiter : ∀ calls, (forEach action).action calls = .proceed := hproceed
  cases failure with
  | none =>
    obtain ⟨calls, hcalls, hresults⟩ := documented_of_proceed hiter values
    rw [documentedUntil, hcalls]
    exact hresults
  | some e =>
    rw [documentedUntil_of_failure hiter rfl]
    exact flatMap_results_forEach 0 values

theorem ne_nil_of_mem_batches {batchSize : Int} {currentBatch rows batch : List T}
    (h : batch ∈ batches batchSize currentBatch rows) : batch ≠ [] := by
  induction rows generalizing currentBatch with
  | nil =>
    rw [batches] at h
    split at h
    · simp at h
    · rename_i hne
      rw [List.mem_singleton] at h
      exact h ▸ hne
  | cons row rows ih =>
    rw [batches] at h
    split at h
    · obtain rfl | h := List.mem_cons.mp h
      · simp
      · exact ih h
    · exact ih h

theorem documentedUntil_ne_nil {rows : Rows T E} (hrows : rows.values ≠ [] ∨ rows.failure ≠ none) :
    iter.documentedUntil rows ≠ iter.documented [] := by
  intro heq
  obtain ⟨values, failure⟩ := rows
  cases iter with
  | forEach action =>
    have hnone : (forEach action).documented ([] : List T) = ([], .resolved 0 false) := rfl
    rw [hnone] at heq
    have hcalls : (perform action [] ((forEach action).remainingCalls 0 [] values)).1 = [] := by
      cases failure with
      | none =>
        rw [documentedUntil, documented, documentedCalls] at heq
        · exact congrArg Prod.fst heq
        · intro action batchSize hbatch
          cases hbatch
      | some e =>
        rw [← calls_rejectAtEnd]
        exact congrArg Prod.fst heq
    obtain ⟨done, -, hdone, hall⟩ := exists_done action [] ((forEach action).remainingCalls 0 [] values)
    rw [hcalls, List.nil_append] at hdone
    have hvalues : values = [] := by
      have hnil := hall hdone.symm
      simpa [remainingCalls] using hnil
    subst hvalues
    cases failure with
    | none => exact hrows.elim (fun h => h rfl) fun h => h rfl
    | some e => cases heq
  | forBatch action batchSize =>
    have hfirst : (IteratorCall.forBatch ([] : List T)) ∈ ((forBatch action batchSize).documented ([] : List T)).1 := by
      rw [documented, documentedCalls]
      obtain ⟨done, hdone, hcalls, hall⟩ := exists_done action [] [IteratorCall.forBatch ([] : List T)]
      have hmade : done = [.forBatch []] := by
        obtain hnil | ⟨rest, rfl, hrest⟩ := List.prefix_cons_iff.mp hdone
        · exact absurd (hall hnil) (by simp)
        · rw [List.prefix_nil.mp hrest]
      rw [QueryIterator.action, hcalls, hmade]
      exact List.mem_singleton_self _
    have hbatch : ∀ calls : List (IteratorCall T), (∀ c ∈ calls, ∃ batch ∈ batches batchSize [] values, c = .forBatch batch) →
        IteratorCall.forBatch [] ∉ (perform action [] calls).1 := by
      intro calls hcalls hmem
      obtain ⟨done, hdone, hmade, -⟩ := exists_done action [] calls
      rw [hmade, List.nil_append] at hmem
      obtain ⟨batch, hbatch, hc⟩ := hcalls _ (hdone.subset hmem)
      cases hc
      exact ne_nil_of_mem_batches hbatch rfl
    rw [← heq] at hfirst
    cases failure with
    | none =>
      have hvalues : values ≠ [] := hrows.resolve_right fun h => h rfl
      rw [documentedUntil, documented, documentedCalls] at hfirst
      · refine hbatch _ ?_ hfirst
        intro c hc
        obtain ⟨batch, hmem, rfl⟩ := List.mem_map.mp hc
        exact ⟨batch, hmem, rfl⟩
      · exact fun _ _ _ hnil => hvalues hnil
    | some e =>
      rw [documentedUntil, calls_rejectAtEnd] at hfirst
      refine hbatch _ ?_ hfirst
      intro c hc
      obtain ⟨batch, hmem, rfl⟩ := List.mem_map.mp hc
      exact ⟨batch, List.mem_of_mem_filter hmem, rfl⟩

end QueryIterator

end Coaty
