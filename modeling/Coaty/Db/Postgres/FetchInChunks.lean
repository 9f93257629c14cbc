import Coaty.Db.QueryIteration

/-!
# Fetching results in chunks

An iteration with a fetch size reads its results from a cursor, in a transaction of its own on a client from the pool, or on the client of the transaction it is part of. The log of an iteration is what has happened to the client when its promise settles. If `take` is zero, or if the cursor cannot be opened, nobody closes the cursor or releases the client. Otherwise the client is released when the cursor is closed, and the action of the iteration is called as if all results had come at once.
-/

namespace Coaty

namespace Postgres

inductive Statement where
  | begin
  | declareCursor
  | read (take skip : Nat)
  | close
  | commit
  | rollback
deriving DecidableEq

/-- What happens to a client. A statement may fail. -/
inductive ClientEvent (E : Type) where
  | acquire
  | query (statement : Statement) (error : Option E)
  | release (error : Option E)
deriving DecidableEq

def ClientEvent.isRelease {E : Type} : ClientEvent E → Bool
  | .release _ => true
  | _ => false

namespace ClientEvent

variable {E : Type}

@[simp] theorem isRelease_acquire : (acquire : ClientEvent E).isRelease = false := rfl

@[simp] theorem isRelease_query (statement : Statement) (error : Option E) : (query statement error).isRelease = false := rfl

@[simp] theorem isRelease_release (error : Option E) : (release error).isRelease = true := rfl

end ClientEvent

/-- Whatever may fail in an iteration: creating the query, and the statements, of which only reading from the cursor happens more than once. -/
structure Failures (E : Type) where
  connect : Option E
  createQuery : Option E
  begin : Option E
  declareCursor : Option E
  read : Nat → Option E
  close : Option E
  commit : Option E
  rollback : Option E

/-- The arguments of an iteration, and whether it is part of a transaction. -/
structure FetchOptions where
  fetchSize : Nat
  fetchSize_pos : 0 < fetchSize
  take : Option Int
  skip : Option Int
  isTransactionClient : Bool

variable {T E : Type}

/-- What an iteration has done when its promise settles. -/
structure FetchRun (T E : Type) where
  calls : List (IteratorCall T)
  log : List (ClientEvent E)
  result : IterationResult E
deriving DecidableEq

/-- What the caller of the iteration sees of it. -/
def FetchRun.observed (run : FetchRun T E) : List (IteratorCall T) × IterationResult E := (run.calls, run.result)

namespace Failures

def none : Failures E := ⟨.none, .none, .none, .none, fun _ => .none, .none, .none, .none⟩

end Failures

namespace FetchOptions

variable (options : FetchOptions)

def takeCount : Int :=
  match options.take with
  | some take => max 0 take
  | none => -1

def skipCount : Nat :=
  match options.skip with
  | some skip => (max 0 skip).toNat
  | none => 0

/-- The rows that the iteration is about. -/
def rows (rows : List T) : List T :=
  match options.take with
  | some take => (rows.drop options.skipCount).take (max 0 take).toNat
  | none => rows.drop options.skipCount

variable (failures : Failures E)

/-- The statement that closes the cursor, and whether it fails. -/
def closing (error : Option E) : Statement × Option E :=
  if options.isTransactionClient then (.close, failures.close)
  else match error with
    | some _ => (.rollback, failures.rollback)
    | none => (.commit, failures.commit)

def releaseIfNotTx (error : Option E) : List (ClientEvent E) :=
  if options.isTransactionClient then [] else [.release error]

/-- `closeCursor` with the action that releases the client. -/
def closeCursor (log : List (ClientEvent E)) (error : Option E) : List (ClientEvent E) :=
  let (statement, failure) := options.closing failures error
  log ++ [.query statement failure] ++ options.releaseIfNotTx failure

/-- The end of an iteration. What the action throws at the last batch is handled like any other error. -/
def conclude (log : List (ClientEvent E)) (ended : List (IteratorCall T) × IterationResult E) : FetchRun T E :=
  match ended with
  | (calls, .resolved resultIndex isBreakInvoked) =>
    ⟨calls, options.closeCursor failures log none, .resolved resultIndex isBreakInvoked⟩
  | (calls, .rejected error) => ⟨calls, options.closeCursor failures log error, .rejected error⟩

variable (iter : QueryIterator T E)

/-- The `n`th chunk is read from a cursor in front of the given rows. -/
def fetchNextChunk (n fetchCount skipCount : Nat) (_hcount : 0 < fetchCount) (rows : List T) (s : Iteration T)
    (log : List (ClientEvent E)) : FetchRun T E :=
  let log := log ++ [.query (.read fetchCount skipCount) (failures.read n)]
  match failures.read n with
  | some error => ⟨s.calls, options.closeCursor failures log error, .rejected (some error)⟩
  | none =>
    let remaining := rows.drop skipCount
    match iter.loop options.takeCount s (remaining.take fetchCount) with
    | (s, .completed) =>
      if h : (remaining.take fetchCount).length < fetchCount then
        options.conclude failures log (iter.settle (s, .completed))
      else
        fetchNextChunk (n + 1) options.fetchSize 0 options.fetchSize_pos (remaining.drop fetchCount) s log
    | ended => options.conclude failures log (iter.settle ended)
termination_by rows.length
decreasing_by
  have hremaining : remaining.length = rows.length - skipCount := List.length_drop
  rw [List.length_take] at h
  rw [List.length_drop, List.length_drop]
  omega

/-- Opening a cursor: the log, and an error if one of the statements fails. -/
def queryCursorLazy (log : List (ClientEvent E)) : List (ClientEvent E) × Option E :=
  match failures.createQuery with
  | some error => (log, some error)
  | none =>
    if options.isTransactionClient then
      (log ++ [.query .declareCursor failures.declareCursor], failures.declareCursor)
    else
      let log := log ++ [.query .begin failures.begin]
      match failures.begin with
      | some error => (log, some error)
      | none => (log ++ [.query .declareCursor failures.declareCursor], failures.declareCursor)

/-- What the iteration does with its client. -/
def iterate (rows : List T) (log : List (ClientEvent E)) : FetchRun T E :=
  match options.queryCursorLazy failures log with
  | (log, some error) => ⟨[], log, .rejected (some error)⟩
  | (log, none) =>
    if options.takeCount = 0 then ⟨[], log, .resolved 0 false⟩
    else
      options.fetchNextChunk failures iter 0 options.fetchSize options.skipCount options.fetchSize_pos rows .initial log

/-- The iteration that `_fetchInChunks` starts, for a query with the given rows. -/
def fetchInChunks (rows : List T) : FetchRun T E :=
  if options.isTransactionClient then options.iterate failures iter rows []
  else match failures.connect with
    | some error => ⟨[], [], .rejected (some error)⟩
    | none => options.iterate failures iter rows [.acquire]

/-! ### The same as at once -/

variable {options} {failures} {iter}

theorem observed_conclude (log : List (ClientEvent E)) (ended : List (IteratorCall T) × IterationResult E) :
    (options.conclude failures log ended).observed = ended := by
  obtain ⟨calls, result⟩ := ended
  cases result with
  | resolved resultIndex isBreakInvoked => rfl
  | rejected error => rfl

/-- Reading the rows in chunks comes to one loop over all of them. -/
theorem observed_fetchNextChunk (hread : ∀ n, failures.read n = none) (n fetchCount skipCount : Nat)
    (hcount : 0 < fetchCount) (rows : List T) (s : Iteration T) (log : List (ClientEvent E)) :
    (options.fetchNextChunk failures iter n fetchCount skipCount hcount rows s log).observed =
      iter.settle (iter.loop options.takeCount s (rows.drop skipCount)) := by
  fun_induction FetchOptions.fetchNextChunk options failures iter n fetchCount skipCount hcount rows s log with
  | case1 n fetchCount skipCount hcount rows s log _ error herror =>
    rw [hread n] at herror
    cases herror
  | case2 n fetchCount skipCount hcount rows s log _ hok remaining s' hloop hshort =>
    -- the last chunk
    have hall : remaining.take fetchCount = remaining := by
      rw [List.length_take] at hshort
      apply List.take_of_length_le
      omega
    rw [hall] at hloop
    rw [observed_conclude, hloop]
  | case3 n fetchCount skipCount hcount rows s log _ hok remaining s' hloop hfull ih =>
    have hsplit := iter.loop_append options.takeCount s (remaining.take fetchCount) (remaining.drop fetchCount)
    rw [List.take_append_drop, hloop] at hsplit
    rw [ih, hsplit, List.drop_zero]
  | case4 n fetchCount skipCount hcount rows s log _ hok remaining hloop =>
    have hsplit := iter.loop_append options.takeCount s (remaining.take fetchCount) (remaining.drop fetchCount)
    rw [List.take_append_drop] at hsplit
    rw [observed_conclude, hsplit]
    split
    · rename_i s' hcompleted
      exact absurd hcompleted (hloop s')
    · rfl

/-- Whether the options ask for no results. -/
def TakesNothing (options : FetchOptions) : Prop := ∃ take, options.take = some take ∧ take ≤ 0

theorem takeCount_eq_zero_iff : options.takeCount = 0 ↔ options.TakesNothing := by
  rw [takeCount, TakesNothing]
  cases options.take with
  | none => simp
  | some take => simp

theorem takeCount_of_not_takesNothing (h : ¬ options.TakesNothing) :
    options.takeCount = -1 ∧ options.take = none ∨
      ∃ take : Nat, 0 < take ∧ options.takeCount = take ∧ options.take = some (take : Int) := by
  rw [takeCount]
  cases htake : options.take with
  | none => exact Or.inl ⟨rfl, rfl⟩
  | some take =>
    have hpos : 0 < take := by
      by_contra hle
      exact h ⟨take, htake, by omega⟩
    refine Or.inr ⟨take.toNat, by omega, ?_, ?_⟩
    · dsimp only
      omega
    · rw [Int.toNat_of_nonneg (by omega)]

theorem queryCursorLazy_none (options : FetchOptions) (log : List (ClientEvent E)) :
    ∃ log', options.queryCursorLazy .none log = (log', none) := by
  cases hclient : options.isTransactionClient with
  | true => exact ⟨_, by rw [queryCursorLazy, hclient]; rfl⟩
  | false => exact ⟨_, by rw [queryCursorLazy, hclient]; rfl⟩

/-- Without a failure, and with results to take, the chunks are iterated over like all results at once. -/
theorem observed_fetchInChunks (h : ¬ options.TakesNothing) (rows : List T) :
    (options.fetchInChunks .none iter rows).observed = iter.fetchOnce (options.rows rows) := by
  have htake : options.takeCount ≠ 0 := fun hzero => h (takeCount_eq_zero_iff.mp hzero)
  have hloop : iter.settle (iter.loop options.takeCount .initial (rows.drop options.skipCount)) =
      iter.fetchOnce (options.rows rows) := by
    rw [QueryIterator.fetchOnce, FetchOptions.rows]
    obtain ⟨hcount, hnone⟩ | ⟨take, hpos, hcount, hsome⟩ := takeCount_of_not_takesNothing h
    · rw [hcount, hnone]
    · have hmax : (max 0 (take : Int)).toNat = take - (Iteration.initial : Iteration T).resultIndex := by
        dsimp only [Iteration.initial]
        omega
      rw [hcount, hsome, iter.settle_loop_take (s := .initial) hpos]
      dsimp only
      rw [hmax]
  have hiterate : ∀ log : List (ClientEvent E),
      (options.iterate .none iter rows log).observed = iter.fetchOnce (options.rows rows) := by
    intro log
    obtain ⟨log', hcursor⟩ := queryCursorLazy_none options log
    rw [iterate, hcursor]
    dsimp only
    rw [if_neg htake, observed_fetchNextChunk (fun _ => rfl), hloop]
  rw [fetchInChunks]
  split
  · exact hiterate []
  · exact hiterate [.acquire]

/-- An iteration in chunks is the same as one over all results at once exactly if it takes some results or is no iteration over batches. -/
theorem fetchInChunks_eq_fetchOnce_iff (options : FetchOptions) (iter : QueryIterator T E) (rows : List T) :
    (options.fetchInChunks .none iter rows).observed = iter.fetchOnce (options.rows rows) ↔
      ¬ (options.TakesNothing ∧ ∃ action batchSize, iter = .forBatch action batchSize) := by
  by_cases h : options.TakesNothing
  · have hchunks : (options.fetchInChunks .none iter rows).observed = ([], .resolved 0 false) := by
      have hiterate : ∀ log : List (ClientEvent E),
          (options.iterate .none iter rows log).observed = ([], .resolved 0 false) := by
        intro log
        obtain ⟨log', hcursor⟩ := queryCursorLazy_none options log
        rw [iterate, hcursor]
        dsimp only
        rw [if_pos (takeCount_eq_zero_iff.mpr h)]
        rfl
      rw [fetchInChunks]
      split
      · exact hiterate []
      · exact hiterate [.acquire]
    have hrows : options.rows rows = [] := by
      obtain ⟨take, htake, hle⟩ := h
      have hzero : (max 0 take).toNat = 0 := by omega
      rw [FetchOptions.rows, htake]
      dsimp only
      rw [hzero, List.take_zero]
    rw [hchunks, hrows, eq_comm, iter.fetchOnce_nil_eq_iff]
    cases iter with
    | forEach action => simp
    | forBatch action batchSize => simp [h]
  · exact iff_of_true (observed_fetchInChunks h rows) fun hnot => h hnot.1

/-- Nothing to take, in batches. -/
theorem not_fetchInChunks_eq_fetchOnce :
    ¬ ∀ (options : FetchOptions) (iter : QueryIterator Nat Unit) (rows : List Nat),
      (options.fetchInChunks .none iter rows).observed = iter.fetchOnce (options.rows rows) := by
  intro h
  have hrun := h ⟨10, by decide, some 0, none, false⟩ (.forBatch (fun _ => .proceed) 5) [1, 2, 3]
  have hchunks : (FetchOptions.fetchInChunks ⟨10, by decide, some 0, none, false⟩ .none
      (.forBatch (fun _ => .proceed) 5 : QueryIterator Nat Unit) [1, 2, 3]).calls = [] := by decide
  have honce : (QueryIterator.fetchOnce (.forBatch (fun _ => .proceed) 5 : QueryIterator Nat Unit)
      (FetchOptions.rows ⟨10, by decide, some 0, none, false⟩ [1, 2, 3])).1 = [.forBatch []] := by decide
  rw [← hrun, FetchRun.observed, hchunks] at honce
  cases honce

/-! ### Releasing the client -/

/-- Every cursor that an iteration in a transaction has opened is closed and the client is kept, and a client that an iteration has got from the pool is released exactly once. -/
def LeavesNoClient (options : FetchOptions) (log : List (ClientEvent E)) : Prop :=
  if options.isTransactionClient = true then
    (log.filter ClientEvent.isRelease).length = 0 ∧
      (.query .declareCursor none ∈ log → .query .close none ∈ log)
  else .acquire ∈ log → (log.filter ClientEvent.isRelease).length = 1

/-- No cursor is opened in a transaction, or it is read from and can be closed. Outside of one no client is obtained, or a cursor is opened and read from. -/
def ClosesCursor (options : FetchOptions) (failures : Failures E) : Prop :=
  if options.isTransactionClient = true then
    failures.createQuery.isSome = true ∨ failures.declareCursor.isSome = true ∨
      ¬ options.TakesNothing ∧ failures.close = none
  else failures.connect.isSome = true ∨ failures.createQuery = none ∧ failures.begin = none ∧
    failures.declareCursor = none ∧ ¬ options.TakesNothing

theorem log_fetchNextChunk (n fetchCount skipCount : Nat) (hcount : 0 < fetchCount) (rows : List T) (s : Iteration T)
    (log : List (ClientEvent E)) :
    ∃ reads error, (∀ event ∈ reads, ∃ take skip failure, event = ClientEvent.query (.read take skip) failure) ∧
      (options.fetchNextChunk failures iter n fetchCount skipCount hcount rows s log).log =
        options.closeCursor failures (log ++ reads) error := by
  have hconclude : ∀ (log : List (ClientEvent E)) (ended : List (IteratorCall T) × IterationResult E),
      ∃ error, (options.conclude failures log ended).log = options.closeCursor failures log error := by
    intro log ended
    obtain ⟨calls, result⟩ := ended
    cases result with
    | resolved resultIndex isBreakInvoked => exact ⟨none, rfl⟩
    | rejected error => exact ⟨error, rfl⟩
  have hread : ∀ (n fetchCount skipCount : Nat) (event : ClientEvent E),
      event ∈ [ClientEvent.query (.read fetchCount skipCount) (failures.read n)] →
        ∃ take skip failure, event = ClientEvent.query (.read take skip) failure := by
    intro n fetchCount skipCount event hmem
    exact ⟨fetchCount, skipCount, failures.read n, List.mem_singleton.mp hmem⟩
  fun_induction FetchOptions.fetchNextChunk options failures iter n fetchCount skipCount hcount rows s log with
  | case1 n fetchCount skipCount hcount rows s log _ error herror =>
    exact ⟨_, some error, hread n fetchCount skipCount, rfl⟩
  | case2 n fetchCount skipCount hcount rows s log _ hok remaining s' hloop hshort =>
    obtain ⟨error, hlog⟩ := hconclude _ (iter.settle (s', .completed))
    exact ⟨_, error, hread n fetchCount skipCount, hlog⟩
  | case3 n fetchCount skipCount hcount rows s log _ hok remaining s' hloop hfull ih =>
    obtain ⟨reads, error, hreads, hlog⟩ := ih
    refine ⟨_ :: reads, error, List.forall_mem_cons.mpr ⟨hread n fetchCount skipCount _ (List.mem_singleton.mpr rfl), hreads⟩, ?_⟩
    rw [hlog, List.append_assoc, List.singleton_append]
  | case4 n fetchCount skipCount hcount rows s log _ hok remaining hloop =>
    obtain ⟨error, hlog⟩ := hconclude _ (iter.settle (iter.loop options.takeCount s (remaining.take fetchCount)))
    exact ⟨_, error, hread n fetchCount skipCount, hlog⟩

theorem filter_isRelease_reads {reads : List (ClientEvent E)}
    (h : ∀ event ∈ reads, ∃ take skip failure, event = ClientEvent.query (.read take skip) failure) :
    reads.filter ClientEvent.isRelease = [] := by
  rw [List.filter_eq_nil_iff]
  intro event hmem
  obtain ⟨take, skip, failure, rfl⟩ := h event hmem
  exact Bool.false_ne_true

theorem releases_closeCursor_of_not_tx (hclient : options.isTransactionClient = false) (log : List (ClientEvent E))
    (error : Option E) :
    ((options.closeCursor failures log error).filter ClientEvent.isRelease).length =
      (log.filter ClientEvent.isRelease).length + 1 := by
  cases error with
  | none =>
    simp [closeCursor, closing, releaseIfNotTx, hclient]
    rfl
  | some error =>
    simp [closeCursor, closing, releaseIfNotTx, hclient]
    rfl

theorem closeCursor_of_tx (hclient : options.isTransactionClient = true) (log : List (ClientEvent E))
    (error : Option E) :
    options.closeCursor failures log error = log ++ [.query .close failures.close] := by
  simp [closeCursor, closing, releaseIfNotTx, hclient]

theorem iterate_of_opened (iter : QueryIterator T E) (htake : ¬ options.TakesNothing) {log log' : List (ClientEvent E)}
    (hcursor : options.queryCursorLazy failures log = (log', none)) (rows : List T) :
    ∃ reads error, (∀ event ∈ reads, ∃ take skip failure, event = ClientEvent.query (.read take skip) failure) ∧
      (options.iterate failures iter rows log).log = options.closeCursor failures (log' ++ reads) error := by
  rw [iterate, hcursor]
  dsimp only
  rw [if_neg fun hzero => htake (takeCount_eq_zero_iff.mp hzero)]
  exact log_fetchNextChunk _ _ _ _ _ _ _

theorem iterate_of_takesNothing (htake : options.TakesNothing) {log log' : List (ClientEvent E)}
    (hcursor : options.queryCursorLazy failures log = (log', none)) (rows : List T) :
    (options.iterate failures iter rows log).log = log' := by
  rw [iterate, hcursor]
  dsimp only
  rw [if_pos (takeCount_eq_zero_iff.mpr htake)]

theorem iterate_of_not_opened {log log' : List (ClientEvent E)} {error : E}
    (hcursor : options.queryCursorLazy failures log = (log', some error)) (rows : List T) :
    (options.iterate failures iter rows log).log = log' := by
  rw [iterate, hcursor]

theorem leavesNoClient_tx_iff (hclient : options.isTransactionClient = true) (rows : List T) :
    LeavesNoClient options (options.iterate failures iter rows []).log ↔ ClosesCursor options failures := by
  rw [LeavesNoClient, ClosesCursor, if_pos hclient, if_pos hclient]
  cases hquery : failures.createQuery with
  | some error =>
    have hcursor : options.queryCursorLazy failures [] = ([], some error) := by rw [queryCursorLazy, hquery]
    rw [iterate_of_not_opened hcursor]
    simp
  | none =>
    have hcursor : options.queryCursorLazy failures [] =
        ([.query .declareCursor failures.declareCursor], failures.declareCursor) := by
      rw [queryCursorLazy, hquery, if_pos hclient, List.nil_append]
    cases hdeclare : failures.declareCursor with
    | some error =>
      rw [hdeclare] at hcursor
      rw [iterate_of_not_opened hcursor]
      simp
    | none =>
      rw [hdeclare] at hcursor
      by_cases htake : options.TakesNothing
      · rw [iterate_of_takesNothing htake hcursor]
        simp [htake]
      · obtain ⟨reads, error, hreads, hlog⟩ := iterate_of_opened iter htake hcursor rows
        have hnot : ClientEvent.query .close none ∉ reads := by
          intro hmem
          obtain ⟨take, skip, failure, heq⟩ := hreads _ hmem
          cases heq
        rw [hlog, closeCursor_of_tx hclient]
        simp [filter_isRelease_reads hreads, hnot, htake, eq_comm]

theorem leavesNoClient_pooled_iff (hclient : options.isTransactionClient = false) (hconnect : failures.connect = none)
    (rows : List T) :
    LeavesNoClient options (options.iterate failures iter rows [.acquire]).log ↔ ClosesCursor options failures := by
  have hclient' : ¬ options.isTransactionClient = true := by
    rw [hclient]
    exact Bool.false_ne_true
  rw [LeavesNoClient, ClosesCursor, if_neg hclient', if_neg hclient', hconnect]
  cases hquery : failures.createQuery with
  | some error =>
    have hcursor : options.queryCursorLazy failures [.acquire] = ([.acquire], some error) := by
      rw [queryCursorLazy, hquery]
    rw [iterate_of_not_opened hcursor]
    simp
  | none =>
    cases hbegin : failures.begin with
    | some error =>
      have hcursor : options.queryCursorLazy failures [.acquire] =
          ([.acquire, .query .begin (some error)], some error) := by
        rw [queryCursorLazy, hquery, if_neg hclient', hbegin]
        rfl
      rw [iterate_of_not_opened hcursor]
      simp
    | none =>
      have hcursor : options.queryCursorLazy failures [.acquire] =
          ([.acquire, .query .begin none, .query .declareCursor failures.declareCursor], failures.declareCursor) := by
        rw [queryCursorLazy, hquery, if_neg hclient', hbegin]
        rfl
      cases hdeclare : failures.declareCursor with
      | some error =>
        rw [hdeclare] at hcursor
        rw [iterate_of_not_opened hcursor]
        simp
      | none =>
        rw [hdeclare] at hcursor
        by_cases htake : options.TakesNothing
        · rw [iterate_of_takesNothing htake hcursor]
          simp [htake]
        · obtain ⟨reads, error, hreads, hlog⟩ := iterate_of_opened iter htake hcursor rows
          rw [hlog, releases_closeCursor_of_not_tx hclient, List.filter_append, filter_isRelease_reads hreads]
          simp [htake]

/-- An iteration leaves no client and no cursor behind exactly if it opens a cursor and reads from it, or has nothing to leave behind. -/
theorem leavesNoClient_iff_closesCursor (options : FetchOptions) (failures : Failures E) (iter : QueryIterator T E)
    (rows : List T) :
    LeavesNoClient options (options.fetchInChunks failures iter rows).log ↔ ClosesCursor options failures := by
  cases hclient : options.isTransactionClient with
  | true =>
    rw [fetchInChunks, if_pos hclient]
    exact leavesNoClient_tx_iff hclient rows
  | false =>
    have hclient' : ¬ options.isTransactionClient = true := by
      rw [hclient]
      exact Bool.false_ne_true
    rw [fetchInChunks, if_neg hclient']
    cases hconnect : failures.connect with
    | some error =>
      rw [LeavesNoClient, ClosesCursor, if_neg hclient', if_neg hclient', hconnect]
      simp
    | none => exact leavesNoClient_pooled_iff hclient hconnect rows

/-- With nothing to take, a client from the pool is not released. -/
theorem not_leavesNoClient :
    ¬ ∀ (options : FetchOptions) (failures : Failures Unit) (iter : QueryIterator Nat Unit) (rows : List Nat),
      LeavesNoClient options (options.fetchInChunks failures iter rows).log := by
  intro h
  have hrun := h ⟨10, by decide, some 0, none, false⟩ .none (.forEach fun _ => .proceed) [1, 2, 3]
  rw [LeavesNoClient, if_neg Bool.false_ne_true] at hrun
  exact absurd (hrun (by decide)) (by decide)

end FetchOptions

end Postgres

end Coaty
