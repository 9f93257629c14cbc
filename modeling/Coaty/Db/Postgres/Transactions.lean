import Coaty.Transition
import Mathlib.Data.List.Basic

/-!
# Database transactions

A transaction takes a client from the pool and runs its action on a context with that client, between BEGIN and either COMMIT or ROLLBACK. The client of the context is cleared when the promise of the action settles. An action that throws instead of returning a promise is rolled back, too, but its context keeps the client that is released then. An operation is one statement, but an iteration goes from one statement to the next on the client that its context had at the start. Transactions, operations and iterations interleave at will; the client of a transaction has the number of the transaction.
-/

namespace Coaty

namespace Postgres

open Transition

inductive TransactionStatement where
  | begin
  | commit
  | rollback
deriving DecidableEq

inductive TransactionError (E : Type) where
  | failure (error : E)
  /-- Nested transactions (subtransactions or savepoints) are not supported. -/
  | nestedTransaction
deriving DecidableEq

/-- What comes of the action of a transaction. -/
inductive ActionEnd (V E : Type) where
  | fulfilled (value : V)
  | rejected (error : E)
  /-- The action throws before it returns a promise. -/
  | thrown (error : E)
deriving DecidableEq

/-- How the promise that `transaction` returns settles. -/
inductive TransactionResult (V E : Type) where
  | fulfilled (value : V)
  | rejected (error : TransactionError E)
deriving DecidableEq

inductive TransactionPhase (V E : Type) where
  | connecting
  | beginning
  /-- The action has been called, or its promise is pending. -/
  | running
  | committing (value : V)
  | rollingBack (error : E)
  | settled (result : TransactionResult V E)
deriving DecidableEq

/-- What a transaction asks for: a client of the pool, the execution of a statement, or that its action runs. -/
inductive TransactionRequest where
  | connect
  | statement (statement : TransactionStatement)
  | action
deriving DecidableEq

structure Transaction (V E : Type) where
  /-- The transaction on whose context this one was called, if it was called on one. -/
  outer : Option Nat
  phase : TransactionPhase V E
  /-- What has been asked for and not been answered yet. -/
  awaited : Option TransactionRequest
  /-- Whether a client was acquired from the pool. -/
  isAcquired : Bool
  /-- How often the client was released. -/
  releases : Nat
  /-- The statements that have been executed, and whether they failed. -/
  statements : List (TransactionStatement × Option E)
  actionEnd : Option (ActionEnd V E)
  /-- The `_transactionClient` of the context. -/
  transactionClient : Option Nat
deriving DecidableEq

/-- A statement of an operation or an iteration that is executed on the client of a transaction or on the pool. -/
structure Operation where
  client : Option Nat
  /-- Whether that client has been released before. -/
  isReleased : Bool
deriving DecidableEq

/-- An iteration over the results of a query, which fetches them in chunks by a cursor. -/
structure ChunkIteration where
  /-- The client that the context had when the iteration started. -/
  client : Option Nat
  /-- Whether a statement has been issued and not been answered yet. -/
  isOpen : Bool
deriving DecidableEq

structure Transactions (V E : Type) where
  transactions : List (Transaction V E)
  iterations : List ChunkIteration
  operations : List Operation
deriving DecidableEq

inductive Transactions.Event (V E : Type) where
  /-- `transaction` is called on the adapter, or on the context of a transaction. -/
  | transaction (outer : Option Nat)
  | connected (tx : Nat) (error : Option E)
  | begun (tx : Nat) (error : Option E)
  | actionEnded (tx : Nat) (actionEnd : ActionEnd V E)
  | committed (tx : Nat) (error : Option E)
  | rolledBack (tx : Nat) (error : Option E)
  /-- An operation is called on the adapter, or on the context of a transaction. -/
  | operation (context : Option Nat)
  /-- An action is given to the iterator of a query on the adapter, or on the context of a transaction. -/
  | iterate (context : Option Nat)
  /-- A statement of an iteration has been executed. It was the last one, or the next one is issued. -/
  | iterated (iteration : Nat) (isLast : Bool)
deriving DecidableEq

variable {V E : Type}

namespace Transaction

def create (outer : Option Nat) : Transaction V E := ⟨outer, .connecting, some .connect, false, 0, [], none, none⟩

variable (t : Transaction V E)

/-- Whether the context has been created. -/
def hasContext : Bool :=
  match t.phase with
  | .connecting => false
  | .beginning => false
  | .settled _ => t.actionEnd.isSome
  | _ => true

def release : Transaction V E := { t with releases := t.releases + 1 }

def executed (statement : TransactionStatement) (error : Option E) : Transaction V E :=
  { t with statements := t.statements ++ [(statement, error)] }

def settle (result : TransactionResult V E) : Transaction V E := { t with phase := .settled result }

/-- The next phase, in which something is asked for. -/
def await (phase : TransactionPhase V E) (request : TransactionRequest) : Transaction V E :=
  { t with phase, awaited := some request }

/-- An answer to what has been asked for. -/
def answered (request : TransactionRequest) (next : Transaction V E → Transaction V E) : Transaction V E :=
  if t.awaited = some request then next { t with awaited := none } else t

/-- `_beginTransaction` is called with the client. -/
def connected (isNested : Bool) (error : Option E) : Transaction V E :=
  match t.phase with
  | .connecting =>
    match error with
    | some error => t.settle (.rejected (.failure error))
    | none =>
      let t := { t with isAcquired := true }
      if isNested then t.release.settle (.rejected .nestedTransaction) else t.await .beginning (.statement .begin)
  | _ => t

def begun (tx : Nat) (error : Option E) : Transaction V E :=
  match t.phase with
  | .beginning =>
    let t := t.executed .begin error
    match error with
    | some error => t.release.settle (.rejected (.failure error))
    | none => { t with transactionClient := some tx }.await .running .action
  | _ => t

/-- What is thrown skips the code that clears the client of the context. -/
def actionEnded (actionEnd : ActionEnd V E) : Transaction V E :=
  match t.phase with
  | .running =>
    let t := { t with actionEnd := some actionEnd }
    match actionEnd with
    | .fulfilled value => { t with transactionClient := none }.await (.committing value) (.statement .commit)
    | .rejected error => { t with transactionClient := none }.await (.rollingBack error) (.statement .rollback)
    | .thrown error => t.await (.rollingBack error) (.statement .rollback)
  | _ => t

def committed (error : Option E) : Transaction V E :=
  match t.phase with
  | .committing value =>
    let t := (t.executed .commit error).release
    match error with
    | some error => t.settle (.rejected (.failure error))
    | none => t.settle (.fulfilled value)
  | _ => t

def rolledBack (error : Option E) : Transaction V E :=
  match t.phase with
  | .rollingBack reason =>
    (t.executed .rollback error).release.settle (.rejected (.failure reason))
  | _ => t

end Transaction

namespace Transactions

def initial : Transactions V E := ⟨[], [], []⟩

variable (s : Transactions V E)

/-- The client that the adapter or a context executes operations on. -/
def clientOf (context : Option Nat) : Option Nat :=
  context.bind fun tx => (s.transactions[tx]?).bind Transaction.transactionClient

def isReleased (tx : Nat) : Bool := (s.transactions[tx]?).any fun t => 0 < t.releases

/-- A context can be used once it has been created. -/
def isUsable (context : Option Nat) : Bool :=
  match context with
  | none => true
  | some tx => (s.transactions[tx]?).any Transaction.hasContext

def update (tx : Nat) (f : Transaction V E → Transaction V E) : Transactions V E :=
  { s with transactions := s.transactions.modify tx f }

def execute (client : Option Nat) : Transactions V E :=
  { s with operations := s.operations ++ [⟨client, client.any s.isReleased⟩] }

def step (s : Transactions V E) : Event V E → Transactions V E
  | .transaction outer =>
    if s.isUsable outer then { s with transactions := s.transactions ++ [.create outer] } else s
  | .connected tx error =>
    s.update tx fun t => t.answered .connect fun t => t.connected (s.clientOf t.outer).isSome error
  | .begun tx error => s.update tx fun t => t.answered (.statement .begin) fun t => t.begun tx error
  | .actionEnded tx actionEnd => s.update tx fun t => t.answered .action fun t => t.actionEnded actionEnd
  | .committed tx error => s.update tx fun t => t.answered (.statement .commit) fun t => t.committed error
  | .rolledBack tx error => s.update tx fun t => t.answered (.statement .rollback) fun t => t.rolledBack error
  | .operation context => if s.isUsable context then s.execute (s.clientOf context) else s
  | .iterate context =>
    if s.isUsable context then { s with iterations := s.iterations ++ [⟨s.clientOf context, true⟩] } else s
  | .iterated i isLast =>
    match s.iterations[i]? with
    | some ⟨client, true⟩ => { s.execute client with iterations := s.iterations.set i ⟨client, !isLast⟩ }
    | _ => s

end Transactions

/-! ### How transactions end -/

/-- If a transaction has begun, its action has ended, and it has been committed or rolled back accordingly. Otherwise its action has not been called. -/
def Transaction.Ended (t : Transaction V E) (result : TransactionResult V E) : Prop :=
  (∃ value, t.actionEnd = some (.fulfilled value) ∧
    (t.statements = [(.begin, none), (.commit, none)] ∧ result = .fulfilled value ∨
      ∃ error, t.statements = [(.begin, none), (.commit, some error)] ∧ result = .rejected (.failure error))) ∨
  (∃ reason error, (t.actionEnd = some (.rejected reason) ∨ t.actionEnd = some (.thrown reason)) ∧
    t.statements = [(.begin, none), (.rollback, error)] ∧ result = .rejected (.failure reason)) ∨
  (∃ error, t.actionEnd = none ∧ t.statements = [(.begin, some error)] ∧ result = .rejected (.failure error)) ∨
  (∃ error, t.actionEnd = none ∧ t.statements = [] ∧ result = .rejected error)

/-- A transaction whose promise has settled has released its client once, and its context has none. -/
structure Transaction.Concluded (t : Transaction V E) (result : TransactionResult V E) : Prop where
  released : t.releases = if t.isAcquired then 1 else 0
  cleared : t.transactionClient = none
  ended : t.Ended result

namespace Transactions

/-- All transactions that have settled have ended as they should, and no statement was executed on a released client. -/
structure EndsTransactions (s : Transactions V E) : Prop where
  concluded : ∀ t ∈ s.transactions, ∀ result, t.phase = .settled result → t.Concluded result
  operations : ∀ operation ∈ s.operations, operation.isReleased = false

def IsSettled (s : Transactions V E) : Prop := ∀ t ∈ s.transactions, ∃ result, t.phase = .settled result

/-- Whatever has been asked for has been answered. -/
structure IsAnswered (s : Transactions V E) : Prop where
  transactions : ∀ t ∈ s.transactions, t.awaited = none
  iterations : ∀ iteration ∈ s.iterations, iteration.isOpen = false

/-- An iteration goes on on the client of the transaction. -/
def GoesOn (s : Transactions V E) (tx : Nat) : Prop := ⟨some tx, true⟩ ∈ s.iterations

/-- No action throws, and each has waited for its iterations when the client is released. -/
def Waits (s : Transactions V E) : Event V E → Prop
  | .actionEnded tx (.thrown _) => ∀ t, s.transactions[tx]? = some t → t.phase ≠ .running
  | .committed tx _ => ∀ t, s.transactions[tx]? = some t → ∀ value, t.phase = .committing value → ¬ s.GoesOn tx
  | .rolledBack tx _ => ∀ t, s.transactions[tx]? = some t → ∀ reason, t.phase = .rollingBack reason → ¬ s.GoesOn tx
  | _ => True

end Transactions

namespace Transaction

/-! ### The course of one transaction -/

def HasThrown (t : Transaction V E) : Prop := ∃ error, t.actionEnd = some (.thrown error)

/-- What is asked for in a phase. -/
def requestIn : TransactionPhase V E → Option TransactionRequest
  | .connecting => some .connect
  | .beginning => some (.statement .begin)
  | .running => some .action
  | .committing _ => some (.statement .commit)
  | .rollingBack _ => some (.statement .rollback)
  | .settled _ => none

/-- What a transaction has done in each phase. A context keeps its client exactly if the action has thrown. -/
def HasDone (tx : Nat) (t : Transaction V E) : Prop :=
  match t.phase with
  | .connecting =>
    t.isAcquired = false ∧ t.releases = 0 ∧ t.statements = [] ∧ t.actionEnd = none ∧ t.transactionClient = none
  | .beginning =>
    t.isAcquired = true ∧ t.releases = 0 ∧ t.statements = [] ∧ t.actionEnd = none ∧ t.transactionClient = none
  | .running =>
    t.isAcquired = true ∧ t.releases = 0 ∧ t.statements = [(.begin, none)] ∧ t.actionEnd = none ∧
      t.transactionClient = some tx
  | .committing value =>
    t.isAcquired = true ∧ t.releases = 0 ∧ t.statements = [(.begin, none)] ∧
      t.actionEnd = some (.fulfilled value) ∧ t.transactionClient = none
  | .rollingBack error =>
    t.isAcquired = true ∧ t.releases = 0 ∧ t.statements = [(.begin, none)] ∧
      (t.actionEnd = some (.rejected error) ∧ t.transactionClient = none ∨
        t.actionEnd = some (.thrown error) ∧ t.transactionClient = some tx)
  | .settled result =>
    (t.releases = if t.isAcquired then 1 else 0) ∧ t.Ended result ∧
      (t.HasThrown ∧ t.transactionClient = some tx ∨ ¬ t.HasThrown ∧ t.transactionClient = none)

structure Fits (tx : Nat) (t : Transaction V E) : Prop where
  awaited : t.awaited = requestIn t.phase
  done : t.HasDone tx

/-- What an answer makes of a transaction that fits: another one, or the same if it is not awaited. -/
structure Answers (tx : Nat) (t t' : Transaction V E) : Prop where
  fits : t'.Fits tx
  hasContext : t.hasContext = true → t'.hasContext = true
  released : 0 < t.releases → 0 < t'.releases
  hasThrown : t.HasThrown → t'.HasThrown

variable {t : Transaction V E} {tx : Nat}

theorem connecting_of_requestIn {phase : TransactionPhase V E} (h : requestIn phase = some .connect) :
    phase = .connecting := by
  cases phase <;> first | rfl | cases h

theorem beginning_of_requestIn {phase : TransactionPhase V E} (h : requestIn phase = some (.statement .begin)) :
    phase = .beginning := by
  cases phase <;> first | rfl | cases h

theorem requestIn_eq_commit_iff {phase : TransactionPhase V E} :
    requestIn phase = some (.statement .commit) ↔ ∃ value, phase = .committing value := by
  cases phase <;> simp [requestIn]

theorem requestIn_eq_rollback_iff {phase : TransactionPhase V E} :
    requestIn phase = some (.statement .rollback) ↔ ∃ reason, phase = .rollingBack reason := by
  cases phase <;> simp [requestIn]

theorem fits_create (tx : Nat) (outer : Option Nat) : Fits tx (create outer : Transaction V E) :=
  ⟨rfl, rfl, rfl, rfl, rfl, rfl⟩

theorem not_hasThrown_of_none (h : t.actionEnd = none) : ¬ t.HasThrown := by
  intro ⟨error, hthrown⟩
  rw [h] at hthrown
  cases hthrown

theorem Fits.answers_self (h : Fits tx t) : Answers tx t t := ⟨h, id, id, id⟩

theorem Fits.connected (h : Fits tx t) (isNested : Bool) (error : Option E) :
    Answers tx t (t.answered .connect fun t => t.connected isNested error) := by
  obtain ⟨outer, phase, awaited, isAcquired, releases, statements, actionEnd, transactionClient⟩ := t
  have hawaited := h.awaited
  dsimp only at hawaited
  subst hawaited
  cases phase with
  | connecting =>
    obtain ⟨hacquired, hreleases, hstatements, haction, hclient⟩ := h.done
    dsimp only at hacquired hreleases hstatements haction hclient
    subst hacquired hreleases hstatements haction hclient
    refine ⟨?_, nofun, nofun, fun hthrown => absurd hthrown (not_hasThrown_of_none rfl)⟩
    cases error with
    | some error => exact ⟨rfl, rfl, Or.inr (Or.inr (Or.inr ⟨_, rfl, rfl, rfl⟩)), Or.inr ⟨not_hasThrown_of_none rfl, rfl⟩⟩
    | none =>
      cases isNested with
      | true => exact ⟨rfl, rfl, Or.inr (Or.inr (Or.inr ⟨_, rfl, rfl, rfl⟩)), Or.inr ⟨not_hasThrown_of_none rfl, rfl⟩⟩
      | false => exact ⟨rfl, rfl, rfl, rfl, rfl, rfl⟩
  | _ => exact h.answers_self

theorem Fits.begun (h : Fits tx t) (error : Option E) :
    Answers tx t (t.answered (.statement .begin) fun t => t.begun tx error) := by
  obtain ⟨outer, phase, awaited, isAcquired, releases, statements, actionEnd, transactionClient⟩ := t
  have hawaited := h.awaited
  dsimp only at hawaited
  subst hawaited
  cases phase with
  | beginning =>
    obtain ⟨hacquired, hreleases, hstatements, haction, hclient⟩ := h.done
    dsimp only at hacquired hreleases hstatements haction hclient
    subst hacquired hreleases hstatements haction hclient
    refine ⟨?_, nofun, nofun, fun hthrown => absurd hthrown (not_hasThrown_of_none rfl)⟩
    cases error with
    | some error =>
      exact ⟨rfl, rfl, Or.inr (Or.inr (Or.inl ⟨error, rfl, rfl, rfl⟩)), Or.inr ⟨not_hasThrown_of_none rfl, rfl⟩⟩
    | none => exact ⟨rfl, rfl, rfl, rfl, rfl, rfl⟩
  | _ => exact h.answers_self

theorem Fits.actionEnded (h : Fits tx t) (actionEnd : ActionEnd V E) :
    Answers tx t (t.answered .action fun t => t.actionEnded actionEnd) := by
  obtain ⟨outer, phase, awaited, isAcquired, releases, statements, actionEnd', transactionClient⟩ := t
  have hawaited := h.awaited
  dsimp only at hawaited
  subst hawaited
  cases phase with
  | running =>
    obtain ⟨hacquired, hreleases, hstatements, haction, hclient⟩ := h.done
    dsimp only at hacquired hreleases hstatements haction hclient
    subst hacquired hreleases hstatements haction hclient
    refine ⟨?_, fun _ => ?_, nofun, fun hthrown => absurd hthrown (not_hasThrown_of_none rfl)⟩
    · cases actionEnd with
      | fulfilled value => exact ⟨rfl, rfl, rfl, rfl, rfl, rfl⟩
      | rejected error => exact ⟨rfl, rfl, rfl, rfl, Or.inl ⟨rfl, rfl⟩⟩
      | thrown error => exact ⟨rfl, rfl, rfl, rfl, Or.inr ⟨rfl, rfl⟩⟩
    · cases actionEnd <;> rfl
  | _ => exact h.answers_self

theorem Fits.committed (h : Fits tx t) (error : Option E) :
    Answers tx t (t.answered (.statement .commit) fun t => t.committed error) := by
  obtain ⟨outer, phase, awaited, isAcquired, releases, statements, actionEnd, transactionClient⟩ := t
  have hawaited := h.awaited
  dsimp only at hawaited
  subst hawaited
  cases phase with
  | committing value =>
    obtain ⟨hacquired, hreleases, hstatements, haction, hclient⟩ := h.done
    dsimp only at hacquired hreleases hstatements haction hclient
    subst hacquired hreleases hstatements haction hclient
    have hthrown : ∀ t : Transaction V E, t.actionEnd = some (.fulfilled value) → ¬ t.HasThrown := by
      intro t ht ⟨error, hthrown⟩
      rw [ht] at hthrown
      cases hthrown
    refine ⟨?_, fun _ => ?_, nofun, fun hhas => absurd hhas (hthrown _ rfl)⟩
    · cases error with
      | some error =>
        exact ⟨rfl, rfl, Or.inl ⟨value, rfl, Or.inr ⟨error, rfl, rfl⟩⟩, Or.inr ⟨hthrown _ rfl, rfl⟩⟩
      | none => exact ⟨rfl, rfl, Or.inl ⟨value, rfl, Or.inl ⟨rfl, rfl⟩⟩, Or.inr ⟨hthrown _ rfl, rfl⟩⟩
    · cases error <;> rfl
  | _ => exact h.answers_self

theorem Fits.rolledBack (h : Fits tx t) (error : Option E) :
    Answers tx t (t.answered (.statement .rollback) fun t => t.rolledBack error) := by
  obtain ⟨outer, phase, awaited, isAcquired, releases, statements, actionEnd, transactionClient⟩ := t
  have hawaited := h.awaited
  dsimp only at hawaited
  subst hawaited
  cases phase with
  | rollingBack reason =>
    obtain ⟨hacquired, hreleases, hstatements, haction⟩ := h.done
    dsimp only at hacquired hreleases hstatements haction
    subst hacquired hreleases hstatements
    obtain ⟨haction, hclient⟩ | ⟨haction, hclient⟩ := haction
    · subst haction hclient
      refine ⟨⟨rfl, rfl, Or.inr (Or.inl ⟨reason, error, Or.inl rfl, rfl, rfl⟩), Or.inr ⟨?_, rfl⟩⟩, fun _ => rfl, nofun, id⟩
      intro ⟨error, hthrown⟩
      cases hthrown
    · subst haction hclient
      exact ⟨⟨rfl, rfl, Or.inr (Or.inl ⟨reason, error, Or.inr rfl, rfl, rfl⟩), Or.inl ⟨⟨reason, rfl⟩, rfl⟩⟩,
        fun _ => rfl, nofun, id⟩
  | _ => exact h.answers_self

@[simp] theorem actionEnd_connected (isNested : Bool) (error : Option E) :
    (t.connected isNested error).actionEnd = t.actionEnd := by
  rw [Transaction.connected.eq_def]
  split
  · cases error with
    | some error => rfl
    | none => cases isNested <;> rfl
  · rfl

@[simp] theorem actionEnd_begun (error : Option E) : (t.begun tx error).actionEnd = t.actionEnd := by
  rw [Transaction.begun.eq_def]
  split
  · cases error <;> rfl
  · rfl

@[simp] theorem actionEnd_committed (error : Option E) : (t.committed error).actionEnd = t.actionEnd := by
  rw [Transaction.committed.eq_def]
  split
  · cases error <;> rfl
  · rfl

@[simp] theorem actionEnd_rolledBack (error : Option E) : (t.rolledBack error).actionEnd = t.actionEnd := by
  rw [Transaction.rolledBack.eq_def]
  split <;> rfl

theorem actionEnd_answered {request : TransactionRequest} {next : Transaction V E → Transaction V E}
    (hnext : ∀ t, (next t).actionEnd = t.actionEnd) : (t.answered request next).actionEnd = t.actionEnd := by
  rw [answered]
  split
  · exact hnext _
  · rfl

theorem Fits.answered_of_ne (h : Fits tx t) {request : TransactionRequest} (hne : requestIn t.phase ≠ some request)
    (next : Transaction V E → Transaction V E) : t.answered request next = t := by
  rw [answered, if_neg]
  rwa [h.awaited]

theorem Fits.answered_of_eq (h : Fits tx t) {request : TransactionRequest} (heq : requestIn t.phase = some request)
    (next : Transaction V E → Transaction V E) : t.answered request next = next { t with awaited := none } := by
  rw [answered, if_pos]
  rwa [h.awaited]

theorem Fits.settled_of_awaited (h : Fits tx t) (hnone : t.awaited = none) : ∃ result, t.phase = .settled result := by
  have hawaited := h.awaited
  rw [hnone] at hawaited
  cases hphase : t.phase with
  | settled result => exact ⟨result, rfl⟩
  | _ =>
    rw [hphase] at hawaited
    cases hawaited

end Transaction

namespace Transactions

/-! ### Steps -/

variable {s : Transactions V E}

def Thrown (s : Transactions V E) : Prop := ∃ (tx : Nat) (t : Transaction V E), s.transactions[tx]? = some t ∧ t.HasThrown

/-- A context keeps its client for good, or a statement is or will be executed on a released client. -/
inductive Spoiled (s : Transactions V E) : Prop
  | thrown (h : s.Thrown)
  | operation (operation : Operation) (hmem : operation ∈ s.operations) (hreleased : operation.isReleased = true)
  | iteration (tx : Nat) (hgoesOn : s.GoesOn tx) (hreleased : s.isReleased tx = true)

/-- A client is held by contexts and iterations of its own transaction only, which has begun. -/
structure Coherent (s : Transactions V E) : Prop where
  fits : ∀ (tx : Nat) (t : Transaction V E), s.transactions[tx]? = some t → t.Fits tx
  iterations : ∀ iteration ∈ s.iterations, ∀ tx, iteration.client = some tx →
    ∃ t, s.transactions[tx]? = some t ∧ t.hasContext = true

theorem getElem?_update {tx i : Nat} {f : Transaction V E → Transaction V E} {t : Transaction V E} :
    (s.update tx f).transactions[i]? = some t ↔
      ∃ t', s.transactions[i]? = some t' ∧ (if tx = i then f t' else t') = t := by
  rw [update, List.getElem?_modify]
  exact Option.map_eq_some_iff

theorem isReleased_of_getElem? {tx : Nat} {t : Transaction V E} (ht : s.transactions[tx]? = some t) :
    s.isReleased tx = decide (0 < t.releases) := by
  rw [isReleased, ht]
  rfl

theorem coherent_initial : Coherent (initial : Transactions V E) := by
  refine ⟨fun tx t ht => ?_, fun iteration hmem => ?_⟩
  · cases ht
  · cases hmem

theorem not_spoiled_initial : ¬ (initial : Transactions V E).Spoiled := by
  intro hspoiled
  cases hspoiled with
  | thrown h =>
    obtain ⟨tx, t, ht, _⟩ := h
    cases ht
  | operation operation hmem => cases hmem
  | iteration tx hgoesOn => cases hgoesOn

theorem Coherent.clientOf_eq_some (h : Coherent s) {context : Option Nat} {tx : Nat} (hclient : s.clientOf context = some tx) :
    ∃ t, s.transactions[tx]? = some t ∧ t.hasContext = true ∧ (0 < t.releases → t.HasThrown) := by
  rw [clientOf] at hclient
  obtain ⟨i, _, hcontext⟩ := Option.bind_eq_some_iff.mp hclient
  obtain ⟨t, ht, hclient'⟩ := Option.bind_eq_some_iff.mp hcontext
  have hdone := (h.fits i t ht).done
  cases hphase : t.phase with
  | running =>
    rw [Transaction.HasDone, hphase, hclient', Option.some.injEq] at hdone
    obtain ⟨_, hreleases, _, _, rfl⟩ := hdone
    refine ⟨t, ht, ?_, fun hreleased => ?_⟩
    · rw [Transaction.hasContext, hphase]
    · omega
  | rollingBack error =>
    rw [Transaction.HasDone, hphase, hclient'] at hdone
    obtain ⟨_, hreleases, _, ⟨_, hnone⟩ | ⟨_, hsome⟩⟩ := hdone
    · cases hnone
    · cases hsome
      refine ⟨t, ht, ?_, fun hreleased => ?_⟩
      · rw [Transaction.hasContext, hphase]
      · omega
  | settled result =>
    rw [Transaction.HasDone, hphase, hclient'] at hdone
    obtain ⟨_, _, ⟨hthrown, hsome⟩ | ⟨_, hnone⟩⟩ := hdone
    · cases hsome
      refine ⟨t, ht, ?_, fun _ => hthrown⟩
      obtain ⟨error, haction⟩ := hthrown
      rw [Transaction.hasContext, hphase]
      simp only [haction, Option.isSome_some]
    · cases hnone
  | _ =>
    rw [Transaction.HasDone, hphase, hclient'] at hdone
    cases hdone.2.2.2.2

/-- The client of a context is released only if an action has thrown. -/
theorem Coherent.thrown_of_isReleased (h : Coherent s) {context : Option Nat}
    (hreleased : (s.clientOf context).any s.isReleased = true) : s.Thrown := by
  rw [Option.any_eq_true] at hreleased
  obtain ⟨tx, hclient, hreleased⟩ := hreleased
  obtain ⟨t, ht, _, hthrown⟩ := h.clientOf_eq_some hclient
  rw [isReleased_of_getElem? ht, decide_eq_true_eq] at hreleased
  exact ⟨tx, t, ht, hthrown hreleased⟩

theorem Coherent.update (h : Coherent s) {tx : Nat} {f : Transaction V E → Transaction V E}
    (hanswers : ∀ t : Transaction V E, t.Fits tx → t.Answers tx (f t)) : Coherent (s.update tx f) := by
  refine ⟨fun i t ht => ?_, fun iteration hmem i hclient => ?_⟩
  · obtain ⟨t', ht', rfl⟩ := getElem?_update.mp ht
    split
    · rename_i heq
      subst heq
      exact (hanswers t' (h.fits tx t' ht')).fits
    · exact h.fits i t' ht'
  · obtain ⟨t, ht, hcontext⟩ := h.iterations iteration hmem i hclient
    refine ⟨_, getElem?_update.mpr ⟨t, ht, rfl⟩, ?_⟩
    split
    · rename_i heq
      subst heq
      exact (hanswers t (h.fits tx t ht)).hasContext hcontext
    · exact hcontext

theorem Coherent.step (h : Coherent s) (event : Event V E) : Coherent (step s event) := by
  cases event with
  | transaction outer =>
    rw [Transactions.step]
    split
    · refine ⟨fun i t ht => ?_, fun iteration hmem i hclient => ?_⟩
      · dsimp only at ht
        rw [List.getElem?_append] at ht
        split at ht
        · exact h.fits i t ht
        · rw [List.getElem?_singleton] at ht
          split at ht
          · cases ht
            exact Transaction.fits_create i outer
          · cases ht
      · obtain ⟨t, ht, hcontext⟩ := h.iterations iteration hmem i hclient
        refine ⟨t, ?_, hcontext⟩
        rw [List.getElem?_append_left (List.getElem?_eq_some_iff.mp ht).1]
        exact ht
    · exact h
  | connected tx error => exact h.update fun t ht => ht.connected _ error
  | begun tx error => exact h.update fun t ht => ht.begun error
  | actionEnded tx actionEnd => exact h.update fun t ht => ht.actionEnded actionEnd
  | committed tx error => exact h.update fun t ht => ht.committed error
  | rolledBack tx error => exact h.update fun t ht => ht.rolledBack error
  | operation context =>
    rw [Transactions.step]
    split
    · exact ⟨h.fits, h.iterations⟩
    · exact h
  | iterate context =>
    rw [Transactions.step]
    split
    · refine ⟨h.fits, fun iteration hmem tx hclient => ?_⟩
      obtain hmem | heq := List.mem_append.mp hmem
      · exact h.iterations iteration hmem tx hclient
      · rw [List.mem_singleton.mp heq] at hclient
        obtain ⟨t, ht, hcontext, _⟩ := h.clientOf_eq_some hclient
        exact ⟨t, ht, hcontext⟩
    · exact h
  | iterated i isLast =>
    rw [Transactions.step]
    split
    · rename_i client hiteration
      refine ⟨h.fits, fun iteration hmem tx hclient => ?_⟩
      obtain hmem | rfl := List.mem_or_eq_of_mem_set hmem
      · exact h.iterations iteration hmem tx hclient
      · exact h.iterations _ (List.mem_of_getElem? hiteration) tx hclient
    · exact h

/-! ### Steps that spoil -/

theorem spoiled_iff : s.Spoiled ↔
    s.Thrown ∨ (∃ operation ∈ s.operations, operation.isReleased = true) ∨ ∃ tx, s.GoesOn tx ∧ s.isReleased tx = true := by
  constructor
  · intro hspoiled
    cases hspoiled with
    | thrown h => exact .inl h
    | operation operation hmem hreleased => exact .inr (.inl ⟨operation, hmem, hreleased⟩)
    | iteration tx hgoesOn hreleased => exact .inr (.inr ⟨tx, hgoesOn, hreleased⟩)
  · intro hcases
    obtain h | ⟨operation, hmem, hreleased⟩ | ⟨tx, hgoesOn, hreleased⟩ := hcases
    · exact .thrown h
    · exact .operation operation hmem hreleased
    · exact .iteration tx hgoesOn hreleased

theorem thrown_update_iff {tx : Nat} {f : Transaction V E → Transaction V E}
    (hf : ∀ t, (f t).actionEnd = t.actionEnd) : (s.update tx f).Thrown ↔ s.Thrown := by
  have hthrown : ∀ i t, (if tx = i then f t else t).HasThrown ↔ t.HasThrown := by
    intro i t
    split
    · rw [Transaction.HasThrown, Transaction.HasThrown, hf]
    · rfl
  constructor
  · intro ⟨i, t, ht, hhas⟩
    obtain ⟨t', ht', rfl⟩ := getElem?_update.mp ht
    exact ⟨i, t', ht', (hthrown i t').mp hhas⟩
  · intro ⟨i, t, ht, hhas⟩
    exact ⟨i, _, getElem?_update.mpr ⟨t, ht, rfl⟩, (hthrown i t).mpr hhas⟩

theorem spoiled_update_iff {tx : Nat} {f : Transaction V E → Transaction V E} {P Q : Prop}
    (hthrown : (s.update tx f).Thrown ↔ s.Thrown ∨ P)
    (hreleased : (∃ i, s.GoesOn i ∧ (s.update tx f).isReleased i = true) ↔
      (∃ i, s.GoesOn i ∧ s.isReleased i = true) ∨ Q) :
    (s.update tx f).Spoiled ↔ s.Spoiled ∨ P ∨ Q := by
  have hgoesOn : (∃ i, (s.update tx f).GoesOn i ∧ (s.update tx f).isReleased i = true) ↔
      (∃ i, s.GoesOn i ∧ s.isReleased i = true) ∨ Q := hreleased
  have hoperations : (∃ operation ∈ (s.update tx f).operations, operation.isReleased = true) ↔
      ∃ operation ∈ s.operations, operation.isReleased = true := Iff.rfl
  rw [spoiled_iff, spoiled_iff, hgoesOn, hthrown, hoperations]
  simp only [or_assoc, or_left_comm]

theorem released_update_iff (h : Coherent s) {tx : Nat} {f : Transaction V E → Transaction V E}
    (hreleases : ∀ t, s.transactions[tx]? = some t → t.hasContext = true → (f t).releases = t.releases) :
    (∃ i, s.GoesOn i ∧ (s.update tx f).isReleased i = true) ↔ ∃ i, s.GoesOn i ∧ s.isReleased i = true := by
  refine exists_congr fun i => and_congr_right fun hgoesOn => ?_
  obtain ⟨t, ht, hcontext⟩ := h.iterations _ hgoesOn i rfl
  rw [isReleased_of_getElem? ht, isReleased_of_getElem? (getElem?_update.mpr ⟨t, ht, rfl⟩)]
  split
  · rename_i heq
    subst heq
    rw [hreleases t ht hcontext]
  · rfl

theorem released_update_of_release {tx : Nat} {f : Transaction V E → Transaction V E} {t : Transaction V E}
    (ht : s.transactions[tx]? = some t) (hreleases : 0 < (f t).releases) :
    (∃ i, s.GoesOn i ∧ (s.update tx f).isReleased i = true) ↔
      (∃ i, s.GoesOn i ∧ s.isReleased i = true) ∨ s.GoesOn tx := by
  have hsame : ∀ i, i ≠ tx → (s.update tx f).isReleased i = s.isReleased i := by
    intro i hi
    simp [isReleased, update, Ne.symm hi]
  constructor
  · intro ⟨i, hgoesOn, hreleased⟩
    by_cases hi : i = tx
    · exact .inr (hi ▸ hgoesOn)
    · exact .inl ⟨i, hgoesOn, hsame i hi ▸ hreleased⟩
  · intro hcases
    have hreleased : (s.update tx f).isReleased tx = true := by
      rw [isReleased_of_getElem? (getElem?_update.mpr ⟨t, ht, rfl⟩), if_pos rfl]
      exact decide_eq_true hreleases
    obtain ⟨i, hgoesOn, hi⟩ | hgoesOn := hcases
    · by_cases heq : i = tx
      · exact ⟨tx, heq ▸ hgoesOn, hreleased⟩
      · exact ⟨i, hgoesOn, (hsame i heq).trans hi⟩
    · exact ⟨tx, hgoesOn, hreleased⟩

theorem spoiled_answered_iff (h : Coherent s) (tx : Nat) (request : TransactionRequest)
    {next : Transaction V E → Transaction V E} (hactionEnd : ∀ t, (next t).actionEnd = t.actionEnd)
    (hreleases : ∀ t, s.transactions[tx]? = some t → Transaction.requestIn t.phase = some request →
      0 < (next { t with awaited := none }).releases) :
    (s.update tx fun t => t.answered request next).Spoiled ↔
      s.Spoiled ∨ ¬ ∀ t, s.transactions[tx]? = some t → Transaction.requestIn t.phase = some request → ¬ s.GoesOn tx := by
  have hthrown : (s.update tx fun t => t.answered request next).Thrown ↔ s.Thrown ∨ False :=
    (thrown_update_iff fun t => Transaction.actionEnd_answered hactionEnd).trans (or_iff_left not_false).symm
  by_cases hawaited : ∃ t, s.transactions[tx]? = some t ∧ Transaction.requestIn t.phase = some request
  · obtain ⟨t, ht, hrequest⟩ := hawaited
    have hpos : 0 < (t.answered request next).releases := by
      rw [(h.fits tx t ht).answered_of_eq hrequest]
      exact hreleases t ht hrequest
    rw [spoiled_update_iff hthrown (released_update_of_release ht hpos), false_or]
    have hcondition : s.GoesOn tx ↔
        ¬ ∀ t, s.transactions[tx]? = some t → Transaction.requestIn t.phase = some request → ¬ s.GoesOn tx :=
      ⟨fun hgoesOn hnone => hnone t ht hrequest hgoesOn, fun hnot => by
        by_contra hgoesOn
        exact hnot fun _ _ _ => hgoesOn⟩
    rw [← hcondition]
  · have hsame : ∀ t, s.transactions[tx]? = some t → t.hasContext = true →
        (t.answered request next).releases = t.releases := by
      intro t ht _
      rw [(h.fits tx t ht).answered_of_ne fun hrequest => hawaited ⟨t, ht, hrequest⟩]
    rw [spoiled_update_iff hthrown ((released_update_iff h hsame).trans (or_iff_left not_false).symm), false_or]
    refine or_congr_right (iff_of_false id fun hnot => hnot fun t ht hrequest => ?_)
    exact absurd ⟨t, ht, hrequest⟩ hawaited

theorem spoiled_answered_of_context (h : Coherent s) {tx : Nat} {request : TransactionRequest}
    {next : Transaction V E → Transaction V E} (hactionEnd : ∀ t, (next t).actionEnd = t.actionEnd)
    (hcontext : ∀ t : Transaction V E, Transaction.requestIn t.phase = some request → t.hasContext = false) :
    (s.update tx fun t => t.answered request next).Spoiled ↔ s.Spoiled := by
  have hsame : ∀ t, s.transactions[tx]? = some t → t.hasContext = true →
      (t.answered request next).releases = t.releases := by
    intro t ht hhas
    rw [(h.fits tx t ht).answered_of_ne]
    intro hrequest
    rw [hcontext t hrequest] at hhas
    cases hhas
  rw [spoiled_update_iff (P := False) (Q := False)
    ((thrown_update_iff fun t => Transaction.actionEnd_answered hactionEnd).trans (or_iff_left not_false).symm)
    ((released_update_iff h hsame).trans (or_iff_left not_false).symm), or_self, or_false]

theorem releases_actionEnded (t : Transaction V E) (actionEnd : ActionEnd V E) :
    (t.answered .action fun t => t.actionEnded actionEnd).releases = t.releases := by
  rw [Transaction.answered]
  split
  · rw [Transaction.actionEnded.eq_def]
    split
    · cases actionEnd <;> rfl
    · rfl
  · rfl

theorem thrown_actionEnded_iff (h : Coherent s) (tx : Nat) (actionEnd : ActionEnd V E) :
    (s.update tx fun t => t.answered .action fun t => t.actionEnded actionEnd).Thrown ↔
      s.Thrown ∨ ¬ Waits s (.actionEnded tx actionEnd) := by
  have hended : ∀ t : Transaction V E, t.Fits tx → t.phase = .running →
      (t.answered .action fun t => t.actionEnded actionEnd).actionEnd = some actionEnd := by
    intro t ht hrunning
    rw [ht.answered_of_eq (by rw [hrunning]; rfl), Transaction.actionEnded, hrunning]
    cases actionEnd <;> rfl
  have hother : ∀ t : Transaction V E, t.Fits tx → t.phase ≠ .running →
      (t.answered .action fun t => t.actionEnded actionEnd) = t := by
    intro t ht hrunning
    apply ht.answered_of_ne
    intro hrequest
    cases hphase : t.phase with
    | running => exact hrunning hphase
    | _ =>
      rw [hphase] at hrequest
      cases hrequest
  have hwaits : ¬ Waits s (.actionEnded tx actionEnd) ↔
      ∃ t error, s.transactions[tx]? = some t ∧ t.phase = .running ∧ actionEnd = .thrown error := by
    cases actionEnd <;> simp [Waits]
  rw [hwaits]
  constructor
  · intro ⟨i, t, ht, error, hthrown⟩
    obtain ⟨t', ht', rfl⟩ := getElem?_update.mp ht
    split at hthrown
    · rename_i heq
      subst heq
      by_cases hrunning : t'.phase = .running
      · rw [hended t' (h.fits tx t' ht') hrunning, Option.some.injEq] at hthrown
        exact .inr ⟨t', error, ht', hrunning, hthrown⟩
      · rw [hother t' (h.fits tx t' ht') hrunning] at hthrown
        exact .inl ⟨tx, t', ht', error, hthrown⟩
    · exact .inl ⟨i, t', ht', error, hthrown⟩
  · intro hcases
    obtain ⟨i, t, ht, hthrown⟩ | ⟨t, error, ht, hrunning, rfl⟩ := hcases
    · refine ⟨i, _, getElem?_update.mpr ⟨t, ht, rfl⟩, ?_⟩
      split
      · rename_i heq
        subst heq
        exact ((h.fits tx t ht).actionEnded actionEnd).hasThrown hthrown
      · exact hthrown
    · refine ⟨tx, _, getElem?_update.mpr ⟨t, ht, rfl⟩, error, ?_⟩
      rw [if_pos rfl]
      exact hended t (h.fits tx t ht) hrunning

theorem thrown_transaction_iff (outer : Option Nat) :
    Thrown { s with transactions := s.transactions ++ [.create outer] } ↔ s.Thrown := by
  constructor
  · intro ⟨i, t, ht, hthrown⟩
    rw [List.getElem?_append] at ht
    split at ht
    · exact ⟨i, t, ht, hthrown⟩
    · rw [List.getElem?_singleton] at ht
      split at ht
      · cases ht
        exact absurd hthrown (Transaction.not_hasThrown_of_none rfl)
      · cases ht
  · intro ⟨i, t, ht, hthrown⟩
    refine ⟨i, t, ?_, hthrown⟩
    rw [List.getElem?_append_left (List.getElem?_eq_some_iff.mp ht).1]
    exact ht

theorem isReleased_transaction (outer : Option Nat) (tx : Nat) :
    isReleased { s with transactions := s.transactions ++ [.create outer] } tx = s.isReleased tx := by
  rw [isReleased, isReleased]
  dsimp only
  rw [List.getElem?_append]
  split
  · rfl
  · rename_i hlen
    rw [List.getElem?_eq_none (Nat.le_of_not_lt hlen), List.getElem?_singleton]
    split <;> rfl

theorem spoiled_execute_iff (client : Option Nat) :
    (s.execute client).Spoiled ↔ s.Spoiled ∨ client.any s.isReleased = true := by
  have hthrown : (s.execute client).Thrown ↔ s.Thrown := Iff.rfl
  have hgoesOn : (∃ tx, (s.execute client).GoesOn tx ∧ (s.execute client).isReleased tx = true) ↔
      ∃ tx, s.GoesOn tx ∧ s.isReleased tx = true := Iff.rfl
  have hoperations : (∃ operation ∈ (s.execute client).operations, operation.isReleased = true) ↔
      (∃ operation ∈ s.operations, operation.isReleased = true) ∨ client.any s.isReleased = true := by
    simp only [execute, List.mem_append, List.mem_singleton]
    constructor
    · rintro ⟨operation, hmem | rfl, hreleased⟩
      · exact .inl ⟨operation, hmem, hreleased⟩
      · exact .inr hreleased
    · rintro (⟨operation, hmem, hreleased⟩ | hreleased)
      · exact ⟨operation, .inl hmem, hreleased⟩
      · exact ⟨_, .inr rfl, hreleased⟩
  rw [spoiled_iff, spoiled_iff, hthrown, hgoesOn, hoperations]
  simp only [or_left_comm, or_comm]

theorem spoiled_iterate_iff (h : Coherent s) (context : Option Nat) :
    Spoiled { s with iterations := s.iterations ++ [⟨s.clientOf context, true⟩] } ↔ s.Spoiled := by
  constructor
  · intro hspoiled
    cases hspoiled with
    | thrown hthrown => exact .thrown hthrown
    | operation operation hmem hreleased => exact .operation operation hmem hreleased
    | iteration tx hgoesOn hreleased =>
      obtain hmem | heq := List.mem_append.mp hgoesOn
      · exact .iteration tx hmem hreleased
      · have hclient : s.clientOf context = some tx :=
          (congrArg ChunkIteration.client (List.mem_singleton.mp heq)).symm
        have hcontext : (s.clientOf context).any s.isReleased = true := by
          rw [hclient]
          exact hreleased
        exact .thrown (h.thrown_of_isReleased hcontext)
  · intro hspoiled
    cases hspoiled with
    | thrown hthrown => exact .thrown hthrown
    | operation operation hmem hreleased => exact .operation operation hmem hreleased
    | iteration tx hgoesOn hreleased => exact .iteration tx (List.mem_append_left _ hgoesOn) hreleased

theorem spoiled_iterated_iff {i : Nat} {client : Option Nat} (hiteration : s.iterations[i]? = some ⟨client, true⟩)
    (isLast : Bool) :
    Spoiled { s.execute client with iterations := s.iterations.set i ⟨client, !isLast⟩ } ↔ s.Spoiled := by
  have hoperation : client.any s.isReleased = true → s.Spoiled := by
    intro hreleased
    rw [Option.any_eq_true] at hreleased
    obtain ⟨tx, rfl, hreleased⟩ := hreleased
    exact .iteration tx (List.mem_of_getElem? hiteration) hreleased
  constructor
  · intro hspoiled
    cases hspoiled with
    | thrown hthrown => exact .thrown hthrown
    | operation operation hmem hreleased =>
      exact ((spoiled_execute_iff client).mp (.operation operation hmem hreleased)).elim id hoperation
    | iteration tx hgoesOn hreleased =>
      obtain hmem | heq := List.mem_or_eq_of_mem_set hgoesOn
      · exact .iteration tx hmem hreleased
      · have hclient : client = some tx := (congrArg ChunkIteration.client heq).symm
        exact hoperation (by rw [hclient]; exact hreleased)
  · intro hspoiled
    cases hspoiled with
    | thrown hthrown => exact .thrown hthrown
    | operation operation hmem hreleased => exact .operation operation (List.mem_append_left _ hmem) hreleased
    | iteration tx hgoesOn hreleased =>
      obtain ⟨j, hj⟩ := List.mem_iff_getElem?.mp hgoesOn
      by_cases hij : i = j
      · subst hij
        cases hj.symm.trans hiteration
        exact .operation ⟨some tx, s.isReleased tx⟩ (List.mem_append_right _ (List.mem_singleton_self _)) hreleased
      · refine .iteration tx (List.mem_of_getElem? (i := j) ?_) hreleased
        rw [List.getElem?_set_ne hij]
        exact hj

/-- A step spoils exactly if its action does not wait. -/
theorem spoiled_step_iff (h : Coherent s) (event : Event V E) :
    (step s event).Spoiled ↔ s.Spoiled ∨ ¬ Waits s event := by
  have hsame : ∀ {s' : Transactions V E}, (s'.Spoiled ↔ s.Spoiled) → (s'.Spoiled ↔ s.Spoiled ∨ ¬ True) := by
    intro s' hs'
    rw [hs', not_true, or_false]
  cases event with
  | transaction outer =>
    rw [step]
    split
    · refine hsame ?_
      rw [spoiled_iff, spoiled_iff, thrown_transaction_iff]
      simp only [isReleased_transaction, GoesOn]
    · exact hsame Iff.rfl
  | connected tx error =>
    refine hsame (spoiled_answered_of_context h (fun t => Transaction.actionEnd_connected _ _) fun t hrequest => ?_)
    rw [Transaction.hasContext, Transaction.connecting_of_requestIn hrequest]
  | begun tx error =>
    refine hsame (spoiled_answered_of_context h (fun t => Transaction.actionEnd_begun _) fun t hrequest => ?_)
    rw [Transaction.hasContext, Transaction.beginning_of_requestIn hrequest]
  | actionEnded tx actionEnd =>
    have hspoiled := spoiled_update_iff (Q := False) (thrown_actionEnded_iff h tx actionEnd)
      ((released_update_iff h fun t _ _ => releases_actionEnded t actionEnd).trans (or_iff_left not_false).symm)
    rwa [or_false] at hspoiled
  | committed tx error =>
    have hspoiled := spoiled_answered_iff h tx (.statement .commit)
      (fun _ => Transaction.actionEnd_committed error) fun t _ hrequest => by
        obtain ⟨value, hphase⟩ := Transaction.requestIn_eq_commit_iff.mp hrequest
        rw [Transaction.committed, hphase]
        cases error <;> exact Nat.succ_pos _
    simp only [Transaction.requestIn_eq_commit_iff, forall_exists_index] at hspoiled
    exact hspoiled
  | rolledBack tx error =>
    have hspoiled := spoiled_answered_iff h tx (.statement .rollback)
      (fun _ => Transaction.actionEnd_rolledBack error) fun t _ hrequest => by
        obtain ⟨reason, hphase⟩ := Transaction.requestIn_eq_rollback_iff.mp hrequest
        rw [Transaction.rolledBack, hphase]
        exact Nat.succ_pos _
    simp only [Transaction.requestIn_eq_rollback_iff, forall_exists_index] at hspoiled
    exact hspoiled
  | operation context =>
    rw [step]
    split
    · refine hsame ((spoiled_execute_iff _).trans (or_iff_left_of_imp fun hreleased => ?_))
      exact .thrown (h.thrown_of_isReleased hreleased)
    · exact hsame Iff.rfl
  | iterate context =>
    rw [step]
    split
    · exact hsame (spoiled_iterate_iff h context)
    · exact hsame Iff.rfl
  | iterated i isLast =>
    rw [step]
    split
    · rename_i client hiteration
      exact hsame (spoiled_iterated_iff hiteration isLast)
    · exact hsame Iff.rfl

/-! ### Runs -/

theorem spoiled_foldl (h : Coherent s) (hspoiled : s.Spoiled) (events : List (Event V E)) :
    (events.foldl step s).Spoiled := by
  induction events generalizing s with
  | nil => exact hspoiled
  | cons event events ih => exact ih (h.step event) ((spoiled_step_iff h event).mpr (.inl hspoiled))

theorem Coherent.endsTransactions (h : Coherent s) (hspoiled : ¬ s.Spoiled) : EndsTransactions s := by
  refine ⟨fun t hmem result hphase => ?_, fun operation hmem => ?_⟩
  · obtain ⟨tx, ht⟩ := List.mem_iff_getElem?.mp hmem
    have hdone := (h.fits tx t ht).done
    rw [Transaction.HasDone, hphase] at hdone
    obtain ⟨hreleases, hended, hcleared⟩ := hdone
    refine ⟨hreleases, ?_, hended⟩
    obtain ⟨hhas, _⟩ | ⟨_, hnone⟩ := hcleared
    · exact absurd (.thrown ⟨tx, t, ht, hhas⟩) hspoiled
    · exact hnone
  · by_contra hreleased
    rw [Bool.not_eq_false] at hreleased
    exact hspoiled (.operation operation hmem hreleased)

/-- Each promise settles once everything that its transaction asks for has been answered. -/
theorem Coherent.isSettled (h : Coherent s) (hanswered : s.IsAnswered) : s.IsSettled := by
  intro t hmem
  obtain ⟨tx, ht⟩ := List.mem_iff_getElem?.mp hmem
  exact (h.fits tx t ht).settled_of_awaited (hanswered.transactions t hmem)

/-- What has been spoiled shows when everything has been answered. -/
theorem Coherent.not_spoiled (h : Coherent s) (hanswered : s.IsAnswered) (hends : EndsTransactions s) : ¬ s.Spoiled := by
  intro hspoiled
  cases hspoiled with
  | thrown hthrown =>
    obtain ⟨tx, t, ht, hhas⟩ := hthrown
    obtain ⟨result, hphase⟩ := h.isSettled hanswered t (List.mem_of_getElem? ht)
    have hdone := (h.fits tx t ht).done
    rw [Transaction.HasDone, hphase] at hdone
    obtain ⟨_, hclient⟩ | ⟨hnot, _⟩ := hdone.2.2
    · have hcleared := (hends.concluded t (List.mem_of_getElem? ht) result hphase).cleared
      rw [hclient] at hcleared
      cases hcleared
    · exact hnot hhas
  | operation operation hmem hreleased =>
    rw [hends.operations operation hmem] at hreleased
    cases hreleased
  | iteration tx hgoesOn =>
    have hclosed := hanswered.iterations _ hgoesOn
    cases hclosed

/-- In a run in which everything that is asked for has been answered in the end, transactions end as they should exactly if no action throws instead of returning a promise, and no iteration goes on on a client that is released. -/
theorem endsTransactions_iff_waits (events : List (Event V E)) (hanswered : (events.foldl step initial).IsAnswered) :
    ((∀ n, EndsTransactions ((events.take n).foldl step initial)) ∧ (events.foldl step initial).IsSettled) ↔
      Along step Waits initial events := by
  have hcoherent : ∀ events : List (Event V E), Coherent (events.foldl step initial) := fun events =>
    invariant_foldl (fun _ event h => h.step event) coherent_initial
  have hstep : ∀ (s : Transactions V E) event, Coherent s → ¬ s.Spoiled →
      (¬ (step s event).Spoiled ↔ Waits s event) := by
    intro s event h hspoiled
    rw [spoiled_step_iff h event, not_or, not_not]
    exact and_iff_right hspoiled
  rw [← forall_take_iff_along (fun _ event h => h.step event) hstep coherent_initial not_spoiled_initial]
  constructor
  · intro ⟨hends, _⟩ n hspoiled
    have hlast := hends events.length
    rw [List.take_length] at hlast
    refine (hcoherent events).not_spoiled hanswered hlast ?_
    have hrest := spoiled_foldl (hcoherent _) hspoiled (events.drop n)
    rwa [← List.foldl_append, List.take_append_drop] at hrest
  · intro h
    exact ⟨fun n => (hcoherent _).endsTransactions (h n), (hcoherent events).isSettled hanswered⟩

/-- A transaction that waits for an iteration on its client and is committed then. -/
def committedRun : List (Event Nat Unit) :=
  [.transaction none, .connected 0 none, .begun 0 none, .operation (some 0), .iterate (some 0), .iterated 0 false,
    .iterated 0 true, .actionEnded 0 (.fulfilled 7), .committed 0 none]

theorem endsTransactions_iff_waits_committed :
    ((∀ n, EndsTransactions ((committedRun.take n).foldl step initial)) ∧ (committedRun.foldl step initial).IsSettled) ↔
      Along step Waits initial committedRun := by
  refine endsTransactions_iff_waits committedRun ⟨fun t hmem => ?_, fun iteration hmem => ?_⟩
  · rw [List.mem_singleton.mp hmem]
    rfl
  · rw [List.mem_singleton.mp hmem]
    rfl

/-- After an action has thrown, an operation on its context is executed on the released client. -/
theorem not_endsTransactions_of_thrown :
    ¬ ∀ (events : List (Event Nat Unit)) (n : Nat), EndsTransactions ((events.take n).foldl step initial) := by
  intro h
  have hoperation := (h [.transaction none, .connected 0 none, .begun 0 none, .actionEnded 0 (.thrown ()),
    .rolledBack 0 none, .operation (some 0)] 6).operations ⟨some 0, true⟩ (by decide)
  cases hoperation

end Transactions

end Postgres

end Coaty
