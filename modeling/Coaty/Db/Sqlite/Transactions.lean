import Coaty.Transition
import Mathlib.Data.List.Basic

/-!
# Transactions on a shared connection

All transactions of an adapter run on its one database connection, which executes statements in the order in which they are submitted and has at most one open transaction. So a transaction that begins while another one is open fails, and its rollback is that of the other one. The context of an action loses the connection when the promise of the action settles, and what it writes from then on goes to a connection of its own, unless the action has thrown.
-/

namespace Coaty

namespace Sqlite

open Transition

/-! ### A connection -/

/-- A write of the action of a transaction, numbered in the order of the writes of the action. -/
structure Write where
  transaction : Nat
  number : Nat
deriving DecidableEq

inductive Statement where
  | begin (transaction : Nat)
  | write (w : Write)
  | commit (transaction : Nat)
  | rollback (transaction : Nat)
deriving DecidableEq

def Statement.transaction : Statement → Nat
  | .begin tx => tx
  | .write w => w.transaction
  | .commit tx => tx
  | .rollback tx => tx

/-- A COMMIT or ROLLBACK that has been executed, with the writes that it was for. -/
structure Ending where
  transaction : Nat
  writes : List Write
deriving DecidableEq

structure Connection where
  /-- The transaction that has been begun, if one is open. -/
  opener : Option Nat
  /-- The writes in the open transaction. -/
  pending : List Write
  committed : List Write
  endings : List Ending
deriving DecidableEq

namespace Connection

variable (c : Connection)

/-- What comes of a statement, and whether it succeeds. A write that fails writes nothing, and is left out. -/
def execute : Statement → Connection × Bool
  | .begin tx => if c.opener = none then ({ c with opener := some tx }, true) else (c, false)
  | .write w =>
    if c.opener = none then ({ c with committed := c.committed ++ [w] }, true)
    else ({ c with pending := c.pending ++ [w] }, true)
  | .commit tx =>
    if c.opener = none then (c, false)
    else (⟨none, [], c.committed ++ c.pending, c.endings ++ [⟨tx, c.pending⟩]⟩, true)
  | .rollback tx =>
    if c.opener = none then (c, false)
    else (⟨none, [], c.committed, c.endings ++ [⟨tx, c.pending⟩]⟩, true)

end Connection

/-! ### Transactions -/

/-- What comes of the action of a transaction. -/
inductive ActionEnd (E : Type) where
  | fulfilled
  | rejected (error : E)
  /-- The action throws before it returns a promise. -/
  | thrown (error : E)
deriving DecidableEq

inductive TransactionError (E : Type) where
  | action (error : E)
  | beginFailed
  | commitFailed
deriving DecidableEq

inductive TransactionPhase (E : Type) where
  | connecting
  | beginning
  /-- The action has been called, or its promise is pending. -/
  | running
  | committing
  | rollingBack (error : TransactionError E)
  | fulfilled
  | rejected (error : TransactionError E)
deriving DecidableEq

structure Transaction (E : Type) where
  phase : TransactionPhase E
  /-- Whether the BEGIN, COMMIT or ROLLBACK has succeeded whose callback has not been called yet. -/
  answer : Option Bool
  actionEnd : Option (ActionEnd E)
  /-- How many writes the action has issued on its context. -/
  writes : Nat
deriving DecidableEq

variable {E : Type}

namespace Transaction

def create : Transaction E := ⟨.connecting, none, none, 0⟩

variable (tx : Nat) (t : Transaction E)

/-- `_beginTransaction` is called. -/
def connected : Transaction E × List Statement :=
  match t.phase with
  | .connecting => ({ t with phase := .beginning }, [.begin tx])
  | _ => (t, [])

/-- The callback of the statement is called. -/
def answered : Transaction E × List Statement :=
  match t.phase, t.answer with
  | .beginning, some true => ({ t with phase := .running, answer := none }, [])
  | .beginning, some false => ({ t with phase := .rollingBack .beginFailed, answer := none }, [.rollback tx])
  | .committing, some true => ({ t with phase := .fulfilled, answer := none }, [])
  | .committing, some false => ({ t with phase := .rejected .commitFailed, answer := none }, [])
  | .rollingBack error, some _ => ({ t with phase := .rejected error, answer := none }, [])
  | _, _ => (t, [])

def actionEnded (actionEnd : ActionEnd E) : Transaction E × List Statement :=
  match t.phase with
  | .running =>
    match actionEnd with
    | .fulfilled => ({ t with phase := .committing, actionEnd := some actionEnd }, [.commit tx])
    | .rejected error => ({ t with phase := .rollingBack (.action error), actionEnd := some actionEnd }, [.rollback tx])
    | .thrown error => ({ t with phase := .rollingBack (.action error), actionEnd := some actionEnd }, [.rollback tx])
  | _ => (t, [])

/-- Whether the context of the action has the connection. It keeps it if the action throws. -/
def hasConnection : Bool :=
  match t.actionEnd, t.phase with
  | none, .running => true
  | some (.thrown _), _ => true
  | _, _ => false

def write : Transaction E × List Statement :=
  ({ t with writes := t.writes + 1 }, if t.hasConnection then [.write ⟨tx, t.writes⟩] else [])

end Transaction

/-! ### The adapter -/

structure Adapter (E : Type) where
  transactions : List (Transaction E)
  /-- The statements that have been submitted and not been executed yet. -/
  queue : List Statement
  connection : Connection
  /-- The writes on connections that contexts open for themselves, which have not been executed yet. -/
  elsewhere : List Write
deriving DecidableEq

inductive Adapter.Event (E : Type) where
  | transaction
  /-- The database of a transaction has been got. -/
  | connected (tx : Nat)
  /-- The connection executes the next statement. -/
  | executed
  /-- A connection that a context has opened for itself executes a write. -/
  | executedElsewhere (w : Write)
  | answered (tx : Nat)
  /-- The action of a transaction writes on its context. -/
  | write (tx : Nat)
  | actionEnded (tx : Nat) (actionEnd : ActionEnd E)
deriving DecidableEq

namespace Adapter

def initial : Adapter E := ⟨[], [], ⟨none, [], [], []⟩, []⟩

variable (s : Adapter E)

/-- A transaction changes and submits statements. -/
def update (tx : Nat) (f : Transaction E → Transaction E × List Statement) : Adapter E :=
  match s.transactions[tx]? with
  | some t => { s with transactions := s.transactions.set tx (f t).1, queue := s.queue ++ (f t).2 }
  | none => s

/-- The next statement is executed, and its callback is due. Nothing of an adapter depends on the callbacks of writes. -/
def executed : Adapter E :=
  match s.queue with
  | [] => s
  | statement :: queue =>
    let (connection, succeeds) := s.connection.execute statement
    let answer (t : Transaction E) : Transaction E :=
      match statement with
      | .write _ => t
      | _ => { t with answer := some succeeds }
    ⟨s.transactions.modify statement.transaction answer, queue, connection, s.elsewhere⟩

/-- Each context opens connections of its own, so their writes are executed in any order. -/
def executedElsewhere (w : Write) : Adapter E :=
  if w ∈ s.elsewhere then
    { s with
      connection := { s.connection with committed := s.connection.committed ++ [w] }
      elsewhere := s.elsewhere.erase w }
  else s

/-- A write on the context is submitted to the connection, or to one that the context opens for itself. -/
def write (tx : Nat) : Adapter E :=
  match s.transactions[tx]? with
  | some t =>
    if t.hasConnection then s.update tx (Transaction.write tx)
    else if t.actionEnd.isSome then
      let s := s.update tx (Transaction.write tx)
      { s with elsewhere := s.elsewhere ++ [⟨tx, t.writes⟩] }
    else s
  | none => s

def step (s : Adapter E) : Event E → Adapter E
  | .transaction => { s with transactions := s.transactions ++ [.create] }
  | .connected tx => s.update tx (Transaction.connected tx)
  | .executed => s.executed
  | .executedElsewhere w => s.executedElsewhere w
  | .answered tx => s.update tx (Transaction.answered tx)
  | .write tx => s.write tx
  | .actionEnded tx actionEnd => s.update tx fun t => t.actionEnded tx actionEnd

/-! ### Atomic transactions -/

structure Atomic (s : Adapter E) : Prop where
  /-- What the action writes on its context after it has been fulfilled takes its time elsewhere. -/
  fulfilled : ∀ (tx : Nat) (t : Transaction E), s.transactions[tx]? = some t → t.phase = .fulfilled →
    ∀ n, n < t.writes → ⟨tx, n⟩ ∉ s.elsewhere → ⟨tx, n⟩ ∈ s.connection.committed
  rejected : ∀ (tx : Nat) (t : Transaction E) error, s.transactions[tx]? = some t → t.phase = .rejected error →
    ∀ n, ⟨tx, n⟩ ∉ s.connection.committed
  /-- No transaction commits or rolls back writes of another one. -/
  own : ∀ ending ∈ s.connection.endings, ∀ w ∈ ending.writes, w.transaction = ending.transaction

/-- No transaction begins on the connection while another one is open, and no action writes after it has failed. -/
def InTurn (s : Adapter E) : Event E → Prop
  | .executed => ∀ tx queue, s.queue = .begin tx :: queue → s.connection.opener = none
  | .write tx => ∀ t, s.transactions[tx]? = some t → t.actionEnd = none ∨ t.actionEnd = some .fulfilled
  | _ => True

/-! ### The course of a transaction -/

/-- The statements of a transaction that have not been executed yet. -/
def own (queue : List Statement) (tx : Nat) : List Statement := queue.filter fun statement => statement.transaction = tx

/-- How far a transaction is that takes turns with the others. -/
inductive Stage (own : List Statement) (opener : Option Nat) (tx : Nat) : Transaction E → Prop
  | connecting (hown : own = []) (hopener : opener ≠ some tx) : Stage own opener tx ⟨.connecting, none, none, 0⟩
  | beginning (hown : own = [.begin tx]) (hopener : opener ≠ some tx) : Stage own opener tx ⟨.beginning, none, none, 0⟩
  | begun (hown : own = []) (hopener : opener = some tx) : Stage own opener tx ⟨.beginning, some true, none, 0⟩
  | running (n : Nat) (ws : List Write) (hown : own = ws.map .write) (hopener : opener = some tx) :
    Stage own opener tx ⟨.running, none, none, n⟩
  | committing (n : Nat) (ws : List Write) (hown : own = ws.map .write ++ [.commit tx]) (hopener : opener = some tx) :
    Stage own opener tx ⟨.committing, none, some .fulfilled, n⟩
  | committed (n : Nat) (hown : own = []) (hopener : opener ≠ some tx) :
    Stage own opener tx ⟨.committing, some true, some .fulfilled, n⟩
  | fulfilled (n : Nat) (hown : own = []) (hopener : opener ≠ some tx) :
    Stage own opener tx ⟨.fulfilled, none, some .fulfilled, n⟩
  | rollingBack (n : Nat) (ws : List Write) (error : TransactionError E) (actionEnd : ActionEnd E)
    (hend : actionEnd ≠ .fulfilled) (hown : own = ws.map .write ++ [.rollback tx]) (hopener : opener = some tx) :
    Stage own opener tx ⟨.rollingBack error, none, some actionEnd, n⟩
  | rolledBack (n : Nat) (error : TransactionError E) (actionEnd : ActionEnd E) (succeeds : Bool)
    (hend : actionEnd ≠ .fulfilled) (hown : own = []) (hopener : opener ≠ some tx) :
    Stage own opener tx ⟨.rollingBack error, some succeeds, some actionEnd, n⟩
  | rejected (n : Nat) (error : TransactionError E) (actionEnd : ActionEnd E)
    (hend : actionEnd ≠ .fulfilled) (hown : own = []) (hopener : opener ≠ some tx) :
    Stage own opener tx ⟨.rejected error, none, some actionEnd, n⟩

/-- The write has been committed, or will be when it is executed. -/
def Lasts (s : Adapter E) (w : Write) : Prop := w ∈ s.connection.committed ∨ w ∈ s.elsewhere

def HasNotFailed (t : Transaction E) : Prop := t.actionEnd = none ∨ t.actionEnd = some .fulfilled

structure Invariant (s : Adapter E) : Prop where
  stage : ∀ (tx : Nat) (t : Transaction E), s.transactions[tx]? = some t → Stage (own s.queue tx) s.connection.opener tx t
  /-- No write of an action that has not failed gets lost. -/
  accounted : ∀ (tx : Nat) (t : Transaction E), s.transactions[tx]? = some t → HasNotFailed t → ∀ n, n < t.writes →
    .write ⟨tx, n⟩ ∈ s.queue ∨ ⟨tx, n⟩ ∈ s.connection.pending ∨ s.Lasts ⟨tx, n⟩
  queued : ∀ statement ∈ s.queue, statement.transaction < s.transactions.length
  opener : ∀ tx, s.connection.opener = some tx → tx < s.transactions.length
  pending : ∀ w ∈ s.connection.pending, s.connection.opener = some w.transaction
  lasting : ∀ w, s.Lasts w → ∃ t : Transaction E, s.transactions[w.transaction]? = some t ∧ t.actionEnd = some .fulfilled
  endings : ∀ ending ∈ s.connection.endings, ∀ w ∈ ending.writes, w.transaction = ending.transaction

variable {s s' : Adapter E} {tx : Nat} {t t' : Transaction E} {queue statements : List Statement} {opener opener' : Option Nat}

theorem mem_own {statement : Statement} : statement ∈ own queue tx ↔ statement ∈ queue ∧ statement.transaction = tx := by
  rw [own, List.mem_filter, decide_eq_true_eq]

theorem own_cons (statement : Statement) :
    own (statement :: queue) tx = if statement.transaction = tx then statement :: own queue tx else own queue tx := by
  rw [own, List.filter_cons]
  by_cases h : statement.transaction = tx
  · rw [if_pos (decide_eq_true h), if_pos h, own]
  · rw [if_neg (by simpa using h), if_neg h, own]

theorem own_append_of_eq (h : ∀ statement ∈ statements, statement.transaction = tx) :
    own (queue ++ statements) tx = own queue tx ++ statements := by
  have hall : own statements tx = statements := by
    rw [own, List.filter_eq_self]
    intro statement hmem
    exact decide_eq_true (h statement hmem)
  rw [own, List.filter_append, ← own, ← own, hall]

theorem own_append_of_ne {tx' : Nat} (h : ∀ statement ∈ statements, statement.transaction = tx) (hne : tx' ≠ tx) :
    own (queue ++ statements) tx' = own queue tx' := by
  have hnone : own statements tx' = [] := by
    rw [own, List.filter_eq_nil_iff]
    intro statement hmem
    rw [h statement hmem]
    simp [hne.symm]
  rw [own, List.filter_append, ← own, ← own, hnone, List.append_nil]

theorem Stage.congr {own : List Statement} (hopener : opener = some tx ↔ opener' = some tx)
    (hstage : Stage own opener tx t) : Stage own opener' tx t := by
  cases hstage with
  | connecting hown hne => exact .connecting hown (mt hopener.mpr hne)
  | beginning hown hne => exact .beginning hown (mt hopener.mpr hne)
  | begun hown heq => exact .begun hown (hopener.mp heq)
  | running n ws hown heq => exact .running n ws hown (hopener.mp heq)
  | committing n ws hown heq => exact .committing n ws hown (hopener.mp heq)
  | committed n hown hne => exact .committed n hown (mt hopener.mpr hne)
  | fulfilled n hown hne => exact .fulfilled n hown (mt hopener.mpr hne)
  | rollingBack n ws error actionEnd hend hown heq => exact .rollingBack n ws error actionEnd hend hown (hopener.mp heq)
  | rolledBack n error actionEnd succeeds hend hown hne =>
    exact .rolledBack n error actionEnd succeeds hend hown (mt hopener.mpr hne)
  | rejected n error actionEnd hend hown hne => exact .rejected n error actionEnd hend hown (mt hopener.mpr hne)

/-- A step changes one transaction, and leaves the statements and writes of the others alone. -/
structure Changes (s s' : Adapter E) (tx : Nat) (t t' : Transaction E) : Prop where
  transaction : s.transactions[tx]? = some t
  transactions : s'.transactions = s.transactions.set tx t'
  actionEnd : t.actionEnd = some .fulfilled → t'.actionEnd = some .fulfilled
  queue : ∀ tx', tx' ≠ tx → own s'.queue tx' = own s.queue tx'
  opener : ∀ tx', tx' ≠ tx → (s.connection.opener = some tx' ↔ s'.connection.opener = some tx')
  writes : ∀ w, w.transaction ≠ tx → w ∈ s.connection.pending ∨ s.Lasts w → w ∈ s'.connection.pending ∨ s'.Lasts w
  lasting : ∀ w, s'.Lasts w → s.Lasts w ∨ w.transaction = tx ∧ t'.actionEnd = some .fulfilled

theorem Changes.lt (hchanges : Changes s s' tx t t') : tx < s.transactions.length :=
  (List.getElem?_eq_some_iff.mp hchanges.transaction).1

theorem Changes.invariant (hchanges : Changes s s' tx t t') (h : Invariant s)
    (hstage : Stage (own s'.queue tx) s'.connection.opener tx t')
    (haccounted : HasNotFailed t' → ∀ n, n < t'.writes →
      .write ⟨tx, n⟩ ∈ s'.queue ∨ ⟨tx, n⟩ ∈ s'.connection.pending ∨ s'.Lasts ⟨tx, n⟩)
    (hpending : ∀ w ∈ s'.connection.pending, s'.connection.opener = some w.transaction)
    (hendings : ∀ ending ∈ s'.connection.endings, ∀ w ∈ ending.writes, w.transaction = ending.transaction) :
    Invariant s' := by
  have hlength : s'.transactions.length = s.transactions.length := by rw [hchanges.transactions, List.length_set]
  have hself : s'.transactions[tx]? = some t' := by
    rw [hchanges.transactions, List.getElem?_set_self hchanges.lt]
  have hother : ∀ tx', tx' ≠ tx → s'.transactions[tx']? = s.transactions[tx']? := by
    intro tx' hne
    rw [hchanges.transactions, List.getElem?_set_ne hne.symm]
  constructor
  · intro tx' u hu
    by_cases hne : tx' = tx
    · subst hne
      cases hself.symm.trans hu
      exact hstage
    · rw [hchanges.queue tx' hne]
      rw [hother tx' hne] at hu
      exact (h.stage tx' u hu).congr (hchanges.opener tx' hne)
  · intro tx' u hu hnot n hn
    by_cases hne : tx' = tx
    · subst hne
      cases hself.symm.trans hu
      exact haccounted hnot n hn
    · rw [hother tx' hne] at hu
      obtain hqueue | hwrites := h.accounted tx' u hu hnot n hn
      · have hmem : .write ⟨tx', n⟩ ∈ own s.queue tx' := mem_own.mpr ⟨hqueue, rfl⟩
        rw [← hchanges.queue tx' hne] at hmem
        exact .inl (mem_own.mp hmem).1
      · exact .inr (hchanges.writes _ hne hwrites)
  · intro statement hmem
    rw [hlength]
    by_cases hne : statement.transaction = tx
    · exact hne ▸ hchanges.lt
    · have hown : statement ∈ own s'.queue statement.transaction := mem_own.mpr ⟨hmem, rfl⟩
      rw [hchanges.queue _ hne] at hown
      exact h.queued statement (mem_own.mp hown).1
  · intro tx' hopener
    rw [hlength]
    by_cases hne : tx' = tx
    · exact hne ▸ hchanges.lt
    · exact h.opener tx' ((hchanges.opener tx' hne).mpr hopener)
  · exact hpending
  · intro w hw
    obtain hw | ⟨rfl, hend⟩ := hchanges.lasting w hw
    · obtain ⟨u, hu, hend⟩ := h.lasting w hw
      by_cases hne : w.transaction = tx
      · rw [hne] at hu ⊢
        cases hchanges.transaction.symm.trans hu
        exact ⟨t', hself, hchanges.actionEnd hend⟩
      · exact ⟨u, (hother _ hne).trans hu, hend⟩
    · exact ⟨t', hself, hend⟩
  · exact hendings

section Update

variable {f : Transaction E → Transaction E × List Statement}

theorem update_of_none (ht : s.transactions[tx]? = none) : s.update tx f = s := by
  rw [update, ht]

theorem update_of_some (ht : s.transactions[tx]? = some t) :
    s.update tx f = { s with transactions := s.transactions.set tx (f t).1, queue := s.queue ++ (f t).2 } := by
  rw [update, ht]

theorem update_of_same (ht : s.transactions[tx]? = some t) (hf : f t = (t, [])) : s.update tx f = s := by
  obtain ⟨hlt, rfl⟩ := List.getElem?_eq_some_iff.mp ht
  rw [update_of_some ht, hf, List.set_getElem_self, List.append_nil]

theorem Invariant.update (h : Invariant s) (ht : s.transactions[tx]? = some t)
    (howner : ∀ statement ∈ (f t).2, statement.transaction = tx)
    (hend : t.actionEnd = some .fulfilled → (f t).1.actionEnd = some .fulfilled)
    (hstage : Stage (own s.queue tx ++ (f t).2) s.connection.opener tx (f t).1)
    (haccounted : HasNotFailed (f t).1 → ∀ n, n < (f t).1.writes →
      (HasNotFailed t ∧ n < t.writes) ∨ .write ⟨tx, n⟩ ∈ (f t).2) : Invariant (s.update tx f) := by
  rw [update_of_some ht]
  have hchanges : Changes s { s with transactions := s.transactions.set tx (f t).1, queue := s.queue ++ (f t).2 } tx t
      (f t).1 :=
    ⟨ht, rfl, hend, fun tx' hne => own_append_of_ne howner hne, fun _ _ => Iff.rfl, fun _ _ hw => hw, fun _ hw => .inl hw⟩
  refine hchanges.invariant h ?_ ?_ h.pending h.endings
  · rw [own_append_of_eq howner]
    exact hstage
  · intro hnot n hn
    obtain ⟨hnot, hn⟩ | hwrite := haccounted hnot n hn
    · exact (h.accounted tx t ht hnot n hn).imp_left (List.mem_append_left _)
    · exact .inl (List.mem_append_right _ hwrite)

theorem Invariant.connected (h : Invariant s) : Invariant (s.update tx (Transaction.connected tx)) := by
  cases ht : s.transactions[tx]? with
  | none => rwa [update_of_none ht]
  | some t =>
    cases h.stage tx t ht with
    | connecting hown hne =>
      apply h.update ht
      · simp [Transaction.connected, Statement.transaction]
      · exact id
      · rw [hown]
        exact .beginning rfl hne
      · intro _ n hn
        cases hn
    | _ => rwa [update_of_same ht rfl]

theorem Invariant.answered (h : Invariant s) : Invariant (s.update tx (Transaction.answered tx)) := by
  cases ht : s.transactions[tx]? with
  | none => rwa [update_of_none ht]
  | some t =>
    cases h.stage tx t ht with
    | begun hown heq =>
      apply h.update ht
      · simp [Transaction.answered]
      · exact id
      · rw [hown]
        exact .running 0 [] rfl heq
      · intro _ n hn
        cases hn
    | committed n hown hne =>
      apply h.update ht
      · simp [Transaction.answered]
      · exact id
      · rw [hown]
        exact .fulfilled n rfl hne
      · exact fun hnot m hm => .inl ⟨hnot, hm⟩
    | rolledBack n error actionEnd succeeds hend hown hne =>
      apply h.update ht
      · simp [Transaction.answered]
      · exact id
      · rw [hown]
        exact .rejected n error actionEnd hend rfl hne
      · exact fun hnot m hm => .inl ⟨hnot, hm⟩
    | _ => rwa [update_of_same ht rfl]

theorem actionEnded_of_ne {n : Nat} {actionEnd : ActionEnd E} (hend : actionEnd ≠ .fulfilled) :
    ∃ error, (⟨.running, none, none, n⟩ : Transaction E).actionEnded tx actionEnd =
      (⟨.rollingBack error, none, some actionEnd, n⟩, [.rollback tx]) := by
  cases actionEnd with
  | fulfilled => exact absurd rfl hend
  | rejected error => exact ⟨_, rfl⟩
  | thrown error => exact ⟨_, rfl⟩

theorem Invariant.actionEnded (h : Invariant s) (actionEnd : ActionEnd E) :
    Invariant (s.update tx fun t => t.actionEnded tx actionEnd) := by
  cases ht : s.transactions[tx]? with
  | none => rwa [update_of_none ht]
  | some t =>
    cases h.stage tx t ht with
    | running n ws hown heq =>
      by_cases hend : actionEnd = .fulfilled
      · rw [hend]
        apply h.update ht
        · simp [Transaction.actionEnded, Statement.transaction]
        · exact fun hend => nomatch hend
        · rw [hown]
          exact .committing n ws rfl heq
        · exact fun _ m hm => .inl ⟨.inl rfl, hm⟩
      · obtain ⟨error, hended⟩ := @actionEnded_of_ne E tx n actionEnd hend
        apply h.update ht
        · simp [hended, Statement.transaction]
        · exact fun hend => nomatch hend
        · simp only [hended]
          rw [hown]
          exact .rollingBack n ws error actionEnd hend rfl heq
        · simp only [hended]
          exact fun _ m hm => .inl ⟨.inl rfl, hm⟩
    | _ => rwa [update_of_same ht rfl]

end Update

theorem Invariant.transaction (h : Invariant s) :
    Invariant { s with transactions := s.transactions ++ [Transaction.create] } := by
  have hlt : ∀ {tx : Nat} {t : Transaction E}, s.transactions[tx]? = some t →
      (s.transactions ++ [Transaction.create])[tx]? = some t := by
    intro tx t ht
    rw [List.getElem?_append_left (List.getElem?_eq_some_iff.mp ht).1, ht]
  have hcases : ∀ {tx : Nat} {t : Transaction E}, (s.transactions ++ [Transaction.create])[tx]? = some t →
      s.transactions[tx]? = some t ∨ (tx = s.transactions.length ∧ t = .create) := by
    intro tx t ht
    rw [List.getElem?_append] at ht
    split at ht
    · exact .inl ht
    · rename_i hge
      obtain ⟨hlt, heq⟩ := List.getElem?_eq_some_iff.mp ht
      rw [List.length_singleton] at hlt
      refine .inr ⟨by omega, ?_⟩
      rw [← heq, List.getElem_singleton]
  have hnew : own s.queue s.transactions.length = [] := by
    rw [own, List.filter_eq_nil_iff]
    intro statement hmem
    have hqueued := h.queued statement hmem
    simp only [decide_eq_true_eq]
    omega
  constructor
  · intro tx t ht
    obtain ht | ⟨rfl, rfl⟩ := hcases ht
    · exact h.stage tx t ht
    · exact .connecting hnew fun hopener => Nat.lt_irrefl _ (h.opener _ hopener)
  · intro tx t ht hnot n hn
    obtain ht | ⟨rfl, rfl⟩ := hcases ht
    · exact h.accounted tx t ht hnot n hn
    · cases hn
  · intro statement hmem
    rw [List.length_append]
    exact Nat.lt_add_right _ (h.queued statement hmem)
  · intro tx hopener
    rw [List.length_append]
    exact Nat.lt_add_right _ (h.opener tx hopener)
  · exact h.pending
  · intro w hw
    obtain ⟨t, ht, hend⟩ := h.lasting w hw
    exact ⟨t, hlt ht, hend⟩
  · exact h.endings

theorem Invariant.writeElsewhere (h : Invariant s) (ht : s.transactions[tx]? = some t) (hend : t.actionEnd = some .fulfilled)
    (hconnection : t.hasConnection = false)
    (hstage : Stage (own s.queue tx) s.connection.opener tx { t with writes := t.writes + 1 }) : Invariant (s.write tx) := by
  have hwrite : s.write tx = ⟨s.transactions.set tx { t with writes := t.writes + 1 }, s.queue, s.connection,
      s.elsewhere ++ [⟨tx, t.writes⟩]⟩ := by
    simp only [Adapter.write, ht, hconnection, hend, update_of_some ht, Transaction.write, Option.isSome_some, if_true,
      Bool.false_eq_true, if_false, List.append_nil]
  rw [hwrite]
  have hchanges : Changes s ⟨s.transactions.set tx { t with writes := t.writes + 1 }, s.queue, s.connection,
      s.elsewhere ++ [⟨tx, t.writes⟩]⟩ tx t { t with writes := t.writes + 1 } := by
    refine ⟨ht, rfl, id, fun _ _ => rfl, fun _ _ => Iff.rfl, ?_, ?_⟩
    · intro w _ hw
      exact hw.imp_right (.imp_right (List.mem_append_left _))
    · intro w hw
      obtain hw | hw := hw
      · exact .inl (.inl hw)
      · obtain hw | hw := List.mem_append.mp hw
        · exact .inl (.inr hw)
        · cases List.mem_singleton.mp hw
          exact .inr ⟨rfl, hend⟩
  refine hchanges.invariant h hstage ?_ h.pending h.endings
  intro _ n hn
  obtain hn | rfl := Nat.lt_succ_iff_lt_or_eq.mp hn
  · obtain hqueue | hpending | hlasts := h.accounted tx t ht (.inr hend) n hn
    · exact .inl hqueue
    · exact .inr (.inl hpending)
    · exact .inr (.inr (hlasts.imp_right (List.mem_append_left _)))
  · exact .inr (.inr (.inr (List.mem_append_right _ List.mem_cons_self)))

theorem lasts_executedElsewhere {w w' : Write} : (s.executedElsewhere w).Lasts w' ↔ s.Lasts w' := by
  rw [executedElsewhere]
  split
  · rename_i hw
    by_cases heq : w' = w
    · subst heq
      exact iff_of_true (.inl (List.mem_append_right _ List.mem_cons_self)) (.inr hw)
    · simp [Lasts, heq, List.mem_erase_of_ne heq]
  · exact Iff.rfl

theorem Invariant.executedElsewhere {w : Write} (h : Invariant s) : Invariant (s.executedElsewhere w) := by
  have hframe : (s.executedElsewhere w).transactions = s.transactions ∧ (s.executedElsewhere w).queue = s.queue ∧
      (s.executedElsewhere w).connection.opener = s.connection.opener ∧
      (s.executedElsewhere w).connection.pending = s.connection.pending ∧
      (s.executedElsewhere w).connection.endings = s.connection.endings := by
    rw [Adapter.executedElsewhere]
    split <;> exact ⟨rfl, rfl, rfl, rfl, rfl⟩
  obtain ⟨htransactions, hqueue, hopener, hpending, hendings⟩ := hframe
  constructor
  · rw [htransactions, hqueue, hopener]
    exact h.stage
  · simp only [htransactions, hqueue, hpending, lasts_executedElsewhere]
    exact h.accounted
  · rw [htransactions, hqueue]
    exact h.queued
  · rw [htransactions, hopener]
    exact h.opener
  · rw [hpending, hopener]
    exact h.pending
  · simp only [htransactions, lasts_executedElsewhere]
    exact h.lasting
  · rw [hendings]
    exact h.endings

theorem write_of_create {n : Nat} {phase : TransactionPhase E} {answer : Option Bool}
    (ht : s.transactions[tx]? = some ⟨phase, answer, none, n⟩) (hphase : phase ≠ .running) : s.write tx = s := by
  have hconnection : (⟨phase, answer, none, n⟩ : Transaction E).hasConnection = false := by
    cases phase with
    | running => exact absurd rfl hphase
    | _ => rfl
  simp only [Adapter.write, ht, hconnection, Option.isSome_none, Bool.false_eq_true, if_false]

theorem Invariant.write (h : Invariant s)
    (hturn : ∀ t, s.transactions[tx]? = some t → t.actionEnd = none ∨ t.actionEnd = some .fulfilled) :
    Invariant (s.write tx) := by
  have hfailed : ∀ {phase : TransactionPhase E} {answer actionEnd n},
      s.transactions[tx]? = some ⟨phase, answer, some actionEnd, n⟩ → actionEnd ≠ .fulfilled → False := by
    intro phase answer actionEnd n ht hne
    obtain hnone | hfulfilled := hturn _ ht
    · cases hnone
    · exact hne (Option.some.inj hfulfilled)
  cases ht : s.transactions[tx]? with
  | none =>
    have hwrite : s.write tx = s := by simp only [Adapter.write, ht]
    rwa [hwrite]
  | some t =>
    cases h.stage tx t ht with
    | connecting => rwa [write_of_create ht (by simp)]
    | beginning => rwa [write_of_create ht (by simp)]
    | begun => rwa [write_of_create ht (by simp)]
    | running n ws hown heq =>
      have hwrite : s.write tx = s.update tx (Transaction.write tx) := by
        simp only [Adapter.write, ht, Transaction.hasConnection, if_true]
      rw [hwrite]
      apply h.update ht
      · simp [Transaction.write, Transaction.hasConnection, Statement.transaction]
      · exact id
      · rw [hown]
        refine .running (n + 1) (ws ++ [⟨tx, n⟩]) ?_ heq
        rw [List.map_append]
        rfl
      · intro _ m hm
        obtain hm | rfl := Nat.lt_succ_iff_lt_or_eq.mp hm
        · exact .inl ⟨.inl rfl, hm⟩
        · exact .inr List.mem_cons_self
    | committing n ws hown heq => exact h.writeElsewhere ht rfl rfl (.committing (n + 1) ws hown heq)
    | committed n hown hne => exact h.writeElsewhere ht rfl rfl (.committed (n + 1) hown hne)
    | fulfilled n hown hne => exact h.writeElsewhere ht rfl rfl (.fulfilled (n + 1) hown hne)
    | rollingBack n ws error actionEnd hend => exact (hfailed ht hend).elim
    | rolledBack n error actionEnd succeeds hend => exact (hfailed ht hend).elim
    | rejected n error actionEnd hend => exact (hfailed ht hend).elim

/-! ### Executing a statement -/

section Executed

variable {statement : Statement} {n : Nat}

theorem Invariant.exists_transaction (h : Invariant s) (hqueue : s.queue = statement :: queue) :
    ∃ t, s.transactions[statement.transaction]? = some t := by
  have hlt := h.queued statement (hqueue ▸ List.mem_cons_self)
  exact ⟨_, List.getElem?_eq_getElem hlt⟩

theorem own_of_queue (hqueue : s.queue = statement :: queue) :
    own s.queue statement.transaction = statement :: own queue statement.transaction := by
  rw [hqueue, own_cons, if_pos rfl]

theorem own_of_queue_of_ne (hqueue : s.queue = statement :: queue) {tx' : Nat} (hne : tx' ≠ statement.transaction) :
    own queue tx' = own s.queue tx' := by
  rw [hqueue, own_cons, if_neg hne.symm]

theorem mem_queue_of_cons (hqueue : s.queue = statement :: queue) {w : Write} (hw : .write w ∈ s.queue) :
    statement = .write w ∨ .write w ∈ queue := by
  rw [hqueue, List.mem_cons] at hw
  exact hw.imp_left Eq.symm

theorem opener_ne_of_some {tx' : Nat} (hopener : opener = some tx) (hne : tx' ≠ tx) : opener ≠ some tx' := by
  rw [hopener]
  exact fun heq => hne (Option.some.inj heq).symm

theorem modify_of_getElem? {f : Transaction E → Transaction E} (ht : s.transactions[tx]? = some t) :
    s.transactions.modify tx f = s.transactions.set tx (f t) := by
  apply List.ext_getElem?
  intro i
  rw [List.getElem?_modify, List.getElem?_set]
  by_cases hi : tx = i
  · subst hi
    rw [if_pos rfl, if_pos (List.getElem?_eq_some_iff.mp ht).1, ht]
    simp
  · rw [if_neg hi]
    simp [hi]

theorem executed_of_write {w : Write} (hqueue : s.queue = .write w :: queue)
    (ht : s.transactions[w.transaction]? = some t) : s.executed =
      ⟨s.transactions.set w.transaction t, queue, (s.connection.execute (.write w)).1, s.elsewhere⟩ := by
  have hset : s.transactions.modify w.transaction (fun t => t) = s.transactions.set w.transaction t :=
    modify_of_getElem? ht
  simp only [Adapter.executed, hqueue]
  exact congrArg (fun transactions => (⟨transactions, queue, _, _⟩ : Adapter E)) hset

theorem executed_of_answer (hqueue : s.queue = statement :: queue) (hwrite : ∀ w, statement ≠ .write w)
    (ht : s.transactions[statement.transaction]? = some t) : s.executed =
      ⟨s.transactions.set statement.transaction { t with answer := some (s.connection.execute statement).2 }, queue,
        (s.connection.execute statement).1, s.elsewhere⟩ := by
  have hset := @modify_of_getElem? _ _ _ _ (fun t => { t with answer := some (s.connection.execute statement).2 }) ht
  rw [← hset, Adapter.executed, hqueue]
  cases statement with
  | write w => exact absurd rfl (hwrite w)
  | _ => rfl

/-! What the next statement of a transaction tells about its stage. -/

theorem Stage.of_begin {rest : List Statement} (h : Stage (.begin tx :: rest) opener tx t) :
    rest = [] ∧ t = ⟨.beginning, none, none, 0⟩ := by
  generalize hcons : Statement.begin tx :: rest = own at h
  cases h with
  | beginning hown =>
    rw [hown] at hcons
    exact ⟨(List.cons.inj hcons).2, rfl⟩
  | running n ws hown | committing n ws hown | rollingBack n ws _ _ _ hown =>
    rw [hown] at hcons
    cases ws <;> cases hcons
  | _ =>
    rename_i hown _
    rw [hown] at hcons
    cases hcons

theorem eq_of_write_cons {w : Write} {ws : List Write} {rest last : List Statement} (hlast : ∀ w, .write w ∉ last)
    (h : .write w :: rest = ws.map Statement.write ++ last) : ∃ ws' : List Write, rest = ws'.map .write ++ last := by
  cases ws with
  | nil =>
    rw [List.map_nil, List.nil_append] at h
    exact absurd (h ▸ List.mem_cons_self) (hlast w)
  | cons w' ws => exact ⟨ws, (List.cons.inj h).2⟩

theorem eq_nil_of_last_cons {ws : List Write} {statement : Statement} {rest : List Statement}
    (hwrite : ∀ w, statement ≠ .write w) (h : statement :: rest = ws.map Statement.write ++ [statement]) : rest = [] := by
  cases ws with
  | nil => exact (List.cons.inj h).2
  | cons w ws => exact absurd (List.cons.inj h).1 (hwrite w)

theorem Stage.of_write {rest : List Statement} {w : Write} (h : Stage (.write w :: rest) opener tx t) :
    opener = some tx ∧ Stage rest opener tx t := by
  generalize hcons : Statement.write w :: rest = own at h
  cases h with
  | running n ws hown heq =>
    have happend : .write w :: rest = ws.map Statement.write ++ [] := by rw [hcons, hown, List.append_nil]
    obtain ⟨ws', hrest⟩ := eq_of_write_cons (by simp) happend
    exact ⟨heq, .running n ws' (by rw [hrest, List.append_nil]) heq⟩
  | committing n ws hown heq =>
    obtain ⟨ws', hrest⟩ := eq_of_write_cons (by simp) (hcons.trans hown)
    exact ⟨heq, .committing n ws' hrest heq⟩
  | rollingBack n ws error actionEnd hend hown heq =>
    obtain ⟨ws', hrest⟩ := eq_of_write_cons (by simp) (hcons.trans hown)
    exact ⟨heq, .rollingBack n ws' error actionEnd hend hrest heq⟩
  | _ =>
    rename_i hown _
    rw [hown] at hcons
    cases hcons

theorem Stage.of_commit {rest : List Statement} (h : Stage (.commit tx :: rest) opener tx t) :
    rest = [] ∧ opener = some tx ∧ ∃ n, t = ⟨.committing, none, some .fulfilled, n⟩ := by
  generalize hcons : Statement.commit tx :: rest = own at h
  cases h with
  | committing n ws hown heq => exact ⟨eq_nil_of_last_cons (by simp) (hcons.trans hown), heq, n, rfl⟩
  | running n ws hown | rollingBack n ws _ _ _ hown =>
    rw [hown] at hcons
    cases ws <;> cases hcons
  | _ =>
    rename_i hown _
    rw [hown] at hcons
    cases hcons

theorem Stage.of_rollback {rest : List Statement} (h : Stage (.rollback tx :: rest) opener tx t) :
    rest = [] ∧ opener = some tx ∧
      ∃ n error actionEnd, actionEnd ≠ .fulfilled ∧ t = ⟨.rollingBack error, none, some actionEnd, n⟩ := by
  generalize hcons : Statement.rollback tx :: rest = own at h
  cases h with
  | rollingBack n ws error actionEnd hend hown heq =>
    exact ⟨eq_nil_of_last_cons (by simp) (hcons.trans hown), heq, n, error, actionEnd, hend, rfl⟩
  | running n ws hown | committing n ws hown =>
    rw [hown] at hcons
    cases ws <;> cases hcons
  | _ =>
    rename_i hown _
    rw [hown] at hcons
    cases hcons

theorem Invariant.executed_begin (h : Invariant s) (hqueue : s.queue = .begin tx :: queue)
    (hopener : s.connection.opener = none) : Invariant s.executed := by
  obtain ⟨t, ht⟩ := h.exists_transaction hqueue
  have hown : own s.queue tx = .begin tx :: own queue tx := own_of_queue hqueue
  have hstage := h.stage tx t ht
  rw [hown] at hstage
  obtain ⟨hrest, rfl⟩ := hstage.of_begin
  have hexecute : s.connection.execute (.begin tx) = ({ s.connection with opener := some tx }, true) := if_pos hopener
  rw [executed_of_answer hqueue (by simp) ht, hexecute]
  have hchanges : Changes s ⟨s.transactions.set tx ⟨.beginning, some true, none, 0⟩, queue,
      { s.connection with opener := some tx }, s.elsewhere⟩ tx ⟨.beginning, none, none, 0⟩ ⟨.beginning, some true, none, 0⟩ := by
    refine ⟨ht, rfl, nofun, fun tx' hne => own_of_queue_of_ne hqueue hne, fun tx' hne => ?_, fun _ _ hw => hw,
      fun _ hw => .inl hw⟩
    rw [hopener]
    exact iff_of_false (Option.some_ne_none tx').symm (opener_ne_of_some rfl hne)
  refine hchanges.invariant h (.begun hrest rfl) (fun _ n hn => absurd hn n.not_lt_zero) (fun w hw => ?_) h.endings
  have hpending := h.pending w hw
  rw [hopener] at hpending
  cases hpending

theorem Invariant.executed_write {w : Write} (h : Invariant s) (hqueue : s.queue = .write w :: queue) :
    Invariant s.executed := by
  obtain ⟨t, ht⟩ := h.exists_transaction hqueue
  have hown : own s.queue w.transaction = .write w :: own queue w.transaction := own_of_queue hqueue
  have hstage := h.stage w.transaction t ht
  rw [hown] at hstage
  obtain ⟨hopener, hrest⟩ := hstage.of_write
  have hexecute : s.connection.execute (.write w) = ({ s.connection with pending := s.connection.pending ++ [w] }, true) :=
    if_neg (by rw [hopener]; exact Option.some_ne_none _)
  rw [executed_of_write hqueue ht, hexecute]
  have hchanges : Changes s ⟨s.transactions.set w.transaction t, queue,
      { s.connection with pending := s.connection.pending ++ [w] }, s.elsewhere⟩ w.transaction t t :=
    ⟨ht, rfl, id, fun tx' hne => own_of_queue_of_ne hqueue hne, fun _ _ => Iff.rfl,
      fun _ _ hw => hw.imp_left (List.mem_append_left _), fun _ hw => .inl hw⟩
  refine hchanges.invariant h hrest (fun hnot n hn => ?_) (fun w' hw => ?_) h.endings
  · obtain hmem | hpending | hlasts := h.accounted w.transaction t ht hnot n hn
    · obtain heq | hmem := mem_queue_of_cons hqueue hmem
      · rw [Statement.write.injEq] at heq
        rw [← heq]
        exact .inr (.inl (List.mem_append_right _ List.mem_cons_self))
      · exact .inl hmem
    · exact .inr (.inl (List.mem_append_left _ hpending))
    · exact .inr (.inr hlasts)
  · obtain hw | hw := List.mem_append.mp hw
    · exact h.pending w' hw
    · rw [List.mem_singleton.mp hw]
      exact hopener

theorem Invariant.transaction_of_pending (h : Invariant s) (hopener : s.connection.opener = some tx) {w : Write}
    (hw : w ∈ s.connection.pending) : w.transaction = tx := by
  have hpending := h.pending w hw
  rw [hopener] at hpending
  exact (Option.some.inj hpending).symm

theorem Invariant.endings_append (h : Invariant s) (hopener : s.connection.opener = some tx) :
    ∀ ending ∈ s.connection.endings ++ [⟨tx, s.connection.pending⟩], ∀ w ∈ ending.writes,
      w.transaction = ending.transaction := by
  intro ending hmem w hw
  obtain hmem | hmem := List.mem_append.mp hmem
  · exact h.endings ending hmem w hw
  · cases List.mem_singleton.mp hmem
    exact h.transaction_of_pending hopener hw

theorem Invariant.executed_commit (h : Invariant s) (hqueue : s.queue = .commit tx :: queue) : Invariant s.executed := by
  obtain ⟨t, ht⟩ := h.exists_transaction hqueue
  have hown : own s.queue tx = .commit tx :: own queue tx := own_of_queue hqueue
  have hstage := h.stage tx t ht
  rw [hown] at hstage
  obtain ⟨hrest, hopener, n, rfl⟩ := hstage.of_commit
  have hexecute : s.connection.execute (.commit tx) = (⟨none, [], s.connection.committed ++ s.connection.pending,
      s.connection.endings ++ [⟨tx, s.connection.pending⟩]⟩, true) :=
    if_neg (by rw [hopener]; exact Option.some_ne_none _)
  rw [executed_of_answer hqueue (by simp) ht, hexecute]
  have hchanges : Changes s ⟨s.transactions.set tx ⟨.committing, some true, some .fulfilled, n⟩, queue,
      ⟨none, [], s.connection.committed ++ s.connection.pending,
        s.connection.endings ++ [⟨tx, s.connection.pending⟩]⟩, s.elsewhere⟩ tx ⟨.committing, none, some .fulfilled, n⟩
      ⟨.committing, some true, some .fulfilled, n⟩ := by
    refine ⟨ht, rfl, id, fun tx' hne => own_of_queue_of_ne hqueue hne, fun tx' hne => ?_, fun w hne hw => ?_,
      fun w hw => ?_⟩
    · exact iff_of_false (opener_ne_of_some hopener hne) (Option.some_ne_none tx').symm
    · obtain hpending | hlasts := hw
      · exact absurd (h.transaction_of_pending hopener hpending) hne
      · exact .inr (hlasts.imp_left (List.mem_append_left _))
    · obtain hw | helsewhere := hw
      · obtain hcommitted | hpending := List.mem_append.mp hw
        · exact .inl (.inl hcommitted)
        · exact .inr ⟨h.transaction_of_pending hopener hpending, rfl⟩
      · exact .inl (.inr helsewhere)
  refine hchanges.invariant h (.committed n hrest (Option.some_ne_none tx).symm) (fun hnot m hm => ?_) (fun w hw => ?_)
    (h.endings_append hopener)
  · obtain hmem | hpending | hlasts := h.accounted tx _ ht hnot m hm
    · obtain heq | hmem := mem_queue_of_cons hqueue hmem
      · cases heq
      · exact .inl hmem
    · exact .inr (.inr (.inl (List.mem_append_right _ hpending)))
    · exact .inr (.inr (hlasts.imp_left (List.mem_append_left _)))
  · cases hw

theorem Invariant.executed_rollback (h : Invariant s) (hqueue : s.queue = .rollback tx :: queue) :
    Invariant s.executed := by
  obtain ⟨t, ht⟩ := h.exists_transaction hqueue
  have hown : own s.queue tx = .rollback tx :: own queue tx := own_of_queue hqueue
  have hstage := h.stage tx t ht
  rw [hown] at hstage
  obtain ⟨hrest, hopener, n, error, actionEnd, hend, rfl⟩ := hstage.of_rollback
  have hexecute : s.connection.execute (.rollback tx) = (⟨none, [], s.connection.committed,
      s.connection.endings ++ [⟨tx, s.connection.pending⟩]⟩, true) :=
    if_neg (by rw [hopener]; exact Option.some_ne_none _)
  rw [executed_of_answer hqueue (by simp) ht, hexecute]
  have hchanges : Changes s ⟨s.transactions.set tx ⟨.rollingBack error, some true, some actionEnd, n⟩, queue,
      ⟨none, [], s.connection.committed, s.connection.endings ++ [⟨tx, s.connection.pending⟩]⟩, s.elsewhere⟩ tx
      ⟨.rollingBack error, none, some actionEnd, n⟩ ⟨.rollingBack error, some true, some actionEnd, n⟩ := by
    refine ⟨ht, rfl, id, fun tx' hne => own_of_queue_of_ne hqueue hne, fun tx' hne => ?_, fun w hne hw => ?_,
      fun _ hw => .inl hw⟩
    · exact iff_of_false (opener_ne_of_some hopener hne) (Option.some_ne_none tx').symm
    · obtain hpending | hlasts := hw
      · exact absurd (h.transaction_of_pending hopener hpending) hne
      · exact .inr hlasts
  refine hchanges.invariant h (.rolledBack n error actionEnd true hend hrest (Option.some_ne_none tx).symm)
    (fun hnot => ?_) (fun w hw => ?_) (h.endings_append hopener)
  · obtain hnone | hfulfilled := hnot
    · cases hnone
    · exact absurd (Option.some.inj hfulfilled) hend
  · cases hw

end Executed

theorem Invariant.executed (h : Invariant s)
    (hturn : ∀ tx queue, s.queue = .begin tx :: queue → s.connection.opener = none) : Invariant s.executed := by
  cases hqueue : s.queue with
  | nil =>
    have hself : s.executed = s := by rw [Adapter.executed, hqueue]
    rwa [hself]
  | cons statement queue =>
    cases statement with
    | begin tx => exact h.executed_begin hqueue (hturn tx queue hqueue)
    | write w => exact h.executed_write hqueue
    | commit tx => exact h.executed_commit hqueue
    | rollback tx => exact h.executed_rollback hqueue

theorem invariant_initial : Invariant (initial : Adapter E) := by
  constructor
  · intro tx t ht
    cases ht
  · intro tx t ht
    cases ht
  · intro statement hmem
    cases hmem
  · intro tx hopener
    cases hopener
  · intro w hw
    cases hw
  · intro w hw
    obtain hw | hw := hw <;> cases hw
  · intro ending hmem
    cases hmem

/-! ### Runs -/

theorem Invariant.step (event : Event E) (h : Invariant s) (hturn : InTurn s event) : Invariant (s.step event) := by
  cases event with
  | transaction => exact h.transaction
  | connected tx => exact h.connected
  | executed => exact h.executed hturn
  | executedElsewhere w => exact h.executedElsewhere
  | answered tx => exact h.answered
  | write tx => exact h.write hturn
  | actionEnded tx actionEnd => exact h.actionEnded actionEnd

theorem Invariant.atomic (h : Invariant s) : Atomic s := by
  constructor
  · intro tx t ht hphase n hn helsewhere
    cases h.stage tx t ht with
    | fulfilled m hown hopener =>
      obtain hqueue | hpending | hlasts := h.accounted tx _ ht (.inr rfl) n hn
      · have hmem : .write ⟨tx, n⟩ ∈ own s.queue tx := mem_own.mpr ⟨hqueue, rfl⟩
        rw [hown] at hmem
        cases hmem
      · exact absurd (h.pending _ hpending) hopener
      · exact hlasts.resolve_right helsewhere
    | _ => cases hphase
  · intro tx t error ht hphase n hcommitted
    obtain ⟨u, hu, hend⟩ := h.lasting _ (.inl hcommitted)
    cases ht.symm.trans hu
    cases h.stage tx t ht with
    | rejected m error actionEnd hne => exact hne (Option.some.inj hend)
    | _ => cases hphase
  · exact h.endings

/-- In a run in which no transaction begins on the connection while another one is open, and no action writes after it has failed, all transactions are atomic at any time. -/
theorem atomic_of_inTurn (events : List (Event E)) (hturn : Along step InTurn initial events) (n : Nat) :
    Atomic ((events.take n).foldl step initial) :=
  ((hturn.take n).invariant (fun _ event h hturn => h.step event hturn) invariant_initial).atomic

theorem atomic_of_inTurn_commit : Atomic (([.transaction, .connected 0, .executed, .answered 0, .write 0,
    .executed, .actionEnded 0 .fulfilled, .executed, .answered 0] : List (Event Unit)).take 9 |>.foldl step initial) := by
  have hturn : Along step InTurn initial ([.transaction, .connected 0, .executed, .answered 0, .write 0, .executed,
      .actionEnded 0 .fulfilled, .executed, .answered 0] : List (Event Unit)) := by
    refine ⟨trivial, trivial, fun _ _ _ => rfl, trivial, fun t ht => ?_, fun tx queue hqueue => ?_, trivial,
      fun tx queue hqueue => ?_, trivial, trivial⟩
    · cases ht
      exact .inl rfl
    · cases hqueue
    · cases hqueue
  exact atomic_of_inTurn _ hturn 9

/-- A transaction that begins while another one is open rolls back what the other one has written. -/
theorem not_atomic_of_overlap :
    ¬∀ (events : List (Event Unit)) (n : Nat), Atomic ((events.take n).foldl step initial) := by
  intro h
  have hown := (h [.transaction, .connected 0, .executed, .answered 0, .write 0, .executed, .transaction, .connected 1,
    .executed, .answered 1, .executed] 11).own ⟨1, [⟨0, 0⟩]⟩ (by decide) ⟨0, 0⟩ (by decide)
  cases hown

end Adapter

end Sqlite

end Coaty
