import Coaty.Js.Map
import Coaty.Js.Number
import Coaty.Transition

/-!
# Connection pools

The pools are shared by all adapters with the same connection info. An operation looks up the pool when it starts. If there is none, it creates one and asks the server for its version, and the pool is registered only when the answer has come. An operation queries its pool when the promise of the pool item is fulfilled, and an operation that has connected a client for a transaction does so again for the operations on the context of the transaction. No pool is ever ended.
-/

namespace Coaty

namespace Postgres

open Js Transition

/-- The numbers are undefined if they are not a number. -/
structure ServerInfo where
  majorVersion : Option Int
  minorVersion : Option Int
deriving DecidableEq

/-- The server info for an answer such as `12.3`. -/
def ServerInfo.ofVersion (serverVersion : Text) : ServerInfo :=
  let parts := serverVersion.split (unit '.')
  ⟨parts[0]?.bind parseInt, parts[1]?.bind parseInt⟩

/-- What has come of the version query of a pool. It fails, too, if its result has no version. -/
inductive VersionQuery where
  | pending
  | succeeded (serverInfo : ServerInfo)
  | failed
deriving DecidableEq

structure Pool (K : Type) where
  connectionInfo : K
  versionQuery : VersionQuery
deriving DecidableEq

structure PoolOperation (K : Type) where
  connectionInfo : K
  pool : Nat
deriving DecidableEq

/-- A query of an operation, with the pool that is registered at that time. -/
structure PoolUse where
  pool : Nat
  registered : Option Nat
deriving DecidableEq

/-- A pool has the number of pools that were created before it. -/
structure Pools (K : Type) [DecidableEq K] where
  pools : List (Pool K)
  PG_POOLS : Map K Nat
  operations : List (PoolOperation K)
  uses : List PoolUse

inductive PoolEvent (K : Type) where
  /-- An operation of an adapter with the connection info calls `_getPoolItem`. -/
  | operation (connectionInfo : K)
  /-- The version query of the pool has a result, or fails. -/
  | versionQueryEnded (pool : Nat) (serverVersion : Option Text)
  /-- The operation, or one on the context of its transaction, queries the pool. -/
  | query (operation : Nat)

namespace Pools

variable {K : Type} [DecidableEq K]

def initial : Pools K := ⟨[], Map.empty, [], []⟩

def getPoolItem (s : Pools K) (connectionInfo : K) : Pools K :=
  match s.PG_POOLS.get connectionInfo with
  | some pool => { s with operations := s.operations ++ [⟨connectionInfo, pool⟩] }
  | none =>
    { s with
      pools := s.pools ++ [⟨connectionInfo, .pending⟩]
      operations := s.operations ++ [⟨connectionInfo, s.pools.length⟩] }

def versionQueryEnded (s : Pools K) (pool : Nat) (serverVersion : Option Text) : Pools K :=
  match s.pools[pool]? with
  | some ⟨connectionInfo, .pending⟩ =>
    match serverVersion with
    | some serverVersion =>
      { s with
        pools := s.pools.set pool ⟨connectionInfo, .succeeded (.ofVersion serverVersion)⟩
        PG_POOLS := s.PG_POOLS.set connectionInfo pool }
    | none => { s with pools := s.pools.set pool ⟨connectionInfo, .failed⟩ }
  | _ => s

/-- A query waits for the pool item, and there is none if the version query has failed. -/
def query (s : Pools K) (operation : Nat) : Pools K :=
  match s.operations[operation]? with
  | some ⟨connectionInfo, pool⟩ =>
    match s.pools[pool]? with
    | some ⟨_, .succeeded _⟩ => { s with uses := s.uses ++ [⟨pool, s.PG_POOLS.get connectionInfo⟩] }
    | _ => s
  | none => s

def step (s : Pools K) : PoolEvent K → Pools K
  | .operation connectionInfo => s.getPoolItem connectionInfo
  | .versionQueryEnded pool serverVersion => s.versionQueryEnded pool serverVersion
  | .query operation => s.query operation

/-! ### One pool for each connection info -/

structure OnePool (s : Pools K) : Prop where
  /-- At most one pool is created for a connection info. -/
  unique : ∀ (i j : Nat) (p q : Pool K), s.pools[i]? = some p → s.pools[j]? = some q → p.connectionInfo = q.connectionInfo → i = j
  /-- Every query is one of the registered pool. -/
  registered : ∀ use ∈ s.uses, use.registered = some use.pool
  /-- A pool whose version query has failed is registered. -/
  closed : ∀ (i : Nat) (p : Pool K), s.pools[i]? = some p → p.versionQuery = .failed → s.PG_POOLS.get p.connectionInfo = some i

/-- An operation does not start while there is an unregistered pool only, and no version query fails. -/
def Alone (s : Pools K) : PoolEvent K → Prop
  | .operation connectionInfo =>
    s.PG_POOLS.get connectionInfo = none → ∀ p ∈ s.pools, p.connectionInfo ≠ connectionInfo
  | .versionQueryEnded pool none => ∀ p, s.pools[pool]? = some p → p.versionQuery ≠ .pending
  | _ => True

/-! ### Registered pools -/

structure Consistent (s : Pools K) : Prop where
  /-- A registered pool is one of the connection info whose version query has succeeded. -/
  succeeded : ∀ k i, s.PG_POOLS.get k = some i → ∃ info, s.pools[i]? = some ⟨k, .succeeded info⟩
  /-- A pool is registered for the connection info of each pool whose version query has succeeded. -/
  isSome : ∀ (i : Nat) (k : K) (info : ServerInfo),
    s.pools[i]? = some ⟨k, .succeeded info⟩ → ∃ j, s.PG_POOLS.get k = some j
  pool : ∀ o ∈ s.operations, ∃ versionQuery, s.pools[o.pool]? = some ⟨o.connectionInfo, versionQuery⟩

variable {s : Pools K}

theorem consistent_initial : Consistent (initial : Pools K) where
  succeeded _ _ h := by simp [initial] at h
  isSome _ _ _ h := by simp [initial] at h
  pool _ h := by simp [initial] at h

theorem onePool_initial : OnePool (initial : Pools K) where
  unique _ _ _ _ h := by simp [initial] at h
  registered _ h := by simp [initial] at h
  closed _ _ h := by simp [initial] at h

theorem Consistent.getPoolItem (h : Consistent s) (connectionInfo : K) : Consistent (s.getPoolItem connectionInfo) := by
  rw [Pools.getPoolItem]
  cases hget : s.PG_POOLS.get connectionInfo with
  | some pool =>
    refine ⟨h.succeeded, h.isSome, fun o ho => ?_⟩
    obtain ho | rfl := List.mem_append.mp ho |>.imp_right List.mem_singleton.mp
    · exact h.pool o ho
    · obtain ⟨info, hpool⟩ := h.succeeded connectionInfo pool hget
      exact ⟨_, hpool⟩
  | none =>
    have hgrown : ∀ (i : Nat) (p : Pool K), s.pools[i]? = some p →
        (s.pools ++ [⟨connectionInfo, .pending⟩])[i]? = some p := by
      intro i p hp
      rw [List.getElem?_append_left (List.getElem?_eq_some_iff.mp hp).1, hp]
    refine ⟨fun k i hk => ?_, fun i k info hp => ?_, fun o ho => ?_⟩
    · obtain ⟨info, hpool⟩ := h.succeeded k i hk
      exact ⟨info, hgrown i _ hpool⟩
    · by_cases hi : i < s.pools.length
      · rw [List.getElem?_append_left hi] at hp
        exact h.isSome i k info hp
      · rw [List.getElem?_append_right (by omega)] at hp
        cases List.mem_singleton.mp (List.mem_of_getElem? hp)
    · obtain ho | rfl := List.mem_append.mp ho |>.imp_right List.mem_singleton.mp
      · obtain ⟨versionQuery, hpool⟩ := h.pool o ho
        exact ⟨versionQuery, hgrown _ _ hpool⟩
      · exact ⟨.pending, by simp⟩

theorem Consistent.versionQueryEnded (h : Consistent s) (pool : Nat) (serverVersion : Option Text) :
    Consistent (s.versionQueryEnded pool serverVersion) := by
  rw [Pools.versionQueryEnded]
  split
  · rename_i k hpending
    have hlength := (List.getElem?_eq_some_iff.mp hpending).1
    have hset : ∀ {i : Nat} {p : Pool K} (q : Pool K), i ≠ pool → s.pools[i]? = some p →
        (s.pools.set pool q)[i]? = some p := by
      intro i p q hne hp
      rw [List.getElem?_set_ne (Ne.symm hne), hp]
    have hsucceeded : ∀ k i, s.PG_POOLS.get k = some i → i ≠ pool := by
      rintro k i hk rfl
      obtain ⟨info, hpool⟩ := h.succeeded k i hk
      cases hpending.symm.trans hpool
    have hoperations : ∀ versionQuery, ∀ o ∈ s.operations, ∃ versionQuery',
        (s.pools.set pool ⟨k, versionQuery⟩)[o.pool]? = some ⟨o.connectionInfo, versionQuery'⟩ := by
      intro versionQuery o ho
      obtain ⟨versionQuery', hpool⟩ := h.pool o ho
      by_cases heq : o.pool = pool
      · rw [heq] at hpool ⊢
        cases hpending.symm.trans hpool
        exact ⟨versionQuery, List.getElem?_set_self hlength⟩
      · exact ⟨versionQuery', hset _ heq hpool⟩
    cases serverVersion with
    | some serverVersion =>
      refine ⟨fun k' i hk' => ?_, fun i k' info hp => ?_, hoperations _⟩
      · rw [Map.get_set] at hk'
        split at hk'
        · rename_i heq
          cases hk'
          rw [heq]
          exact ⟨_, List.getElem?_set_self hlength⟩
        · obtain ⟨info, hpool⟩ := h.succeeded k' i hk'
          exact ⟨info, hset _ (hsucceeded k' i hk') hpool⟩
      · show ∃ j, (s.PG_POOLS.set k pool).get k' = some j
        rw [Map.get_set]
        split
        · exact ⟨pool, rfl⟩
        · by_cases heq : i = pool
          · rw [heq, List.getElem?_set_self hlength] at hp
            cases hp
            contradiction
          · rw [List.getElem?_set_ne (Ne.symm heq)] at hp
            exact h.isSome i k' info hp
    | none =>
      refine ⟨fun k' i hk' => ?_, fun i k' info hp => ?_, hoperations _⟩
      · obtain ⟨info, hpool⟩ := h.succeeded k' i hk'
        exact ⟨info, hset _ (hsucceeded k' i hk') hpool⟩
      · by_cases heq : i = pool
        · rw [heq, List.getElem?_set_self hlength] at hp
          cases hp
        · rw [List.getElem?_set_ne (Ne.symm heq)] at hp
          exact h.isSome i k' info hp
  · exact h

theorem Consistent.query (h : Consistent s) (operation : Nat) : Consistent (s.query operation) := by
  rw [Pools.query]
  split
  · split
    · exact ⟨h.succeeded, h.isSome, h.pool⟩
    · exact h
  · exact h

theorem Consistent.step (h : Consistent s) (event : PoolEvent K) : Consistent (step s event) := by
  cases event with
  | operation connectionInfo => exact h.getPoolItem connectionInfo
  | versionQueryEnded pool serverVersion => exact h.versionQueryEnded pool serverVersion
  | query operation => exact h.query operation

/-! ### Steps that keep one pool -/

theorem Consistent.get_of_succeeded (h : Consistent s) (hone : OnePool s) {i : Nat} {k : K} {info : ServerInfo}
    (hpool : s.pools[i]? = some ⟨k, .succeeded info⟩) : s.PG_POOLS.get k = some i := by
  obtain ⟨j, hj⟩ := h.isSome i k info hpool
  obtain ⟨info', hpool'⟩ := h.succeeded k j hj
  rw [hj, hone.unique i j _ _ hpool hpool' rfl]

theorem Consistent.not_failed (h : Consistent s) (hone : OnePool s) {i : Nat} {p : Pool K} (hpool : s.pools[i]? = some p) :
    p.versionQuery ≠ .failed := by
  intro hfailed
  obtain ⟨info, hsucceeded⟩ := h.succeeded _ i (hone.closed i p hpool hfailed)
  have heq := Option.some.inj (hpool.symm.trans hsucceeded)
  rw [heq] at hfailed
  cases hfailed

theorem onePool_getPoolItem_iff (hone : OnePool s) (connectionInfo : K) :
    OnePool (s.getPoolItem connectionInfo) ↔ Alone s (.operation connectionInfo) := by
  rw [getPoolItem, Alone]
  cases hget : s.PG_POOLS.get connectionInfo with
  | some pool => exact iff_of_true ⟨hone.unique, hone.registered, hone.closed⟩ (by simp)
  | none =>
    rw [forall_prop_of_true rfl]
    have hnew : (s.pools ++ [⟨connectionInfo, .pending⟩])[s.pools.length]? = some ⟨connectionInfo, .pending⟩ := by simp
    constructor
    · intro hone' p hp heq
      obtain ⟨i, hi⟩ := List.mem_iff_getElem?.mp hp
      have hlength := (List.getElem?_eq_some_iff.mp hi).1
      rw [← List.getElem?_append_left hlength] at hi
      have hsame := hone'.unique i s.pools.length p _ hi hnew heq
      omega
    · intro hother
      refine ⟨fun i j p q hp hq heq => ?_, hone.registered, fun i p hp hfailed => ?_⟩
      · have hcreated : ∀ {i : Nat} {p : Pool K}, (s.pools ++ [⟨connectionInfo, .pending⟩])[i]? = some p →
            (s.pools[i]? = some p ∧ p.connectionInfo ≠ connectionInfo) ∨
              (i = s.pools.length ∧ p.connectionInfo = connectionInfo) := by
          intro i p hp
          by_cases hi : i < s.pools.length
          · rw [List.getElem?_append_left hi] at hp
            exact Or.inl ⟨hp, hother p (List.mem_of_getElem? hp)⟩
          · have hlength := (List.getElem?_eq_some_iff.mp hp).1
            rw [List.length_append, List.length_singleton] at hlength
            obtain rfl : i = s.pools.length := by omega
            rw [hnew] at hp
            cases hp
            exact Or.inr ⟨rfl, rfl⟩
        obtain ⟨hp, hne⟩ | ⟨hi, hpk⟩ := hcreated hp
        · obtain ⟨hq, _⟩ | ⟨_, hqk⟩ := hcreated hq
          · exact hone.unique i j p q hp hq heq
          · exact absurd (heq.trans hqk) hne
        · obtain ⟨hq, hne⟩ | ⟨hj, _⟩ := hcreated hq
          · exact absurd (heq.symm.trans hpk) hne
          · omega
      · by_cases hi : i < s.pools.length
        · rw [List.getElem?_append_left hi] at hp
          exact hone.closed i p hp hfailed
        · rw [List.getElem?_append_right (by omega)] at hp
          rw [List.mem_singleton.mp (List.mem_of_getElem? hp)] at hfailed
          cases hfailed

theorem unique_set (hone : OnePool s) {pool : Nat} {k : K} {versionQuery versionQuery' : VersionQuery}
    (hpool : s.pools[pool]? = some ⟨k, versionQuery⟩) (i j : Nat) (p q : Pool K)
    (hp : (s.pools.set pool ⟨k, versionQuery'⟩)[i]? = some p) (hq : (s.pools.set pool ⟨k, versionQuery'⟩)[j]? = some q)
    (heq : p.connectionInfo = q.connectionInfo) : i = j := by
  have hbefore : ∀ {i : Nat} {p : Pool K}, (s.pools.set pool ⟨k, versionQuery'⟩)[i]? = some p →
      ∃ p', s.pools[i]? = some p' ∧ p'.connectionInfo = p.connectionInfo := by
    intro i p hp
    by_cases hi : i = pool
    · rw [hi, List.getElem?_set_self (List.getElem?_eq_some_iff.mp hpool).1] at hp
      cases hp
      exact ⟨⟨k, versionQuery⟩, hi ▸ hpool, rfl⟩
    · rw [List.getElem?_set_ne (Ne.symm hi)] at hp
      exact ⟨p, hp, rfl⟩
  obtain ⟨p', hp', hpk⟩ := hbefore hp
  obtain ⟨q', hq', hqk⟩ := hbefore hq
  exact hone.unique i j p' q' hp' hq' (by rw [hpk, hqk, heq])

theorem onePool_versionQueryEnded_iff (h : Consistent s) (hone : OnePool s) (pool : Nat) (serverVersion : Option Text) :
    OnePool (s.versionQueryEnded pool serverVersion) ↔ Alone s (.versionQueryEnded pool serverVersion) := by
  have hconsistent := h.versionQueryEnded pool serverVersion
  rw [versionQueryEnded] at hconsistent ⊢
  split
  · rename_i k hpending
    simp only [hpending] at hconsistent
    have hlength := (List.getElem?_eq_some_iff.mp hpending).1
    cases serverVersion with
    | some serverVersion =>
      refine iff_of_true ⟨unique_set hone hpending, hone.registered, fun i p hp hfailed => ?_⟩ trivial
      by_cases heq : i = pool
      · rw [heq, List.getElem?_set_self hlength] at hp
        cases hp
        cases hfailed
      · rw [List.getElem?_set_ne (Ne.symm heq)] at hp
        exact absurd hfailed (h.not_failed hone hp)
    | none =>
      refine iff_of_false (fun hone' => ?_) fun halone => halone _ hpending rfl
      exact hconsistent.not_failed hone' (List.getElem?_set_self hlength) rfl
  · rename_i hnot
    refine iff_of_true hone ?_
    cases serverVersion with
    | some serverVersion => trivial
    | none =>
      intro p hp hpending
      exact hnot p.connectionInfo (by rw [hp, ← hpending])

theorem onePool_query (h : Consistent s) (hone : OnePool s) (operation : Nat) : OnePool (s.query operation) := by
  rw [query]
  split
  · rename_i k pool hoperation
    split
    · rename_i k' info hpool
      obtain ⟨versionQuery, hpool'⟩ := h.pool _ (List.mem_of_getElem? hoperation)
      cases hpool.symm.trans hpool'
      refine ⟨hone.unique, fun use huse => ?_, hone.closed⟩
      obtain huse | rfl := List.mem_append.mp huse |>.imp_right List.mem_singleton.mp
      · exact hone.registered use huse
      · exact h.get_of_succeeded hone hpool
    · exact hone
  · exact hone

theorem onePool_step_iff (s : Pools K) (event : PoolEvent K) (h : Consistent s) (hone : OnePool s) :
    OnePool (step s event) ↔ Alone s event := by
  cases event with
  | operation connectionInfo => exact onePool_getPoolItem_iff hone connectionInfo
  | versionQueryEnded pool serverVersion => exact onePool_versionQueryEnded_iff h hone pool serverVersion
  | query operation => exact iff_of_true (onePool_query h hone operation) trivial

/-- There is one pool for each connection info throughout exactly if no operation starts while the only pool is not registered yet, and no version query fails. -/
theorem onePool_iff_alone (events : List (PoolEvent K)) :
    (∀ n, OnePool ((events.take n).foldl step initial)) ↔ Along step Alone initial events :=
  forall_take_iff_along (fun _ event h => h.step event) onePool_step_iff consistent_initial onePool_initial

/-- Two operations that start before the answer of the server each create a pool. -/
theorem not_onePool_of_operations :
    ¬ ∀ (events : List (PoolEvent Unit)) (n : Nat), OnePool ((events.take n).foldl step initial) := by
  intro h
  have hunique := (h [.operation (), .operation ()] 2).unique 0 1 ⟨(), .pending⟩ ⟨(), .pending⟩ rfl rfl rfl
  cases hunique

end Pools

end Postgres

end Coaty
