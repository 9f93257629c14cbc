import Coaty.Db.Sqlite.LocalStore
import Coaty.Transition

/-!
# Independent stores

Local stores are a family of maps, of which an operation reads or changes one. The default store is there from the beginning and cannot be removed. The tables of the database represent the family as long as no operation removes the store with the empty name or names a store by a name that SQLite takes for the table of another one.
-/

namespace Coaty

namespace Sqlite

open Js Transition

/-! ### The family of maps -/

/-- The stores that exist, each by its name. The default store has none. -/
abbrev Stores (V : Type) := Option Text → Option (Text → Option V)

/-- What is expected of the promise of an operation. -/
inductive Expected (V : Type) where
  | fulfilled
  | rejected
  | value (value : Option V)
  | values (entries : Text → Option V)

/-- The store with a name that may be undefined or empty. -/
def storeOf (name : Option Text) : Option Text := name.filter (· ≠ [])

namespace Stores

variable {V : Type}

def initial : Stores V := Function.update (fun _ => none) none (some fun _ => none)

/-- An operation on a store that has to exist. -/
def onStore (stores : Stores V) (store : Option Text) (f : (Text → Option V) → (Text → Option V) × Expected V) :
    Stores V × Expected V :=
  match stores store with
  | none => (stores, .rejected)
  | some entries => (Function.update stores store (some (f entries).1), (f entries).2)

def perform (stores : Stores V) : StoreCall V → Stores V × Expected V
  | .addStore name =>
    let store := storeOf name
    (if (stores store).isSome then stores else Function.update stores store (some fun _ => none), .fulfilled)
  | .removeStore name =>
    let store := storeOf name
    if store = none then (stores, .rejected) else (Function.update stores store none, .fulfilled)
  | .getValue key store => onStore stores (storeOf store) fun entries => (entries, .value (entries key))
  | .getValues store => onStore stores (storeOf store) fun entries => (entries, .values entries)
  | .setValue key value store =>
    onStore stores (storeOf store) fun entries => (Function.update entries key (some value), .fulfilled)
  | .deleteValue key store =>
    onStore stores (storeOf store) fun entries => (Function.update entries key none, .fulfilled)
  | .clearValues store => onStore stores (storeOf store) fun _ => (fun _ => none, .fulfilled)

end Stores

def StoreCall.store {V : Type} : StoreCall V → Option Text
  | addStore name => storeOf name
  | removeStore name => storeOf name
  | getValue _ store => storeOf store
  | getValues store => storeOf store
  | setValue _ _ store => storeOf store
  | deleteValue _ store => storeOf store
  | clearValues store => storeOf store

section

variable {T V : Type} [DecidableEq T] (engine : Engine T) (json : JsonText V)

/-- The promise is settled as expected. -/
def Meets : Except StoreError (StoreValue V) → Expected V → Prop
  | .ok .done, .fulfilled => True
  | .error _, .rejected => True
  | .ok (.value value), .value expected => value = expected
  | .ok (.values object), .values entries => ∀ key, object.get key = entries key
  | _, _ => False

/-! ### The tables of stores -/

def tableFor (store : Option Text) : T := engine.tableOf (store.getD DEFAULT_KV_STORE)

/-- The rows of a table are the entries of a store as JSON text. -/
def Holds : Option (Map Text Text) → Option (Text → Option V) → Prop
  | none, none => True
  | some rows, some entries => ∀ key, rows.get key = (entries key).map json.stringify
  | _, _ => False

def HasOwnTable (stores : Stores V) (store : Option Text) : Prop :=
  ∀ other, (stores other).isSome → tableFor engine other = tableFor engine store → other = store

structure Represents (tables : Tables T) (stores : Stores V) : Prop where
  holds : ∀ store, (stores store).isSome → Holds json (tables (tableFor engine store)) (stores store)
  own : ∀ store, (stores store).isSome → HasOwnTable engine stores store
  exists_store : ∀ table, (tables table).isSome → ∃ store, (stores store).isSome ∧ tableFor engine store = table

/-! ### Operations side by side -/

/-- The tables and the family of maps after some operations, with what they yielded and what was expected of them. -/
structure Comparison (T V : Type) where
  tables : Tables T
  stores : Stores V
  results : List (Except StoreError (StoreValue V) × Expected V)

def Comparison.step (c : Comparison T V) (call : StoreCall V) : Comparison T V where
  tables := (perform engine json c.tables call).1
  stores := (c.stores.perform call).1
  results := c.results ++ [((perform engine json c.tables call).2, (c.stores.perform call).2)]

def Comparison.initial : Comparison T V := ⟨newDatabase engine, Stores.initial, []⟩

/-- All operations have yielded what was expected of them, and the tables represent the family of maps. -/
structure Comparison.Agrees (c : Comparison T V) : Prop where
  represents : Represents engine json c.tables c.stores
  meets : ∀ r ∈ c.results, Meets r.1 r.2

/-- The operation names no store by the name of another one's table, does not remove the store with the empty name, and does not make an object with the key `__proto__`. -/
def Proper (stores : Stores V) (call : StoreCall V) : Prop :=
  HasOwnTable engine stores call.store ∧
    match call with
    | .removeStore name => storeOf name ≠ none
    | .getValues store => ∀ entries, stores (storeOf store) = some entries → entries (text "__proto__") = none
    | _ => True

end

/-! ### Tables after an operation -/

section

variable {T V : Type} [DecidableEq T] {engine : Engine T} {json : JsonText V} {tables : Tables T} {stores : Stores V}
  {store : Option Text}

theorem Represents.holds_of_own (h : Represents engine json tables stores) (hown : HasOwnTable engine stores store) :
    Holds json (tables (tableFor engine store)) (stores store) := by
  cases hstore : stores store with
  | some entries =>
    rw [← hstore]
    exact h.holds store (by rw [hstore]; rfl)
  | none =>
    cases htable : tables (tableFor engine store) with
    | none => trivial
    | some rows =>
      obtain ⟨other, hother, heq⟩ := h.exists_store _ (by rw [htable]; rfl)
      rw [hown other hother heq, hstore] at hother
      cases hother

theorem isSome_of_holds {rows : Option (Map Text Text)} {entries : Option (Text → Option V)} (h : Holds json rows entries) :
    rows.isSome = entries.isSome := by
  cases rows <;> cases entries <;> first | rfl | exact h.elim

theorem Represents.update (h : Represents engine json tables stores) (hown : HasOwnTable engine stores store)
    {rows : Option (Map Text Text)} {entries : Option (Text → Option V)} (hholds : Holds json rows entries) :
    Represents engine json (Function.update tables (tableFor engine store) rows) (Function.update stores store entries) := by
  have hother : ∀ {other}, other ≠ store → (Function.update stores store entries other).isSome →
      (stores other).isSome ∧ tableFor engine other ≠ tableFor engine store := by
    intro other hne hsome
    rw [Function.update_of_ne hne] at hsome
    exact ⟨hsome, fun heq => hne (hown other hsome heq)⟩
  refine ⟨fun other hsome => ?_, fun other hsome another hanother heq => ?_, fun table hsome => ?_⟩
  · by_cases heq : other = store
    · rw [heq, Function.update_self, Function.update_self]
      exact hholds
    · obtain ⟨hsome, hne⟩ := hother heq hsome
      rw [Function.update_of_ne hne, Function.update_of_ne heq]
      exact h.holds other hsome
  · by_cases hstore : other = store
    · by_cases hstore' : another = store
      · rw [hstore, hstore']
      · exact absurd (hstore ▸ heq) (hother hstore' hanother).2
    · by_cases hstore' : another = store
      · exact absurd (hstore' ▸ heq).symm (hother hstore hsome).2
      · exact h.own other (hother hstore hsome).1 another (hother hstore' hanother).1 heq
  · by_cases heq : table = tableFor engine store
    · refine ⟨store, ?_, heq.symm⟩
      rw [heq, Function.update_self] at hsome
      rw [Function.update_self, ← isSome_of_holds hholds]
      exact hsome
    · rw [Function.update_of_ne heq] at hsome
      obtain ⟨other, hsome, htable⟩ := h.exists_store table hsome
      have hne : other ≠ store := fun hother => heq (by rw [← htable, hother])
      exact ⟨other, by rwa [Function.update_of_ne hne], htable⟩

/-! ### What an operation does -/

theorem orElse_eq_getD (name : Option Text) : orElse name DEFAULT_KV_STORE = (storeOf name).getD DEFAULT_KV_STORE := by
  cases name with
  | none => rfl
  | some name => cases name <;> rfl

theorem query_of_writes {sql : SqlTemplate Text} {statement : StoreStatement} (h : Writes sql statement) :
    query engine tables sql = statement.execute engine.tableOf engine.scan tables := by
  obtain ⟨sqlText, hbuild, htokens⟩ := h
  rw [query, hbuild]
  exact engine.executes sqlText statement tables htokens

theorem query_getStoreQuery (op : StoreOp) (name : Option Text) :
    query engine tables (getStoreQuery op name) =
      (op.statement ((storeOf name).getD DEFAULT_KV_STORE)).execute engine.tableOf engine.scan tables := by
  rw [← orElse_eq_getD]
  exact query_of_writes (writes_getStoreQuery op name)

theorem query_getKvQuery (op : KvOp) (name : Option Text) :
    query engine tables (getKvQuery op name) =
      (op.statement ((storeOf name).getD DEFAULT_KV_STORE)).execute engine.tableOf engine.scan tables := by
  rw [← orElse_eq_getD]
  exact query_of_writes (writes_getKvQuery op name)

/-- A statement on a table that has to exist does what the operation does on the store, if it does on the rows and entries. -/
theorem Represents.onTable (h : Represents engine json tables stores) (hown : HasOwnTable engine stores store)
    {f : Map Text Text → Map Text Text × List Row} {g : (Text → Option V) → (Text → Option V) × Expected V}
    {yields : List Row → Except StoreError (StoreValue V)}
    (hfg : ∀ rows entries, stores store = some entries → Holds json (some rows) (some entries) →
      Holds json (some (f rows).1) (some (g entries).1) ∧ Meets (yields (f rows).2) (g entries).2) :
    Represents engine json (onTable tables (tableFor engine store) f).1 (stores.onStore store g).1 ∧
      Meets ((onTable tables (tableFor engine store) f).2 >>= yields) (stores.onStore store g).2 := by
  have hholds := h.holds_of_own hown
  rw [Sqlite.onTable, Stores.onStore]
  cases htable : tables (tableFor engine store) with
  | none =>
    cases hstore : stores store with
    | none => exact ⟨h, trivial⟩
    | some entries =>
      rw [htable, hstore] at hholds
      exact hholds.elim
  | some rows =>
    cases hstore : stores store with
    | none =>
      rw [htable, hstore] at hholds
      exact hholds.elim
    | some entries =>
      rw [htable, hstore] at hholds
      obtain ⟨hupdated, hmeets⟩ := hfg rows entries hstore hholds
      exact ⟨h.update hown hupdated, hmeets⟩

/-! ### Values -/

theorem getValueOf_get {rows : Map Text Text} {entries : Text → Option V} (h : Holds json (some rows) (some entries))
    (key : Text) :
    getValueOf json ((rows.get key).toList.map fun value => [(text "value", value)]) = .ok (entries key) := by
  rw [h key]
  cases entries key with
  | none => rfl
  | some value =>
    show (do return some (← json.parse (json.stringify value))) = _
    rw [json.parse_stringify]
    rfl

theorem foldlM_assign {entries : Text → Option V} {rows : List (Text × Text)}
    (hrows : ∀ row ∈ rows, row.1 ≠ text "__proto__" ∧ ∃ value, entries row.1 = some value ∧ row.2 = json.stringify value)
    (obj : Map Text V) :
    ∃ object, (rows.map fun row => [(text "key", row.1), (text "value", row.2)]).foldlM (fun obj row => do
        let value ← parseColumn json row "value"
        return assign obj (interpolate (row.lookup (text "key"))) value) obj = .ok object ∧
      ∀ key, object.get key = if key ∈ rows.map Prod.fst then entries key else obj.get key := by
  induction rows generalizing obj with
  | nil => exact ⟨obj, rfl, by simp⟩
  | cons row rows ih =>
    obtain ⟨⟨hproto, value, hentry, htext⟩, hrest⟩ := List.forall_mem_cons.mp hrows
    obtain ⟨object, hobject, hget⟩ := ih hrest (assign obj row.1 value)
    refine ⟨object, ?_, fun key => ?_⟩
    · rw [List.map_cons, List.foldlM_cons, ← hobject]
      have hparse : parseColumn json [(text "key", row.1), (text "value", row.2)] "value" = .ok value := by
        rw [← json.parse_stringify value, ← htext]
        rfl
      rw [hparse]
      rfl
    · rw [hget, get_assign, List.map_cons]
      simp only [List.mem_cons]
      by_cases heq : key = row.1
      · simp only [heq, hproto, hentry, ne_eq, not_false_eq_true, and_self, true_or, if_true, ite_self]
      · simp only [heq, false_and, false_or, if_false]

theorem getValuesOf_scan (engine : Engine T) {rows : Map Text Text} {entries : Text → Option V} (h : Holds json (some rows) (some entries))
    (hproto : entries (text "__proto__") = none) :
    ∃ object, getValuesOf json ((engine.scan rows).map fun row => [(text "key", row.1), (text "value", row.2)]) = .ok object ∧
      ∀ key, object.get key = entries key := by
  have hmem : ∀ key value, (key, value) ∈ engine.scan rows ↔ (entries key).map json.stringify = some value := by
    intro key value
    rw [(engine.scan_perm rows).mem_iff, Map.mem_entries, h key]
  have hrows : ∀ row ∈ engine.scan rows,
      row.1 ≠ text "__proto__" ∧ ∃ value, entries row.1 = some value ∧ row.2 = json.stringify value := by
    intro row hrow
    obtain ⟨value, hvalue, htext⟩ := Option.map_eq_some_iff.mp ((hmem row.1 row.2).mp hrow)
    refine ⟨fun heq => ?_, value, hvalue, htext.symm⟩
    rw [heq, hproto] at hvalue
    cases hvalue
  obtain ⟨object, hobject, hget⟩ := foldlM_assign hrows Map.empty
  refine ⟨object, hobject, fun key => ?_⟩
  rw [hget]
  split
  · rfl
  · rename_i hnot
    cases hentry : entries key with
    | none => rfl
    | some value =>
      have hrow := (hmem key (json.stringify value)).mpr (by rw [hentry]; rfl)
      exact absurd (List.mem_map.mpr ⟨_, hrow, rfl⟩) hnot

/-! ### Runs -/

theorem holds_set {rows : Map Text Text} {entries : Text → Option V} (h : Holds json (some rows) (some entries)) (key : Text)
    (value : V) :
    Holds json (some (rows.set key (json.stringify value))) (some (Function.update entries key (some value))) := by
  intro other
  rw [Map.get_set, Function.update_apply]
  split
  · rfl
  · exact h other

theorem holds_delete {rows : Map Text Text} {entries : Text → Option V} (h : Holds json (some rows) (some entries))
    (key : Text) : Holds json (some (rows.delete key)) (some (Function.update entries key none)) := by
  intro other
  rw [Map.get_delete, Function.update_apply]
  split
  · rfl
  · exact h other

theorem Represents.addStore (h : Represents engine json tables stores) (hown : HasOwnTable engine stores store) :
    Represents engine json
      (if (tables (tableFor engine store)).isSome then tables
        else Function.update tables (tableFor engine store) (some Map.empty))
      (if (stores store).isSome then stores else Function.update stores store (some fun _ => none)) := by
  rw [isSome_of_holds (h.holds_of_own hown)]
  split
  · exact h
  · exact h.update hown fun _ => rfl

/-- An operation on proper names yields what is expected, and the tables go on representing the stores. -/
theorem Represents.perform (h : Represents engine json tables stores) {call : StoreCall V}
    (hproper : Proper engine stores call) :
    Represents engine json (perform engine json tables call).1 (stores.perform call).1 ∧
      Meets (perform engine json tables call).2 (stores.perform call).2 := by
  obtain ⟨hown, hcall⟩ := hproper
  cases call with
  | addStore name =>
    simp only [Sqlite.perform, queryThen, query_getStoreQuery]
    exact ⟨h.addStore hown, trivial⟩
  | removeStore name =>
    simp only [Sqlite.perform, queryThen, query_getStoreQuery, Stores.perform, if_neg hcall]
    exact ⟨h.update hown trivial, trivial⟩
  | getValue key name =>
    simp only [Sqlite.perform, queryThen, query_getKvQuery]
    refine h.onTable hown fun rows entries _ hholds => ⟨hholds, ?_⟩
    rw [getValueOf_get hholds]
    rfl
  | getValues name =>
    simp only [Sqlite.perform, queryThen, query_getKvQuery]
    refine h.onTable hown fun rows entries hstore hholds => ⟨hholds, ?_⟩
    obtain ⟨object, hobject, hget⟩ := getValuesOf_scan engine hholds (hcall entries hstore)
    rw [hobject]
    exact hget
  | setValue key value name =>
    simp only [Sqlite.perform, queryThen, query_getKvQuery]
    exact h.onTable hown fun rows entries _ hholds => ⟨holds_set hholds key value, trivial⟩
  | deleteValue key name =>
    simp only [Sqlite.perform, queryThen, query_getKvQuery]
    exact h.onTable hown fun rows entries _ hholds => ⟨holds_delete hholds key, trivial⟩
  | clearValues name =>
    simp only [Sqlite.perform, queryThen, query_getKvQuery]
    exact h.onTable hown fun rows entries _ _ => ⟨fun _ => rfl, trivial⟩

theorem Comparison.Agrees.step {c : Comparison T V} (h : c.Agrees engine json) {call : StoreCall V}
    (hproper : Proper engine c.stores call) : (c.step engine json call).Agrees engine json := by
  obtain ⟨hrepresents, hmeets⟩ := h.represents.perform hproper
  refine ⟨hrepresents, fun r hr => ?_⟩
  obtain hr | rfl := List.mem_append.mp hr |>.imp_right List.mem_singleton.mp
  · exact h.meets r hr
  · exact hmeets

theorem agrees_initial : (Comparison.initial engine : Comparison T V).Agrees engine json := by
  refine ⟨?_, fun r hr => by simp [Comparison.initial] at hr⟩
  have hnone : Represents engine json (fun _ => none) (fun _ => none : Stores V) :=
    ⟨fun _ h => by simp at h, fun _ h => by simp at h, fun _ h => by simp at h⟩
  have hown : HasOwnTable engine (fun _ => none : Stores V) none := fun _ h => by simp at h
  have hcreated := hnone.addStore hown
  rw [Comparison.initial, newDatabase, query_getStoreQuery]
  exact hcreated

/-- Local stores are independent maps: in every run of operations on proper names, each operation yields what is expected of the family of maps, and the tables represent it. -/
theorem agrees_of_proper (engine : Engine T) (json : JsonText V) (calls : List (StoreCall V))
    (hproper : Along (Comparison.step engine json) (fun c call => Proper engine c.stores call) (Comparison.initial engine)
      calls) :
    (calls.foldl (Comparison.step engine json) (Comparison.initial engine)).Agrees engine json :=
  hproper.invariant (fun _ _ h hcall => h.step hcall) agrees_initial

end

/-! ### A database -/

namespace StoreStatement

def name : StoreStatement → Text
  | createTable name => name
  | dropTable name => name
  | selectValue name _ => name
  | selectAll name => name
  | insertOrReplace name _ _ => name
  | deleteKey name _ => name
  | deleteAll name => name

/-- The statements on a table with the bound parameters. -/
def candidates (name : Text) : List Text → List StoreStatement
  | [] => [createTable name, dropTable name, selectAll name, deleteAll name]
  | [key] => [selectValue name key, deleteKey name key]
  | [key, value] => [insertOrReplace name key value]
  | _ => []

def nameOf (found : List Token) : Option Text :=
  found.findSome? fun
    | .identifier name => some name
    | _ => none

/-- The statement with the tokens and the bound parameters. -/
def ofTokens (found : List Token) (params : List Text) : Option StoreStatement :=
  (nameOf found).bind fun name => (candidates name params).find? fun statement => statement.tokens = found

/-- How many tokens a statement has. -/
def count : StoreStatement → Nat
  | createTable _ => 15
  | dropTable _ => 5
  | selectValue _ _ => 10
  | selectAll _ => 6
  | insertOrReplace _ _ _ => 16
  | deleteKey _ _ => 7
  | deleteAll _ => 3

theorem length_tokens (statement : StoreStatement) : statement.tokens.length = statement.count := by
  cases statement <;> rfl

theorem nameOf_tokens (statement : StoreStatement) : nameOf statement.tokens = some statement.name := by
  cases statement <;> rfl

theorem mem_candidates (statement : StoreStatement) : statement ∈ candidates statement.name statement.params := by
  cases statement <;> simp [candidates, name, params]

theorem eq_of_count {s statement : StoreStatement} (hs : s ∈ candidates statement.name statement.params)
    (hcount : s.count = statement.count) : s = statement := by
  cases statement <;> simp only [candidates, name, params, List.mem_cons, List.not_mem_nil, or_false] at hs <;>
    rcases hs with rfl | rfl | rfl | rfl <;> first | rfl | cases hcount

theorem ofTokens_tokens (statement : StoreStatement) : ofTokens statement.tokens statement.params = some statement := by
  rw [ofTokens, nameOf_tokens, Option.bind_some]
  cases hfind : (candidates statement.name statement.params).find? fun s => s.tokens = statement.tokens with
  | none =>
    have hne := List.find?_eq_none.mp hfind statement statement.mem_candidates
    exact absurd (decide_eq_true rfl) hne
  | some s =>
    have htokens : s.tokens = statement.tokens := by simpa using List.find?_some hfind
    have heq := eq_of_count (List.mem_of_find?_eq_some hfind) (by rw [← length_tokens, htokens, length_tokens])
    rw [heq]

end StoreStatement

/-- SQLite for the statements of stores. Table names are the same up to the case of letters in ASCII. -/
def sqlite : Engine Text where
  tableOf name := name.map fun c => if unit 'A' ≤ c ∧ c ≤ unit 'Z' then c + 32 else c
  scan rows := rows.entries
  scan_perm _ := List.Perm.refl _
  run sql params tables :=
    match (Sqlite.tokens sql).bind (StoreStatement.ofTokens · params) with
    | some statement =>
      statement.execute (fun name => name.map fun c => if unit 'A' ≤ c ∧ c ≤ unit 'Z' then c + 32 else c)
        (fun rows => rows.entries) tables
    | none => (tables, .error (.error .syntaxError))
  executes sql statement tables htokens := by
    rw [htokens, Option.bind_some, StoreStatement.ofTokens_tokens]

def booleans : JsonText Bool where
  stringify b := text (if b then "true" else "false")
  parse s := if s = text "true" then .ok true else if s = text "false" then .ok false else .error .syntaxError
  parse_stringify b := by cases b <;> decide

theorem hasOwnTable_of_things {stores : Stores Bool}
    (h : ∀ other, (stores other).isSome → other = none ∨ other = some (text "things")) :
    HasOwnTable sqlite stores none ∧ HasOwnTable sqlite stores (some (text "things")) := by
  have hne : tableFor sqlite (some (text "things")) ≠ tableFor sqlite none := by decide +kernel
  refine ⟨fun other hother heq => ?_, fun other hother heq => ?_⟩
  · exact (h other hother).resolve_right fun hthings => hne (hthings ▸ heq)
  · exact (h other hother).resolve_left fun hnone => hne (hnone ▸ heq).symm

/-- A value is set in a store of its own, and the default store is read. -/
theorem agrees_of_proper_things :
    ([.addStore (some (text "things")), .setValue (text "a") true (some (text "things")), .getValues none].foldl
      (Comparison.step sqlite booleans) (Comparison.initial sqlite)).Agrees sqlite booleans := by
  have hstores : ∀ {stores : Stores Bool} {store : Option Text} {entries},
      (∀ other, (stores other).isSome → other = none ∨ other = some (text "things")) →
      store = none ∨ store = some (text "things") →
      ∀ other, (Function.update stores store entries other).isSome → other = none ∨ other = some (text "things") := by
    intro stores store entries h hstore other hother
    by_cases heq : other = store
    · rw [heq]
      exact hstore
    · rw [Function.update_of_ne heq] at hother
      exact h other hother
  have hinitial : ∀ other, ((Stores.initial : Stores Bool) other).isSome → other = none ∨ other = some (text "things") :=
    hstores (fun _ h => by simp at h) (Or.inl rfl)
  have hadded := @hstores _ _ (some fun _ => none) hinitial (Or.inr rfl)
  have hset := @hstores _ _ (some (Function.update (fun _ => none) (text "a") (some true))) hadded (Or.inr rfl)
  refine agrees_of_proper sqlite booleans _ ⟨⟨(hasOwnTable_of_things hinitial).2, trivial⟩,
    ⟨(hasOwnTable_of_things hadded).2, trivial⟩, ⟨(hasOwnTable_of_things hset).1, fun entries hentries => ?_⟩, trivial⟩
  obtain rfl := Option.some.inj hentries
  rfl

/-- The default store is removed with the empty name. -/
theorem not_agrees_of_removeStore :
    ¬ ∀ (engine : Engine Text) (json : JsonText Bool) (calls : List (StoreCall Bool)),
      (calls.foldl (Comparison.step engine json) (Comparison.initial engine)).Agrees engine json := by
  intro h
  have hmeets := (h sqlite booleans [.removeStore (some [])]).meets _ (List.mem_singleton.mpr rfl)
  simp only [Sqlite.perform, queryThen, query_getStoreQuery] at hmeets
  exact hmeets

end Sqlite

end Coaty
