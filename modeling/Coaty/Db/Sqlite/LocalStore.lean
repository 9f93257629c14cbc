import Coaty.Db.Sqlite.SqlText
import Coaty.Js.PlainObject
import Mathlib.Logic.Function.Basic

/-!
# Local key-value stores

A store is an SQLite table with keys and values as JSON text. The adapter writes each operation as an SQL statement with the quoted name of the table. SQLite is foreign code: it executes the statements as given on the tables that they name.
-/

namespace Coaty

namespace Sqlite

open Js

open SqlTemplate (IDENT LITERAL annotated build loop firstPart)

/-! ### Statements -/

inductive StoreStatement where
  | createTable (name : Text)
  | dropTable (name : Text)
  | selectValue (name key : Text)
  | selectAll (name : Text)
  | insertOrReplace (name key value : Text)
  | deleteKey (name key : Text)
  | deleteAll (name : Text)
deriving DecidableEq

inductive StoreError where
  | noSuchTable
  | error (e : Error)
deriving DecidableEq

/-- The tables with a column of keys and a column of values. -/
abbrev Tables (T : Type) := T → Option (Map Text Text)

/-- The columns of a row of a result. -/
abbrev Row := List (Text × Text)

namespace StoreStatement

def words (words : List String) : List Token := words.map fun word => .word (text word)

def marks (marks : String) : List Token := (text marks).map .mark

def tokens : StoreStatement → List Token
  | createTable name =>
    words ["CREATE", "TABLE", "IF", "NOT", "EXISTS"] ++ [.identifier name] ++
      (marks "(" ++ words ["key", "text", "primary", "key"] ++ marks "," ++ words ["value", "text"] ++ marks ")")
  | dropTable name => words ["DROP", "TABLE", "IF", "EXISTS"] ++ [.identifier name] ++ []
  | selectValue name _ =>
    words ["SELECT", "value", "from"] ++ [.identifier name] ++
      (words ["WHERE", "key"] ++ marks "=?" ++ words ["limit", "1"])
  | selectAll name =>
    words ["SELECT", "key"] ++ marks "," ++ words ["value", "from"] ++ [.identifier name] ++ []
  | insertOrReplace name _ _ =>
    words ["INSERT", "OR", "REPLACE", "INTO"] ++ [.identifier name] ++
      (marks "(" ++ words ["key"] ++ marks "," ++ words ["value"] ++ marks ")" ++ words ["VALUES"] ++ marks "(?,?)")
  | deleteKey name _ => words ["DELETE", "FROM"] ++ [.identifier name] ++ (words ["WHERE", "key"] ++ marks "=?")
  | deleteAll name => words ["DELETE", "FROM"] ++ [.identifier name] ++ []

def params : StoreStatement → List Text
  | selectValue _ key => [key]
  | insertOrReplace _ key value => [key, value]
  | deleteKey _ key => [key]
  | _ => []

end StoreStatement

/-! ### SQLite -/

section

variable {T : Type} [DecidableEq T]

/-- What a statement does to the table that it names, if it is there. -/
def onTable (tables : Tables T) (table : T) (f : Map Text Text → Map Text Text × List Row) :
    Tables T × Except StoreError (List Row) :=
  match tables table with
  | none => (tables, .error .noSuchTable)
  | some rows => (Function.update tables table (some (f rows).1), .ok (f rows).2)

/-- The effect and the result of a statement. All rows of a table are scanned in some order. -/
def StoreStatement.execute (tableOf : Text → T) (scan : Map Text Text → List (Text × Text)) (tables : Tables T) :
    StoreStatement → Tables T × Except StoreError (List Row)
  | createTable name =>
    let table := tableOf name
    (if (tables table).isSome then tables else Function.update tables table (some Map.empty), .ok [])
  | dropTable name => (Function.update tables (tableOf name) none, .ok [])
  | selectValue name key =>
    onTable tables (tableOf name) fun rows => (rows, (rows.get key).toList.map fun value => [(text "value", value)])
  | selectAll name =>
    onTable tables (tableOf name) fun rows =>
      (rows, (scan rows).map fun row => [(text "key", row.1), (text "value", row.2)])
  | insertOrReplace name key value => onTable tables (tableOf name) fun rows => (rows.set key value, [])
  | deleteKey name key => onTable tables (tableOf name) fun rows => (rows.delete key, [])
  | deleteAll name => onTable tables (tableOf name) fun _ => (Map.empty, [])

end

/-- SQLite on a database with stores. Different names may name the same table, as letter case does not count. -/
structure Engine (T : Type) [DecidableEq T] where
  tableOf : Text → T
  scan : Map Text Text → List (Text × Text)
  scan_perm : ∀ rows, (scan rows).Perm rows.entries
  run : Text → List Text → Tables T → Tables T × Except StoreError (List Row)
  executes : ∀ sql (statement : StoreStatement) tables, Sqlite.tokens sql = some statement.tokens →
    run sql statement.params tables = statement.execute tableOf scan tables

/-- `JSON.stringify` and `JSON.parse` on JSON values. -/
structure JsonText (V : Type) where
  stringify : V → Text
  parse : Text → Except Error V
  parse_stringify : ∀ v, parse (stringify v) = .ok v

/-! ### Queries -/

def DEFAULT_KV_STORE : Text := text "__coaty_default_kvstore"

inductive StoreOp where
  | create
  | drop

def getStoreQuery (op : StoreOp) (store : Option Text) : SqlTemplate Text :=
  let tableName := orElse store DEFAULT_KV_STORE
  match op with
  | .create =>
    .value (text "CREATE TABLE IF NOT EXISTS ") tableName
      (.last (IDENT ++ text "\n                             (key text primary key, value text)"))
  | .drop => .value (text "DROP TABLE IF EXISTS ") tableName (.last IDENT)

inductive KvOp where
  | get (key : Text)
  | getv
  | set (key value : Text)
  | delete (key : Text)
  | clear

def getKvQuery (op : KvOp) (store : Option Text) : SqlTemplate Text :=
  let tableName := orElse store DEFAULT_KV_STORE
  match op with
  | .get key =>
    .value (text "SELECT value from ") tableName
      (.value (IDENT ++ text " \n                             WHERE key = ") key (.last (text " limit 1")))
  | .getv => .value (text "SELECT key, value from ") tableName (.last IDENT)
  | .set key value =>
    .value (text "INSERT OR REPLACE INTO ") tableName
      (.value (IDENT ++ text "(key, value)\n                             VALUES (") key
        (.value (text ", ") value (.last (text ")"))))
  | .delete key =>
    .value (text "DELETE FROM ") tableName
      (.value (IDENT ++ text "\n                             WHERE key = ") key (.last []))
  | .clear => .value (text "DELETE FROM ") tableName (.last IDENT)

/-- The statement of a query. -/
def StoreOp.statement (op : StoreOp) (name : Text) : StoreStatement :=
  match op with
  | create => .createTable name
  | drop => .dropTable name

def KvOp.statement (op : KvOp) (name : Text) : StoreStatement :=
  match op with
  | get key => .selectValue name key
  | getv => .selectAll name
  | set key value => .insertOrReplace name key value
  | delete key => .deleteKey name key
  | clear => .deleteAll name

def Writes (sql : SqlTemplate Text) (statement : StoreStatement) : Prop :=
  ∃ sqlText, getSqlQuery sql = .ok (sqlText, statement.params) ∧ Sqlite.tokens sqlText = some statement.tokens

theorem annotated_IDENT (name back : Text) :
    annotated dialect (.inl name) (IDENT ++ back) = some (.ok (asIdent name), back) := by
  rw [annotated, if_pos (Text.startsWith_append _ _), List.drop_left]
  rfl

theorem annotated_of_not_startsWith {v part : Text} (hident : part.startsWith IDENT = false)
    (hliteral : part.startsWith LITERAL = false) : annotated dialect (.inl v) part = none := by
  simp [annotated, hident, hliteral]

theorem slot_dialect (startIndex : Nat) (v : Text) : SqlTemplate.slot dialect startIndex v = .ok (text "?") := rfl

theorem getSqlQuery_of_ident (front name back : Text) :
    getSqlQuery (.value front name (.last (IDENT ++ back))) = .ok (front ++ asIdent name ++ back, []) := by
  simp [getSqlQuery, build, loop, firstPart, annotated_IDENT, SqlBuild.push]

theorem getSqlQuery_of_param {front name middle key back : Text}
    (hback : back.startsWith IDENT = false ∧ back.startsWith LITERAL = false) :
    getSqlQuery (.value front name (.value (IDENT ++ middle) key (.last back))) =
      .ok (front ++ asIdent name ++ (middle ++ text "?" ++ back), [key]) := by
  simp [getSqlQuery, build, loop, firstPart, annotated_IDENT, annotated_of_not_startsWith hback.1 hback.2, SqlBuild.push,
    SqlBuild.pushParams, slot_dialect]

theorem getSqlQuery_of_params {front name middle key between value back : Text}
    (hbetween : between.startsWith IDENT = false ∧ between.startsWith LITERAL = false)
    (hback : back.startsWith IDENT = false ∧ back.startsWith LITERAL = false) :
    getSqlQuery (.value front name (.value (IDENT ++ middle) key (.value between value (.last back)))) =
      .ok (front ++ asIdent name ++ (middle ++ text "?" ++ between ++ text "?" ++ back), [key, value]) := by
  simp [getSqlQuery, build, loop, firstPart, annotated_IDENT, annotated_of_not_startsWith hbetween.1 hbetween.2,
    annotated_of_not_startsWith hback.1 hback.2, SqlBuild.push, SqlBuild.pushParams, slot_dialect]

theorem writes_getStoreQuery (op : StoreOp) (store : Option Text) :
    Writes (getStoreQuery op store) (op.statement (orElse store DEFAULT_KV_STORE)) := by
  generalize hname : orElse store DEFAULT_KV_STORE = name
  cases op with
  | create =>
    rw [getStoreQuery, hname]
    refine ⟨_, getSqlQuery_of_ident _ _ _, ?_⟩
    have hfront : (text "CREATE TABLE IF NOT EXISTS ").foldl Lexer.step .initial =
        ⟨StoreStatement.words ["CREATE", "TABLE", "IF", "NOT", "EXISTS"], .between⟩ := by decide +kernel
    exact tokens_append_asIdent hfront (by decide +kernel) (by decide +kernel) name
  | drop =>
    rw [getStoreQuery, hname]
    refine ⟨_, getSqlQuery_of_ident (text "DROP TABLE IF EXISTS ") name [], ?_⟩
    have hfront : (text "DROP TABLE IF EXISTS ").foldl Lexer.step .initial =
        ⟨StoreStatement.words ["DROP", "TABLE", "IF", "EXISTS"], .between⟩ := by decide +kernel
    exact tokens_append_asIdent hfront (by decide +kernel) (by decide +kernel) name

theorem writes_getKvQuery (op : KvOp) (store : Option Text) :
    Writes (getKvQuery op store) (op.statement (orElse store DEFAULT_KV_STORE)) := by
  generalize hname : orElse store DEFAULT_KV_STORE = name
  cases op with
  | get key =>
    rw [getKvQuery, hname]
    refine ⟨_, getSqlQuery_of_param (by decide +kernel), ?_⟩
    have hfront : (text "SELECT value from ").foldl Lexer.step .initial =
        ⟨StoreStatement.words ["SELECT", "value", "from"], .between⟩ := by decide +kernel
    exact tokens_append_asIdent hfront (by decide +kernel) (by decide +kernel) name
  | getv =>
    rw [getKvQuery, hname]
    refine ⟨_, getSqlQuery_of_ident (text "SELECT key, value from ") name [], ?_⟩
    have hfront : (text "SELECT key, value from ").foldl Lexer.step .initial =
        ⟨StoreStatement.words ["SELECT", "key"] ++ StoreStatement.marks "," ++ StoreStatement.words ["value", "from"],
          .between⟩ := by decide +kernel
    exact tokens_append_asIdent hfront (by decide +kernel) (by decide +kernel) name
  | set key value =>
    rw [getKvQuery, hname]
    refine ⟨_, getSqlQuery_of_params (by decide +kernel) (by decide +kernel), ?_⟩
    have hfront : (text "INSERT OR REPLACE INTO ").foldl Lexer.step .initial =
        ⟨StoreStatement.words ["INSERT", "OR", "REPLACE", "INTO"], .between⟩ := by decide +kernel
    exact tokens_append_asIdent hfront (by decide +kernel) (by decide +kernel) name
  | delete key =>
    rw [getKvQuery, hname]
    refine ⟨_, getSqlQuery_of_param (by decide +kernel), ?_⟩
    have hfront : (text "DELETE FROM ").foldl Lexer.step .initial =
        ⟨StoreStatement.words ["DELETE", "FROM"], .between⟩ := by decide +kernel
    exact tokens_append_asIdent hfront (by decide +kernel) (by decide +kernel) name
  | clear =>
    rw [getKvQuery, hname]
    refine ⟨_, getSqlQuery_of_ident (text "DELETE FROM ") name [], ?_⟩
    have hfront : (text "DELETE FROM ").foldl Lexer.step .initial =
        ⟨StoreStatement.words ["DELETE", "FROM"], .between⟩ := by decide +kernel
    exact tokens_append_asIdent hfront (by decide +kernel) (by decide +kernel) name

/-! ### The adapter -/

/-- The operations on stores. The name of a store may be undefined. -/
inductive StoreCall (V : Type) where
  | addStore (name : Option Text)
  | removeStore (name : Option Text)
  | getValue (key : Text) (store : Option Text)
  | getValues (store : Option Text)
  | setValue (key : Text) (value : V) (store : Option Text)
  | deleteValue (key : Text) (store : Option Text)
  | clearValues (store : Option Text)

/-- What the promise of an operation yields. -/
inductive StoreValue (V : Type) where
  | done
  | value (value : Option V)
  | values (object : Map Text V)

section

variable {T V : Type} [DecidableEq T] (engine : Engine T) (json : JsonText V)

def query (tables : Tables T) (sql : SqlTemplate Text) : Tables T × Except StoreError (List Row) :=
  match getSqlQuery sql with
  | .ok (sqlText, params) => engine.run sqlText params tables
  | .error e => (tables, .error (.error e))

/-- `JSON.parse` of a column, which is a syntax error if the row does not have it. -/
def parseColumn (row : Row) (column : String) : Except Error V :=
  match row.lookup (text column) with
  | some value => json.parse value
  | none => .error .syntaxError

def getValueOf : List Row → Except Error (Option V)
  | [] => .ok none
  | row :: _ => do return some (← parseColumn json row "value")

def getValuesOf (rows : List Row) : Except Error (Map Text V) :=
  rows.foldlM (fun obj row => do
    let value ← parseColumn json row "value"
    return assign obj (interpolate (row.lookup (text "key"))) value) Map.empty

/-- The query of an operation, with what its promise makes of the rows. -/
def queryThen {α : Type} (tables : Tables T) (sql : SqlTemplate Text) (f : List Row → Except Error α)
    (g : α → StoreValue V) : Tables T × Except StoreError (StoreValue V) :=
  let (tables, result) := query engine tables sql
  (tables, do
    let rows ← result
    ((f rows).mapError StoreError.error).map g)

/-- An operation. `removeStore` makes a rejected promise for an empty name, but does not return it. -/
def perform (tables : Tables T) : StoreCall V → Tables T × Except StoreError (StoreValue V)
  | .addStore name => queryThen engine tables (getStoreQuery .create name) .ok fun _ => .done
  | .removeStore name => queryThen engine tables (getStoreQuery .drop name) .ok fun _ => .done
  | .getValue key store => queryThen engine tables (getKvQuery (.get key) store) (getValueOf json) .value
  | .getValues store => queryThen engine tables (getKvQuery .getv store) (getValuesOf json) .values
  | .setValue key value store =>
    queryThen engine tables (getKvQuery (.set key (json.stringify value)) store) .ok fun _ => .done
  | .deleteValue key store => queryThen engine tables (getKvQuery (.delete key) store) .ok fun _ => .done
  | .clearValues store => queryThen engine tables (getKvQuery .clear store) .ok fun _ => .done

/-- The tables of a new database. The table of the default store is created when the database is opened. -/
def newDatabase : Tables T := (query engine (fun _ => none) (getStoreQuery .create none)).1

end

end Sqlite

end Coaty
