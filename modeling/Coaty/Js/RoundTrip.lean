import Coaty.Evaluation
import Coaty.Js.Graph
import Coaty.Js.Number

/-!
# Values as JSON

What `JSON.parse` makes of the text that `JSON.stringify` writes for a value of a graph. JSON has no `undefined`, no functions and no infinite numbers, and the zeros are written alike. An object with a method `toJSON` is replaced by what that returns.
-/

namespace Js

open Evaluation

/-- What the text of a number reads as. -/
def AnyNumber.json : AnyNumber → Primitive
  | .finite n => .number (.finite n)
  | .negativeZero => .number (.finite 0)
  | .infinity _ => .null
  | .nan => .null

/-- There is no text for `undefined` and for functions. -/
def Primitive.json : Primitive → Primitive
  | .number n => n.json
  | .function _ => .undefined
  | p => p

def Tree.undefined : Tree := .primitive .undefined

def Tree.isDefined : Tree → Bool
  | .primitive .undefined => false
  | _ => true

def Tree.nullIfUndefined (tree : Tree) : Tree := if tree.isDefined then tree else .primitive .null

/-- The items of an array under their indices, or the properties of an object. -/
def Node.entries : Node → List (Text × Datum)
  | .array items => items.mapIdx fun i item => (decimal i, item)
  | .object _ properties => properties

/-- What functions return as methods of a value for a key, if they do not throw. -/
abbrev Methods := Nat → Datum → Text → Option Datum

namespace Graph

variable (g : Graph) (methods : Methods)

def toJSON (x : Datum) : Option Nat :=
  match x with
  | .address a =>
    match g[a]? with
    | some (.object _ properties) =>
      match properties.lookup (text "toJSON") with
      | some (.primitive (.function f)) => some f
      | _ => none
    | _ => none
  | .primitive _ => none

/-- The value that is written for the one under a key. -/
def converted (key : Text) (x : Datum) : Option Datum := (g.toJSON x).elim (some x) fun f => methods f x key

/-- What the text of an array or object reads as, whose own properties are all that `JSON.parse` sets. -/
def jsonNode (node : Node) (trees : List (Text × Tree)) : Tree :=
  match node with
  | .array _ => .array (trees.map fun entry => entry.2.nullIfUndefined)
  | .object _ _ => .object (trees.filter fun entry => entry.2.isDefined)

/-- What the text of the value under a key reads as. It is `undefined` where there is no text, and none if writing fails or goes below the depth. -/
def json : Nat → Text → Datum → Option Tree
  | depth, key, x =>
    match depth, g.converted methods key x with
    | _, none => none
    | _, some (.primitive p) => some (.primitive p.json)
    | 0, some (.address _) => none
    | depth + 1, some (.address a) =>
      match g[a]? with
      | none => none
      | some node =>
        (node.entries.mapM fun entry => (json depth entry.1 entry.2).map (entry.1, ·)).map (jsonNode node)

/-- `JSON.parse(JSON.stringify(x))`, which is `undefined` here where `JSON.stringify` is and there is nothing to parse. -/
def Yields (x : Datum) (tree : Tree) : Prop := ∃ depth, g.json methods depth [] x = some tree

variable {g} {methods}

theorem map_snd_entries (node : Node) : node.entries.map Prod.snd = node.data := by
  cases node with
  | array items =>
    apply List.ext_getElem?
    intro i
    rw [Node.entries, Node.data, List.getElem?_map, List.getElem?_mapIdx]
    cases items[i]? <;> rfl
  | object prototype properties => rfl

section Equations

variable {key : Text} {x : Datum}

theorem json_of_none (h : g.converted methods key x = none) (depth : Nat) : g.json methods depth key x = none := by
  unfold json
  rw [h]

theorem json_of_primitive {p : Primitive} (h : g.converted methods key x = some (.primitive p)) (depth : Nat) :
    g.json methods depth key x = some (.primitive p.json) := by
  unfold json
  rw [h]

theorem json_zero {a : Nat} (h : g.converted methods key x = some (.address a)) : g.json methods 0 key x = none := by
  unfold json
  rw [h]

theorem json_succ {a : Nat} {node : Node} (h : g.converted methods key x = some (.address a)) (hnode : g[a]? = some node)
    (depth : Nat) : g.json methods (depth + 1) key x =
      (node.entries.mapM fun entry => (g.json methods depth entry.1 entry.2).map (entry.1, ·)).map (jsonNode node) := by
  rw [json.eq_def]
  simp only [h, hnode]

theorem json_succ_none {a : Nat} (h : g.converted methods key x = some (.address a)) (hnode : g[a]? = none) (depth : Nat) :
    g.json methods (depth + 1) key x = none := by
  rw [json.eq_def]
  simp only [h, hnode]

theorem converted_of_none (h : g.toJSON x = none) : g.converted methods key x = some x := by
  rw [converted, h]
  rfl

end Equations

theorem mem_dataAt_of_entry {a : Nat} {node : Node} (hnode : g[a]? = some node) {entry : Text × Datum}
    (hentry : entry ∈ node.entries) : entry.2 ∈ g.dataAt a := by
  rw [dataAt_of_getElem? hnode, ← map_snd_entries]
  exact List.mem_map_of_mem hentry

theorem json_mono {depth depth' : Nat} (hle : depth ≤ depth') {key : Text} {x : Datum} {tree : Tree}
    (h : g.json methods depth key x = some tree) : g.json methods depth' key x = some tree := by
  induction depth' generalizing depth key x tree with
  | zero =>
    cases Nat.le_zero.mp hle
    exact h
  | succ depth' ih =>
    cases hconverted : g.converted methods key x with
    | none =>
      rw [json_of_none hconverted] at h
      cases h
    | some y =>
      cases y with
      | primitive p => rwa [json_of_primitive hconverted] at h ⊢
      | address a =>
        cases depth with
        | zero =>
          rw [json_zero hconverted] at h
          cases h
        | succ depth =>
          cases hnode : g[a]? with
          | none =>
            rw [json_succ_none hconverted hnode] at h
            cases h
          | some node =>
            rw [json_succ hconverted hnode, Option.map_eq_some_iff] at h ⊢
            obtain ⟨trees, hall, rfl⟩ := h
            refine ⟨trees, ?_, rfl⟩
            rw [mapM_eq_some_iff] at hall ⊢
            refine hall.imp ?_
            intro entry row hrow
            rw [Option.map_eq_some_iff] at hrow ⊢
            obtain ⟨tree, htree, rfl⟩ := hrow
            exact ⟨tree, ih (Nat.le_of_succ_le_succ hle) htree, rfl⟩

/-- No array or object that can be reached has a method `toJSON`. -/
def HasNoMethod (g : Graph) (x : Datum) : Prop := ∀ way a, g.walk x way = some (.address a) → g.toJSON (.address a) = none

theorem HasNoMethod.of_mem {a : Nat} (hno : g.HasNoMethod (.address a)) {x : Datum} (hx : x ∈ g.dataAt a) :
    g.HasNoMethod x := by
  obtain ⟨i, hi⟩ := List.mem_iff_getElem?.mp hx
  intro way b hway
  exact hno (i :: way) b (walk_cons.mpr ⟨x, hi, hway⟩)

theorem json_congr {x : Datum} (hno : g.HasNoMethod x) (methods' : Methods) (depth : Nat) (key key' : Text) :
    g.json methods depth key x = g.json methods' depth key' x := by
  have hconverted : ∀ {x : Datum} {methods : Methods} {key : Text}, g.HasNoMethod x → g.converted methods key x = some x := by
    intro x methods key hno
    cases x with
    | primitive p => rfl
    | address a => exact converted_of_none (hno [] a rfl)
  induction depth generalizing x key key' with
  | zero =>
    cases x with
    | primitive p => rw [json_of_primitive (hconverted hno), json_of_primitive (hconverted hno)]
    | address a => rw [json_zero (hconverted hno), json_zero (hconverted hno)]
  | succ depth ih =>
    cases x with
    | primitive p => rw [json_of_primitive (hconverted hno), json_of_primitive (hconverted hno)]
    | address a =>
      cases hnode : g[a]? with
      | none => rw [json_succ_none (hconverted hno) hnode, json_succ_none (hconverted hno) hnode]
      | some node =>
        rw [json_succ (hconverted hno) hnode, json_succ (hconverted hno) hnode]
        congr 1
        apply mapM_congr
        intro entry hentry
        rw [ih (hno.of_mem (mem_dataAt_of_entry hnode hentry)) entry.1 entry.1]

/-- With methods that return a primitive value everything without cycles is written. -/
theorem exists_json {depth : Nat} {x : Datum} (hclosed : g.Closed) (hwithin : g.Within x) (hfits : g.Fits depth x)
    (p : Primitive) (key : Text) : ∃ tree, g.json (fun _ _ _ => some (.primitive p)) depth key x = some tree := by
  induction depth generalizing x key with
  | zero =>
    cases x with
    | primitive p => exact ⟨_, json_of_primitive rfl _⟩
    | address a => exact hfits.elim
  | succ depth ih =>
    cases x with
    | primitive p => exact ⟨_, json_of_primitive rfl _⟩
    | address a =>
      cases hmethod : g.toJSON (.address a) with
      | some f =>
        have hconverted : g.converted (fun _ _ _ => some (.primitive p)) key (.address a) = some (.primitive p) := by
          rw [converted, hmethod]
          rfl
        exact ⟨_, json_of_primitive hconverted _⟩
      | none =>
        obtain ⟨node, hnode⟩ : ∃ node, g[a]? = some node := ⟨_, List.getElem?_eq_getElem (hwithin a rfl)⟩
        have hall : (node.entries.mapM fun entry =>
            (g.json (fun _ _ _ => some (.primitive p)) depth entry.1 entry.2).map (entry.1, ·)).isSome = true := by
          apply isSome_mapM
          intro entry hentry
          have hmem := mem_dataAt_of_entry hnode hentry
          obtain ⟨tree, htree⟩ := ih (hclosed a _ hmem) (hfits _ hmem) entry.1
          rw [htree]
          rfl
        obtain ⟨trees, htrees⟩ := Option.isSome_iff_exists.mp hall
        refine ⟨jsonNode node trees, ?_⟩
        rw [json_succ (converted_of_none hmethod) hnode, htrees]
        rfl

end Graph

end Js
