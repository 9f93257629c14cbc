import Coaty.Evaluation
import Coaty.Js.Text
import Mathlib.Data.Fintype.Card
import Mathlib.Data.List.Nodup
import Mathlib.Data.Rat.Defs
import Mathlib.Logic.Relation

/-!
# Graphs of values

Arrays and objects have an identity and refer to each other in any way, and primitive values and functions are the leaves. A graph is finite, so from where no cycle can be reached all ways are shorter than some bound.
-/

namespace Js

/-- The values of the type `Number`, where a finite one is the rational number that it stands for. -/
inductive AnyNumber where
  | finite (n : Rat)
  | negativeZero
  | infinity (isNegative : Bool)
  | nan
deriving DecidableEq

/-- A value that refers to nothing. Functions are told apart by a number. -/
inductive Primitive where
  | undefined
  | null
  | bool (b : Bool)
  | number (n : AnyNumber)
  | string (s : Text)
  | function (f : Nat)
deriving DecidableEq

inductive Datum where
  | primitive (p : Primitive)
  | address (a : Nat)
deriving DecidableEq

/-- An array or an object. The prototype of an object is the one of all objects, unless it has been replaced. -/
inductive Node where
  | array (items : List Datum)
  | object (prototype : Option Datum) (properties : List (Text × Datum))

/-- The arrays and objects, each at its address. -/
abbrev Graph := List Node

/-- What is read from a value, without identities. -/
inductive Tree where
  | primitive (p : Primitive)
  | array (items : List Tree)
  | object (properties : List (Text × Tree))

/-- The items of an array, or the values of the properties of an object. -/
def Node.data : Node → List Datum
  | .array items => items
  | .object _ properties => properties.map Prod.snd

namespace Graph

open Evaluation

variable (g : Graph)

def dataAt (a : Nat) : List Datum := (g[a]?).elim [] Node.data

def IsObject (a : Nat) : Prop := ∃ prototype properties, g[a]? = some (.object prototype properties)

def RefersTo (a b : Nat) : Prop := .address b ∈ g.dataAt a

/-- There is an array or object at the address, if the value is one. -/
def Within (x : Datum) : Prop := ∀ a, x = .address a → a < g.length

def Closed : Prop := ∀ a, ∀ x ∈ g.dataAt a, g.Within x

/-- The array or object can be reached from the value. -/
def Reaches (x : Datum) (b : Nat) : Prop := ∃ a, x = .address a ∧ Relation.ReflTransGen g.RefersTo a b

def HasCycle (x : Datum) : Prop := ∃ a, g.Reaches x a ∧ Relation.TransGen g.RefersTo a a

/-- Where the way leads that takes the value at each position. -/
def walk : Datum → List Nat → Option Datum
  | x, [] => some x
  | .address a, i :: way => (g.dataAt a)[i]?.bind fun x => walk x way
  | .primitive _, _ :: _ => none

/-- No way is longer than the depth. -/
def Fits : Nat → Datum → Prop
  | _, .primitive _ => True
  | 0, .address _ => False
  | depth + 1, .address a => ∀ x ∈ g.dataAt a, Fits depth x

def objectAt (a : Nat) : List Nat :=
  match g[a]? with
  | some (.object _ _) => [a]
  | _ => []

/-- The objects that are come to on all ways, each as often as there are ways to it. -/
def objects : Nat → Datum → List Nat
  | depth + 1, .address a => g.objectAt a ++ (g.dataAt a).flatMap (objects depth)
  | _, _ => []

/-- What is read down to the depth, unless something is below or the prototype of an object has been replaced. -/
def read : Nat → Datum → Option Tree
  | _, .primitive p => some (.primitive p)
  | 0, .address _ => none
  | depth + 1, .address a =>
    match g[a]? with
    | some (.array items) => (items.mapM (read depth)).map .array
    | some (.object none properties) =>
      (properties.mapM fun property => (read depth property.2).map (property.1, ·)).map .object
    | _ => none

variable {g}

/-! ### Reading -/

theorem read_primitive (depth : Nat) (p : Primitive) : g.read depth (.primitive p) = some (.primitive p) := by
  cases depth <;> rfl

theorem read_array {a : Nat} {items : List Datum} (hnode : g[a]? = some (.array items)) (depth : Nat) :
    g.read (depth + 1) (.address a) = (items.mapM (g.read depth)).map .array := by
  rw [read, hnode]

theorem read_object {a : Nat} {properties : List (Text × Datum)} (hnode : g[a]? = some (.object none properties))
    (depth : Nat) : g.read (depth + 1) (.address a) =
      (properties.mapM fun property => (g.read depth property.2).map (property.1, ·)).map .object := by
  rw [read, hnode]

theorem read_replaced {a : Nat} {prototype : Datum} {properties : List (Text × Datum)}
    (hnode : g[a]? = some (.object (some prototype) properties)) (depth : Nat) :
    g.read (depth + 1) (.address a) = none := by
  rw [read, hnode]

theorem read_address_ne_primitive (g : Graph) (depth a : Nat) (p : Primitive) :
    g.read depth (.address a) ≠ some (.primitive p) := by
  cases depth with
  | zero => exact nofun
  | succ depth =>
    rw [read]
    split
    · rename_i items _
      cases items.mapM (g.read depth) <;> exact nofun
    · rename_i properties _
      cases properties.mapM fun property => (g.read depth property.2).map (property.1, ·) <;> exact nofun
    · exact nofun

theorem read_mono {depth depth' : Nat} (hle : depth ≤ depth') {x : Datum} {tree : Tree} (h : g.read depth x = some tree) :
    g.read depth' x = some tree := by
  induction depth' generalizing depth x tree with
  | zero =>
    cases Nat.le_zero.mp hle
    exact h
  | succ depth' ih =>
    cases x with
    | primitive p => rwa [read_primitive] at h ⊢
    | address a =>
      cases depth with
      | zero => cases h
      | succ depth =>
        have hle := Nat.le_of_succ_le_succ hle
        rw [read] at h ⊢
        split at h
        · rw [Option.map_eq_some_iff] at h ⊢
          obtain ⟨trees, hall, rfl⟩ := h
          rw [mapM_eq_some_iff] at hall
          exact ⟨trees, mapM_eq_some_iff.mpr (hall.imp fun y tree => ih hle), rfl⟩
        · rw [Option.map_eq_some_iff] at h ⊢
          obtain ⟨trees, hall, rfl⟩ := h
          rw [mapM_eq_some_iff] at hall
          refine ⟨trees, mapM_eq_some_iff.mpr (hall.imp ?_), rfl⟩
          intro property row hrow
          rw [Option.map_eq_some_iff] at hrow ⊢
          obtain ⟨tree, htree, rfl⟩ := hrow
          exact ⟨tree, ih hle htree, rfl⟩
        · cases h

/-! ### Cycles -/

theorem Fits.mono {depth depth' : Nat} (hle : depth ≤ depth') {x : Datum} (hfits : g.Fits depth x) : g.Fits depth' x := by
  induction depth' generalizing depth x with
  | zero =>
    cases Nat.le_zero.mp hle
    exact hfits
  | succ depth' ih =>
    cases x with
    | primitive p => trivial
    | address a =>
      cases depth with
      | zero => exact hfits.elim
      | succ depth =>
        intro x hx
        exact ih (Nat.le_of_succ_le_succ hle) (hfits x hx)

theorem Fits.step {depth a b : Nat} (hfits : g.Fits depth (.address a)) (hrefers : g.RefersTo a b) :
    ∃ depth', depth' < depth ∧ g.Fits depth' (.address b) := by
  cases depth with
  | zero => exact hfits.elim
  | succ depth => exact ⟨depth, Nat.lt_succ_self _, hfits _ hrefers⟩

theorem Fits.transGen {depth a b : Nat} (hfits : g.Fits depth (.address a)) (hreaches : Relation.TransGen g.RefersTo a b) :
    ∃ depth', depth' < depth ∧ g.Fits depth' (.address b) := by
  induction hreaches with
  | single hrefers => exact hfits.step hrefers
  | tail _ hrefers ih =>
    obtain ⟨depth₁, hlt₁, hfits₁⟩ := ih
    obtain ⟨depth₂, hlt₂, hfits₂⟩ := hfits₁.step hrefers
    exact ⟨depth₂, hlt₂.trans hlt₁, hfits₂⟩

/-- A cycle has ways of any length. -/
theorem not_fits_of_cycle {depth a : Nat} (hcycle : Relation.TransGen g.RefersTo a a) : ¬ g.Fits depth (.address a) := by
  induction depth using Nat.strong_induction_on with
  | _ depth ih =>
    intro hfits
    obtain ⟨depth', hlt, hfits'⟩ := hfits.transGen hcycle
    exact ih depth' hlt hfits'

theorem not_fits_of_hasCycle {depth : Nat} {x : Datum} (hcycle : g.HasCycle x) : ¬ g.Fits depth x := by
  obtain ⟨b, ⟨a, rfl, hreaches⟩, hcycle⟩ := hcycle
  intro hfits
  obtain rfl | htrans := Relation.reflTransGen_iff_eq_or_transGen.mp hreaches
  · exact not_fits_of_cycle hcycle hfits
  · obtain ⟨depth', -, hfits'⟩ := hfits.transGen htrans
    exact not_fits_of_cycle hcycle hfits'

theorem exists_fits_all {data : List Datum} (h : ∀ x ∈ data, ∃ depth, g.Fits depth x) :
    ∃ depth, ∀ x ∈ data, g.Fits depth x := by
  induction data with
  | nil => exact ⟨0, by simp⟩
  | cons x data ih =>
    rw [List.forall_mem_cons] at h
    obtain ⟨⟨depth₁, hfirst⟩, hrest⟩ := h
    obtain ⟨depth₂, hrest⟩ := ih hrest
    refine ⟨max depth₁ depth₂, List.forall_mem_cons.mpr ⟨hfirst.mono (le_max_left _ _), ?_⟩⟩
    intro y hy
    exact (hrest y hy).mono (le_max_right _ _)

theorem dataAt_of_getElem? {a : Nat} {node : Node} (hnode : g[a]? = some node) : g.dataAt a = node.data := by
  rw [dataAt, hnode]
  rfl

theorem objectAt_array {a : Nat} {items : List Datum} (hnode : g[a]? = some (.array items)) : g.objectAt a = [] := by
  rw [objectAt, hnode]

theorem objectAt_object {a : Nat} {prototype : Option Datum} {properties : List (Text × Datum)}
    (hnode : g[a]? = some (.object prototype properties)) : g.objectAt a = [a] := by
  rw [objectAt, hnode]

theorem dataAt_of_le {a : Nat} (h : g.length ≤ a) : g.dataAt a = [] := by
  rw [dataAt, List.getElem?_eq_none h]
  rfl

/-- Where no cycle can be reached, stepping from one array or object to the next ends. -/
theorem wellFounded_of_not_hasCycle {x : Datum} (hcycle : ¬ g.HasCycle x) :
    WellFounded fun i j : Fin g.length =>
      Relation.TransGen (fun a b => g.RefersTo a b ∧ g.Reaches x a) j.val i.val := by
  have htrans : IsTrans (Fin g.length) fun i j =>
      Relation.TransGen (fun a b => g.RefersTo a b ∧ g.Reaches x a) j.val i.val :=
    ⟨fun _ _ _ hij hjk => hjk.trans hij⟩
  have hirrefl : Std.Irrefl fun i j : Fin g.length =>
      Relation.TransGen (fun a b => g.RefersTo a b ∧ g.Reaches x a) j.val i.val := by
    constructor
    intro i hi
    obtain ⟨b, ⟨-, hreaches⟩, -⟩ := Relation.TransGen.head'_iff.mp hi
    exact hcycle ⟨i.val, hreaches, Relation.TransGen.mono (fun _ _ h => h.1) _ _ hi⟩
  exact Finite.wellFounded_of_trans_of_irrefl _

theorem exists_fits_of_not_hasCycle {x : Datum} (hcycle : ¬ g.HasCycle x) : ∃ depth, g.Fits depth x := by
  have hall : ∀ i : Fin g.length, g.Reaches x i.val → ∃ depth, g.Fits depth (.address i.val) := by
    intro i
    induction i using (wellFounded_of_not_hasCycle hcycle).induction with
    | _ i ih =>
      intro hreaches
      have hdata : ∀ y ∈ g.dataAt i.val, ∃ depth, g.Fits depth y := by
        intro y hy
        cases y with
        | primitive p => exact ⟨0, trivial⟩
        | address b =>
          by_cases hb : b < g.length
          · obtain ⟨a, hx, hsteps⟩ := hreaches
            exact ih ⟨b, hb⟩ (.single ⟨hy, a, hx, hsteps⟩) ⟨a, hx, hsteps.tail hy⟩
          · refine ⟨1, ?_⟩
            intro z hz
            rw [dataAt_of_le (Nat.le_of_not_lt hb)] at hz
            cases hz
      obtain ⟨depth, hfits⟩ := exists_fits_all hdata
      exact ⟨depth + 1, hfits⟩
  cases x with
  | primitive p => exact ⟨0, trivial⟩
  | address a =>
    by_cases ha : a < g.length
    · exact hall ⟨a, ha⟩ ⟨a, rfl, .refl⟩
    · refine ⟨1, ?_⟩
      intro z hz
      rw [dataAt_of_le (Nat.le_of_not_lt ha)] at hz
      cases hz

/-! ### Ways to objects -/

theorem mem_objectAt {a b : Nat} : b ∈ g.objectAt a ↔ b = a ∧ g.IsObject a := by
  unfold objectAt
  split
  · rename_i prototype properties hobject
    rw [List.mem_singleton]
    exact ⟨fun h => ⟨h, prototype, properties, hobject⟩, fun h => h.1⟩
  · rename_i hobject
    refine iff_of_false List.not_mem_nil ?_
    intro h
    obtain ⟨-, prototype, properties, hcell⟩ := h
    exact hobject _ _ hcell

theorem walk_cons {a i : Nat} {way : List Nat} {y : Datum} :
    g.walk (.address a) (i :: way) = some y ↔ ∃ x, (g.dataAt a)[i]? = some x ∧ g.walk x way = some y := by
  rw [walk, Option.bind_eq_some_iff]

theorem mem_objects {depth : Nat} {x : Datum} (hfits : g.Fits depth x) {b : Nat} :
    b ∈ g.objects depth x ↔ g.IsObject b ∧ ∃ way, g.walk x way = some (.address b) := by
  induction depth generalizing x with
  | zero =>
    cases x with
    | address a => exact hfits.elim
    | primitive p =>
      refine iff_of_false List.not_mem_nil ?_
      intro h
      obtain ⟨-, way, hway⟩ := h
      cases way <;> cases hway
  | succ depth ih =>
    cases x with
    | primitive p =>
      refine iff_of_false List.not_mem_nil ?_
      intro h
      obtain ⟨-, way, hway⟩ := h
      cases way <;> cases hway
    | address a =>
      rw [objects, List.mem_append, mem_objectAt, List.mem_flatMap]
      constructor
      · intro h
        obtain ⟨rfl, hobject⟩ | ⟨y, hy, hb⟩ := h
        · exact ⟨hobject, [], rfl⟩
        · obtain ⟨hobject, way, hway⟩ := (ih (hfits y hy)).mp hb
          obtain ⟨i, hi⟩ := List.mem_iff_getElem?.mp hy
          exact ⟨hobject, i :: way, walk_cons.mpr ⟨y, hi, hway⟩⟩
      · intro h
        obtain ⟨hobject, way, hway⟩ := h
        cases way with
        | nil =>
          cases hway
          exact .inl ⟨rfl, hobject⟩
        | cons i way =>
          obtain ⟨y, hi, hway⟩ := walk_cons.mp hway
          have hy := List.mem_of_getElem? hi
          exact .inr ⟨y, hy, (ih (hfits y hy)).mpr ⟨hobject, way, hway⟩⟩

def EachOnce (g : Graph) (x : Datum) : Prop :=
  ∀ way way' a, g.IsObject a → g.walk x way = some (.address a) → g.walk x way' = some (.address a) → way = way'

theorem nodup_objectAt (g : Graph) (a : Nat) : (g.objectAt a).Nodup := by
  unfold objectAt
  split
  · exact List.nodup_singleton a
  · exact List.nodup_nil

theorem EachOnce.of_mem {a : Nat} (honce : g.EachOnce (.address a)) {x : Datum} (hx : x ∈ g.dataAt a) : g.EachOnce x := by
  obtain ⟨i, hi⟩ := List.mem_iff_getElem?.mp hx
  intro way way' b hobject hway hway'
  have hways := honce (i :: way) (i :: way') b hobject (walk_cons.mpr ⟨x, hi, hway⟩) (walk_cons.mpr ⟨x, hi, hway'⟩)
  exact (List.cons.inj hways).2

theorem disjoint_of_pairwise {β : Type} {f : Datum → List β} {data : List Datum}
    (hdisjoint : data.Pairwise (Function.onFun List.Disjoint f)) {i j : Nat} (hne : i ≠ j) {x y : Datum}
    (hi : data[i]? = some x) (hj : data[j]? = some y) : List.Disjoint (f x) (f y) := by
  rw [List.pairwise_iff_getElem] at hdisjoint
  obtain ⟨hi', rfl⟩ := List.getElem?_eq_some_iff.mp hi
  obtain ⟨hj', rfl⟩ := List.getElem?_eq_some_iff.mp hj
  obtain hlt | hlt := Nat.lt_or_gt_of_ne hne
  · exact hdisjoint i j hi' hj' hlt
  · exact (hdisjoint j i hj' hi' hlt).symm

theorem nodup_objects_iff {depth : Nat} {x : Datum} (hfits : g.Fits depth x) :
    (g.objects depth x).Nodup ↔ g.EachOnce x := by
  induction depth generalizing x with
  | zero =>
    cases x with
    | address a => exact hfits.elim
    | primitive p =>
      refine iff_of_true List.nodup_nil ?_
      intro way way' a _ hway
      cases way <;> cases hway
  | succ depth ih =>
    cases x with
    | primitive p =>
      refine iff_of_true List.nodup_nil ?_
      intro way way' a _ hway
      cases way <;> cases hway
    | address a =>
      rw [objects, List.nodup_append', List.nodup_flatMap]
      constructor
      · rintro ⟨-, ⟨heach, hdisjoint⟩, howner⟩
        have hnever : ∀ i way, ¬ (g.IsObject a ∧ g.walk (.address a) (i :: way) = some (.address a)) := by
          rintro i way ⟨hobject, hway⟩
          obtain ⟨y, hi, hway⟩ := walk_cons.mp hway
          have hy := List.mem_of_getElem? hi
          exact howner (mem_objectAt.mpr ⟨rfl, hobject⟩)
            (List.mem_flatMap.mpr ⟨y, hy, (mem_objects (hfits y hy)).mpr ⟨hobject, way, hway⟩⟩)
        intro way way' b hobject hway hway'
        cases way with
        | nil =>
          cases hway
          cases way' with
          | nil => rfl
          | cons i way' => exact absurd ⟨hobject, hway'⟩ (hnever i way')
        | cons i way =>
          cases way' with
          | nil =>
            cases hway'
            exact absurd ⟨hobject, hway⟩ (hnever i way)
          | cons j way' =>
            obtain ⟨y, hi, hway⟩ := walk_cons.mp hway
            obtain ⟨z, hj, hway'⟩ := walk_cons.mp hway'
            have hy := List.mem_of_getElem? hi
            have hz := List.mem_of_getElem? hj
            have hij : i = j := by
              by_contra hne
              exact disjoint_of_pairwise hdisjoint hne hi hj
                ((mem_objects (hfits y hy)).mpr ⟨hobject, way, hway⟩)
                ((mem_objects (hfits z hz)).mpr ⟨hobject, way', hway'⟩)
            subst hij
            cases hi.symm.trans hj
            rw [(ih (hfits y hy)).mp (heach y hy) way way' b hobject hway hway']
      · intro honce
        refine ⟨nodup_objectAt g a, ⟨?_, ?_⟩, ?_⟩
        · intro y hy
          exact (ih (hfits y hy)).mpr (honce.of_mem hy)
        · rw [List.pairwise_iff_getElem]
          intro i j hi hj hlt b hb hb'
          have hi' := List.getElem?_eq_getElem hi
          have hj' := List.getElem?_eq_getElem hj
          obtain ⟨hobject, way, hway⟩ := (mem_objects (hfits _ (List.getElem_mem hi))).mp hb
          obtain ⟨-, way', hway'⟩ := (mem_objects (hfits _ (List.getElem_mem hj))).mp hb'
          have hways := honce (i :: way) (j :: way') b hobject (walk_cons.mpr ⟨_, hi', hway⟩)
            (walk_cons.mpr ⟨_, hj', hway'⟩)
          exact (Nat.ne_of_lt hlt) (List.cons.inj hways).1
        · intro b hb hb'
          obtain ⟨rfl, hobject⟩ := mem_objectAt.mp hb
          obtain ⟨y, hy, hb'⟩ := List.mem_flatMap.mp hb'
          obtain ⟨-, way, hway⟩ := (mem_objects (hfits y hy)).mp hb'
          obtain ⟨i, hi⟩ := List.mem_iff_getElem?.mp hy
          cases honce [] (i :: way) b hobject rfl (walk_cons.mpr ⟨y, hi, hway⟩)

/-! ### Adding to a graph -/

/-- From an address on, arrays and objects refer only to each other. -/
def EnclosedFrom (g : Graph) (start : Nat) : Prop := ∀ a b, start ≤ a → g.RefersTo a b → start ≤ b

theorem EnclosedFrom.append {start : Nat} (henclosed : g.EnclosedFrom start) {node : Node}
    (hnode : ∀ a, .address a ∈ node.data → start ≤ a) : EnclosedFrom (g ++ [node]) start := by
  intro a b ha hrefers
  rw [RefersTo, dataAt, List.getElem?_append] at hrefers
  split at hrefers
  · exact henclosed a b ha hrefers
  · cases hcell : [node][a - g.length]? with
    | none =>
      rw [hcell] at hrefers
      cases hrefers
    | some node' =>
      obtain rfl := List.mem_singleton.mp (List.mem_of_getElem? hcell)
      rw [hcell] at hrefers
      exact hnode b hrefers

theorem EnclosedFrom.reaches {start : Nat} (henclosed : g.EnclosedFrom start) {x : Datum}
    (hx : ∀ a, x = .address a → start ≤ a) {b : Nat} (hreaches : g.Reaches x b) : start ≤ b := by
  obtain ⟨a, rfl, hsteps⟩ := hreaches
  induction hsteps with
  | refl => exact hx a rfl
  | tail _ hrefers ih => exact henclosed _ _ ih hrefers

theorem Closed.reaches (hclosed : g.Closed) {x : Datum} (hwithin : g.Within x) {b : Nat} (hreaches : g.Reaches x b) :
    b < g.length := by
  obtain ⟨a, rfl, hsteps⟩ := hreaches
  induction hsteps with
  | refl => exact hwithin a rfl
  | tail _ hrefers _ => exact hclosed _ _ hrefers _ rfl

theorem getElem?_of_prefix {g' : Graph} (hgrown : g <+: g') {a : Nat} {node : Node} (hnode : g[a]? = some node) :
    g'[a]? = some node := by
  obtain ⟨more, rfl⟩ := hgrown
  rw [List.getElem?_append_left (List.getElem?_eq_some_iff.mp hnode).1, hnode]

end Graph

end Js
