import Coaty.Js.RoundTrip

/-!
# Deep copies against JSON

The deep copy of any value of a graph, compared with writing the value as JSON and reading it again. The set of objects that a copy has come to only grows, so it fails wherever there are two ways to an object and not only where there is a cycle.
-/

namespace Coaty

namespace CloneGraph

open Js Graph Evaluation

/-- The graph in the course of a copy, and the objects that it has come to. -/
structure Cloning where
  graph : Graph
  refs : List Nat

/-- A new array or object. -/
def Cloning.alloc (s : Cloning) (node : Node) : Datum × Cloning :=
  (.address s.graph.length, { s with graph := s.graph ++ [node] })

def clonePrimitive : Primitive → Primitive
  | .function _ => .undefined
  | p => p

/-- The copies of values, made one after the other. -/
def cloneAll (cloneOne : Datum → Cloning → Except Error (Datum × Cloning)) :
    List Datum → Cloning → Except Error (List Datum × Cloning)
  | [], s => .ok ([], s)
  | x :: xs, s => do
    let (copy, s) ← cloneOne x s
    let (copies, s) ← cloneAll cloneOne xs s
    return (copy :: copies, s)

/-- The item of a copied array. -/
def nullIfUndefined (x : Datum) : Datum := if x = .primitive .undefined then .primitive .null else x

def isPrototype : Datum → Bool
  | .address _ => true
  | .primitive p => p = .null

/-- The object after assigning to properties of different names. Assigning to `__proto__` replaces the prototype, or does nothing. -/
def assignAll (properties : List (Text × Datum)) : Node :=
  .object ((properties.lookup (text "__proto__")).filter isPrototype)
    (properties.filter fun property => property.1 ≠ text "__proto__")

def definedProperties (properties : List (Text × Datum)) (copies : List Datum) : List (Text × Datum) :=
  ((properties.map Prod.fst).zip copies).filter fun property => property.2 ≠ .primitive .undefined

/-- What is copied is read from the graph as it was at first, since the copy only adds to it. -/
def cloneDeep (g : Graph) : Nat → Datum → Cloning → Except Error (Datum × Cloning)
  | _, .primitive p, s => .ok (.primitive (clonePrimitive p), s)
  | 0, .address _, _ => .error .rangeError
  | depth + 1, .address a, s =>
    match g[a]? with
    | some (.array items) => do
      let (copies, s) ← cloneAll (cloneDeep g depth) items s
      return s.alloc (.array (copies.map nullIfUndefined))
    | some (.object _ properties) =>
      if a ∈ s.refs then .error .typeError
      else do
        let (copies, s) ← cloneAll (cloneDeep g depth) (properties.map Prod.snd) { s with refs := a :: s.refs }
        return s.alloc (assignAll (definedProperties properties copies))
    | none => .ok (.primitive .undefined, s)

def clone (g : Graph) (depth : Nat) (x : Datum) : Except Error (Datum × Graph) := do
  let (copy, s) ← cloneDeep g depth x ⟨g, []⟩
  return (copy, s.graph)

/-! ### Like JSON -/

/-- Arrays and plain objects. -/
structure IsPlain (g : Graph) (x : Datum) : Prop where
  closed : g.Closed
  within : g.Within x
  objects : ∀ (a : Nat) prototype properties, g[a]? = some (Node.object prototype properties) →
    prototype = none ∧ (properties.map Prod.fst).Nodup

/-- The value is copied as writing and reading it as JSON does, whatever its functions return. -/
structure LikeJson (g : Graph) (x : Datum) (depth : Nat) : Prop where
  throws : (∃ e, clone g depth x = .error e) ↔ g.HasCycle x
  copies : ¬ g.HasCycle x → ∃ copy g', clone g depth x = .ok (copy, g') ∧ g <+: g' ∧
    (∀ a, g'.Reaches copy a → ¬ g.Reaches x a) ∧
    ∀ methods tree, g.Yields methods x tree → ∃ depth, g'.read depth copy = some tree

def IsJsonPrimitive (p : Primitive) : Prop := ∀ n, p = .number n → ∃ q, n = .finite q

/-- The properties of an object do not stand for anything else. -/
structure IsOrdinary (properties : List (Text × Datum)) : Prop where
  toJSON : ∀ f, properties.lookup (text "toJSON") ≠ some (.primitive (.function f))
  proto : ∀ x, (text "__proto__", x) ∈ properties → x = .primitive .undefined ∨ ∃ f, x = .primitive (.function f)

/-- All that is reached has a counterpart in JSON. -/
structure IsJson (g : Graph) (x : Datum) : Prop where
  primitives : ∀ way p, g.walk x way = some (.primitive p) → IsJsonPrimitive p
  objects : ∀ way a prototype properties, g.walk x way = some (.address a) →
    g[a]? = some (Node.object prototype properties) → IsOrdinary properties

variable {g g' : Graph} {depth : Nat} {x copy : Datum} {s s' : Cloning}

theorem cloneDeep_primitive (depth : Nat) (p : Primitive) (s : Cloning) :
    cloneDeep g depth (.primitive p) s = .ok (.primitive (clonePrimitive p), s) := by
  cases depth <;> rfl

theorem cloneDeep_array {a : Nat} {items : List Datum} (hnode : g[a]? = some (.array items)) :
    cloneDeep g (depth + 1) (.address a) s = (do
      let (copies, s) ← cloneAll (cloneDeep g depth) items s
      return s.alloc (.array (copies.map nullIfUndefined))) := by
  rw [cloneDeep, hnode]

theorem cloneDeep_object {a : Nat} {prototype : Option Datum} {properties : List (Text × Datum)}
    (hnode : g[a]? = some (.object prototype properties)) :
    cloneDeep g (depth + 1) (.address a) s =
      if a ∈ s.refs then .error .typeError
      else do
        let (copies, s) ← cloneAll (cloneDeep g depth) (properties.map Prod.snd) { s with refs := a :: s.refs }
        return s.alloc (assignAll (definedProperties properties copies)) := by
  rw [cloneDeep, hnode]

theorem cloneDeep_none {a : Nat} (hnode : g[a]? = none) :
    cloneDeep g (depth + 1) (.address a) s = .ok (.primitive .undefined, s) := by
  rw [cloneDeep, hnode]

theorem cloneAll_cons_eq_ok_iff {cloneOne : Datum → Cloning → Except Error (Datum × Cloning)} {xs copies : List Datum} :
    cloneAll cloneOne (x :: xs) s = .ok (copies, s') ↔
      ∃ copy s₁ rest, cloneOne x s = .ok (copy, s₁) ∧ cloneAll cloneOne xs s₁ = .ok (rest, s') ∧ copies = copy :: rest := by
  rw [cloneAll, bind_eq_ok_iff]
  constructor
  · intro h
    obtain ⟨⟨copy, s₁⟩, hfirst, hrest⟩ := h
    rw [bind_eq_ok_iff] at hrest
    obtain ⟨⟨rest, s₂⟩, hrest, heq⟩ := hrest
    cases heq
    exact ⟨copy, s₁, rest, hfirst, hrest, rfl⟩
  · intro h
    obtain ⟨copy, s₁, rest, hfirst, hrest, rfl⟩ := h
    exact ⟨(copy, s₁), hfirst, bind_eq_ok_iff.mpr ⟨(rest, s'), hrest, rfl⟩⟩

/-- How a copy comes about: of a primitive value, an array or an object. -/
inductive Copied (g : Graph) : Nat → Datum → Cloning → Datum → Cloning → Prop
  | primitive (depth : Nat) (p : Primitive) (s : Cloning) :
    Copied g depth (.primitive p) s (.primitive (clonePrimitive p)) s
  | none (depth a : Nat) (s : Cloning) (hnode : g[a]? = none) :
    Copied g (depth + 1) (.address a) s (.primitive .undefined) s
  | array (depth a : Nat) (s s₁ : Cloning) (items copies : List Datum) (hnode : g[a]? = some (.array items))
    (hall : cloneAll (cloneDeep g depth) items s = .ok (copies, s₁)) :
    Copied g (depth + 1) (.address a) s (s₁.alloc (.array (copies.map nullIfUndefined))).1
      (s₁.alloc (.array (copies.map nullIfUndefined))).2
  | object (depth a : Nat) (s s₁ : Cloning) (prototype : Option Datum) (properties : List (Text × Datum))
    (copies : List Datum) (hnode : g[a]? = some (.object prototype properties)) (hnew : a ∉ s.refs)
    (hall : cloneAll (cloneDeep g depth) (properties.map Prod.snd) { s with refs := a :: s.refs } = .ok (copies, s₁)) :
    Copied g (depth + 1) (.address a) s (s₁.alloc (assignAll (definedProperties properties copies))).1
      (s₁.alloc (assignAll (definedProperties properties copies))).2

theorem copied_of_cloneDeep (hclone : cloneDeep g depth x s = .ok (copy, s')) : Copied g depth x s copy s' := by
  cases x with
  | primitive p =>
    rw [cloneDeep_primitive] at hclone
    cases hclone
    exact .primitive depth p s
  | address a =>
    cases depth with
    | zero => cases hclone
    | succ depth =>
      cases hnode : g[a]? with
      | none =>
        rw [cloneDeep_none hnode] at hclone
        cases hclone
        exact .none depth a s hnode
      | some node =>
        cases node with
        | array items =>
          rw [cloneDeep_array hnode, bind_eq_ok_iff] at hclone
          obtain ⟨⟨copies, s₁⟩, hall, heq⟩ := hclone
          cases heq
          exact .array depth a s s₁ items copies hnode hall
        | object prototype properties =>
          rw [cloneDeep_object hnode] at hclone
          split at hclone
          · cases hclone
          · rename_i hnew
            rw [bind_eq_ok_iff] at hclone
            obtain ⟨⟨copies, s₁⟩, hall, heq⟩ := hclone
            cases heq
            exact .object depth a s s₁ prototype properties copies hnode hnew hall

/-! ### Counterparts in JSON -/

theorem isJson_primitive {p : Primitive} : IsJson g (.primitive p) ↔ IsJsonPrimitive p := by
  constructor
  · intro h
    exact h.primitives [] p rfl
  · intro h
    constructor
    · intro way q hway
      cases way with
      | nil =>
        cases hway
        exact h
      | cons i way => cases hway
    · intro way a prototype properties hway
      cases way <;> cases hway

theorem isJson_address {a : Nat} : IsJson g (.address a) ↔
    (∀ prototype properties, g[a]? = some (Node.object prototype properties) → IsOrdinary properties) ∧
      ∀ y ∈ g.dataAt a, IsJson g y := by
  constructor
  · intro h
    refine ⟨fun prototype properties hnode => h.objects [] a prototype properties rfl hnode, ?_⟩
    intro y hy
    obtain ⟨i, hi⟩ := List.mem_iff_getElem?.mp hy
    constructor
    · intro way p hway
      exact h.primitives (i :: way) p (walk_cons.mpr ⟨y, hi, hway⟩)
    · intro way b prototype properties hway
      exact h.objects (i :: way) b prototype properties (walk_cons.mpr ⟨y, hi, hway⟩)
  · intro h
    obtain ⟨hobject, hdata⟩ := h
    constructor
    · intro way p hway
      cases way with
      | nil => cases hway
      | cons i way =>
        obtain ⟨y, hi, hway⟩ := walk_cons.mp hway
        exact (hdata y (List.mem_of_getElem? hi)).primitives way p hway
    · intro way b prototype properties hway
      cases way with
      | nil =>
        cases hway
        exact hobject prototype properties
      | cons i way =>
        obtain ⟨y, hi, hway⟩ := walk_cons.mp hway
        exact (hdata y (List.mem_of_getElem? hi)).objects way b prototype properties hway

/-! ### When a copy is made -/

theorem cloneAll_refs {xs copies : List Datum}
    (hone : ∀ x s copy s', cloneDeep g depth x s = .ok (copy, s') →
      g.Fits depth x ∧ s'.refs = (g.objects depth x).reverse ++ s.refs ∧ (s.refs.Nodup → s'.refs.Nodup))
    (hall : cloneAll (cloneDeep g depth) xs s = .ok (copies, s')) :
    (∀ x ∈ xs, g.Fits depth x) ∧ s'.refs = (xs.flatMap (g.objects depth)).reverse ++ s.refs ∧
      (s.refs.Nodup → s'.refs.Nodup) := by
  induction xs generalizing s copies with
  | nil =>
    cases hall
    exact ⟨by simp, rfl, id⟩
  | cons x xs ih =>
    obtain ⟨copy, s₁, rest, hfirst, hrest, rfl⟩ := cloneAll_cons_eq_ok_iff.mp hall
    obtain ⟨hfits, hrefs, hnodup⟩ := hone x s copy s₁ hfirst
    obtain ⟨hfits', hrefs', hnodup'⟩ := ih hrest
    refine ⟨List.forall_mem_cons.mpr ⟨hfits, hfits'⟩, ?_, fun h => hnodup' (hnodup h)⟩
    rw [hrefs', hrefs, List.flatMap_cons, List.reverse_append, List.append_assoc]

theorem cloneDeep_refs (hclone : cloneDeep g depth x s = .ok (copy, s')) :
    g.Fits depth x ∧ s'.refs = (g.objects depth x).reverse ++ s.refs ∧ (s.refs.Nodup → s'.refs.Nodup) := by
  induction depth generalizing x s copy s' with
  | zero =>
    cases copied_of_cloneDeep hclone with
    | primitive p => exact ⟨trivial, rfl, id⟩
  | succ depth ih =>
    cases copied_of_cloneDeep hclone with
    | primitive p => exact ⟨trivial, rfl, id⟩
    | none _ a _ hnode =>
      have hdata : g.dataAt a = [] := dataAt_of_le (List.getElem?_eq_none_iff.mp hnode)
      have hobject : g.objectAt a = [] := by rw [objectAt, hnode]
      refine ⟨?_, ?_, id⟩
      · intro y hy
        rw [hdata] at hy
        cases hy
      · rw [objects, hdata, hobject]
        rfl
    | array _ a _ s₁ items copies hnode hall =>
      have hdata : g.dataAt a = items := dataAt_of_getElem? hnode
      have hobject : g.objectAt a = [] := objectAt_array hnode
      obtain ⟨hfits, hrefs, hnodup⟩ := cloneAll_refs (fun x s copy s' => ih) hall
      refine ⟨?_, ?_, hnodup⟩
      · intro y hy
        exact hfits y (hdata ▸ hy)
      · rw [objects, hdata, hobject]
        exact hrefs
    | object _ a _ s₁ prototype properties copies hnode hnew hall =>
      have hdata : g.dataAt a = properties.map Prod.snd := dataAt_of_getElem? hnode
      have hobject : g.objectAt a = [a] := objectAt_object hnode
      obtain ⟨hfits, hrefs, hnodup⟩ := cloneAll_refs (fun x s copy s' => ih) hall
      refine ⟨?_, ?_, fun h => hnodup (List.nodup_cons.mpr ⟨hnew, h⟩)⟩
      · intro y hy
        exact hfits y (hdata ▸ hy)
      · rw [objects, hdata, hobject, List.reverse_append, List.append_assoc]
        exact hrefs

theorem returns_cloneAll {xs : List Datum}
    (hone : ∀ x s, g.Fits depth x → ((g.objects depth x).reverse ++ s.refs).Nodup → Returns (cloneDeep g depth x s))
    (hfits : ∀ x ∈ xs, g.Fits depth x) (hnodup : ((xs.flatMap (g.objects depth)).reverse ++ s.refs).Nodup) :
    Returns (cloneAll (cloneDeep g depth) xs s) := by
  induction xs generalizing s with
  | nil => exact returns_ok _
  | cons x xs ih =>
    rw [List.forall_mem_cons] at hfits
    rw [List.flatMap_cons, List.reverse_append, List.append_assoc] at hnodup
    obtain ⟨⟨copy, s₁⟩, hfirst⟩ := hone x s hfits.1 hnodup.of_append_right
    obtain ⟨-, hrefs, -⟩ := cloneDeep_refs hfirst
    rw [← hrefs] at hnodup
    obtain ⟨⟨rest, s₂⟩, hrest⟩ := ih hfits.2 hnodup
    exact ⟨_, cloneAll_cons_eq_ok_iff.mpr ⟨copy, s₁, rest, hfirst, hrest, rfl⟩⟩

theorem returns_cloneDeep (hfits : g.Fits depth x) (hnodup : ((g.objects depth x).reverse ++ s.refs).Nodup) :
    Returns (cloneDeep g depth x s) := by
  induction depth generalizing x s with
  | zero =>
    cases x with
    | primitive p => exact returns_ok _
    | address a => exact hfits.elim
  | succ depth ih =>
    cases x with
    | primitive p => exact returns_ok _
    | address a =>
      rw [objects, List.reverse_append, List.append_assoc] at hnodup
      cases hnode : g[a]? with
      | none =>
        rw [cloneDeep_none hnode]
        exact returns_ok _
      | some node =>
        cases node with
        | array items =>
          have hdata : g.dataAt a = items := dataAt_of_getElem? hnode
          have hobject : g.objectAt a = [] := objectAt_array hnode
          rw [hdata, hobject] at hnodup
          rw [cloneDeep_array hnode, returns_map_iff fun _ => returns_pure _]
          exact returns_cloneAll (fun x s => ih) (fun y hy => hfits y (hdata ▸ hy)) hnodup
        | object prototype properties =>
          have hdata : g.dataAt a = properties.map Prod.snd := dataAt_of_getElem? hnode
          have hobject : g.objectAt a = [a] := objectAt_object hnode
          rw [hdata, hobject] at hnodup
          have hnew : a ∉ s.refs := (List.nodup_cons.mp hnodup.of_append_right).1
          rw [cloneDeep_object hnode, if_neg hnew, returns_map_iff fun _ => returns_pure _]
          exact returns_cloneAll (fun x s => ih) (fun y hy => hfits y (hdata ▸ hy)) hnodup

/-- A copy is made exactly if there is room for all ways, and one way to each object. -/
theorem returns_clone_iff : Returns (clone g depth x) ↔ g.Fits depth x ∧ g.EachOnce x := by
  rw [clone, returns_map_iff fun _ => returns_pure _]
  constructor
  · intro h
    obtain ⟨⟨copy, s'⟩, hclone⟩ := h
    obtain ⟨hfits, hrefs, hnodup⟩ := cloneDeep_refs hclone
    refine ⟨hfits, (nodup_objects_iff hfits).mp ?_⟩
    have hnodup' := hnodup List.nodup_nil
    rw [hrefs, List.append_nil, List.nodup_reverse] at hnodup'
    exact hnodup'
  · intro h
    obtain ⟨hfits, honce⟩ := h
    apply returns_cloneDeep hfits
    rw [List.append_nil, List.nodup_reverse]
    exact (nodup_objects_iff hfits).mpr honce

/-! ### Copies are new -/

theorem cloneAll_grown {xs copies : List Datum}
    (hone : ∀ x s copy s', cloneDeep g depth x s = .ok (copy, s') → s.graph <+: s'.graph)
    (hall : cloneAll (cloneDeep g depth) xs s = .ok (copies, s')) : s.graph <+: s'.graph := by
  induction xs generalizing s copies with
  | nil =>
    cases hall
    exact List.prefix_refl _
  | cons x xs ih =>
    obtain ⟨copy, s₁, rest, hfirst, hrest, -⟩ := cloneAll_cons_eq_ok_iff.mp hall
    exact (hone x s copy s₁ hfirst).trans (ih hrest)

theorem cloneDeep_grown (hclone : cloneDeep g depth x s = .ok (copy, s')) : s.graph <+: s'.graph := by
  induction depth generalizing x s copy s' with
  | zero =>
    cases copied_of_cloneDeep hclone with
    | primitive p => exact List.prefix_refl _
  | succ depth ih =>
    cases copied_of_cloneDeep hclone with
    | primitive p => exact List.prefix_refl _
    | none => exact List.prefix_refl _
    | array _ a _ s₁ items copies hnode hall =>
      exact (cloneAll_grown (fun x s copy s' => ih) hall).trans (List.prefix_append _ _)
    | object _ a _ s₁ prototype properties copies hnode hnew hall =>
      exact (cloneAll_grown (fun x s copy s' => ih) hall).trans (List.prefix_append _ _)

/-- The copies and what they refer to have been added. -/
structure Fresh (start : Nat) (s' : Cloning) (copies : List Datum) : Prop where
  enclosed : s'.graph.EnclosedFrom start
  copies : ∀ a, .address a ∈ copies → start ≤ a

theorem Fresh.alloc {start : Nat} {copies : List Datum} (hfresh : Fresh start s copies) (hstart : start ≤ s.graph.length)
    {node : Node} (hnode : ∀ a, .address a ∈ node.data → .address a ∈ copies) :
    Fresh start (s.alloc node).2 [(s.alloc node).1] := by
  refine ⟨hfresh.enclosed.append fun a ha => hfresh.copies a (hnode a ha), ?_⟩
  intro a ha
  cases List.mem_singleton.mp ha
  exact hstart

theorem cloneAll_fresh {start : Nat} {xs copies : List Datum}
    (hone : ∀ x s copy s', start ≤ s.graph.length → s.graph.EnclosedFrom start →
      cloneDeep g depth x s = .ok (copy, s') → Fresh start s' [copy])
    (hstart : start ≤ s.graph.length) (henclosed : s.graph.EnclosedFrom start)
    (hall : cloneAll (cloneDeep g depth) xs s = .ok (copies, s')) : Fresh start s' copies := by
  induction xs generalizing s copies with
  | nil =>
    cases hall
    exact ⟨henclosed, by simp⟩
  | cons x xs ih =>
    obtain ⟨copy, s₁, rest, hfirst, hrest, rfl⟩ := cloneAll_cons_eq_ok_iff.mp hall
    have hfresh := hone x s copy s₁ hstart henclosed hfirst
    have hfresh' := ih (hstart.trans (cloneDeep_grown hfirst).length_le) hfresh.enclosed hrest
    refine ⟨hfresh'.enclosed, ?_⟩
    intro a ha
    rw [List.mem_cons] at ha
    obtain ha | ha := ha
    · exact hfresh.copies a (ha ▸ List.mem_singleton_self copy)
    · exact hfresh'.copies a ha

theorem address_of_nullIfUndefined {copies : List Datum} {a : Nat}
    (ha : .address a ∈ (Node.array (copies.map nullIfUndefined)).data) : .address a ∈ copies := by
  obtain ⟨copy, hcopy, heq⟩ := List.mem_map.mp ha
  rw [nullIfUndefined] at heq
  split at heq
  · cases heq
  · exact heq ▸ hcopy

theorem address_of_assignAll {properties : List (Text × Datum)} {copies : List Datum} {a : Nat}
    (ha : .address a ∈ (assignAll (definedProperties properties copies)).data) : .address a ∈ copies := by
  obtain ⟨property, hproperty, heq⟩ := List.mem_map.mp ha
  rw [← heq]
  exact (List.of_mem_zip (List.mem_of_mem_filter (List.mem_of_mem_filter hproperty))).2

theorem cloneDeep_fresh {start : Nat} (hstart : start ≤ s.graph.length) (henclosed : s.graph.EnclosedFrom start)
    (hclone : cloneDeep g depth x s = .ok (copy, s')) : Fresh start s' [copy] := by
  induction depth generalizing x s copy s' with
  | zero =>
    cases copied_of_cloneDeep hclone with
    | primitive p => exact ⟨henclosed, by simp⟩
  | succ depth ih =>
    have hone : ∀ x s copy s', start ≤ s.graph.length → s.graph.EnclosedFrom start →
        cloneDeep g depth x s = .ok (copy, s') → Fresh start s' [copy] :=
      fun x s copy s' hstart henclosed hclone => ih hstart henclosed hclone
    cases copied_of_cloneDeep hclone with
    | primitive p => exact ⟨henclosed, by simp⟩
    | none => exact ⟨henclosed, by simp⟩
    | array _ a _ s₁ items copies hnode hall =>
      have hgrown := cloneAll_grown (fun x s copy s' => cloneDeep_grown) hall
      exact (cloneAll_fresh hone hstart henclosed hall).alloc (hstart.trans hgrown.length_le)
        fun a => address_of_nullIfUndefined
    | object _ a _ s₁ prototype properties copies hnode hnew hall =>
      have hgrown := cloneAll_grown (fun x s copy s' => cloneDeep_grown) hall
      exact (cloneAll_fresh hone (s := { s with refs := a :: s.refs }) hstart henclosed hall).alloc
        (hstart.trans hgrown.length_le) fun a => address_of_assignAll

theorem enclosedFrom_length (g : Graph) : g.EnclosedFrom g.length := by
  intro a b ha hrefers
  rw [RefersTo, dataAt_of_le ha] at hrefers
  cases hrefers

theorem separate_of_clone (hplain : IsPlain g x) (hclone : clone g depth x = .ok (copy, g')) :
    g <+: g' ∧ ∀ a, g'.Reaches copy a → ¬ g.Reaches x a := by
  rw [clone, bind_eq_ok_iff] at hclone
  obtain ⟨⟨copy', s'⟩, hclone, heq⟩ := hclone
  cases heq
  have hgrown : g <+: s'.graph := cloneDeep_grown hclone
  have hfresh : Fresh g.length s' [copy] := cloneDeep_fresh le_rfl (enclosedFrom_length g) hclone
  refine ⟨hgrown, ?_⟩
  intro a hcopy hreaches
  have hle : g.length ≤ a := by
    apply hfresh.enclosed.reaches ?_ hcopy
    rintro b rfl
    exact hfresh.copies b (List.mem_singleton_self _)
  have hlt : a < g.length := hplain.closed.reaches hplain.within hreaches
  omega

/-! ### What a copy reads as -/

/-- Functions that return an empty string. -/
def emptyStrings : Methods := fun _ _ _ => some (.primitive (.string []))

def IsMissing (x : Datum) : Prop := x = .primitive .undefined ∨ ∃ f, x = .primitive (.function f)

/-- An item or a property with its copy and what is read from its text. -/
structure Row where
  name : Text
  datum : Datum
  copy : Datum
  tree : Tree

/-- The copy is missing where the text is, and reads like it if all that is reached has a counterpart in JSON. -/
structure Alike (g : Graph) (depth : Nat) (graph : Graph) (row : Row) : Prop where
  copy : row.copy = .primitive .undefined ↔ IsMissing row.datum
  tree : row.tree.isDefined = false ↔ IsMissing row.datum
  read : ∀ g' : Graph, graph <+: g' → ∀ depth', depth ≤ depth' → (g'.read depth' row.copy = some row.tree ↔ IsJson g row.datum)

theorem Alike.mono {graph graph' : Graph} {row : Row} (halike : Alike g depth graph row) (hgrown : graph <+: graph') :
    Alike g depth graph' row :=
  ⟨halike.copy, halike.tree, fun g' hg' => halike.read g' (hgrown.trans hg')⟩

theorem exists_rows {entries : List (Text × Datum)} {copies : List Datum} {trees : List (Text × Tree)}
    (hone : ∀ x s copy s' key tree, cloneDeep g depth x s = .ok (copy, s') → g.json emptyStrings depth key x = some tree →
      Alike g depth s'.graph ⟨key, x, copy, tree⟩)
    (hall : cloneAll (cloneDeep g depth) (entries.map Prod.snd) s = .ok (copies, s'))
    (htrees : List.Forall₂ (fun entry row => (g.json emptyStrings depth entry.1 entry.2).map (entry.1, ·) = some row)
      entries trees) :
    ∃ rows : List Row, entries = rows.map (fun row => (row.name, row.datum)) ∧ copies = rows.map Row.copy ∧
      trees = rows.map (fun row => (row.name, row.tree)) ∧ ∀ row ∈ rows, Alike g depth s'.graph row := by
  induction htrees generalizing s copies with
  | nil =>
    cases hall
    exact ⟨[], rfl, rfl, rfl, by simp⟩
  | @cons entry row entries trees htree _ ih =>
    obtain ⟨tree, hjson, rfl⟩ := Option.map_eq_some_iff.mp htree
    obtain ⟨copy, s₁, rest, hfirst, hrest, rfl⟩ := cloneAll_cons_eq_ok_iff.mp hall
    obtain ⟨rows, rfl, rfl, rfl, halike⟩ := ih hrest
    refine ⟨⟨entry.1, entry.2, copy, tree⟩ :: rows, rfl, rfl, rfl, List.forall_mem_cons.mpr ⟨?_, halike⟩⟩
    exact (hone entry.2 s copy s₁ entry.1 tree hfirst hjson).mono (cloneAll_grown (fun x s copy s' => cloneDeep_grown) hrest)

theorem isJson_of_isMissing (h : IsMissing x) : IsJson g x := by
  obtain rfl | ⟨f, rfl⟩ := h
  · exact isJson_primitive.mpr fun n hn => nomatch hn
  · exact isJson_primitive.mpr fun n hn => nomatch hn

section Rows

variable {rows : List Row} {graph : Graph} {depth' : Nat}

theorem mapM_map_eq_some_iff {α β γ : Type} {f : β → Option γ} {k : α → β} {h : α → γ} {xs : List α} :
    (xs.map k).mapM f = some (xs.map h) ↔ ∀ x ∈ xs, f (k x) = some (h x) := by
  rw [mapM_eq_some_iff, List.forall₂_map_left_iff, List.forall₂_map_right_iff, List.forall₂_same]

theorem read_nullIfUndefined_iff {row : Row} (halike : Alike g depth graph row) (hgrown : graph <+: g')
    (hle : depth ≤ depth') : g'.read depth' (nullIfUndefined row.copy) = some row.tree.nullIfUndefined ↔ IsJson g row.datum := by
  by_cases hmissing : IsMissing row.datum
  · have hcopy : nullIfUndefined row.copy = .primitive .null := if_pos (halike.copy.mpr hmissing)
    have htree : row.tree.nullIfUndefined = .primitive .null := by
      rw [Tree.nullIfUndefined, halike.tree.mpr hmissing]
      rfl
    rw [hcopy, htree, read_primitive]
    exact iff_of_true rfl (isJson_of_isMissing hmissing)
  · have hcopy : nullIfUndefined row.copy = row.copy := if_neg (mt halike.copy.mp hmissing)
    have htree : row.tree.nullIfUndefined = row.tree := if_pos (Bool.of_not_eq_false (mt halike.tree.mp hmissing))
    rw [hcopy, htree]
    exact halike.read g' hgrown depth' hle

theorem read_array_iff (hgrown : graph <+: g') (hle : depth ≤ depth') (halike : ∀ row ∈ rows, Alike g depth graph row)
    {a : Nat} (hnode : g'[a]? = some (.array ((rows.map Row.copy).map nullIfUndefined))) :
    g'.read (depth' + 1) (.address a) = some (.array (rows.map fun row => row.tree.nullIfUndefined)) ↔
      ∀ row ∈ rows, IsJson g row.datum := by
  rw [read_array hnode, List.map_map, Option.map_eq_some_iff]
  constructor
  · intro h
    obtain ⟨trees, hall, heq⟩ := h
    cases heq
    rw [mapM_map_eq_some_iff] at hall
    intro row hrow
    exact (read_nullIfUndefined_iff (halike row hrow) hgrown hle).mp (hall row hrow)
  · intro h
    refine ⟨_, mapM_map_eq_some_iff.mpr ?_, rfl⟩
    intro row hrow
    exact (read_nullIfUndefined_iff (halike row hrow) hgrown hle).mpr (h row hrow)

/-- The rows that have a value. -/
def defined (rows : List Row) : List Row := rows.filter fun row => row.tree.isDefined

theorem definedProperties_rows (halike : ∀ row ∈ rows, Alike g depth graph row) :
    definedProperties (rows.map fun row => (row.name, row.datum)) (rows.map Row.copy) =
      (defined rows).map fun row => (row.name, row.copy) := by
  rw [definedProperties, List.map_map, List.zip_map', List.filter_map, defined]
  congr 1
  apply List.filter_congr
  intro row hrow
  have hiff := (halike row hrow).copy.trans (halike row hrow).tree.symm
  cases hdefined : row.tree.isDefined with
  | true => simpa [hdefined] using hiff
  | false => simpa [hdefined] using hiff

theorem jsonNode_rows (prototype : Option Datum) (properties : List (Text × Datum)) :
    jsonNode (.object prototype properties) (rows.map fun row => (row.name, row.tree)) =
      .object ((defined rows).map fun row => (row.name, row.tree)) := by
  rw [jsonNode, List.filter_map]
  rfl

theorem assignAll_of_ordinary {properties : List (Text × Datum)} (hproto : ∀ property ∈ properties, property.1 ≠ text "__proto__") :
    assignAll properties = .object none properties := by
  have hlookup : properties.lookup (text "__proto__") = none := by
    rw [List.lookup_eq_none_iff]
    intro property hproperty
    exact bne_iff_ne.mpr (hproto property hproperty).symm
  have hfilter : properties.filter (fun property => property.1 ≠ text "__proto__") = properties := by
    rw [List.filter_eq_self]
    intro property hproperty
    exact decide_eq_true (hproto property hproperty)
  rw [assignAll, hlookup, hfilter]
  rfl

theorem map_fst_of_mapM {β γ : Type} {f : β → Option γ} {xs : List (Text × β)} {ys : List (Text × γ)}
    (h : (xs.mapM fun x => (f x.2).map (x.1, ·)) = some ys) : ys.map Prod.fst = xs.map Prod.fst := by
  rw [mapM_eq_some_iff] at h
  induction h with
  | nil => rfl
  | cons hrow _ ih =>
    obtain ⟨y, -, rfl⟩ := Option.map_eq_some_iff.mp hrow
    rw [List.map_cons, List.map_cons, ih]

/-- What is assigned to `__proto__` is read from no copy. -/
theorem name_ne_of_read {a : Nat} (hnode : g'[a]? = some (assignAll (rows.map fun row => (row.name, row.copy))))
    (hread : g'.read (depth + 1) (.address a) = some (.object (rows.map fun row => (row.name, row.tree)))) :
    ∀ row ∈ rows, row.name ≠ text "__proto__" := by
  rw [assignAll] at hnode
  cases hprototype : (((rows.map fun row => (row.name, row.copy)).lookup (text "__proto__")).filter isPrototype) with
  | some prototype =>
    rw [hprototype] at hnode
    rw [read_replaced hnode] at hread
    cases hread
  | none =>
    rw [hprototype] at hnode
    rw [read_object hnode, Option.map_eq_some_iff] at hread
    obtain ⟨trees, hall, heq⟩ := hread
    cases heq
    have hnames := map_fst_of_mapM hall
    intro row hrow
    have hname : row.name ∈ (rows.map fun row => (row.name, row.tree)).map Prod.fst :=
      List.mem_map.mpr ⟨_, List.mem_map_of_mem hrow, rfl⟩
    rw [hnames] at hname
    obtain ⟨property, hproperty, heq⟩ := List.mem_map.mp hname
    rw [← heq]
    exact of_decide_eq_true (List.mem_filter.mp hproperty).2

theorem read_object_iff (hgrown : graph <+: g') (hle : depth ≤ depth') (halike : ∀ row ∈ rows, Alike g depth graph row)
    {a : Nat} (hnode : g'[a]? = some (assignAll ((defined rows).map fun row => (row.name, row.copy)))) :
    g'.read (depth' + 1) (.address a) = some (.object ((defined rows).map fun row => (row.name, row.tree))) ↔
      (∀ row ∈ defined rows, row.name ≠ text "__proto__") ∧ ∀ row ∈ defined rows, IsJson g row.datum := by
  have hordinary : (∀ row ∈ defined rows, row.name ≠ text "__proto__") →
      g'.read (depth' + 1) (.address a) =
        (((defined rows).map fun row => (row.name, row.copy)).mapM
          fun property => (g'.read depth' property.2).map (property.1, ·)).map .object := by
    intro hproto
    rw [assignAll_of_ordinary (by simpa using hproto)] at hnode
    exact read_object hnode depth'
  have hread : (((defined rows).map fun row => (row.name, row.copy)).mapM
      fun property => (g'.read depth' property.2).map (property.1, ·)) =
        some ((defined rows).map fun row => (row.name, row.tree)) ↔ ∀ row ∈ defined rows, IsJson g row.datum := by
    rw [mapM_map_eq_some_iff]
    apply forall₂_congr
    intro row hrow
    rw [← (halike row (List.mem_of_mem_filter hrow)).read g' hgrown depth' hle, Option.map_eq_some_iff]
    simp
  constructor
  · intro h
    have hproto : ∀ row ∈ defined rows, row.name ≠ text "__proto__" := name_ne_of_read hnode h
    rw [hordinary hproto, Option.map_eq_some_iff] at h
    obtain ⟨trees, hall, heq⟩ := h
    cases heq
    exact ⟨hproto, hread.mp hall⟩
  · intro h
    obtain ⟨hproto, hjson⟩ := h
    rw [hordinary hproto, hread.mpr hjson]
    rfl

end Rows

theorem isOrdinary_iff {rows : List Row} (halike : ∀ row ∈ rows, (row.tree.isDefined = false ↔ IsMissing row.datum)) :
    IsOrdinary (rows.map fun row => (row.name, row.datum)) ↔
      (∀ f, (rows.map fun row => (row.name, row.datum)).lookup (text "toJSON") ≠ some (.primitive (.function f))) ∧
        ∀ row ∈ defined rows, row.name ≠ text "__proto__" := by
  constructor
  · intro h
    refine ⟨h.toJSON, ?_⟩
    intro row hrow hname
    obtain ⟨hrow, hdefined⟩ := List.mem_filter.mp hrow
    have hmissing : IsMissing row.datum := h.proto row.datum (List.mem_map.mpr ⟨row, hrow, by rw [hname]⟩)
    rw [(halike row hrow).mpr hmissing] at hdefined
    cases hdefined
  · intro h
    obtain ⟨htoJSON, hproto⟩ := h
    refine ⟨htoJSON, ?_⟩
    intro x hx
    obtain ⟨row, hrow, heq⟩ := List.mem_map.mp hx
    obtain ⟨hname, rfl⟩ := Prod.mk.inj heq
    by_contra hmissing
    have hdefined := Bool.of_not_eq_false (mt (halike row hrow).mp hmissing)
    exact hproto row (List.mem_filter.mpr ⟨hrow, hdefined⟩) hname

theorem alike_primitive (depth : Nat) (graph : Graph) (key : Text) (p : Primitive) :
    Alike g depth graph ⟨key, .primitive p, .primitive (clonePrimitive p), .primitive p.json⟩ := by
  constructor
  · cases p <;> simp [clonePrimitive, IsMissing]
  · cases p with
    | number n => cases n <;> simp [Primitive.json, AnyNumber.json, Tree.isDefined, IsMissing]
    | _ => simp [Primitive.json, Tree.isDefined, IsMissing]
  · intro g' _ depth' _
    rw [read_primitive, isJson_primitive, IsJsonPrimitive]
    cases p with
    | number n => cases n <;> simp [clonePrimitive, Primitive.json, AnyNumber.json]
    | _ => simp [clonePrimitive, Primitive.json]

theorem alike_address {graph : Graph} {key : Text} {a a' : Nat} {tree : Js.Tree} (htree : tree.isDefined = true)
    (hread : ∀ g' : Graph, graph <+: g' → ∀ depth', depth ≤ depth' →
      (g'.read depth' (.address a') = some tree ↔ IsJson g (.address a))) :
    Alike g depth graph ⟨key, .address a, .address a', tree⟩ := by
  have hmissing : ¬ IsMissing (.address a) := by simp [IsMissing]
  refine ⟨iff_of_false (by simp) hmissing, iff_of_false ?_ hmissing, hread⟩
  show tree.isDefined ≠ false
  rw [htree]
  simp

theorem toJSON_array {a : Nat} {items : List Datum} (hnode : g[a]? = some (.array items)) : g.toJSON (.address a) = none := by
  rw [toJSON, hnode]

theorem toJSON_eq_none_iff {a : Nat} {prototype : Option Datum} {properties : List (Text × Datum)}
    (hnode : g[a]? = some (.object prototype properties)) :
    g.toJSON (.address a) = none ↔ ∀ f, properties.lookup (text "toJSON") ≠ some (.primitive (.function f)) := by
  simp only [toJSON, hnode]
  split
  · rename_i f hlookup
    exact iff_of_false nofun fun h => h f hlookup
  · rename_i hlookup
    exact iff_of_true rfl hlookup

/-- A copy reads like the text of a value exactly if all that is reached from it has a counterpart in JSON. -/
theorem alike_of_cloneDeep {key : Text} {tree : Tree} (hclone : cloneDeep g depth x s = .ok (copy, s'))
    (hjson : g.json emptyStrings depth key x = some tree) : Alike g depth s'.graph ⟨key, x, copy, tree⟩ := by
  induction depth generalizing x s copy s' key tree with
  | zero =>
    cases copied_of_cloneDeep hclone with
    | primitive _ p =>
      rw [json_of_primitive rfl] at hjson
      cases hjson
      exact alike_primitive 0 s.graph key p
  | succ depth ih =>
    have hone : ∀ x s copy s' key tree, cloneDeep g depth x s = .ok (copy, s') →
        g.json emptyStrings depth key x = some tree → Alike g depth s'.graph ⟨key, x, copy, tree⟩ :=
      fun x s copy s' key tree hclone hjson => ih hclone hjson
    cases copied_of_cloneDeep hclone with
    | primitive _ p =>
      rw [json_of_primitive rfl] at hjson
      cases hjson
      exact alike_primitive _ s.graph key p
    | none _ a _ hnode =>
      have hmethod : g.toJSON (.address a) = none := by rw [toJSON, hnode]
      rw [json_succ_none (converted_of_none hmethod) hnode] at hjson
      cases hjson
    | array _ a _ s₁ items copies hnode hall =>
      rw [json_succ (converted_of_none (toJSON_array hnode)) hnode, Option.map_eq_some_iff] at hjson
      obtain ⟨trees, htrees, rfl⟩ := hjson
      have hitems : (Node.array items).entries.map Prod.snd = items := map_snd_entries _
      rw [← hitems] at hall
      obtain ⟨rows, hentries, rfl, rfl, halike⟩ := exists_rows hone hall (mapM_eq_some_iff.mp htrees)
      apply alike_address rfl
      intro g' hgrown depth' hle
      obtain ⟨depth', rfl⟩ := Nat.exists_eq_add_of_lt hle
      have hle' : depth ≤ depth + depth' := Nat.le_add_right _ _
      have hcell : g'[s₁.graph.length]? = some (.array ((rows.map Row.copy).map nullIfUndefined)) :=
        getElem?_of_prefix hgrown List.getElem?_concat_length
      have hread := read_array_iff ((List.prefix_append _ _).trans hgrown) hle' halike hcell
      have htree : jsonNode (.array items) (rows.map fun row => (row.name, row.tree)) =
          .array (rows.map fun row => row.tree.nullIfUndefined) := by
        rw [jsonNode, List.map_map]
        rfl
      have hdata : g.dataAt a = rows.map Row.datum := by
        rw [dataAt_of_getElem? hnode, ← map_snd_entries, hentries, List.map_map]
        rfl
      show g'.read (depth + depth' + 1) (.address s₁.graph.length) = some _ ↔ IsJson g (.address a)
      rw [htree, hread, isJson_address, hdata, List.forall_mem_map]
      refine ⟨fun h => ⟨?_, h⟩, fun h => h.2⟩
      intro prototype properties hobject
      cases hnode.symm.trans hobject
    | object _ a _ s₁ prototype properties copies hnode hnew hall =>
      cases hmethod : g.toJSON (.address a) with
      | some f =>
        have hconverted : g.converted emptyStrings key (.address a) = some (.primitive (.string [])) := by
          rw [converted, hmethod]
          rfl
        rw [json_of_primitive hconverted] at hjson
        cases hjson
        apply alike_address rfl
        intro g' hgrown depth' _
        refine iff_of_false (read_address_ne_primitive g' _ _ _) ?_
        intro h
        have hordinary := (isJson_address.mp h).1 prototype properties hnode
        rw [(toJSON_eq_none_iff hnode).mpr hordinary.toJSON] at hmethod
        cases hmethod
      | none =>
        rw [json_succ (converted_of_none hmethod) hnode, Option.map_eq_some_iff] at hjson
        obtain ⟨trees, htrees, rfl⟩ := hjson
        obtain ⟨rows, hentries, rfl, rfl, halike⟩ := exists_rows hone hall (mapM_eq_some_iff.mp htrees)
        have hentries : properties = rows.map fun row => (row.name, row.datum) := hentries
        have hdata : g.dataAt a = rows.map Row.datum := by
          rw [dataAt_of_getElem? hnode, Node.data, hentries, List.map_map]
          rfl
        rw [jsonNode_rows]
        apply alike_address rfl
        intro g' hgrown depth' hle
        obtain ⟨depth', rfl⟩ := Nat.exists_eq_add_of_lt hle
        have hle' : depth ≤ depth + depth' := Nat.le_add_right _ _
        have hcell : g'[s₁.graph.length]? = some (assignAll ((defined rows).map fun row => (row.name, row.copy))) := by
          apply getElem?_of_prefix hgrown
          rw [hentries, definedProperties_rows halike]
          exact List.getElem?_concat_length
        show g'.read (depth + depth' + 1) (.address s₁.graph.length) = some _ ↔ IsJson g (.address a)
        rw [read_object_iff ((List.prefix_append _ _).trans hgrown) hle' halike hcell, isJson_address, hdata,
          List.forall_mem_map]
        have hordinary := isOrdinary_iff fun row hrow => (halike row hrow).tree
        rw [← hentries] at hordinary
        have hmethod' := (toJSON_eq_none_iff hnode).mp hmethod
        constructor
        · intro h
          obtain ⟨hproto, hjson⟩ := h
          refine ⟨?_, ?_⟩
          · intro prototype' properties' hnode'
            cases hnode.symm.trans hnode'
            exact hordinary.mpr ⟨hmethod', hproto⟩
          · intro row hrow
            by_cases hmissing : IsMissing row.datum
            · exact isJson_of_isMissing hmissing
            · have hdefined := Bool.of_not_eq_false (mt (halike row hrow).tree.mp hmissing)
              exact hjson row (List.mem_filter.mpr ⟨hrow, hdefined⟩)
        · intro h
          obtain ⟨hobject, hjson⟩ := h
          exact ⟨(hordinary.mp (hobject prototype properties hnode)).2, fun row hrow => hjson row (List.mem_of_mem_filter hrow)⟩

/-! ### Copies are like JSON -/

theorem hasNoMethod_of_isJson (h : IsJson g x) : g.HasNoMethod x := by
  intro way a hway
  cases hnode : g[a]? with
  | none => rw [toJSON, hnode]
  | some node =>
    cases node with
    | array items => exact toJSON_array hnode
    | object prototype properties =>
      exact (toJSON_eq_none_iff hnode).mpr (h.objects way a prototype properties hway hnode).toJSON

theorem read_of_yields (hplain : IsPlain g x) (hfits : g.Fits depth x) (hjson : IsJson g x)
    (hclone : clone g depth x = .ok (copy, g')) {methods : Methods} {tree : Tree} (hyields : g.Yields methods x tree) :
    g'.read depth copy = some tree := by
  rw [clone, bind_eq_ok_iff] at hclone
  obtain ⟨⟨copy', s'⟩, hclone, heq⟩ := hclone
  cases heq
  obtain ⟨depth', hyields⟩ := hyields
  obtain ⟨tree', htree'⟩ := exists_json hplain.closed hplain.within hfits (.string []) []
  have hsame : tree = tree' := by
    rw [json_congr (hasNoMethod_of_isJson hjson) emptyStrings depth' [] []] at hyields
    have hmore := json_mono (le_max_left depth' depth) hyields
    have hmore' := json_mono (le_max_right depth' depth) htree'
    exact Option.some.inj (hmore.symm.trans hmore')
  rw [hsame]
  exact ((alike_of_cloneDeep hclone htree').read _ (List.prefix_refl _) depth le_rfl).mpr hjson

/-- With room for all ways a value without cycles is copied like JSON exactly if there is one way to each object, and all that is reached has a counterpart in JSON. -/
theorem likeJson_iff_of_fits (hplain : IsPlain g x) (hfits : g.Fits depth x) :
    LikeJson g x depth ↔ g.EachOnce x ∧ IsJson g x := by
  have hcycle : ¬ g.HasCycle x := fun h => not_fits_of_hasCycle h hfits
  constructor
  · intro h
    obtain ⟨copy, g', hclone, -, -, hread⟩ := h.copies hcycle
    refine ⟨(returns_clone_iff.mp ⟨_, hclone⟩).2, ?_⟩
    obtain ⟨tree, htree⟩ := exists_json hplain.closed hplain.within hfits (.string []) []
    obtain ⟨depth', hread⟩ := hread emptyStrings tree ⟨depth, htree⟩
    rw [clone, bind_eq_ok_iff] at hclone
    obtain ⟨⟨copy', s'⟩, hclone, heq⟩ := hclone
    cases heq
    apply ((alike_of_cloneDeep hclone htree).read _ (List.prefix_refl _) (max depth' depth) (le_max_right _ _)).mp
    exact read_mono (le_max_left _ _) hread
  · intro h
    obtain ⟨honce, hjson⟩ := h
    obtain ⟨⟨copy, g'⟩, hclone⟩ := returns_clone_iff.mpr ⟨hfits, honce⟩
    obtain ⟨hgrown, hseparate⟩ := separate_of_clone hplain hclone
    constructor
    · refine iff_of_false ?_ hcycle
      intro h
      obtain ⟨e, he⟩ := h
      cases hclone.symm.trans he
    · intro _
      refine ⟨copy, g', hclone, hgrown, hseparate, ?_⟩
      intro methods tree hyields
      exact ⟨depth, read_of_yields hplain hfits hjson hclone hyields⟩

/-- A value is copied like JSON exactly if it has a cycle, or there is one way to each object and all that is reached has a counterpart in JSON. -/
theorem likeJson_iff (hplain : IsPlain g x) :
    (∃ room, ∀ depth, room ≤ depth → LikeJson g x depth) ↔ g.HasCycle x ∨ (g.EachOnce x ∧ IsJson g x) := by
  by_cases hcycle : g.HasCycle x
  · refine iff_of_true ⟨0, ?_⟩ (.inl hcycle)
    intro depth _
    constructor
    · refine iff_of_true ?_ hcycle
      cases hclone : clone g depth x with
      | error e => exact ⟨e, rfl⟩
      | ok outcome => exact absurd (returns_clone_iff.mp ⟨outcome, hclone⟩).1 (not_fits_of_hasCycle hcycle)
    · intro hno
      exact absurd hcycle hno
  · obtain ⟨enough, hfits⟩ := exists_fits_of_not_hasCycle hcycle
    rw [or_iff_right hcycle]
    constructor
    · intro h
      obtain ⟨room, h⟩ := h
      exact (likeJson_iff_of_fits hplain (hfits.mono (le_max_right room enough))).mp (h _ (le_max_left room enough))
    · intro h
      exact ⟨enough, fun depth hle => (likeJson_iff_of_fits hplain (hfits.mono hle)).mpr h⟩

/-- A lamp with one state for `on` and `off`. -/
def sharedState : Graph :=
  [.object none [(text "on", .address 1), (text "off", .address 1)], .object none [(text "level", .primitive .undefined)]]

theorem isPlain_sharedState : IsPlain sharedState (.address 0) := by
  constructor
  · intro a x hx b hb
    subst hb
    rcases a with _ | _ | a
    · have hb : b = 1 := by simpa [sharedState, dataAt, Node.data] using hx
      subst hb
      decide
    · simp [sharedState, dataAt, Node.data] at hx
    · simp [sharedState, dataAt] at hx
  · intro a ha
    cases ha
    decide
  · intro a prototype properties hnode
    rcases a with _ | _ | a
    · cases hnode
      exact ⟨rfl, by decide⟩
    · cases hnode
      exact ⟨rfl, by decide⟩
    · cases hnode

theorem likeJson_iff_sharedState :
    (∃ room, ∀ depth, room ≤ depth → LikeJson sharedState (.address 0) depth) ↔
      sharedState.HasCycle (.address 0) ∨ (sharedState.EachOnce (.address 0) ∧ IsJson sharedState (.address 0)) :=
  likeJson_iff isPlain_sharedState

theorem fits_sharedState (depth : Nat) : sharedState.Fits (depth + 2) (.address 0) := by
  intro x hx
  have hx : x = .address 1 := by simpa [sharedState, dataAt, Node.data] using hx
  subst hx
  intro y hy
  have hy : y = .primitive .undefined := by simpa [sharedState, dataAt, Node.data] using hy
  subst hy
  cases depth <;> trivial

/-- An object that is merely shared is taken for a cycle. -/
theorem not_likeJson_of_shared :
    ¬ ∀ g x, IsPlain g x → ∃ room, ∀ depth, room ≤ depth → LikeJson g x depth := by
  intro h
  obtain ⟨room, hlike⟩ := h sharedState (.address 0) isPlain_sharedState
  have hboth := (likeJson_iff_of_fits isPlain_sharedState (fits_sharedState room)).mp (hlike _ (Nat.le_add_right _ _))
  cases hboth.1 [0] [1] 1 ⟨_, _, rfl⟩ rfl rfl

end CloneGraph

end Coaty
