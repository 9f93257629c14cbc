import Coaty.Util.Clone
import Coaty.Util.CloneGraph

/-!
# Deep copies of JSON data

The heap of JSON data as a graph of values. As long as no prototype has been replaced, copying on the heap comes to the same objects as copying on the graph, so data can be copied exactly if there is room for all ways, and one way to each object.
-/

namespace Coaty

namespace CloneGraph

open Js Graph Evaluation

def datumOf : Ref → Datum
  | .undefined => .primitive .undefined
  | .null => .primitive .null
  | .bool b => .primitive (.bool b)
  | .number n => .primitive (.number (.finite n))
  | .string s => .primitive (.string s)
  | .address a => .address a

def nodeOf : Cell → Node
  | .array items => .array (items.map datumOf)
  | .object properties => .object none (properties.map fun property => (property.1, datumOf property.2))
  | .derived prototype properties =>
    .object (some (datumOf prototype)) (properties.map fun property => (property.1, datumOf property.2))

def graphOf (h : Heap) : Graph := h.map nodeOf

/-- Both fail with the same error, or both have come to the same objects. -/
def InStep {α β : Type} (result : Except Error (α × Deep.Cloning)) (result' : Except Error (β × Cloning)) : Prop :=
  (result.map fun outcome => outcome.2.refs) = result'.map fun outcome => outcome.2.refs

theorem InStep.ok {α β : Type} {copy : α} {copy' : β} {s : Deep.Cloning} {s' : Cloning} (hs : s.refs = s'.refs) :
    InStep (.ok (copy, s)) (.ok (copy', s')) :=
  congrArg Except.ok hs

theorem InStep.bind {α β γ δ : Type} {e : Except Error (α × Deep.Cloning)} {e' : Except Error (β × Cloning)}
    {f : α × Deep.Cloning → Except Error (γ × Deep.Cloning)} {f' : β × Cloning → Except Error (δ × Cloning)}
    (he : InStep e e') (hf : ∀ x x', x.2.refs = x'.2.refs → InStep (f x) (f' x')) : InStep (e >>= f) (e' >>= f') := by
  cases e with
  | error error =>
    cases e' with
    | error error' =>
      cases he
      rfl
    | ok x' => cases he
  | ok x =>
    cases e' with
    | error error' => cases he
    | ok x' => exact hf x x' (Except.ok.inj he)

theorem InStep.returns_iff {α β : Type} {e : Except Error (α × Deep.Cloning)} {e' : Except Error (β × Cloning)}
    (he : InStep e e') : Returns e ↔ Returns e' := by
  cases e with
  | error error =>
    cases e' with
    | error error' => simp
    | ok x' => cases he
  | ok x =>
    cases e' with
    | error error' => cases he
    | ok x' => simp

variable {h h' : Heap} {depth : Nat}

theorem inStep_cloneAll {refs : List Ref}
    (hone : ∀ ref ∈ refs, ∀ (s : Deep.Cloning) (s' : Cloning), s.refs = s'.refs →
      InStep (Deep.cloneDeep h depth ref s) (cloneDeep (graphOf h) depth (datumOf ref) s'))
    {s : Deep.Cloning} {s' : Cloning} (hs : s.refs = s'.refs) :
    InStep (Deep.cloneAll (Deep.cloneDeep h depth) refs s)
      (cloneAll (cloneDeep (graphOf h) depth) (refs.map datumOf) s') := by
  induction refs generalizing s s' with
  | nil => exact InStep.ok hs
  | cons ref refs ih =>
    rw [List.forall_mem_cons] at hone
    apply InStep.bind (hone.1 s s' hs)
    intro x x' hx
    apply InStep.bind (ih hone.2 hx)
    intro y y' hy
    exact InStep.ok hy

theorem inStep_cloneDeep (hordinary : ∀ cell ∈ h, cell.IsOrdinary) (ref : Ref) {s : Deep.Cloning} {s' : Cloning}
    (hs : s.refs = s'.refs) :
    InStep (Deep.cloneDeep h depth ref s) (cloneDeep (graphOf h) depth (datumOf ref) s') := by
  induction depth generalizing ref s s' with
  | zero =>
    cases ref with
    | address a => rfl
    | _ => exact InStep.ok hs
  | succ depth ih =>
    cases ref with
    | address a =>
      have hnode : (graphOf h)[a]? = h[a]?.map nodeOf := List.getElem?_map
      cases hcell : h[a]? with
      | none =>
        rw [hcell] at hnode
        rw [Deep.cloneDeep_none hcell, datumOf, cloneDeep_none hnode]
        exact InStep.ok hs
      | some cell =>
        rw [hcell] at hnode
        cases cell with
        | array items =>
          rw [Deep.cloneDeep_array hcell, datumOf, cloneDeep_array hnode]
          apply InStep.bind (inStep_cloneAll (fun ref _ s s' => ih ref) hs)
          intro x x' hx
          exact InStep.ok hx
        | derived prototype properties => exact (hordinary _ (List.mem_of_getElem? hcell)).elim
        | object properties =>
          have hdata : (properties.map fun property => (property.1, datumOf property.2)).map Prod.snd =
              (properties.map Prod.snd).map datumOf := by
            rw [List.map_map, List.map_map]
            rfl
          rw [Deep.cloneDeep_object hcell (fun items => nofun), Heap.enumerable_object hcell, datumOf,
            cloneDeep_object hnode, hs, hdata]
          split
          · rfl
          · refine InStep.bind (inStep_cloneAll (fun ref _ s s' => ih ref) ?_) ?_
            · rfl
            · intro x x' hx
              exact InStep.ok hx
    | _ => exact InStep.ok hs

end CloneGraph

namespace Deep

open Js Graph Evaluation CloneGraph

variable {h h' : Heap} {depth : Nat} {ref : Ref}

/-- There is room for all ways, and one way to each object. -/
def Clonable (h : Heap) (depth : Nat) (ref : Ref) : Prop :=
  (graphOf h).Fits depth (datumOf ref) ∧ (graphOf h).EachOnce (datumOf ref)

theorem returns_clone_iff (hplain : h.Plain) (hgrown : h <+: h') (href : ref.Within h) :
    Returns (clone h' depth ref) ↔ Clonable h depth ref := by
  have hstep : InStep (cloneDeep h depth ref ⟨h', []⟩) (CloneGraph.cloneDeep (graphOf h) depth (datumOf ref) ⟨graphOf h, []⟩) :=
    inStep_cloneDeep hplain.ordinary ref rfl
  rw [Clonable, ← CloneGraph.returns_clone_iff, clone, cloneDeep_of_grown hplain hgrown href, CloneGraph.clone,
    returns_map_iff fun _ => returns_pure _, returns_map_iff fun _ => returns_pure _]
  exact hstep.returns_iff

end Deep

end Coaty
