import Coaty.Evaluation
import Coaty.Js.Heap

/-!
# Prototypes

What an object has no own property for is looked up in its prototype, then in the prototype of that one, and so on. The last one is the prototype of all objects, unless a prototype has been replaced by `null` before. An assignment to `__proto__` is one to the accessor of the prototype of all objects, which replaces the prototype of the object, as long as neither the object nor one of its prototypes has a property of this name.
-/

namespace Js

open Evaluation

/-- The properties that a loop over the names of the properties of an array or object comes to. -/
def Cell.enumerable : Cell → List (Text × Ref)
  | .array items => items.mapIdx fun i item => (decimal i, item)
  | .object properties => properties
  | .derived _ properties => properties

/-- An own property of an array or object. -/
def Cell.property (cell : Cell) (name : Text) : Option Ref :=
  match cell with
  | .array items => if name = text "length" then some (.number items.length) else cell.enumerable.lookup name
  | _ => cell.enumerable.lookup name

namespace Heap

/-- The prototype of an object, if it has been replaced. -/
def prototypeAt (h : Heap) (a : Nat) : Option Ref :=
  match h[a]? with
  | some (.derived prototype _) => some prototype
  | _ => none

def lineageWithin (h : Heap) : Nat → Ref → List Ref
  | fuel + 1, .address a => .address a :: (h.prototypeAt a).elim [] (lineageWithin h fuel)
  | _, .null => [.null]
  | _, _ => []

/-- The array or object and its prototypes one after the other, up to the prototype of all objects or `null`. None of them comes twice. -/
def lineage (h : Heap) (ref : Ref) : List Ref := lineageWithin h (h.length + 1) ref

/-- An own property of the array or object, if the reference leads to one. -/
def ownAt (h : Heap) (ref : Ref) (name : Text) : Option Ref :=
  match ref with
  | .address a => (h[a]?).bind fun cell => cell.property name
  | _ => none

/-- The property of the array or object or of the first prototype that has it. -/
def find (h : Heap) (ref : Ref) (name : Text) : Option Ref := (h.lineage ref).findSome? fun other => h.ownAt other name

/-- The prototype of all objects is the last one. -/
def isRooted (h : Heap) (ref : Ref) : Bool := !(h.lineage ref).contains .null

/-- The properties of an object and those of its prototypes that are not hidden by others, which `for ... in` comes to. -/
def enumerableOf (h : Heap) : List Ref → List (Text × Ref)
  | .address a :: lineage =>
    let own := ((h[a]?).map Cell.enumerable).getD []
    own ++ (enumerableOf h lineage).filter fun property => (own.lookup property.1).isNone
  | _ => []

def enumerable (h : Heap) (ref : Ref) : List (Text × Ref) := h.enumerableOf (h.lineage ref)

def isArray (h : Heap) (ref : Ref) : Bool := (h.itemsOf ref).isSome

/-- Whether the prototype is that of all objects or `null`. -/
def isPlainObject (h : Heap) : Ref → Bool
  | .address a =>
    match h[a]? with
    | some (.object _) => true
    | some (.derived prototype _) => prototype = .null
    | _ => false
  | _ => false

/-- `obj.hasOwnProperty(name)`, where a property can hide the method, and without the prototype of all objects there is none. -/
def hasOwn (h : Heap) (a : Nat) (name : Text) : Except Error Bool :=
  if (h.find (.address a) (text "hasOwnProperty")).isSome || !h.isRooted (.address a) then .error .typeError
  else .ok ((h.propertiesAt a).lookup name).isSome

end Heap

/-! ### Assigning -/

namespace Cell

def mapProperties (f : List (Text × Ref) → List (Text × Ref)) : Cell → Cell
  | .array items => .array items
  | .object properties => .object (f properties)
  | .derived prototype properties => .derived prototype (f properties)

def withPrototype (prototype : Ref) : Cell → Cell
  | .array items => .array items
  | .object properties => .derived prototype properties
  | .derived _ properties => .derived prototype properties

end Cell

namespace Heap

/-- What the accessor of `__proto__` sets. An object cannot be among its own prototypes, and only an object or `null` can be a prototype. -/
def setPrototype (h : Heap) (a : Nat) (prototype : Ref) : Except Error Heap :=
  match prototype with
  | .null => .ok (h.modify a (Cell.withPrototype .null))
  | .address p =>
    if (h.lineage (.address p)).contains (.address a) then .error .typeError
    else .ok (h.modify a (Cell.withPrototype (.address p)))
  | _ => .ok h

/-- `obj[name] = value` -/
def assign (h : Heap) (a : Nat) (name : Text) (value : Ref) : Except Error Heap :=
  if name = text "__proto__" && (h.find (.address a) name).isNone && h.isRooted (.address a) then h.setPrototype a value
  else .ok (h.modify a (Cell.mapProperties fun properties => setProperty properties name value))

/-- `delete obj[name]` -/
def delete (h : Heap) (a : Nat) (name : Text) : Heap :=
  h.modify a (Cell.mapProperties fun properties => deleteProperty properties name)

/-! ### Objects whose prototype has not been replaced -/

variable {h : Heap} {a : Nat} {properties : List (Text × Ref)}

theorem propertiesAt_object (hcell : h[a]? = some (.object properties)) : h.propertiesAt a = properties := by
  simp only [propertiesAt, hcell]

theorem lineage_of_ordinary (hordinary : ∀ cell, h[a]? = some cell → cell.IsOrdinary) :
    h.lineage (.address a) = [.address a] := by
  have hnone : h.prototypeAt a = none := by
    unfold prototypeAt
    split
    · rename_i hcell
      exact (hordinary _ hcell).elim
    · rfl
  rw [lineage, lineageWithin, hnone]
  rfl

theorem lineage_object (hcell : h[a]? = some (.object properties)) : h.lineage (.address a) = [.address a] := by
  apply lineage_of_ordinary
  intro cell hcell'
  rw [hcell] at hcell'
  cases hcell'
  trivial

theorem find_object (hcell : h[a]? = some (.object properties)) (name : Text) :
    h.find (.address a) name = properties.lookup name := by
  rw [find, lineage_object hcell, List.findSome?_singleton, ownAt, hcell]
  rfl

theorem isRooted_object (hcell : h[a]? = some (.object properties)) : h.isRooted (.address a) = true := by
  rw [isRooted, lineage_object hcell]
  rfl

theorem enumerable_object (hcell : h[a]? = some (.object properties)) : h.enumerable (.address a) = properties := by
  rw [enumerable, lineage_object hcell, enumerableOf, hcell]
  simp [enumerableOf, Cell.enumerable]

theorem isPlainObject_of_grown {h' : Heap} (hgrown : h <+: h') {ref : Ref} (href : ref.Within h) :
    h'.isPlainObject ref = h.isPlainObject ref := by
  cases ref with
  | address a => rw [isPlainObject, isPlainObject, getElem?_of_grown hgrown (href a rfl)]
  | _ => rfl

theorem isPlainObject_object (hcell : h[a]? = some (.object properties)) : h.isPlainObject (.address a) = true := by
  rw [isPlainObject, hcell]

theorem hasOwn_object (hcell : h[a]? = some (.object properties)) (name : Text) :
    h.hasOwn a name = if (properties.lookup (text "hasOwnProperty")).isSome then .error .typeError
      else .ok (properties.lookup name).isSome := by
  rw [hasOwn, find_object hcell, isRooted_object hcell, propertiesAt_object hcell, Bool.not_true, Bool.or_false]

theorem assign_object (hcell : h[a]? = some (.object properties)) {name : Text}
    (hname : name = text "__proto__" → (properties.lookup name).isSome = true) (value : Ref) :
    h.assign a name value = .ok (h.modify a (Cell.mapProperties fun properties => setProperty properties name value)) := by
  rw [assign, find_object hcell, if_neg]
  simp only [Bool.and_eq_true, decide_eq_true_eq, not_and]
  intro ⟨hproto, hnone⟩
  rw [Option.isNone_iff_eq_none.mp hnone] at hname
  exact absurd (hname hproto) Bool.false_ne_true

theorem assign_prototype (hcell : h[a]? = some (.object properties)) (hnone : properties.lookup (text "__proto__") = none)
    (value : Ref) : h.assign a (text "__proto__") value = h.setPrototype a value := by
  rw [assign, find_object hcell, isRooted_object hcell, hnone]
  rfl

theorem setPrototype_self (hcell : h[a]? = some (.object properties)) : h.setPrototype a (.address a) = .error .typeError := by
  rw [setPrototype, lineage_object hcell, if_pos]
  simp

theorem setPrototype_address {p : Nat} (hordinary : ∀ cell ∈ h, cell.IsOrdinary) (hne : p ≠ a) :
    h.setPrototype a (.address p) = .ok (h.modify a (Cell.withPrototype (.address p))) := by
  have hlineage : h.lineage (.address p) = [.address p] :=
    lineage_of_ordinary fun cell hcell => hordinary cell (List.mem_of_getElem? hcell)
  rw [setPrototype, hlineage, if_neg]
  simp [hne.symm]

theorem mapProperties_refs {f : List (Text × Ref) → List (Text × Ref)} {value : Ref}
    (hf : ∀ properties, ∀ ref ∈ (f properties).map Prod.snd, ref = value ∨ ref ∈ properties.map Prod.snd) {cell : Cell} {ref : Ref}
    (href : ref ∈ (cell.mapProperties f).refs) : ref = value ∨ ref ∈ cell.refs := by
  cases cell with
  | array items => exact .inr href
  | object properties => exact hf properties ref href
  | derived prototype properties =>
    obtain rfl | href := List.mem_cons.mp href
    · exact .inr List.mem_cons_self
    · exact (hf properties ref href).imp_right (List.mem_cons_of_mem _)

end Heap

end Js
