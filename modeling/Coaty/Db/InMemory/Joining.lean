import Coaty.Com.ContextFilters
import Coaty.Db.InMemory.Find
import Coaty.Util.CloneHeap
import Mathlib.Data.List.Forall2

/-!
# Joining objects in place

A result object is augmented in place, one join condition after the other, by copies of the objects that it refers to. What is looked up are references on the heap, so this tells objects that are shared from those that are copied. Each condition is read from the object as the conditions before have left it.
-/

namespace Coaty

open Js Heap Value Evaluation

namespace InMemory

namespace Joining

/-- What reading a property gives: what an own property refers to, or an inherited member that is no JSON value. -/
inductive Property where
  | own (ref : Ref)
  | inherited (member : Member)

namespace Property

def undefined : Property := .own .undefined

/-- `===` -/
def isSame : Property → Property → Bool
  | .own x, .own y => x = y
  | .inherited x, .inherited y => InMemory.isSame x y
  | _, _ => false

end Property

structure ResultObject where
  heap : Heap
  address : Nat

variable (engine : Engine) (depth : Nat)

/-! ### Reading properties -/

def objectMethod (name : Text) : Property :=
  match engine.objectMethods name with
  | some source => .inherited (.function source)
  | none => .undefined

/-- What the accessor of `__proto__` gets. -/
def prototypeOf (h : Heap) (a : Nat) : Property :=
  match h[a]? with
  | some (.derived prototype _) => .own prototype
  | some (.array _) => .inherited .arrayPrototype
  | _ => .inherited .objectPrototype

/-- What is read from the prototypes of all arrays and of all objects, if the last prototype is not `null`. -/
def readInherited (h : Heap) (a : Nat) (name : Text) : Property :=
  if !h.isRooted (.address a) then .undefined
  else if name = text "__proto__" then prototypeOf h a
  else if (h.lineage (.address a)).any h.isArray then
    (engine.arrayMethods name).elim (objectMethod engine name) fun source => .inherited (.function source)
  else objectMethod engine name

/-- `obj[name]` for an object or array. -/
def readProperty (h : Heap) (obj : Ref) (name : Text) : Property :=
  match obj with
  | .address a => (h.find obj name).elim (readInherited engine h a name) .own
  | _ => .undefined

/-- The property as what it is converted from. -/
def memberOf (h : Heap) : Property → Option Member
  | .own ref => (h.view depth ref).map .value
  | .inherited member => some member

/-- What a loop over the value goes through, which reads its length and its indices. A function has no items. -/
def iterated (h : Heap) : Property → Except Error (List Property)
  | .own .undefined => .error .typeError
  | .own .null => .error .typeError
  | .own (.string s) => .ok (s.map fun c => .own (.string [c]))
  | .own (.address a) =>
    match h[a]? with
    | some (.array items) => .ok (items.map .own)
    | _ => do
      let count ← indicesBelow engine (memberOf depth h (readProperty engine h (.address a) (text "length")))
      return (List.range count).map fun i => readProperty engine h (.address a) (decimal i)
  | _ => .ok []

def objectProperty (name : Text) : Property :=
  if name = text "__proto__" then .inherited .objectPrototype else objectMethod engine name

/-! ### Joining -/

/-- The loop over the objects of a collection. -/
def joinMatching (jc : DbJoinCondition) (localValue : Property) : List Ref → Heap → Except Error (List Ref × Heap)
  | [], h => .ok ([], h)
  | fo :: fos, h =>
    if (readProperty engine h fo jc.fromProperty).isSame localValue then do
      let (joinedObj, h) ← Deep.clone h depth fo
      if jc.isOneToOneRelation then return ([joinedObj], h)
      else
        let (joinedObjs, h) ← joinMatching jc localValue fos h
        return (joinedObj :: joinedObjs, h)
    else joinMatching jc localValue fos h

/-- `fromColl.objects.get(localValue)` -/
def getById (fromColl : Collection) : Property → Option Ref
  | .own (.string objectId) => fromColl.get objectId
  | _ => none

/-- The copies of the objects that are joined on a local value. Looking up an object by its id is optimized. -/
def joinOn (fromColl : Collection) (jc : DbJoinCondition) (localValue : Property) (h : Heap) :
    Except Error (List Ref × Heap) :=
  match localValue with
  | .own .undefined => .ok ([], h)
  | localValue =>
    if jc.fromProperty = text "objectId" then
      match getById fromColl localValue with
      | some fo => do
        let (joinedObj, h) ← Deep.clone h depth fo
        return ([joinedObj], h)
      | none => .ok ([], h)
    else joinMatching engine depth jc localValue fromColl.values h

def joinAll (fromColl : Collection) (jc : DbJoinCondition) : List Property → Heap → Except Error (List Ref × Heap)
  | [], h => .ok ([], h)
  | localValue :: localValues, h => do
    let (joinedObjs, h) ← joinOn engine depth fromColl jc localValue h
    let (rest, h) ← joinAll fromColl jc localValues h
    return (joinedObjs ++ rest, h)

namespace ResultObject

variable (s : ResultObject)

def properties : List (Text × Ref) := s.heap.propertiesAt s.address

/-- The prototype of the object has not been replaced. -/
def IsOrdinary : Prop := ∃ properties, s.heap[s.address]? = some (.object properties)

def read (name : Text) : Property := readProperty engine s.heap (.address s.address) name

/-- `obj[name] = value` -/
def assign (name : Text) (value : Ref) : Except Error ResultObject := do
  let heap ← s.heap.assign s.address name value
  return { s with heap }

/-- `delete obj[name]` -/
def delete (name : Text) : ResultObject := { s with heap := s.heap.delete s.address name }

end ResultObject

def joinProperty (collections : Map Text Collection) (s : ResultObject) (jc : DbJoinCondition) :
    Except Rejection ResultObject :=
  match collections.get jc.fromCollection with
  | none => .error (.message (text "failed to join from collection '" ++ jc.fromCollection ++ text "': not existing"))
  | some fromColl => Except.mapError .error do
    let localProperty := s.read engine jc.localProperty
    let localValues ← if jc.isLocalPropertyArray then iterated engine depth s.heap localProperty else .ok [localProperty]
    let (joinedObjs, heap) ← joinAll engine depth fromColl jc localValues s.heap
    if jc.isOneToOneRelation && !jc.isLocalPropertyArray then
      match joinedObjs with
      | [] => return ResultObject.delete { s with heap } jc.asProperty
      | joinedObj :: _ => ResultObject.assign { s with heap } jc.asProperty joinedObj
    else ResultObject.assign { s with heap := heap ++ [Cell.array joinedObjs] } jc.asProperty (.address heap.length)

def joinObjectProperties (collections : Map Text Collection) : ResultObject → DbJoinConditions → Except Rejection ResultObject
  | s, .none => .ok s
  | s, .one jc => joinProperty engine depth collections s jc
  | s, .many jcs => jcs.foldlM (joinProperty engine depth collections) s

/-! ### Resolved references -/

def conditions : DbJoinConditions → List DbJoinCondition
  | .none => []
  | .one jc => [jc]
  | .many jcs => jcs

/-- The local values, none if the local property is missing. -/
def localValues (s : ResultObject) (jc : DbJoinCondition) : List Ref :=
  let localProperty := s.heap.read (.address s.address) jc.localProperty
  (if jc.isLocalPropertyArray then (s.heap.itemsOf localProperty).getD [] else [localProperty]).filter (· ≠ .undefined)

/-- The objects of the collection whose own property is identical to the local value, or only the first one. -/
def scan (h : Heap) (fromColl : Collection) (jc : DbJoinCondition) (localValue : Ref) : List Ref :=
  let found := fromColl.values.filter fun fo => h.read fo jc.fromProperty = localValue
  if jc.isOneToOneRelation then found.take 1 else found

def related (s : ResultObject) (fromColl : Collection) (jc : DbJoinCondition) : List Ref :=
  (localValues s jc).flatMap (scan s.heap fromColl jc)

/-- A new object that reads like the other one. -/
def IsCopy (h h' : Heap) (fo copy : Ref) : Prop :=
  copy.Within h' ∧ copy.In (h.length ≤ ·) ∧ h'.view depth copy = h.view depth fo

def Holds (h : Heap) (jc : DbJoinCondition) (properties : List (Text × Ref)) (joinedObjs : List Ref) : Prop :=
  if jc.isOneToOneRelation && !jc.isLocalPropertyArray then properties.lookup jc.asProperty = joinedObjs.head?
  else ∃ a, properties.lookup jc.asProperty = some (.address a) ∧ h[a]? = some (.array joinedObjs)

/-- Only the properties of the object have been changed. -/
structure Frame (s s' : ResultObject) : Prop where
  address : s'.address = s.address
  prototype : s'.heap.prototypeAt s'.address = s.heap.prototypeAt s.address
  cells : ∀ a, a < s.heap.length → a ≠ s.address → s'.heap[a]? = s.heap[a]?

/-- A join condition has been applied as it is documented. -/
structure Joined (collections : Map Text Collection) (fromColl : Collection) (jc : DbJoinCondition)
    (s s' : ResultObject) : Prop where
  /-- Looking up an object by its id is the same as scanning the collection. -/
  lookup : jc.fromProperty = text "objectId" → ∀ localValue ∈ localValues s jc,
    (getById fromColl (.own localValue)).toList = scan s.heap fromColl jc localValue
  holds : ∃ joinedObjs, List.Forall₂ (IsCopy depth s.heap s'.heap) (related s fromColl jc) joinedObjs ∧
    Holds s'.heap jc s'.properties joinedObjs
  /-- The copies lead to no object that has been there before. -/
  separate : s'.heap.EnclosedFrom s.heap.length
  /-- All other properties of the object are unchanged, and so are all other objects. -/
  others : ∀ name, name ≠ jc.asProperty → s'.properties.lookup name = s.properties.lookup name
  frame : Frame s s'
  stored : ∀ name coll, collections.get name = some coll → ∀ fo ∈ coll.values, ∀ depth,
    s'.heap.view depth fo = s.heap.view depth fo

/-- The conditions are applied as they are documented, one after the other. -/
def Resolves (collections : Map Text Collection) : List DbJoinCondition → ResultObject → ResultObject → Prop
  | [], s, s' => s' = s
  | jc :: jcs, s, s' => ∃ fromColl s₁, collections.get jc.fromCollection = some fromColl ∧
      joinProperty engine depth collections s jc = .ok s₁ ∧
      Joined depth collections fromColl jc s s₁ ∧ Resolves collections jcs s₁ s'

/-- The references of the object are resolved. -/
structure AllJoined (collections : Map Text Collection) (jcs : List DbJoinCondition) (s s' : ResultObject) : Prop where
  inTurn : Resolves engine depth collections jcs s s'
  /-- In the end the property of a condition holds what has been joined, unless a later condition has the same one. -/
  holds : ∀ before jc after, jcs = before ++ jc :: after → (∀ later ∈ after, later.asProperty ≠ jc.asProperty) →
    ∃ fromColl s₁ joinedObjs, collections.get jc.fromCollection = some fromColl ∧
      Resolves engine depth collections before s s₁ ∧
      List.Forall₂ (IsCopy depth s₁.heap s'.heap) (related s₁ fromColl jc) joinedObjs ∧
      Holds s'.heap jc s'.properties joinedObjs
  others : ∀ name, (∀ jc ∈ jcs, jc.asProperty ≠ name) → s'.properties.lookup name = s.properties.lookup name
  stored : ∀ name coll, collections.get name = some coll → ∀ fo ∈ coll.values, ∀ depth,
    s'.heap.view depth fo = s.heap.view depth fo

/-! ### When references are resolved -/

/-- The local property is missing or an array, if it is to be one. -/
def Admits (s : ResultObject) (jc : DbJoinCondition) : Prop :=
  jc.isLocalPropertyArray = true → s.heap.read (.address s.address) jc.localProperty = .undefined ∨
    ∃ items, s.heap.itemsOf (s.heap.read (.address s.address) jc.localProperty) = some items

/-- Objects are in the collection under their ids, as far as the local value is one. -/
structure UnderId (h : Heap) (fromColl : Collection) (jc : DbJoinCondition) (localValue : Ref) : Prop where
  own : ∀ fo, getById fromColl (.own localValue) = some fo → h.read fo jc.fromProperty = localValue
  /-- An object that has the id is the first one and found under it, or comes after one in a one-to-one relation. -/
  others : ∀ before fo after, fromColl.values = before ++ fo :: after → h.read fo jc.fromProperty = localValue →
    (jc.isOneToOneRelation = true ∧ ∃ other ∈ before, h.read other jc.fromProperty = localValue) ∨
    ((∀ other ∈ before, h.read other jc.fromProperty ≠ localValue) ∧ getById fromColl (.own localValue) = some fo)

/-- The join condition can be applied as it is documented. -/
structure Resolvable (fromColl : Collection) (jc : DbJoinCondition) (s : ResultObject) : Prop where
  /-- A local array is not missing. -/
  present : jc.isLocalPropertyArray = true → s.read engine jc.localProperty ≠ .undefined
  byId : jc.fromProperty = text "objectId" → ∀ localValue ∈ localValues s jc, UnderId s.heap fromColl jc localValue
  /-- No object inherits the same member as the result object. -/
  inherited : jc.fromProperty ≠ text "objectId" → jc.isLocalPropertyArray = false →
    ∀ member, s.read engine jc.localProperty = .inherited member → ∀ fo ∈ fromColl.values,
      (readProperty engine s.heap fo jc.fromProperty).isSame (.inherited member) = false
  clonable : ∀ fo ∈ related s fromColl jc, Deep.Clonable s.heap depth fo
  lossless : ∀ fo ∈ related s fromColl jc, Deep.Lossless s.heap depth fo
  /-- The property is not the one that sets the prototype, unless there is nothing to set. -/
  settable : jc.asProperty = text "__proto__" → s.properties.lookup (text "__proto__") = none →
    (jc.isOneToOneRelation && !jc.isLocalPropertyArray) = true ∧ related s fromColl jc = []

/-- The collections that are joined from exist, and the local properties that are to be arrays are. -/
def WithinDomain (collections : Map Text Collection) (s : ResultObject) : List DbJoinCondition → Prop
  | [] => True
  | jc :: jcs => (∃ fromColl, collections.get jc.fromCollection = some fromColl) ∧ Admits s jc ∧
      ∀ s', joinProperty engine depth collections s jc = .ok s' → WithinDomain collections s' jcs

/-- Each condition can be applied as it is documented to what the ones before make of the object. -/
def AllResolvable (collections : Map Text Collection) (s : ResultObject) : List DbJoinCondition → Prop
  | [] => True
  | jc :: jcs => (∀ fromColl, collections.get jc.fromCollection = some fromColl → Resolvable engine depth fromColl jc s) ∧
      ∀ s', joinProperty engine depth collections s jc = .ok s' → AllResolvable collections s' jcs

/-- A result object as a query makes it: a copy, which nothing that is stored leads to. -/
structure Placed (collections : Map Text Collection) (s : ResultObject) : Prop where
  plain : s.heap.Plain
  object : s.IsOrdinary
  stored : ∀ name coll, collections.get name = some coll → ∀ fo ∈ coll.values, s.heap.IsObject fo
  separate : ∀ name coll, collections.get name = some coll → ∀ fo ∈ coll.values, ∀ a, fo = .address a →
    ¬ s.heap.Reaches a s.address

variable {engine} {depth}

/-! ### Copying some objects in turn -/

def cloneEach (depth : Nat) : List Ref → Heap → Except Error (List Ref × Heap)
  | [], h => .ok ([], h)
  | fo :: fos, h => do
    let (copy, h) ← Deep.clone h depth fo
    let (copies, h) ← cloneEach depth fos h
    return (copy :: copies, h)

section Copies

variable {h h₀ h' : Heap} {start : Nat}

theorem cloneEach_append (xs ys : List Ref) (h : Heap) :
    cloneEach depth (xs ++ ys) h = (do
      let (copies, h) ← cloneEach depth xs h
      let (copies', h) ← cloneEach depth ys h
      return (copies ++ copies', h)) := by
  induction xs generalizing h with
  | nil =>
    simp only [List.nil_append, cloneEach, ok_bind]
    cases cloneEach depth ys h <;> rfl
  | cons x xs ih =>
    rw [List.cons_append, cloneEach, cloneEach]
    cases Deep.clone h depth x with
    | error e => rfl
    | ok outcome =>
      simp only [ok_bind, ih]
      cases cloneEach depth xs outcome.2 with
      | error e => rfl
      | ok rest =>
        simp only [ok_bind, pure_bind]
        cases cloneEach depth ys rest.2 <;> rfl

theorem cloneEach_grown {fos copies : List Ref} (hclosed : h.Closed) (hclone : cloneEach depth fos h = .ok (copies, h')) :
    h <+: h' ∧ h'.Closed := by
  induction fos generalizing h copies with
  | nil =>
    cases hclone
    exact ⟨List.prefix_refl _, hclosed⟩
  | cons fo fos ih =>
    rw [cloneEach, bind_eq_ok_iff] at hclone
    obtain ⟨⟨copy, h₁⟩, hfirst, hclone⟩ := hclone
    rw [bind_eq_ok_iff] at hclone
    obtain ⟨⟨copies', h₂⟩, hrest, hclone⟩ := hclone
    cases hclone
    obtain ⟨hgrown₁, hclosed₁⟩ := Deep.clone_grown hclosed hfirst
    obtain ⟨hgrown₂, hclosed₂⟩ := ih hclosed₁ hrest
    exact ⟨hgrown₁.trans hgrown₂, hclosed₂⟩

/-- A copy of an object, which reads like the object exactly if this has no property `__proto__`. -/
structure CopiedTo (depth : Nat) (h₀ : Heap) (start : Nat) (h' : Heap) (fo copy : Ref) : Prop where
  address : ∃ a, copy = .address a
  within : copy.Within h'
  fresh : copy.In (start ≤ ·)
  view_eq_iff : h'.view depth copy = h₀.view depth fo ↔ Deep.Lossless h₀ depth fo

/-- The heap after some objects have been copied. -/
structure Copied (depth : Nat) (h₀ h : Heap) (start : Nat) (h' : Heap) (fos copies : List Ref) : Prop where
  grown : h <+: h'
  closed : h'.Closed
  enclosed : h'.EnclosedFrom start
  copies : List.Forall₂ (CopiedTo depth h₀ start h') fos copies
  ordinary : (∀ fo ∈ fos, Deep.Lossless h₀ depth fo) → (∀ cell ∈ h, cell.IsOrdinary) → ∀ cell ∈ h', cell.IsOrdinary

theorem copied_of_cloneEach {fos copies : List Ref} (hplain₀ : h₀.Plain) (hgrown : h₀ <+: h) (hclosed : h.Closed)
    (hstart : start ≤ h.length) (henclosed : h.EnclosedFrom start) (hlacks : h.LacksFrom (text "__proto__") start)
    (hfos : ∀ fo ∈ fos, h₀.IsObject fo)
    (hclone : cloneEach depth fos h = .ok (copies, h')) : Copied depth h₀ h start h' fos copies := by
  induction fos generalizing h copies with
  | nil =>
    cases hclone
    exact ⟨List.prefix_refl _, hclosed, henclosed, .nil, fun _ => id⟩
  | cons fo fos ih =>
    rw [List.forall_mem_cons] at hfos
    rw [cloneEach, bind_eq_ok_iff] at hclone
    obtain ⟨⟨copy, h₁⟩, hfirst, hclone⟩ := hclone
    rw [bind_eq_ok_iff] at hclone
    obtain ⟨⟨copies', h₂⟩, hrest, hclone⟩ := hclone
    cases hclone
    have hmade := Deep.clone_spec hplain₀ hgrown hclosed hfos.1.within hfirst
    obtain ⟨henclosed₁, hlacks₁⟩ := Deep.clone_grows hstart hclosed henclosed hlacks hfirst
    have hcopied := ih (hgrown.trans hmade.grown) hmade.closed (hstart.trans hmade.grown.length_le) henclosed₁ hlacks₁
      hfos.2 hrest
    refine ⟨hmade.grown.trans hcopied.grown, hcopied.closed, hcopied.enclosed, .cons ⟨?_, ?_, ?_, ?_⟩ hcopied.copies, ?_⟩
    · obtain ⟨a, properties, rfl, hcell⟩ := hfos.1
      exact Deep.exists_address_of_clone (within_of_grown hgrown hfos.1.within a rfl) hfirst
    · exact within_of_grown hcopied.grown hmade.within
    · exact hmade.fresh.mono fun a ha => hstart.trans ha
    · rw [view_of_grown hmade.closed hcopied.grown depth hmade.within]
      exact hmade.view_eq_iff
    · intro hlossless hordinary
      rw [List.forall_mem_cons] at hlossless
      exact hcopied.ordinary hlossless.2 (hmade.ordinary hlossless.1 hordinary)

theorem returns_cloneEach_iff {fos : List Ref} (hplain₀ : h₀.Plain) (hgrown : h₀ <+: h) (hclosed : h.Closed)
    (hfos : ∀ fo ∈ fos, h₀.IsObject fo) :
    Returns (cloneEach depth fos h) ↔ ∀ fo ∈ fos, Deep.Clonable h₀ depth fo := by
  induction fos generalizing h with
  | nil => exact iff_of_true (returns_ok _) (by simp)
  | cons fo fos ih =>
    rw [List.forall_mem_cons] at hfos ⊢
    rw [cloneEach, returns_bind_iff, ← Deep.returns_clone_iff hplain₀ hgrown hfos.1.within]
    constructor
    · intro h
      obtain ⟨⟨copy, h₁⟩, hfirst, hrest⟩ := h
      obtain ⟨hgrown₁, hclosed₁⟩ := Deep.clone_grown hclosed hfirst
      obtain ⟨outcome, hrest, -⟩ := returns_bind_iff.mp hrest
      exact ⟨⟨_, hfirst⟩, (ih (hgrown.trans hgrown₁) hclosed₁ hfos.2).mp ⟨outcome, hrest⟩⟩
    · intro h
      obtain ⟨⟨⟨copy, h₁⟩, hfirst⟩, hall⟩ := h
      obtain ⟨hgrown₁, hclosed₁⟩ := Deep.clone_grown hclosed hfirst
      obtain ⟨outcome, hrest⟩ := (ih (hgrown.trans hgrown₁) hclosed₁ hfos.2).mpr hall
      refine ⟨_, hfirst, ?_⟩
      simp only [hrest]
      exact returns_ok _

end Copies

/-! ### What is found -/

variable {fromColl : Collection} {jc : DbJoinCondition} {localValue : Property}

/-- The objects that the code finds for a local value. -/
def foundOn (engine : Engine) (h : Heap) (fromColl : Collection) (jc : DbJoinCondition) (localValue : Property) : List Ref :=
  match localValue with
  | .own .undefined => []
  | localValue =>
    if jc.fromProperty = text "objectId" then (getById fromColl localValue).toList
    else
      let found := fromColl.values.filter fun fo => (readProperty engine h fo jc.fromProperty).isSame localValue
      if jc.isOneToOneRelation then found.take 1 else found

section Found

variable {h h₀ : Heap}

theorem readProperty_object {h : Heap} {a : Nat} {properties : List (Text × Ref)} (hcell : h[a]? = some (.object properties))
    (name : Text) :
    readProperty engine h (.address a) name = (properties.lookup name).elim (objectProperty engine name) .own := by
  have hinherited : readInherited engine h a name = objectProperty engine name := by
    rw [readInherited, isRooted_object hcell, lineage_object hcell, prototypeOf, hcell, objectProperty]
    simp [Heap.isArray, itemsOf, hcell]
  rw [readProperty, find_object hcell, hinherited]

theorem readProperty_of_grown (hgrown : h₀ <+: h) {fo : Ref} (hfo : h₀.IsObject fo) (name : Text) :
    readProperty engine h fo name = readProperty engine h₀ fo name := by
  have hwithin := hfo.within
  obtain ⟨a, properties, rfl, hcell⟩ := hfo
  rw [readProperty_object hcell, readProperty_object ((getElem?_of_grown hgrown (hwithin a rfl)).trans hcell)]

theorem joinMatching_eq (hgrown : h₀ <+: h) (hclosed : h.Closed) {fos : List Ref} (hfos : ∀ fo ∈ fos, h₀.IsObject fo) :
    joinMatching engine depth jc localValue fos h =
      cloneEach depth
        (let found := fos.filter fun fo => (readProperty engine h₀ fo jc.fromProperty).isSame localValue
          if jc.isOneToOneRelation then found.take 1 else found) h := by
  induction fos generalizing h with
  | nil =>
    rw [joinMatching]
    cases jc.isOneToOneRelation <;> rfl
  | cons fo fos ih =>
    rw [List.forall_mem_cons] at hfos
    rw [joinMatching, readProperty_of_grown hgrown hfos.1, List.filter_cons]
    by_cases hsame : (readProperty engine h₀ fo jc.fromProperty).isSame localValue = true
    · rw [if_pos hsame, if_pos hsame]
      cases hone : jc.isOneToOneRelation with
      | true =>
        simp only [if_true, List.take_succ_cons, List.take_zero, cloneEach]
        cases Deep.clone h depth fo <;> rfl
      | false =>
        simp only [Bool.false_eq_true, if_false, cloneEach]
        cases hclone : Deep.clone h depth fo with
        | error e => rfl
        | ok outcome =>
          obtain ⟨copy, h₁⟩ := outcome
          obtain ⟨hgrown₁, hclosed₁⟩ := Deep.clone_grown hclosed hclone
          have hrest := ih (hgrown.trans hgrown₁) hclosed₁ hfos.2
          simp only [hone, Bool.false_eq_true, if_false] at hrest
          simp only [ok_bind, hrest]
    · rw [if_neg hsame, if_neg hsame]
      exact ih hgrown hclosed hfos.2

theorem joinOn_eq (hgrown : h₀ <+: h) (hclosed : h.Closed) (hfos : ∀ fo ∈ fromColl.values, h₀.IsObject fo) :
    joinOn engine depth fromColl jc localValue h = cloneEach depth (foundOn engine h₀ fromColl jc localValue) h := by
  unfold joinOn foundOn
  split
  · rfl
  · split
    · cases getById fromColl localValue with
      | none => rfl
      | some fo =>
        simp only [Option.toList_some, cloneEach]
        cases Deep.clone h depth fo <;> rfl
    · exact joinMatching_eq hgrown hclosed hfos

theorem getById_mem (fo : Ref) (hget : getById fromColl localValue = some fo) : fo ∈ fromColl.values := by
  unfold getById at hget
  split at hget
  · exact Map.mem_values.mpr ⟨_, hget⟩
  · cases hget

theorem foundOn_subset : ∀ fo ∈ foundOn engine h₀ fromColl jc localValue, fo ∈ fromColl.values := by
  intro fo hfo
  unfold foundOn at hfo
  split at hfo
  · cases hfo
  · split at hfo
    · exact getById_mem fo (Option.mem_toList.mp hfo)
    · split at hfo
      · exact List.mem_of_mem_filter (List.mem_of_mem_take hfo)
      · exact List.mem_of_mem_filter hfo

theorem joinAll_eq (hgrown : h₀ <+: h) (hclosed : h.Closed)
    (hfos : ∀ fo ∈ fromColl.values, h₀.IsObject fo) (localValues : List Property) :
    joinAll engine depth fromColl jc localValues h =
      cloneEach depth (localValues.flatMap (foundOn engine h₀ fromColl jc)) h := by
  induction localValues generalizing h with
  | nil => rfl
  | cons localValue localValues ih =>
    rw [joinAll, joinOn_eq hgrown hclosed hfos, List.flatMap_cons, cloneEach_append]
    cases hfirst : cloneEach depth (foundOn engine h₀ fromColl jc localValue) h with
    | error e => rfl
    | ok outcome =>
      obtain ⟨copies, h₁⟩ := outcome
      obtain ⟨hgrown₁, hclosed₁⟩ := cloneEach_grown hclosed hfirst
      simp only [ok_bind, ih (hgrown.trans hgrown₁) hclosed₁]

end Found

/-! ### What is found is related -/

section Related

variable {s : ResultObject}

theorem isSame_own {h : Heap} {fo localValue : Ref} (hfo : h.IsObject fo) (hlocal : localValue ≠ .undefined) (name : Text) :
    (readProperty engine h fo name).isSame (.own localValue) = decide (h.read fo name = localValue) := by
  have hinherited : (objectProperty engine name).isSame (.own localValue) = decide (Ref.undefined = localValue) := by
    rw [objectProperty]
    split
    · simp [Property.isSame, hlocal.symm]
    · rw [objectMethod]
      split
      · simp [Property.isSame, hlocal.symm]
      · rfl
  obtain ⟨a, properties, rfl, hcell⟩ := hfo
  rw [readProperty_object hcell, Heap.read, propertiesAt_object hcell]
  cases properties.lookup name with
  | none => exact hinherited
  | some value => rfl

theorem foundOn_own {localValue : Ref} (hfos : ∀ fo ∈ fromColl.values, s.heap.IsObject fo) (hlocal : localValue ≠ .undefined)
    (hbyId : jc.fromProperty = text "objectId" →
      (getById fromColl (.own localValue)).toList = scan s.heap fromColl jc localValue) :
    foundOn engine s.heap fromColl jc (.own localValue) = scan s.heap fromColl jc localValue := by
  unfold foundOn
  split
  · rename_i hundefined
    cases hundefined
    exact absurd rfl hlocal
  · split
    · rename_i hid
      exact hbyId hid
    · have hfound : (fromColl.values.filter fun fo => (readProperty engine s.heap fo jc.fromProperty).isSame (.own localValue)) =
          fromColl.values.filter fun fo => s.heap.read fo jc.fromProperty = localValue :=
        List.filter_congr fun fo hfo => isSame_own (hfos fo hfo) hlocal jc.fromProperty
      simp only [hfound, scan]

theorem flatMap_foundOn_own {refs : List Ref} (hfos : ∀ fo ∈ fromColl.values, s.heap.IsObject fo)
    (hbyId : jc.fromProperty = text "objectId" → ∀ localValue ∈ refs.filter (· ≠ .undefined),
      (getById fromColl (.own localValue)).toList = scan s.heap fromColl jc localValue) :
    (refs.map Property.own).flatMap (foundOn engine s.heap fromColl jc) =
      (refs.filter (· ≠ .undefined)).flatMap (scan s.heap fromColl jc) := by
  induction refs with
  | nil => rfl
  | cons ref refs ih =>
    rw [List.map_cons, List.flatMap_cons]
    by_cases hundefined : ref = .undefined
    · subst hundefined
      rw [List.filter_cons_of_neg (by simp)] at hbyId ⊢
      exact ih hbyId
    · rw [List.filter_cons_of_pos (by simp [hundefined])] at hbyId ⊢
      rw [List.flatMap_cons, foundOn_own hfos hundefined fun hid => hbyId hid ref List.mem_cons_self,
        ih fun hid localValue hmem => hbyId hid localValue (List.mem_cons_of_mem _ hmem)]

/-- The local values as the code goes through them. -/
def localProperties (engine : Engine) (depth : Nat) (s : ResultObject) (jc : DbJoinCondition) : Except Error (List Property) :=
  if jc.isLocalPropertyArray then iterated engine depth s.heap (s.read engine jc.localProperty)
  else .ok [s.read engine jc.localProperty]

theorem iterated_of_itemsOf {h : Heap} {ref : Ref} {items : List Ref} (hitems : h.itemsOf ref = some items) :
    iterated engine depth h (.own ref) = .ok (items.map .own) := by
  cases ref with
  | address a =>
    rw [itemsOf] at hitems
    split at hitems
    · rename_i hcell
      cases hitems
      simp only [iterated, hcell]
    · cases hitems
  | _ => cases hitems

theorem ResultObject.IsOrdinary.read (hobject : s.IsOrdinary) (name : Text) :
    s.read engine name = (s.properties.lookup name).elim (objectProperty engine name) .own := by
  obtain ⟨properties, hcell⟩ := hobject
  rw [ResultObject.read, readProperty_object hcell, ResultObject.properties, propertiesAt_object hcell]

theorem read_of_lookup (hobject : s.IsOrdinary) {name : Text} {ref : Ref} (h : s.properties.lookup name = some ref) :
    s.read engine name = .own ref ∧ s.heap.read (.address s.address) name = ref := by
  have hlookup : (s.heap.propertiesAt s.address).lookup name = some ref := h
  rw [hobject.read, Heap.read, h, hlookup]
  exact ⟨rfl, rfl⟩

theorem read_of_lookup_none (hobject : s.IsOrdinary) {name : Text} (h : s.properties.lookup name = none) :
    (s.read engine name = .undefined ∨ ∃ member, s.read engine name = .inherited member) ∧
      s.heap.read (.address s.address) name = .undefined := by
  have hlookup : (s.heap.propertiesAt s.address).lookup name = none := h
  rw [hobject.read, Heap.read, h, hlookup]
  refine ⟨?_, rfl⟩
  rw [Option.elim_none, objectProperty]
  split
  · exact .inr ⟨_, rfl⟩
  · rw [objectMethod]
    split
    · exact .inr ⟨_, rfl⟩
    · exact .inl rfl

/-- What the code goes through: nothing is missing, an inherited member, or own values. -/
inductive LocalProperties (engine : Engine) (depth : Nat) (s : ResultObject) (jc : DbJoinCondition) : Prop
  | missing (hread : s.read engine jc.localProperty = .undefined) (hlocal : localValues s jc = [])
    (hlocals : localProperties engine depth s jc =
      if jc.isLocalPropertyArray then .error .typeError else .ok [.undefined])
  | inherited (member : Member) (hread : s.read engine jc.localProperty = .inherited member) (hlocal : localValues s jc = [])
    (hlocals : localProperties engine depth s jc =
      .ok (if jc.isLocalPropertyArray then [] else [.inherited member]))
  | own (refs : List Ref) (hread : s.read engine jc.localProperty ≠ .undefined)
    (hlocal : localValues s jc = refs.filter (· ≠ .undefined))
    (hlocals : localProperties engine depth s jc = .ok (refs.map .own))

theorem localProperties_cases (hobject : s.IsOrdinary) (hadmits : Admits s jc) :
    LocalProperties engine depth s jc := by
  cases hlookup : s.properties.lookup jc.localProperty with
  | none =>
    obtain ⟨hread, hheap⟩ := read_of_lookup_none hobject hlookup
    have hlocal : localValues s jc = [] := by
      rw [localValues, hheap]
      cases jc.isLocalPropertyArray <;> rfl
    obtain hread | ⟨member, hread⟩ := hread
    · refine .missing hread hlocal ?_
      rw [localProperties, hread]
      rfl
    · refine .inherited member hread hlocal ?_
      rw [localProperties, hread]
      cases jc.isLocalPropertyArray <;> rfl
  | some ref =>
    obtain ⟨hread, hheap⟩ := read_of_lookup hobject hlookup
    by_cases hundefined : ref = .undefined
    · subst hundefined
      refine .missing hread ?_ ?_
      · rw [localValues, hheap]
        cases jc.isLocalPropertyArray <;> rfl
      · rw [localProperties, hread]
        rfl
    · have hpresent : s.read engine jc.localProperty ≠ .undefined := by
        rw [hread]
        intro heq
        cases heq
        exact hundefined rfl
      cases harray : jc.isLocalPropertyArray with
      | false =>
        refine .own [ref] hpresent ?_ ?_
        · rw [localValues, hheap, harray]
          rfl
        · rw [localProperties, hread, harray]
          rfl
      | true =>
        have hitems := hadmits harray
        rw [hheap, or_iff_right hundefined] at hitems
        obtain ⟨items, hitems⟩ := hitems
        refine .own items hpresent ?_ ?_
        · rw [localValues, hheap, harray, hitems]
          rfl
        · rw [localProperties, hread, harray, if_pos rfl]
          exact iterated_of_itemsOf hitems

theorem returns_localProperties_iff (hobject : s.IsOrdinary) (hadmits : Admits s jc) :
    Returns (localProperties engine depth s jc) ↔
      (jc.isLocalPropertyArray = true → s.read engine jc.localProperty ≠ .undefined) := by
  have hcases : LocalProperties engine depth s jc := localProperties_cases hobject hadmits
  cases hcases with
  | missing hread _ hlocals =>
    rw [hlocals, hread]
    cases jc.isLocalPropertyArray <;> simp
  | inherited member hread _ hlocals =>
    rw [hlocals, hread]
    exact iff_of_true (returns_ok _) fun _ => nofun
  | own refs hread _ hlocals =>
    rw [hlocals]
    exact iff_of_true (returns_ok _) fun _ => hread

theorem foundOn_inherited {member : Member}
    (hinherited : jc.fromProperty ≠ text "objectId" → ∀ fo ∈ fromColl.values,
      (readProperty engine s.heap fo jc.fromProperty).isSame (.inherited member) = false) :
    foundOn engine s.heap fromColl jc (.inherited member) = [] := by
  unfold foundOn
  split
  · rfl
  · split
    · rfl
    · rename_i hid
      have hnil : fromColl.values.filter
          (fun fo => (readProperty engine s.heap fo jc.fromProperty).isSame (.inherited member)) = [] := by
        rw [List.filter_eq_nil_iff]
        intro fo hfo
        rw [hinherited hid fo hfo]
        exact Bool.false_ne_true
      simp only [hnil, List.take_nil, ite_self]

theorem inherited_of_foundOn_eq_nil {h : Heap} {member : Member} (hid : jc.fromProperty ≠ text "objectId")
    (hfound : foundOn engine h fromColl jc (.inherited member) = []) :
    ∀ fo ∈ fromColl.values, (readProperty engine h fo jc.fromProperty).isSame (.inherited member) = false := by
  simp only [foundOn, if_neg hid] at hfound
  have hnil : fromColl.values.filter
      (fun fo => (readProperty engine h fo jc.fromProperty).isSame (.inherited member)) = [] := by
    split at hfound
    · exact (List.take_eq_nil_iff.mp hfound).resolve_left Nat.one_ne_zero
    · exact hfound
  intro fo hfo
  exact Bool.eq_false_iff.mpr (List.filter_eq_nil_iff.mp hnil fo hfo)

theorem toList_eq_filter_iff {α : Type} {o : Option α} {xs : List α} {p : α → Bool} {single : Bool}
    (ho : ∀ a, o = some a → a ∈ xs) :
    o.toList = (if single then (xs.filter p).take 1 else xs.filter p) ↔
      (∀ a, o = some a → p a = true) ∧
      ∀ before a after, xs = before ++ a :: after → p a = true →
        (single = true ∧ ∃ b ∈ before, p b = true) ∨ ((∀ b ∈ before, ¬ p b = true) ∧ o = some a) := by
  constructor
  · intro heq
    refine ⟨?_, ?_⟩
    · rintro a rfl
      have hmem : a ∈ (if single then (xs.filter p).take 1 else xs.filter p) := heq ▸ List.mem_cons_self
      split at hmem
      · exact (List.mem_filter.mp (List.mem_of_mem_take hmem)).2
      · exact (List.mem_filter.mp hmem).2
    · rintro before a after rfl ha
      rw [List.filter_append, List.filter_cons_of_pos ha] at heq
      cases hbefore : before.filter p with
      | nil =>
        refine .inr ⟨List.filter_eq_nil_iff.mp hbefore, ?_⟩
        rw [hbefore, List.nil_append] at heq
        have hhead := congrArg List.head? heq
        rw [Option.head?_toList] at hhead
        cases single <;> exact hhead
      | cons b bs =>
        have hb : b ∈ before.filter p := hbefore ▸ List.mem_cons_self
        obtain ⟨hb, hpb⟩ := List.mem_filter.mp hb
        cases hsingle : single with
        | true => exact .inl ⟨rfl, b, hb, hpb⟩
        | false =>
          rw [hbefore, hsingle] at heq
          have hlength := congrArg List.length heq
          simp only [Bool.false_eq_true, if_false, List.length_append, List.length_cons] at hlength
          have hle := Option.length_toList_le (o := o)
          omega
  · intro h
    obtain ⟨hown, hothers⟩ := h
    cases hfind : xs.find? p with
    | none =>
      have hnil : xs.filter p = [] := List.filter_eq_nil_iff.mpr (List.find?_eq_none.mp hfind)
      have hnone : o = none := by
        apply Option.eq_none_iff_forall_ne_some.mpr
        intro a ha
        exact List.find?_eq_none.mp hfind a (ho a ha) (hown a ha)
      rw [hnil, hnone, List.take_nil, ite_self]
      rfl
    | some a =>
      obtain ⟨ha, before, after, rfl, hbefore⟩ := List.find?_eq_some_iff_append.mp hfind
      have hnone : ∀ b ∈ before, ¬ p b = true := fun b hb => by simpa using hbefore b hb
      obtain ⟨-, b, hb, hpb⟩ | ⟨-, rfl⟩ := hothers before a after rfl ha
      · exact absurd hpb (hnone b hb)
      · rw [List.filter_append, List.filter_eq_nil_iff.mpr hnone, List.nil_append, List.filter_cons_of_pos ha]
        cases hsingle : single with
        | true => rfl
        | false =>
          have hafter : after.filter p = [] := by
            apply List.filter_eq_nil_iff.mpr
            intro b hb hpb
            obtain ⟨after₁, after₂, rfl⟩ := List.append_of_mem hb
            obtain ⟨hsingle', -⟩ | ⟨hall, -⟩ := hothers (before ++ a :: after₁) b after₂ (by simp) hpb
            · cases hsingle.symm.trans hsingle'
            · exact hall a (by simp) ha
          rw [hafter]
          rfl

/-- Looking up an object by its id is the same as scanning the collection exactly if objects are there under their ids. -/
theorem lookup_eq_scan_iff {h : Heap} {localValue : Ref} :
    (getById fromColl (.own localValue)).toList = scan h fromColl jc localValue ↔ UnderId h fromColl jc localValue := by
  rw [scan, toList_eq_filter_iff getById_mem]
  simp only [decide_eq_true_eq]
  exact ⟨fun h => ⟨h.1, h.2⟩, fun h => ⟨h.own, h.others⟩⟩

theorem Resolvable.lookup (hresolvable : Resolvable engine depth fromColl jc s) (hid : jc.fromProperty = text "objectId") :
    ∀ localValue ∈ localValues s jc, (getById fromColl (.own localValue)).toList = scan s.heap fromColl jc localValue :=
  fun localValue hlocal => lookup_eq_scan_iff.mpr (hresolvable.byId hid localValue hlocal)

theorem flatMap_foundOn_eq_related (hobject : s.IsOrdinary) (hfos : ∀ fo ∈ fromColl.values, s.heap.IsObject fo)
    (hadmits : Admits s jc)
    (hbyId : jc.fromProperty = text "objectId" → ∀ localValue ∈ localValues s jc,
      (getById fromColl (.own localValue)).toList = scan s.heap fromColl jc localValue)
    (hinherited : jc.fromProperty ≠ text "objectId" → jc.isLocalPropertyArray = false →
      ∀ member, s.read engine jc.localProperty = .inherited member → ∀ fo ∈ fromColl.values,
        (readProperty engine s.heap fo jc.fromProperty).isSame (.inherited member) = false)
    {locals : List Property} (hlocals : localProperties engine depth s jc = .ok locals) :
    locals.flatMap (foundOn engine s.heap fromColl jc) = related s fromColl jc := by
  rw [related]
  have hcases : LocalProperties engine depth s jc := localProperties_cases hobject hadmits
  cases hcases with
  | missing hread hlocal hmissing =>
    rw [hlocals] at hmissing
    cases harray : jc.isLocalPropertyArray with
    | true =>
      rw [harray] at hmissing
      cases hmissing
    | false =>
      rw [harray] at hmissing
      cases hmissing
      rw [hlocal]
      rfl
  | inherited member hread hlocal hread' =>
    rw [hlocals] at hread'
    cases hread'
    rw [hlocal]
    cases harray : jc.isLocalPropertyArray with
    | true => rfl
    | false =>
      rw [if_neg Bool.false_ne_true, List.flatMap_cons, foundOn_inherited fun hid => hinherited hid harray member hread]
      rfl
  | own refs hread hlocal hown =>
    rw [hlocals] at hown
    cases hown
    rw [hlocal] at hbyId ⊢
    exact flatMap_foundOn_own hfos hbyId

end Related

/-! ### The object after an assignment or deletion -/

section Modified

variable {s : ResultObject} {collections : Map Text Collection} {h : Heap}
  {f : List (Text × Ref) → List (Text × Ref)}

/-- The heap after more has been added and the properties of the object have been changed. -/
def modified (s : ResultObject) (h : Heap) (f : List (Text × Ref) → List (Text × Ref)) : Heap :=
  h.modify s.address (Cell.mapProperties f)

theorem getElem?_modified_of_ne {a : Nat} (hne : a ≠ s.address) : (modified s h f)[a]? = h[a]? := by
  rw [modified, List.getElem?_modify]
  cases h[a]? with
  | none => rfl
  | some cell => simp [Ne.symm hne]

theorem getElem?_modified {properties : List (Text × Ref)} (hcell : h[s.address]? = some (.object properties)) :
    (modified s h f)[s.address]? = some (.object (f properties)) := by
  rw [modified, List.getElem?_modify, hcell]
  simp [Cell.mapProperties]

theorem Placed.within (hplaced : Placed collections s) {name : Text} {coll : Collection}
    (hget : collections.get name = some coll) {fo : Ref} (hfo : fo ∈ coll.values) : fo.Within s.heap :=
  (hplaced.stored name coll hget fo hfo).within

/-- Nothing that is stored leads to the object, so it reads the same, and what it leads to is the same, too. -/
theorem Placed.reaches (hplaced : Placed collections s) (hgrown : s.heap <+: h) {name : Text} {coll : Collection}
    (hget : collections.get name = some coll) {a b : Nat} (hfo : .address a ∈ coll.values)
    (hreaches : (modified s h f).Reaches a b) : s.heap.Reaches a b := by
  induction hreaches with
  | refl => exact .refl
  | @tail b c _ hrefers ih =>
    refine ih.tail ?_
    obtain ⟨cell, hcell, href⟩ := hrefers
    have hne : b ≠ s.address := by
      rintro rfl
      exact hplaced.separate name coll hget _ hfo a rfl ih
    have hlt : b < s.heap.length :=
      hplaced.plain.closed.lt_of_reaches (hplaced.within hget hfo a rfl) ih
    rw [getElem?_modified_of_ne hne, getElem?_of_grown hgrown hlt] at hcell
    exact ⟨cell, hcell, href⟩

theorem Placed.view_stored (hplaced : Placed collections s) (hgrown : s.heap <+: h) {name : Text} {coll : Collection}
    (hget : collections.get name = some coll) {fo : Ref} (hfo : fo ∈ coll.values) (depth : Nat) :
    (modified s h f).view depth fo = s.heap.view depth fo := by
  have hreached : ∀ b, (∃ a, fo = .address a ∧ s.heap.Reaches a b) →
      (modified s h f)[b]? = s.heap[b]? ∧ ∀ cell, s.heap[b]? = some cell → ∀ ref ∈ cell.refs,
        ref.In fun c => ∃ a, fo = .address a ∧ s.heap.Reaches a c := by
    rintro b ⟨a, rfl, hreaches⟩
    have hne : b ≠ s.address := by
      rintro rfl
      exact hplaced.separate name coll hget _ hfo a rfl hreaches
    have hlt : b < s.heap.length :=
      hplaced.plain.closed.lt_of_reaches (hplaced.within hget hfo a rfl) hreaches
    refine ⟨by rw [getElem?_modified_of_ne hne, getElem?_of_grown hgrown hlt], ?_⟩
    rintro cell hcell ref href c rfl
    exact ⟨a, rfl, hreaches.tail ⟨cell, hcell, href⟩⟩
  apply view_congr hreached
  rintro a rfl
  exact ⟨a, rfl, .refl⟩

theorem closed_modified (hclosed : h.Closed) {properties : List (Text × Ref)}
    (hcell : h[s.address]? = some (.object properties))
    (hrefs : ∀ ref ∈ (f properties).map Prod.snd, ref.Within h) : (modified s h f).Closed := by
  intro cell hmem ref href
  rw [Ref.Within, modified, List.length_modify]
  obtain ⟨b, hb⟩ := List.mem_iff_getElem?.mp hmem
  by_cases hne : b = s.address
  · subst hne
    rw [getElem?_modified hcell] at hb
    cases hb
    exact hrefs ref href
  · rw [getElem?_modified_of_ne hne] at hb
    exact hclosed.refs hb ref href

theorem Placed.lt (hplaced : Placed collections s) : s.address < s.heap.length := by
  obtain ⟨properties, hcell⟩ := hplaced.object
  exact (List.getElem?_eq_some_iff.mp hcell).1

theorem Placed.properties_within (hplaced : Placed collections s) : ∀ ref ∈ s.properties.map Prod.snd, ref.Within s.heap := by
  obtain ⟨properties, hcell⟩ := hplaced.object
  intro ref href
  rw [ResultObject.properties, propertiesAt_object hcell] at href
  exact hplaced.plain.closed.refs hcell ref href

theorem ordinary_modified (hordinary : ∀ cell ∈ h, cell.IsOrdinary) {properties : List (Text × Ref)}
    (hcell : h[s.address]? = some (.object properties)) : ∀ cell ∈ modified s h f, cell.IsOrdinary := by
  intro cell hmem
  obtain ⟨b, hb⟩ := List.mem_iff_getElem?.mp hmem
  by_cases hne : b = s.address
  · subst hne
    rw [getElem?_modified hcell] at hb
    cases hb
    trivial
  · rw [getElem?_modified_of_ne hne] at hb
    exact hordinary cell (List.mem_of_getElem? hb)

theorem Placed.modified (hplaced : Placed collections s) (hgrown : s.heap <+: h) (hplain : h.Plain)
    (hrefs : ∀ ref ∈ (f s.properties).map Prod.snd, ref.Within h) :
    Placed collections { s with heap := modified s h f } := by
  obtain ⟨properties, hcell⟩ := hplaced.object
  have hproperties : s.properties = properties := by
    rw [ResultObject.properties, propertiesAt_object hcell]
  have hcell' : h[s.address]? = some (.object properties) := by
    rw [getElem?_of_grown hgrown hplaced.lt, hcell]
  constructor
  · exact ⟨closed_modified hplain.closed hcell' (hproperties ▸ hrefs), ordinary_modified hplain.ordinary hcell'⟩
  · exact ⟨_, getElem?_modified hcell'⟩
  · intro name coll hget fo hfo
    have hlt := hplaced.within hget hfo
    obtain ⟨a, own, rfl, hown⟩ := hplaced.stored name coll hget fo hfo
    have hne : a ≠ s.address := by
      rintro rfl
      exact hplaced.separate name coll hget _ hfo _ rfl .refl
    refine ⟨a, own, rfl, ?_⟩
    show (Joining.modified s h f)[a]? = some (.object own)
    rw [getElem?_modified_of_ne hne, getElem?_of_grown hgrown (hlt a rfl), hown]
  · rintro name coll hget fo hfo a rfl hreaches
    exact hplaced.separate name coll hget _ hfo a rfl (hplaced.reaches hgrown hget hfo hreaches)

theorem properties_modified (hplaced : Placed collections s) (hgrown : s.heap <+: h) :
    ResultObject.properties { s with heap := modified s h f } = f s.properties := by
  obtain ⟨properties, hcell⟩ := hplaced.object
  have hcell' : h[s.address]? = some (.object properties) := by
    rw [getElem?_of_grown hgrown hplaced.lt, hcell]
  simp only [ResultObject.properties, propertiesAt, getElem?_modified hcell', hcell]

theorem prototypeAt_modified (hplaced : Placed collections s) (hgrown : s.heap <+: h) :
    (modified s h f).prototypeAt s.address = s.heap.prototypeAt s.address := by
  obtain ⟨properties, hcell⟩ := hplaced.object
  have hcell' : h[s.address]? = some (.object properties) := by
    rw [getElem?_of_grown hgrown hplaced.lt, hcell]
  rw [prototypeAt, prototypeAt, getElem?_modified hcell', hcell]

theorem joined_of_modified {fromColl : Collection} {jc : DbJoinCondition} {copies : List Ref}
    (hplaced : Placed collections s)
    (hcopied : Copied depth s.heap s.heap s.heap.length h (related s fromColl jc) copies)
    (hlossless : ∀ fo ∈ related s fromColl jc, Deep.Lossless s.heap depth fo)
    (hbyId : jc.fromProperty = text "objectId" → ∀ localValue ∈ localValues s jc,
      (getById fromColl (.own localValue)).toList = scan s.heap fromColl jc localValue)
    (hothers : ∀ name, name ≠ jc.asProperty → (f s.properties).lookup name = s.properties.lookup name)
    (hholds : Holds (modified s h f) jc (f s.properties) copies) :
    Joined depth collections fromColl jc s { s with heap := modified s h f } := by
  have hsame : ∀ a, s.heap.length ≤ a → (modified s h f)[a]? = h[a]? :=
    fun a ha => getElem?_modified_of_ne (Nat.ne_of_gt (Nat.lt_of_lt_of_le hplaced.lt ha))
  refine ⟨hbyId, ⟨copies, ?_, ?_⟩, ?_, ?_, ⟨rfl, prototypeAt_modified hplaced hcopied.grown, ?_⟩, ?_⟩
  · refine ((List.forall₂_and_left _ _).mpr ⟨hlossless, hcopied.copies⟩).imp ?_
    intro fo copy ⟨hlossless, hcopy⟩
    refine ⟨?_, hcopy.fresh, ?_⟩
    · show copy.Within (modified s h f)
      rw [Ref.Within, modified, List.length_modify]
      exact hcopy.within
    · exact (view_of_enclosed hcopied.enclosed hsame depth hcopy.fresh).trans (hcopy.view_eq_iff.mpr hlossless)
  · rw [properties_modified hplaced hcopied.grown]
    exact hholds
  · intro a ha cell hcell ref href
    exact hcopied.enclosed a ha cell ((hsame a ha).symm.trans hcell) ref href
  · intro name hname
    rw [properties_modified hplaced hcopied.grown]
    exact hothers name hname
  · intro a ha hne
    show (modified s h f)[a]? = s.heap[a]?
    rw [getElem?_modified_of_ne hne, getElem?_of_grown hcopied.grown ha]
  · intro name coll hget fo hfo depth
    exact hplaced.view_stored hcopied.grown hget hfo depth

theorem Copied.copy {h₀ : Heap} {start : Nat} {fos copies : List Ref} (hcopied : Copied depth h₀ s.heap start h fos copies) :
    ∀ copy ∈ copies, copy.Within h ∧ copy.In (start ≤ ·) := by
  have hcopies := hcopied.copies
  clear hcopied
  induction hcopies with
  | nil => simp
  | cons hcopy _ ih => exact List.forall_mem_cons.mpr ⟨⟨hcopy.within, hcopy.fresh⟩, ih⟩

theorem Copied.address {h₀ : Heap} {start : Nat} {fos copies : List Ref} (hcopied : Copied depth h₀ s.heap start h fos copies) :
    ∀ copy ∈ copies, ∃ a, copy = .address a := by
  have hcopies := hcopied.copies
  clear hcopied
  induction hcopies with
  | nil => simp
  | cons hcopy _ ih => exact List.forall_mem_cons.mpr ⟨hcopy.address, ih⟩

theorem Copied.append {h₀ : Heap} {start : Nat} {fos copies : List Ref} (hcopied : Copied depth h₀ s.heap start h fos copies) :
    Copied depth h₀ s.heap start (h ++ [.array copies]) fos copies := by
  have hgrown : h <+: h ++ [.array copies] := List.prefix_append _ _
  refine ⟨hcopied.grown.trans hgrown, hcopied.closed.append fun ref href => (hcopied.copy ref href).1,
    hcopied.enclosed.append fun ref href => (hcopied.copy ref href).2, hcopied.copies.imp ?_, ?_⟩
  · intro fo copy hcopy
    refine ⟨hcopy.address, within_of_grown hgrown hcopy.within, hcopy.fresh, ?_⟩
    rw [view_of_grown hcopied.closed hgrown depth hcopy.within]
    exact hcopy.view_eq_iff
  · intro hlossless hordinary cell hcell
    rw [List.mem_append, List.mem_singleton] at hcell
    obtain hcell | rfl := hcell
    · exact hcopied.ordinary hlossless hordinary cell hcell
    · trivial

end Modified

/-! ### A single condition -/

section Step

variable {s s' : ResultObject} {collections : Map Text Collection} {h : Heap} {copies : List Ref}

/-- What is made of the copies of the related objects. -/
def augment (s : ResultObject) (jc : DbJoinCondition) (copies : List Ref) (h : Heap) : Except Error ResultObject :=
  if jc.isOneToOneRelation && !jc.isLocalPropertyArray then
    match copies with
    | [] => .ok (ResultObject.delete { s with heap := h } jc.asProperty)
    | copy :: _ => ResultObject.assign { s with heap := h } jc.asProperty copy
  else ResultObject.assign { s with heap := h ++ [Cell.array copies] } jc.asProperty (.address h.length)

theorem augment_nil (hsingle : (jc.isOneToOneRelation && !jc.isLocalPropertyArray) = true) :
    augment s jc [] h = .ok (ResultObject.delete { s with heap := h } jc.asProperty) := if_pos hsingle

theorem augment_cons (hsingle : (jc.isOneToOneRelation && !jc.isLocalPropertyArray) = true) {copy : Ref} :
    augment s jc (copy :: copies) h = ResultObject.assign { s with heap := h } jc.asProperty copy := if_pos hsingle

theorem augment_several (hsingle : ¬ (jc.isOneToOneRelation && !jc.isLocalPropertyArray) = true) :
    augment s jc copies h =
      ResultObject.assign { s with heap := h ++ [Cell.array copies] } jc.asProperty (.address h.length) :=
  if_neg hsingle

theorem joinProperty_eq (hplaced : Placed collections s) (hget : collections.get jc.fromCollection = some fromColl) :
    joinProperty engine depth collections s jc = Except.mapError .error (do
      let locals ← localProperties engine depth s jc
      let (copies, h) ← cloneEach depth (locals.flatMap (foundOn engine s.heap fromColl jc)) s.heap
      augment s jc copies h) := by
  have hjoin : ∀ locals, joinAll engine depth fromColl jc locals s.heap =
      cloneEach depth (locals.flatMap (foundOn engine s.heap fromColl jc)) s.heap :=
    joinAll_eq (List.prefix_refl _) hplaced.plain.closed (hplaced.stored _ fromColl hget)
  simp only [joinProperty, hget, hjoin, localProperties]
  congr 1
  have haugment : ∀ (copies : List Ref) (h : Heap),
      (if (jc.isOneToOneRelation && !jc.isLocalPropertyArray) = true then
        match copies with
        | [] => pure (ResultObject.delete { s with heap := h } jc.asProperty)
        | copy :: _ => ResultObject.assign { s with heap := h } jc.asProperty copy
      else ResultObject.assign { s with heap := h ++ [Cell.array copies] } jc.asProperty (.address h.length)) =
        augment s jc copies h := by
    intro copies h
    unfold augment
    split
    · cases copies <;> rfl
    · rfl
  by_cases harray : jc.isLocalPropertyArray = true
  · rw [if_pos harray, if_pos harray]
    cases iterated engine depth s.heap (s.read engine jc.localProperty) with
    | error e => rfl
    | ok locals =>
      simp only [ok_bind]
      cases cloneEach depth (locals.flatMap (foundOn engine s.heap fromColl jc)) s.heap with
      | error e => rfl
      | ok outcome => exact haugment outcome.1 outcome.2
  · rw [if_neg harray, if_neg harray]
    simp only [ok_bind]
    cases cloneEach depth ([s.read engine jc.localProperty].flatMap (foundOn engine s.heap fromColl jc)) s.heap with
    | error e => rfl
    | ok outcome => exact haugment outcome.1 outcome.2

theorem assign_cases (hplaced : Placed collections s) (hgrown : s.heap <+: h) (name : Text) (a : Nat) :
    (name = text "__proto__" ∧ s.properties.lookup (text "__proto__") = none ∧
      ∀ s', ResultObject.assign { s with heap := h } name (.address a) = .ok s' →
        s'.heap.prototypeAt s'.address ≠ s.heap.prototypeAt s.address) ∨
    (¬ (name = text "__proto__" ∧ s.properties.lookup (text "__proto__") = none) ∧
      ResultObject.assign { s with heap := h } name (.address a) =
        .ok { s with heap := modified s h fun properties => setProperty properties name (.address a) }) := by
  obtain ⟨properties, hcell⟩ := hplaced.object
  have hcell' : h[s.address]? = some (.object properties) := by
    rw [getElem?_of_grown hgrown hplaced.lt, hcell]
  have hproperties : s.properties = properties := propertiesAt_object hcell
  rw [hproperties]
  by_cases hproto : name = text "__proto__" ∧ properties.lookup (text "__proto__") = none
  · refine .inl ⟨hproto.1, hproto.2, ?_⟩
    intro s' hassign
    rw [ResultObject.assign, bind_eq_ok_iff, hproto.1] at hassign
    obtain ⟨h', hassign, hs'⟩ := hassign
    cases hs'
    rw [assign_prototype hcell' hproto.2, setPrototype] at hassign
    split at hassign
    · cases hassign
    · cases hassign
      have hderived : (h.modify s.address (Cell.withPrototype (.address a)))[s.address]? =
          some (.derived (.address a) properties) := by
        rw [List.getElem?_modify, hcell']
        simp [Cell.withPrototype]
      rw [prototypeAt, prototypeAt, hderived, hcell]
      exact Option.some_ne_none _
  · refine .inr ⟨hproto, ?_⟩
    have hset : name = text "__proto__" → (properties.lookup name).isSome = true := by
      rintro rfl
      exact Option.isSome_iff_ne_none.mpr fun hnone => hproto ⟨rfl, hnone⟩
    rw [ResultObject.assign, assign_object hcell' hset]
    rfl

theorem joined_augment (hplaced : Placed collections s)
    (hcopied : Copied depth s.heap s.heap s.heap.length h (related s fromColl jc) copies)
    (hresolvable : Resolvable engine depth fromColl jc s) :
    ∃ s', augment s jc copies h = .ok s' ∧ Joined depth collections fromColl jc s s' := by
  have hset : ∀ (value : Ref) (name : Text), name ≠ jc.asProperty →
      (setProperty s.properties jc.asProperty value).lookup name = s.properties.lookup name := by
    intro value name hname
    rw [lookup_setProperty, if_neg hname]
  by_cases hsingle : (jc.isOneToOneRelation && !jc.isLocalPropertyArray) = true
  · cases copies with
    | nil =>
      refine ⟨_, augment_nil hsingle, ?_⟩
      apply joined_of_modified hplaced hcopied hresolvable.lossless hresolvable.lookup
      · intro name hname
        rw [lookup_deleteProperty, if_neg hname]
      · rw [Holds, if_pos hsingle, lookup_deleteProperty, if_pos rfl]
        rfl
    | cons copy copies =>
      obtain ⟨a, rfl⟩ := hcopied.address copy List.mem_cons_self
      obtain ⟨hname, hnone, -⟩ | ⟨-, hassign⟩ := assign_cases hplaced hcopied.grown jc.asProperty a
      · obtain ⟨-, hnil⟩ := hresolvable.settable hname hnone
        have hcopies := hcopied.copies
        rw [hnil] at hcopies
        cases hcopies
      · refine ⟨_, (augment_cons hsingle).trans hassign, ?_⟩
        apply joined_of_modified hplaced hcopied hresolvable.lossless hresolvable.lookup (hset (.address a))
        rw [Holds, if_pos hsingle, lookup_setProperty, if_pos rfl]
        rfl
  · have hcopied' := hcopied.append
    obtain ⟨hname, hnone, -⟩ | ⟨-, hassign⟩ := assign_cases hplaced hcopied'.grown jc.asProperty h.length
    · exact absurd (hresolvable.settable hname hnone).1 hsingle
    · refine ⟨_, (augment_several hsingle).trans hassign, ?_⟩
      apply joined_of_modified hplaced hcopied' hresolvable.lossless hresolvable.lookup (hset (.address h.length))
      rw [Holds, if_neg hsingle]
      refine ⟨h.length, by rw [lookup_setProperty, if_pos rfl], ?_⟩
      have hne : h.length ≠ s.address := Nat.ne_of_gt (Nat.lt_of_lt_of_le hplaced.lt hcopied.grown.length_le)
      rw [getElem?_modified_of_ne hne, List.getElem?_concat_length]

/-- What has become of an object that keeps its prototype: its property has been deleted, or an own one has been set. -/
inductive Augmented (s : ResultObject) (jc : DbJoinCondition) (copies : List Ref) (h : Heap) (s' : ResultObject) : Prop
  | deleted (hsingle : (jc.isOneToOneRelation && !jc.isLocalPropertyArray) = true) (hcopies : copies = [])
    (heq : s' = { s with heap := modified s h fun properties => deleteProperty properties jc.asProperty })
  | single (copy : Ref) (rest : List Ref) (hsingle : (jc.isOneToOneRelation && !jc.isLocalPropertyArray) = true)
    (hcopies : copies = copy :: rest)
    (hown : ¬ (jc.asProperty = text "__proto__" ∧ s.properties.lookup (text "__proto__") = none))
    (heq : s' = { s with heap := modified s h fun properties => setProperty properties jc.asProperty copy })
  | several (hsingle : ¬ (jc.isOneToOneRelation && !jc.isLocalPropertyArray) = true)
    (hown : ¬ (jc.asProperty = text "__proto__" ∧ s.properties.lookup (text "__proto__") = none))
    (heq : s' = { s with
      heap := modified s (h ++ [Cell.array copies]) fun properties =>
        setProperty properties jc.asProperty (.address h.length) })

section Augmented

variable {start : Nat} {h₀ : Heap} {fos : List Ref} {joinedObjs : List Ref}

theorem augmented_of_prototype (hplaced : Placed collections s) (hcopied : Copied depth h₀ s.heap start h fos copies)
    (haugment : augment s jc copies h = .ok s')
    (hprototype : s'.heap.prototypeAt s'.address = s.heap.prototypeAt s.address) : Augmented s jc copies h s' := by
  by_cases hsingle : (jc.isOneToOneRelation && !jc.isLocalPropertyArray) = true
  · cases copies with
    | nil =>
      rw [augment_nil hsingle] at haugment
      cases haugment
      exact .deleted hsingle rfl rfl
    | cons copy rest =>
      obtain ⟨a, rfl⟩ := hcopied.address copy List.mem_cons_self
      rw [augment_cons hsingle] at haugment
      obtain ⟨-, -, hreplaced⟩ | ⟨hown, hassign⟩ := assign_cases hplaced hcopied.grown jc.asProperty a
      · exact absurd hprototype (hreplaced s' haugment)
      · cases hassign.symm.trans haugment
        exact .single (.address a) rest hsingle rfl hown rfl
  · rw [augment_several hsingle] at haugment
    obtain ⟨-, -, hreplaced⟩ | ⟨hown, hassign⟩ := assign_cases hplaced hcopied.append.grown jc.asProperty h.length
    · exact absurd hprototype (hreplaced s' haugment)
    · cases hassign.symm.trans haugment
      exact .several hsingle hown rfl

theorem Augmented.cells (hplaced : Placed collections s) (haugmented : Augmented s jc copies h s') :
    ∀ a, s.heap.length ≤ a → a < h.length → s'.heap[a]? = h[a]? := by
  intro a ha hlt
  have hne : a ≠ s.address := Nat.ne_of_gt (Nat.lt_of_lt_of_le hplaced.lt ha)
  cases haugmented with
  | deleted _ _ heq =>
    rw [heq]
    exact getElem?_modified_of_ne hne
  | single _ _ _ _ _ heq =>
    rw [heq]
    exact getElem?_modified_of_ne hne
  | several _ _ heq =>
    rw [heq]
    exact (getElem?_modified_of_ne hne).trans (List.getElem?_append_left hlt)

theorem Augmented.view (hplaced : Placed collections s) (haugmented : Augmented s jc copies h s')
    (hcopied : Copied depth h₀ s.heap s.heap.length h fos copies) {copy : Ref} (hwithin : copy.Within h)
    (hfresh : copy.In (s.heap.length ≤ ·)) : s'.heap.view depth copy = h.view depth copy := by
  refine view_congr (P := fun a => s.heap.length ≤ a ∧ a < h.length) ?_ depth fun a ha => ⟨hfresh a ha, hwithin a ha⟩
  intro a ha
  refine ⟨haugmented.cells hplaced a ha.1 ha.2, ?_⟩
  intro cell hcell ref href b hb
  exact ⟨hcopied.enclosed a ha.1 cell hcell ref href b hb, hcopied.closed.refs hcell ref href b hb⟩

theorem Augmented.holds (hplaced : Placed collections s) (haugmented : Augmented s jc copies h s') (hgrown : s.heap <+: h)
    (hholds : Holds s'.heap jc s'.properties joinedObjs) :
    joinedObjs = copies ∨ ((jc.isOneToOneRelation && !jc.isLocalPropertyArray) = true ∧ joinedObjs.head? = copies.head?) := by
  cases haugmented with
  | deleted hsingle hcopies heq =>
    rw [heq, Holds, if_pos hsingle, properties_modified hplaced hgrown, lookup_deleteProperty, if_pos rfl] at hholds
    rw [hcopies]
    exact .inr ⟨hsingle, hholds.symm⟩
  | single copy rest hsingle hcopies _ heq =>
    rw [heq, Holds, if_pos hsingle, properties_modified hplaced hgrown, lookup_setProperty, if_pos rfl] at hholds
    rw [hcopies]
    exact .inr ⟨hsingle, hholds.symm⟩
  | several hsingle _ heq =>
    have hgrown' : s.heap <+: h ++ [Cell.array copies] := hgrown.trans (List.prefix_append _ _)
    rw [heq, Holds, if_neg hsingle, properties_modified hplaced hgrown', lookup_setProperty, if_pos rfl] at hholds
    obtain ⟨a, ha, hcell⟩ := hholds
    cases ha
    have hne : h.length ≠ s.address := Nat.ne_of_gt (Nat.lt_of_lt_of_le hplaced.lt hgrown.length_le)
    rw [getElem?_modified_of_ne hne, List.getElem?_concat_length] at hcell
    cases hcell
    exact .inl rfl

theorem Augmented.settable (haugmented : Augmented s jc copies h s')
    (hname : jc.asProperty = text "__proto__") (hnone : s.properties.lookup (text "__proto__") = none) :
    (jc.isOneToOneRelation && !jc.isLocalPropertyArray) = true ∧ copies = [] := by
  cases haugmented with
  | deleted hsingle hcopies _ => exact ⟨hsingle, hcopies⟩
  | single _ _ _ _ hown _ => exact absurd ⟨hname, hnone⟩ hown
  | several _ hown _ => exact absurd ⟨hname, hnone⟩ hown

theorem Augmented.placed (hplaced : Placed collections s) (haugmented : Augmented s jc copies h s')
    (hcopied : Copied depth h₀ s.heap start h fos copies) (hlossless : ∀ fo ∈ fos, Deep.Lossless h₀ depth fo) :
    Placed collections s' := by
  have hown : ∀ {h' : Heap}, s.heap <+: h' → ∀ ref ∈ s.properties.map Prod.snd, ref.Within h' :=
    fun hgrown ref href => within_of_grown hgrown (hplaced.properties_within ref href)
  have hplain : h.Plain := ⟨hcopied.closed, hcopied.ordinary hlossless hplaced.plain.ordinary⟩
  cases haugmented with
  | deleted _ _ heq =>
    rw [heq]
    apply hplaced.modified hcopied.grown hplain
    intro ref href
    exact hown hcopied.grown ref (mem_deleteProperty href)
  | single copy rest _ hcopies _ heq =>
    rw [heq]
    apply hplaced.modified hcopied.grown hplain
    intro ref href
    obtain rfl | href := mem_setProperty href
    · exact (hcopied.copy ref (hcopies ▸ List.mem_cons_self)).1
    · exact hown hcopied.grown ref href
  | several _ _ heq =>
    have hcopied' := hcopied.append
    rw [heq]
    apply hplaced.modified hcopied'.grown ⟨hcopied'.closed, hcopied'.ordinary hlossless hplaced.plain.ordinary⟩
    intro ref href
    obtain rfl | href := mem_setProperty href
    · apply Ref.in_address
      rw [List.length_append]
      exact Nat.lt_succ_self _
    · exact hown hcopied'.grown ref href

end Augmented

theorem joinProperty_eq_ok_iff (hplaced : Placed collections s) (hget : collections.get jc.fromCollection = some fromColl) :
    joinProperty engine depth collections s jc = .ok s' ↔
      ∃ locals copies h, localProperties engine depth s jc = .ok locals ∧
        cloneEach depth (locals.flatMap (foundOn engine s.heap fromColl jc)) s.heap = .ok (copies, h) ∧
        augment s jc copies h = .ok s' := by
  rw [joinProperty_eq hplaced hget, Evaluation.mapError_eq_ok_iff, bind_eq_ok_iff]
  constructor
  · intro h
    obtain ⟨locals, hlocals, hclone⟩ := h
    rw [bind_eq_ok_iff] at hclone
    obtain ⟨⟨copies, h⟩, hclone, haugment⟩ := hclone
    exact ⟨locals, copies, h, hlocals, hclone, haugment⟩
  · intro h
    obtain ⟨locals, copies, h, hlocals, hclone, haugment⟩ := h
    exact ⟨locals, hlocals, bind_eq_ok_iff.mpr ⟨(copies, h), hclone, haugment⟩⟩

theorem copied_of_found (hplaced : Placed collections s) (hget : collections.get jc.fromCollection = some fromColl)
    {locals : List Property}
    (hclone : cloneEach depth (locals.flatMap (foundOn engine s.heap fromColl jc)) s.heap = .ok (copies, h)) :
    Copied depth s.heap s.heap s.heap.length h (locals.flatMap (foundOn engine s.heap fromColl jc)) copies := by
  apply copied_of_cloneEach hplaced.plain (List.prefix_refl _) hplaced.plain.closed le_rfl (enclosedFrom_length _)
    (lacksFrom_length _ _) ?_ hclone
  intro fo hfo
  obtain ⟨localValue, -, hfo⟩ := List.mem_flatMap.mp hfo
  exact hplaced.stored _ fromColl hget fo (foundOn_subset fo hfo)

theorem not_same_of_joined (hplaced : Placed collections s) {locals : List Property}
    (hlocals : localProperties engine depth s jc = .ok locals)
    (hcopied : Copied depth s.heap s.heap s.heap.length h (locals.flatMap (foundOn engine s.heap fromColl jc)) copies)
    (haugmented : Augmented s jc copies h s') (hjoined : Joined depth collections fromColl jc s s')
    (hid : jc.fromProperty ≠ text "objectId") (harray : jc.isLocalPropertyArray = false) (member : Member)
    (hread : s.read engine jc.localProperty = .inherited member) :
    ∀ fo ∈ fromColl.values, (readProperty engine s.heap fo jc.fromProperty).isSame (.inherited member) = false := by
  have hnone : s.properties.lookup jc.localProperty = none := by
    apply Option.eq_none_iff_forall_ne_some.mpr
    intro ref hlookup
    have hown : s.read engine jc.localProperty = .own ref := (read_of_lookup hplaced.object hlookup).1
    rw [hread] at hown
    cases hown
  have hlocal : localValues s jc = [] := by
    have hmissing : s.heap.read (.address s.address) jc.localProperty = .undefined :=
      (@read_of_lookup_none engine _ hplaced.object _ hnone).2
    rw [localValues, hmissing, harray]
    rfl
  obtain ⟨joinedObjs, hjoinedObjs, hholds⟩ := hjoined.holds
  rw [related, hlocal] at hjoinedObjs
  cases hjoinedObjs
  have hnil : copies = [] := by
    obtain heq | ⟨-, heq⟩ := haugmented.holds hplaced hcopied.grown hholds
    · exact heq.symm
    · exact List.head?_eq_none_iff.mp heq.symm
  have hcopies := hcopied.copies
  rw [hnil] at hcopies
  have hfound := List.forall₂_nil_right_iff.mp hcopies
  rw [localProperties, harray, if_neg Bool.false_ne_true, hread] at hlocals
  cases hlocals
  rw [List.flatMap_singleton] at hfound
  exact inherited_of_foundOn_eq_nil hid hfound

theorem related_stored (hplaced : Placed collections s) (hget : collections.get jc.fromCollection = some fromColl) :
    ∀ fo ∈ related s fromColl jc, s.heap.IsObject fo := by
  intro fo hfo
  obtain ⟨localValue, -, hfo⟩ := List.mem_flatMap.mp hfo
  apply hplaced.stored _ fromColl hget fo
  unfold scan at hfo
  split at hfo
  · exact List.mem_of_mem_filter (List.mem_of_mem_take hfo)
  · exact List.mem_of_mem_filter hfo

theorem length_related_le (hsingle : (jc.isOneToOneRelation && !jc.isLocalPropertyArray) = true) :
    (related s fromColl jc).length ≤ 1 := by
  rw [Bool.and_eq_true, Bool.not_eq_true'] at hsingle
  obtain ⟨hone, harray⟩ := hsingle
  have hscan : ∀ localValue, (scan s.heap fromColl jc localValue).length ≤ 1 := by
    intro localValue
    rw [scan, if_pos hone]
    exact List.length_take_le 1 _
  rw [related, localValues, harray, if_neg Bool.false_ne_true]
  by_cases hmissing : s.heap.read (.address s.address) jc.localProperty = .undefined
  · rw [List.filter_cons_of_neg (by simp [hmissing])]
    exact Nat.zero_le 1
  · rw [List.filter_cons_of_pos (by simp [hmissing]), List.filter_nil, List.flatMap_singleton]
    exact hscan _

theorem eq_of_head?_eq {α : Type} {xs ys : List α} (hlength : xs.length = ys.length) (hle : xs.length ≤ 1)
    (hhead : xs.head? = ys.head?) : xs = ys := by
  cases xs with
  | nil => exact (List.length_eq_zero_iff.mp hlength.symm).symm
  | cons x xs =>
    cases ys with
    | nil => cases hlength
    | cons y ys =>
      rw [List.length_cons] at hlength hle
      rw [List.length_cons] at hlength
      have hxs : xs = [] := List.length_eq_zero_iff.mp (by omega)
      have hys : ys = [] := List.length_eq_zero_iff.mp (by omega)
      rw [hxs, hys, Option.some.inj hhead]

/-- The property holds the copies that have been made, so each of them reads like the object that it is a copy of. -/
theorem lossless_of_joined (hplaced : Placed collections s)
    (hcopied : Copied depth s.heap s.heap s.heap.length h (related s fromColl jc) copies)
    (haugmented : Augmented s jc copies h s') (hjoined : Joined depth collections fromColl jc s s') :
    ∀ fo ∈ related s fromColl jc, Deep.Lossless s.heap depth fo := by
  obtain ⟨joinedObjs, hjoinedObjs, hholds⟩ := hjoined.holds
  have heq : joinedObjs = copies := by
    obtain heq | ⟨hsingle, hhead⟩ := haugmented.holds hplaced hcopied.grown hholds
    · exact heq
    · have hle : joinedObjs.length ≤ 1 := hjoinedObjs.length_eq ▸ length_related_le hsingle
      exact eq_of_head?_eq (hjoinedObjs.length_eq.symm.trans hcopied.copies.length_eq) hle hhead
  rw [heq] at hjoinedObjs
  have hboth : List.Forall₂ (fun fo copy => Deep.Lossless s.heap depth fo ∧ IsCopy depth s.heap s'.heap fo copy)
      (related s fromColl jc) copies := by
    refine List.Forall₂.mp ?_ hcopied.copies hjoinedObjs
    intro fo copy hmade hcopy
    refine ⟨hmade.view_eq_iff.mp ?_, hcopy⟩
    exact (haugmented.view hplaced hcopied hmade.within hmade.fresh).symm.trans hcopy.2.2
  exact ((List.forall₂_and_left _ _).mp hboth).1

theorem resolvable_of_joined (hplaced : Placed collections s)
    (hget : collections.get jc.fromCollection = some fromColl) (hadmits : Admits s jc)
    (hjoin : joinProperty engine depth collections s jc = .ok s') (hjoined : Joined depth collections fromColl jc s s') :
    Resolvable engine depth fromColl jc s ∧ Placed collections s' := by
  obtain ⟨locals, copies, h, hlocals, hclone, haugment⟩ := (joinProperty_eq_ok_iff hplaced hget).mp hjoin
  have hcopied := copied_of_found hplaced hget hclone
  have haugmented := augmented_of_prototype hplaced hcopied haugment hjoined.frame.prototype
  have hinherited := not_same_of_joined hplaced hlocals hcopied haugmented hjoined
  have hfound := flatMap_foundOn_eq_related hplaced.object (hplaced.stored _ fromColl hget) hadmits hjoined.lookup
    hinherited hlocals
  rw [hfound] at hclone hcopied
  have hlossless := lossless_of_joined hplaced hcopied haugmented hjoined
  refine ⟨⟨?_, ?_, hinherited, ?_, hlossless, ?_⟩, haugmented.placed hplaced hcopied hlossless⟩
  · exact (returns_localProperties_iff hplaced.object hadmits).mp ⟨locals, hlocals⟩
  · intro hid localValue hlocal
    exact lookup_eq_scan_iff.mp (hjoined.lookup hid localValue hlocal)
  · exact (returns_cloneEach_iff hplaced.plain (List.prefix_refl _) hplaced.plain.closed
      (related_stored hplaced hget)).mp ⟨_, hclone⟩
  · intro hname hnone
    obtain ⟨hsingle, hnil⟩ := haugmented.settable hname hnone
    have hcopies := hcopied.copies
    rw [hnil] at hcopies
    exact ⟨hsingle, List.forall₂_nil_right_iff.mp hcopies⟩

/-- A condition is applied as it is documented exactly if it can be. -/
theorem joined_iff_resolvable (hplaced : Placed collections s)
    (hget : collections.get jc.fromCollection = some fromColl) (hadmits : Admits s jc) :
    (∃ s', joinProperty engine depth collections s jc = .ok s' ∧ Joined depth collections fromColl jc s s') ↔
      Resolvable engine depth fromColl jc s := by
  constructor
  · intro h
    obtain ⟨s', hjoin, hjoined⟩ := h
    exact (resolvable_of_joined hplaced hget hadmits hjoin hjoined).1
  · intro hresolvable
    obtain ⟨locals, hlocals⟩ := (returns_localProperties_iff hplaced.object hadmits).mpr hresolvable.present
    have hfound := flatMap_foundOn_eq_related hplaced.object (hplaced.stored _ fromColl hget) hadmits hresolvable.lookup
      hresolvable.inherited hlocals
    obtain ⟨⟨copies, h⟩, hclone⟩ := (returns_cloneEach_iff hplaced.plain (List.prefix_refl _) hplaced.plain.closed
      (related_stored hplaced hget)).mpr hresolvable.clonable
    rw [← hfound] at hclone
    have hcopied := copied_of_found hplaced hget hclone
    rw [hfound] at hcopied
    obtain ⟨s', haugment, hjoined⟩ := joined_augment hplaced hcopied hresolvable
    exact ⟨s', (joinProperty_eq_ok_iff hplaced hget).mpr ⟨locals, copies, h, hlocals, hclone, haugment⟩, hjoined⟩

end Step

/-! ### All conditions -/

section Run

variable {collections : Map Text Collection} {s s₁ s' : ResultObject} {jcs : List DbJoinCondition}

theorem Frame.trans (hfirst : Frame s s₁) (hrest : Frame s₁ s') : Frame s s' := by
  refine ⟨hrest.address.trans hfirst.address, hrest.prototype.trans hfirst.prototype, ?_⟩
  intro a ha hne
  have hcell : s₁.heap[a]? = s.heap[a]? := hfirst.cells a ha hne
  have hlt : a < s₁.heap.length := by
    rw [List.getElem?_eq_getElem ha] at hcell
    exact (List.getElem?_eq_some_iff.mp hcell).1
  exact (hrest.cells a hlt (hfirst.address ▸ hne)).trans hcell

theorem Resolves.placed (hplaced : Placed collections s) (hdomain : WithinDomain engine depth collections s jcs)
    (h : Resolves engine depth collections jcs s s') :
    Frame s s' ∧ Placed collections s' := by
  induction jcs generalizing s with
  | nil =>
    cases h
    exact ⟨⟨rfl, rfl, fun _ _ _ => rfl⟩, hplaced⟩
  | cons jc jcs ih =>
    obtain ⟨fromColl, s₁, hget, hjoin, hjoined, hrest⟩ := h
    obtain ⟨-, hadmits, hnext⟩ := hdomain
    obtain ⟨-, hplaced₁⟩ := resolvable_of_joined hplaced hget hadmits hjoin hjoined
    obtain ⟨hframe, hplaced'⟩ := ih hplaced₁ (hnext s₁ hjoin) hrest
    exact ⟨hjoined.frame.trans hframe, hplaced'⟩

theorem Resolves.others (h : Resolves engine depth collections jcs s s') {name : Text}
    (hname : ∀ jc ∈ jcs, jc.asProperty ≠ name) : s'.properties.lookup name = s.properties.lookup name := by
  induction jcs generalizing s with
  | nil =>
    cases h
    rfl
  | cons jc jcs ih =>
    obtain ⟨fromColl, s₁, -, -, hjoined, hrest⟩ := h
    rw [List.forall_mem_cons] at hname
    exact (ih hrest hname.2).trans (hjoined.others name hname.1.symm)

theorem Resolves.stored (h : Resolves engine depth collections jcs s s') {name : Text} {coll : Collection}
    (hget : collections.get name = some coll) {fo : Ref} (hfo : fo ∈ coll.values) (depth : Nat) :
    s'.heap.view depth fo = s.heap.view depth fo := by
  induction jcs generalizing s with
  | nil =>
    cases h
    rfl
  | cons jc jcs ih =>
    obtain ⟨fromColl, s₁, -, -, hjoined, hrest⟩ := h
    exact (ih hrest).trans (hjoined.stored name coll hget fo hfo depth)

theorem IsCopy.of_frame {h : Heap} {fo copy : Ref} (hplaced : Placed collections s₁)
    (hlt : s₁.address < h.length) (henclosed : s₁.heap.EnclosedFrom h.length) (hframe : Frame s₁ s')
    (hcopy : IsCopy depth h s₁.heap fo copy) : IsCopy depth h s'.heap fo copy := by
  obtain ⟨hwithin, hfresh, hview⟩ := hcopy
  have hcells : ∀ a, h.length ≤ a ∧ a < s₁.heap.length → s'.heap[a]? = s₁.heap[a]? := by
    intro a ha
    exact hframe.cells a ha.2 (Nat.ne_of_gt (Nat.lt_of_lt_of_le hlt ha.1))
  refine ⟨?_, hfresh, ?_⟩
  · intro a ha
    have hcell := hcells a ⟨hfresh a ha, hwithin a ha⟩
    rw [List.getElem?_eq_getElem (hwithin a ha)] at hcell
    exact (List.getElem?_eq_some_iff.mp hcell).1
  · rw [← hview]
    refine view_congr (P := fun a => h.length ≤ a ∧ a < s₁.heap.length) ?_ depth
      fun a ha => ⟨hfresh a ha, hwithin a ha⟩
    intro a ha
    refine ⟨hcells a ha, ?_⟩
    intro cell hcell ref href b hb
    exact ⟨henclosed a ha.1 cell hcell ref href b hb, hplaced.plain.closed.refs hcell ref href b hb⟩

/-- Later conditions leave the property as it is, unless they have the same one. -/
theorem Holds.of_frame {joinedObjs : List Ref} (hplaced : Placed collections s₁) (hframe : Frame s₁ s')
    (hlookup : s'.properties.lookup jc.asProperty = s₁.properties.lookup jc.asProperty)
    (hholds : Holds s₁.heap jc s₁.properties joinedObjs) : Holds s'.heap jc s'.properties joinedObjs := by
  unfold Holds at hholds ⊢
  rw [hlookup]
  split
  · rename_i hsingle
    rw [if_pos hsingle] at hholds
    exact hholds
  · rename_i hsingle
    rw [if_neg hsingle] at hholds
    obtain ⟨a, ha, hcell⟩ := hholds
    have hne : a ≠ s₁.address := by
      rintro rfl
      obtain ⟨properties, hobject⟩ := hplaced.object
      cases hobject.symm.trans hcell
    exact ⟨a, ha, (hframe.cells a (List.getElem?_eq_some_iff.mp hcell).1 hne).trans hcell⟩

theorem Resolves.holds (hplaced : Placed collections s) {before after : List DbJoinCondition}
    (hdomain : WithinDomain engine depth collections s (before ++ jc :: after))
    (h : Resolves engine depth collections (before ++ jc :: after) s s')
    (hafter : ∀ later ∈ after, later.asProperty ≠ jc.asProperty) :
    ∃ fromColl s₁ joinedObjs, collections.get jc.fromCollection = some fromColl ∧
      Resolves engine depth collections before s s₁ ∧
      List.Forall₂ (IsCopy depth s₁.heap s'.heap) (related s₁ fromColl jc) joinedObjs ∧
      Holds s'.heap jc s'.properties joinedObjs := by
  induction before generalizing s with
  | nil =>
    obtain ⟨fromColl, s₁, hget, hjoin, hjoined, hrest⟩ := h
    obtain ⟨-, hadmits, hnext⟩ := hdomain
    obtain ⟨-, hplaced₁⟩ := resolvable_of_joined hplaced hget hadmits hjoin hjoined
    obtain ⟨hframe, -⟩ := Resolves.placed hplaced₁ (hnext s₁ hjoin) hrest
    obtain ⟨joinedObjs, hcopies, hholds⟩ := hjoined.holds
    refine ⟨fromColl, s, joinedObjs, hget, rfl, ?_, hholds.of_frame hplaced₁ hframe (Resolves.others hrest hafter)⟩
    refine hcopies.imp ?_
    intro fo copy hcopy
    exact hcopy.of_frame hplaced₁ (hjoined.frame.address ▸ hplaced.lt) hjoined.separate hframe
  | cons jc' before ih =>
    obtain ⟨fromColl', s₁, hget', hjoin', hjoined', hrest⟩ := h
    obtain ⟨-, hadmits, hnext⟩ := hdomain
    obtain ⟨-, hplaced₁⟩ := resolvable_of_joined hplaced hget' hadmits hjoin' hjoined'
    obtain ⟨fromColl, s₂, joinedObjs, hget, hbefore, hcopies, hholds⟩ := ih hplaced₁ (hnext s₁ hjoin') hrest
    exact ⟨fromColl, s₂, joinedObjs, hget, ⟨fromColl', s₁, hget', hjoin', hjoined', hbefore⟩, hcopies, hholds⟩

theorem allJoined_of_resolves (hplaced : Placed collections s) (hdomain : WithinDomain engine depth collections s jcs)
    (h : Resolves engine depth collections jcs s s') : AllJoined engine depth collections jcs s s' := by
  refine ⟨h, ?_, ?_, ?_⟩
  · rintro before jc after rfl hafter
    exact Resolves.holds hplaced hdomain h hafter
  · intro name hname
    exact Resolves.others h hname
  · intro name coll hget fo hfo depth
    exact Resolves.stored h hget hfo depth

theorem resolves_iff (hplaced : Placed collections s) (hdomain : WithinDomain engine depth collections s jcs) :
    (∃ s', Resolves engine depth collections jcs s s') ↔ AllResolvable engine depth collections s jcs := by
  induction jcs generalizing s with
  | nil => exact iff_of_true ⟨s, rfl⟩ trivial
  | cons jc jcs ih =>
    obtain ⟨⟨fromColl, hget⟩, hadmits, hnext⟩ := hdomain
    have hstep : (∃ s₁, joinProperty engine depth collections s jc = .ok s₁ ∧
        Joined depth collections fromColl jc s s₁) ↔ Resolvable engine depth fromColl jc s :=
      joined_iff_resolvable hplaced hget hadmits
    constructor
    · intro h
      obtain ⟨s', fromColl', s₁, hget', hjoin, hjoined, hrest⟩ := h
      cases hget.symm.trans hget'
      refine ⟨?_, ?_⟩
      · intro fromColl' hget'
        cases hget.symm.trans hget'
        exact hstep.mp ⟨s₁, hjoin, hjoined⟩
      · intro s₂ hjoin'
        cases hjoin.symm.trans hjoin'
        obtain ⟨-, hplaced₁⟩ := resolvable_of_joined hplaced hget hadmits hjoin hjoined
        exact (ih hplaced₁ (hnext s₁ hjoin)).mp ⟨s', hrest⟩
    · intro h
      obtain ⟨s₁, hjoin, hjoined⟩ := hstep.mpr (h.1 fromColl hget)
      obtain ⟨-, hplaced₁⟩ := resolvable_of_joined hplaced hget hadmits hjoin hjoined
      obtain ⟨s', hrest⟩ := (ih hplaced₁ (hnext s₁ hjoin)).mpr (h.2 s₁ hjoin)
      exact ⟨s', fromColl, s₁, hget, hjoin, hjoined, hrest⟩

theorem joinObjectProperties_of_resolves {joinConditions : DbJoinConditions}
    (h : Resolves engine depth collections (conditions joinConditions) s s') :
    joinObjectProperties engine depth collections s joinConditions = .ok s' := by
  have hmany : ∀ jcs s, Resolves engine depth collections jcs s s' →
      jcs.foldlM (joinProperty engine depth collections) s = .ok s' := by
    intro jcs
    induction jcs with
    | nil =>
      intro s h
      cases h
      rfl
    | cons jc jcs ih =>
      intro s h
      obtain ⟨-, s₁, -, hjoin, -, hrest⟩ := h
      rw [List.foldlM_cons, hjoin]
      exact ih s₁ hrest
  cases joinConditions with
  | none =>
    cases h
    rfl
  | one jc =>
    obtain ⟨-, s₁, -, hjoin, -, rfl⟩ := h
    exact hjoin
  | many jcs => exact hmany jcs s h

/-- References are resolved exactly if each condition can be applied as it is documented. -/
theorem allJoined_iff (hplaced : Placed collections s) (joinConditions : DbJoinConditions)
    (hdomain : WithinDomain engine depth collections s (conditions joinConditions)) :
    (∃ s', joinObjectProperties engine depth collections s joinConditions = .ok s' ∧
      AllJoined engine depth collections (conditions joinConditions) s s') ↔
      AllResolvable engine depth collections s (conditions joinConditions) := by
  rw [← resolves_iff hplaced hdomain]
  constructor
  · intro h
    obtain ⟨s', -, hjoined⟩ := h
    exact ⟨s', hjoined.inTurn⟩
  · intro h
    obtain ⟨s', hresolves⟩ := h
    exact ⟨s', joinObjectProperties_of_resolves hresolves, allJoined_of_resolves hplaced hdomain hresolves⟩

/-- A person in a collection, and a lamp with an owner as a query copies it. -/
def ownedLamp : ResultObject where
  heap := [.object [(text "objectId", .string (text "p"))], .object [(text "owner", .string (text "p"))]]
  address := 1

def people : Map Text Collection := Map.empty.set (text "people") (Map.empty.set (text "p") (.address 0))

def owner : DbJoinCondition where
  localProperty := text "owner"
  asProperty := text "resolvedOwner"
  fromCollection := text "people"
  fromProperty := text "objectId"
  isLocalPropertyArray := false
  isOneToOneRelation := true

/-- The lamp has no owners. -/
def owners : DbJoinCondition := { owner with localProperty := text "owners", isLocalPropertyArray := true }

theorem mem_people {name : Text} {coll : Collection} (hget : people.get name = some coll) {fo : Ref}
    (hfo : fo ∈ coll.values) : fo = .address 0 := by
  rw [people, Map.get_set] at hget
  split at hget
  · cases hget
    obtain ⟨id, hget⟩ := Map.mem_values.mp hfo
    rw [Map.get_set] at hget
    split at hget
    · cases hget
      rfl
    · cases hget
  · cases hget

theorem refs_ownedLamp {cell : Cell} (hcell : cell ∈ ownedLamp.heap) {ref : Ref} (href : ref ∈ cell.refs) :
    ref = .string (text "p") := by
  rw [ownedLamp, List.mem_pair] at hcell
  obtain rfl | rfl := hcell
  · exact List.mem_singleton.mp href
  · exact List.mem_singleton.mp href

theorem placed_ownedLamp : Placed people ownedLamp := by
  constructor
  · constructor
    · intro cell hcell ref href a ha
      rw [refs_ownedLamp hcell href] at ha
      cases ha
    · intro cell hcell
      rw [ownedLamp, List.mem_pair] at hcell
      obtain rfl | rfl := hcell <;> trivial
  · exact ⟨_, rfl⟩
  · intro name coll hget fo hfo
    rw [mem_people hget hfo]
    exact ⟨_, _, rfl, rfl⟩
  · intro name coll hget fo hfo a ha hreaches
    rw [mem_people hget hfo] at ha
    cases ha
    obtain heq | ⟨b, ⟨cell, hcell, href⟩, -⟩ := Relation.ReflTransGen.cases_head hreaches
    · cases heq
    · cases refs_ownedLamp (List.mem_of_getElem? hcell) href

theorem allJoined_iff_owner :
    (∃ s', joinObjectProperties bareEngine 4 people ownedLamp (.one owner) = .ok s' ∧
      AllJoined bareEngine 4 people [owner] ownedLamp s') ↔ AllResolvable bareEngine 4 people ownedLamp [owner] := by
  apply allJoined_iff placed_ownedLamp (.one owner)
  refine ⟨⟨_, rfl⟩, ?_, fun _ _ => trivial⟩
  intro harray
  cases harray

/-- A missing property is no array of no values. -/
theorem not_allJoined_of_missing : ¬ ∀ (engine : Engine) (depth : Nat) (collections : Map Text Collection)
    (s : ResultObject) (joinConditions : DbJoinConditions), Placed collections s →
      WithinDomain engine depth collections s (conditions joinConditions) →
      ∃ s', joinObjectProperties engine depth collections s joinConditions = .ok s' ∧
        AllJoined engine depth collections (conditions joinConditions) s s' := by
  intro h
  have hfails : joinObjectProperties bareEngine 4 people ownedLamp (.one owners) = .error (.error .typeError) := rfl
  have hdomain : WithinDomain bareEngine 4 people ownedLamp [owners] :=
    ⟨⟨_, rfl⟩, fun _ => .inl rfl, fun _ _ => trivial⟩
  obtain ⟨s', hjoin, -⟩ := h bareEngine 4 people ownedLamp (.one owners) placed_ownedLamp hdomain
  cases hfails.symm.trans hjoin

end Run

end Joining

end InMemory

end Coaty
