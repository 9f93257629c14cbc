import Coaty.Js.Number
import Coaty.Js.Value
import Mathlib.Data.List.Basic
import Mathlib.Logic.Relation

/-!
# Objects with an identity

Variables, properties and items hold references, and assigning an object or an array shares it. A heap lists the objects and arrays that there are, each at its address, and new ones are appended. What code can read from a reference down to a depth is a JSON value, with `null` in place of the objects and arrays below, so that circular structures have one, too. A prototype is one level below the object that has it.
-/

namespace Js

inductive Ref where
  | undefined
  | null
  | bool (b : Bool)
  | number (n : Rat)
  | string (s : Text)
  | address (a : Nat)
deriving DecidableEq

/-- An array, an object whose prototype is the one of all objects, or one whose prototype has been replaced. -/
inductive Cell where
  | array (items : List Ref)
  | object (properties : List (Text × Ref))
  | derived (prototype : Ref) (properties : List (Text × Ref))

abbrev Heap := List Cell

namespace Ref

/-- Whether an address has the property, if the reference is one. -/
def In (P : Nat → Prop) (ref : Ref) : Prop := ∀ a, ref = address a → P a

/-- What is read from a reference if no object or array can be. -/
def primitive : Ref → Option Value
  | undefined => none
  | null => some .null
  | bool b => some (.bool b)
  | number n => some (.number n)
  | string s => some (.string s)
  | address _ => some .null

/-- The reference leads to an object or an array of the heap, or is none. -/
def Within (h : Heap) (ref : Ref) : Prop := ref.In (· < h.length)

theorem in_address {P : Nat → Prop} {a : Nat} (h : P a) : (address a).In P := by
  intro b hb
  cases hb
  exact h

theorem In.mono {P Q : Nat → Prop} {ref : Ref} (h : ref.In P) (hPQ : ∀ a, P a → Q a) : ref.In Q :=
  fun a ha => hPQ a (h a ha)

end Ref

/-- What an object or an array refers to. -/
def Cell.refs : Cell → List Ref
  | .array items => items
  | .object properties => properties.map Prod.snd
  | .derived prototype properties => prototype :: properties.map Prod.snd

/-- The prototype has not been replaced. -/
def Cell.IsOrdinary : Cell → Prop
  | .derived _ _ => False
  | _ => True

/-- No property has the name. -/
def Cell.Lacks (name : Text) : Cell → Prop
  | .array _ => True
  | .object properties => ∀ property ∈ properties, property.1 ≠ name
  | .derived _ properties => ∀ property ∈ properties, property.1 ≠ name

instance (name : Text) : (cell : Cell) → Decidable (cell.Lacks name)
  | .array _ => inferInstanceAs (Decidable True)
  | .object properties => inferInstanceAs (Decidable (∀ property ∈ properties, property.1 ≠ name))
  | .derived _ properties => inferInstanceAs (Decidable (∀ property ∈ properties, property.1 ≠ name))

namespace Heap

variable {h h' : Heap}

/-- No reference of the heap leads out of it. -/
def Closed (h : Heap) : Prop := ∀ cell ∈ h, ∀ ref ∈ cell.refs, ref.Within h

/-- No reference leads out of the heap, and no object has had its prototype replaced. -/
structure Plain (h : Heap) : Prop where
  closed : h.Closed
  ordinary : ∀ cell ∈ h, cell.IsOrdinary

/-- No reference of the objects and arrays from an address on leads to one before it. -/
def EnclosedFrom (h : Heap) (start : Nat) : Prop :=
  ∀ a, start ≤ a → ∀ cell, h[a]? = some cell → ∀ ref ∈ cell.refs, ref.In (start ≤ ·)

/-- No object from an address on has a property of the name. -/
def LacksFrom (h : Heap) (name : Text) (start : Nat) : Prop :=
  ∀ a, start ≤ a → ∀ cell, h[a]? = some cell → cell.Lacks name

/-- The object or array at the address `a` has a reference to the one at `b`. -/
def RefersTo (h : Heap) (a b : Nat) : Prop := ∃ cell, h[a]? = some cell ∧ .address b ∈ cell.refs

/-- The object or array at the address `b` can be reached from the one at `a`. -/
def Reaches (h : Heap) : Nat → Nat → Prop := Relation.ReflTransGen h.RefersTo

/-! ### Reading -/

/-- What is read of a prototype through an object. -/
def inherited : Option Value → List (Text × Value)
  | some (.object properties) => properties
  | some (.array items) => items.mapIdx fun i item => (decimal i, item)
  | _ => []

def view (h : Heap) : Nat → Ref → Option Value
  | depth + 1, .address a =>
    match h[a]? with
    | some (.array items) => some (.array (items.map fun item => (view h depth item).getD .null))
    | some (.object properties) =>
      some (.object (properties.filterMap fun property => (view h depth property.2).map (property.1, ·)))
    | some (.derived prototype properties) =>
      some (.object ((properties.filterMap fun property => (view h depth property.2).map (property.1, ·)) ++
        (inherited (view h depth prototype)).filter fun property => (properties.lookup property.1).isNone))
    | none => none
  | _, ref => ref.primitive

/-- The items of an array. -/
def itemsOf (h : Heap) : Ref → Option (List Ref)
  | .address a =>
    match h[a]? with
    | some (.array items) => some items
    | _ => none
  | _ => none

/-- The reference leads to an object whose prototype has not been replaced. -/
def IsObject (h : Heap) (ref : Ref) : Prop := ∃ a properties, ref = .address a ∧ h[a]? = some (.object properties)

theorem IsObject.within {ref : Ref} (hobject : h.IsObject ref) : ref.Within h := by
  obtain ⟨a, properties, rfl, hcell⟩ := hobject
  exact Ref.in_address (List.getElem?_eq_some_iff.mp hcell).1

/-- The own properties of an object. -/
def propertiesAt (h : Heap) (a : Nat) : List (Text × Ref) :=
  match h[a]? with
  | some (.object properties) => properties
  | some (.derived _ properties) => properties
  | _ => []

/-- An own property of an object. -/
def read (h : Heap) (ref : Ref) (name : Text) : Ref :=
  match ref with
  | .address a => ((h.propertiesAt a).lookup name).getD .undefined
  | _ => .undefined

theorem view_congr {P : Nat → Prop} (hP : ∀ a, P a → h'[a]? = h[a]? ∧ ∀ cell, h[a]? = some cell → ∀ ref ∈ cell.refs, ref.In P)
    (depth : Nat) {ref : Ref} (href : ref.In P) : h'.view depth ref = h.view depth ref := by
  induction depth generalizing ref with
  | zero => cases ref <;> rfl
  | succ depth ih =>
    cases ref with
    | address a =>
      obtain ⟨hsame, hrefs⟩ := hP a (href a rfl)
      simp only [view, hsame]
      cases hcell : h[a]? with
      | none => rfl
      | some cell =>
        have hrefs' := hrefs cell hcell
        cases cell with
        | array items =>
          have hitems : (items.map fun item => (h'.view depth item).getD .null) =
              items.map fun item => (h.view depth item).getD .null := by
            apply List.map_congr_left
            intro item hitem
            rw [ih (hrefs' item hitem)]
          simp only [hitems]
        | object properties =>
          have hproperties : (properties.filterMap fun property => (h'.view depth property.2).map (property.1, ·)) =
              properties.filterMap fun property => (h.view depth property.2).map (property.1, ·) := by
            apply List.filterMap_congr
            intro property hproperty
            rw [ih (hrefs' property.2 (List.mem_map_of_mem hproperty))]
          simp only [hproperties]
        | derived prototype properties =>
          have hproperties : (properties.filterMap fun property => (h'.view depth property.2).map (property.1, ·)) =
              properties.filterMap fun property => (h.view depth property.2).map (property.1, ·) := by
            apply List.filterMap_congr
            intro property hproperty
            rw [ih (hrefs' property.2 (List.mem_cons_of_mem _ (List.mem_map_of_mem hproperty)))]
          simp only [hproperties, ih (hrefs' prototype List.mem_cons_self)]
    | _ => rfl

theorem exists_object_of_view (hplain : h.Plain) {depth : Nat} {ref : Ref} {properties : List (Text × Value)}
    (hview : h.view depth ref = some (.object properties)) :
    ∃ a own, ref = .address a ∧ h[a]? = some (.object own) := by
  cases ref with
  | address a =>
    cases depth with
    | zero => cases hview
    | succ depth =>
      rw [view] at hview
      cases hcell : h[a]? with
      | none =>
        rw [hcell] at hview
        cases hview
      | some cell =>
        rw [hcell] at hview
        cases cell with
        | array items => cases hview
        | object own => exact ⟨a, own, rfl, hcell⟩
        | derived prototype own => exact (hplain.ordinary _ (List.mem_of_getElem? hcell)).elim
  | _ => cases depth <;> cases hview

theorem eq_string_of_view {depth : Nat} {ref : Ref} {s : Text} (hview : h.view depth ref = some (.string s)) :
    ref = .string s := by
  cases ref with
  | address a =>
    cases depth with
    | zero => cases hview
    | succ depth =>
      rw [view] at hview
      cases hcell : h[a]? with
      | none =>
        rw [hcell] at hview
        cases hview
      | some cell =>
        rw [hcell] at hview
        cases cell <;> cases hview
  | string t => cases depth <;> cases hview <;> rfl
  | _ => cases depth <;> cases hview

/-! ### Growth -/

variable {cells : List Cell}

theorem Closed.refs (hclosed : h.Closed) {a : Nat} {cell : Cell} (hcell : h[a]? = some cell) :
    ∀ ref ∈ cell.refs, ref.Within h :=
  hclosed cell (List.mem_of_getElem? hcell)

theorem within_of_grown (hgrown : h <+: h') {ref : Ref} (href : ref.Within h) : ref.Within h' :=
  href.mono fun _ ha => Nat.lt_of_lt_of_le ha hgrown.length_le

theorem getElem?_of_grown (hgrown : h <+: h') {a : Nat} (ha : a < h.length) : h'[a]? = h[a]? := by
  obtain ⟨cells, rfl⟩ := hgrown
  exact List.getElem?_append_left ha

theorem view_of_grown (hclosed : h.Closed) (hgrown : h <+: h') (depth : Nat) {ref : Ref} (href : ref.Within h) :
    h'.view depth ref = h.view depth ref :=
  view_congr (fun _ ha => ⟨getElem?_of_grown hgrown ha, fun _ hcell => hclosed.refs hcell⟩) depth href

theorem Closed.append (hclosed : h.Closed) {cell : Cell} (hcell : ∀ ref ∈ cell.refs, ref.Within h) :
    (h ++ [cell]).Closed := by
  have hwithin : ∀ ref : Ref, ref.Within h → ref.Within (h ++ [cell]) :=
    fun ref => within_of_grown (List.prefix_append h [cell])
  intro other hother ref href
  rw [List.mem_append, List.mem_singleton] at hother
  obtain hother | rfl := hother
  · exact hwithin ref (hclosed other hother ref href)
  · exact hwithin ref (hcell ref href)

theorem enclosedFrom_length (h : Heap) : h.EnclosedFrom h.length := by
  intro a ha cell hcell
  rw [List.getElem?_eq_none ha] at hcell
  cases hcell

theorem EnclosedFrom.append {start : Nat} (henclosed : h.EnclosedFrom start) {cell : Cell}
    (hcell : ∀ ref ∈ cell.refs, ref.In (start ≤ ·)) : EnclosedFrom (h ++ [cell]) start := by
  intro a ha other hother
  rw [List.getElem?_append] at hother
  split at hother
  · exact henclosed a ha other hother
  · rw [List.getElem?_singleton] at hother
    split at hother
    · cases hother
      exact hcell
    · cases hother

theorem lacksFrom_length (h : Heap) (name : Text) : h.LacksFrom name h.length := by
  intro a ha cell hcell
  rw [List.getElem?_eq_none ha] at hcell
  cases hcell

theorem LacksFrom.append {name : Text} {start : Nat} (hlacks : h.LacksFrom name start) {cell : Cell} (hcell : cell.Lacks name) :
    LacksFrom (h ++ [cell]) name start := by
  intro a ha other hother
  rw [List.getElem?_append] at hother
  split at hother
  · exact hlacks a ha other hother
  · rw [List.getElem?_singleton] at hother
    split at hother
    · cases hother
      exact hcell
    · cases hother

theorem not_mentions_inherited {name : Text} (hname : ∀ i, decimal i ≠ name) {value : Option Value}
    (hvalue : ∀ v, value = some v → ¬ v.Mentions name) :
    ∀ property ∈ inherited value, property.1 ≠ name ∧ ¬ property.2.Mentions name := by
  intro property hproperty
  unfold inherited at hproperty
  split at hproperty
  · exact Value.not_mentions_object_iff.mp (hvalue _ rfl) property hproperty
  · obtain ⟨i, hi, rfl⟩ := List.mem_mapIdx.mp hproperty
    exact ⟨hname i, Value.not_mentions_array_iff.mp (hvalue _ rfl) _ (List.getElem_mem hi)⟩
  · cases hproperty

theorem not_mentions_primitive {name : Text} {ref : Ref} {value : Value} (hvalue : ref.primitive = some value) :
    ¬ value.Mentions name := by
  intro hmentions
  cases ref <;> cases hvalue <;> cases hmentions

theorem not_mentions_view {start : Nat} {name : Text} (henclosed : h.EnclosedFrom start) (hlacks : h.LacksFrom name start)
    (hname : ∀ i, decimal i ≠ name) (depth : Nat) {ref : Ref} (href : ref.In (start ≤ ·)) {value : Value}
    (hvalue : h.view depth ref = some value) : ¬ value.Mentions name := by
  induction depth generalizing ref value with
  | zero => exact not_mentions_primitive hvalue
  | succ depth ih =>
    cases ref with
    | address a =>
      have hproperties : ∀ {properties : List (Text × Ref)}, (∀ property ∈ properties, property.1 ≠ name) →
          (∀ ref ∈ properties.map Prod.snd, ref.In (start ≤ ·)) →
          ∀ property ∈ properties.filterMap fun property => (h.view depth property.2).map (property.1, ·),
            property.1 ≠ name ∧ ¬ property.2.Mentions name := by
        intro properties hnames hrefs property hproperty
        obtain ⟨original, horiginal, hview⟩ := List.mem_filterMap.mp hproperty
        obtain ⟨v, hv, rfl⟩ := Option.map_eq_some_iff.mp hview
        exact ⟨hnames original horiginal, ih (hrefs _ (List.mem_map_of_mem horiginal)) hv⟩
      have ha := href a rfl
      rw [view] at hvalue
      cases hcell : h[a]? with
      | none =>
        rw [hcell] at hvalue
        cases hvalue
      | some cell =>
        have hrefs := henclosed a ha cell hcell
        have hnames := hlacks a ha cell hcell
        rw [hcell] at hvalue
        cases cell with
        | array items =>
          cases hvalue
          rw [Value.not_mentions_array_iff]
          intro value hmem
          obtain ⟨item, hitem, rfl⟩ := List.mem_map.mp hmem
          cases hview : h.view depth item with
          | none =>
            intro hmentions
            cases hmentions
          | some v => exact ih (hrefs item hitem) hview
        | object properties =>
          cases hvalue
          rw [Value.not_mentions_object_iff]
          exact hproperties hnames hrefs
        | derived prototype properties =>
          cases hvalue
          rw [Value.not_mentions_object_iff]
          intro property hproperty
          obtain hown | hinherited := List.mem_append.mp hproperty
          · exact hproperties hnames (fun ref hmem => hrefs ref (List.mem_cons_of_mem _ hmem)) property hown
          · exact not_mentions_inherited hname (fun v hv => ih (hrefs prototype List.mem_cons_self) hv) property
              (List.mem_of_mem_filter hinherited)
    | _ => exact not_mentions_primitive hvalue

theorem view_of_enclosed {start : Nat} (henclosed : h.EnclosedFrom start) (hsame : ∀ a, start ≤ a → h'[a]? = h[a]?)
    (depth : Nat) {ref : Ref} (href : ref.In (start ≤ ·)) : h'.view depth ref = h.view depth ref :=
  view_congr (fun a ha => ⟨hsame a ha, fun cell hcell => henclosed a ha cell hcell⟩) depth href

theorem Closed.items (hclosed : h.Closed) {ref : Ref} {items : List Ref} (hitems : h.itemsOf ref = some items) :
    ∀ item ∈ items, item.Within h := by
  cases ref with
  | address a =>
    rw [itemsOf] at hitems
    split at hitems
    · rename_i hcell
      cases hitems
      exact hclosed.refs hcell
    · cases hitems
  | _ => cases hitems

theorem Plain.append (hplain : h.Plain) {cell : Cell} (hcell : cell.IsOrdinary) (hrefs : ∀ ref ∈ cell.refs, ref.Within h) :
    Plain (h ++ [cell]) := by
  refine ⟨hplain.closed.append hrefs, fun other hother => ?_⟩
  rw [List.mem_append, List.mem_singleton] at hother
  obtain hother | rfl := hother
  · exact hplain.ordinary other hother
  · exact hcell

theorem Closed.lt_of_reaches (hclosed : h.Closed) {a b : Nat} (ha : a < h.length) (hreaches : h.Reaches a b) :
    b < h.length := by
  induction hreaches with
  | refl => exact ha
  | tail _ hrefers _ =>
    obtain ⟨cell, hcell, href⟩ := hrefers
    exact hclosed.refs hcell _ href _ rfl

end Heap

/-! ### Writing -/

/-- The properties after an assignment to one of them. -/
def setProperty : List (Text × Ref) → Text → Ref → List (Text × Ref)
  | [], name, value => [(name, value)]
  | (other, ref) :: properties, name, value =>
    if other = name then (name, value) :: properties else (other, ref) :: setProperty properties name value

/-- The properties after the deletion of one of them. -/
def deleteProperty (properties : List (Text × Ref)) (name : Text) : List (Text × Ref) :=
  properties.filter fun property => property.1 ≠ name

theorem lookup_setProperty (properties : List (Text × Ref)) (name other : Text) (value : Ref) :
    (setProperty properties name value).lookup other = if other = name then some value else properties.lookup other := by
  induction properties with
  | nil =>
    by_cases h : other = name
    · simp [setProperty, h]
    · simp [setProperty, List.lookup_cons, beq_false_of_ne h, h]
  | cons property properties ih =>
    obtain ⟨own, ref⟩ := property
    rw [setProperty]
    by_cases hown : own = name
    · by_cases h : other = name
      · simp [hown, h]
      · simp [hown, List.lookup_cons, beq_false_of_ne h, h]
    · rw [if_neg hown, List.lookup_cons, List.lookup_cons, ih]
      by_cases h : other = own
      · simp [h, hown]
      · simp [beq_false_of_ne h]

theorem setProperty_of_lookup {properties : List (Text × Ref)} {name : Text} {value : Ref}
    (h : properties.lookup name = some value) : setProperty properties name value = properties := by
  induction properties with
  | nil => cases h
  | cons property properties ih =>
    obtain ⟨own, ref⟩ := property
    rw [List.lookup_cons] at h
    rw [setProperty]
    by_cases hown : own = name
    · simp only [hown, beq_self_eq_true, Option.some.injEq] at h
      rw [if_pos hown, hown, h]
    · rw [beq_false_of_ne (Ne.symm hown)] at h
      rw [if_neg hown, ih h]

theorem lookup_deleteProperty (properties : List (Text × Ref)) (name other : Text) :
    (deleteProperty properties name).lookup other = if other = name then none else properties.lookup other := by
  induction properties with
  | nil => simp [deleteProperty]
  | cons property properties ih =>
    obtain ⟨own, ref⟩ := property
    rw [deleteProperty] at ih
    rw [deleteProperty, List.filter_cons]
    by_cases hown : own = name
    · by_cases h : other = name
      · simpa [hown, h] using ih
      · simpa [hown, List.lookup_cons, beq_false_of_ne h, h] using ih
    · by_cases h : other = own
      · simp [h, hown]
      · simpa [hown, List.lookup_cons, beq_false_of_ne h] using ih

theorem deleteProperty_of_lookup {properties : List (Text × Ref)} {name : Text}
    (h : properties.lookup name = none) : deleteProperty properties name = properties := by
  rw [deleteProperty, List.filter_eq_self]
  intro property hproperty
  rw [List.lookup_eq_none_iff] at h
  have hne := h property hproperty
  simp only [bne_iff_ne, ne_eq, decide_eq_true_eq] at hne ⊢
  exact Ne.symm hne

def ownProperty (properties : List (Text × Ref)) (name : Text) : Option Ref :=
  (properties.filter fun property => property.2 ≠ .undefined).lookup name

theorem ownProperty_setProperty (properties : List (Text × Ref)) (name other : Text) {value : Ref}
    (hvalue : value ≠ .undefined) :
    ownProperty (setProperty properties name value) other =
      if other = name then some value else ownProperty properties other := by
  induction properties with
  | nil =>
    by_cases h : other = name
    · simp [setProperty, ownProperty, hvalue, h]
    · simp [setProperty, ownProperty, hvalue, List.lookup_cons, beq_false_of_ne h, h]
  | cons property properties ih =>
    obtain ⟨own, ref⟩ := property
    simp only [ownProperty] at ih ⊢
    rw [setProperty]
    by_cases hown : own = name
    · by_cases h : other = name
      · simp [hown, hvalue, h]
      · by_cases href : ref = .undefined
        · simp [hown, hvalue, List.lookup_cons, beq_false_of_ne h, h, href]
        · simp [hown, hvalue, List.lookup_cons, beq_false_of_ne h, h, href]
    · rw [if_neg hown, List.filter_cons, List.filter_cons]
      by_cases href : ref = .undefined
      · simpa [href] using ih
      · by_cases h : other = own
        · simp [href, h, hown]
        · simpa [href, List.lookup_cons, beq_false_of_ne h] using ih

theorem ownProperty_deleteProperty (properties : List (Text × Ref)) (name other : Text) :
    ownProperty (deleteProperty properties name) other = if other = name then none else ownProperty properties other := by
  have hswap : (deleteProperty properties name).filter (fun property => property.2 ≠ .undefined) =
      deleteProperty (properties.filter fun property => property.2 ≠ .undefined) name := by
    rw [deleteProperty, deleteProperty, List.filter_filter, List.filter_filter]
    congr 1
    funext property
    exact Bool.and_comm _ _
  rw [ownProperty, hswap, lookup_deleteProperty, ownProperty]

theorem isSome_lookup_of_ownProperty {properties : List (Text × Ref)} {name : Text} {ref : Ref}
    (h : ownProperty properties name = some ref) : (properties.lookup name).isSome = true := by
  by_contra hnone
  rw [Option.not_isSome_iff_eq_none, List.lookup_eq_none_iff] at hnone
  have hfilter : ownProperty properties name = none := by
    rw [ownProperty, List.lookup_eq_none_iff]
    intro property hproperty
    exact hnone property (List.mem_filter.mp hproperty).1
  rw [hfilter] at h
  cases h

theorem lookup_filterMap {f : Ref → Option Value} (properties : List (Text × Ref)) (name : Text) :
    (properties.filterMap fun property => (f property.2).map (property.1, ·)).lookup name =
      ((properties.filter fun property => (f property.2).isSome).lookup name).bind f := by
  induction properties with
  | nil => rfl
  | cons property properties ih =>
    obtain ⟨own, ref⟩ := property
    cases href : f ref with
    | none => simpa [href] using ih
    | some value =>
      by_cases h : name = own
      · simp [href, h]
      · simpa [href, List.lookup_cons, beq_false_of_ne h] using ih

theorem isSome_view {h : Heap} {ref : Ref} (depth : Nat) (href : ref.Within h) :
    (h.view depth ref).isSome = decide (ref ≠ .undefined) := by
  cases ref with
  | address a =>
    cases depth with
    | zero => rfl
    | succ depth =>
      have hlt : a < h.length := href a rfl
      rw [Heap.view, List.getElem?_eq_getElem hlt]
      cases h[a] with
      | array items => rfl
      | object properties => rfl
      | derived prototype properties => rfl
  | _ => cases depth <;> rfl

theorem get_view {h : Heap} (hclosed : h.Closed) {a : Nat} {properties : List (Text × Ref)}
    (hcell : h[a]? = some (.object properties)) (depth : Nat) (name : Text) :
    ((h.view (depth + 1) (.address a)).bind fun value => value.get name) =
      (ownProperty properties name).bind (h.view depth) := by
  have hdefined : (properties.filter fun property => (h.view depth property.2).isSome) =
      properties.filter fun property => property.2 ≠ .undefined := by
    apply List.filter_congr
    intro property hproperty
    exact isSome_view depth (hclosed.refs hcell property.2 (List.mem_map_of_mem hproperty))
  simp only [Heap.view, hcell, Option.bind_some, Value.get]
  rw [lookup_filterMap, hdefined, ownProperty]

theorem mem_setProperty {properties : List (Text × Ref)} {name : Text} {value ref : Ref}
    (h : ref ∈ (setProperty properties name value).map Prod.snd) : ref = value ∨ ref ∈ properties.map Prod.snd := by
  induction properties with
  | nil =>
    rw [setProperty, List.map_singleton, List.mem_singleton] at h
    exact Or.inl h
  | cons property properties ih =>
    obtain ⟨own, other⟩ := property
    rw [setProperty] at h
    split at h
    · rw [List.map_cons, List.mem_cons] at h
      exact h.imp_right (List.mem_cons_of_mem _)
    · rw [List.map_cons, List.mem_cons] at h
      obtain rfl | h := h
      · exact Or.inr List.mem_cons_self
      · exact (ih h).imp_right (List.mem_cons_of_mem _)

theorem mem_deleteProperty {properties : List (Text × Ref)} {name : Text} {ref : Ref}
    (h : ref ∈ (deleteProperty properties name).map Prod.snd) : ref ∈ properties.map Prod.snd :=
  (List.filter_sublist.map Prod.snd).subset h

end Js
