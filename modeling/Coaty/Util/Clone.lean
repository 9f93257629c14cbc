import Coaty.Js.Prototype

/-!
# Deep copies

The deep copy of a JSON value keeps a set of the objects that it has come to, from which none is taken away again. So it fails not only for a circular structure but for any in which an object is referred to twice, and it fails if it needs more nested calls than there is room for on the stack. A copy shares nothing with the original. It reads the same if the original has no property `__proto__` anywhere, which the copy is assigned and does not have then.
-/

namespace Coaty

namespace Deep

open Js Heap Evaluation

/-- The heap in the course of a copy, and the objects that it has come to. -/
structure Cloning where
  heap : Heap
  refs : List Nat

namespace Cloning

/-- A new object or array. -/
def alloc (s : Cloning) (cell : Cell) : Ref × Cloning := (.address s.heap.length, { s with heap := s.heap ++ [cell] })

end Cloning

/-- The copies of values, made one after the other. -/
def cloneAll (cloneOne : Ref → Cloning → Except Error (Ref × Cloning)) : List Ref → Cloning → Except Error (List Ref × Cloning)
  | [], s => .ok ([], s)
  | ref :: refs, s => do
    let (copy, s) ← cloneOne ref s
    let (copies, s) ← cloneAll cloneOne refs s
    return (copy :: copies, s)

/-- The item of a copied array. -/
def nullIfUndefined (ref : Ref) : Ref := if ref = .undefined then .null else ref

def definedProperties (properties : List (Text × Ref)) (copies : List Ref) : List (Text × Ref) :=
  ((properties.map Prod.fst).zip copies).filter fun property => property.2 ≠ .undefined

/-- A new object after assignments to properties of different names. The one to `__proto__` replaces the prototype, or does nothing. -/
def assignAll (properties : List (Text × Ref)) : Cell :=
  let own := properties.filter fun property => property.1 ≠ text "__proto__"
  match properties.lookup (text "__proto__") with
  | some .null => .derived .null own
  | some (.address a) => .derived (.address a) own
  | _ => .object own

/-- What is copied is read from the heap as it was at first, since the copy only adds to it. -/
def cloneDeep (h : Heap) : Nat → Ref → Cloning → Except Error (Ref × Cloning)
  | 0, .address _, _ => .error .rangeError
  | depth + 1, .address a, s =>
    match h[a]? with
    | some (.array items) => do
      let (copies, s) ← cloneAll (cloneDeep h depth) items s
      return s.alloc (.array (copies.map nullIfUndefined))
    | some _ =>
      if a ∈ s.refs then .error .typeError
      else do
        let properties := h.enumerable (.address a)
        let (copies, s) ← cloneAll (cloneDeep h depth) (properties.map Prod.snd) { s with refs := a :: s.refs }
        return s.alloc (assignAll (definedProperties properties copies))
    | none => .ok (.undefined, s)
  | _, ref, s => .ok (ref, s)

def clone (h : Heap) (depth : Nat) (ref : Ref) : Except Error (Ref × Heap) := do
  let (copy, s) ← cloneDeep h depth ref ⟨h, []⟩
  return (copy, s.heap)

/-! ### How a copy comes about -/

variable {h h' : Heap} {depth : Nat} {ref copy : Ref} {s s' : Cloning}

theorem cloneAll_cons_eq_ok_iff {cloneOne : Ref → Cloning → Except Error (Ref × Cloning)} {refs copies : List Ref} :
    cloneAll cloneOne (ref :: refs) s = .ok (copies, s') ↔
      ∃ copy s₁ rest, cloneOne ref s = .ok (copy, s₁) ∧ cloneAll cloneOne refs s₁ = .ok (rest, s') ∧ copies = copy :: rest := by
  rw [cloneAll, bind_eq_ok_iff]
  constructor
  · intro h
    obtain ⟨⟨copy, s₁⟩, hfirst, hrest⟩ := h
    rw [bind_eq_ok_iff] at hrest
    obtain ⟨⟨rest, s₂⟩, hrest, heq⟩ := hrest
    cases heq
    exact ⟨copy, s₁, rest, hfirst, hrest, rfl⟩
  · intro h
    obtain ⟨copy, s₁, rest, hfirst, hrest, rfl⟩ := h
    exact ⟨(copy, s₁), hfirst, bind_eq_ok_iff.mpr ⟨(rest, s'), hrest, rfl⟩⟩

/-- What is copied: a value without an address, what is not there, an array or an object. -/
inductive Copied (h : Heap) : Nat → Ref → Cloning → Ref → Cloning → Prop
  | primitive (depth : Nat) (ref : Ref) (s : Cloning) (href : ∀ a, ref ≠ .address a) : Copied h depth ref s ref s
  | none (depth a : Nat) (s : Cloning) (hcell : h[a]? = none) : Copied h (depth + 1) (.address a) s .undefined s
  | array (depth a : Nat) (s s₁ : Cloning) (items copies : List Ref) (hcell : h[a]? = some (.array items))
    (hall : cloneAll (cloneDeep h depth) items s = .ok (copies, s₁)) :
    Copied h (depth + 1) (.address a) s (s₁.alloc (.array (copies.map nullIfUndefined))).1
      (s₁.alloc (.array (copies.map nullIfUndefined))).2
  | object (depth a : Nat) (s s₁ : Cloning) (cell : Cell) (copies : List Ref) (hcell : h[a]? = some cell)
    (hobject : ∀ items, cell ≠ .array items)
    (hall : cloneAll (cloneDeep h depth) ((h.enumerable (.address a)).map Prod.snd) { s with refs := a :: s.refs } =
      .ok (copies, s₁)) :
    Copied h (depth + 1) (.address a) s (s₁.alloc (assignAll (definedProperties (h.enumerable (.address a)) copies))).1
      (s₁.alloc (assignAll (definedProperties (h.enumerable (.address a)) copies))).2

theorem cloneDeep_primitive (href : ∀ a, ref ≠ .address a) : cloneDeep h depth ref s = .ok (ref, s) := by
  cases ref with
  | address a => exact absurd rfl (href a)
  | _ => cases depth <;> rfl

theorem cloneDeep_none {a : Nat} (hcell : h[a]? = none) : cloneDeep h (depth + 1) (.address a) s = .ok (.undefined, s) := by
  rw [cloneDeep, hcell]

theorem cloneDeep_array {a : Nat} {items : List Ref} (hcell : h[a]? = some (.array items)) :
    cloneDeep h (depth + 1) (.address a) s = (do
      let (copies, s) ← cloneAll (cloneDeep h depth) items s
      return s.alloc (.array (copies.map nullIfUndefined))) := by
  rw [cloneDeep, hcell]

theorem cloneDeep_object {a : Nat} {cell : Cell} (hcell : h[a]? = some cell) (hobject : ∀ items, cell ≠ .array items) :
    cloneDeep h (depth + 1) (.address a) s =
      if a ∈ s.refs then .error .typeError
      else do
        let (copies, s) ← cloneAll (cloneDeep h depth) ((h.enumerable (.address a)).map Prod.snd) { s with refs := a :: s.refs }
        return s.alloc (assignAll (definedProperties (h.enumerable (.address a)) copies)) := by
  rw [cloneDeep, hcell]
  cases cell with
  | array items => exact absurd rfl (hobject items)
  | object properties => rfl
  | derived prototype properties => rfl

theorem copied_of_cloneDeep (hclone : cloneDeep h depth ref s = .ok (copy, s')) : Copied h depth ref s copy s' := by
  cases ref with
  | address a =>
    cases depth with
    | zero => cases hclone
    | succ depth =>
      cases hcell : h[a]? with
      | none =>
        rw [cloneDeep_none hcell] at hclone
        cases hclone
        exact .none depth a s hcell
      | some cell =>
        by_cases harray : ∃ items, cell = .array items
        · obtain ⟨items, rfl⟩ := harray
          rw [cloneDeep_array hcell, bind_eq_ok_iff] at hclone
          obtain ⟨⟨copies, s₁⟩, hall, heq⟩ := hclone
          cases heq
          exact .array depth a s s₁ items copies hcell hall
        · rw [not_exists] at harray
          rw [cloneDeep_object hcell harray] at hclone
          split at hclone
          · cases hclone
          · rw [bind_eq_ok_iff] at hclone
            obtain ⟨⟨copies, s₁⟩, hall, heq⟩ := hclone
            cases heq
            exact .object depth a s s₁ cell copies hcell harray hall
  | _ =>
    rw [cloneDeep_primitive (by simp)] at hclone
    cases hclone
    exact .primitive depth _ s (by simp)

/-! ### What a copy leads to -/

/-- One step after the other adds to the heap, and what has been copied is among what was added. What is there from some address on leads to nothing else and has no property `__proto__`. -/
structure Grows (start : Nat) (s s' : Cloning) (copies : List Ref) : Prop where
  heap : s.heap <+: s'.heap
  closed : s'.heap.Closed
  enclosed : s'.heap.EnclosedFrom start
  lacks : s'.heap.LacksFrom (text "__proto__") start
  within : ∀ copy ∈ copies, copy.Within s'.heap
  fresh : ∀ copy ∈ copies, copy.In (s.heap.length ≤ ·)

theorem mem_definedProperties {properties : List (Text × Ref)} {copies : List Ref}
    (href : ref ∈ (definedProperties properties copies).map Prod.snd) : ref ∈ copies := by
  obtain ⟨property, hproperty, rfl⟩ := List.mem_map.mp href
  exact (List.of_mem_zip (List.mem_filter.mp hproperty).1).2

theorem mem_nullIfUndefined {copies : List Ref} (href : ref ∈ copies.map nullIfUndefined) :
    ref ∈ copies ∨ ref = .null := by
  obtain ⟨copy, hcopy, rfl⟩ := List.mem_map.mp href
  rw [nullIfUndefined]
  split
  · exact Or.inr rfl
  · exact Or.inl hcopy

theorem mem_assignAll {properties : List (Text × Ref)} (href : ref ∈ (assignAll properties).refs) :
    ref ∈ properties.map Prod.snd ∨ ref = .null := by
  have hown : ∀ ref ∈ (properties.filter fun property => property.1 ≠ text "__proto__").map Prod.snd,
      ref ∈ properties.map Prod.snd := fun ref hmem => (List.filter_sublist.map Prod.snd).subset hmem
  rw [assignAll] at href
  split at href
  · obtain rfl | href := List.mem_cons.mp href
    · exact .inr rfl
    · exact .inl (hown ref href)
  · rename_i a hlookup
    obtain rfl | href := List.mem_cons.mp href
    · exact .inl (List.mem_map_of_mem (mem_of_lookup hlookup))
    · exact .inl (hown ref href)
  · exact .inl (hown ref href)

theorem lacks_assignAll (properties : List (Text × Ref)) : (assignAll properties).Lacks (text "__proto__") := by
  have hown : ∀ property ∈ properties.filter fun property => property.1 ≠ text "__proto__", property.1 ≠ text "__proto__" :=
    fun property hproperty => by simpa using (List.mem_filter.mp hproperty).2
  rw [assignAll]
  split <;> exact hown

theorem Grows.alloc {start : Nat} {copies : List Ref} (hstart : start ≤ s.heap.length) (hgrows : Grows start s s' copies)
    {cell : Cell} (hrefs : ∀ ref ∈ cell.refs, ref ∈ copies ∨ ref = .null) (hlacks : cell.Lacks (text "__proto__")) :
    Grows start s (s'.alloc cell).2 [(s'.alloc cell).1] := by
  have hcell : ∀ {P : Nat → Prop}, (∀ copy ∈ copies, copy.In P) → ∀ ref ∈ cell.refs, ref.In P := by
    intro P hcopies ref href
    obtain hmem | rfl := hrefs ref href
    · exact hcopies ref hmem
    · exact nofun
  have hfresh : ∀ copy ∈ copies, copy.In (start ≤ ·) :=
    fun copy hcopy => (hgrows.fresh copy hcopy).mono fun _ ha => hstart.trans ha
  refine ⟨hgrows.heap.trans (List.prefix_append _ _), hgrows.closed.append (hcell hgrows.within),
    hgrows.enclosed.append (hcell hfresh), hgrows.lacks.append hlacks, ?_, ?_⟩
  · intro copy hcopy
    rw [List.mem_singleton] at hcopy
    subst hcopy
    apply Ref.in_address
    simp [Cloning.alloc]
  · intro copy hcopy
    rw [List.mem_singleton] at hcopy
    subst hcopy
    exact Ref.in_address hgrows.heap.length_le

theorem cloneAll_grows {start : Nat} {refs copies : List Ref}
    (hone : ∀ ref s copy s', start ≤ s.heap.length → s.heap.Closed → s.heap.EnclosedFrom start →
      s.heap.LacksFrom (text "__proto__") start → cloneDeep h depth ref s = .ok (copy, s') → Grows start s s' [copy])
    (hstart : start ≤ s.heap.length) (hclosed : s.heap.Closed) (henclosed : s.heap.EnclosedFrom start)
    (hlacks : s.heap.LacksFrom (text "__proto__") start) (hall : cloneAll (cloneDeep h depth) refs s = .ok (copies, s')) :
    Grows start s s' copies := by
  induction refs generalizing s copies with
  | nil =>
    cases hall
    exact ⟨List.prefix_refl _, hclosed, henclosed, hlacks, by simp, by simp⟩
  | cons ref refs ih =>
    obtain ⟨copy, s₁, rest, hfirst, hrest, rfl⟩ := cloneAll_cons_eq_ok_iff.mp hall
    have hgrows₁ := hone ref s copy s₁ hstart hclosed henclosed hlacks hfirst
    have hlength := hgrows₁.heap.length_le
    have hgrows := ih (hstart.trans hlength) hgrows₁.closed hgrows₁.enclosed hgrows₁.lacks hrest
    have hmem : copy ∈ [copy] := List.mem_singleton_self copy
    refine ⟨hgrows₁.heap.trans hgrows.heap, hgrows.closed, hgrows.enclosed, hgrows.lacks, ?_, ?_⟩
    · rw [List.forall_mem_cons]
      exact ⟨within_of_grown hgrows.heap (hgrows₁.within copy hmem), hgrows.within⟩
    · rw [List.forall_mem_cons]
      exact ⟨hgrows₁.fresh copy hmem, fun copy' hcopy' => (hgrows.fresh copy' hcopy').mono fun _ ha => hlength.trans ha⟩

theorem cloneDeep_grows {start : Nat} (hstart : start ≤ s.heap.length) (hclosed : s.heap.Closed)
    (henclosed : s.heap.EnclosedFrom start) (hlacks : s.heap.LacksFrom (text "__proto__") start)
    (hclone : cloneDeep h depth ref s = .ok (copy, s')) : Grows start s s' [copy] := by
  induction depth generalizing ref s copy s' with
  | zero =>
    cases copied_of_cloneDeep hclone with
    | primitive _ _ _ href =>
      have hno : ∀ P : Nat → Prop, ∀ copy ∈ [ref], copy.In P := fun P copy hcopy a ha =>
        absurd (List.mem_singleton.mp hcopy ▸ ha) (href a)
      exact ⟨List.prefix_refl _, hclosed, henclosed, hlacks, hno _, hno _⟩
  | succ depth ih =>
    cases copied_of_cloneDeep hclone with
    | primitive _ _ _ href =>
      have hno : ∀ P : Nat → Prop, ∀ copy ∈ [ref], copy.In P := fun P copy hcopy a ha =>
        absurd (List.mem_singleton.mp hcopy ▸ ha) (href a)
      exact ⟨List.prefix_refl _, hclosed, henclosed, hlacks, hno _, hno _⟩
    | none =>
      exact ⟨List.prefix_refl _, hclosed, henclosed, hlacks, by simp [Ref.Within, Ref.In], by simp [Ref.In]⟩
    | array _ a _ s₁ items copies hcell hall =>
      have hgrows := cloneAll_grows (fun ref s copy s' => ih) hstart hclosed henclosed hlacks hall
      exact hgrows.alloc hstart (fun ref href => mem_nullIfUndefined href) trivial
    | object _ a _ s₁ cell copies hcell hobject hall =>
      have hstart' : start ≤ ({ s with refs := a :: s.refs } : Cloning).heap.length := hstart
      have hgrows := cloneAll_grows (fun ref s copy s' => ih) hstart' hclosed henclosed hlacks hall
      have hgrows' : Grows start s s₁ copies :=
        ⟨hgrows.heap, hgrows.closed, hgrows.enclosed, hgrows.lacks, hgrows.within, hgrows.fresh⟩
      refine hgrows'.alloc hstart (fun ref href => ?_) (lacks_assignAll _)
      exact (mem_assignAll href).imp_left mem_definedProperties

/-! ### What a copy reads like -/

/-- What is read from the reference has no property `__proto__`, which a copy loses. -/
def Lossless (h : Heap) (depth : Nat) (ref : Ref) : Prop :=
  ∀ value, h.view depth ref = some value → ¬ value.Mentions (text "__proto__")

theorem lossless_of_lacks (hlacks : ∀ cell ∈ h, cell.Lacks (text "__proto__")) (depth : Nat) (ref : Ref) : Lossless h depth ref := by
  intro value hvalue
  have hname : ∀ i, decimal i ≠ text "__proto__" := decimal_ne_of_mem (c := unit '_') (by decide) (by decide)
  have henclosed : h.EnclosedFrom 0 := fun a _ cell _ ref _ b _ => Nat.zero_le b
  have hlacks' : h.LacksFrom (text "__proto__") 0 := fun a _ cell hcell => hlacks cell (List.mem_of_getElem? hcell)
  exact not_mentions_view henclosed hlacks' hname depth (fun a _ => Nat.zero_le a) hvalue

theorem view_nullIfUndefined (h : Heap) (depth : Nat) (ref : Ref) :
    (h.view depth (nullIfUndefined ref)).getD .null = (h.view depth ref).getD .null := by
  rw [nullIfUndefined]
  split
  · rename_i heq
    rw [heq]
    cases depth <;> rfl
  · rfl

theorem map_nullIfUndefined {copies refs : List Ref} (hcopies : copies.map (h'.view depth) = refs.map (h.view depth)) :
    ((copies.map nullIfUndefined).map fun item => (h'.view depth item).getD .null) =
      refs.map fun item => (h.view depth item).getD .null := by
  calc ((copies.map nullIfUndefined).map fun item => (h'.view depth item).getD .null)
      = (copies.map (h'.view depth)).map fun value => value.getD .null := by
        rw [List.map_map, List.map_map]
        apply List.map_congr_left
        intro copy _
        exact view_nullIfUndefined h' depth copy
    _ = refs.map fun item => (h.view depth item).getD .null := by
        rw [hcopies, List.map_map]
        rfl

theorem filterMap_definedProperties {properties : List (Text × Ref)} {copies : List Ref}
    (hcopies : copies.map (h'.view depth) = (properties.map Prod.snd).map (h.view depth)) :
    ((definedProperties properties copies).filterMap fun property => (h'.view depth property.2).map (property.1, ·)) =
      properties.filterMap fun property => (h.view depth property.2).map (property.1, ·) := by
  induction properties generalizing copies with
  | nil => simp [definedProperties]
  | cons property properties ih =>
    obtain ⟨name, own⟩ := property
    cases copies with
    | nil => simp at hcopies
    | cons copy copies =>
      simp only [List.map_cons, List.cons.injEq] at hcopies
      have hrest := ih hcopies.2
      rw [definedProperties] at hrest
      rw [definedProperties, List.map_cons, List.zip_cons_cons, List.filter_cons]
      by_cases hundefined : copy = .undefined
      · have hnone : h.view depth own = none := by
          rw [← hcopies.1, hundefined]
          cases depth <;> rfl
        simp only [hundefined, ne_eq, not_true_eq_false, decide_false, Bool.false_eq_true, if_false]
        rw [hrest, List.filterMap_cons_none]
        simp [hnone]
      · simp only [hundefined, ne_eq, not_false_eq_true, decide_true, if_true]
        rw [List.filterMap_cons, List.filterMap_cons, hrest]
        simp only [hcopies.1]

theorem assignAll_definedProperties {properties : List (Text × Ref)} {copies : List Ref}
    (hcopies : copies.map (h'.view depth) = (properties.map Prod.snd).map (h.view depth))
    (hwithin : ∀ copy ∈ copies, copy.Within h')
    (hproperties : ∀ property ∈ properties, (h.view depth property.2).isSome = true → property.1 ≠ text "__proto__") :
    assignAll (definedProperties properties copies) = .object (definedProperties properties copies) := by
  have hnames : ∀ property ∈ definedProperties properties copies, property.1 ≠ text "__proto__" := by
    intro property hproperty
    obtain ⟨hmem, hdefined⟩ := List.mem_filter.mp hproperty
    obtain ⟨i, hi⟩ := List.mem_iff_getElem?.mp hmem
    rw [List.getElem?_zip_eq_some, List.getElem?_map, Option.map_eq_some_iff] at hi
    obtain ⟨⟨original, horiginal, hname⟩, hcopy⟩ := hi
    have hview : h'.view depth property.2 = h.view depth original.2 := by
      have hi := congrArg (·[i]?) hcopies
      simpa [hcopy, horiginal] using hi
    rw [← hname]
    apply hproperties original (List.mem_of_getElem? horiginal)
    rw [← hview, isSome_view depth (hwithin _ (List.mem_of_getElem? hcopy))]
    exact hdefined
  have hnone : (definedProperties properties copies).lookup (text "__proto__") = none := by
    rw [List.lookup_eq_none_iff]
    intro property hproperty
    exact bne_iff_ne.mpr (hnames property hproperty).symm
  have hall : (definedProperties properties copies).filter (fun property => property.1 ≠ text "__proto__") =
      definedProperties properties copies :=
    List.filter_eq_self.mpr fun property hproperty => decide_eq_true (hnames property hproperty)
  rw [assignAll, hnone, hall]

theorem view_array {a : Nat} {items : List Ref} (hcell : h[a]? = some (.array items)) :
    h.view (depth + 1) (.address a) = some (.array (items.map fun item => (h.view depth item).getD .null)) := by
  simp only [view, hcell]

theorem view_object {a : Nat} {properties : List (Text × Ref)} (hcell : h[a]? = some (.object properties)) :
    h.view (depth + 1) (.address a) =
      some (.object (properties.filterMap fun property => (h.view depth property.2).map (property.1, ·))) := by
  simp only [view, hcell]

theorem Lossless.item {a : Nat} {items : List Ref} (hlossless : Lossless h (depth + 1) (.address a))
    (hcell : h[a]? = some (.array items)) : ∀ item ∈ items, Lossless h depth item := by
  intro item hitem value hvalue
  have hmem : value ∈ items.map fun item => (h.view depth item).getD .null :=
    List.mem_map.mpr ⟨item, hitem, by rw [hvalue]; rfl⟩
  exact Value.not_mentions_array_iff.mp (hlossless _ (view_array hcell)) value hmem

theorem Lossless.property {a : Nat} {properties : List (Text × Ref)} (hlossless : Lossless h (depth + 1) (.address a))
    (hcell : h[a]? = some (.object properties)) : ∀ property ∈ properties,
      ((h.view depth property.2).isSome = true → property.1 ≠ text "__proto__") ∧ Lossless h depth property.2 := by
  have hnot := Value.not_mentions_object_iff.mp (hlossless _ (view_object hcell))
  have hmem : ∀ property ∈ properties, ∀ value, h.view depth property.2 = some value → (property.1, value) ∈
      properties.filterMap fun property => (h.view depth property.2).map (property.1, ·) :=
    fun property hproperty value hvalue => List.mem_filterMap.mpr ⟨property, hproperty, by rw [hvalue]; rfl⟩
  intro property hproperty
  constructor
  · intro hsome
    obtain ⟨value, hvalue⟩ := Option.isSome_iff_exists.mp hsome
    exact (hnot _ (hmem property hproperty value hvalue)).1
  · intro value hvalue
    exact (hnot _ (hmem property hproperty value hvalue)).2

/-- The copies read like the originals, and the prototypes of all that has been added are the one of all objects. -/
structure Reads (h : Heap) (depth : Nat) (refs : List Ref) (s s' : Cloning) (copies : List Ref) : Prop where
  heap : s.heap <+: s'.heap
  closed : s'.heap.Closed
  within : ∀ copy ∈ copies, copy.Within s'.heap
  ordinary : (∀ cell ∈ s.heap, cell.IsOrdinary) → ∀ cell ∈ s'.heap, cell.IsOrdinary
  views : copies.map (s'.heap.view depth) = refs.map (h.view depth)

theorem Reads.alloc {refs copies : List Ref} (hreads : Reads h depth refs s s' copies) {cell : Cell}
    (hrefs : ∀ ref ∈ cell.refs, ref ∈ copies ∨ ref = .null) (hordinary : cell.IsOrdinary)
    (hview : copies.map ((s'.heap ++ [cell]).view depth) = refs.map (h.view depth) →
      (s'.heap ++ [cell]).view (depth + 1) (.address s'.heap.length) = h.view (depth + 1) ref) :
    Reads h (depth + 1) [ref] s (s'.alloc cell).2 [(s'.alloc cell).1] := by
  have hcell : ∀ ref ∈ cell.refs, ref.Within s'.heap := by
    intro ref href
    obtain hmem | rfl := hrefs ref href
    · exact hreads.within ref hmem
    · exact nofun
  have hviews : copies.map ((s'.heap ++ [cell]).view depth) = refs.map (h.view depth) := by
    rw [← hreads.views]
    apply List.map_congr_left
    intro copy hcopy
    exact view_of_grown hreads.closed (List.prefix_append _ _) depth (hreads.within copy hcopy)
  refine ⟨hreads.heap.trans (List.prefix_append _ _), hreads.closed.append hcell, ?_, ?_, ?_⟩
  · intro copy hcopy
    rw [List.mem_singleton] at hcopy
    subst hcopy
    apply Ref.in_address
    simp [Cloning.alloc]
  · intro hall other hother
    rw [Cloning.alloc, List.mem_append, List.mem_singleton] at hother
    obtain hother | rfl := hother
    · exact hreads.ordinary hall other hother
    · exact hordinary
  · rw [List.map_singleton, List.map_singleton]
    exact congrArg ([·]) (hview hviews)

theorem cloneAll_reads {refs copies : List Ref}
    (hone : ∀ ref ∈ refs, ∀ s copy s', s.heap.Closed → cloneDeep h depth ref s = .ok (copy, s') →
      Reads h depth [ref] s s' [copy])
    (hclosed : s.heap.Closed) (hall : cloneAll (cloneDeep h depth) refs s = .ok (copies, s')) :
    Reads h depth refs s s' copies := by
  induction refs generalizing s copies with
  | nil =>
    cases hall
    exact ⟨List.prefix_refl _, hclosed, by simp, id, rfl⟩
  | cons ref refs ih =>
    rw [List.forall_mem_cons] at hone
    obtain ⟨copy, s₁, rest, hfirst, hrest, rfl⟩ := cloneAll_cons_eq_ok_iff.mp hall
    have hreads₁ := hone.1 s copy s₁ hclosed hfirst
    have hreads := ih hone.2 hreads₁.closed hrest
    have hwithin := hreads₁.within copy (List.mem_singleton_self copy)
    have hview := hreads₁.views
    rw [List.map_singleton, List.map_singleton, List.singleton_inj] at hview
    refine ⟨hreads₁.heap.trans hreads.heap, hreads.closed, ?_, fun hordinary => hreads.ordinary (hreads₁.ordinary hordinary),
      ?_⟩
    · rw [List.forall_mem_cons]
      exact ⟨within_of_grown hreads.heap hwithin, hreads.within⟩
    · rw [List.map_cons, List.map_cons, hreads.views, view_of_grown hreads₁.closed hreads.heap depth hwithin, hview]

theorem reads_primitive (hclosed : s.heap.Closed) (href : ∀ a, ref ≠ .address a) : Reads h depth [ref] s s [ref] := by
  refine ⟨List.prefix_refl _, hclosed, ?_, id, ?_⟩
  · intro copy hcopy a ha
    exact absurd (List.mem_singleton.mp hcopy ▸ ha) (href a)
  · cases ref with
    | address a => exact absurd rfl (href a)
    | _ => cases depth <;> rfl

theorem cloneDeep_reads (hordinary : ∀ cell ∈ h, cell.IsOrdinary) (hclosed : s.heap.Closed)
    (hlossless : Lossless h depth ref) (hclone : cloneDeep h depth ref s = .ok (copy, s')) :
    Reads h depth [ref] s s' [copy] := by
  induction depth generalizing ref s copy s' with
  | zero =>
    cases copied_of_cloneDeep hclone with
    | primitive _ _ _ href => exact reads_primitive hclosed href
  | succ depth ih =>
    cases copied_of_cloneDeep hclone with
    | primitive _ _ _ href => exact reads_primitive hclosed href
    | none _ a _ hcell =>
      refine ⟨List.prefix_refl _, hclosed, by simp [Ref.Within, Ref.In], id, ?_⟩
      have hnone : h.view (depth + 1) (.address a) = none := by rw [view, hcell]
      rw [List.map_singleton, List.map_singleton, hnone]
      rfl
    | array _ a _ s₁ items copies hcell hall =>
      have hitems := hlossless.item hcell
      have hreads := cloneAll_reads (fun ref href s copy s' hclosed => ih hclosed (hitems ref href)) hclosed hall
      refine hreads.alloc (fun ref href => mem_nullIfUndefined href) trivial fun hviews => ?_
      rw [view_array List.getElem?_concat_length, view_array hcell, map_nullIfUndefined hviews]
    | object _ a _ s₁ cell copies hcell hobject hall =>
      cases cell with
      | array items => exact absurd rfl (hobject items)
      | derived prototype properties => exact (hordinary _ (List.mem_of_getElem? hcell)).elim
      | object properties =>
        have hproperties := hlossless.property hcell
        rw [enumerable_object hcell] at hall ⊢
        have hrefs : ∀ ref ∈ properties.map Prod.snd, Lossless h depth ref := by
          intro ref href
          obtain ⟨property, hproperty, rfl⟩ := List.mem_map.mp href
          exact (hproperties property hproperty).2
        have hclosed' : ({ s with refs := a :: s.refs } : Cloning).heap.Closed := hclosed
        have hreads := cloneAll_reads (fun ref href s copy s' hclosed => ih hclosed (hrefs ref href)) hclosed' hall
        have hreads' : Reads h depth (properties.map Prod.snd) s s₁ copies :=
          ⟨hreads.heap, hreads.closed, hreads.within, hreads.ordinary, hreads.views⟩
        rw [assignAll_definedProperties hreads.views hreads.within fun property hproperty => (hproperties property hproperty).1]
        refine hreads'.alloc (fun ref href => .inl (mem_definedProperties href)) trivial fun hviews => ?_
        rw [view_object List.getElem?_concat_length, view_object hcell, filterMap_definedProperties hviews]

/-! ### Copies in the course of other changes -/

theorem cloneDeep_of_grown (hplain : h.Plain) (hgrown : h <+: h') (href : ref.Within h) :
    cloneDeep h' depth ref s = cloneDeep h depth ref s := by
  induction depth generalizing ref s with
  | zero => cases ref <;> rfl
  | succ depth ih =>
    have hall : ∀ {refs : List Ref} {s : Cloning}, (∀ ref ∈ refs, ref.Within h) →
        cloneAll (cloneDeep h' depth) refs s = cloneAll (cloneDeep h depth) refs s := by
      intro refs s hrefs
      induction refs generalizing s with
      | nil => rfl
      | cons ref refs ihRefs =>
        rw [List.forall_mem_cons] at hrefs
        rw [cloneAll, cloneAll, ih hrefs.1]
        simp only [ihRefs hrefs.2]
    cases ref with
    | address a =>
      have hsame := getElem?_of_grown hgrown (href a rfl)
      cases hcell : h[a]? with
      | none => rw [cloneDeep_none hcell, cloneDeep_none (hsame.trans hcell)]
      | some cell =>
        have hrefs := hplain.closed.refs hcell
        cases cell with
        | array items => rw [cloneDeep_array hcell, cloneDeep_array (hsame.trans hcell), hall (show ∀ ref ∈ items, ref.Within h from hrefs)]
        | derived prototype properties => exact (hplain.ordinary _ (List.mem_of_getElem? hcell)).elim
        | object properties =>
          have hobject : ∀ items, Cell.object properties ≠ .array items := fun items => nofun
          rw [cloneDeep_object hcell hobject, cloneDeep_object (hsame.trans hcell) hobject, enumerable_object hcell,
            enumerable_object (hsame.trans hcell), hall (show ∀ ref ∈ properties.map Prod.snd, ref.Within h from hrefs)]
    | _ => rfl

/-- A copy of something in a heap that has been added to since. -/
structure IsMade (h h' : Heap) (depth : Nat) (ref copy : Ref) (h'' : Heap) : Prop where
  grown : h' <+: h''
  closed : h''.Closed
  within : copy.Within h''
  fresh : copy.In (h'.length ≤ ·)
  view_eq_iff : h''.view depth copy = h.view depth ref ↔ Lossless h depth ref
  ordinary : Lossless h depth ref → (∀ cell ∈ h', cell.IsOrdinary) → ∀ cell ∈ h'', cell.IsOrdinary

variable {h'' : Heap}

theorem cloneDeep_of_clone (hclone : clone h depth ref = .ok (copy, h')) :
    ∃ s, cloneDeep h depth ref ⟨h, []⟩ = .ok (copy, s) ∧ s.heap = h' := by
  rw [clone, bind_eq_ok_iff] at hclone
  obtain ⟨⟨copy', s⟩, hdeep, hclone⟩ := hclone
  cases hclone
  exact ⟨s, hdeep, rfl⟩

theorem clone_grows {start : Nat} (hstart : start ≤ h.length) (hclosed : h.Closed) (henclosed : h.EnclosedFrom start)
    (hlacks : h.LacksFrom (text "__proto__") start) (hclone : clone h depth ref = .ok (copy, h')) :
    h'.EnclosedFrom start ∧ h'.LacksFrom (text "__proto__") start := by
  obtain ⟨s, hdeep, rfl⟩ := cloneDeep_of_clone hclone
  have hgrows : Grows start ⟨h, []⟩ s [copy] := cloneDeep_grows hstart hclosed henclosed hlacks hdeep
  exact ⟨hgrows.enclosed, hgrows.lacks⟩

theorem exists_address_of_clone {a : Nat} (ha : a < h.length) (hclone : clone h depth (.address a) = .ok (copy, h')) :
    ∃ b, copy = .address b := by
  obtain ⟨s, hdeep, rfl⟩ := cloneDeep_of_clone hclone
  cases copied_of_cloneDeep hdeep with
  | primitive _ _ _ href => exact absurd rfl (href a)
  | none _ _ _ hcell =>
    rw [List.getElem?_eq_none_iff] at hcell
    exact absurd ha (Nat.not_lt.mpr hcell)
  | array => exact ⟨_, rfl⟩
  | object => exact ⟨_, rfl⟩

theorem clone_grown (hclosed : h.Closed) (hclone : clone h depth ref = .ok (copy, h')) : h <+: h' ∧ h'.Closed := by
  obtain ⟨s, hdeep, rfl⟩ := cloneDeep_of_clone hclone
  have hgrows : Grows h.length ⟨h, []⟩ s [copy] :=
    cloneDeep_grows le_rfl hclosed (enclosedFrom_length h) (lacksFrom_length h _) hdeep
  exact ⟨hgrows.heap, hgrows.closed⟩

theorem view_of_clone (hplain : h.Plain) (hlossless : Lossless h depth ref) (hclone : clone h depth ref = .ok (copy, h')) :
    h'.view depth copy = h.view depth ref := by
  obtain ⟨s, hdeep, rfl⟩ := cloneDeep_of_clone hclone
  have hreads : Reads h depth [ref] ⟨h, []⟩ s [copy] := cloneDeep_reads hplain.ordinary hplain.closed hlossless hdeep
  exact List.singleton_inj.mp hreads.views

theorem not_mentions_of_clone (hclosed : h.Closed) (hclone : clone h depth ref = .ok (copy, h')) {value : Value}
    (hvalue : h'.view depth copy = some value) : ¬ value.Mentions (text "__proto__") := by
  obtain ⟨s, hdeep, rfl⟩ := cloneDeep_of_clone hclone
  have hgrows : Grows h.length ⟨h, []⟩ s [copy] :=
    cloneDeep_grows le_rfl hclosed (enclosedFrom_length h) (lacksFrom_length h _) hdeep
  have hname : ∀ i, decimal i ≠ text "__proto__" := decimal_ne_of_mem (c := unit '_') (by decide) (by decide)
  have hfresh := hgrows.fresh copy (List.mem_singleton_self copy)
  exact not_mentions_view hgrows.enclosed hgrows.lacks hname depth hfresh hvalue

theorem lossless_of_view_clone (hclosed : h.Closed) (hclone : clone h depth ref = .ok (copy, h'))
    (hview : (h'.view depth copy).getD .null = (h.view depth ref).getD .null) : Lossless h depth ref := by
  intro value hvalue
  rw [hvalue, Option.getD_some] at hview
  cases hcopy : h'.view depth copy with
  | none =>
    rw [hcopy, Option.getD_none] at hview
    subst hview
    intro hmentions
    cases hmentions
  | some value' =>
    rw [hcopy, Option.getD_some] at hview
    subst hview
    exact not_mentions_of_clone hclosed hclone hcopy

/-- A copy adds to the heap and is among what was added. It reads like the original exactly if this has no property `__proto__`. -/
theorem clone_spec (hplain : h.Plain) (hgrown : h <+: h') (hclosed : h'.Closed) (href : ref.Within h)
    (hclone : clone h' depth ref = .ok (copy, h'')) : IsMade h h' depth ref copy h'' := by
  obtain ⟨s, hdeep, rfl⟩ := cloneDeep_of_clone hclone
  have hgrows : Grows h'.length ⟨h', []⟩ s [copy] :=
    cloneDeep_grows le_rfl hclosed (enclosedFrom_length h') (lacksFrom_length h' _) hdeep
  have hfresh := hgrows.fresh copy (List.mem_singleton_self copy)
  have hreads : Lossless h depth ref → Reads h depth [ref] ⟨h', []⟩ s [copy] := fun hlossless =>
    cloneDeep_reads hplain.ordinary hclosed hlossless ((cloneDeep_of_grown hplain hgrown href).symm.trans hdeep)
  refine ⟨hgrows.heap, hgrows.closed, hgrows.within copy (List.mem_singleton_self copy), hfresh, ⟨?_, ?_⟩,
    fun hlossless => (hreads hlossless).ordinary⟩
  · intro hview value hvalue
    rw [← hview] at hvalue
    exact not_mentions_of_clone hclosed hclone hvalue
  · intro hlossless
    exact List.singleton_inj.mp (hreads hlossless).views

end Deep

end Coaty
