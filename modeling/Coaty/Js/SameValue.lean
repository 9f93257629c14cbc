import Coaty.Js.Value
import Mathlib.Data.List.Perm.Subperm

/-!
# JSON values up to the order of properties

The properties of an object have distinct names. Two values are the same up to the order of properties if one is made of the other by reordering the properties of objects in it, so this is the least congruence that does not tell apart objects with reordered properties.
-/

namespace Js

/-- No object in the value has two properties of one name. -/
inductive WellFormed : Value → Prop
  | null : WellFormed .null
  | bool (b : Bool) : WellFormed (.bool b)
  | number (n : Rat) : WellFormed (.number n)
  | string (s : Text) : WellFormed (.string s)
  | array {items : List Value} (hitems : ∀ item ∈ items, WellFormed item) : WellFormed (.array items)
  | object {properties : List (Text × Value)} (hnodup : (properties.map Prod.fst).Nodup)
    (hproperties : ∀ name value, (name, value) ∈ properties → WellFormed value) : WellFormed (.object properties)

/-- The values are the same up to the order of properties. -/
inductive Same : Value → Value → Prop
  | refl (a : Value) : Same a a
  | symm {a b : Value} : Same a b → Same b a
  | trans {a b c : Value} : Same a b → Same b c → Same a c
  | permuted {as bs : List (Text × Value)} : as.Perm bs → Same (.object as) (.object bs)
  | item {a b : Value} (before after : List Value) :
    Same a b → Same (.array (before ++ a :: after)) (.array (before ++ b :: after))
  | property {a b : Value} (before after : List (Text × Value)) (name : Text) :
    Same a b → Same (.object (before ++ (name, a) :: after)) (.object (before ++ (name, b) :: after))

/-! ### Properties by name -/

theorem lookup_of_mem {properties : List (Text × Value)} (hnodup : (properties.map Prod.fst).Nodup) {name : Text}
    {value : Value} (hmem : (name, value) ∈ properties) : properties.lookup name = some value := by
  induction properties with
  | nil => cases hmem
  | cons property properties ih =>
    obtain ⟨other, first⟩ := property
    rw [List.map_cons, List.nodup_cons] at hnodup
    obtain heq | htail := List.mem_cons.mp hmem
    · cases heq
      exact List.lookup_cons_self
    · have hne : name ≠ other := by
        rintro rfl
        exact hnodup.1 (List.mem_map.mpr ⟨(name, value), htail, rfl⟩)
      rw [List.lookup_cons, beq_false_of_ne hne]
      exact ih hnodup.2 htail

/-! ### Parts -/

theorem WellFormed.of_item {items : List Value} (h : WellFormed (.array items)) {item : Value} (hmem : item ∈ items) :
    WellFormed item := by
  cases h with
  | array hitems => exact hitems item hmem

theorem WellFormed.nodup {properties : List (Text × Value)} (h : WellFormed (.object properties)) :
    (properties.map Prod.fst).Nodup := by
  cases h with
  | object hnodup _ => exact hnodup

theorem WellFormed.of_property {properties : List (Text × Value)} (h : WellFormed (.object properties)) {name : Text}
    {value : Value} (hmem : (name, value) ∈ properties) : WellFormed value := by
  cases h with
  | object _ hproperties => exact hproperties name value hmem

theorem Same.wellFormed_iff {a b : Value} (h : Same a b) : WellFormed a ↔ WellFormed b := by
  induction h with
  | refl a => rfl
  | symm _ ih => exact ih.symm
  | trans _ _ ih ih' => exact ih.trans ih'
  | @permuted as bs hperm =>
    constructor
    · intro has
      exact .object ((hperm.map Prod.fst).nodup_iff.mp has.nodup) fun name value hmem =>
        has.of_property (hperm.mem_iff.mpr hmem)
    · intro hbs
      exact .object ((hperm.map Prod.fst).nodup_iff.mpr hbs.nodup) fun name value hmem =>
        hbs.of_property (hperm.mem_iff.mp hmem)
  | @item a b before after _ ih =>
    have hreplace : ∀ {a b : Value}, (WellFormed a → WellFormed b) → WellFormed (.array (before ++ a :: after)) →
        WellFormed (.array (before ++ b :: after)) := by
      intro a b hab h
      refine .array fun item hmem => ?_
      obtain hmem | hmem := List.mem_append.mp hmem
      · exact h.of_item (List.mem_append_left _ hmem)
      · obtain rfl | hmem := List.mem_cons.mp hmem
        · exact hab (h.of_item (by simp))
        · exact h.of_item (by simp [hmem])
    exact ⟨hreplace ih.mp, hreplace ih.mpr⟩
  | @property a b before after name _ ih =>
    have hreplace : ∀ {a b : Value}, (WellFormed a → WellFormed b) →
        WellFormed (.object (before ++ (name, a) :: after)) → WellFormed (.object (before ++ (name, b) :: after)) := by
      intro a b hab h
      refine .object (by simpa using h.nodup) fun other value hmem => ?_
      obtain hmem | hmem := List.mem_append.mp hmem
      · exact h.of_property (List.mem_append_left _ hmem)
      · obtain heq | hmem := List.mem_cons.mp hmem
        · cases heq
          exact hab (h.of_property (show (name, a) ∈ before ++ (name, a) :: after by simp))
        · exact h.of_property (show (other, value) ∈ before ++ (name, a) :: after by simp [hmem])
    exact ⟨hreplace ih.mp, hreplace ih.mpr⟩

/-! ### Congruence -/

theorem same_array {as bs : List Value} (h : List.Forall₂ Same as bs) (before : List Value) :
    Same (.array (before ++ as)) (.array (before ++ bs)) := by
  induction h generalizing before with
  | nil => exact .refl _
  | @cons a b as bs hsame _ ih =>
    have hrest := ih (before ++ [b])
    rw [List.append_assoc, List.append_assoc] at hrest
    exact (Same.item before as hsame).trans hrest

theorem same_object {as bs : List (Text × Value)} (h : List.Forall₂ (fun a b => a.1 = b.1 ∧ Same a.2 b.2) as bs)
    (before : List (Text × Value)) : Same (.object (before ++ as)) (.object (before ++ bs)) := by
  induction h generalizing before with
  | nil => exact .refl _
  | @cons a b as bs hsame _ ih =>
    obtain ⟨name, a⟩ := a
    obtain ⟨other, b⟩ := b
    obtain ⟨rfl, hsame⟩ := hsame
    have hrest := ih (before ++ [(name, b)])
    rw [List.append_assoc, List.append_assoc] at hrest
    exact (Same.property before as name hsame).trans hrest

/-- Objects with as many properties are the same if each property of the first one has the same value in the second one. -/
theorem same_of_lookup {as bs : List (Text × Value)} (hlength : as.length = bs.length)
    (has : (as.map Prod.fst).Nodup)
    (h : ∀ name a, (name, a) ∈ as → ∃ b, bs.lookup name = some b ∧ Same a b) : Same (.object as) (.object bs) := by
  have hmatched : ∀ property ∈ as, ∃ b, bs.lookup property.1 = some b ∧ Same property.2 b :=
    fun property hmem => h property.1 property.2 hmem
  -- the properties of the second object in the order of the first one
  let ordered := as.map fun property => (property.1, (bs.lookup property.1).getD .null)
  have hforall : List.Forall₂ (fun a b => a.1 = b.1 ∧ Same a.2 b.2) as ordered := by
    rw [List.forall₂_map_right_iff, List.forall₂_same]
    intro property hmem
    obtain ⟨b, hb, hsame⟩ := hmatched property hmem
    refine ⟨rfl, ?_⟩
    rw [hb]
    exact hsame
  have hnodup : ordered.Nodup := by
    apply List.Nodup.of_map Prod.fst
    rw [List.map_map]
    exact has
  have hsubset : ordered ⊆ bs := by
    intro property hmem
    obtain ⟨own, hown, rfl⟩ := List.mem_map.mp hmem
    obtain ⟨b, hb, -⟩ := hmatched own hown
    rw [hb]
    exact mem_of_lookup hb
  have hperm : ordered.Perm bs := by
    apply (hnodup.subperm hsubset).perm_of_length_le
    rw [List.length_map, hlength]
  exact (same_object hforall []).trans (.permuted hperm)

end Js
