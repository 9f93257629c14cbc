import Coaty.Util.Content

/-!
# Deep equality of JSON values

Deep equality decides whether two values are the same up to the order of properties, unless the comparison comes to two objects of which the second one has a property that hides `hasOwnProperty`. The two values are taken to share no objects.
-/

namespace Coaty

namespace Deep

open Js Evaluation

/-- A value as it is parsed from a text. -/
abbrev JsonValue := {v : Value // WellFormed v}

/-- Comparing `a` and `b` comes to comparing `u` and `v`, since all parts before them are the same. -/
inductive ComparesTo : Value → Value → Value → Value → Prop
  | self (a b : Value) : ComparesTo a b a b
  | item {as bs : List Value} {a b u v : Value} (hlength : as.length = bs.length)
      (hreached : ReachedWhile (fun pair => Same pair.1 pair.2) (as.zip bs) (a, b))
      (h : ComparesTo a b u v) : ComparesTo (.array as) (.array bs) u v
  | property {as bs : List (Text × Value)} {name : Text} {a b u v : Value} (hlength : as.length = bs.length)
      (hown : as.all (fun property => hasOwnProperty bs property.1) = true)
      (hreached : ReachedWhile (fun property => ∃ b, bs.lookup property.1 = some b ∧ Same property.2 b) as (name, a))
      (hb : bs.lookup name = some b) (h : ComparesTo a b u v) : ComparesTo (.object as) (.object bs) u v

/-- The comparison comes to no two objects with as many properties of which the second one hides `hasOwnProperty`. -/
def NoneFails (a b : Value) : Prop := ∀ u v, ComparesTo a b u v → ¬ EqualsFails u v

/-- Deep equality returns whether the values are the same. -/
def DecidesSame (a b : Value) : Prop := ∃ c, equals a b = .ok c ∧ (c = true ↔ Same a b)

def DecidesIncluded (items : List Value) (x : Value) : Prop :=
  ∃ c, includes (some (.array items)) (.value x) = .ok c ∧ (c = true ↔ ∃ av ∈ items, Same av x)

/-! ### Content is what is the same -/

theorem sameProperties_iff {as bs : List (Text × Value)} :
    sameProperties as bs = true ↔
      ∀ name a, (name, a) ∈ as → ∃ b, bs.lookup name = some b ∧ sameContent a b = true := by
  rw [sameProperties_eq, List.all_eq_true]
  constructor
  · intro h name a hmem
    exact sameProperty_iff.mp (h (name, a) hmem)
  · intro h property hmem
    exact sameProperty_iff.mpr (h property.1 property.2 hmem)

theorem sameItems_iff {as bs : List Value} (hlength : as.length = bs.length) :
    sameItems as bs = true ↔ List.Forall₂ (fun a b => sameContent a b = true) as bs := by
  rw [sameItems_eq, List.all_eq_true, List.forall₂_iff_zip, and_iff_right hlength]
  constructor
  · intro h a b hmem
    exact h (a, b) hmem
  · intro h pair hmem
    exact h hmem

theorem sameContent_refl {a : Value} (ha : WellFormed a) : sameContent a a = true := by
  induction ha with
  | @array items hitems ih =>
    rw [sameContent_array, sameItems_iff rfl, List.forall₂_same]
    exact ⟨rfl, ih⟩
  | @object properties hnodup hproperties ih =>
    rw [sameContent_object, sameProperties_iff]
    exact ⟨rfl, fun name a hmem => ⟨a, lookup_of_mem hnodup hmem, ih name a hmem⟩⟩
  | _ => simp [sameContent, strictEquals]

theorem same_of_sameContent {a b : Value} (ha : WellFormed a) (h : sameContent a b = true) : Same a b := by
  induction ha generalizing b with
  | @array items hitems ih =>
    obtain ⟨bs, rfl, hlength, hsame⟩ := sameContent_array_left h
    rw [sameItems_iff hlength] at hsame
    apply same_array _ []
    rw [List.forall₂_iff_zip] at hsame ⊢
    exact ⟨hlength, fun hmem => ih _ (List.of_mem_zip hmem).1 (hsame.2 hmem)⟩
  | @object properties hnodup hproperties ih =>
    obtain ⟨bs, rfl, hlength, hsame⟩ := sameContent_object_left h
    apply same_of_lookup hlength hnodup
    intro name a hmem
    obtain ⟨b, hb, hcontent⟩ := sameProperties_iff.mp hsame name a hmem
    exact ⟨b, hb, ih name a hmem hcontent⟩
  | _ =>
    rw [sameContent] at h
    · rw [eq_of_strictEquals h]
      exact .refl _
    all_goals simp

theorem sameContent_symm {a b : Value} (ha : WellFormed a) (hb : WellFormed b) (h : sameContent a b = true) :
    sameContent b a = true := by
  induction ha generalizing b with
  | @array items hitems ih =>
    obtain ⟨bs, rfl, hlength, hsame⟩ := sameContent_array_left h
    rw [sameItems_iff hlength, List.forall₂_iff_zip] at hsame
    rw [sameContent_array, sameItems_iff hlength.symm, List.forall₂_iff_zip]
    refine ⟨hlength.symm, hlength.symm, fun {b a} hmem => ?_⟩
    have hmem' : (a, b) ∈ items.zip bs := by
      rw [← List.zip_swap, List.mem_map]
      exact ⟨(b, a), hmem, rfl⟩
    exact ih a (List.of_mem_zip hmem').1 (hb.of_item (List.of_mem_zip hmem').2) (hsame.2 hmem')
  | @object properties hnodup hproperties ih =>
    obtain ⟨bs, rfl, hlength, hsame⟩ := sameContent_object_left h
    have hlookup := sameProperties_iff.mp hsame
    rw [sameContent_object, sameProperties_iff]
    refine ⟨hlength.symm, fun name b hmem => ?_⟩
    -- both objects have the same names, since they have as many
    have hsubset : properties.map Prod.fst ⊆ bs.map Prod.fst := by
      intro other hother
      obtain ⟨property, hproperty, rfl⟩ := List.mem_map.mp hother
      obtain ⟨b', hb', -⟩ := hlookup property.1 property.2 hproperty
      exact List.mem_map.mpr ⟨_, mem_of_lookup hb', rfl⟩
    have hperm : (properties.map Prod.fst).Perm (bs.map Prod.fst) := by
      apply (hnodup.subperm hsubset).perm_of_length_le
      rw [List.length_map, List.length_map, hlength]
    obtain ⟨property, hproperty, hname⟩ := List.mem_map.mp (hperm.mem_iff.mpr (List.mem_map.mpr ⟨(name, b), hmem, rfl⟩))
    obtain ⟨other, a⟩ := property
    cases hname
    obtain ⟨b', hb', hcontent⟩ := hlookup name a hproperty
    rw [lookup_of_mem hb.nodup hmem, Option.some.injEq] at hb'
    subst hb'
    exact ⟨a, lookup_of_mem hnodup hproperty, ih name a hproperty (hb.of_property hmem) hcontent⟩
  | _ =>
    rw [sameContent] at h
    · rw [← eq_of_strictEquals h] at hb ⊢
      exact sameContent_refl hb
    all_goals simp

theorem sameContent_of_same {a b : Value} (h : Same a b) (ha : WellFormed a) : sameContent a b = true := by
  induction h with
  | refl a => exact sameContent_refl ha
  | symm h ih =>
    have hb := h.wellFormed_iff.mpr ha
    exact sameContent_symm hb ha (ih hb)
  | trans h _ ih ih' => exact sameContent_trans (ih ha) (ih' (h.wellFormed_iff.mp ha))
  | @permuted as bs hperm =>
    rw [sameContent_object, sameProperties_iff]
    refine ⟨hperm.length_eq, fun name a hmem => ⟨a, ?_, sameContent_refl (ha.of_property hmem)⟩⟩
    exact lookup_of_mem ((hperm.map Prod.fst).nodup_iff.mp ha.nodup) (hperm.mem_iff.mp hmem)
  | @item a b before after _ ih =>
    have hlength : (before ++ a :: after).length = (before ++ b :: after).length := by simp
    have hself : ∀ items : List Value, (∀ item ∈ items, WellFormed item) →
        List.Forall₂ (fun a b => sameContent a b = true) items items :=
      fun items hitems => List.forall₂_same.mpr fun item hmem => sameContent_refl (hitems item hmem)
    rw [sameContent_array, sameItems_iff hlength]
    refine ⟨hlength, List.rel_append (hself before fun item hmem => ha.of_item (by simp [hmem])) (.cons (ih ?_) ?_)⟩
    · exact ha.of_item (by simp)
    · exact hself after fun item hmem => ha.of_item (by simp [hmem])
  | @property a b before after name _ ih =>
    have hnodup : ((before ++ (name, b) :: after).map Prod.fst).Nodup := by simpa using ha.nodup
    rw [sameContent_object, sameProperties_iff]
    refine ⟨by simp, fun other value hmem => ?_⟩
    by_cases heq : (other, value) = (name, a)
    · cases heq
      exact ⟨b, lookup_of_mem hnodup (by simp), ih (ha.of_property hmem)⟩
    · refine ⟨value, lookup_of_mem hnodup ?_, sameContent_refl (ha.of_property hmem)⟩
      simp only [List.mem_append, List.mem_cons, heq, false_or] at hmem ⊢
      tauto

theorem sameContent_iff {a b : Value} (ha : WellFormed a) : sameContent a b = true ↔ Same a b :=
  ⟨same_of_sameContent ha, fun h => sameContent_of_same h ha⟩

theorem decides_equals {a : Value} (ha : WellFormed a) (b : Value) : Decides (equals a b) (Same a b) := by
  intro c hc
  rw [eq_sameContent_of_equals hc, sameContent_iff ha]

/-! ### When deep equality returns -/

theorem noneFails_of_self {a b : Value} (hself : ∀ u v, ComparesTo a b u v → u = a ∧ v = b) (hfails : ¬ EqualsFails a b) :
    NoneFails a b := by
  intro u v hcompares
  obtain ⟨hu, hv⟩ := hself u v hcompares
  rwa [hu, hv]

theorem returns_equals_array_iff {as bs : List Value} (has : ∀ a ∈ as, WellFormed a) (hlength : as.length = bs.length)
    (ih : ∀ a ∈ as, ∀ b, Returns (equals a b) ↔ NoneFails a b) :
    Returns (equals (.array as) (.array bs)) ↔ NoneFails (.array as) (.array bs) := by
  have hdecides : ∀ pair ∈ as.zip bs, Decides (equals pair.1 pair.2) (Same pair.1 pair.2) :=
    fun pair hmem => decides_equals (has _ (List.of_mem_zip hmem).1) pair.2
  rw [equals, if_pos hlength, equalItems_eq, returns_allM_iff_of_decides hdecides]
  constructor
  · intro h u v hcompares
    cases hcompares with
    | self => exact not_false
    | item _ hreached hcompares =>
      exact (ih _ (List.of_mem_zip hreached.mem).1 _).mp (h _ hreached) u v hcompares
  · intro h pair hreached
    exact (ih _ (List.of_mem_zip hreached.mem).1 _).mpr fun u v hcompares => h u v (.item hlength hreached hcompares)

theorem returns_equals_object_iff {as bs : List (Text × Value)} (has : ∀ name a, (name, a) ∈ as → WellFormed a)
    (hlength : as.length = bs.length) (ih : ∀ name a, (name, a) ∈ as → ∀ b, Returns (equals a b) ↔ NoneFails a b) :
    Returns (equals (.object as) (.object bs)) ↔ NoneFails (.object as) (.object bs) := by
  have hdecides : ∀ property ∈ as, Decides (equalProperty bs property)
      (∃ b, bs.lookup property.1 = some b ∧ Same property.2 b) := by
    intro property hmem
    rw [equalProperty]
    cases hb : bs.lookup property.1 with
    | none => exact decides_ok (by simp)
    | some b => simpa using decides_equals (has property.1 property.2 hmem) b
  rw [equals, if_pos hlength]
  by_cases hfails : EqualsFails (.object as) (.object bs)
  · rw [if_pos ((hides_iff_equalsFails hlength).mpr hfails)]
    refine iff_of_false (not_returns_error _) ?_
    intro h
    exact h _ _ (.self _ _) hfails
  · rw [if_neg (mt (hides_iff_equalsFails hlength).mp hfails)]
    by_cases hown : as.all (fun property => hasOwnProperty bs property.1) = true
    · rw [if_pos hown, equalProperties_eq, returns_allM_iff_of_decides hdecides]
      constructor
      · intro h u v hcompares
        cases hcompares with
        | self => exact hfails
        | property _ _ hreached hb hcompares =>
          have hreturns := h _ hreached
          rw [equalProperty, hb] at hreturns
          exact (ih _ _ hreached.mem _).mp hreturns u v hcompares
      · intro h property hreached
        rw [equalProperty]
        cases hb : bs.lookup property.1 with
        | none => exact returns_ok _
        | some b =>
          exact (ih property.1 property.2 hreached.mem b).mpr fun u v hcompares =>
            h u v (.property hlength hown hreached hb hcompares)
    · rw [if_neg hown]
      refine iff_of_true (returns_ok _) (noneFails_of_self ?_ hfails)
      intro u v hcompares
      cases hcompares with
      | self => exact ⟨rfl, rfl⟩
      | property _ hown' => exact absurd hown' hown

/-- Deep equality returns exactly if it comes to no failing pair. -/
theorem returns_equals_iff_noneFails {a : Value} (ha : WellFormed a) (b : Value) :
    Returns (equals a b) ↔ NoneFails a b := by
  induction ha generalizing b with
  | @array as has ih =>
    cases b with
    | array bs =>
      by_cases hlength : as.length = bs.length
      · exact returns_equals_array_iff has hlength ih
      · refine iff_of_true ⟨false, if_neg hlength⟩ (noneFails_of_self ?_ not_false)
        intro u v hcompares
        cases hcompares with
        | self => exact ⟨rfl, rfl⟩
        | item hlength' => exact absurd hlength' hlength
    | _ => exact iff_of_true ⟨_, rfl⟩ (noneFails_of_self (fun u v h => by cases h; exact ⟨rfl, rfl⟩) not_false)
  | @object as hnodup has ih =>
    cases b with
    | object bs =>
      by_cases hlength : as.length = bs.length
      · exact returns_equals_object_iff has hlength ih
      · refine iff_of_true ⟨false, if_neg hlength⟩ (noneFails_of_self ?_ fun hfails => hlength hfails.1)
        intro u v hcompares
        cases hcompares with
        | self => exact ⟨rfl, rfl⟩
        | property hlength' => exact absurd hlength' hlength
    | _ => exact iff_of_true ⟨_, rfl⟩ (noneFails_of_self (fun u v h => by cases h; exact ⟨rfl, rfl⟩) not_false)
  | _ =>
    refine iff_of_true ⟨_, by rw [equals] <;> simp⟩ (noneFails_of_self (fun u v h => ?_) not_false)
    cases h
    exact ⟨rfl, rfl⟩

/-! ### Deep equality and inclusion -/

theorem decidesSame_iff {a : Value} (ha : WellFormed a) (b : Value) : DecidesSame a b ↔ NoneFails a b := by
  rw [← returns_equals_iff_noneFails ha]
  exact (decides_equals ha b).returns_iff

theorem includes_array (items : List Value) (x : Value) :
    includes (some (.array items)) (.value x) = items.anyM fun av => equals av x := rfl

theorem decidesIncluded_iff {items : List Value} (hitems : ∀ item ∈ items, WellFormed item) (x : Value) :
    DecidesIncluded items x ↔ ∀ av, ReachedWhile (¬ Same · x) items av → NoneFails av x := by
  have hdecides : ∀ av ∈ items, Decides (equals av x) (Same av x) := fun av hmem => decides_equals (hitems av hmem) x
  rw [DecidesIncluded, includes_array, (decides_anyM hdecides).returns_iff, returns_anyM_iff_of_decides hdecides]
  constructor
  · intro h av hreached
    exact (returns_equals_iff_noneFails (hitems av hreached.mem) x).mp (h av hreached)
  · intro h av hreached
    exact (returns_equals_iff_noneFails (hitems av hreached.mem) x).mpr (h av hreached)

theorem exists_same_congr {items items' : List Value} {x x' : Value} (hitems : List.Forall₂ Same items items')
    (hx : Same x x') (h : ∃ av ∈ items, Same av x) : ∃ av ∈ items', Same av x' := by
  obtain ⟨av, hmem, hsame⟩ := h
  induction hitems with
  | nil => cases hmem
  | @cons first first' items items' hfirst _ ih =>
    obtain rfl | hmem := List.mem_cons.mp hmem
    · exact ⟨first', List.mem_cons_self, (hfirst.symm.trans hsame).trans hx⟩
    · obtain ⟨av', hmem', hsame'⟩ := ih hmem
      exact ⟨av', List.mem_cons_of_mem _ hmem', hsame'⟩

/-- Of values that share no objects, deep equality and inclusion go by equality up to the order of properties exactly if they come to no two objects with as many properties of which the second one hides `hasOwnProperty`. -/
theorem decides_iff_noneFails (a b : JsonValue) (items : List JsonValue) :
    (DecidesSame a.val b.val ↔ NoneFails a.val b.val) ∧
      (DecidesIncluded (items.map Subtype.val) b.val ↔
        ∀ av, ReachedWhile (¬ Same · b.val) (items.map Subtype.val) av → NoneFails av b.val) ∧
      ∀ (items' : List JsonValue) (b' : JsonValue), List.Forall₂ Same (items.map Subtype.val) (items'.map Subtype.val) →
        Same b.val b'.val → DecidesIncluded (items.map Subtype.val) b.val →
        DecidesIncluded (items'.map Subtype.val) b'.val →
          includes (some (.array (items.map Subtype.val))) (.value b.val) =
            includes (some (.array (items'.map Subtype.val))) (.value b'.val) := by
  have hwellFormed : ∀ item ∈ items.map Subtype.val, WellFormed item := by
    intro item hmem
    obtain ⟨own, _, rfl⟩ := List.mem_map.mp hmem
    exact own.property
  refine ⟨decidesSame_iff a.property b.val, decidesIncluded_iff hwellFormed b.val, ?_⟩
  intro items' b' hitems hb h h'
  obtain ⟨c, hc, hdecides⟩ := h
  obtain ⟨c', hc', hdecides'⟩ := h'
  have hiff : c = true ↔ c' = true := by
    rw [hdecides, hdecides']
    constructor
    · exact exists_same_congr hitems hb
    · exact exists_same_congr (hitems.flip.imp fun _ _ h => h.symm) hb.symm
  rw [hc, hc', Bool.eq_iff_iff.mpr hiff]

/-- An object with a property that hides `hasOwnProperty`. -/
def shadowing : JsonValue :=
  ⟨.object [(text "hasOwnProperty", .null)], .object (by decide) fun name value hmem => by
    cases List.mem_singleton.mp hmem
    exact .null⟩

/-- Two such objects are the same, but comparing them is an error. -/
theorem not_decidesSame_shadowing : ¬ ∀ a b : JsonValue, DecidesSame a.val b.val := by
  intro h
  obtain ⟨c, hc, _⟩ := h shadowing shadowing
  cases hc

end Deep

end Coaty
