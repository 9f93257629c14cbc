import Coaty.Js.SameValue
import Coaty.Util.Deep

/-!
# Values with the same content

Deep equality as a total function: two values have the same content if they are the same up to the order of properties. The code's comparison yields this where it returns.
-/

namespace Coaty

namespace Deep

open Js Evaluation

mutual

def sameContent : Value → Value → Bool
  | .array as, .array bs => as.length = bs.length && sameItems as bs
  | .object as, .object bs => as.length = bs.length && sameProperties as bs
  | a, b => strictEquals a b

def sameItems : List Value → List Value → Bool
  | a :: as, b :: bs => sameContent a b && sameItems as bs
  | _, _ => true

def sameProperties : List (Text × Value) → List (Text × Value) → Bool
  | (name, a) :: as, bs =>
    (match bs.lookup name with
      | some b => sameContent a b
      | none => false) && sameProperties as bs
  | [], _ => true

end

theorem sameContent_array (as bs : List Value) :
    sameContent (.array as) (.array bs) = true ↔ as.length = bs.length ∧ sameItems as bs = true := by
  simp [sameContent]

theorem sameContent_object (as bs : List (Text × Value)) :
    sameContent (.object as) (.object bs) = true ↔ as.length = bs.length ∧ sameProperties as bs = true := by
  simp [sameContent]

def sameProperty (bs : List (Text × Value)) (property : Text × Value) : Bool :=
  match bs.lookup property.1 with
  | some b => sameContent property.2 b
  | none => false

theorem sameItems_eq (as bs : List Value) : sameItems as bs = (as.zip bs).all fun pair => sameContent pair.1 pair.2 := by
  induction as generalizing bs with
  | nil => rfl
  | cons a as ih =>
    cases bs with
    | nil => rfl
    | cons b bs => rw [sameItems, List.zip_cons_cons, List.all_cons, ih]

theorem sameProperties_eq (as bs : List (Text × Value)) : sameProperties as bs = as.all (sameProperty bs) := by
  induction as with
  | nil => rfl
  | cons property as ih =>
    obtain ⟨name, a⟩ := property
    rw [sameProperties, List.all_cons, ih, sameProperty]

theorem sameProperty_iff {bs : List (Text × Value)} {property : Text × Value} :
    sameProperty bs property = true ↔ ∃ b, bs.lookup property.1 = some b ∧ sameContent property.2 b = true := by
  rw [sameProperty]
  cases bs.lookup property.1 with
  | none => simp
  | some b => simp

/-! ### The comparison of the code -/

theorem eq_sameContent_array {as bs : List Value} {c : Bool}
    (ih : ∀ a ∈ as, ∀ b c, equals a b = .ok c → c = sameContent a b) (h : equals (.array as) (.array bs) = .ok c) :
    c = sameContent (.array as) (.array bs) := by
  rw [equals] at h
  rw [sameContent]
  by_cases hlength : as.length = bs.length
  · rw [if_pos hlength, equalItems_eq] at h
    rw [sameItems_eq, ← eq_all_of_allM (fun pair hmem => ih _ (List.of_mem_zip hmem).1 pair.2) h]
    simp [hlength]
  · rw [if_neg hlength] at h
    cases h
    simp [hlength]

theorem eq_sameContent_object {as bs : List (Text × Value)} {c : Bool}
    (ih : ∀ name a, (name, a) ∈ as → ∀ b c, equals a b = .ok c → c = sameContent a b)
    (h : equals (.object as) (.object bs) = .ok c) : c = sameContent (.object as) (.object bs) := by
  have hproperty : ∀ property ∈ as, ∀ c, equalProperty bs property = .ok c → c = sameProperty bs property := by
    intro property hmem c hc
    rw [equalProperty] at hc
    rw [sameProperty]
    cases hlookup : bs.lookup property.1 with
    | none =>
      rw [hlookup] at hc
      cases hc
      rfl
    | some b =>
      rw [hlookup] at hc
      exact ih property.1 property.2 hmem b c hc
  rw [equals] at h
  rw [sameContent]
  by_cases hlength : as.length = bs.length
  · rw [if_pos hlength] at h
    rw [sameProperties_eq]
    split at h
    · cases h
    · split at h
      · rw [equalProperties_eq] at h
        rw [← eq_all_of_allM hproperty h]
        simp [hlength]
      · -- some property of the first object is missing in the second one
        rename_i hown
        cases h
        symm
        rw [Bool.and_eq_false_iff]
        right
        rw [Bool.eq_false_iff, ne_eq, List.all_eq_true]
        intro hsame
        apply hown
        rw [List.all_eq_true]
        intro property hmem
        obtain ⟨b, hb, _⟩ := sameProperty_iff.mp (hsame property hmem)
        rw [hasOwnProperty, hb]
        rfl
  · rw [if_neg hlength] at h
    cases h
    simp [hlength]

theorem eq_sameContent_of_equals {a b : Value} {c : Bool} (h : equals a b = .ok c) : c = sameContent a b := by
  induction hsize : sizeOf a using Nat.strong_induction_on generalizing a b c with
  | _ n ih =>
    subst hsize
    cases a with
    | array as =>
      cases b with
      | array bs =>
        exact eq_sameContent_array (fun a hmem b c hc => ih _ (lt_of_mem_items hmem) hc rfl) h
      | _ =>
        cases h
        rfl
    | object as =>
      cases b with
      | object bs => exact eq_sameContent_object (fun name a hmem b c hc => ih _ (lt_of_mem_properties hmem) hc rfl) h
      | _ =>
        cases h
        rfl
    | _ =>
      rw [equals] at h
      · cases h
        rw [sameContent]
        all_goals simp
      all_goals simp

/-! ### Transitivity -/

theorem sameItems_trans {as bs cs : List Value}
    (ih : ∀ a ∈ as, ∀ b c, sameContent a b = true → sameContent b c = true → sameContent a c = true)
    (hlength : as.length = bs.length) (hab : sameItems as bs = true) (hbc : sameItems bs cs = true) :
    sameItems as cs = true := by
  induction as generalizing bs cs with
  | nil => rfl
  | cons a as ihItems =>
    cases bs with
    | nil => cases hlength
    | cons b bs =>
      cases cs with
      | nil => rfl
      | cons c cs =>
        rw [sameItems, Bool.and_eq_true] at *
        rw [List.forall_mem_cons] at ih
        exact ⟨ih.1 b c hab.1 hbc.1, ihItems ih.2 (Nat.succ_inj.mp hlength) hab.2 hbc.2⟩

theorem sameProperties_trans {as bs cs : List (Text × Value)}
    (ih : ∀ name a, (name, a) ∈ as → ∀ b c, sameContent a b = true → sameContent b c = true → sameContent a c = true)
    (hab : sameProperties as bs = true) (hbc : sameProperties bs cs = true) : sameProperties as cs = true := by
  rw [sameProperties_eq, List.all_eq_true] at *
  intro property hmem
  obtain ⟨b, hb, hsame⟩ := sameProperty_iff.mp (hab property hmem)
  obtain ⟨c, hc, hsame'⟩ := sameProperty_iff.mp (hbc _ (mem_of_lookup hb))
  exact sameProperty_iff.mpr ⟨c, hc, ih property.1 property.2 hmem b c hsame hsame'⟩

theorem eq_of_strictEquals {a b : Value} (h : strictEquals a b = true) : a = b := by
  unfold strictEquals at h
  split at h
  · rfl
  · rw [of_decide_eq_true h]
  · rw [of_decide_eq_true h]
  · rw [of_decide_eq_true h]
  · cases h

theorem sameContent_array_left {as : List Value} {b : Value} (h : sameContent (.array as) b = true) :
    ∃ bs, b = .array bs ∧ as.length = bs.length ∧ sameItems as bs = true := by
  cases b with
  | array bs =>
    rw [sameContent_array] at h
    exact ⟨bs, rfl, h⟩
  | _ => cases h

theorem sameContent_object_left {as : List (Text × Value)} {b : Value} (h : sameContent (.object as) b = true) :
    ∃ bs, b = .object bs ∧ as.length = bs.length ∧ sameProperties as bs = true := by
  cases b with
  | object bs =>
    rw [sameContent_object] at h
    exact ⟨bs, rfl, h⟩
  | _ => cases h

theorem sameContent_trans {a b c : Value} (hab : sameContent a b = true) (hbc : sameContent b c = true) :
    sameContent a c = true := by
  induction hsize : sizeOf a using Nat.strong_induction_on generalizing a b c with
  | _ n ih =>
    subst hsize
    cases a with
    | array as =>
      obtain ⟨bs, rfl, hlength, hitems⟩ := sameContent_array_left hab
      obtain ⟨cs, rfl, hlength', hitems'⟩ := sameContent_array_left hbc
      rw [sameContent_array]
      exact ⟨hlength.trans hlength', sameItems_trans
        (fun a hmem b c hab hbc => ih _ (lt_of_mem_items hmem) hab hbc rfl) hlength hitems hitems'⟩
    | object as =>
      obtain ⟨bs, rfl, hlength, hproperties⟩ := sameContent_object_left hab
      obtain ⟨cs, rfl, hlength', hproperties'⟩ := sameContent_object_left hbc
      rw [sameContent_object]
      exact ⟨hlength.trans hlength', sameProperties_trans
        (fun name a hmem b c hab hbc => ih _ (lt_of_mem_properties hmem) hab hbc rfl) hproperties hproperties'⟩
    | _ =>
      rw [sameContent] at hab
      · rwa [eq_of_strictEquals hab]
      all_goals simp

end Deep

end Coaty
