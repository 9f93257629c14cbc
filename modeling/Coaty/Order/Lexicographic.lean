import Mathlib.Data.Set.Defs
import Mathlib.Order.Compare

/-!
# Comparing by one key after the other

When a lexicographic comparison is a total preorder. The comparisons by the single keys need not be, all they need is that ties between elements are an equivalence. Then the first key has to tell both orders of two elements apart, elements in a cycle of it have to be put in order by the remaining keys, and these have to compare the elements that tie by the first one in the same way.
-/

namespace Order

variable {α : Type}

structure TotalPreorderOn (cmp : α → α → Ordering) (S : Set α) : Prop where
  swap : ∀ a ∈ S, ∀ b ∈ S, cmp a b = (cmp b a).swap
  trans : ∀ a ∈ S, ∀ b ∈ S, ∀ c ∈ S, (cmp a b).isLE = true → (cmp b c).isLE = true → (cmp a c).isLE = true

def lexOrder : List (α → α → Ordering) → α → α → Ordering
  | [], _, _ => .eq
  | cmp :: cmps, a, b => (cmp a b).then (lexOrder cmps a b)

/-- Elements that tie. -/
def Ties (cmp : α → α → Ordering) (a b : α) : Prop := cmp a b = .eq

/-- What each key is to do for the elements that tie by all keys before it. -/
def LexConsistent : List (α → α → Ordering) → Set α → Prop
  | [], _ => True
  | cmp :: cmps, S =>
    (∀ a ∈ S, ∀ b ∈ S, cmp a b = (cmp b a).swap) ∧
    (∀ a ∈ S, ∀ b ∈ S, ∀ c ∈ S, cmp a b = .lt → cmp b c = .lt → lexOrder (cmp :: cmps) a c = .lt) ∧
    ∀ o ∈ S, LexConsistent cmps {a | a ∈ S ∧ Ties cmp o a}

variable {cmp : α → α → Ordering} {cmps : List (α → α → Ordering)} {S : Set α} {a b c : α}

theorem isLE_iff {o : Ordering} : o.isLE = true ↔ o = .lt ∨ o = .eq := by
  cases o <;> decide

theorem swap_eq_gt {o : Ordering} (h : o = .lt) : o.swap = .gt := by
  rw [h]
  rfl

namespace TotalPreorderOn

variable (h : TotalPreorderOn cmp S)
include h

theorem mono {T : Set α} (hsubset : ∀ a ∈ T, a ∈ S) : TotalPreorderOn cmp T where
  swap a ha b hb := h.swap a (hsubset a ha) b (hsubset b hb)
  trans a ha b hb c hc := h.trans a (hsubset a ha) b (hsubset b hb) c (hsubset c hc)

theorem lt_trans (ha : a ∈ S) (hb : b ∈ S) (hc : c ∈ S) (hab : cmp a b = .lt) (hbc : cmp b c = .lt) : cmp a c = .lt := by
  have hle : (cmp a c).isLE = true := h.trans a ha b hb c hc (isLE_iff.mpr (.inl hab)) (isLE_iff.mpr (.inl hbc))
  obtain hlt | heq := isLE_iff.mp hle
  · exact hlt
  · have hca : cmp c a = .eq := by
      rw [h.swap c hc a ha, heq]
      rfl
    have hcb : (cmp c b).isLE = true := h.trans c hc a ha b hb (isLE_iff.mpr (.inr hca)) (isLE_iff.mpr (.inl hab))
    rw [h.swap c hc b hb, swap_eq_gt hbc] at hcb
    cases hcb

end TotalPreorderOn

theorem lexOrder_of_lt (hab : cmp a b = .lt) : lexOrder (cmp :: cmps) a b = .lt := by
  rw [lexOrder, hab]
  rfl

theorem lexOrder_of_gt (hab : cmp a b = .gt) : lexOrder (cmp :: cmps) a b = .gt := by
  rw [lexOrder, hab]
  rfl

theorem lexOrder_of_ties (hab : Ties cmp a b) : lexOrder (cmp :: cmps) a b = lexOrder cmps a b := by
  rw [lexOrder, show cmp a b = .eq from hab]
  rfl

theorem lexOrder_eq_lt_iff : lexOrder (cmp :: cmps) a b = .lt ↔ cmp a b = .lt ∨ Ties cmp a b ∧ lexOrder cmps a b = .lt := by
  rw [lexOrder, Ties]
  cases cmp a b <;> simp

theorem swap_of_lexOrder (hties : Equivalence (Ties cmp)) (hS : TotalPreorderOn (lexOrder (cmp :: cmps)) S)
    (ha : a ∈ S) (hb : b ∈ S) : cmp a b = (cmp b a).swap := by
  have hswap := hS.swap a ha b hb
  cases hab : cmp a b with
  | eq =>
    rw [show cmp b a = .eq from hties.symm hab]
    rfl
  | lt =>
    rw [lexOrder_of_lt hab] at hswap
    cases hba : cmp b a with
    | gt => rfl
    | lt =>
      rw [lexOrder_of_lt hba] at hswap
      cases hswap
    | eq =>
      rw [show cmp a b = .eq from hties.symm hba] at hab
      cases hab
  | gt =>
    rw [lexOrder_of_gt hab] at hswap
    cases hba : cmp b a with
    | lt => rfl
    | gt =>
      rw [lexOrder_of_gt hba] at hswap
      cases hswap
    | eq =>
      rw [show cmp a b = .eq from hties.symm hba] at hab
      cases hab

theorem totalPreorderOn_tied (hties : Equivalence (Ties cmp)) (hS : TotalPreorderOn (lexOrder (cmp :: cmps)) S) (o : α) :
    TotalPreorderOn (lexOrder cmps) {a | a ∈ S ∧ Ties cmp o a} := by
  have hrest : ∀ {a b}, Ties cmp o a → Ties cmp o b → lexOrder cmps a b = lexOrder (cmp :: cmps) a b :=
    fun ha hb => (lexOrder_of_ties (hties.trans (hties.symm ha) hb)).symm
  constructor
  · intro a ha b hb
    rw [hrest ha.2 hb.2, hrest hb.2 ha.2]
    exact hS.swap a ha.1 b hb.1
  · intro a ha b hb c hc
    rw [hrest ha.2 hb.2, hrest hb.2 hc.2, hrest ha.2 hc.2]
    exact hS.trans a ha.1 b hb.1 c hc.1

section Combine

variable (hties : Equivalence (Ties cmp))
  (hswap : ∀ a ∈ S, ∀ b ∈ S, cmp a b = (cmp b a).swap)
  (hcycle : ∀ a ∈ S, ∀ b ∈ S, ∀ c ∈ S, cmp a b = .lt → cmp b c = .lt → lexOrder (cmp :: cmps) a c = .lt)
  (htied : ∀ o ∈ S, TotalPreorderOn (lexOrder cmps) {a | a ∈ S ∧ Ties cmp o a})
include hties hswap htied

theorem lexOrder_swap (ha : a ∈ S) (hb : b ∈ S) :
    lexOrder (cmp :: cmps) a b = (lexOrder (cmp :: cmps) b a).swap := by
  cases hab : cmp a b with
  | eq =>
    rw [lexOrder_of_ties hab, lexOrder_of_ties (hties.symm hab)]
    exact (htied a ha).swap a ⟨ha, hties.refl a⟩ b ⟨hb, hab⟩
  | lt =>
    have hba : cmp b a = .gt := by
      rw [hswap b hb a ha, hab]
      rfl
    rw [lexOrder_of_lt hab, lexOrder_of_gt hba]
    rfl
  | gt =>
    have hba : cmp b a = .lt := by
      rw [hswap b hb a ha, hab]
      rfl
    rw [lexOrder_of_gt hab, lexOrder_of_lt hba]
    rfl

include hcycle

/-- Of three elements of which two tie, the third one is on the same side of both, or the tied ones are in order by the remaining keys. -/
theorem lexOrder_of_lt_ties (ha : a ∈ S) (hb : b ∈ S) (hc : c ∈ S) (hab : cmp a b = .lt) (hbc : Ties cmp b c)
    (hle : (lexOrder cmps b c).isLE = true) : lexOrder (cmp :: cmps) a c = .lt := by
  cases hac : cmp a c with
  | lt => exact lexOrder_of_lt hac
  | eq =>
    have hties' : cmp a b = .eq := hties.trans hac (hties.symm hbc)
    rw [hab] at hties'
    cases hties'
  | gt =>
    have hca : cmp c a = .lt := by
      rw [hswap c hc a ha, hac]
      rfl
    have hcb := hcycle c hc a ha b hb hca hab
    rw [lexOrder_of_ties (hties.symm hbc)] at hcb
    rw [(htied b hb).swap b ⟨hb, hties.refl b⟩ c ⟨hc, hbc⟩, swap_eq_gt hcb] at hle
    cases hle

theorem lexOrder_of_ties_lt (ha : a ∈ S) (hb : b ∈ S) (hc : c ∈ S) (hab : Ties cmp a b)
    (hle : (lexOrder cmps a b).isLE = true) (hbc : cmp b c = .lt) : lexOrder (cmp :: cmps) a c = .lt := by
  cases hac : cmp a c with
  | lt => exact lexOrder_of_lt hac
  | eq =>
    have hties' : cmp b c = .eq := hties.trans (hties.symm hab) hac
    rw [hbc] at hties'
    cases hties'
  | gt =>
    have hca : cmp c a = .lt := by
      rw [hswap c hc a ha, hac]
      rfl
    have hba := hcycle b hb c hc a ha hbc hca
    rw [lexOrder_of_ties (hties.symm hab)] at hba
    rw [(htied a ha).swap a ⟨ha, hties.refl a⟩ b ⟨hb, hab⟩, swap_eq_gt hba] at hle
    cases hle

theorem totalPreorderOn_cons : TotalPreorderOn (lexOrder (cmp :: cmps)) S where
  swap a ha b hb := lexOrder_swap hties hswap htied ha hb
  trans a ha b hb c hc hab hbc := by
    have hsplit : ∀ {a b : α}, (lexOrder (cmp :: cmps) a b).isLE = true →
        cmp a b = .lt ∨ Ties cmp a b ∧ (lexOrder cmps a b).isLE = true := by
      intro a b hle
      rw [lexOrder] at hle
      rw [Ties]
      cases hab : cmp a b with
      | lt => exact .inl rfl
      | eq =>
        rw [hab] at hle
        exact .inr ⟨rfl, hle⟩
      | gt =>
        rw [hab] at hle
        cases hle
    obtain hab | ⟨hab, hleab⟩ := hsplit hab
    · obtain hbc | ⟨hbc, hlebc⟩ := hsplit hbc
      · exact isLE_iff.mpr (.inl (hcycle a ha b hb c hc hab hbc))
      · exact isLE_iff.mpr (.inl (lexOrder_of_lt_ties hties hswap hcycle htied ha hb hc hab hbc hlebc))
    · obtain hbc | ⟨hbc, hlebc⟩ := hsplit hbc
      · exact isLE_iff.mpr (.inl (lexOrder_of_ties_lt hties hswap hcycle htied ha hb hc hab hleab hbc))
      · have hac : Ties cmp a c := hties.trans hab hbc
        rw [lexOrder_of_ties hac]
        exact (htied a ha).trans a ⟨ha, hties.refl a⟩ b ⟨hb, hab⟩ c ⟨hc, hac⟩ hleab hlebc

end Combine

/-- Comparing by one key after the other is a total preorder exactly if each key is consistent on the elements that tie by the keys before it. -/
theorem totalPreorderOn_lexOrder_iff (hties : ∀ cmp ∈ cmps, Equivalence (Ties cmp)) (S : Set α) :
    TotalPreorderOn (lexOrder cmps) S ↔ LexConsistent cmps S := by
  induction cmps generalizing S with
  | nil => exact iff_of_true ⟨fun _ _ _ _ => rfl, fun _ _ _ _ _ _ _ _ => rfl⟩ trivial
  | cons cmp cmps ih =>
    rw [List.forall_mem_cons] at hties
    constructor
    · intro hS
      refine ⟨fun a ha b hb => swap_of_lexOrder hties.1 hS ha hb, ?_, fun o ho => ?_⟩
      · intro a ha b hb c hc hab hbc
        exact hS.lt_trans ha hb hc (lexOrder_of_lt hab) (lexOrder_of_lt hbc)
      · exact (ih hties.2 _).mp (totalPreorderOn_tied hties.1 hS o)
    · intro ⟨hswap, hcycle, htied⟩
      exact totalPreorderOn_cons hties.1 hswap hcycle fun o ho => (ih hties.2 _).mpr (htied o ho)

end Order
