import Mathlib.Data.List.Basic

/-!
# Runs of a labelled transition function

A component is a state and a function from a state and a label to the next state. A run is a fold of the labels, and what each step of a run may assume is a condition on the state before the step and its label. The rules below are the only inductions over runs: an invariant, the same under a condition, and a simulation of a component that can fail by one that cannot.
-/

namespace Transition

variable {σ τ ι κ ε : Type}

/-- Every step of the run of `labels` from `s` meets `C`. -/
def Along (step : σ → ι → σ) (C : σ → ι → Prop) : σ → List ι → Prop
  | _, [] => True
  | s, i :: labels => C s i ∧ Along step C (step s i) labels

variable {step : σ → ι → σ} {C : σ → ι → Prop} {I : σ → Prop} {s : σ} {labels : List ι}

instance Along.decidable [∀ s i, Decidable (C s i)] :
    ∀ (s : σ) (labels : List ι), Decidable (Along step C s labels)
  | _, [] => isTrue trivial
  | s, i :: labels =>
    have := Along.decidable (step s i) labels
    inferInstanceAs (Decidable (C s i ∧ Along step C (step s i) labels))

theorem invariant_foldl (hstep : ∀ s i, I s → I (step s i)) (h : I s) :
    I (labels.foldl step s) := by
  induction labels generalizing s with
  | nil => exact h
  | cons i labels ih => exact ih (hstep s i h)

theorem along_append {labels' : List ι} :
    Along step C s (labels ++ labels') ↔ Along step C s labels ∧ Along step C (labels.foldl step s) labels' := by
  induction labels generalizing s with
  | nil => exact (and_iff_right trivial).symm
  | cons i labels ih =>
    rw [List.cons_append, Along, Along, ih, List.foldl_cons, and_assoc]

theorem Along.take (h : Along step C s labels) (n : Nat) : Along step C s (labels.take n) := by
  induction labels generalizing s n with
  | nil =>
    rw [List.take_nil]
    trivial
  | cons i labels ih =>
    cases n with
    | zero => trivial
    | succ n => exact ⟨h.1, ih h.2 n⟩

theorem Along.invariant (hstep : ∀ s i, I s → C s i → I (step s i)) (hC : Along step C s labels)
    (h : I s) : I (labels.foldl step s) := by
  induction labels generalizing s with
  | nil => exact h
  | cons i labels ih => exact ih hC.2 (hstep s i h hC.1)

theorem invariant_foldlM {step : σ → ι → Except ε σ} (hstep : ∀ s i s', I s → step s i = .ok s' → I s') (h : I s)
    {s' : σ} (hrun : labels.foldlM step s = .ok s') : I s' := by
  induction labels generalizing s with
  | nil =>
    cases hrun
    exact h
  | cons i labels ih =>
    rw [List.foldlM_cons] at hrun
    cases hfirst : step s i with
    | error e =>
      rw [hfirst] at hrun
      cases hrun
    | ok s₁ =>
      rw [hfirst] at hrun
      exact ih (hstep s i s₁ h hfirst) hrun

theorem forall_take_iff_along {J : σ → Prop} (hstep : ∀ s i, I s → I (step s i))
    (hiff : ∀ s i, I s → J s → (J (step s i) ↔ C s i)) (hI : I s) (hJ : J s) :
    (∀ n, J ((labels.take n).foldl step s)) ↔ Along step C s labels := by
  induction labels generalizing s with
  | nil => exact ⟨fun _ => trivial, fun _ n => by rwa [List.take_nil]⟩
  | cons i labels ih =>
    constructor
    · intro h
      have hfirst : J (step s i) := h 1
      exact ⟨(hiff s i hI hJ).mp hfirst, (ih (hstep s i hI) hfirst).mp fun n => h (n + 1)⟩
    · intro ⟨hC, hrest⟩ n
      have hfirst : J (step s i) := (hiff s i hI hJ).mpr hC
      cases n with
      | zero => exact hJ
      | succ n => exact (ih (hstep s i hI) hfirst).mpr hrest n

/-- A run of a component that can fail stays related to the run of the one it refines, and does not fail, as long as each single step does so under the condition `C`. -/
theorem Along.simulates {spec : τ → ι → τ} {C : τ → ι → Prop} {impl : σ → ι → Except ε σ}
    {R : σ → τ → Prop}
    (hstep : ∀ s t i, R s t → C t i → ∃ s', impl s i = .ok s' ∧ R s' (spec t i))
    {s : σ} {t : τ} {labels : List ι} (hC : Along spec C t labels) (h : R s t) :
    ∃ s', labels.foldlM impl s = .ok s' ∧ R s' (labels.foldl spec t) := by
  induction labels generalizing s t with
  | nil => exact ⟨s, rfl, h⟩
  | cons i labels ih =>
    obtain ⟨s₁, hs₁, hR⟩ := hstep s t i h hC.1
    obtain ⟨s', hs', hR'⟩ := ih hC.2 hR
    refine ⟨s', ?_, hR'⟩
    rw [List.foldlM_cons, hs₁]
    exact hs'

/-- Every step of the run of `labels` from `s`, as far as it does not fail, meets `C`. -/
def AlongOk (step : σ → ι → Except ε σ) (C : σ → ι → Prop) : σ → List ι → Prop
  | _, [] => True
  | s, i :: labels => C s i ∧ ∀ s', step s i = .ok s' → AlongOk step C s' labels

theorem alongOk_cons {step : σ → ι → Except ε σ} {s s₁ : σ} {i : ι} (hC : C s i) (hs : step s i = .ok s₁)
    (hrest : AlongOk step C s₁ labels) : AlongOk step C s (i :: labels) := by
  refine ⟨hC, fun s' hs' => ?_⟩
  cases hs.symm.trans hs'
  exact hrest

theorem AlongOk.and {step : σ → ι → Except ε σ} (hC : AlongOk step C s labels) (hD : AlongOk step D s labels) :
    AlongOk step (fun s i => C s i ∧ D s i) s labels := by
  induction labels generalizing s with
  | nil => trivial
  | cons i labels ih => exact ⟨⟨hC.1, hD.1⟩, fun s' hs' => ih (hC.2 s' hs') (hD.2 s' hs')⟩

theorem AlongOk.congr {step : σ → ι → Except ε σ} (hstep : ∀ s i s', I s → C s i → step s i = .ok s' → I s')
    (hiff : ∀ s i, I s → (C s i ↔ D s i)) (h : I s) : AlongOk step C s labels ↔ AlongOk step D s labels := by
  induction labels generalizing s with
  | nil => exact Iff.rfl
  | cons i labels ih =>
    rw [AlongOk, AlongOk, ← hiff s i h]
    refine and_congr_right fun hC => forall_congr' fun s' => forall_congr' fun hs' => ih (hstep s i s' h hC hs')

/-- A condition on the abstraction of a component is met along its runs if it is along the runs of the abstraction. -/
theorem Along.alongOk {spec : τ → ι → τ} {C : τ → ι → Prop} {step : σ → ι → Except ε σ} {f : σ → τ}
    (hstep : ∀ s i s', I s → C (f s) i → step s i = .ok s' →
      I s' ∧ f s' = spec (f s) i)
    (hC : Along spec C (f s) labels) (hI : I s) :
    AlongOk step (fun s i => C (f s) i) s labels := by
  induction labels generalizing s with
  | nil => trivial
  | cons i labels ih =>
    refine ⟨hC.1, fun s' hs' => ?_⟩
    obtain ⟨hI', hf⟩ := hstep s i s' hI hC.1 hs'
    exact ih (hf ▸ hC.2) hI'

/-- Where a step does not fail under the condition `C`, and then keeps `J` exactly if it meets `D`, a run keeps `J` in every state exactly if all its steps meet `D`. -/
theorem AlongOk.forall_take_iff {step : σ → ι → Except ε σ} {J : σ → Prop}
    (hstep : ∀ s i, I s → C s i → ∃ s', step s i = .ok s' ∧ I s' ∧ (J s → (J s' ↔ D s i)))
    (hC : AlongOk step C s labels) (hI : I s) (hJ : J s) :
    (∀ n, ∃ s', (labels.take n).foldlM step s = .ok s' ∧ J s') ↔ AlongOk step D s labels := by
  induction labels generalizing s with
  | nil => exact ⟨fun _ => trivial, fun _ n => ⟨s, by rw [List.take_nil]; rfl, hJ⟩⟩
  | cons i labels ih =>
    obtain ⟨s₁, hs₁, hI₁, hiff⟩ := hstep s i hI hC.1
    have hbind : ∀ n, ((i :: labels).take (n + 1)).foldlM step s = (labels.take n).foldlM step s₁ := by
      intro n
      rw [List.take_succ_cons, List.foldlM_cons, hs₁]
      rfl
    constructor
    · intro h
      obtain ⟨s', hs', hJ'⟩ := h 1
      rw [hbind, List.take_zero] at hs'
      cases hs'
      refine ⟨(hiff hJ).mp hJ', fun s₂ hs₂ => ?_⟩
      cases hs₁.symm.trans hs₂
      refine (ih (hC.2 s₁ hs₁) hI₁ hJ').mp fun n => ?_
      rw [← hbind]
      exact h (n + 1)
    · intro ⟨hD, hrest⟩ n
      have hJ₁ := (hiff hJ).mpr hD
      cases n with
      | zero => exact ⟨s, rfl, hJ⟩
      | succ n =>
        rw [hbind]
        exact (ih (hC.2 s₁ hs₁) hI₁ hJ₁).mpr (hrest s₁ hs₁) n

/-- Where a step that meets the condition `C` is that of a component that cannot fail, and any other step fails, a run goes like one of the other component exactly if all its steps meet `C`. -/
theorem forall_take_ok_iff_along {impl : σ → ι → Except ε σ} {spec : σ → ι → σ} {C : σ → ι → Prop}
    {R : σ → σ → Prop} (hrefl : ∀ s, R s s)
    (hok : ∀ s i, I s → C s i → impl s i = .ok (spec s i) ∧ I (spec s i))
    (hfail : ∀ s i, I s → ¬ C s i → ∀ s', impl s i ≠ .ok s') (hI : I s) :
    (∀ n, ∃ s', (labels.take n).foldlM impl s = .ok s' ∧ R s' ((labels.take n).foldl spec s)) ↔
      Along spec C s labels := by
  induction labels generalizing s with
  | nil => exact ⟨fun _ => trivial, fun _ n => ⟨s, by rw [List.take_nil]; rfl, by rw [List.take_nil]; exact hrefl s⟩⟩
  | cons i labels ih =>
    have hbind : C s i → ∀ n, ((i :: labels).take (n + 1)).foldlM impl s = (labels.take n).foldlM impl (spec s i) := by
      intro hC n
      rw [List.take_succ_cons, List.foldlM_cons, (hok s i hI hC).1]
      rfl
    constructor
    · intro h
      have hC : C s i := by
        by_contra hC
        obtain ⟨s', hs', _⟩ := h 1
        rw [List.take_succ_cons, List.take_zero, List.foldlM_cons] at hs'
        cases hfirst : impl s i with
        | error e =>
          rw [hfirst] at hs'
          cases hs'
        | ok s₁ => exact hfail s i hI hC s₁ hfirst
      refine ⟨hC, (ih (hok s i hI hC).2).mp fun n => ?_⟩
      rw [← hbind hC]
      exact h (n + 1)
    · intro ⟨hC, hrest⟩ n
      cases n with
      | zero => exact ⟨s, rfl, hrefl s⟩
      | succ n =>
        rw [hbind hC]
        exact (ih (hok s i hI hC).2).mpr hrest n

/-- Where a step that does not fail and keeps `J` is one that meets `C`, a run does not fail and keeps `J` in every state exactly if all its steps meet `C`. -/
theorem forall_take_ok_iff_alongOk {step : σ → ι → Except ε σ} {J : σ → Prop}
    (hI : ∀ s i s', I s → step s i = .ok s' → I s')
    (hiff : ∀ s i, I s → J s → ((∃ s', step s i = .ok s' ∧ J s') ↔ C s i)) (hs : I s) (hJ : J s) :
    (∀ n, ∃ s', (labels.take n).foldlM step s = .ok s' ∧ J s') ↔ AlongOk step C s labels := by
  induction labels generalizing s with
  | nil => exact ⟨fun _ => trivial, fun _ n => ⟨s, by rw [List.take_nil]; rfl, hJ⟩⟩
  | cons i labels ih =>
    have hbind : ∀ n, ((i :: labels).take (n + 1)).foldlM step s = step s i >>= (labels.take n).foldlM step := by
      intro n
      rw [List.take_succ_cons, List.foldlM_cons]
    have hfirst : (∃ s', ((i :: labels).take 1).foldlM step s = .ok s' ∧ J s') ↔ ∃ s', step s i = .ok s' ∧ J s' := by
      rw [hbind, List.take_zero]
      cases step s i with
      | error e => exact Iff.rfl
      | ok s₁ => exact Iff.rfl
    constructor
    · intro h
      obtain ⟨s₁, hs₁, hJ₁⟩ := hfirst.mp (h 1)
      refine ⟨(hiff s i hs hJ).mp ⟨s₁, hs₁, hJ₁⟩, fun s₂ hs₂ => ?_⟩
      cases hs₁.symm.trans hs₂
      refine (ih (hI s i s₁ hs hs₁) hJ₁).mp fun n => ?_
      have hn := h (n + 1)
      rw [hbind, hs₁] at hn
      exact hn
    · intro ⟨hC, hrest⟩ n
      obtain ⟨s₁, hs₁, hJ₁⟩ := (hiff s i hs hJ).mpr hC
      cases n with
      | zero => exact ⟨s, rfl, hJ⟩
      | succ n =>
        rw [hbind, hs₁]
        exact (ih (hI s i s₁ hs hs₁) hJ₁).mpr (hrest s₁ hs₁) n

/-- Where a step decides a fact if it is for the key of the fact, and leaves it alone otherwise, a run whose labels are for different keys decides it by the label for that key, if there is one. -/
theorem foldl_iff_of_keyed {key : ι → κ} {k : κ} {A : ι → Prop} {P : σ → Prop} {Q : ι → Prop}
    (hI : ∀ s i, I s → A i → I (step s i))
    (hP : ∀ s i, I s → A i → (P (step s i) ↔ key i = k ∧ Q i ∨ key i ≠ k ∧ P s))
    (hA : ∀ i ∈ labels, A i) (hnodup : (labels.map key).Nodup) (h : I s) :
    P (labels.foldl step s) ↔ (∃ i ∈ labels, key i = k ∧ Q i) ∨ (∀ i ∈ labels, key i ≠ k) ∧ P s := by
  induction labels generalizing s with
  | nil => simp
  | cons i labels ih =>
    obtain ⟨hfresh, hrest⟩ := List.nodup_cons.mp hnodup
    have hi := hA i List.mem_cons_self
    have htail := ih (fun j hj => hA j (List.mem_cons_of_mem _ hj)) hrest (hI s i h hi)
    rw [List.foldl_cons, htail, hP s i h hi]
    simp only [List.mem_cons, exists_eq_or_imp, forall_eq_or_imp]
    by_cases hkey : key i = k
    · have hothers : ∀ j ∈ labels, key j ≠ k := fun j hj heq =>
        hfresh (hkey.trans heq.symm ▸ List.mem_map_of_mem hj)
      have hnone : ¬ ∃ j ∈ labels, key j = k ∧ Q j := fun ⟨j, hj, heq, _⟩ => hothers j hj heq
      rw [and_iff_right hothers]
      simp [hkey, hnone]
    · simp only [hkey, ne_eq, not_false_eq_true, true_and, false_and, false_or]

/-- A run of which only some labels concern a component is one of the component under these labels. -/
theorem foldl_elim (f : κ → Option ι) (s : σ) (keys : List κ) :
    keys.foldl (fun s k => (f k).elim s (step s)) s = (keys.filterMap f).foldl step s := by
  induction keys generalizing s with
  | nil => rfl
  | cons k keys ih =>
    rw [List.foldl_cons, ih]
    cases hk : f k with
    | none => rw [List.filterMap_cons_none hk, Option.elim_none]
    | some i => rw [List.filterMap_cons_some hk, Option.elim_some, List.foldl_cons]

theorem Along.of_filterMap {f : κ → Option ι} {keys : List κ} (h : Along step C s (keys.filterMap f)) :
    Along (fun s k => (f k).elim s (step s)) (fun s k => ∀ i, f k = some i → C s i) s keys := by
  induction keys generalizing s with
  | nil => trivial
  | cons k keys ih =>
    cases hk : f k with
    | none =>
      rw [List.filterMap_cons_none hk] at h
      refine ⟨fun i hi => absurd (hk.symm.trans hi) nofun, ?_⟩
      simp only [hk, Option.elim_none]
      exact ih h
    | some i =>
      rw [List.filterMap_cons_some hk] at h
      refine ⟨fun j hj => Option.some.inj (hk.symm.trans hj) ▸ h.1, ?_⟩
      simp only [hk, Option.elim_some]
      exact ih h.2

end Transition
