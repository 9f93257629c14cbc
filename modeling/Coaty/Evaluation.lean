import Mathlib.Data.List.Forall2

/-!
# Evaluations that may fail

Whether an evaluation returns, and for the quantifiers that stop at the first element that decides them: such a quantifier returns exactly if it does on every element that it reaches.
-/

namespace Evaluation

variable {α β ε : Type}

def Returns (e : Except ε α) : Prop := ∃ a, e = .ok a

@[simp] theorem returns_ok (a : α) : Returns (.ok a : Except ε α) := ⟨a, rfl⟩

@[simp] theorem returns_pure (a : α) : Returns (pure a : Except ε α) := ⟨a, rfl⟩

@[simp] theorem not_returns_error (e : ε) : ¬ Returns (.error e : Except ε α) := by
  intro ⟨a, h⟩
  cases h

@[simp] theorem ok_bind (a : α) (f : α → Except ε β) : (Except.ok a >>= f) = f a := rfl

@[simp] theorem error_bind (e : ε) (f : α → Except ε β) : (Except.error e >>= f) = .error e := rfl

theorem bind_eq_ok_iff {e : Except ε α} {f : α → Except ε β} {b : β} :
    (e >>= f) = .ok b ↔ ∃ a, e = .ok a ∧ f a = .ok b := by
  cases e with
  | error e => simp
  | ok a => simp

theorem returns_bind_iff {e : Except ε α} {f : α → Except ε β} :
    Returns (e >>= f) ↔ ∃ a, e = .ok a ∧ Returns (f a) := by
  cases e with
  | error e => simp
  | ok a => simp

theorem returns_map_iff {e : Except ε α} {f : α → Except ε β} (hf : ∀ a, Returns (f a)) :
    Returns (e >>= f) ↔ Returns e := by
  rw [returns_bind_iff]
  constructor
  · intro ⟨a, ha, _⟩
    exact ⟨a, ha⟩
  · intro ⟨a, ha⟩
    exact ⟨a, ha, hf a⟩

theorem isSome_mapM {f : α → Option β} {xs : List α} (h : ∀ x ∈ xs, (f x).isSome = true) :
    (xs.mapM f).isSome = true := by
  induction xs with
  | nil => rfl
  | cons x xs ih =>
    obtain ⟨y, hy⟩ := Option.isSome_iff_exists.mp (h x List.mem_cons_self)
    obtain ⟨ys, hys⟩ := Option.isSome_iff_exists.mp (ih fun x' hx' => h x' (List.mem_cons_of_mem _ hx'))
    simp [List.mapM_cons, hy, hys]

theorem mapM_eq_some_iff {f : α → Option β} {xs : List α} {ys : List β} :
    xs.mapM f = some ys ↔ List.Forall₂ (fun x y => f x = some y) xs ys := by
  induction xs generalizing ys with
  | nil =>
    rw [List.mapM_nil, List.forall₂_nil_left_iff]
    exact ⟨fun h => (Option.some.inj h).symm, fun h => congrArg some h.symm⟩
  | cons x xs ih =>
    rw [List.mapM_cons, List.forall₂_cons_left_iff]
    simp only [Option.bind_eq_bind, Option.bind_eq_some_iff, ih]
    constructor
    · intro h
      obtain ⟨y, hy, ys', hys, heq⟩ := h
      cases heq
      exact ⟨y, ys', hy, hys, rfl⟩
    · intro h
      obtain ⟨y, ys', hy, hys, rfl⟩ := h
      exact ⟨y, hy, ys', hys, rfl⟩

theorem mapM_congr {f f' : α → Option β} {xs : List α} (h : ∀ x ∈ xs, f x = f' x) : xs.mapM f = xs.mapM f' := by
  induction xs with
  | nil => rfl
  | cons x xs ih =>
    rw [List.forall_mem_cons] at h
    rw [List.mapM_cons, List.mapM_cons, h.1, ih h.2]

theorem eq_all_of_allM {f : α → Except ε Bool} {g : α → Bool} {xs : List α} {c : Bool}
    (hf : ∀ x ∈ xs, ∀ c, f x = .ok c → c = g x) (h : xs.allM f = .ok c) : c = xs.all g := by
  induction xs generalizing c with
  | nil =>
    cases h
    rfl
  | cons x xs ih =>
    rw [List.forall_mem_cons] at hf
    rw [List.allM_cons] at h
    rw [List.all_cons]
    cases hx : f x with
    | error e =>
      rw [hx] at h
      cases h
    | ok b =>
      rw [hx, ok_bind] at h
      rw [← hf.1 b hx]
      cases b with
      | true => exact ih hf.2 h
      | false =>
        cases h
        rfl

theorem mapError_eq_ok_iff {δ : Type} {f : ε → δ} {e : Except ε α} {a : α} : e.mapError f = .ok a ↔ e = .ok a := by
  cases e <;> simp [Except.mapError]

/-- What the evaluation returns, if it does, is whether the property holds. -/
def Decides (e : Except ε Bool) (P : Prop) : Prop := ∀ c, e = .ok c → (c = true ↔ P)

theorem decides_ok {b : Bool} {P : Prop} (h : b = true ↔ P) : Decides (.ok b : Except ε Bool) P := by
  intro c hc
  cases hc
  exact h

theorem decides_error (e : ε) (P : Prop) : Decides (.error e) P := by
  intro c hc
  cases hc

theorem decides_self (e : Except ε Bool) : Decides e (e = .ok true) := by
  intro c hc
  rw [hc, Except.ok.injEq]

theorem decides_allM {f : α → Except ε Bool} {P : α → Prop} {xs : List α} (hf : ∀ x ∈ xs, Decides (f x) (P x)) :
    Decides (xs.allM f) (∀ x ∈ xs, P x) := by
  induction xs with
  | nil => exact decides_ok (by simp)
  | cons x xs ih =>
    rw [List.forall_mem_cons] at hf
    rw [List.allM_cons]
    cases hx : f x with
    | error e => exact decides_error e _
    | ok b =>
      have hP := hf.1 b hx
      cases b with
      | true =>
        simp only [List.forall_mem_cons, hP.mp rfl, true_and]
        exact ih hf.2
      | false =>
        have hnot : ¬ P x := mt hP.mpr Bool.false_ne_true
        exact decides_ok (by simp [hnot])

theorem decides_anyM {f : α → Except ε Bool} {P : α → Prop} {xs : List α} (hf : ∀ x ∈ xs, Decides (f x) (P x)) :
    Decides (xs.anyM f) (∃ x ∈ xs, P x) := by
  induction xs with
  | nil => exact decides_ok (by simp)
  | cons x xs ih =>
    rw [List.forall_mem_cons] at hf
    rw [List.anyM_cons]
    cases hx : f x with
    | error e => exact decides_error e _
    | ok b =>
      have hP := hf.1 b hx
      cases b with
      | true => exact decides_ok (by simp [hP.mp rfl])
      | false =>
        have hnot : ¬ P x := mt hP.mpr Bool.false_ne_true
        simp only [List.exists_mem_cons_iff, hnot, false_or]
        exact ih hf.2

theorem Decides.returns_iff {e : Except ε Bool} {P : Prop} (h : Decides e P) :
    (∃ c, e = .ok c ∧ (c = true ↔ P)) ↔ Returns e := by
  constructor
  · intro ⟨c, hc, _⟩
    exact ⟨c, hc⟩
  · intro ⟨c, hc⟩
    exact ⟨c, hc, h c hc⟩

/-- Two folds over the same list, each of whose steps keeps their results related. -/
theorem related_of_foldlM {σ τ : Type} {related : σ → τ → Prop} {f : σ → α → Except ε σ} {g : τ → α → Except ε τ}
    (hstep : ∀ s t x s' t', related s t → f s x = .ok s' → g t x = .ok t' → related s' t') {xs : List α} {s s' : σ} {t t' : τ}
    (h : related s t) (hs : xs.foldlM f s = .ok s') (ht : xs.foldlM g t = .ok t') : related s' t' := by
  induction xs generalizing s t with
  | nil =>
    cases hs
    cases ht
    exact h
  | cons x xs ih =>
    rw [List.foldlM_cons, bind_eq_ok_iff] at hs ht
    obtain ⟨s₁, hs₁, hs⟩ := hs
    obtain ⟨t₁, ht₁, ht⟩ := ht
    exact ih (hstep s t x s₁ t₁ h hs₁ ht₁) hs ht

theorem length_of_mapM {f : α → Except ε β} {xs : List α} {ys : List β} (h : xs.mapM f = .ok ys) : ys.length = xs.length := by
  induction xs generalizing ys with
  | nil =>
    cases h
    rfl
  | cons x xs ih =>
    simp only [List.mapM_cons, bind_eq_ok_iff] at h
    obtain ⟨y, _, ys', hys, h⟩ := h
    cases h
    rw [List.length_cons, List.length_cons, ih hys]

/-! ### Reached elements -/

/-- The element stands in the list after elements for which the evaluation yields `b` only. -/
def Reached (f : α → Except ε Bool) (b : Bool) (xs : List α) (x : α) : Prop :=
  ∃ before after, xs = before ++ x :: after ∧ ∀ y ∈ before, f y = .ok b

variable {f g : α → Except ε Bool} {b : Bool} {x y : α} {xs : List α}

/-- The element stands in the list after elements with the property only. -/
def ReachedWhile (P : α → Prop) (xs : List α) (x : α) : Prop :=
  ∃ before after, xs = before ++ x :: after ∧ ∀ y ∈ before, P y

theorem ReachedWhile.mem {P : α → Prop} (h : ReachedWhile P xs x) : x ∈ xs := by
  obtain ⟨before, after, h, _⟩ := h
  simp [h]

theorem not_reachedWhile_nil {P : α → Prop} : ¬ ReachedWhile P [] x := by
  intro h
  exact List.not_mem_nil h.mem

theorem reachedWhile_cons {P : α → Prop} : ReachedWhile P (y :: xs) x ↔ x = y ∨ P y ∧ ReachedWhile P xs x := by
  constructor
  · intro ⟨before, after, h, hbefore⟩
    cases before with
    | nil =>
      rw [List.nil_append, List.cons.injEq] at h
      exact Or.inl h.1.symm
    | cons z before =>
      rw [List.cons_append, List.cons.injEq] at h
      rw [List.forall_mem_cons] at hbefore
      exact Or.inr ⟨h.1 ▸ hbefore.1, before, after, h.2, hbefore.2⟩
  · intro h
    obtain h | ⟨hy, before, after, h, hbefore⟩ := h
    · exact ⟨[], xs, by rw [h, List.nil_append], by simp⟩
    · exact ⟨y :: before, after, by rw [h, List.cons_append], List.forall_mem_cons.mpr ⟨hy, hbefore⟩⟩

theorem not_reached_nil : ¬ Reached f b [] x := not_reachedWhile_nil

theorem reached_cons : Reached f b (y :: xs) x ↔ x = y ∨ f y = .ok b ∧ Reached f b xs x := reachedWhile_cons

theorem Reached.mem (h : Reached f b xs x) : x ∈ xs := ReachedWhile.mem h

theorem returns_allM_iff : Returns (xs.allM f) ↔ ∀ x, Reached f true xs x → Returns (f x) := by
  induction xs with
  | nil => simp [not_reached_nil]
  | cons y xs ih =>
    rw [List.allM_cons]
    cases hy : f y with
    | error e =>
      simp only [error_bind, not_returns_error, false_iff, not_forall]
      exact ⟨y, reached_cons.mpr (Or.inl rfl), by simp [hy]⟩
    | ok b =>
      cases b with
      | true => simp [reached_cons, hy, ih]
      | false => simp [reached_cons, hy]

theorem returns_anyM_iff : Returns (xs.anyM f) ↔ ∀ x, Reached f false xs x → Returns (f x) := by
  induction xs with
  | nil => simp [not_reached_nil]
  | cons y xs ih =>
    rw [List.anyM_cons]
    cases hy : f y with
    | error e =>
      simp only [error_bind, not_returns_error, false_iff, not_forall]
      exact ⟨y, reached_cons.mpr (Or.inl rfl), by simp [hy]⟩
    | ok b =>
      cases b with
      | true => simp [reached_cons, hy]
      | false => simp [reached_cons, hy, ih]

theorem returns_allM_iff_of_decides {P : α → Prop} (hf : ∀ x ∈ xs, Decides (f x) (P x)) :
    Returns (xs.allM f) ↔ ∀ x, ReachedWhile P xs x → Returns (f x) := by
  induction xs with
  | nil => simp [not_reachedWhile_nil]
  | cons y xs ih =>
    rw [List.forall_mem_cons] at hf
    rw [List.allM_cons]
    cases hy : f y with
    | error e =>
      simp only [error_bind, not_returns_error, false_iff, not_forall]
      exact ⟨y, reachedWhile_cons.mpr (Or.inl rfl), by simp [hy]⟩
    | ok c =>
      have hP := hf.1 c hy
      cases c with
      | true => simp [reachedWhile_cons, hy, ih hf.2, hP.mp rfl]
      | false => simp [reachedWhile_cons, hy, mt hP.mpr Bool.false_ne_true]

theorem returns_anyM_iff_of_decides {P : α → Prop} (hf : ∀ x ∈ xs, Decides (f x) (P x)) :
    Returns (xs.anyM f) ↔ ∀ x, ReachedWhile (¬ P ·) xs x → Returns (f x) := by
  induction xs with
  | nil => simp [not_reachedWhile_nil]
  | cons y xs ih =>
    rw [List.forall_mem_cons] at hf
    rw [List.anyM_cons]
    cases hy : f y with
    | error e =>
      simp only [error_bind, not_returns_error, false_iff, not_forall]
      exact ⟨y, reachedWhile_cons.mpr (Or.inl rfl), by simp [hy]⟩
    | ok c =>
      have hP := hf.1 c hy
      cases c with
      | true => simp [reachedWhile_cons, hy, hP.mp rfl]
      | false => simp [reachedWhile_cons, hy, ih hf.2, mt hP.mpr Bool.false_ne_true]

/-! ### The first failure -/

/-- Nothing acts before the first element that fails. -/
def NoneBefore (fails acts : α → Prop) (xs : List α) : Prop :=
  ∀ before x after, xs = before ++ x :: after → (∀ y ∈ before, ¬ fails y) → fails x → ∀ y ∈ before, ¬ acts y

variable {fails acts : α → Prop}

theorem exists_first (h : ∃ x ∈ xs, fails x) :
    ∃ before x after, xs = before ++ x :: after ∧ (∀ y ∈ before, ¬ fails y) ∧ fails x := by
  induction xs with
  | nil => simp at h
  | cons x xs ih =>
    by_cases hx : fails x
    · exact ⟨[], x, xs, rfl, by simp, hx⟩
    · obtain ⟨y, hy, hfails⟩ := h
      have hmem : y ∈ xs := (List.mem_cons.mp hy).resolve_left fun heq => hx (heq ▸ hfails)
      obtain ⟨before, z, after, rfl, hbefore, hz⟩ := ih ⟨y, hmem, hfails⟩
      exact ⟨x :: before, z, after, rfl, List.forall_mem_cons.mpr ⟨hx, hbefore⟩, hz⟩

theorem noneBefore_of_none (h : ∀ x ∈ xs, ¬ fails x) : NoneBefore fails acts xs := by
  intro before x after heq _ hx
  exact absurd hx (h x (by simp [heq]))

/-- There is only one first failure. -/
theorem noneBefore_iff {before after : List α} (hbefore : ∀ y ∈ before, ¬ fails y) (hx : fails x) :
    NoneBefore fails acts (before ++ x :: after) ↔ ∀ y ∈ before, ¬ acts y := by
  constructor
  · intro h
    exact h before x after rfl hbefore hx
  · intro h before' x' after' heq hbefore' hx'
    have hsame : before' = before := by
      obtain ⟨other, hother, hrest⟩ | ⟨other, hother, hrest⟩ := List.append_eq_append_iff.mp heq
      · cases other with
        | nil => simpa using hother
        | cons y other =>
          rw [List.cons_append, List.cons.injEq] at hrest
          exact absurd (hrest.1 ▸ hx) (hbefore' y (by simp [hother]))
      · cases other with
        | nil => simpa using hother.symm
        | cons y other =>
          rw [List.cons_append, List.cons.injEq] at hrest
          exact absurd (hrest.1 ▸ hx') (hbefore y (by simp [hother]))
    rw [hsame]
    exact h

end Evaluation
