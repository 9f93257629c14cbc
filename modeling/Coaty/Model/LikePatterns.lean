import Coaty.Com.ContextFilters

/-!
# What `LIKE` patterns match

The characters of a string are its code units. In a pattern `_` stands for one character, `%` for any sequence of characters, a backslash takes the next character literally, and every other character stands for itself. The regular expression that is made of a pattern differs in one respect only: its wildcards do not match line terminators. All splits of a string by a pattern leave the same number of line terminators to the wildcards, so a string is not matched as documented exactly if it has more of them than the pattern.
-/

namespace Coaty

open Js Value Evaluation

/-- The string can be split according to the pattern. A backslash that no character follows stands for nothing. -/
inductive LikeMatches : Text → Text → Prop
  | done : LikeMatches [] []
  | anyOne (c : UInt16) {pattern s : Text} : LikeMatches pattern s → LikeMatches (unit '_' :: pattern) (c :: s)
  | anyMany (skipped : Text) {pattern s : Text} :
    LikeMatches pattern s → LikeMatches (unit '%' :: pattern) (skipped ++ s)
  | escaped (c : UInt16) {pattern s : Text} :
    LikeMatches pattern s → LikeMatches (unit '\\' :: c :: pattern) (c :: s)
  | unescaped : LikeMatches [unit '\\'] []
  | literal {c : UInt16} {pattern s : Text} (hc : c ∉ [unit '_', unit '%', unit '\\']) :
    LikeMatches pattern s → LikeMatches (c :: pattern) (c :: s)

/-- The number of line terminators in a string. -/
def lineTerminators (s : Text) : Nat := s.countP isLineTerminator

namespace LikePart

/-- The string can be split according to the parts, of which the wildcards leave out some characters. -/
inductive Splits (excluded : UInt16 → Bool) : List LikePart → Text → Prop
  | done : Splits excluded [] []
  | literal (c : UInt16) {parts : List LikePart} {s : Text} :
    Splits excluded parts s → Splits excluded (.literal c :: parts) (c :: s)
  | anyOne {c : UInt16} {parts : List LikePart} {s : Text} (hc : excluded c = false) :
    Splits excluded parts s → Splits excluded (.anyOne :: parts) (c :: s)
  | anyMany {skipped : Text} {parts : List LikePart} {s : Text} (hskipped : ∀ c ∈ skipped, excluded c = false) :
    Splits excluded parts s → Splits excluded (.anyMany :: parts) (skipped ++ s)

/-- The characters that a part stands for by itself. -/
def own : LikePart → Text
  | .literal c => [c]
  | .anyOne => []
  | .anyMany => []

/-! ### The regular expression -/

theorem testMany_iff {rest : Text → Bool} {s : Text} :
    testMany rest s = true ↔
      ∃ skipped s', s = skipped ++ s' ∧ (∀ c ∈ skipped, isLineTerminator c = false) ∧ rest s' = true := by
  induction s with
  | nil =>
    rw [testMany]
    constructor
    · intro h
      exact ⟨[], [], rfl, by simp, h⟩
    · intro ⟨skipped, s', hs, _, hrest⟩
      rw [(List.nil_eq_append_iff.mp hs).2] at hrest
      exact hrest
  | cons c s ih =>
    rw [testMany, Bool.or_eq_true, Bool.and_eq_true, Bool.not_eq_true', ih]
    constructor
    · rintro (h | ⟨hc, skipped, s', rfl, hskipped, hrest⟩)
      · exact ⟨[], c :: s, rfl, by simp, h⟩
      · exact ⟨c :: skipped, s', rfl, List.forall_mem_cons.mpr ⟨hc, hskipped⟩, hrest⟩
    · intro ⟨skipped, s', hs, hskipped, hrest⟩
      cases skipped with
      | nil =>
        rw [List.nil_append] at hs
        exact Or.inl (hs ▸ hrest)
      | cons d skipped =>
        rw [List.cons_append, List.cons.injEq] at hs
        rw [List.forall_mem_cons] at hskipped
        exact Or.inr ⟨hs.1 ▸ hskipped.1, skipped, s', hs.2, hskipped.2, hrest⟩

theorem testLike_iff {parts : List LikePart} {s : Text} :
    testLike parts s = true ↔ Splits isLineTerminator parts s := by
  induction parts generalizing s with
  | nil =>
    rw [testLike, List.isEmpty_iff]
    constructor
    · rintro rfl
      exact .done
    · intro h
      cases h
      rfl
  | cons part parts ih =>
    cases part with
    | literal c =>
      cases s with
      | nil => exact iff_of_false Bool.false_ne_true nofun
      | cons c' s =>
        rw [testLike, Bool.and_eq_true, decide_eq_true_eq, ih]
        constructor
        · rintro ⟨rfl, h⟩
          exact .literal c h
        · intro h
          cases h with
          | literal _ h => exact ⟨rfl, h⟩
    | anyOne =>
      cases s with
      | nil => exact iff_of_false Bool.false_ne_true nofun
      | cons c s =>
        rw [testLike, Bool.and_eq_true, Bool.not_eq_true', ih]
        constructor
        · intro ⟨hc, h⟩
          exact .anyOne hc h
        · intro h
          cases h with
          | anyOne hc h => exact ⟨hc, h⟩
    | anyMany =>
      rw [testLike, testMany_iff]
      constructor
      · rintro ⟨skipped, s', rfl, hskipped, h⟩
        exact .anyMany hskipped (ih.mp h)
      · intro h
        cases h with
        | anyMany hskipped h => exact ⟨_, _, rfl, hskipped, ih.mpr h⟩

/-! ### Line terminators -/

variable {parts : List LikePart} {s : Text}

theorem lineTerminators_cons (c : UInt16) (s : Text) :
    lineTerminators (c :: s) = lineTerminators s + if isLineTerminator c then 1 else 0 := by
  rw [lineTerminators, lineTerminators, List.countP_cons]

theorem lineTerminators_append (s t : Text) : lineTerminators (s ++ t) = lineTerminators s + lineTerminators t := by
  rw [lineTerminators, lineTerminators, lineTerminators, List.countP_append]

theorem lineTerminators_eq_zero_iff : lineTerminators s = 0 ↔ ∀ c ∈ s, isLineTerminator c = false := by
  rw [lineTerminators, List.countP_eq_zero]
  simp only [Bool.not_eq_true]

theorem Splits.lineTerminators_own_le {excluded : UInt16 → Bool} (h : Splits excluded parts s) :
    lineTerminators (parts.flatMap own) ≤ lineTerminators s := by
  induction h with
  | done => exact Nat.le_refl _
  | literal c _ ih =>
    rw [List.flatMap_cons, own, List.singleton_append, lineTerminators_cons, lineTerminators_cons]
    exact Nat.add_le_add_right ih _
  | anyOne hc _ ih =>
    rw [List.flatMap_cons, own, List.nil_append, lineTerminators_cons]
    exact ih.trans (Nat.le_add_right _ _)
  | anyMany hskipped _ ih =>
    rw [List.flatMap_cons, own, List.nil_append, lineTerminators_append]
    exact ih.trans (Nat.le_add_left _ _)

theorem Splits.lineTerminators_le (h : Splits isLineTerminator parts s) :
    lineTerminators s ≤ lineTerminators (parts.flatMap own) := by
  induction h with
  | done => exact Nat.le_refl _
  | literal c _ ih =>
    rw [List.flatMap_cons, own, List.singleton_append, lineTerminators_cons, lineTerminators_cons]
    exact Nat.add_le_add_right ih _
  | anyOne hc _ ih =>
    rw [List.flatMap_cons, own, List.nil_append, lineTerminators_cons, hc]
    exact ih
  | anyMany hskipped _ ih =>
    rw [List.flatMap_cons, own, List.nil_append, lineTerminators_append, lineTerminators_eq_zero_iff.mpr hskipped, Nat.zero_add]
    exact ih

theorem Splits.weaken {excluded : UInt16 → Bool} (h : Splits excluded parts s) : Splits (fun _ => false) parts s := by
  induction h with
  | done => exact .done
  | literal c _ ih => exact .literal c ih
  | anyOne _ _ ih => exact .anyOne rfl ih
  | anyMany _ _ ih => exact .anyMany (fun _ _ => rfl) ih

theorem Splits.strengthen (h : Splits (fun _ => false) parts s)
    (hle : lineTerminators s ≤ lineTerminators (parts.flatMap own)) : Splits isLineTerminator parts s := by
  induction h with
  | done => exact .done
  | literal c _ ih =>
    rw [List.flatMap_cons, own, List.singleton_append, lineTerminators_cons, lineTerminators_cons] at hle
    exact .literal c (ih (Nat.le_of_add_le_add_right hle))
  | @anyOne c _ _ _ h ih =>
    have hown := h.lineTerminators_own_le
    rw [List.flatMap_cons, own, List.nil_append, lineTerminators_cons] at hle
    by_cases hc : isLineTerminator c = true
    · rw [if_pos hc] at hle
      omega
    · rw [if_neg hc] at hle
      exact .anyOne (Bool.eq_false_of_not_eq_true hc) (ih hle)
  | @anyMany skipped _ _ _ h ih =>
    have hown := h.lineTerminators_own_le
    rw [List.flatMap_cons, own, List.nil_append, lineTerminators_append] at hle
    have hnone : lineTerminators skipped = 0 := by omega
    exact .anyMany (lineTerminators_eq_zero_iff.mp hnone) (ih (by omega))

/-- The test passes the strings that can be split and have no more line terminators than the parts. -/
theorem testLike_iff_splits :
    testLike parts s = true ↔
      Splits (fun _ => false) parts s ∧ lineTerminators s ≤ lineTerminators (parts.flatMap own) := by
  rw [testLike_iff]
  constructor
  · intro h
    exact ⟨h.weaken, h.lineTerminators_le⟩
  · intro ⟨h, hle⟩
    exact h.strengthen hle

/-! ### Patterns -/

theorem createLikeRegexp_escape (pattern : Text) :
    createLikeRegexp false (unit '\\' :: pattern) = createLikeRegexp true pattern := by
  rw [createLikeRegexp, if_pos rfl, if_neg Bool.false_ne_true]

theorem createLikeRegexp_escaped (c : UInt16) (pattern : Text) :
    createLikeRegexp true (c :: pattern) = .literal c :: createLikeRegexp false pattern := by
  rw [createLikeRegexp]
  split
  · rfl
  · split
    · rfl
    · rw [if_neg (by simp), if_neg (by simp)]

theorem createLikeRegexp_anyOne (pattern : Text) :
    createLikeRegexp false (unit '_' :: pattern) = .anyOne :: createLikeRegexp false pattern := by
  rw [createLikeRegexp, if_neg (by decide), if_neg (by decide), if_pos ⟨rfl, rfl⟩]

theorem createLikeRegexp_anyMany (pattern : Text) :
    createLikeRegexp false (unit '%' :: pattern) = .anyMany :: createLikeRegexp false pattern := by
  rw [createLikeRegexp, if_neg (by decide), if_neg (by decide), if_neg (by decide), if_pos ⟨rfl, rfl⟩]

theorem createLikeRegexp_literal {c : UInt16} (hc : c ∉ [unit '_', unit '%', unit '\\']) (pattern : Text) :
    createLikeRegexp false (c :: pattern) = .literal c :: createLikeRegexp false pattern := by
  simp only [List.mem_cons, List.not_mem_nil, or_false, not_or] at hc
  rw [createLikeRegexp, if_neg hc.2.2]
  split
  · rfl
  · rw [if_neg (by simp [hc.1]), if_neg (by simp [hc.2.1])]

/-- Patterns are made of wildcards, of backslashes with the character behind them, and of other characters. -/
theorem induction_of_pattern {P : Text → Prop} (nil : P []) (anyOne : ∀ pattern, P pattern → P (unit '_' :: pattern))
    (anyMany : ∀ pattern, P pattern → P (unit '%' :: pattern))
    (escaped : ∀ c pattern, P pattern → P (unit '\\' :: c :: pattern)) (unescaped : P [unit '\\'])
    (literal : ∀ c pattern, c ∉ [unit '_', unit '%', unit '\\'] → P pattern → P (c :: pattern)) (pattern : Text) :
    P pattern := by
  induction hlength : pattern.length using Nat.strong_induction_on generalizing pattern with
  | _ n ih =>
    subst hlength
    cases pattern with
    | nil => exact nil
    | cons c pattern =>
      have hrest : P pattern := ih _ (Nat.lt_succ_self _) pattern rfl
      by_cases hc : c ∈ [unit '_', unit '%', unit '\\']
      · simp only [List.mem_cons, List.not_mem_nil, or_false] at hc
        obtain rfl | rfl | rfl := hc
        · exact anyOne pattern hrest
        · exact anyMany pattern hrest
        · cases pattern with
          | nil => exact unescaped
          | cons d pattern => exact escaped d pattern (ih _ (Nat.lt_succ_of_lt (Nat.lt_succ_self _)) pattern rfl)
      · exact literal c pattern hc hrest

theorem likeMatches_anyOne_iff {pattern : Text} :
    LikeMatches (unit '_' :: pattern) s ↔ ∃ c s', s = c :: s' ∧ LikeMatches pattern s' := by
  constructor
  · intro h
    generalize hpattern : unit '_' :: pattern = whole at h
    cases h with
    | done => cases hpattern
    | anyOne c h =>
      cases hpattern
      exact ⟨c, _, rfl, h⟩
    | anyMany => exact absurd (List.cons.inj hpattern).1 (by decide)
    | escaped => exact absurd (List.cons.inj hpattern).1 (by decide)
    | unescaped => exact absurd (List.cons.inj hpattern).1 (by decide)
    | literal hc => exact absurd (by simp [← (List.cons.inj hpattern).1]) hc
  · rintro ⟨c, s', rfl, h⟩
    exact .anyOne c h

theorem likeMatches_anyMany_iff {pattern : Text} :
    LikeMatches (unit '%' :: pattern) s ↔ ∃ skipped s', s = skipped ++ s' ∧ LikeMatches pattern s' := by
  constructor
  · intro h
    generalize hpattern : unit '%' :: pattern = whole at h
    cases h with
    | done => cases hpattern
    | anyOne => exact absurd (List.cons.inj hpattern).1 (by decide)
    | anyMany skipped h =>
      cases hpattern
      exact ⟨skipped, _, rfl, h⟩
    | escaped => exact absurd (List.cons.inj hpattern).1 (by decide)
    | unescaped => exact absurd (List.cons.inj hpattern).1 (by decide)
    | literal hc => exact absurd (by simp [← (List.cons.inj hpattern).1]) hc
  · rintro ⟨skipped, s', rfl, h⟩
    exact .anyMany skipped h

theorem likeMatches_escaped_iff {c : UInt16} {pattern : Text} :
    LikeMatches (unit '\\' :: c :: pattern) s ↔ ∃ s', s = c :: s' ∧ LikeMatches pattern s' := by
  constructor
  · intro h
    generalize hpattern : unit '\\' :: c :: pattern = whole at h
    cases h with
    | done => cases hpattern
    | anyOne => exact absurd (List.cons.inj hpattern).1 (by decide)
    | anyMany => exact absurd (List.cons.inj hpattern).1 (by decide)
    | escaped c h =>
      cases hpattern
      exact ⟨_, rfl, h⟩
    | unescaped => cases hpattern
    | literal hc => exact absurd (by simp [← (List.cons.inj hpattern).1]) hc
  · rintro ⟨s', rfl, h⟩
    exact .escaped c h

theorem likeMatches_unescaped_iff : LikeMatches [unit '\\'] s ↔ s = [] := by
  constructor
  · intro h
    generalize hpattern : [unit '\\'] = whole at h
    cases h with
    | unescaped => rfl
    | done => cases hpattern
    | anyOne => exact absurd (List.cons.inj hpattern).1 (by decide)
    | anyMany => exact absurd (List.cons.inj hpattern).1 (by decide)
    | escaped => cases hpattern
    | literal hc => exact absurd (by simp [← (List.cons.inj hpattern).1]) hc
  · rintro rfl
    exact .unescaped

theorem likeMatches_literal_iff {c : UInt16} {pattern : Text} (hc : c ∉ [unit '_', unit '%', unit '\\']) :
    LikeMatches (c :: pattern) s ↔ ∃ s', s = c :: s' ∧ LikeMatches pattern s' := by
  constructor
  · intro h
    generalize hpattern : c :: pattern = whole at h
    cases h with
    | done => cases hpattern
    | anyOne => exact absurd (by simp [(List.cons.inj hpattern).1]) hc
    | anyMany => exact absurd (by simp [(List.cons.inj hpattern).1]) hc
    | escaped => exact absurd (by simp [(List.cons.inj hpattern).1]) hc
    | unescaped => exact absurd (by simp [(List.cons.inj hpattern).1]) hc
    | literal _ h =>
      cases hpattern
      exact ⟨_, rfl, h⟩
  · rintro ⟨s', rfl, h⟩
    exact .literal hc h

theorem splits_literal_iff {excluded : UInt16 → Bool} {c : UInt16} :
    Splits excluded (.literal c :: parts) s ↔ ∃ s', s = c :: s' ∧ Splits excluded parts s' := by
  constructor
  · intro h
    cases h with
    | literal _ h => exact ⟨_, rfl, h⟩
  · rintro ⟨s', rfl, h⟩
    exact .literal c h

theorem splits_createLikeRegexp_iff (pattern : Text) :
    Splits (fun _ => false) (createLikeRegexp false pattern) s ↔ LikeMatches pattern s := by
  induction pattern using induction_of_pattern generalizing s with
  | nil =>
    constructor
    · intro h
      cases h
      exact .done
    · intro h
      cases h
      exact .done
  | anyOne pattern ih =>
    rw [createLikeRegexp_anyOne, likeMatches_anyOne_iff]
    constructor
    · intro h
      cases h with
      | anyOne _ h => exact ⟨_, _, rfl, ih.mp h⟩
    · rintro ⟨c, s', rfl, h⟩
      exact .anyOne rfl (ih.mpr h)
  | anyMany pattern ih =>
    rw [createLikeRegexp_anyMany, likeMatches_anyMany_iff]
    constructor
    · intro h
      cases h with
      | anyMany _ h => exact ⟨_, _, rfl, ih.mp h⟩
    · rintro ⟨skipped, s', rfl, h⟩
      exact .anyMany (fun _ _ => rfl) (ih.mpr h)
  | escaped c pattern ih =>
    rw [createLikeRegexp_escape, createLikeRegexp_escaped, likeMatches_escaped_iff, splits_literal_iff]
    simp only [ih]
  | unescaped =>
    rw [likeMatches_unescaped_iff, createLikeRegexp_escape]
    constructor
    · intro h
      cases h
      rfl
    · rintro rfl
      exact .done
  | literal c pattern hc ih =>
    rw [createLikeRegexp_literal hc, likeMatches_literal_iff hc, splits_literal_iff]
    simp only [ih]

theorem lineTerminators_createLikeRegexp (pattern : Text) :
    lineTerminators ((createLikeRegexp false pattern).flatMap own) = lineTerminators pattern := by
  have hone : isLineTerminator (unit '_') = false := by decide
  have hmany : isLineTerminator (unit '%') = false := by decide
  have hescape : isLineTerminator (unit '\\') = false := by decide
  induction pattern using induction_of_pattern with
  | nil => rfl
  | anyOne pattern ih =>
    rw [createLikeRegexp_anyOne, List.flatMap_cons, own, List.nil_append, ih, lineTerminators_cons, hone]
    rfl
  | anyMany pattern ih =>
    rw [createLikeRegexp_anyMany, List.flatMap_cons, own, List.nil_append, ih, lineTerminators_cons, hmany]
    rfl
  | escaped c pattern ih =>
    rw [createLikeRegexp_escape, createLikeRegexp_escaped, List.flatMap_cons, own, List.singleton_append,
      lineTerminators_cons, ih, lineTerminators_cons, lineTerminators_cons, hescape]
    rfl
  | unescaped => rfl
  | literal c pattern hc ih =>
    rw [createLikeRegexp_literal hc, List.flatMap_cons, own, List.singleton_append, lineTerminators_cons, ih,
      lineTerminators_cons]

end LikePart

/-! ### The operator -/

namespace ObjectMatcher

/-- Like matches as documented exactly if the string does not match the pattern anyway or has no more line terminators than it. -/
theorem matchesCondition_like_iff (engine : Engine) {obj : Value} {properties : ObjectFilterProperties} {s : Text}
    (hvalue : getFilterPropertyValue engine properties obj = some (.value (.string s))) (pattern : Text)
    (operand2 : Option Value) :
    (matchesCondition engine obj ⟨properties, .like, some (.string pattern), operand2⟩ = .ok true ↔ LikeMatches pattern s) ↔
      (LikeMatches pattern s → lineTerminators s ≤ lineTerminators pattern) := by
  have hlike : matchesCondition engine obj ⟨properties, .like, some (.string pattern), operand2⟩ =
      .ok (testLike (createLikeRegexp false pattern) s) := by
    rw [matchesCondition, hvalue]
    rfl
  rw [hlike, Except.ok.injEq, LikePart.testLike_iff_splits, LikePart.splits_createLikeRegexp_iff,
    LikePart.lineTerminators_createLikeRegexp]
  tauto

def twoLines : Value := .object [(text "text", .string (text "a\nb"))]

theorem matchesCondition_like_iff_twoLines :
    (matchesCondition bareEngine twoLines ⟨.dotted (text "text"), .like, some (.string (text "a_b")), none⟩ = .ok true ↔
      LikeMatches (text "a_b") (text "a\nb")) ↔
      (LikeMatches (text "a_b") (text "a\nb") → lineTerminators (text "a\nb") ≤ lineTerminators (text "a_b")) :=
  matchesCondition_like_iff bareEngine rfl (text "a_b") none

/-- The line feed is a character, but the pattern `a_b` does not match it. -/
theorem not_likeMatches_of_lineFeed :
    ¬ ∀ (engine : Engine) (obj : Value) (properties : ObjectFilterProperties) (s pattern : Text) (operand2 : Option Value),
      getFilterPropertyValue engine properties obj = some (.value (.string s)) →
        (matchesCondition engine obj ⟨properties, .like, some (.string pattern), operand2⟩ = .ok true ↔
          LikeMatches pattern s) := by
  intro h
  have hiff := h bareEngine twoLines (.dotted (text "text")) (text "a\nb") (text "a_b") none rfl
  have hmatches : LikeMatches (text "a_b") (text "a\nb") :=
    .literal (by decide) (.anyOne _ (.literal (by decide) .done))
  exact absurd (hiff.mpr hmatches) (by decide)

end ObjectMatcher

end Coaty
