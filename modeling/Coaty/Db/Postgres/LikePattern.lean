import Coaty.Db.Postgres.WhereClause
import Coaty.Js.Utf8
import Coaty.Model.LikePatterns
import Mathlib.Data.Bool.AllAny

/-!
# Patterns in the database

A `LIKE` pattern is matched by the database server itself or, inside a jsonpath expression, rewritten as a regular expression. In the database a wildcard stands for a character, which may be a pair of surrogates, and leaves out fewer characters than in memory. This does not show as long as `_` comes to no such pair and wildcards do not have to stand for line terminators.
-/

namespace Coaty

namespace Postgres

open Js Evaluation

/-! ### Regular expressions -/

/-- `like2PosixRegex` between `^` and `$`, for a pattern that is a string. -/
def regexBody (isEscaped : Bool) : Text → Text
  | [] => []
  | c :: likePattern =>
    if c = unit '\\' then
      if isEscaped then text "\\\\" ++ regexBody false likePattern else regexBody true likePattern
    else if c ∈ text ".*+?^$\x7b\x7d()|[]" then unit '\\' :: c :: regexBody false likePattern
    else if c = unit '_' ∧ isEscaped = false then text "." ++ regexBody isEscaped likePattern
    else if c = unit '%' ∧ isEscaped = false then text ".*" ++ regexBody isEscaped likePattern
    else c :: regexBody false likePattern

def posixRegex (likePattern : Text) : Text := text "^" ++ regexBody false likePattern ++ text "$"

/-- The parts of a regular expression up to the `$` at its end. Of the syntax there is what these expressions need. -/
def readRegexParts : Text → Option (List LikePart)
  | [] => none
  | c :: regex =>
    if c = unit '\\' then
      match regex with
      | [] => none
      | d :: regex =>
        if d ∈ text "\\.*+?^$\x7b\x7d()|[]" then (readRegexParts regex).map fun parts => .literal d :: parts else none
    else if c = unit '.' then
      match regex with
      | [] => none
      | d :: rest =>
        if d = unit '*' then (readRegexParts rest).map fun parts => .anyMany :: parts
        else (readRegexParts (d :: rest)).map fun parts => .anyOne :: parts
    else if c = unit '$' then if regex.isEmpty then some [] else none
    else if c ∈ text "*+?^\x7b\x7d()|[]" then none
    else (readRegexParts regex).map fun parts => .literal c :: parts

def readRegex : Text → Option (List LikePart)
  | [] => none
  | c :: regex => if c = unit '^' then readRegexParts regex else none

/-! ### `LIKE` -/

/-- The parts of a `LIKE` pattern, which must not end with an escape. -/
def likeParts : Text → Option (List LikePart)
  | [] => some []
  | c :: pattern =>
    if c = unit '\\' then
      match pattern with
      | [] => none
      | d :: pattern => (likeParts pattern).map fun parts => .literal d :: parts
    else if c = unit '_' then (likeParts pattern).map fun parts => .anyOne :: parts
    else if c = unit '%' then (likeParts pattern).map fun parts => .anyMany :: parts
    else (likeParts pattern).map fun parts => .literal c :: parts

/-- Some rest of the text passes, and a wildcard stands for each character before it. -/
def testManyCharacters (wildcard : UInt16 → Bool) (rest : Text → Bool) : Text → Bool
  | [] => rest []
  | c :: s =>
    rest (c :: s) ||
      (wildcard c &&
        if isHighSurrogate c then
          match s with
          | [] => rest []
          | _ :: s => testManyCharacters wildcard rest s
        else testManyCharacters wildcard rest s)

/-- Matching of whole characters. -/
def testCharacters (wildcard : UInt16 → Bool) : List LikePart → Text → Bool
  | [], s => s.isEmpty
  | .literal c :: parts, s =>
    match s with
    | [] => false
    | c' :: s => c = c' && testCharacters wildcard parts s
  | .anyOne :: parts, s =>
    match s with
    | [] => false
    | c :: s => wildcard c && testCharacters wildcard parts (if isHighSurrogate c then s.tail else s)
  | .anyMany :: parts, s => testManyCharacters wildcard (testCharacters wildcard parts) s

/-- In a regular expression a wildcard stands for no newline. -/
def regexWildcard (c : UInt16) : Bool := c ≠ 10

def testRegex (parts : List LikePart) (s : Text) : Bool := testCharacters regexWildcard parts s

def testLikeParts (parts : List LikePart) (s : Text) : Bool := testCharacters (fun _ => true) parts s

/-! ### The same parts -/

theorem readRegexParts_literal {c : UInt16} (hbackslash : c ≠ unit '\\') (hspecial : c ∉ text ".*+?^$\x7b\x7d()|[]")
    (regex : Text) : readRegexParts (c :: regex) = (readRegexParts regex).map fun parts => .literal c :: parts := by
  have hsub : ∀ d, d ∈ text "*+?^\x7b\x7d()|[]" → d ∈ text ".*+?^$\x7b\x7d()|[]" := List.all_iff_forall_prop.mp (by decide)
  have hdot : unit '.' ∈ text ".*+?^$\x7b\x7d()|[]" := by decide
  have hdollar : unit '$' ∈ text ".*+?^$\x7b\x7d()|[]" := by decide
  have hneDot : c ≠ unit '.' := fun h => hspecial (h ▸ hdot)
  have hneDollar : c ≠ unit '$' := fun h => hspecial (h ▸ hdollar)
  have hnone : c ∉ text "*+?^\x7b\x7d()|[]" := fun h => hspecial (hsub c h)
  rw [readRegexParts.eq_def]
  simp only [if_neg hbackslash, if_neg hneDot, if_neg hneDollar, if_neg hnone]

theorem readRegexParts_escape {d : UInt16} (hd : d ∈ text "\\.*+?^$\x7b\x7d()|[]") (regex : Text) :
    readRegexParts (unit '\\' :: d :: regex) = (readRegexParts regex).map fun parts => .literal d :: parts := by
  rw [readRegexParts.eq_def]
  simp only [if_true, if_pos hd]

theorem readRegexParts_anyMany (regex : Text) :
    readRegexParts (unit '.' :: unit '*' :: regex) = (readRegexParts regex).map fun parts => .anyMany :: parts := by
  have hne : unit '.' ≠ unit '\\' := by decide
  rw [readRegexParts.eq_def]
  simp only [if_neg hne, if_true]

theorem readRegexParts_anyOne {regex : Text} (hne : regex ≠ []) (hstar : regex.head? ≠ some (unit '*')) :
    readRegexParts (unit '.' :: regex) = (readRegexParts regex).map fun parts => .anyOne :: parts := by
  have hdot : unit '.' ≠ unit '\\' := by decide
  obtain ⟨d, rest, rfl⟩ := List.exists_cons_of_ne_nil hne
  have hd : d ≠ unit '*' := by simpa using hstar
  rw [readRegexParts.eq_def]
  simp only [if_neg hdot, if_true, if_neg hd]

theorem head?_regexBody (isEscaped : Bool) (pattern : Text) :
    (regexBody isEscaped pattern ++ text "$").head? ≠ some (unit '*') := by
  induction pattern generalizing isEscaped with
  | nil =>
    have hne : (text "$").head? ≠ some (unit '*') := by decide
    exact hne
  | cons c pattern ih =>
    rw [regexBody]
    split
    · split
      · simp [text]
        decide
      · exact ih true
    · rename_i hbackslash
      split
      · simp
        decide
      · rename_i hspecial
        split
        · simp [text]
          decide
        · split
          · simp [text]
            decide
          · intro hhead
            cases hhead
            exact hspecial (by decide)

theorem readRegexParts_regexBody (isEscaped : Bool) (pattern : Text) :
    readRegexParts (regexBody isEscaped pattern ++ text "$") = some (createLikeRegexp isEscaped pattern) := by
  induction pattern generalizing isEscaped with
  | nil => rfl
  | cons c pattern ih =>
    rw [regexBody, createLikeRegexp]
    by_cases hbackslash : c = unit '\\'
    · rw [if_pos hbackslash, if_pos hbackslash]
      cases isEscaped with
      | true =>
        have htext : text "\\\\" ++ regexBody false pattern ++ text "$" =
            unit '\\' :: unit '\\' :: (regexBody false pattern ++ text "$") := rfl
        rw [if_pos rfl, if_pos rfl, hbackslash, htext, readRegexParts_escape (by decide), ih false]
        rfl
      | false =>
        rw [if_neg (by decide), if_neg (by decide)]
        exact ih true
    rw [if_neg hbackslash, if_neg hbackslash]
    by_cases hspecial : c ∈ text ".*+?^$\x7b\x7d()|[]"
    · have hsub : ∀ d ∈ text ".*+?^$\x7b\x7d()|[]", d ∈ text "\\.*+?^$\x7b\x7d()|[]" :=
        List.all_iff_forall_prop.mp (by decide)
      rw [if_pos hspecial, if_pos hspecial, List.cons_append, List.cons_append, readRegexParts_escape (hsub c hspecial),
        ih false]
      rfl
    rw [if_neg hspecial, if_neg hspecial]
    by_cases hone : c = unit '_' ∧ isEscaped = false
    · have htext : text "." ++ regexBody isEscaped pattern ++ text "$" =
          unit '.' :: (regexBody isEscaped pattern ++ text "$") := rfl
      have hne : regexBody isEscaped pattern ++ text "$" ≠ [] := by simp [text]
      rw [if_pos hone, if_pos hone, htext, readRegexParts_anyOne hne (head?_regexBody isEscaped pattern), ih isEscaped]
      rfl
    rw [if_neg hone, if_neg hone]
    by_cases hmany : c = unit '%' ∧ isEscaped = false
    · have htext : text ".*" ++ regexBody isEscaped pattern ++ text "$" =
          unit '.' :: unit '*' :: (regexBody isEscaped pattern ++ text "$") := rfl
      rw [if_pos hmany, if_pos hmany, htext, readRegexParts_anyMany, ih isEscaped]
      rfl
    rw [if_neg hmany, if_neg hmany, List.cons_append, readRegexParts_literal hbackslash hspecial, ih false]
    rfl

/-- The regular expression has the same parts as the one that is used in memory. -/
theorem readRegex_posixRegex (pattern : Text) :
    readRegex (posixRegex pattern) = some (createLikeRegexp false pattern) := by
  have htext : posixRegex pattern = unit '^' :: (regexBody false pattern ++ text "$") := rfl
  rw [htext, readRegex, if_pos rfl, readRegexParts_regexBody]

theorem createLikeRegexp_of_likeParts {pattern : Text} {parts : List LikePart} (h : likeParts pattern = some parts) :
    createLikeRegexp false pattern = parts := by
  fun_induction likeParts pattern generalizing parts with
  | case1 =>
    cases h
    rfl
  | case2 => cases h
  | case3 d pattern ih =>
    obtain ⟨rest, hrest, rfl⟩ := Option.map_eq_some_iff.mp h
    rw [LikePart.createLikeRegexp_escape, LikePart.createLikeRegexp_escaped, ih hrest]
  | case4 pattern =>
    rename_i ih
    obtain ⟨rest, hrest, rfl⟩ := Option.map_eq_some_iff.mp h
    rw [LikePart.createLikeRegexp_anyOne, ih hrest]
  | case5 pattern =>
    rename_i ih
    obtain ⟨rest, hrest, rfl⟩ := Option.map_eq_some_iff.mp h
    rw [LikePart.createLikeRegexp_anyMany, ih hrest]
  | case6 c pattern hbackslash hone hmany ih =>
    obtain ⟨rest, hrest, rfl⟩ := Option.map_eq_some_iff.mp h
    rw [LikePart.createLikeRegexp_literal (by simp [hbackslash, hone, hmany]), ih hrest]

theorem like2PosixRegex_string (engine : Engine) (likePattern : Text) :
    like2PosixRegex engine (some (.string likePattern)) = .ok (posixRegex likePattern) := by
  have hbody : ∀ isEscaped, regexOf engine isEscaped (likePattern.map fun c => .string [c]) =
      .ok (regexBody isEscaped likePattern) := by
    induction likePattern with
    | nil => exact fun isEscaped => rfl
    | cons c likePattern ih =>
      intro isEscaped
      have hbackslash : [c] = text "\\" ↔ c = unit '\\' := List.singleton_inj
      have hone : [c] = text "_" ↔ c = unit '_' := List.singleton_inj
      have hmany : [c] = text "%" ↔ c = unit '%' := List.singleton_inj
      have hspecial : [c] <:+: text ".*+?^$\x7b\x7d()|[]" ↔ c ∈ text ".*+?^$\x7b\x7d()|[]" :=
        List.singleton_infix_iff c _
      rw [List.map_cons, regexOf, regexBody]
      simp only [Engine.toString, ok_bind, Value.isString, and_true, hbackslash, hone, hmany, hspecial, ih]
      split
      · split
        · rfl
        · rfl
      split
      · rfl
      split
      · rfl
      split
      · rfl
      · rfl
  rw [like2PosixRegex, hbody false]
  rfl

/-! ### The same matches -/

open LikePart

variable {wildcard : UInt16 → Bool} {rest : Text → Bool} {s : Text}

/-- In a string without surrogate pairs a wildcard stands for a code unit. -/
theorem testManyCharacters_iff_units (hs : ∀ c ∈ s, isHighSurrogate c = false) :
    testManyCharacters wildcard rest s = true ↔
      ∃ skipped s', s = skipped ++ s' ∧ (∀ c ∈ skipped, wildcard c = true) ∧ rest s' = true := by
  induction s with
  | nil =>
    rw [testManyCharacters]
    constructor
    · intro h
      exact ⟨[], [], rfl, List.forall_mem_nil _, h⟩
    · intro ⟨skipped, s', hs', _, h⟩
      rw [(List.nil_eq_append_iff.mp hs').2] at h
      exact h
  | cons c s ih =>
    rw [List.forall_mem_cons] at hs
    rw [testManyCharacters.eq_def]
    simp only [hs.1, Bool.false_eq_true, if_false, Bool.or_eq_true, Bool.and_eq_true, ih hs.2]
    constructor
    · rintro (h | ⟨hc, skipped, s', rfl, hskipped, h⟩)
      · exact ⟨[], c :: s, rfl, List.forall_mem_nil _, h⟩
      · exact ⟨c :: skipped, s', rfl, List.forall_mem_cons.mpr ⟨hc, hskipped⟩, h⟩
    · intro ⟨skipped, s', hs', hskipped, h⟩
      cases skipped with
      | nil =>
        rw [List.nil_append] at hs'
        exact Or.inl (hs' ▸ h)
      | cons d skipped =>
        rw [List.cons_append, List.cons.injEq] at hs'
        rw [List.forall_mem_cons] at hskipped
        exact Or.inr ⟨hs'.1 ▸ hskipped.1, skipped, s', hs'.2, hskipped.2, h⟩

theorem testCharacters_iff_units {parts : List LikePart} (hs : ∀ c ∈ s, isHighSurrogate c = false) :
    testCharacters wildcard parts s = true ↔ Splits (fun c => !wildcard c) parts s := by
  induction parts generalizing s with
  | nil =>
    rw [testCharacters, List.isEmpty_iff]
    constructor
    · rintro rfl
      exact .done
    · intro h
      cases h
      rfl
  | cons part parts ih =>
    cases part with
    | literal c =>
      cases s with
      | nil => exact iff_of_false Bool.false_ne_true nofun
      | cons c' s =>
        rw [List.forall_mem_cons] at hs
        rw [testCharacters, Bool.and_eq_true, decide_eq_true_eq, ih hs.2]
        constructor
        · rintro ⟨rfl, h⟩
          exact .literal c h
        · intro h
          cases h with
          | literal _ h => exact ⟨rfl, h⟩
    | anyOne =>
      cases s with
      | nil => exact iff_of_false Bool.false_ne_true nofun
      | cons c s =>
        rw [List.forall_mem_cons] at hs
        rw [testCharacters, hs.1, if_neg Bool.false_ne_true, Bool.and_eq_true, ih hs.2]
        constructor
        · intro ⟨hc, h⟩
          exact .anyOne (by rw [hc, Bool.not_true]) h
        · intro h
          cases h with
          | anyOne hc h => exact ⟨by simpa using hc, h⟩
    | anyMany =>
      rw [testCharacters, testManyCharacters_iff_units hs]
      constructor
      · rintro ⟨skipped, s', rfl, hskipped, h⟩
        rw [List.forall_mem_append] at hs
        exact .anyMany (fun c hc => by rw [hskipped c hc, Bool.not_true]) ((ih hs.2).mp h)
      · intro h
        cases h with
        | anyMany hskipped h =>
          rw [List.forall_mem_append] at hs
          exact ⟨_, _, rfl, fun c hc => by simpa using hskipped c hc, (ih hs.2).mpr h⟩

/-! ### Strings with surrogate pairs -/

/-- The literals between wildcards have no unpaired surrogates, and there is no wildcard for a single character. -/
def wholeLiterals : List LikePart → Bool
  | [] => true
  | .literal c :: parts =>
    if isHighSurrogate c then
      match parts with
      | .literal d :: parts => isLowSurrogate d && wholeLiterals parts
      | _ => false
    else !isLowSurrogate c && wholeLiterals parts
  | .anyOne :: _ => false
  | .anyMany :: parts => wholeLiterals parts

theorem not_isHighSurrogate {d : UInt16} (hd : isLowSurrogate d = true) : isHighSurrogate d = false := by
  simp only [isLowSurrogate, Bool.and_eq_true, decide_eq_true_eq] at hd
  simp only [isHighSurrogate, Bool.and_eq_false_iff, decide_eq_false_iff_not]
  omega

theorem isWellFormed_pair {c d : UInt16} (hc : isHighSurrogate c = true) (hd : isLowSurrogate d = true) (s : Text) :
    isWellFormed (c :: d :: s) = isWellFormed s := by
  rw [isWellFormed.eq_def]
  simp only [hc, hd, if_true, Bool.true_and]

theorem isWellFormed_unit {c : UInt16} (hc : isHighSurrogate c = false) (hc' : isLowSurrogate c = false) (s : Text) :
    isWellFormed (c :: s) = isWellFormed s := by
  rw [isWellFormed.eq_def]
  simp only [hc, hc', Bool.false_eq_true, if_false, Bool.not_false, Bool.true_and]

theorem isWellFormed_suffix {skipped s' : Text} (hs : isWellFormed s = true) (h : s = skipped ++ s') :
    isWellFormed s' = true ∨ ∃ d t, s' = d :: t ∧ isLowSurrogate d = true ∧ isWellFormed t = true := by
  fun_induction isWellFormed s generalizing skipped with
  | case1 =>
    rw [(List.nil_eq_append_iff.mp h).2]
    exact Or.inl rfl
  | case2 => cases hs
  | case4 c s hc ih =>
    rw [Bool.and_eq_true, Bool.not_eq_true'] at hs
    obtain ⟨hc', hs⟩ := hs
    have hc := Bool.eq_false_of_not_eq_true hc
    cases skipped with
    | nil =>
      rw [List.nil_append] at h
      exact Or.inl (by rw [← h, isWellFormed_unit hc hc', hs])
    | cons _ skipped => exact ih hs (List.cons.inj h).2
  | case3 c hc d s ih =>
    rw [Bool.and_eq_true] at hs
    obtain ⟨hd, hs⟩ := hs
    cases skipped with
    | nil =>
      rw [List.nil_append] at h
      exact Or.inl (by rw [← h, isWellFormed_pair hc hd, hs])
    | cons _ skipped =>
      cases skipped with
      | nil => exact Or.inr ⟨d, s, (List.cons.inj h).2.symm, hd, hs⟩
      | cons _ skipped => exact ih hs (List.cons.inj (List.cons.inj h).2).2

theorem testManyCharacters_pair {c : UInt16} (hc : isHighSurrogate c = true) (d : UInt16) (s : Text) :
    testManyCharacters wildcard rest (c :: d :: s) =
      (rest (c :: d :: s) || (wildcard c && testManyCharacters wildcard rest s)) := by
  rw [testManyCharacters.eq_def]
  simp only [hc, if_true]

theorem testManyCharacters_unit {c : UInt16} (hc : isHighSurrogate c = false) (s : Text) :
    testManyCharacters wildcard rest (c :: s) = (rest (c :: s) || (wildcard c && testManyCharacters wildcard rest s)) := by
  rw [testManyCharacters.eq_def]
  simp only [hc, Bool.false_eq_true, if_false]

theorem exists_of_testManyCharacters (hlow : ∀ c, isLowSurrogate c = true → wildcard c = true) (hs : isWellFormed s = true)
    (h : testManyCharacters wildcard rest s = true) :
    ∃ skipped s', s = skipped ++ s' ∧ (∀ c ∈ skipped, wildcard c = true) ∧ isWellFormed s' = true ∧ rest s' = true := by
  fun_induction isWellFormed s with
  | case1 => exact ⟨[], [], rfl, List.forall_mem_nil _, rfl, h⟩
  | case2 => cases hs
  | case4 c s hc ih =>
    rw [Bool.and_eq_true, Bool.not_eq_true'] at hs
    obtain ⟨hc', hs⟩ := hs
    have hc := Bool.eq_false_of_not_eq_true hc
    rw [testManyCharacters_unit hc, Bool.or_eq_true, Bool.and_eq_true] at h
    obtain h | ⟨hwildcard, h⟩ := h
    · exact ⟨[], c :: s, rfl, List.forall_mem_nil _, by rw [isWellFormed_unit hc hc', hs], h⟩
    · obtain ⟨skipped, s', rfl, hskipped, hs', hrest⟩ := ih hs h
      exact ⟨c :: skipped, s', rfl, List.forall_mem_cons.mpr ⟨hwildcard, hskipped⟩, hs', hrest⟩
  | case3 c hc d s ih =>
    rw [Bool.and_eq_true] at hs
    obtain ⟨hd, hs⟩ := hs
    rw [testManyCharacters_pair hc, Bool.or_eq_true, Bool.and_eq_true] at h
    obtain h | ⟨hwildcard, h⟩ := h
    · exact ⟨[], c :: d :: s, rfl, List.forall_mem_nil _, by rw [isWellFormed_pair hc hd, hs], h⟩
    · obtain ⟨skipped, s', rfl, hskipped, hs', hrest⟩ := ih hs h
      have hskipped' : ∀ e ∈ c :: d :: skipped, wildcard e = true :=
        List.forall_mem_cons.mpr ⟨hwildcard, List.forall_mem_cons.mpr ⟨hlow d hd, hskipped⟩⟩
      exact ⟨c :: d :: skipped, s', rfl, hskipped', hs', hrest⟩

theorem testManyCharacters_of_append {skipped s' : Text} (hs : isWellFormed s = true) (h : s = skipped ++ s')
    (hskipped : ∀ c ∈ skipped, wildcard c = true) (hs' : isWellFormed s' = true) (hrest : rest s' = true) :
    testManyCharacters wildcard rest s = true := by
  fun_induction isWellFormed s generalizing skipped with
  | case1 =>
    rw [(List.nil_eq_append_iff.mp h).2] at hrest
    exact hrest
  | case2 => cases hs
  | case4 c s hc ih =>
    rw [Bool.and_eq_true, Bool.not_eq_true'] at hs
    obtain ⟨hc', hs⟩ := hs
    have hc := Bool.eq_false_of_not_eq_true hc
    rw [testManyCharacters_unit hc, Bool.or_eq_true, Bool.and_eq_true]
    cases skipped with
    | nil =>
      rw [List.nil_append] at h
      exact Or.inl (h ▸ hrest)
    | cons d skipped =>
      rw [List.cons_append, List.cons.injEq] at h
      rw [List.forall_mem_cons] at hskipped
      exact Or.inr ⟨h.1 ▸ hskipped.1, ih hs h.2 hskipped.2⟩
  | case3 c hc d s ih =>
    rw [Bool.and_eq_true] at hs
    obtain ⟨hd, hs⟩ := hs
    rw [testManyCharacters_pair hc, Bool.or_eq_true, Bool.and_eq_true]
    cases skipped with
    | nil =>
      rw [List.nil_append] at h
      exact Or.inl (h ▸ hrest)
    | cons e skipped =>
      rw [List.cons_append, List.cons.injEq] at h
      rw [List.forall_mem_cons] at hskipped
      cases skipped with
      | nil =>
        -- the pair would be torn apart
        rw [List.nil_append] at h
        rw [← h.2, isWellFormed.eq_def] at hs'
        simp [hd, not_isHighSurrogate hd] at hs'
      | cons e' skipped =>
        rw [List.cons_append, List.cons.injEq] at h
        exact Or.inr ⟨h.1 ▸ hskipped.1, ih hs h.2.2 (List.forall_mem_cons.mp hskipped.2).2⟩

theorem splits_anyMany_iff {excluded : UInt16 → Bool} {parts : List LikePart} :
    Splits excluded (.anyMany :: parts) s ↔
      ∃ skipped s', s = skipped ++ s' ∧ (∀ c ∈ skipped, excluded c = false) ∧ Splits excluded parts s' := by
  constructor
  · intro h
    cases h with
    | anyMany hskipped h => exact ⟨_, _, rfl, hskipped, h⟩
  · rintro ⟨skipped, s', rfl, hskipped, h⟩
    exact .anyMany hskipped h

theorem testCharacters_literal_iff {c : UInt16} {parts : List LikePart} :
    testCharacters wildcard (.literal c :: parts) s = true ↔ ∃ s', s = c :: s' ∧ testCharacters wildcard parts s' = true := by
  cases s with
  | nil => simp [testCharacters]
  | cons c' s =>
    rw [testCharacters, Bool.and_eq_true, decide_eq_true_eq]
    constructor
    · rintro ⟨rfl, h⟩
      exact ⟨s, rfl, h⟩
    · rintro ⟨s', hs, h⟩
      cases hs
      exact ⟨rfl, h⟩

/-- The middle of a pair can be left to a wildcard only. -/
theorem splits_of_low {excluded : UInt16 → Bool} {parts : List LikePart} {d : UInt16} (hparts : wholeLiterals parts = true)
    (hd : isLowSurrogate d = true) (h : Splits excluded parts (d :: s)) : Splits excluded parts s := by
  induction parts with
  | nil => cases h
  | cons part parts ih =>
    cases part with
    | literal c =>
      cases h
      rw [wholeLiterals.eq_def] at hparts
      simp [not_isHighSurrogate hd, hd] at hparts
    | anyOne => cases hparts
    | anyMany =>
      obtain ⟨skipped, s', htext, hskipped, h⟩ := splits_anyMany_iff.mp h
      cases skipped with
      | nil =>
        rw [List.nil_append] at htext
        subst htext
        exact .anyMany (List.forall_mem_nil _) (ih hparts h)
      | cons e skipped =>
        rw [List.cons_append, List.cons.injEq] at htext
        rw [htext.2]
        exact .anyMany (List.forall_mem_cons.mp hskipped).2 h

theorem testCharacters_iff_characters {parts : List LikePart} (hlow : ∀ c, isLowSurrogate c = true → wildcard c = true)
    (hparts : wholeLiterals parts = true) (hs : isWellFormed s = true) :
    testCharacters wildcard parts s = true ↔ Splits (fun c => !wildcard c) parts s := by
  fun_induction wholeLiterals parts generalizing s with
  | case1 =>
    rw [testCharacters, List.isEmpty_iff]
    constructor
    · rintro rfl
      exact .done
    · intro h
      cases h
      rfl
  | case2 c hc d parts ih =>
    rw [Bool.and_eq_true] at hparts
    obtain ⟨hd, hparts⟩ := hparts
    -- both literals of the pair are read before the rest, which begins with a whole character again
    have hrest : ∀ s', s = c :: d :: s' → isWellFormed s' = true := by
      rintro s' rfl
      rwa [isWellFormed_pair hc hd] at hs
    simp only [testCharacters_literal_iff, splits_literal_iff]
    constructor
    · rintro ⟨_, rfl, s', rfl, h⟩
      exact ⟨_, rfl, s', rfl, (ih hparts (hrest s' rfl)).mp h⟩
    · rintro ⟨_, rfl, s', rfl, h⟩
      exact ⟨_, rfl, s', rfl, (ih hparts (hrest s' rfl)).mpr h⟩
  | case3 => cases hparts
  | case4 c parts hc ih =>
    rw [Bool.and_eq_true, Bool.not_eq_true'] at hparts
    obtain ⟨hc', hparts⟩ := hparts
    have hrest : ∀ s', s = c :: s' → isWellFormed s' = true := by
      rintro s' rfl
      rwa [isWellFormed_unit (Bool.eq_false_of_not_eq_true hc) hc'] at hs
    simp only [testCharacters_literal_iff, splits_literal_iff]
    constructor
    · rintro ⟨s', rfl, h⟩
      exact ⟨s', rfl, (ih hparts (hrest s' rfl)).mp h⟩
    · rintro ⟨s', rfl, h⟩
      exact ⟨s', rfl, (ih hparts (hrest s' rfl)).mpr h⟩
  | case5 => cases hparts
  | case6 parts ih =>
    rw [testCharacters]
    constructor
    · intro h
      obtain ⟨skipped, s', rfl, hskipped, hs', hrest⟩ := exists_of_testManyCharacters hlow hs h
      exact .anyMany (fun c hc => by rw [hskipped c hc, Bool.not_true]) ((ih hparts hs').mp hrest)
    · intro h
      obtain ⟨skipped, s', htext, hskipped, h⟩ := splits_anyMany_iff.mp h
      have hwildcards : ∀ c ∈ skipped, wildcard c = true := fun c hc => by simpa using hskipped c hc
      obtain hs' | ⟨d, t, rfl, hd, ht⟩ := isWellFormed_suffix hs htext
      · exact testManyCharacters_of_append hs htext hwildcards hs' ((ih hparts hs').mpr h)
      · have hmore : ∀ c ∈ skipped ++ [d], wildcard c = true := by
          rw [List.forall_mem_append, List.forall_mem_singleton]
          exact ⟨hwildcards, hlow d hd⟩
        rw [List.append_cons] at htext
        exact testManyCharacters_of_append hs htext hmore ht ((ih hparts ht).mpr (splits_of_low hparts hd h))

/-! ### Patterns that match alike -/

theorem ne_of_surrogate {c : UInt16} (hc : isHighSurrogate c = true ∨ isLowSurrogate c = true) {d : UInt16}
    (hd : d.toNat < 0xD800) : c ≠ d := by
  rintro rfl
  simp only [isHighSurrogate, isLowSurrogate, Bool.and_eq_true, decide_eq_true_eq] at hc
  omega

theorem createLikeRegexp_surrogate {c : UInt16} (hc : isHighSurrogate c = true ∨ isLowSurrogate c = true) (isEscaped : Bool)
    (pattern : Text) : createLikeRegexp isEscaped (c :: pattern) = .literal c :: createLikeRegexp false pattern := by
  cases isEscaped with
  | true => exact createLikeRegexp_escaped c pattern
  | false =>
    apply createLikeRegexp_literal
    simp only [List.mem_cons, List.not_mem_nil, or_false, not_or]
    exact ⟨ne_of_surrogate hc (by decide), ne_of_surrogate hc (by decide), ne_of_surrogate hc (by decide)⟩

theorem wholeLiterals_unit {c : UInt16} (hc : isHighSurrogate c = false) (hc' : isLowSurrogate c = false)
    (parts : List LikePart) : wholeLiterals (.literal c :: parts) = wholeLiterals parts := by
  rw [wholeLiterals.eq_def]
  simp only [hc, hc', Bool.false_eq_true, if_false, Bool.not_false, Bool.true_and]

theorem wholeLiterals_createLikeRegexp {pattern : Text} {isEscaped : Bool} (hpattern : isWellFormed pattern = true)
    (hone : .anyOne ∉ createLikeRegexp isEscaped pattern) : wholeLiterals (createLikeRegexp isEscaped pattern) = true := by
  fun_induction isWellFormed pattern generalizing isEscaped with
  | case1 => rfl
  | case2 => cases hpattern
  | case3 c hc d pattern ih =>
    rw [Bool.and_eq_true] at hpattern
    rw [createLikeRegexp_surrogate (Or.inl hc), createLikeRegexp_surrogate (Or.inr hpattern.1)] at hone ⊢
    simp only [List.mem_cons, reduceCtorEq, false_or] at hone
    rw [wholeLiterals.eq_def]
    simp only [hc, if_true, hpattern.1, Bool.true_and]
    exact ih hpattern.2 hone
  | case4 c pattern hc ih =>
    rw [Bool.and_eq_true, Bool.not_eq_true'] at hpattern
    have hliteral : ∀ isEscaped', .anyOne ∉ .literal c :: createLikeRegexp isEscaped' pattern →
        wholeLiterals (.literal c :: createLikeRegexp isEscaped' pattern) = true := by
      intro isEscaped' hone
      rw [wholeLiterals_unit (Bool.eq_false_of_not_eq_true hc) hpattern.1]
      exact ih hpattern.2 fun h => hone (List.mem_cons_of_mem _ h)
    rw [createLikeRegexp] at hone ⊢
    by_cases hbackslash : c = unit '\\'
    · rw [if_pos hbackslash] at hone ⊢
      cases isEscaped with
      | true => exact hliteral false hone
      | false => exact ih hpattern.2 hone
    rw [if_neg hbackslash] at hone ⊢
    by_cases hspecial : c ∈ text ".*+?^$\x7b\x7d()|[]"
    · rw [if_pos hspecial] at hone ⊢
      exact hliteral false hone
    rw [if_neg hspecial] at hone ⊢
    by_cases hunderscore : c = unit '_' ∧ isEscaped = false
    · rw [if_pos hunderscore] at hone
      exact absurd List.mem_cons_self hone
    rw [if_neg hunderscore] at hone ⊢
    by_cases hpercent : c = unit '%' ∧ isEscaped = false
    · rw [if_pos hpercent] at hone ⊢
      exact ih hpattern.2 fun h => hone (List.mem_cons_of_mem _ h)
    · rw [if_neg hpercent] at hone ⊢
      exact hliteral false hone

theorem splits_mono {excluded excluded' : UInt16 → Bool} {parts : List LikePart}
    (h : Splits excluded parts s) (hsub : ∀ c, excluded c = false → excluded' c = false) : Splits excluded' parts s := by
  induction h with
  | done => exact .done
  | literal c _ ih => exact .literal c ih
  | anyOne hc _ ih => exact .anyOne (hsub _ hc) ih
  | anyMany hskipped _ ih => exact .anyMany (fun c hc => hsub c (hskipped c hc)) ih

/-- A wildcard of the database comes to no line terminator that it would have to leave out in memory, and `_` to no surrogate pair. -/
structure MatchedAlike (wildcard : UInt16 → Bool) (pattern s : Text) : Prop where
  characters : (∀ c ∈ s, isHighSurrogate c = false) ∨
    isWellFormed s = true ∧ isWellFormed pattern = true ∧ .anyOne ∉ createLikeRegexp false pattern
  lines : Splits (fun c => !wildcard c) (createLikeRegexp false pattern) s → lineTerminators s ≤ lineTerminators pattern

def LeavesOutLineTerminators (wildcard : UInt16 → Bool) : Prop := ∀ c, isLineTerminator c = false → wildcard c = true

theorem leavesOut_regexWildcard : LeavesOutLineTerminators regexWildcard := by
  intro c hc
  simp only [isLineTerminator, Bool.or_eq_false_iff, decide_eq_false_iff_not] at hc
  simp [regexWildcard, hc]

theorem isLineTerminator_of_low {c : UInt16} (hc : isLowSurrogate c = true) : isLineTerminator c = false := by
  have hne : ∀ d : UInt16, d.toNat < 0xD800 → c ≠ d := fun d => ne_of_surrogate (Or.inr hc)
  simp only [isLineTerminator, Bool.or_eq_false_iff, decide_eq_false_iff_not]
  exact ⟨⟨⟨hne _ (by decide), hne _ (by decide)⟩, hne _ (by decide)⟩, hne _ (by decide)⟩

theorem testCharacters_iff_testLike {pattern : Text} (hwildcard : LeavesOutLineTerminators wildcard)
    (h : MatchedAlike wildcard pattern s) :
    testCharacters wildcard (createLikeRegexp false pattern) s = true ↔
      testLike (createLikeRegexp false pattern) s = true := by
  have hsplits : testCharacters wildcard (createLikeRegexp false pattern) s = true ↔
      Splits (fun c => !wildcard c) (createLikeRegexp false pattern) s := by
    obtain hunits | ⟨hs, hpattern, hone⟩ := h.characters
    · exact testCharacters_iff_units hunits
    · have hlow : ∀ c, isLowSurrogate c = true → wildcard c = true := fun c hc => hwildcard c (isLineTerminator_of_low hc)
      exact testCharacters_iff_characters hlow (wholeLiterals_createLikeRegexp hpattern hone) hs
  rw [hsplits, testLike_iff]
  constructor
  · intro hsplit
    apply hsplit.weaken.strengthen
    rw [lineTerminators_createLikeRegexp]
    exact h.lines hsplit
  · intro hsplit
    exact splits_mono hsplit fun c hc => by rw [hwildcard c hc, Bool.not_true]

/-! ### The regular expression can be held by the database -/

theorem mem_regexBody {isEscaped : Bool} {pattern : Text} {c : UInt16} (hc : c ∈ regexBody isEscaped pattern) :
    c ∈ pattern ∨ c ∈ text "\\.*" := by
  induction pattern generalizing isEscaped with
  | nil => cases hc
  | cons d pattern ih =>
    have hrest : ∀ isEscaped', c ∈ regexBody isEscaped' pattern → c ∈ d :: pattern ∨ c ∈ text "\\.*" :=
      fun isEscaped' hmem => (ih hmem).imp_left (List.mem_cons_of_mem d)
    have hfront : ∀ (front : Text) (isEscaped' : Bool), front ⊆ d :: text "\\.*" →
        c ∈ front ++ regexBody isEscaped' pattern → c ∈ d :: pattern ∨ c ∈ text "\\.*" := by
      intro front isEscaped' hsub hmem
      obtain hmem | hmem := List.mem_append.mp hmem
      · obtain rfl | hmem := List.mem_cons.mp (hsub hmem)
        · exact Or.inl List.mem_cons_self
        · exact Or.inr hmem
      · exact hrest isEscaped' hmem
    rw [regexBody] at hc
    split at hc
    · split at hc
      · exact hfront (text "\\\\") false (by simp [text]) hc
      · exact hrest true hc
    · split at hc
      · exact hfront [unit '\\', d] false (by simp [text]) hc
      split at hc
      · exact hfront (text ".") isEscaped (by simp [text]) hc
      split at hc
      · exact hfront (text ".*") isEscaped (by simp [text]) hc
      · exact hfront [d] false (by simp) hc

theorem isWellFormed_append_units {front : Text}
    (hfront : ∀ c ∈ front, isHighSurrogate c = false ∧ isLowSurrogate c = false) (s : Text) :
    isWellFormed (front ++ s) = isWellFormed s := by
  induction front with
  | nil => rfl
  | cons c front ih =>
    rw [List.forall_mem_cons] at hfront
    rw [List.cons_append, isWellFormed_unit hfront.1.1 hfront.1.2, ih hfront.2]

theorem regexBody_surrogate {c : UInt16} (hc : isHighSurrogate c = true ∨ isLowSurrogate c = true) (isEscaped : Bool)
    (pattern : Text) : regexBody isEscaped (c :: pattern) = c :: regexBody false pattern := by
  have hspecial : ∀ d ∈ text ".*+?^$\x7b\x7d()|[]", d.toNat < 0xD800 := List.all_iff_forall_prop.mp (by decide)
  rw [regexBody, if_neg (ne_of_surrogate hc (by decide)), if_neg fun hmem => ne_of_surrogate hc (hspecial c hmem) rfl,
    if_neg fun h => ne_of_surrogate hc (by decide) h.1, if_neg fun h => ne_of_surrogate hc (by decide) h.1]

theorem isWellFormed_regexBody {isEscaped : Bool} {pattern : Text} (hpattern : isWellFormed pattern = true) :
    isWellFormed (regexBody isEscaped pattern ++ text "$") = true := by
  fun_induction isWellFormed pattern generalizing isEscaped with
  | case1 => rfl
  | case2 => cases hpattern
  | case3 c hc d pattern ih =>
    rw [Bool.and_eq_true] at hpattern
    rw [regexBody_surrogate (Or.inl hc), regexBody_surrogate (Or.inr hpattern.1), List.cons_append, List.cons_append,
      isWellFormed_pair hc hpattern.1]
    exact ih hpattern.2
  | case4 c pattern hc ih =>
    rw [Bool.and_eq_true, Bool.not_eq_true'] at hpattern
    have hfront : ∀ (front : Text) (isEscaped' : Bool), front ⊆ c :: text "\\.*" →
        isWellFormed (front ++ regexBody isEscaped' pattern ++ text "$") = true := by
      intro front isEscaped' hsub
      have hunits : ∀ e ∈ c :: text "\\.*", isHighSurrogate e = false ∧ isLowSurrogate e = false := by
        rw [List.forall_mem_cons]
        exact ⟨⟨Bool.eq_false_of_not_eq_true hc, hpattern.1⟩, List.all_iff_forall_prop.mp (by decide)⟩
      rw [List.append_assoc, isWellFormed_append_units fun e he => hunits e (hsub he)]
      exact ih hpattern.2
    rw [regexBody]
    split
    · split
      · exact hfront (text "\\\\") false (by simp [text])
      · exact ih hpattern.2
    · split
      · exact hfront [unit '\\', c] false (by simp [text])
      split
      · exact hfront (text ".") isEscaped (by simp [text])
      split
      · exact hfront (text ".*") isEscaped (by simp [text])
      · exact hfront [c] false (by simp)

theorem isStorable_posixRegex {pattern : Text} (h : IsStorable pattern) : IsStorable (posixRegex pattern) := by
  refine ⟨?_, ?_⟩
  · have hcaret : ∀ c ∈ text "^", isHighSurrogate c = false ∧ isLowSurrogate c = false :=
      List.forall_mem_singleton.mpr (by decide)
    rw [posixRegex, List.append_assoc, isWellFormed_append_units hcaret, isWellFormed_regexBody h.1]
  · intro hzero
    rw [posixRegex, List.mem_append, List.mem_append] at hzero
    obtain (hzero | hzero) | hzero := hzero
    · exact absurd hzero (by decide)
    · obtain hmem | hmem := mem_regexBody hzero
      · exact h.2 hmem
      · exact absurd hmem (by decide)
    · exact absurd hzero (by decide)

end Postgres

end Coaty
