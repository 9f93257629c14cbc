import Coaty.Com.ContextFilters
import Coaty.Db.Postgres.Placeholders
import Coaty.Db.Postgres.QuotedValues
import Coaty.Db.Postgres.WhereClause

/-!
# The parameters of a WHERE clause

The same conditions write a clause with placeholders and one with the operands embedded. Step by step both have the same parameters put aside, and the placeholders in the one stand where the literals do in the other.
-/

namespace Coaty

namespace Postgres

open Js Lexing Evaluation

variable {rules : SqlRules} {engine : Engine} {s t : Text}

/-! ### Jsonpath expressions -/

def IsDoubled (s : Text) : Prop := ∃ x, s = doubled singleQuote x

theorem IsDoubled.append (hs : IsDoubled s) (ht : IsDoubled t) : IsDoubled (s ++ t) := by
  obtain ⟨x, rfl⟩ := hs
  obtain ⟨y, rfl⟩ := ht
  exact ⟨x ++ y, (doubled_append singleQuote x y).symm⟩

theorem isDoubled_of_not_mem (hs : singleQuote ∉ s) : IsDoubled s := by
  refine ⟨s, ?_⟩
  induction s with
  | nil => rfl
  | cons c s ih =>
    rw [List.mem_cons, not_or] at hs
    rw [doubled_cons_of_ne (Ne.symm hs.1), ← ih hs.2]

theorem isDoubled_getJsonpathKeys (keys : List Text) : IsDoubled (getJsonpathKeys keys) := ⟨_, getJsonpathKeys_eq keys⟩

theorem isDoubled_asJsonpathLiteral (x : Text) : IsDoubled (asJsonpathLiteral x true) := ⟨x, asJsonpathLiteral_true x⟩

theorem whole_jsonpath {opening : Text} (hopening : isPlain opening = true) (hs : IsDoubled s) :
    Whole rules (opening ++ [singleQuote] ++ s ++ text "')") := by
  obtain ⟨x, rfl⟩ := hs
  have htext : opening ++ [singleQuote] ++ doubled singleQuote x ++ text "')" =
      opening ++ (singleQuote :: doubled singleQuote x ++ [singleQuote] ++ text ")") := by
    have hclose : text "')" = [singleQuote] ++ text ")" := by decide
    rw [hclose]
    simp
  rw [htext]
  exact (whole_of_isPlain hopening).append (whole_constant x (closing_of_isPlain (by decide) (by decide)))

/-! ### Properties -/

theorem whole_literals (keys : List Text) (hs : Closing rules s) :
    Whole rules ((text ",").intercalate (keys.map asLiteral) ++ s) := by
  induction keys with
  | nil => exact hs.whole
  | cons key keys ih =>
    cases keys with
    | nil =>
      rw [List.map_cons, List.map_nil, List.intercalate_singleton]
      exact whole_asLiteral key hs
    | cons next keys =>
      rw [List.map_cons, List.map_cons, List.intercalate_cons_cons, List.append_assoc, List.append_assoc]
      exact whole_asLiteral key (closing_append (by decide) (by decide) ih)

theorem whole_getObjectIndexer (propsChain : List Text) (asText : Bool) (hs : Closing rules s) :
    Whole rules (getObjectIndexer propsChain asText ++ s) := by
  have harray : Whole rules (text "object #>" ++ (if asText then text ">" else []) ++ text "array[" ++
      (text ",").intercalate (propsChain.map asLiteral) ++ text "]" ++ s) := by
    have hopening : isPlain (text "object #>" ++ (if asText then text ">" else []) ++ text "array[") = true := by
      cases asText with
      | _ => decide
    have hclosing : Closing rules (text "]" ++ s) := closing_append (by decide) (by decide) hs.whole
    rw [List.append_assoc _ (text "]"), List.append_assoc _ _ (text "]" ++ s)]
    exact (whole_of_isPlain hopening).append (whole_literals propsChain hclosing)
  cases propsChain with
  | nil => exact harray
  | cons prop propsChain =>
    cases propsChain with
    | nil =>
      have hopening : isPlain (text "object ->" ++ (if asText then text ">" else [])) = true := by
        cases asText with
        | _ => decide
      rw [getObjectIndexer, List.append_assoc _ _ s]
      exact (whole_of_isPlain hopening).append (whole_asLiteral prop hs)
    | cons next propsChain => exact harray

theorem whole_indexed (propsChain : List Text) (asText : Bool) (ht : isPlain t = true) (hne : t ≠ []) :
    Whole rules (text "(" ++ (getObjectIndexer propsChain asText ++ t)) :=
  (whole_of_isPlain (by decide)).append (whole_getObjectIndexer propsChain asText (closing_of_isPlain ht hne))

theorem closing_existenceRest (before propsChain : List Text) (hs : Closing rules s) :
    Closing rules (existenceRest before propsChain ++ s) := by
  induction propsChain generalizing before with
  | nil => exact hs
  | cons prop propsChain ih =>
    have hindexer : Whole rules (getObjectIndexer before false ++ (text " ? " ++ (asLiteral prop ++
        (existenceRest (before ++ [prop]) propsChain ++ s)))) :=
      whole_getObjectIndexer before false (closing_append (by decide) (by decide) (whole_asLiteral prop (ih _)))
    simp only [existenceRest, List.append_assoc]
    exact closing_append (by decide) (by decide) hindexer

/-! ### Clauses in step -/

/-- The clauses line up one after the other, with their parameters numbered on. -/
inductive ClausesLineUp (rules : SqlRules) : List Text → List Text → List Text → Prop where
  | nil : ClausesLineUp rules [] [] []
  | snoc {literals more clauses clauses' : List Text} {clause clause' : Text} :
    ClausesLineUp rules literals clauses clauses' → LinesUp rules (literals.length + 1) more clause clause' →
      ClausesLineUp rules (literals ++ more) (clauses ++ [clause]) (clauses' ++ [clause'])

variable {literals more clauses clauses' : List Text} {clause clause' : Text}

theorem intercalate_snoc {separator : Text} (hne : clauses ≠ []) (clause : Text) :
    separator.intercalate (clauses ++ [clause]) = separator.intercalate clauses ++ (separator ++ clause) := by
  induction clauses with
  | nil => exact absurd rfl hne
  | cons first clauses ih =>
    cases clauses with
    | nil => simp [List.intercalate_cons_cons]
    | cons second clauses =>
      have hsnoc := ih (List.cons_ne_nil second clauses)
      rw [List.cons_append] at hsnoc
      rw [List.cons_append, List.cons_append, List.intercalate_cons_cons, List.intercalate_cons_cons, hsnoc]
      simp

theorem ClausesLineUp.eq_nil_iff (h : ClausesLineUp rules literals clauses clauses') : clauses = [] ↔ clauses' = [] := by
  cases h with
  | nil => exact Iff.rfl
  | snoc h hclause => simp

theorem ClausesLineUp.joined (h : ClausesLineUp rules literals clauses clauses') {separator : Text}
    (hseparator : Whole rules separator) :
    LinesUp rules 1 literals (separator.intercalate clauses) (separator.intercalate clauses') := by
  induction h with
  | nil => exact whole_nil.linesUp
  | @snoc literals more clauses clauses' clause clause' h hclause ih =>
    by_cases hempty : clauses = []
    · cases h with
      | nil => simpa using hclause
      | snoc => simp at hempty
    · have hnonempty : clauses' ≠ [] := fun hnil => hempty (h.eq_nil_iff.mpr hnil)
      rw [intercalate_snoc hempty, intercalate_snoc hnonempty]
      refine ih.append (@LinesUp.append rules separator clause _ [] more separator clause' hseparator.linesUp ?_)
      rw [Nat.add_comm] at hclause
      exact hclause

/-- What the two runs have come to. The first one passes parameters along, the second one embeds literals. -/
structure Aligned (rules : SqlRules) (engine : Engine) (literals : List Text) (st st' : WhereState) : Prop where
  params : st'.params = st.params
  embedded : st.params.mapM (asLiteralOf engine) = .ok literals
  pi : st.pi = st.params.length + 1
  contains : st'.contains = st.contains
  notContains : st'.notContains = st.notContains
  clauses : ClausesLineUp rules literals st.clauses st'.clauses

theorem aligned_initial : Aligned rules engine [] .initial .initial := ⟨rfl, rfl, rfl, rfl, rfl, .nil⟩

variable {st st' r r' : WhereState} {ps : List (Option Value)}

theorem Aligned.addClause (h : Aligned rules engine literals st st') (hps : ps.mapM (asLiteralOf engine) = .ok more)
    (hclause : LinesUp rules st.pi more clause clause') (pi' : Nat) :
    Aligned rules engine (literals ++ more)
      { st with clauses := st.clauses ++ [clause], params := st.params ++ ps, pi := st.pi + ps.length }
      { st' with clauses := st'.clauses ++ [clause'], params := st'.params ++ ps, pi := pi' } where
  params := congrArg (· ++ ps) h.params
  embedded := by
    show (st.params ++ ps).mapM (asLiteralOf engine) = .ok (literals ++ more)
    rw [List.mapM_append, h.embedded, hps]
    rfl
  pi := by
    have hpi := h.pi
    simp only [List.length_append]
    omega
  contains := h.contains
  notContains := h.notContains
  clauses := by
    have hlength := length_of_mapM h.embedded
    rw [h.pi, ← hlength] at hclause
    exact h.clauses.snoc hclause

theorem Aligned.addWhole (h : Aligned rules engine literals st st') (hclause : Whole rules clause) :
    Aligned rules engine literals { st with clauses := st.clauses ++ [clause] } { st' with clauses := st'.clauses ++ [clause] } := by
  have hnone : ([] : List (Option Value)).mapM (asLiteralOf engine) = .ok [] := rfl
  have hadd := h.addClause hnone hclause.linesUp st'.pi
  simpa using hadd

theorem mapM_singleton {param : Option Value} {literal : Text} (h : asLiteralOf engine param = .ok literal) :
    [param].mapM (asLiteralOf engine) = .ok [literal] := by
  rw [List.mapM_cons, h]
  rfl

/-- What may stand behind an operand. -/
def followsOperand (s : Text) : Bool := isPlain s && s.head?.any fun c => !isDigit c

theorem linesUp_operand {opening closing : Text} (hopening : Whole rules opening) (hclosing : followsOperand closing = true)
    (literal : Text) (start : Nat) :
    LinesUp rules start [literal] (opening ++ (text "$" ++ decimal start ++ closing)) (opening ++ (literal ++ closing)) := by
  simp only [followsOperand, Bool.and_eq_true, Option.any_eq_true, Bool.not_eq_true'] at hclosing
  obtain ⟨hplain, c, hc, hdigit⟩ := hclosing
  exact hopening.linesUp.append (linesUp_placeholder literal (whole_of_isPlain hplain) ⟨c, hc, hdigit⟩)

/-! ### Conditions -/

theorem Aligned.addOperand (h : Aligned rules engine literals st st') {opening : Text} (hopening : Whole rules opening)
    (closing : Text) (hclosing : followsOperand closing = true) {param : Option Value} {literal : Text}
    (hparam : asLiteralOf engine param = .ok literal) (pi' : Nat)
    (hclause : clause = opening ++ (text "$" ++ decimal st.pi ++ closing)) (hclause' : clause' = opening ++ (literal ++ closing)) :
    ∃ literals', Aligned rules engine literals'
      { st with clauses := st.clauses ++ [clause], params := st.params ++ [param], pi := st.pi + 1 }
      { st' with clauses := st'.clauses ++ [clause'], params := st'.params ++ [param], pi := pi' } := by
  subst hclause hclause'
  exact ⟨literals ++ [literal],
    h.addClause (mapM_singleton hparam) (linesUp_operand hopening hclosing literal st.pi) pi'⟩

theorem Aligned.addJsonpath (h : Aligned rules engine literals st st') (opening : Text) (hopening : isPlain opening = true)
    (hs : IsDoubled s) (hclause : clause = opening ++ [singleQuote] ++ s ++ text "')") :
    ∃ literals', Aligned rules engine literals' { st with clauses := st.clauses ++ [clause] }
      { st' with clauses := st'.clauses ++ [clause] } := by
  subst hclause
  exact ⟨literals, h.addWhole (whole_jsonpath hopening hs)⟩

theorem isDoubled_of_jsonpathPara {param : Option Text} {p : Text} (hp : jsonpathPara param = .ok p) : IsDoubled p := by
  cases param with
  | none => cases hp
  | some param =>
    cases hp
    exact isDoubled_asJsonpathLiteral param

variable {supportsJsonpath : Bool} {propsArray : List Text} {opnd1 opnd2 : Option Value}

theorem addComparison_aligned (h : Aligned rules engine literals st st') {operator : Text}
    (hplain : isPlain (text " " ++ operator ++ text " ") = true) (hquote : singleQuote ∉ text " " ++ operator ++ text " ")
    (hr : addComparison engine supportsJsonpath false operator propsArray opnd1 st = .ok r)
    (hr' : addComparison engine supportsJsonpath true operator propsArray opnd1 st' = .ok r') :
    ∃ literals', Aligned rules engine literals' r r' := by
  cases supportsJsonpath with
  | true =>
    simp only [addComparison, if_true, bind_eq_ok_iff] at hr hr'
    obtain ⟨p, hp, hr⟩ := hr
    obtain ⟨p', hp', hr'⟩ := hr'
    cases hp.symm.trans hp'
    cases hr
    cases hr'
    have hexpression : IsDoubled (getJsonpathKeys propsArray ++ (text " " ++ operator ++ text " ") ++ p) :=
      ((isDoubled_getJsonpathKeys propsArray).append (isDoubled_of_not_mem hquote)).append (isDoubled_of_jsonpathPara hp)
    refine h.addJsonpath (text "(object @@ ") (by decide) hexpression ?_
    have hopening : text "(object @@ '" = text "(object @@ " ++ [singleQuote] := by decide
    simp only [hopening, List.append_assoc]
  | false =>
    simp only [addComparison, Bool.false_eq_true, if_false, if_true, para, ok_bind, bind_eq_ok_iff] at hr hr'
    cases hr
    obtain ⟨literal, hliteral, hr'⟩ := hr'
    cases hr'
    have hne : text " " ++ operator ++ text " " ≠ [] := List.append_ne_nil_of_right_ne_nil _ (by decide)
    refine h.addOperand (whole_indexed propsArray false hplain hne) (text "::jsonb)") (by decide) hliteral _ ?_ ?_
    · simp only [List.append_assoc]
    · simp only [List.append_assoc]

theorem addBetween_aligned (h : Aligned rules engine literals st st') {lower upper sqlOperator : Text}
    (hplain : isPlain (text " " ++ sqlOperator ++ text " SYMMETRIC ") = true)
    (hlower : singleQuote ∉ text " ? (@ " ++ lower ++ text " ") (hupper : singleQuote ∉ text " " ++ upper ++ text " ")
    (hr : addBetween engine supportsJsonpath false lower upper sqlOperator propsArray opnd1 opnd2 st = .ok r)
    (hr' : addBetween engine supportsJsonpath true lower upper sqlOperator propsArray opnd1 opnd2 st' = .ok r') :
    ∃ literals', Aligned rules engine literals' r r' := by
  cases supportsJsonpath with
  | true =>
    simp only [addBetween, if_true, bind_eq_ok_iff] at hr hr'
    obtain ⟨swaps, hswaps, p, hp, q, hq, hr⟩ := hr
    obtain ⟨swaps', hswaps', p', hp', q', hq', hr'⟩ := hr'
    cases hswaps.symm.trans hswaps'
    cases hp.symm.trans hp'
    cases hq.symm.trans hq'
    cases hr
    cases hr'
    have hclose : IsDoubled (text ")") := isDoubled_of_not_mem (by decide)
    have hexpression : IsDoubled (getJsonpathKeys propsArray ++ (text " ? (@ " ++ lower ++ text " ") ++ p ++
        (text " " ++ upper ++ text " ") ++ q ++ text ")") :=
      (((((isDoubled_getJsonpathKeys propsArray).append (isDoubled_of_not_mem hlower)).append
        (isDoubled_of_jsonpathPara hp)).append (isDoubled_of_not_mem hupper)).append (isDoubled_of_jsonpathPara hq)).append hclose
    refine h.addJsonpath (text "(object @? ") (by decide) hexpression ?_
    have hopening : text "(object @? '" = text "(object @? " ++ [singleQuote] := by decide
    have hclosing : text ")')" = text ")" ++ text "')" := by decide
    simp only [hopening, hclosing, List.append_assoc]
  | false =>
    simp only [addBetween, Bool.false_eq_true, if_false, if_true, para, ok_bind, bind_eq_ok_iff] at hr hr'
    cases hr
    obtain ⟨literal₁, hliteral₁, literal₂, hliteral₂, hr'⟩ := hr'
    cases hr'
    have hopening : Whole rules (text "(" ++ (getObjectIndexer propsArray false ++ (text " " ++ sqlOperator ++ text " SYMMETRIC "))) :=
      whole_indexed propsArray false hplain (List.append_ne_nil_of_right_ne_nil _ (by decide))
    have hfirst := linesUp_operand hopening (show followsOperand (text "::jsonb AND ") = true by decide) literal₁ st.pi
    have hsecond := linesUp_operand (@whole_nil rules) (show followsOperand (text "::jsonb)") = true by decide) literal₂
      (st.pi + 1)
    have hparams : [(stringifyOperand engine opnd1).map Value.string, (stringifyOperand engine opnd2).map Value.string].mapM
        (asLiteralOf engine) = .ok [literal₁, literal₂] := by
      rw [List.mapM_cons, hliteral₁, ok_bind, mapM_singleton hliteral₂]
      rfl
    have hadd := h.addClause hparams (hfirst.append hsecond) (st'.pi + 2)
    refine ⟨literals ++ [literal₁, literal₂], ?_⟩
    simpa only [List.append_assoc, List.nil_append, List.length_cons, List.length_nil, Nat.reduceAdd] using hadd

theorem addLike_aligned (h : Aligned rules engine literals st st')
    (hr : addLike engine supportsJsonpath false propsArray opnd1 st = .ok r)
    (hr' : addLike engine supportsJsonpath true propsArray opnd1 st' = .ok r') :
    ∃ literals', Aligned rules engine literals' r r' := by
  cases supportsJsonpath with
  | true =>
    simp only [addLike, if_true, bind_eq_ok_iff] at hr hr'
    obtain ⟨regex, hregex, p, hp, hr⟩ := hr
    obtain ⟨regex', hregex', p', hp', hr'⟩ := hr'
    cases hregex.symm.trans hregex'
    cases hp.symm.trans hp'
    cases hr
    cases hr'
    have hexpression : IsDoubled (getJsonpathKeys propsArray ++ text " like_regex " ++ p) :=
      ((isDoubled_getJsonpathKeys propsArray).append (isDoubled_of_not_mem (by decide))).append (isDoubled_of_jsonpathPara hp)
    refine h.addJsonpath (text "(object @@ ") (by decide) hexpression ?_
    have hopening : text "(object @@ '" = text "(object @@ " ++ [singleQuote] := by decide
    simp only [hopening, List.append_assoc]
  | false =>
    simp only [addLike, Bool.false_eq_true, if_false, if_true, para, ok_bind, bind_eq_ok_iff] at hr hr'
    cases hr
    obtain ⟨literal, hliteral, hr'⟩ := hr'
    cases hr'
    have hopening : Whole rules (text "(" ++ (getObjectIndexer propsArray true ++ text " LIKE ")) :=
      whole_indexed propsArray true (by decide) (by decide)
    refine h.addOperand hopening (text ")") (by decide) hliteral _ ?_ ?_
    · simp only [List.append_assoc]
    · simp only [List.append_assoc]

theorem checkExistence_aligned (h : Aligned rules engine literals st st') (supportsJsonpath : Bool) (propsArray : List Text)
    (isNegated : Bool) :
    ∃ literals', Aligned rules engine literals' (checkExistence supportsJsonpath propsArray isNegated st)
      (checkExistence supportsJsonpath propsArray isNegated st') := by
  cases supportsJsonpath with
  | true =>
    have hexpression : IsDoubled ((if isNegated then text "!" else []) ++ text "exists(" ++ getJsonpathKeys propsArray ++
        text ")") := by
      have hexists : singleQuote ∉ (if isNegated then text "!" else []) ++ text "exists(" := by
        cases isNegated with
        | _ => decide
      exact ((isDoubled_of_not_mem hexists).append (isDoubled_getJsonpathKeys propsArray)).append
        (isDoubled_of_not_mem (by decide))
    refine h.addJsonpath (text "(object @@ ") (by decide) hexpression ?_
    have hopening : text "(object @@ '" = text "(object @@ " ++ [singleQuote] := by decide
    have hclosing : text ")')" = text ")" ++ text "')" := by decide
    simp only [hopening, hclosing, List.append_assoc]
  | false =>
    cases propsArray with
    | nil =>
      cases isNegated with
      | true => exact ⟨literals, h.addWhole (whole_of_isPlain (by decide))⟩
      | false => exact ⟨literals, h⟩
    | cons prop propsChain =>
      have hopening : isPlain (text "(" ++ (if isNegated then text "NOT (" else []) ++ text "object ? ") = true := by
        cases isNegated with
        | _ => decide
      have hclosing : isPlain ((if isNegated then text ")" else []) ++ text ")") = true := by
        cases isNegated with
        | _ => decide
      have hclosed : Closing rules ((if isNegated then text ")" else []) ++ text ")") :=
        closing_of_isPlain hclosing (List.append_ne_nil_of_right_ne_nil _ (by decide))
      have hclause : Whole rules (text "(" ++ (if isNegated then text "NOT (" else []) ++ text "object ? " ++
          (asLiteral prop ++ (existenceRest [prop] propsChain ++ ((if isNegated then text ")" else []) ++ text ")")))) :=
        (whole_of_isPlain hopening).append (whole_asLiteral prop (closing_existenceRest [prop] propsChain hclosed))
      refine ⟨literals, ?_⟩
      have hadd := h.addWhole hclause
      simpa only [checkExistence, Bool.false_eq_true, if_false, List.append_assoc] using hadd

theorem Aligned.putOff (h : Aligned rules engine literals st st') (contains notContains : List (List Text × Option Value)) :
    Aligned rules engine literals
      { st with contains := st.contains ++ contains, notContains := st.notContains ++ notContains }
      { st' with contains := st'.contains ++ contains, notContains := st'.notContains ++ notContains } where
  params := h.params
  embedded := h.embedded
  pi := h.pi
  contains := congrArg (· ++ contains) h.contains
  notContains := congrArg (· ++ notContains) h.notContains
  clauses := h.clauses

theorem Aligned.putOffContains (h : Aligned rules engine literals st st') (contains : List (List Text × Option Value)) :
    Aligned rules engine literals { st with contains := st.contains ++ contains }
      { st' with contains := st'.contains ++ contains } := by
  have hoff := h.putOff contains []
  rwa [List.append_nil, List.append_nil] at hoff

theorem Aligned.putOffNotContains (h : Aligned rules engine literals st st')
    (notContains : List (List Text × Option Value)) :
    Aligned rules engine literals { st with notContains := st.notContains ++ notContains }
      { st' with notContains := st'.notContains ++ notContains } := by
  have hoff := h.putOff [] notContains
  rwa [List.append_nil, List.append_nil] at hoff

theorem addEquality_aligned (h : Aligned rules engine literals st st') {isNegated : Bool}
    (hr : addEquality engine supportsJsonpath false isNegated propsArray opnd1 st = .ok r)
    (hr' : addEquality engine supportsJsonpath true isNegated propsArray opnd1 st' = .ok r') :
    ∃ literals', Aligned rules engine literals' r r' := by
  cases opnd1 with
  | none =>
    cases hr
    cases hr'
    exact checkExistence_aligned h supportsJsonpath propsArray (!isNegated)
  | some value =>
    by_cases hprimitive : isPrimitive value = true
    · simp only [addEquality, if_pos hprimitive] at hr hr'
      cases supportsJsonpath with
      | true =>
        rw [if_pos rfl] at hr hr'
        refine addComparison_aligned h ?_ ?_ hr hr'
        · cases isNegated with
          | _ => decide
        · cases isNegated with
          | _ => decide
      | false =>
        cases isNegated with
        | true =>
          cases hr
          cases hr'
          exact ⟨literals, h.putOffNotContains [(propsArray, some value)]⟩
        | false =>
          cases hr
          cases hr'
          exact ⟨literals, h.putOffContains [(propsArray, some value)]⟩
    · simp only [addEquality, if_neg hprimitive, Bool.false_eq_true, if_false, if_true, para, ok_bind, bind_eq_ok_iff] at hr hr'
      cases hr
      obtain ⟨literal, hliteral, hr'⟩ := hr'
      cases hr'
      have hopening : Whole rules (text "(" ++ (getObjectIndexer propsArray false ++
          (if isNegated then text " <> " else text " = "))) := by
        cases isNegated with
        | _ => exact whole_indexed propsArray false (by decide) (by decide)
      refine h.addOperand hopening (text "::jsonb)") (by decide) hliteral _ ?_ ?_
      · simp only [List.append_assoc]
      · simp only [List.append_assoc]

theorem addMembership_aligned (h : Aligned rules engine literals st st') {sqlOp : Text}
    (hplain : isPlain (text " " ++ sqlOp ++ text " (SELECT value FROM jsonb_array_elements(") = true)
    (hr : addMembership engine false sqlOp propsArray opnd1 st = .ok r)
    (hr' : addMembership engine true sqlOp propsArray opnd1 st' = .ok r') :
    ∃ literals', Aligned rules engine literals' r r' := by
  by_cases harray : opnd1.any Value.isArray = true
  · simp only [addMembership, harray, Bool.false_eq_true, if_false, if_true, para, ok_bind, bind_eq_ok_iff] at hr hr'
    cases hr
    obtain ⟨literal, hliteral, hr'⟩ := hr'
    cases hr'
    have hne : text " " ++ sqlOp ++ text " (SELECT value FROM jsonb_array_elements(" ≠ [] :=
      List.append_ne_nil_of_right_ne_nil _ (by decide)
    refine h.addOperand (whole_indexed propsArray false hplain hne) (text "::jsonb)))") (by decide) hliteral _ ?_ ?_
    · simp only [List.append_assoc]
    · simp only [List.append_assoc]
  · rw [addMembership, if_neg harray] at hr
    cases hr

/-- A condition keeps the two runs in step. -/
theorem addCondition_aligned (h : Aligned rules engine literals st st') {cond : ObjectFilterCondition}
    (hr : addCondition engine supportsJsonpath false st cond = .ok r)
    (hr' : addCondition engine supportsJsonpath true st' cond = .ok r') :
    ∃ literals', Aligned rules engine literals' r r' := by
  obtain ⟨properties, operator, operand1, operand2⟩ := cond
  cases operator with
  | lessThan => exact addComparison_aligned h (by decide) (by decide) hr hr'
  | lessThanOrEqual => exact addComparison_aligned h (by decide) (by decide) hr hr'
  | greaterThan => exact addComparison_aligned h (by decide) (by decide) hr hr'
  | greaterThanOrEqual => exact addComparison_aligned h (by decide) (by decide) hr hr'
  | between => exact addBetween_aligned h (by decide) (by decide) (by decide) hr hr'
  | notBetween => exact addBetween_aligned h (by decide) (by decide) (by decide) hr hr'
  | like => exact addLike_aligned h hr hr'
  | equals => exact addEquality_aligned h hr hr'
  | notEquals => exact addEquality_aligned h hr hr'
  | exist =>
    cases hr
    cases hr'
    exact checkExistence_aligned h supportsJsonpath _ false
  | notExists =>
    cases hr
    cases hr'
    exact checkExistence_aligned h supportsJsonpath _ true
  | contains =>
    cases hr
    cases hr'
    exact ⟨literals, h.putOffContains _⟩
  | notContains =>
    cases hr
    cases hr'
    exact ⟨literals, h.putOffNotContains _⟩
  | isIn => exact addMembership_aligned h (by decide) hr hr'
  | notIn => exact addMembership_aligned h (by decide) hr hr'

theorem checkContainments_aligned {isNegated : Bool} {containment : List (List Text × Option Value)}
    (h : ∃ literals, Aligned rules engine literals st st')
    (hr : checkContainments engine false isNegated containment st = .ok r)
    (hr' : checkContainments engine true isNegated containment st' = .ok r') :
    ∃ literals', Aligned rules engine literals' r r' := by
  induction containment generalizing st st' with
  | nil =>
    cases hr
    cases hr'
    exact h
  | cons entry containment ih =>
    obtain ⟨propsArray, opnd⟩ := entry
    obtain ⟨literals, h⟩ := h
    simp only [checkContainments, Bool.false_eq_true, if_false, if_true, para, ok_bind, bind_eq_ok_iff] at hr hr'
    obtain ⟨literal, hliteral, hr'⟩ := hr'
    have hopening : Whole rules (text "(" ++ (if isNegated then text "NOT " else []) ++ text "object @> ") := by
      apply whole_of_isPlain
      cases isNegated with
      | _ => decide
    refine ih (h.addOperand hopening (text "::jsonb)") (by decide) hliteral _ ?_ ?_) hr hr'
    · simp only [List.append_assoc]
    · simp only [List.append_assoc]

/-! ### The clause -/

/-- The numbers of the parameters that the database server finds in SQL text, in order. -/
def parameterIndices (rules : SqlRules) (sql : Text) : Option (List Nat) :=
  (sqlPieces rules sql).map fun pieces => pieces.filterMap SqlPiece.index?

/-- SQL text with a text in the place of each parameter. -/
def replaceParameters (rules : SqlRules) (slot : Nat → Text) (sql : Text) : Option Text :=
  (sqlPieces rules sql).map fun pieces => pieces.flatMap (SqlPiece.fill slot)

theorem LinesUp.read {s' : Text} (h : LinesUp rules 1 literals s s') :
    parameterIndices rules s = some (List.range' 1 literals.length) ∧
      replaceParameters rules (fun i => literals.getD (i - 1) []) s = some s' := by
  obtain ⟨pieces, hread, hindices, hfill⟩ := h
  have hpieces : sqlPieces rules s = some pieces := by
    have hend := hread []
    rw [List.append_nil] at hend
    rw [hend, sqlPieces, split, Option.map_some, List.append_nil]
  refine ⟨?_, ?_⟩
  · rw [parameterIndices, hpieces, Option.map_some, hindices]
  · rw [replaceParameters, hpieces, Option.map_some]
    refine congrArg some (hfill _ fun i hi => ?_)
    simp [hi]

/-- The parameters that the server finds in the clause are those that are passed along, and with the literals of the parameters in their place it is the clause with embedded operands. -/
theorem whereParameters_lineUp (rules : SqlRules) (engine : Engine) (supportsJsonpath : Bool) (filter : Option ContextFilter)
    {clause clause' : Text} {params params' : List (Option Value)}
    (h : getWhereClauseAndParams engine supportsJsonpath false filter = .ok (clause, params))
    (h' : getWhereClauseAndParams engine supportsJsonpath true filter = .ok (clause', params')) :
    parameterIndices rules clause = some (List.range' 1 params.length) ∧
      ∃ literals, params.mapM (asLiteralOf engine) = .ok literals ∧
        replaceParameters rules (fun i => literals.getD (i - 1) []) clause = some clause' := by
  have hnothing := (@whole_nil rules).linesUp.read
  unfold getWhereClauseAndParams at h h'
  cases hconditions : filter.bind ContextFilter.conditions with
  | none =>
    rw [hconditions] at h h'
    cases h
    cases h'
    exact ⟨hnothing.1, [], rfl, hnothing.2⟩
  | some conditions =>
    simp only [hconditions, bind_eq_ok_iff] at h h'
    obtain ⟨conds, hconds, st₁, hst₁, st₂, hst₂, st, hst, h⟩ := h
    obtain ⟨conds', hconds', st₁', hst₁', st₂', hst₂', st', hst', h'⟩ := h'
    cases hconds.symm.trans hconds'
    have hstep : ∀ st st' cond r r', (∃ literals, Aligned rules engine literals st st') →
        addCondition engine supportsJsonpath false st cond = .ok r →
        addCondition engine supportsJsonpath true st' cond = .ok r' → ∃ literals, Aligned rules engine literals r r' := by
      intro st st' cond r r' h hr hr'
      obtain ⟨literals, h⟩ := h
      exact addCondition_aligned h hr hr'
    have hfold : ∃ literals, Aligned rules engine literals st₁ st₁' :=
      related_of_foldlM hstep ⟨[], aligned_initial⟩ hst₁ hst₁'
    have hputOff : st₁'.notContains = st₁.notContains := hfold.choose_spec.notContains
    rw [hputOff] at hst₂'
    have hnot : ∃ literals, Aligned rules engine literals st₂ st₂' := checkContainments_aligned hfold hst₂ hst₂'
    have hputOff' : st₂'.contains = st₂.contains := hnot.choose_spec.contains
    rw [hputOff'] at hst'
    obtain ⟨literals, haligned⟩ := checkContainments_aligned hnot hst hst'
    have hlength := length_of_mapM haligned.embedded
    by_cases hempty : st.clauses = []
    · have hempty' : st'.clauses = [] := haligned.clauses.eq_nil_iff.mp hempty
      rw [if_pos hempty] at h
      rw [if_pos hempty'] at h'
      cases h
      cases h'
      exact ⟨hnothing.1, [], rfl, hnothing.2⟩
    · have hnonempty : st'.clauses ≠ [] := fun hnil => hempty (haligned.clauses.eq_nil_iff.mpr hnil)
      rw [if_neg hempty] at h
      rw [if_neg hnonempty] at h'
      cases h
      cases h'
      have hseparator : Whole rules (if conds.2 then text " AND " else text " OR ") := by
        apply whole_of_isPlain
        cases conds.2 with
        | _ => decide
      have hwhere : Whole rules (text "WHERE ") := whole_of_isPlain (by decide)
      have hread := (hwhere.linesUp.append (haligned.clauses.joined hseparator)).read
      rw [List.nil_append, hlength] at hread
      exact ⟨hread.1, literals, haligned.embedded, hread.2⟩

/-- Two conditions, the first of which is put off. -/
def lampsFilter : ContextFilter where
  conditions := some (.combined (some [⟨.dotted (text "name"), .equals, some (.string (text "A")), none⟩,
    ⟨.dotted (text "name"), .like, some (.string (text "B%")), none⟩]) none)

def lampsParams : List (Option Value) := [some (.string (text "B%")), some (.string (text "\x7b\"name\":\"A\"\x7d"))]

def lampsClause : Text := text "WHERE (object ->>'name' LIKE $1) AND (object @> $2::jsonb)"

def lampsEmbedded : Text := text "WHERE (object ->>'name' LIKE 'B%') AND (object @> '\x7b\"name\":\"A\"\x7d'::jsonb)"

theorem whereParameters_lineUp_lamps :
    getWhereClauseAndParams bareEngine false false (some lampsFilter) = .ok (lampsClause, lampsParams) ∧
    getWhereClauseAndParams bareEngine false true (some lampsFilter) = .ok (lampsEmbedded, lampsParams) ∧
    parameterIndices selfRules lampsClause = some [1, 2] ∧
    ∃ literals, lampsParams.mapM (asLiteralOf bareEngine) = .ok literals ∧
      replaceParameters selfRules (fun i => literals.getD (i - 1) []) lampsClause = some lampsEmbedded := by
  have hclause : getWhereClauseAndParams bareEngine false false (some lampsFilter) = .ok (lampsClause, lampsParams) := rfl
  have hembedded : getWhereClauseAndParams bareEngine false true (some lampsFilter) = .ok (lampsEmbedded, lampsParams) := rfl
  exact ⟨hclause, hembedded, whereParameters_lineUp selfRules bareEngine false (some lampsFilter) hclause hembedded⟩

end Postgres

end Coaty
