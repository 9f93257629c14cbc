import Coaty.Evaluation
import Coaty.Js.Number
import Coaty.Template

/-!
# SQL templates

The tag `SQL` makes a query builder of a template literal. Its expressions are bound parameters, are escaped as identifiers or literals if they are annotated, or are query builders whose queries are inserted. A database adapter chooses how placeholders look and how values are escaped. It may have the parameters embedded into the text instead. All of these texts fill one template, in which the inserted queries are flattened.
-/

namespace Coaty

open Js Evaluation Template

/-- A template literal with the tag, which goes on behind each of its expressions. An expression is a value or a query builder. -/
inductive SqlTemplate (V : Type) where
  | last (part : Text)
  | value (part : Text) (v : V) (rest : SqlTemplate V)
  | query (part : Text) (builder : SqlTemplate V) (rest : SqlTemplate V)

/-- The arguments of a query builder but for the start index. The functions are given what an expression evaluates to. -/
structure SqlDialect (V E : Type) where
  placeholder : Text
  appendIndex : Bool
  asIdentifier : V ⊕ SqlTemplate V → Except E Text
  asLiteral : V ⊕ SqlTemplate V → Except E Text
  embedParams : Bool

/-- The variables of a query builder, with the texts joined. -/
structure SqlBuild (V : Type) where
  text : Text
  params : List V
  startIndex : Nat

namespace SqlBuild

variable {V : Type}

/-- A text and the part behind it are appended. -/
def push (s : SqlBuild V) (text nextPart : Text) : SqlBuild V := { s with text := s.text ++ text ++ nextPart }

def pushParams (s : SqlBuild V) (params : List V) : SqlBuild V :=
  { s with params := s.params ++ params, startIndex := s.startIndex + params.length }

end SqlBuild

namespace SqlTemplate

variable {V E : Type}

def IDENT : Text := text "{IDENT}"

def LITERAL : Text := text "{LIT}"

def firstPart : SqlTemplate V → Text
  | last part => part
  | value part _ _ => part
  | query part _ _ => part

variable (dialect : SqlDialect V E)

/-- What is written for the bound parameter with the index. -/
def slot (startIndex : Nat) (v : V) : Except E Text :=
  if dialect.embedParams then dialect.asLiteral (.inl v)
  else .ok (if dialect.appendIndex then dialect.placeholder ++ decimal startIndex else dialect.placeholder)

def annotated (expression : V ⊕ SqlTemplate V) (nextPart : Text) : Option (Except E Text × Text) :=
  if nextPart.startsWith IDENT then some (dialect.asIdentifier expression, nextPart.drop IDENT.length)
  else if nextPart.startsWith LITERAL then some (dialect.asLiteral expression, nextPart.drop LITERAL.length)
  else none

/-- The loop over the expressions. -/
def loop : SqlTemplate V → SqlBuild V → Except E (SqlBuild V)
  | last _, s => .ok s
  | value _ v rest, s =>
    match annotated dialect (.inl v) rest.firstPart with
    | some (escaped, nextPart) => do
      let text ← escaped
      loop rest (s.push text nextPart)
    | none => do
      let s := s.pushParams [v]
      let text ← slot dialect s.startIndex v
      loop rest (s.push text rest.firstPart)
  | query _ builder rest, s =>
    match annotated dialect (.inr builder) rest.firstPart with
    | some (escaped, nextPart) => do
      let text ← escaped
      loop rest (s.push text nextPart)
    | none => do
      let inner ← loop builder ⟨builder.firstPart, [], s.startIndex⟩
      loop rest ((s.pushParams inner.params).push inner.text rest.firstPart)

/-- The query builder of the template. -/
def build (template : SqlTemplate V) (startIndex : Nat) : Except E (Text × List V) := do
  let s ← loop dialect template ⟨template.firstPart, [], startIndex⟩
  return (s.text, s.params)

/-! ### The flattened template -/

/-- The pieces behind the first part. -/
def piecesBehind : SqlTemplate V → Except E (List (Piece UInt16 V))
  | last _ => .ok []
  | value _ v rest =>
    match annotated dialect (.inl v) rest.firstPart with
    | some (escaped, nextPart) => do
      let text ← escaped
      let pieces ← piecesBehind rest
      return .fixed text :: .fixed nextPart :: pieces
    | none => do
      let pieces ← piecesBehind rest
      return .param v :: .fixed rest.firstPart :: pieces
  | query _ builder rest =>
    match annotated dialect (.inr builder) rest.firstPart with
    | some (escaped, nextPart) => do
      let text ← escaped
      let pieces ← piecesBehind rest
      return .fixed text :: .fixed nextPart :: pieces
    | none => do
      let inner ← piecesBehind builder
      let pieces ← piecesBehind rest
      return .fixed builder.firstPart :: (inner ++ .fixed rest.firstPart :: pieces)

/-- The template as it was written, with the annotated values and the inserted queries in their places. -/
def flattened (template : SqlTemplate V) : Except E (List (Piece UInt16 V)) := do
  let pieces ← piecesBehind dialect template
  return .fixed template.firstPart :: pieces

/-! ### Filling the flattened template -/

/-- What is written for the parameters behind the first `startIndex` ones. -/
def slots : Nat → List V → Except E (List Text)
  | _, [] => .ok []
  | startIndex, v :: params => do
    let text ← slot dialect (startIndex + 1) v
    let texts ← slots (startIndex + 1) params
    return text :: texts

theorem slots_cons_eq_ok_iff {startIndex : Nat} {v : V} {params : List V} {texts : List Text} :
    slots dialect startIndex (v :: params) = .ok texts ↔ ∃ text others, slot dialect (startIndex + 1) v = .ok text ∧
      slots dialect (startIndex + 1) params = .ok others ∧ texts = text :: others := by
  rw [slots]
  simp only [bind_eq_ok_iff, pure, Except.pure, Except.ok.injEq, exists_and_left, eq_comm (a := texts)]

theorem length_of_slots {startIndex : Nat} {params : List V} {texts : List Text}
    (h : slots dialect startIndex params = .ok texts) : texts.length = params.length := by
  induction params generalizing startIndex texts with
  | nil =>
    obtain rfl := Except.ok.inj h
    rfl
  | cons v params ih =>
    obtain ⟨text, others, _, hothers, rfl⟩ := slots_cons_eq_ok_iff dialect |>.mp h
    rw [List.length_cons, List.length_cons, ih hothers]

theorem slots_append_eq_ok_iff {startIndex : Nat} {params more : List V} {texts : List Text} :
    slots dialect startIndex (params ++ more) = .ok texts ↔ ∃ front back, slots dialect startIndex params = .ok front ∧
      slots dialect (startIndex + params.length) more = .ok back ∧ texts = front ++ back := by
  induction params generalizing startIndex texts with
  | nil => simp [slots, eq_comm]
  | cons v params ih =>
    rw [List.cons_append, slots_cons_eq_ok_iff]
    simp only [ih, slots_cons_eq_ok_iff, List.length_cons]
    constructor
    · rintro ⟨text, _, htext, ⟨front, back, hfront, hback, rfl⟩, rfl⟩
      refine ⟨text :: front, back, ⟨text, front, htext, hfront, rfl⟩, ?_, rfl⟩
      rw [← hback, Nat.add_assoc, Nat.add_comm 1]
    · rintro ⟨_, back, ⟨text, front, htext, hfront, rfl⟩, hback, rfl⟩
      refine ⟨text, front ++ back, htext, ⟨front, back, hfront, ?_, rfl⟩, rfl⟩
      rw [← hback, Nat.add_assoc, Nat.add_comm 1]

theorem push_escaped_iff {escaped : Except E Text} {behind : Except E (List (Piece UInt16 V))} {nextPart : Text}
    {s s' : SqlBuild V} :
    (∃ text, escaped = .ok text ∧ ∃ pieces texts, behind = .ok pieces ∧
        slots dialect (s.push text nextPart).startIndex (params pieces) = .ok texts ∧
        s' = ⟨(s.push text nextPart).text ++ fill pieces texts, (s.push text nextPart).params ++ params pieces,
          (s.push text nextPart).startIndex + (params pieces).length⟩) ↔
      ∃ pieces texts, (∃ text, escaped = .ok text ∧ ∃ others, behind = .ok others ∧
          pure (.fixed text :: .fixed nextPart :: others) = Except.ok (ε := E) pieces) ∧
        slots dialect s.startIndex (params pieces) = .ok texts ∧
        s' = ⟨s.text ++ fill pieces texts, s.params ++ params pieces, s.startIndex + (params pieces).length⟩ := by
  constructor
  · rintro ⟨text, htext, pieces, texts, hpieces, htexts, rfl⟩
    exact ⟨_, texts, ⟨text, htext, pieces, hpieces, rfl⟩, htexts, by simp [SqlBuild.push]⟩
  · rintro ⟨_, texts, ⟨text, htext, pieces, hpieces, hcons⟩, htexts, rfl⟩
    obtain rfl := Except.ok.inj hcons
    exact ⟨text, htext, pieces, texts, hpieces, htexts, by simp [SqlBuild.push]⟩

theorem loop_eq_ok_iff (template : SqlTemplate V) (s s' : SqlBuild V) :
    loop dialect template s = .ok s' ↔ ∃ pieces texts, piecesBehind dialect template = .ok pieces ∧
      slots dialect s.startIndex (params pieces) = .ok texts ∧
      s' = ⟨s.text ++ fill pieces texts, s.params ++ params pieces, s.startIndex + (params pieces).length⟩ := by
  induction template generalizing s s' with
  | last part =>
    rw [loop, piecesBehind, Except.ok.injEq]
    constructor
    · rintro rfl
      exact ⟨[], [], rfl, rfl, by simp⟩
    · rintro ⟨pieces, texts, hpieces, htexts, rfl⟩
      obtain rfl := Except.ok.inj hpieces
      simp
  | value part v rest ih =>
    rw [loop, piecesBehind]
    cases annotated dialect (.inl v) rest.firstPart with
    | some found =>
      obtain ⟨escaped, nextPart⟩ := found
      simp only [bind_eq_ok_iff, ih]
      exact push_escaped_iff dialect
    | none =>
      simp only [bind_eq_ok_iff, ih]
      constructor
      · rintro ⟨text, htext, pieces, texts, hpieces, htexts, rfl⟩
        refine ⟨_, text :: texts, ⟨pieces, hpieces, rfl⟩, ?_, ?_⟩
        · exact (slots_cons_eq_ok_iff dialect).mpr ⟨text, texts, htext, htexts, rfl⟩
        · simp [SqlBuild.push, SqlBuild.pushParams]
          omega
      · rintro ⟨_, _, ⟨pieces, hpieces, hcons⟩, hslots, rfl⟩
        obtain rfl := Except.ok.inj hcons
        obtain ⟨text, texts, htext, htexts, rfl⟩ := (slots_cons_eq_ok_iff dialect).mp hslots
        refine ⟨text, htext, pieces, texts, hpieces, htexts, ?_⟩
        simp [SqlBuild.push, SqlBuild.pushParams]
        omega
  | query part builder rest ihbuilder ih =>
    rw [loop, piecesBehind]
    cases annotated dialect (.inr builder) rest.firstPart with
    | some found =>
      obtain ⟨escaped, nextPart⟩ := found
      simp only [bind_eq_ok_iff, ih]
      exact push_escaped_iff dialect
    | none =>
      -- the parameters of the inserted query come between those before and behind it
      simp only [bind_eq_ok_iff, ih, ihbuilder]
      constructor
      · rintro ⟨_, ⟨inner, front, hinner, hfront, rfl⟩, pieces, texts, hpieces, htexts, rfl⟩
        refine ⟨_, front ++ texts, ⟨inner, hinner, pieces, hpieces, rfl⟩, ?_, ?_⟩
        · rw [params_fixed, params_append, params_fixed, slots_append_eq_ok_iff]
          exact ⟨front, texts, hfront, htexts, rfl⟩
        · simp [SqlBuild.push, SqlBuild.pushParams, fill_append (length_of_slots dialect hfront)]
          omega
      · rintro ⟨_, _, ⟨inner, hinner, pieces, hpieces, hcons⟩, hslots, rfl⟩
        obtain rfl := Except.ok.inj hcons
        rw [params_fixed, params_append, params_fixed, slots_append_eq_ok_iff] at hslots
        obtain ⟨front, texts, hfront, htexts, rfl⟩ := hslots
        refine ⟨_, ⟨inner, front, hinner, hfront, rfl⟩, pieces, texts, hpieces, htexts, ?_⟩
        simp [SqlBuild.push, SqlBuild.pushParams, fill_append (length_of_slots dialect hfront)]
        omega

/-- The text of a query fills its flattened template, and its parameters are those of the template. -/
theorem build_eq_ok_iff {template : SqlTemplate V} {startIndex : Nat} {text : Text} {ps : List V} :
    build dialect template startIndex = .ok (text, ps) ↔ ∃ pieces texts, flattened dialect template = .ok pieces ∧
      slots dialect startIndex ps = .ok texts ∧ text = fill pieces texts ∧ ps = params pieces := by
  rw [build, flattened]
  simp only [bind_eq_ok_iff, loop_eq_ok_iff]
  constructor
  · rintro ⟨_, ⟨pieces, texts, hpieces, htexts, rfl⟩, hpair⟩
    obtain ⟨rfl, rfl⟩ := Prod.mk.inj (Except.ok.inj hpair)
    exact ⟨_, texts, ⟨pieces, hpieces, rfl⟩, htexts, rfl, rfl⟩
  · rintro ⟨_, texts, ⟨pieces, hpieces, hcons⟩, htexts, rfl, rfl⟩
    obtain rfl := Except.ok.inj hcons
    exact ⟨_, ⟨pieces, texts, hpieces, htexts, rfl⟩, rfl⟩

/-! ### The three kinds of texts -/

/-- What stands for the parameter with the index if the parameters are not embedded. -/
def placeholderFor (startIndex : Nat) : Text :=
  if dialect.appendIndex then dialect.placeholder ++ decimal startIndex else dialect.placeholder

theorem slots_of_not_embedParams (h : dialect.embedParams = false) (startIndex : Nat) (ps : List V) :
    slots dialect startIndex ps = .ok (placeholders (placeholderFor dialect) startIndex ps.length) := by
  induction ps generalizing startIndex with
  | nil => rfl
  | cons v ps ih =>
    rw [slots, slot, h, if_neg Bool.false_ne_true, ih, ok_bind, ok_bind, List.length_cons, Nat.add_comm ps.length,
      placeholders_add]
    rfl

theorem slots_of_embedParams (h : dialect.embedParams = true) (startIndex : Nat) (ps : List V) :
    slots dialect startIndex ps = ps.mapM fun v => dialect.asLiteral (.inl v) := by
  induction ps generalizing startIndex with
  | nil => rfl
  | cons v ps ih =>
    rw [slots, slot, if_pos h, List.mapM_cons, ih]

theorem flattened_with (dialect : SqlDialect V E) (appendIndex embedParams : Bool) (template : SqlTemplate V) :
    flattened { dialect with appendIndex := appendIndex, embedParams := embedParams } template =
      flattened dialect template := by
  have hbehind : piecesBehind { dialect with appendIndex := appendIndex, embedParams := embedParams } template =
      piecesBehind dialect template := by
    induction template with
    | last part => rfl
    | value part v rest ih =>
      rw [piecesBehind, piecesBehind, ih]
      rfl
    | query part builder rest ihbuilder ih =>
      rw [piecesBehind, piecesBehind, ih, ihbuilder]
      rfl
  rw [flattened, flattened, hbehind]

theorem build_of_not_embedParams (h : dialect.embedParams = false) {template : SqlTemplate V} {startIndex : Nat}
    {text : Text} {ps : List V} :
    build dialect template startIndex = .ok (text, ps) ↔ ∃ pieces, flattened dialect template = .ok pieces ∧
      ps = params pieces ∧ text = fill pieces (placeholders (placeholderFor dialect) startIndex ps.length) := by
  rw [build_eq_ok_iff]
  simp only [slots_of_not_embedParams dialect h, Except.ok.injEq]
  constructor
  · rintro ⟨pieces, _, hpieces, rfl, htext, hps⟩
    exact ⟨pieces, hpieces, hps, htext⟩
  · rintro ⟨pieces, hpieces, hps, htext⟩
    exact ⟨pieces, _, hpieces, rfl, htext, hps⟩

/-- With appended indexes the placeholders are numbered on from the start index in the order of the flattened template, as many plain placeholders stand in their places, and embedded parameters stand there as literals. -/
theorem build_fills (dialect : SqlDialect V E) (template : SqlTemplate V) (startIndex : Nat) (text : Text) (ps : List V) :
    (build { dialect with appendIndex := true, embedParams := false } template startIndex = .ok (text, ps) ↔
      ∃ pieces, flattened dialect template = .ok pieces ∧ ps = params pieces ∧
        text = fill pieces (placeholders (fun i => dialect.placeholder ++ decimal i) startIndex ps.length)) ∧
    (build { dialect with appendIndex := false, embedParams := false } template startIndex = .ok (text, ps) ↔
      ∃ pieces, flattened dialect template = .ok pieces ∧ ps = params pieces ∧
        text = fill pieces (List.replicate ps.length dialect.placeholder)) ∧
    (build { dialect with embedParams := true } template startIndex = .ok (text, ps) ↔
      ∃ pieces literals, flattened dialect template = .ok pieces ∧ ps = params pieces ∧
        ps.mapM (fun v => dialect.asLiteral (.inl v)) = .ok literals ∧ text = fill pieces literals) := by
  refine ⟨?_, ?_, ?_⟩
  · rw [build_of_not_embedParams _ rfl, flattened_with dialect]
    rfl
  · rw [build_of_not_embedParams _ rfl, flattened_with dialect]
    have hplain : placeholders (placeholderFor { dialect with appendIndex := false, embedParams := false }) startIndex
        ps.length = List.replicate ps.length dialect.placeholder :=
      placeholders_const dialect.placeholder startIndex ps.length
    rw [hplain]
  · rw [build_eq_ok_iff, flattened_with dialect, slots_of_embedParams _ rfl]
    constructor
    · rintro ⟨pieces, literals, hpieces, hliterals, htext, hps⟩
      exact ⟨pieces, literals, hpieces, hps, hliterals, htext⟩
    · rintro ⟨pieces, literals, hpieces, hps, hliterals, htext⟩
      exact ⟨pieces, literals, hpieces, hliterals, htext, hps⟩

end SqlTemplate

end Coaty
