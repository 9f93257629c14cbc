import Coaty.Db.SqlTag
import Mathlib.Tactic.SplitIfs

/-!
# SQL text of SQLite

How the adapter quotes identifiers and literals, and how SQLite takes the text of simple statements apart: words, quoted identifiers, in which two quotes stand for one, and single punctuation marks. A statement with string literals or comments has marks among its tokens that the statements of a store do not have.
-/

namespace Coaty

namespace Sqlite

open Js

def doubleQuote : UInt16 := 34

def singleQuote : UInt16 := 39

/-! ### Quoting -/

/-- The text between quotes, with the quotes in it doubled. -/
def quote (escape : UInt16) (text : Text) : Text :=
  [escape] ++ (text.flatMap fun c => if c = escape then [c, c] else [c]) ++ [escape]

def asIdent (text : Text) : Text := quote doubleQuote text

def asLiteral (text : Text) : Text := quote singleQuote text

/-- What the adapter passes to a query builder. A query builder has no JSON text. -/
def dialect : SqlDialect Text Error where
  placeholder := text "?"
  appendIndex := false
  asIdentifier
    | .inl text => .ok (asIdent text)
    | .inr _ => .error .typeError
  asLiteral
    | .inl text => .ok (asLiteral text)
    | .inr _ => .error .typeError
  embedParams := false

def getSqlQuery (sql : SqlTemplate Text) : Except Error (Text × List Text) := sql.build dialect 0

/-! ### Tokens -/

inductive Token where
  | word (text : Text)
  | identifier (name : Text)
  | mark (c : UInt16)
deriving DecidableEq

def isBlank (c : UInt16) : Bool := c = 32 || c = 9 || c = 10 || c = 12 || c = 13

def isWordUnit (c : UInt16) : Bool :=
  (unit 'a' ≤ c && c ≤ unit 'z') || (unit 'A' ≤ c && c ≤ unit 'Z') || (unit '0' ≤ c && c ≤ unit '9') || c = unit '_'

/-- The token that is being read. -/
inductive LexerMode where
  | between
  | inWord (word : Text)
  | inQuotes (name : Text)
  /-- Behind a quote that ends the identifier unless another one follows. -/
  | behindQuote (name : Text)
deriving DecidableEq

structure Lexer where
  tokens : List Token
  mode : LexerMode
deriving DecidableEq

namespace Lexer

def initial : Lexer := ⟨[], .between⟩

/-- A unit that does not belong to the token before it. -/
def start (tokens : List Token) (c : UInt16) : Lexer :=
  if isBlank c then ⟨tokens, .between⟩
  else if c = doubleQuote then ⟨tokens, .inQuotes []⟩
  else if isWordUnit c then ⟨tokens, .inWord [c]⟩
  else ⟨tokens ++ [.mark c], .between⟩

def step (s : Lexer) (c : UInt16) : Lexer :=
  match s.mode with
  | .between => start s.tokens c
  | .inWord word =>
    if isWordUnit c then ⟨s.tokens, .inWord (word ++ [c])⟩ else start (s.tokens ++ [.word word]) c
  | .inQuotes name => if c = doubleQuote then ⟨s.tokens, .behindQuote name⟩ else ⟨s.tokens, .inQuotes (name ++ [c])⟩
  | .behindQuote name =>
    if c = doubleQuote then ⟨s.tokens, .inQuotes (name ++ [c])⟩ else start (s.tokens ++ [.identifier name]) c

def finish (s : Lexer) : Option (List Token) :=
  match s.mode with
  | .between => some s.tokens
  | .inWord word => some (s.tokens ++ [.word word])
  | .inQuotes _ => none
  | .behindQuote name => some (s.tokens ++ [.identifier name])

end Lexer

def tokens (sql : Text) : Option (List Token) := (sql.foldl Lexer.step .initial).finish

/-! ### Quoted identifiers -/

theorem foldl_step_inQuotes (tokens : List Token) (front name : Text) :
    (name.flatMap fun c => if c = doubleQuote then [c, c] else [c]).foldl Lexer.step ⟨tokens, .inQuotes front⟩ =
      ⟨tokens, .inQuotes (front ++ name)⟩ := by
  induction name generalizing front with
  | nil => simp
  | cons c name ih =>
    have hunit : (if c = doubleQuote then [c, c] else [c]).foldl Lexer.step ⟨tokens, .inQuotes front⟩ =
        ⟨tokens, .inQuotes (front ++ [c])⟩ := by
      by_cases hquote : c = doubleQuote
      · simp [Lexer.step, hquote]
      · simp [Lexer.step, hquote]
    rw [List.flatMap_cons, List.foldl_append, hunit, ih]
    simp

theorem foldl_step_asIdent (tokens : List Token) (name : Text) :
    (asIdent name).foldl Lexer.step ⟨tokens, .between⟩ = ⟨tokens, .behindQuote name⟩ := by
  have hopen : [doubleQuote].foldl Lexer.step ⟨tokens, .between⟩ = ⟨tokens, .inQuotes []⟩ := rfl
  have hclose : [doubleQuote].foldl Lexer.step ⟨tokens, .inQuotes name⟩ = ⟨tokens, .behindQuote name⟩ := rfl
  rw [asIdent, quote, List.foldl_append, List.foldl_append, hopen, foldl_step_inQuotes, List.nil_append, hclose]

theorem step_append (found : List Token) (s : Lexer) (c : UInt16) :
    Lexer.step ⟨found ++ s.tokens, s.mode⟩ c = ⟨found ++ (s.step c).tokens, (s.step c).mode⟩ := by
  have hstart : ∀ tokens, Lexer.start (found ++ tokens) c = ⟨found ++ (Lexer.start tokens c).tokens, (Lexer.start tokens c).mode⟩ := by
    intro tokens
    simp only [Lexer.start]
    split_ifs <;> simp
  obtain ⟨tokens, mode⟩ := s
  cases mode with
  | between => exact hstart tokens
  | inWord word =>
    simp only [Lexer.step]
    split_ifs
    · rfl
    · rw [List.append_assoc, hstart]
  | inQuotes name =>
    simp only [Lexer.step]
    split_ifs <;> rfl
  | behindQuote name =>
    simp only [Lexer.step]
    split_ifs
    · rfl
    · rw [List.append_assoc, hstart]

theorem foldl_step_append (found : List Token) (s : Lexer) (sql : Text) :
    sql.foldl Lexer.step ⟨found ++ s.tokens, s.mode⟩ =
      ⟨found ++ (sql.foldl Lexer.step s).tokens, (sql.foldl Lexer.step s).mode⟩ := by
  induction sql generalizing s with
  | nil => rfl
  | cons c sql ih => rw [List.foldl_cons, step_append, ih, List.foldl_cons]

theorem finish_append (found : List Token) (s : Lexer) :
    Lexer.finish ⟨found ++ s.tokens, s.mode⟩ = s.finish.map (found ++ ·) := by
  obtain ⟨tokens, mode⟩ := s
  cases mode <;> simp [Lexer.finish]

/-- The tokens of a text with a quoted identifier are those around it and the identifier. -/
theorem tokens_append_asIdent {front back : Text} {found more : List Token}
    (hfront : front.foldl Lexer.step .initial = ⟨found, .between⟩) (hback : tokens back = some more)
    (hquote : back.head? ≠ some doubleQuote) (name : Text) :
    tokens (front ++ asIdent name ++ back) = some (found ++ [.identifier name] ++ more) := by
  rw [tokens, List.foldl_append, List.foldl_append, hfront, foldl_step_asIdent]
  cases back with
  | nil =>
    cases hback
    simp [Lexer.finish, Lexer.initial]
  | cons c back =>
    have hstep : Lexer.step ⟨found, .behindQuote name⟩ c = Lexer.step ⟨found ++ [.identifier name], .between⟩ c := by
      have hne : c ≠ doubleQuote := fun heq => hquote (by rw [heq]; rfl)
      simp [Lexer.step, hne]
    have hinitial : Lexer.step ⟨found ++ [.identifier name], .between⟩ c =
        Lexer.step ⟨found ++ [.identifier name] ++ Lexer.initial.tokens, Lexer.initial.mode⟩ c := by
      rw [Lexer.initial, List.append_nil]
    rw [List.foldl_cons, hstep, hinitial, ← List.foldl_cons, foldl_step_append, finish_append]
    rw [tokens] at hback
    rw [hback, Option.map_some]

end Sqlite

end Coaty
