import Coaty.Js.JsonText
import Coaty.Lexing

/-!
# Values in SQL text

How the adapter quotes identifiers and string literals, and how the database server takes SQL text apart again. A string constant goes on after whitespace with a line break if another quote follows there, where a comment that ends with its line counts as whitespace. An identifier is cut off after 63 bytes. What the rules for other tokens and for escapes by number are is left open.
-/

namespace Coaty

namespace Postgres

open Js Lexing

def singleQuote : UInt16 := 39

def doubleQuote : UInt16 := 34

def backslash : UInt16 := 92

def hyphen : UInt16 := 45

/-! ### Quoting -/

def asIdentifier (text : Text) : Text :=
  let escape := doubleQuote
  [escape] ++ (text.flatMap fun c => if c = escape then [c, c] else [c]) ++ [escape]

def asLiteral (text : Text) : Text :=
  let escape := singleQuote
  let hasBackslash := text.contains backslash
  let escaped := [escape] ++ (text.flatMap fun c => if c = escape then [c, c] else if c = backslash then [c, c] else [c]) ++
    [escape]
  if hasBackslash then Js.text " E" ++ escaped else escaped

def asJsonpathLiteral (text : Text) (isFilterExpression : Bool) : Text :=
  let escape := doubleQuote
  (if isFilterExpression then [] else [escape]) ++
    (text.flatMap fun c =>
      if c = singleQuote then [c, c]
      else if !isFilterExpression && (c = backslash || c = escape) then [backslash, c]
      else [c]) ++
    (if isFilterExpression then [] else [escape])

/-! ### Tokens of SQL -/

inductive SqlToken where
  | string (value : Text)
  | identifier (name : Text)
  | other (text : Text)

structure SqlRules where
  /-- An escape by number, from behind its backslash: what it stands for and the rest. -/
  numericEscape : Text → Option (Text × Text)
  /-- All tokens, block comments and errors that are not dealt with here. -/
  other : Reader UInt16 SqlToken

def isNewline (c : UInt16) : Bool := c = 10 || c = 13

def isBlank (c : UInt16) : Bool := c = 32 || c = 9 || c = 12 || isNewline c

/-- What has been read since the quote at the end of a string constant. -/
inductive Gap where
  | sameLine
  | nextLine
  | comment

/-- The rest after the quote with which a string constant goes on, if it does. -/
def continuation : Gap → Text → Option Text
  | _, [] => none
  | .comment, c :: s => if isNewline c then continuation .nextLine s else continuation .comment s
  | .sameLine, c :: s =>
    if isNewline c then continuation .nextLine s
    else if isBlank c then continuation .sameLine s
    else if c = hyphen then
      match s with
      | [] => none
      | d :: s => if d = hyphen then continuation .comment s else none
    else none
  | .nextLine, c :: s =>
    if isBlank c then continuation .nextLine s
    else if c = singleQuote then some s
    else if c = hyphen then
      match s with
      | [] => none
      | d :: s => if d = hyphen then continuation .comment s else none
    else none

def prepend (front : Text) (part : Option (Text × Text)) : Option (Text × Text) :=
  part.map fun (value, rest) => (front ++ value, rest)

/-- What stands in front of the closing quote, where two quotes stand for one. -/
def betweenQuotes (q : UInt16) : Text → Option (Text × Text)
  | [] => none
  | c :: s =>
    if c = q then
      match s with
      | [] => some ([], [])
      | d :: s => if d = q then prepend [q] (betweenQuotes q s) else some ([], d :: s)
    else prepend [c] (betweenQuotes q s)

/-- What a letter behind a backslash stands for. -/
def escapedUnit (c : UInt16) : UInt16 :=
  if c = unit 'b' then 8
  else if c = unit 'f' then 12
  else if c = unit 'n' then 10
  else if c = unit 'r' then 13
  else if c = unit 't' then 9
  else if c = unit 'v' then 11
  else c

def startsNumericEscape (c : UInt16) : Bool :=
  (unit '0' ≤ c && c ≤ unit '7') || c = unit 'x' || c = unit 'u' || c = unit 'U'

/-- The same in an escape string, where backslashes are special. -/
def betweenEscapeQuotes (rules : SqlRules) : Text → Option (Text × Text)
  | [] => none
  | c :: s =>
    if c = singleQuote then
      match s with
      | [] => some ([], [])
      | d :: s => if d = singleQuote then prepend [singleQuote] (betweenEscapeQuotes rules s) else some ([], d :: s)
    else if c = backslash then
      match s with
      | [] => none
      | d :: s =>
        if startsNumericEscape d then
          match rules.numericEscape (d :: s) with
          | none => none
          | some (value, rest) =>
            if rest.length ≤ s.length then prepend value (betweenEscapeQuotes rules rest) else none
        else prepend [escapedUnit d] (betweenEscapeQuotes rules s)
    else prepend [c] (betweenEscapeQuotes rules s)
termination_by s => s.length

/-- No value of the database server contains the code unit 0. -/
def withoutNul (part : Option (Text × Text)) : Option (Text × Text) := part.filter fun (value, _) => !value.contains 0

def quoted (q : UInt16) (s : Text) : Option (Text × Text) := withoutNul (betweenQuotes q s)

def escapeQuoted (rules : SqlRules) (s : Text) : Option (Text × Text) := withoutNul (betweenEscapeQuotes rules s)

/-- A string constant from behind its first quote. -/
def stringConstant (part : Text → Option (Text × Text)) (s : Text) : Option (Text × Text) :=
  match part s with
  | none => none
  | some (value, rest) =>
    match continuation .sameLine rest with
    | none => some (value, rest)
    | some rest => if rest.length < s.length then prepend value (stringConstant part rest) else none
termination_by s.length

/-- How many bytes a code unit takes that is not the first one of a surrogate pair. -/
def byteWidth (c : UInt16) : Nat := if c.toNat < 0x80 then 1 else if c.toNat < 0x800 then 2 else 3

/-- How many bytes a text takes. A surrogate pair takes four. -/
def byteLength : Text → Nat
  | [] => 0
  | c :: s =>
    if isHighSurrogate c then
      match s with
      | [] => 3
      | _ :: s => 4 + byteLength s
    else byteWidth c + byteLength s

/-- The first characters that take no more than `n` bytes. -/
def clip : Nat → Text → Text
  | _, [] => []
  | n, c :: s =>
    if isHighSurrogate c then
      match s with
      | [] => if 3 ≤ n then [c] else []
      | d :: s => if 4 ≤ n then c :: d :: clip (n - 4) s else []
    else if byteWidth c ≤ n then c :: clip (n - byteWidth c) s
    else []

def readSqlToken (rules : SqlRules) : Reader UInt16 SqlToken
  | [] => none
  | c :: s =>
    if isBlank c then some (none, s)
    else if c = hyphen && s.head? = some hyphen then some (none, s.dropWhile fun c => !isNewline c)
    else if c = singleQuote then
      (stringConstant (quoted singleQuote) s).map fun (value, rest) => (some (.string value), rest)
    else if (c = unit 'E' || c = unit 'e') && s.head? = some singleQuote then
      (stringConstant (escapeQuoted rules) s.tail).map fun (value, rest) => (some (.string value), rest)
    else if c = doubleQuote then
      match quoted doubleQuote s with
      | none => none
      | some (name, rest) => if name = [] then none else some (some (.identifier (clip 63 name)), rest)
    else rules.other (c :: s)

def sqlTokens (rules : SqlRules) : Text → Option (List SqlToken) := split (readSqlToken rules)

end Postgres

end Coaty
