import Coaty.Db.Postgres.SqlText
import Coaty.Js.JsonText

/-!
# Jsonpath expressions

The expressions that the adapter writes for filter conditions, with the keys of a property and primitive operands, and how the database server reads them. Of the language there is what these expressions need: variables, comments, escapes with braces and names with escapes are errors here.
-/

namespace Coaty

namespace Postgres

open Js Lexing

/-! ### Expressions -/

inductive Comparison where
  | less
  | lessEqual
  | greater
  | greaterEqual
  | equal
  | notEqual
deriving DecidableEq

def Comparison.toText : Comparison → Text
  | less => text "<"
  | lessEqual => text "<="
  | greater => text ">"
  | greaterEqual => text ">="
  | equal => text "=="
  | notEqual => text "!="

inductive JsonpathExpression (α : Type) where
  | comparison (keys : List Text) (operator : Comparison) (operand : α)
  | existence (keys : List Text) (isNegated : Bool)
  | likeRegex (keys : List Text) (pattern : Text)
  | interval (keys : List Text) (isNegated : Bool) (lower upper : α)

def JsonpathExpression.map {α β : Type} (f : α → β) : JsonpathExpression α → JsonpathExpression β
  | comparison keys operator operand => comparison keys operator (f operand)
  | existence keys isNegated => existence keys isNegated
  | likeRegex keys pattern => likeRegex keys pattern
  | interval keys isNegated lower upper => interval keys isNegated (f lower) (f upper)

/-- `_getJsonpathKeys` -/
def getJsonpathKeys (propsChain : List Text) : Text :=
  let keys := (text ".").intercalate (propsChain.map fun p => asJsonpathLiteral p false)
  if keys = [] then text "$" else text "$." ++ keys

/-- The expression for a filter condition, as it stands between quotes in the SQL text. -/
def jsonpathText : JsonpathExpression JsonPrimitive → Text
  | .comparison keys operator operand =>
    getJsonpathKeys keys ++ text " " ++ operator.toText ++ text " " ++ asJsonpathLiteral operand.stringify true
  | .existence keys isNegated =>
    (if isNegated then text "!" else []) ++ text "exists(" ++ getJsonpathKeys keys ++ text ")"
  | .likeRegex keys pattern =>
    getJsonpathKeys keys ++ text " like_regex " ++ asJsonpathLiteral (JsonPrimitive.string pattern).stringify true
  | .interval keys false lower upper =>
    getJsonpathKeys keys ++ text " ? (@ >= " ++ asJsonpathLiteral lower.stringify true ++ text " && @ <= " ++
      asJsonpathLiteral upper.stringify true ++ text ")"
  | .interval keys true lower upper =>
    getJsonpathKeys keys ++ text " ? (@ < " ++ asJsonpathLiteral lower.stringify true ++ text " || @ > " ++
      asJsonpathLiteral upper.stringify true ++ text ")"

/-! ### Tokens -/

inductive JsonpathToken where
  | string (s : Text)
  | number (n : Rat)
  | word (s : Text)
  | symbol (s : Text)
deriving DecidableEq

def hexValue (c : UInt16) : Option Nat :=
  if isDigit c then some (digitValue c)
  else if 97 ≤ c.toNat ∧ c.toNat ≤ 102 then some (c.toNat - 87)
  else if 65 ≤ c.toNat ∧ c.toNat ≤ 70 then some (c.toNat - 55)
  else none

def hexNumber (digits : Text) : Option Nat := (digits.mapM hexValue).map fun values => values.foldl (16 * · + ·) 0

/-- What stands in front of the closing quote of a string. -/
def jsonpathQuoted : Text → Option (Text × Text)
  | [] => none
  | c :: s =>
    if c = doubleQuote then some ([], s)
    else if c = backslash then
      match s with
      | [] => none
      | d :: s =>
        if d = unit 'u' then
          match s with
          | h₃ :: h₂ :: h₁ :: h₀ :: s =>
            match hexNumber [h₃, h₂, h₁, h₀] with
            | some n => prepend [UInt16.ofNat n] (jsonpathQuoted s)
            | none => none
          | _ => none
        else if d = unit 'x' then
          match s with
          | h₁ :: h₀ :: s =>
            match hexNumber [h₁, h₀] with
            | some n => prepend [UInt16.ofNat n] (jsonpathQuoted s)
            | none => none
          | _ => none
        else prepend [escapedUnit d] (jsonpathQuoted s)
    else prepend [c] (jsonpathQuoted s)

/-- A text that the database can hold. -/
def IsStorable (s : Text) : Prop := isWellFormed s = true ∧ 0 ∉ s

instance (s : Text) : Decidable (IsStorable s) := inferInstanceAs (Decidable (_ ∧ _))

def readString (s : Text) : Option (Text × Text) :=
  match jsonpathQuoted s with
  | none => none
  | some (value, rest) => if IsStorable value then some (value, rest) else none

def isSpecial (c : UInt16) : Bool := (text "?%$.[]\x7b\x7d()|&!=<>@#,*:-+/").contains c

/-- What a name or a keyword is made of. -/
def isOther (c : UInt16) : Bool := !isSpecial c && !isBlank c && c ≠ backslash && c ≠ doubleQuote

def readFraction (s : Text) : Text × Text :=
  match s with
  | [] => ([], [])
  | c :: digits =>
    if c = unit '.' && (digits.head?.any isDigit) then (digits.takeWhile isDigit, digits.dropWhile isDigit) else ([], s)

def readExponent (s : Text) : Int × Text :=
  match s with
  | [] => (0, [])
  | c :: rest =>
    if c = unit 'e' || c = unit 'E' then
      let isNegative := rest.head? = some (unit '-')
      let digits := if isNegative || rest.head? = some (unit '+') then rest.tail else rest
      if digits.head?.any isDigit then
        (if isNegative then -(digitsValue (digits.takeWhile isDigit) : Int) else digitsValue (digits.takeWhile isDigit),
          digits.dropWhile isDigit)
      else (0, s)
    else (0, s)

/-- A number must not begin with a further zero, and nothing else may be attached to it. -/
def readNumber (s : Text) : Option (Rat × Text) :=
  let integer := s.takeWhile isDigit
  let (fraction, rest) := readFraction (s.dropWhile isDigit)
  let (exponent, rest) := readExponent rest
  if integer.head? = some (unit '0') && 1 < integer.length then none
  else if rest.head?.any isOther then none
  else some (digitsValue (integer ++ fraction) * 10 ^ (exponent - fraction.length), rest)

def operators : List Text := [text "&&", text "||", text "==", text "!=", text "<>", text "<=", text ">=", text "**"]

def readJsonpathToken : Reader UInt16 JsonpathToken
  | [] => none
  | c :: s =>
    if isBlank c then some (none, s)
    else if c = doubleQuote then (readString s).map fun (value, rest) => (some (.string value), rest)
    else if isDigit c then (readNumber (c :: s)).map fun (value, rest) => (some (.number value), rest)
    else if isOther c then some (some (.word ((c :: s).takeWhile isOther)), (c :: s).dropWhile isOther)
    else if isSpecial c then
      match s with
      | [] => some (some (.symbol [c]), [])
      | d :: s =>
        if c = unit '$' && (d = doubleQuote || isOther d) then none
        else if c = unit '/' && d = unit '*' then none
        else if operators.contains [c, d] then some (some (.symbol [c, d]), s)
        else some (some (.symbol [c]), d :: s)
    else none

/-! ### Grammar -/

inductive JsonpathLiteral where
  | null
  | bool (b : Bool)
  | number (n : Rat)
  | string (s : Text)

/-- The value of an operand. -/
def denoted : JsonPrimitive → JsonpathLiteral
  | .null => .null
  | .bool b => .bool b
  | .number n => .number n.value
  | .string s => .string s

def expect (token : JsonpathToken) : List JsonpathToken → Option (List JsonpathToken)
  | [] => none
  | t :: tokens => if t = token then some tokens else none

def parseKeys : List JsonpathToken → List Text × List JsonpathToken
  | .symbol s :: .string key :: tokens =>
    if s = text "." then
      let (keys, rest) := parseKeys tokens
      (key :: keys, rest)
    else ([], .symbol s :: .string key :: tokens)
  | tokens => ([], tokens)

def parsePath (tokens : List JsonpathToken) : Option (List Text × List JsonpathToken) := do
  return parseKeys (← expect (.symbol (text "$")) tokens)

def parseOperand : List JsonpathToken → Option (JsonpathLiteral × List JsonpathToken)
  | .string s :: tokens => some (.string s, tokens)
  | .number n :: tokens => some (.number n, tokens)
  | .symbol s :: .number n :: tokens => if s = text "-" then some (.number (-n), tokens) else none
  | .word w :: tokens =>
    if w = text "null" then some (.null, tokens)
    else if w = text "true" then some (.bool true, tokens)
    else if w = text "false" then some (.bool false, tokens)
    else none
  | _ => none

def parseComparison : List JsonpathToken → Option (Comparison × List JsonpathToken)
  | .symbol s :: tokens =>
    ([.less, .lessEqual, .greater, .greaterEqual, .equal, .notEqual].find? fun operator => operator.toText = s).map
      (·, tokens)
  | _ => none

/-- A comparison of the current item with an operand. -/
def parseItem (tokens : List JsonpathToken) : Option ((Comparison × JsonpathLiteral) × List JsonpathToken) := do
  let (operator, tokens) ← parseComparison (← expect (.symbol (text "@")) tokens)
  let (operand, tokens) ← parseOperand tokens
  return ((operator, operand), tokens)

def parseInterval (keys : List Text) (tokens : List JsonpathToken) : Option (JsonpathExpression JsonpathLiteral) := do
  let ((operator, lower), tokens) ← parseItem (← expect (.symbol (text "(")) tokens)
  match operator with
  | .greaterEqual => do
    let ((operator, upper), tokens) ← parseItem (← expect (.symbol (text "&&")) tokens)
    if operator = .lessEqual ∧ tokens = [.symbol (text ")")] then some (.interval keys false lower upper) else none
  | .less => do
    let ((operator, upper), tokens) ← parseItem (← expect (.symbol (text "||")) tokens)
    if operator = .greater ∧ tokens = [.symbol (text ")")] then some (.interval keys true lower upper) else none
  | _ => none

def parseExistence (isNegated : Bool) (tokens : List JsonpathToken) : Option (JsonpathExpression JsonpathLiteral) := do
  let (keys, tokens) ← parsePath (← expect (.symbol (text "(")) (← expect (.word (text "exists")) tokens))
  if tokens = [.symbol (text ")")] then some (.existence keys isNegated) else none

def parsePredicate (tokens : List JsonpathToken) : Option (JsonpathExpression JsonpathLiteral) := do
  let (keys, tokens) ← parsePath tokens
  match tokens with
  | [.word w, .string pattern] => if w = text "like_regex" then some (.likeRegex keys pattern) else none
  | .symbol s :: rest =>
    if s = text "?" then parseInterval keys rest
    else do
      let (operator, rest) ← parseComparison tokens
      let (operand, rest) ← parseOperand rest
      if rest.isEmpty then some (.comparison keys operator operand) else none
  | _ => none

def parseJsonpath : List JsonpathToken → Option (JsonpathExpression JsonpathLiteral)
  | .word w :: tokens => parseExistence false (.word w :: tokens)
  | .symbol s :: tokens => if s = text "!" then parseExistence true tokens else parsePredicate (.symbol s :: tokens)
  | _ => none

def readJsonpath (s : Text) : Option (JsonpathExpression JsonpathLiteral) := (split readJsonpathToken s).bind parseJsonpath

end Postgres

end Coaty
