import Coaty.Js.JsonText
import Coaty.Js.Member

/-!
# JSON text of values

`JSON.stringify` on values that have been parsed. The text of a number is left to the engine.
-/

namespace Js

namespace Engine

variable (engine : Engine)

mutual

def stringify : Value → Text
  | .null => text "null"
  | .bool b => text (if b then "true" else "false")
  | .number n => engine.numberToString n
  | .string s => jsonString s
  | .array items => text "[" ++ stringifyItems true items ++ text "]"
  | .object properties => text "\x7b" ++ stringifyProperties true properties ++ text "\x7d"

def stringifyItems (isFirst : Bool) : List Value → Text
  | [] => []
  | item :: items => (if isFirst then [] else text ",") ++ stringify item ++ stringifyItems false items

def stringifyProperties (isFirst : Bool) : List (Text × Value) → Text
  | [] => []
  | (name, value) :: properties =>
    (if isFirst then [] else text ",") ++ jsonString name ++ text ":" ++ stringify value ++
      stringifyProperties false properties

end

end Engine

end Js
