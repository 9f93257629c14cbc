import Coaty.Js.Map
import Coaty.Js.Text

/-!
# Plain objects as maps

The own properties of an object that is filled by assignments.
-/

namespace Js

/-- Property assignment on a plain object. An assignment to `__proto__` sets the prototype and adds no property. -/
def assign {V : Type} (object : Map Text V) (name : Text) (value : V) : Map Text V :=
  if name = text "__proto__" then object else object.set name value

theorem get_assign {V : Type} (object : Map Text V) (name other : Text) (value : V) :
    (assign object name value).get other =
      if other = name ∧ name ≠ text "__proto__" then some value else object.get other := by
  rw [assign]
  by_cases hproto : name = text "__proto__"
  · rw [if_pos hproto, if_neg fun h => h.2 hproto]
  · rw [if_neg hproto, Map.get_set]
    simp [hproto]

end Js
