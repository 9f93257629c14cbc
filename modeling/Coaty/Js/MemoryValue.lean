import Coaty.Js.Graph
import Coaty.Js.Value

/-!
# Data in memory

What plain data is before it is written as JSON. A property can be `undefined`, and a number can be `NaN`, infinite or a negative zero. In the text there are no properties without a value, and `null` stands for `NaN` and the infinite numbers.
-/

namespace Js

namespace AnyNumber

def isMemberOf (members : List Rat) : AnyNumber → Bool
  | finite n => members.contains n
  | negativeZero => members.contains 0
  | _ => false

def isNonNegative : AnyNumber → Bool
  | finite n => 0 ≤ n
  | negativeZero => true
  | infinity isNegative => !isNegative
  | nan => false

def isTruthy : AnyNumber → Bool
  | finite n => n ≠ 0
  | negativeZero => false
  | infinity _ => true
  | nan => false

/-- What `JSON.parse` makes of the text of the number. -/
def image : AnyNumber → Value
  | finite n => .number n
  | negativeZero => .number 0
  | _ => .null

end AnyNumber

inductive MemoryValue where
  | undefined
  | null
  | bool (b : Bool)
  | number (n : AnyNumber)
  | string (s : Text)
  | array (items : List MemoryValue)
  | object (properties : List (Text × MemoryValue))

namespace MemoryValue

def isDefined : MemoryValue → Bool
  | undefined => false
  | _ => true

def get : MemoryValue → Text → Option MemoryValue
  | object properties, name => (properties.filter fun property => property.2.isDefined).lookup name
  | _, _ => none

instance : Checkable MemoryValue where
  get := get
  string value := match value with | string s => some s | _ => none
  isPlainObject value := match value with | object _ => true | _ => false
  isString value := match value with | string _ => true | _ => false
  isNonEmptyString value := match value with | string s => !s.isEmpty | _ => false
  isArray value := match value with | array _ => true | _ => false
  isArrayOf p value := match value with | array items => items.all p | _ => false
  isNumber value := match value with | number _ => true | _ => false
  isMemberOf members value := match value with | number n => n.isMemberOf members | _ => false
  isNonNegative value := match value with | number n => n.isNonNegative | _ => false
  isBoolean value := match value with | bool _ => true | _ => false
  isTruthy value := match value with
    | undefined => false
    | null => false
    | bool b => b
    | number n => n.isTruthy
    | string s => !s.isEmpty
    | array _ => true
    | object _ => true

mutual

/-- What `JSON.parse` makes of the text that `JSON.stringify` writes. There is none for `undefined`. -/
def image : MemoryValue → Option Value
  | undefined => none
  | null => some .null
  | bool b => some (.bool b)
  | number n => some n.image
  | string s => some (.string s)
  | array items => some (.array (imageOfItems items))
  | object properties => some (.object (imageOfProperties properties))

def imageOfItems : List MemoryValue → List Value
  | [] => []
  | item :: items => (image item).getD .null :: imageOfItems items

def imageOfProperties : List (Text × MemoryValue) → List (Text × Value)
  | [] => []
  | (name, value) :: properties =>
    match image value with
    | none => imageOfProperties properties
    | some value => (name, value) :: imageOfProperties properties

end

theorem isSome_image (value : MemoryValue) : value.image.isSome = value.isDefined := by
  cases value <;> rfl

theorem lookup_imageOfProperties (properties : List (Text × MemoryValue)) (name : Text) :
    (imageOfProperties properties).lookup name =
      ((properties.filter fun property => property.2.isDefined).lookup name).bind image := by
  induction properties with
  | nil => rfl
  | cons property properties ih =>
    obtain ⟨own, value⟩ := property
    have hdefined := isSome_image value
    rw [imageOfProperties, List.filter_cons]
    cases himage : value.image with
    | none =>
      rw [himage] at hdefined
      simpa [← hdefined] using ih
    | some written =>
      rw [himage] at hdefined
      by_cases h : name = own
      · simp [← hdefined, h, himage]
      · simpa [← hdefined, List.lookup_cons, beq_false_of_ne h] using ih

theorem get_image {value : MemoryValue} {written : Value} (himage : value.image = some written) (name : Text) :
    written.get name = (value.get name).bind image := by
  cases value with
  | object properties =>
    cases himage
    exact lookup_imageOfProperties properties name
  | undefined => cases himage
  | number n =>
    cases himage
    cases n <;> rfl
  | _ =>
    cases himage
    rfl

theorem string_image (value : MemoryValue) : value.image.bind Checkable.string = Checkable.string value := by
  cases value with
  | number n => cases n <;> rfl
  | _ => rfl

theorem string_get_image {value : MemoryValue} {written : Value} (himage : value.image = some written) (name : Text) :
    (written.get name).bind Checkable.string = (value.get name).bind Checkable.string := by
  rw [get_image himage, Option.bind_assoc]
  congr 1
  funext property
  exact string_image property

end MemoryValue

end Js
