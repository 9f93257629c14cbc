import Coaty.Com.CommunicationEvent
import Coaty.Model.CoreTypes

/-!
# Objects

An object as it is received or stored: a JSON value that passes the check on objects. The properties that all objects have are read from the value, and the check makes sure that they are there.
-/

namespace Coaty

open Js Value CoreTypes
open Checkable (hasProperty hasOptional)

namespace CoreTypes

theorem isAnyObject_of_isAssignable {obj : Value} {isContained : Bool} {coreType : CoreType}
    (h : isAssignable obj isContained coreType = true) : isAnyObject obj = true := by
  cases coreType <;>
    simp only [isAssignable, isUser, isAnnotation, isTask, isIoContext, isIoNode, isIoSource, isIoActor, isIoPoint,
      isIdentity, isLog, isLocation, isSnapshot, Bool.and_eq_true] at h <;>
    tauto

theorem isAnyObject_of_isObject {obj : Value} (h : isObject obj = true) : isAnyObject obj = true := by
  cases obj with
  | object properties =>
    rw [isObject] at h
    split at h
    · cases h
    · exact isAnyObject_of_isAssignable h
  | _ => cases h

end CoreTypes

theorem isSome_coreTypeOf {obj : Value} (h : isObject obj = true) : (coreTypeOf obj).isSome = true := by
  cases obj with
  | object properties =>
    rw [isObject] at h
    split at h
    · cases h
    · rename_i heq
      rw [heq]
      rfl
  | _ => cases h

/-- A property that is an object id. -/
def idOf (obj : Value) (name : String) : Option Uuid :=
  match obj.get (text name) with
  | some (.string s) => if h : s ≠ [] then some ⟨s, h⟩ else none
  | _ => none

theorem isSome_idOf {obj : Value} {name : String} (h : hasProperty isNonEmptyString obj name = true) :
    (idOf obj name).isSome = true := by
  rw [hasProperty, Checkable.get_value, Option.any_eq_true] at h
  obtain ⟨value, hget, hvalue⟩ := h
  rw [idOf, hget]
  cases value with
  | string s =>
    have hs : s ≠ [] := by
      intro hempty
      simp [isNonEmptyString, hempty] at hvalue
    simp [hs]
  | _ => cases hvalue

theorem isSome_objectId {obj : Value} (h : isObject obj = true) : (idOf obj "objectId").isSome = true := by
  have hany := isAnyObject_of_isObject h
  simp only [isAnyObject, Bool.and_eq_true] at hany
  exact isSome_idOf hany.1.1.2

structure CoatyObject where
  value : Value
  isObject : CoreTypes.isObject value = true

namespace CoatyObject

def objectId (obj : CoatyObject) : Uuid := (idOf obj.value "objectId").get (isSome_objectId obj.isObject)

def coreType (obj : CoatyObject) : CoreType := (coreTypeOf obj.value).get (isSome_coreTypeOf obj.isObject)

def parentObjectId (obj : CoatyObject) : Option Uuid := idOf obj.value "parentObjectId"

/-! ### Objects with nothing but what all objects have -/

def plainValue (objectId : Uuid) (parentObjectId : Option Uuid) (name : Text) : Value :=
  jsonImage [(text "objectId", some (.string objectId.val)), (text "coreType", some (.string CoreType.coatyObject.name)),
    (text "objectType", some (.string (getObjectTypeFor .coatyObject))), (text "name", some (.string name)),
    (text "parentObjectId", parentObjectId.map fun id => .string id.val)]

theorem isObject_plainValue (objectId : Uuid) (parentObjectId : Option Uuid) (name : Text) :
    CoreTypes.isObject (plainValue objectId parentObjectId name) = true := by
  obtain ⟨id, hid⟩ := objectId
  cases id with
  | nil => exact absurd rfl hid
  | cons c cs =>
    cases parentObjectId with
    | none => rfl
    | some parent =>
      obtain ⟨id, hid⟩ := parent
      cases id with
      | nil => exact absurd rfl hid
      | cons c cs => rfl

def plain (objectId : Uuid) (parentObjectId : Option Uuid) (name : Text) : CoatyObject :=
  ⟨plainValue objectId parentObjectId name, isObject_plainValue objectId parentObjectId name⟩

@[simp] theorem coreType_plain (objectId : Uuid) (parentObjectId : Option Uuid) (name : Text) :
    (plain objectId parentObjectId name).coreType = .coatyObject := rfl

@[simp] theorem objectId_plain (objectId : Uuid) (parentObjectId : Option Uuid) (name : Text) :
    (plain objectId parentObjectId name).objectId = objectId := by
  obtain ⟨id, hid⟩ := objectId
  cases id with
  | nil => exact absurd rfl hid
  | cons c cs => rfl

@[simp] theorem parentObjectId_plain (objectId : Uuid) (parentObjectId : Option Uuid) (name : Text) :
    (plain objectId parentObjectId name).parentObjectId = parentObjectId := by
  cases parentObjectId with
  | none => rfl
  | some parent =>
    obtain ⟨id, hid⟩ := parent
    cases id with
    | nil => exact absurd rfl hid
    | cons c cs => rfl

end CoatyObject

end Coaty
