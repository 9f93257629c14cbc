import Coaty.Js.MemoryValue

/-!
# Core types

The framework core types with their object types, and the shape checks that every object from the network has to pass. A snapshot contains an object, which is checked in turn. A check reads one property after the other and looks at no others.
-/

namespace Coaty

open Js

inductive CoreType where
  | coatyObject
  | user
  | annotation
  | task
  | ioContext
  | ioNode
  | ioSource
  | ioActor
  | identity
  | log
  | location
  | snapshot
deriving DecidableEq

def CoreType.name : CoreType → Text
  | .coatyObject => text "CoatyObject"
  | .user => text "User"
  | CoreType.annotation => text "Annotation"
  | .task => text "Task"
  | .ioContext => text "IoContext"
  | .ioNode => text "IoNode"
  | .ioSource => text "IoSource"
  | .ioActor => text "IoActor"
  | .identity => text "Identity"
  | .log => text "Log"
  | .location => text "Location"
  | .snapshot => text "Snapshot"

namespace CoreTypes

/-! ### Names of core types and core object types -/

def objectTypePrefix : Text := text "coaty."

/-- The keys of `_coreTypesMap`. -/
def coreTypes : List CoreType :=
  [.coatyObject, .user, CoreType.annotation, .task, .ioContext, .ioNode, .ioSource, .ioActor, .identity, .log, .location,
    .snapshot]

def getObjectTypeFor (coreType : CoreType) : Text := objectTypePrefix ++ coreType.name

def getCoreTypeFor (objectType : Text) : Option CoreType :=
  coreTypes.find? fun coreType => getObjectTypeFor coreType = objectType

def ofName (type : Text) : Option CoreType := coreTypes.find? fun coreType => coreType.name = type

/-- The keys that every plain object inherits. -/
def inheritedKeys : List Text :=
  [text "constructor", text "__defineGetter__", text "__defineSetter__", text "hasOwnProperty",
    text "__lookupGetter__", text "__lookupSetter__", text "isPrototypeOf", text "propertyIsEnumerable",
    text "toString", text "valueOf", text "__proto__", text "toLocaleString"]

/-- Looking a type up in the map finds inherited keys, too. -/
def isCoreType (type : Text) : Bool := (ofName type).isSome || inheritedKeys.contains type

theorem name_injective : Function.Injective CoreType.name := by
  intro left right
  cases left <;> cases right <;> decide

theorem getObjectTypeFor_injective : Function.Injective getObjectTypeFor :=
  fun _ _ h => name_injective (List.append_cancel_left h)

theorem mem_coreTypes (coreType : CoreType) : coreType ∈ coreTypes := by
  cases coreType <;> decide

theorem find?_eq_some_iff {f : CoreType → Text} (hf : Function.Injective f) {type : Text} {coreType : CoreType} :
    coreTypes.find? (fun coreType => f coreType = type) = some coreType ↔ f coreType = type := by
  constructor
  · intro h
    exact of_decide_eq_true (@List.find?_some _ (fun coreType => decide (f coreType = type)) _ _ h)
  · intro h
    cases hfind : coreTypes.find? (fun coreType => f coreType = type) with
    | none => exact absurd (decide_eq_true h) (List.find?_eq_none.mp hfind coreType (mem_coreTypes coreType))
    | some found =>
      have hfound : f found = type := of_decide_eq_true (@List.find?_some _ (fun coreType => decide (f coreType = type)) _ _ hfind)
      rw [hf (hfound.trans h.symm)]

theorem getCoreTypeFor_eq_some_iff {objectType : Text} {coreType : CoreType} :
    getCoreTypeFor objectType = some coreType ↔ getObjectTypeFor coreType = objectType :=
  find?_eq_some_iff getObjectTypeFor_injective

/-! ### Parts of objects -/

open Checkable

variable {D : Type} [Checkable D]

def isStringArray : D → Bool := isArrayOf isNonEmptyString

def isCoreTypeName (value : D) : Bool := (string value).any isCoreType

def isCoreTypeArray (value : D) : Bool := isStringArray value && isArrayOf isCoreTypeName value

def isAnyString (value : D) (names : List String) : Bool := names.all (hasOptional isString value)

def isScimNames (names : D) : Bool :=
  isPlainObject names &&
    hasOptional isNonEmptyString names "formatted" &&
    hasOptional isString names "familyName" &&
    hasOptional isString names "givenName" &&
    ((get names (text "familyName")).isSome == (get names (text "givenName")).isSome) &&
    ((get names (text "formatted")).isSome || (get names (text "familyName")).isSome) &&
    isAnyString names ["middleName", "honorificPrefix", "honorificSuffix"]

def isScimMultiValuedAttribute (attr : D) : Bool :=
  isPlainObject attr && hasProperty isString attr "type" && hasProperty isString attr "value" &&
    hasOptional isBoolean attr "primary" && hasOptional isString attr "display"

def isScimMultiValuedAttributes : D → Bool := isArrayOf isScimMultiValuedAttribute

def isScimAddresses : D → Bool :=
  isArrayOf fun address => isScimMultiValuedAttribute address &&
    isAnyString address ["formatted", "streetAddress", "locality", "region", "postalCode", "country"]

def isAgentInfo (info : D) : Bool :=
  hasProperty (fun packageInfo => isPlainObject packageInfo &&
      hasProperty isString packageInfo "name" && hasProperty isString packageInfo "version") info "packageInfo" &&
    hasProperty (fun buildInfo => isPlainObject buildInfo &&
      hasProperty isString buildInfo "buildDate" && hasProperty isString buildInfo "buildMode") info "buildInfo" &&
    hasProperty (fun configInfo => isPlainObject configInfo &&
      hasProperty isString configInfo "serviceHost") info "configInfo"

def isLogHost (host : D) : Bool :=
  isPlainObject host && hasOptional isAgentInfo host "agentInfo" && hasOptional isNumber host "pid" &&
    isAnyString host ["hostname", "userAgent"]

def isVariant (variant : D) : Bool :=
  isPlainObject variant && hasProperty isNonEmptyString variant "variant" && hasProperty isString variant "downloadUrl"

def isGeoLocation (geoLocation : D) : Bool :=
  isPlainObject geoLocation && hasProperty isNumber geoLocation "timestamp" &&
    hasProperty (fun coords => isPlainObject coords &&
      ["latitude", "longitude", "accuracy"].all (hasProperty isNumber coords) &&
      ["altitude", "altitudeAccuracy", "heading", "speed"].all (hasOptional isNumber coords)) geoLocation "coords"

/-! ### The numbers of enumerations -/

def annotationTypes : List Rat := [0, 1, 2, 3, 4, 5, 6, 7]

def annotationStatuses : List Rat := [0, 1, 2, 3]

def taskStatuses : List Rat := [0, 1, 2, 3, 4, 5]

def logLevels : List Rat := [10, 20, 30, 40, 50]

def ioSourceBackpressureStrategies : List Rat := [0, 1, 2, 3]

/-! ### Objects of a core type -/

/-- `_isObject` -/
def isAnyObject (obj : D) : Bool :=
  hasProperty isString obj "name" &&
    hasProperty isNonEmptyString obj "objectType" &&
    hasProperty isCoreTypeName obj "coreType" &&
    hasProperty isNonEmptyString obj "objectId" &&
    ["parentObjectId", "externalId", "locationId"].all (hasOptional isNonEmptyString obj) &&
    hasOptional isBoolean obj "isDeactivated"

def hasCoreType (obj : D) (coreType : CoreType) : Bool :=
  hasProperty (fun value => (string value).any (· = coreType.name)) obj "coreType"

def isUser (obj : D) : Bool :=
  isAnyObject obj && hasCoreType obj .user && hasProperty isScimNames obj "names" &&
    isAnyString obj ["displayName", "nickName", "title", "userType", "preferredLanguage", "locale", "timezone"] &&
    hasOptional isBoolean obj "active" && hasOptional isString obj "password" &&
    ["emails", "phoneNumbers", "ims", "photos"].all (hasOptional isScimMultiValuedAttributes obj) &&
    hasOptional isScimAddresses obj "addresses" &&
    hasOptional isScimMultiValuedAttributes obj "groups" &&
    hasOptional isArray obj "entitlements" &&
    ["roles", "x509Certificates"].all (hasOptional isStringArray obj)

def isAnnotation (obj : D) : Bool :=
  isAnyObject obj && hasCoreType obj CoreType.annotation && hasProperty (isMemberOf annotationTypes) obj "type" &&
    hasProperty isNonEmptyString obj "creatorId" && hasProperty isNumber obj "creationTimestamp" &&
    hasProperty (isMemberOf annotationStatuses) obj "status" && hasOptional (isArrayOf isVariant) obj "variants"

def isTask (obj : D) : Bool :=
  isAnyObject obj && hasCoreType obj .task && hasProperty isNonEmptyString obj "creatorId" &&
    hasProperty isNumber obj "creationTimestamp" &&
    ["startTimestamp", "duration"].all (hasOptional isNumber obj) &&
    hasProperty (isMemberOf taskStatuses) obj "status" && hasOptional isPlainObject obj "requirements" &&
    hasOptional isString obj "description" && hasOptional isNonEmptyString obj "assigneeObjectId"

def isIoContext (obj : D) : Bool := isAnyObject obj && hasCoreType obj .ioContext

/-- What the checks on IO sources and IO actors have in common. -/
def isIoPoint (coreType : CoreType) (obj : D) : Bool :=
  isAnyObject obj && hasCoreType obj coreType && hasProperty isNonEmptyString obj "valueType" &&
    hasOptional isString obj "externalRoute" &&
    hasOptional isNonNegative obj "updateRate" &&
    hasOptional isBoolean obj "useRawIoValues"

def isIoSource (obj : D) : Bool :=
  isIoPoint .ioSource obj && hasOptional (isMemberOf ioSourceBackpressureStrategies) obj "updateStrategy"

def isIoActor (obj : D) : Bool := isIoPoint .ioActor obj

def isIoNode (obj : D) : Bool :=
  isAnyObject obj && hasCoreType obj .ioNode &&
    hasOptional (isArrayOf fun point => isPlainObject point && isIoSource point) obj "ioSources" &&
    hasOptional (isArrayOf fun point => isPlainObject point && isIoActor point) obj "ioActors" &&
    hasOptional isPlainObject obj "characteristics"

def isIdentity (obj : D) : Bool := isAnyObject obj && hasCoreType obj .identity

def isLog (obj : D) : Bool :=
  isAnyObject obj && hasCoreType obj .log && hasProperty (isMemberOf logLevels) obj "logLevel" &&
    ["logMessage", "logDate"].all (hasProperty isString obj) && hasOptional isStringArray obj "logTags" &&
    hasOptional isPlainObject obj "logLabels" && hasOptional isLogHost obj "logHost"

def isLocation (obj : D) : Bool :=
  isAnyObject obj && hasCoreType obj .location && hasProperty isGeoLocation obj "geoLocation"

/-- The check on a snapshot, given the one on the object that it contains. -/
def isSnapshot (obj : D) (isObject : Bool) : Bool :=
  isAnyObject obj && hasProperty isNonEmptyString obj "parentObjectId" && hasCoreType obj .snapshot &&
    hasProperty (fun timestamp => isTruthy timestamp && isNumber timestamp) obj "creationTimestamp" &&
    hasProperty isNonEmptyString obj "creatorId" && hasOptional isStringArray obj "tags" && isObject

def isAssignable (obj : D) (isObject : Bool) : CoreType → Bool
  | .coatyObject => isAnyObject obj
  | .user => isUser obj
  | CoreType.annotation => isAnnotation obj
  | .task => isTask obj
  | .ioContext => isIoContext obj
  | .ioNode => isIoNode obj
  | .ioSource => isIoSource obj
  | .ioActor => isIoActor obj
  | .identity => isIdentity obj
  | .log => isLog obj
  | .location => isLocation obj
  | .snapshot => isSnapshot obj isObject

/-- The core type that an object names. -/
def coreTypeOf (obj : D) : Option CoreType := ((get obj (text "coreType")).bind string).bind ofName

mutual

/-- `isObject` without a core type. -/
def isObject : Value → Bool
  | .object properties =>
    match coreTypeOf (Value.object properties) with
    | none => false
    | some coreType => isAssignable (Value.object properties) (isContainedObject properties) coreType
  | _ => false

/-- Whether the property `object` is an object. -/
def isContainedObject : List (Text × Value) → Bool
  | [] => false
  | (name, value) :: properties => if name = text "object" then isObject value else isContainedObject properties

end

mutual

/-- `isObject` on an object in memory. -/
def isObjectInMemory : MemoryValue → Bool
  | .object properties =>
    match coreTypeOf (MemoryValue.object properties) with
    | none => false
    | some coreType => isAssignable (MemoryValue.object properties) (isContainedInMemory properties) coreType
  | _ => false

def isContainedInMemory : List (Text × MemoryValue) → Bool
  | [] => false
  | (name, value) :: properties =>
    if name = text "object" then isObjectInMemory value else isContainedInMemory properties

end

/-- `isObjectArray` without core types. -/
def isObjectArray : Value → Bool := Value.isArrayOf isObject

end CoreTypes

end Coaty
