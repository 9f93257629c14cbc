import Coaty.Com.ContextFilters
import Coaty.Model.CoatyObject

/-!
# Responses to Discover and Query events

The data of a Discover or Query event restricts the objects that are asked for. A responder judges an object with the predicate of the data, and every response is checked against the restrictions again before it is published. The check takes an empty id for one that is not given, and the predicate of a Query event joins its conditions by a disjunction.
-/

namespace Coaty

open Js Value CoreTypes
open Checkable (hasProperty hasOptional)

/-- A thrown `TypeError`. -/
structure TypeError where
  message : Text
deriving DecidableEq

/-- `if (applies) { if (!holds) { throw new TypeError(message); } }` -/
def throwUnless (applies holds : Bool) (message : String) : Except TypeError Unit :=
  if applies && !holds then .error ⟨text message⟩ else .ok ()

theorem throwUnless_ok {applies holds : Bool} {message : String} :
    throwUnless applies holds message = .ok () ↔ (applies = true → holds = true) := by
  cases applies <;> cases holds <;> simp [throwUnless]

theorem seq_ok {x y : Except TypeError Unit} : (do x; y) = .ok () ↔ x = .ok () ∧ y = .ok () := by
  cases x with
  | error e => exact ⟨nofun, fun h => nomatch h.1⟩
  | ok u => exact (and_iff_right rfl).symm

namespace EventData

/-! ### Judging an object -/

/-- `id === undefined || object.id === id` -/
def isIdentified (id : Option Value) (objectId : Option Value) : Bool := id.all fun id => objectId.any (Deep.strictEquals id)

def DiscoverEventData.matchesObject (data : DiscoverEventData) (object : Option Value) : Bool :=
  isTruthy object &&
    isIdentified data.objectId (object.bind (·.get (text "objectId"))) &&
    isIdentified data.externalId (object.bind (·.get (text "externalId"))) &&
    QueryEventData.isListed data.coreTypes (object.bind (·.get (text "coreType"))) &&
    QueryEventData.isListed data.objectTypes (object.bind (·.get (text "objectType")))

/-! ### Checking a response -/

/-- `DiscoverEvent.ensureValidResponseParameters` -/
def DiscoverEventData.ensureValidResponseParameters (data : DiscoverEventData) (eventData : ResolveEventData) :
    Except TypeError Unit := do
  let object := eventData.object
  throwUnless (data.coreTypes.isSome && isTruthy object)
    (QueryEventData.isListed data.coreTypes (object.bind (·.get (text "coreType"))))
    "resolved coreType not contained in Discover coreTypes"
  throwUnless (data.objectTypes.isSome && isTruthy object)
    (QueryEventData.isListed data.objectTypes (object.bind (·.get (text "objectType"))))
    "resolved objectType not contained in Discover objectTypes"
  throwUnless (isTruthy data.objectId && isTruthy object)
    (isIdentified data.objectId (object.bind (·.get (text "objectId"))))
    "resolved object's UUID doesn't match Discover objectId"
  throwUnless (isTruthy data.externalId && isTruthy object)
    (isIdentified data.externalId (object.bind (·.get (text "externalId"))))
    "resolved object's external ID doesn't match Discover externalId"

/-- `eventData.objects`, which is an array. -/
def RetrieveEventData.objectList (eventData : RetrieveEventData) : List Value :=
  match eventData.objects with
  | some (.array objects) => objects
  | _ => []

/-- The body of the loop over the objects of a response. -/
def QueryEventData.ensureValidObject (data : QueryEventData) (obj : Value) : Except TypeError Unit := do
  throwUnless data.coreTypes.isSome (isListed data.coreTypes (obj.get (text "coreType")))
    "retrieved coreType not contained in Query coreTypes"
  throwUnless data.objectTypes.isSome (isListed data.objectTypes (obj.get (text "objectType")))
    "retrieved objectType not contained in Query objectTypes"

/-- `QueryEvent.ensureValidResponseParameters` -/
def QueryEventData.ensureValidResponseParameters (data : QueryEventData) (eventData : RetrieveEventData) :
    Except TypeError Unit :=
  forM eventData.objectList data.ensureValidObject

/-! ### Restrictions -/

/-- The property is the value that is asked for, if one is. -/
def Equals (wanted : Option Value) (object : CoatyObject) (name : String) : Prop :=
  ∀ value, wanted = some value → object.value.get (text name) = some value

/-- The property is one of the values that are asked for, if there is a list of them. -/
def IsOneOf (wanted : Option Value) (object : CoatyObject) (name : String) : Prop :=
  ∀ values, wanted = some (.array values) → ∃ value ∈ values, object.value.get (text name) = some value

structure DiscoverEventData.IsSatisfied (data : DiscoverEventData) (object : CoatyObject) : Prop where
  objectId : Equals data.objectId object "objectId"
  externalId : Equals data.externalId object "externalId"
  coreType : IsOneOf data.coreTypes object "coreType"
  objectType : IsOneOf data.objectTypes object "objectType"

structure QueryEventData.IsSatisfied (engine : Engine) (data : QueryEventData) (object : CoatyObject) : Prop where
  coreType : IsOneOf data.coreTypes object "coreType"
  objectType : IsOneOf data.objectTypes object "objectType"
  objectFilter : ∀ filter, data.objectFilter = some filter →
    ObjectMatcher.matchesFilter engine (some object.value) data.contextFilter = .ok true

section Restrictions

variable {wanted : Option Value} {object : CoatyObject} {name : String}

theorem strictEquals_string_iff {s : Text} {value : Value} :
    Deep.strictEquals (.string s) value = true ↔ value = .string s := by
  cases value <;> simp [Deep.strictEquals, eq_comm]

theorem isIdentified_iff (hwanted : wanted.all isString = true) :
    isIdentified wanted (object.value.get (text name)) = true ↔ Equals wanted object name := by
  cases wanted with
  | none => exact ⟨fun _ => nofun, fun _ => rfl⟩
  | some value =>
    cases value with
    | string s =>
      rw [isIdentified, Option.all_some, Option.any_eq_true, Equals]
      simp only [strictEquals_string_iff, Option.some.injEq, forall_eq']
      constructor
      · rintro ⟨value, hget, rfl⟩
        exact hget
      · intro hget
        exact ⟨_, hget, rfl⟩
    | _ => cases hwanted

theorem isListed_iff (hwanted : wanted.all isStringArray = true) :
    QueryEventData.isListed wanted (object.value.get (text name)) = true ↔ IsOneOf wanted object name := by
  cases wanted with
  | none => exact ⟨fun _ => nofun, fun _ => rfl⟩
  | some value =>
    cases value with
    | array values =>
      have hstring : ∀ value ∈ values, ∀ other, Deep.strictEquals value other = true ↔ other = value := by
        intro value hmem other
        have hvalue : isNonEmptyString value = true := List.all_eq_true.mp hwanted value hmem
        cases value with
        | string s => exact strictEquals_string_iff
        | _ => cases hvalue
      rw [QueryEventData.isListed, List.any_eq_true, IsOneOf]
      simp only [Option.any_eq_true, Option.some.injEq, Value.array.injEq, forall_eq']
      constructor
      · rintro ⟨value, hmem, other, hget, hequals⟩
        rw [(hstring value hmem other).mp hequals] at hget
        exact ⟨value, hmem, hget⟩
      · rintro ⟨value, hmem, hget⟩
        exact ⟨value, hmem, value, hget, (hstring value hmem value).mpr rfl⟩
    | _ => cases hwanted

theorem isTruthy_iff (hwanted : wanted.all isString = true) :
    isTruthy wanted = true ↔ wanted ≠ none ∧ wanted ≠ some (.string []) := by
  cases wanted with
  | none => simp [isTruthy]
  | some value =>
    cases value with
    | string s => simp [isTruthy]
    | _ => cases hwanted

theorem equals_of_ne_empty (h : wanted ≠ none ∧ wanted ≠ some (.string []) → Equals wanted object name)
    (hempty : wanted ≠ some (.string [])) : Equals wanted object name := by
  cases wanted with
  | none => exact nofun
  | some value => exact h ⟨nofun, hempty⟩

theorem isOneOf_of_isSome (h : wanted.isSome = true → IsOneOf wanted object name) : IsOneOf wanted object name := by
  cases wanted with
  | none => exact nofun
  | some value => exact h rfl

theorem all_of_any {p : Value → Bool} (h : wanted.any p = true) : wanted.all p = true := by
  obtain ⟨value, rfl, hvalue⟩ := (Option.any_eq_true _ _).mp h
  exact hvalue

theorem isStringArray_of_isCoreTypeArray (h : wanted.all isCoreTypeArray = true) : wanted.all isStringArray = true := by
  cases wanted with
  | none => rfl
  | some value => exact (Bool.and_eq_true _ _).mp h |>.1

end Restrictions

theorem isTruthy_value (object : CoatyObject) : isTruthy (some object.value) = true := by
  obtain ⟨value, hobject⟩ := object
  cases value with
  | object properties => rfl
  | _ => cases hobject

theorem get_ne_empty {object : CoatyObject} {name : String} (hname : name = "objectId" ∨ name = "externalId") :
    object.value.get (text name) ≠ some (.string []) := by
  intro hget
  have hany := isAnyObject_of_isObject object.isObject
  simp only [isAnyObject, Bool.and_eq_true, List.all_cons] at hany
  obtain rfl | rfl := hname
  · have hid := hany.1.1.2
    rw [hasProperty, Checkable.get_value, hget] at hid
    cases hid
  · have hid := hany.1.2.2.1
    rw [hasOptional, Checkable.get_value, hget] at hid
    cases hid

namespace DiscoverEventData

variable (data : DiscoverEventData) {object : CoatyObject}

theorem isString_objectId : data.objectId.all isString = true := by
  obtain ⟨h, _⟩ | ⟨_, h, _⟩ | ⟨h, _⟩ | ⟨h, _⟩ := data.valid
  · exact all_of_any h
  · rw [h, Option.all_none]
  · exact all_of_any h
  · rw [h, Option.all_none]

theorem isString_externalId : data.externalId.all isString = true := by
  obtain ⟨_, h, _⟩ | ⟨h, _⟩ | ⟨_, h, _⟩ | ⟨_, h, _⟩ := data.valid
  · rw [h, Option.all_none]
  · exact all_of_any h
  · exact all_of_any h
  · rw [h, Option.all_none]

theorem isStringArray_objectTypes : data.objectTypes.all isStringArray = true := by
  obtain ⟨_, _, h, _⟩ | ⟨_, _, h, _⟩ | ⟨_, _, h, _⟩ | ⟨_, _, ⟨h, _⟩ | ⟨_, h⟩⟩ := data.valid
  · rw [h, Option.all_none]
  · exact h
  · rw [h, Option.all_none]
  · rw [h, Option.all_none]
  · exact all_of_any h

theorem isStringArray_coreTypes : data.coreTypes.all isStringArray = true := by
  obtain ⟨_, _, _, h⟩ | ⟨_, _, _, h⟩ | ⟨_, _, _, h⟩ | ⟨_, _, ⟨_, h⟩ | ⟨h, _⟩⟩ := data.valid
  · rw [h, Option.all_none]
  · exact isStringArray_of_isCoreTypeArray h
  · rw [h, Option.all_none]
  · exact isStringArray_of_isCoreTypeArray (all_of_any h)
  · rw [h, Option.all_none]

theorem matchesObject_iff : data.matchesObject (some object.value) = true ↔ data.IsSatisfied object := by
  rw [matchesObject, isTruthy_value, Bool.true_and]
  simp only [Option.bind_some, Bool.and_eq_true, isIdentified_iff data.isString_objectId,
    isIdentified_iff data.isString_externalId, isListed_iff data.isStringArray_coreTypes,
    isListed_iff data.isStringArray_objectTypes]
  constructor
  · rintro ⟨⟨⟨hobjectId, hexternalId⟩, hcoreType⟩, hobjectType⟩
    exact ⟨hobjectId, hexternalId, hcoreType, hobjectType⟩
  · intro h
    exact ⟨⟨⟨h.objectId, h.externalId⟩, h.coreType⟩, h.objectType⟩

/-- The check passes if the object meets all restrictions but those to an empty id. -/
structure IsSatisfiedButForEmptyIds (object : CoatyObject) : Prop where
  objectId : data.objectId ≠ some (.string []) → Equals data.objectId object "objectId"
  externalId : data.externalId ≠ some (.string []) → Equals data.externalId object "externalId"
  coreType : IsOneOf data.coreTypes object "coreType"
  objectType : IsOneOf data.objectTypes object "objectType"

theorem ensureValidResponseParameters_iff {response : ResolveEventData} (hresponse : response.object = some object.value) :
    data.ensureValidResponseParameters response = .ok () ↔ data.IsSatisfiedButForEmptyIds object := by
  rw [ensureValidResponseParameters]
  simp only [hresponse, seq_ok, throwUnless_ok, isTruthy_value, Bool.and_true, Option.bind_some,
    isIdentified_iff data.isString_objectId, isIdentified_iff data.isString_externalId,
    isListed_iff data.isStringArray_coreTypes, isListed_iff data.isStringArray_objectTypes,
    isTruthy_iff data.isString_objectId, isTruthy_iff data.isString_externalId]
  constructor
  · rintro ⟨hcoreType, hobjectType, hobjectId, hexternalId⟩
    refine ⟨?_, ?_, ?_, ?_⟩
    · exact equals_of_ne_empty hobjectId
    · exact equals_of_ne_empty hexternalId
    · exact isOneOf_of_isSome hcoreType
    · exact isOneOf_of_isSome hobjectType
  · intro h
    exact ⟨fun _ => h.coreType, fun _ => h.objectType, fun hid => h.objectId hid.2, fun hid => h.externalId hid.2⟩

/-- Responders and requesters judge the object alike. -/
structure JudgesAlike (object : CoatyObject) : Prop where
  decides : data.matchesObject (some object.value) = true ↔ data.IsSatisfied object
  accepts : data.matchesObject (some object.value) = true → ∀ response : ResolveEventData,
    response.object = some object.value → data.ensureValidResponseParameters response = .ok ()
  rejects : ¬data.IsSatisfied object → ∀ response : ResolveEventData,
    response.object = some object.value → data.ensureValidResponseParameters response ≠ .ok ()

def HasNoEmptyId : Prop := data.objectId ≠ some (.string []) ∧ data.externalId ≠ some (.string [])

variable {data}

theorem IsSatisfied.butForEmptyIds (h : data.IsSatisfied object) : data.IsSatisfiedButForEmptyIds object :=
  ⟨fun _ => h.objectId, fun _ => h.externalId, h.coreType, h.objectType⟩

theorem isSatisfied_of_hasNoEmptyId (hid : data.HasNoEmptyId) (h : data.IsSatisfiedButForEmptyIds object) :
    data.IsSatisfied object :=
  ⟨h.objectId hid.1, h.externalId hid.2, h.coreType, h.objectType⟩

theorem IsSatisfied.hasNoEmptyId (h : data.IsSatisfied object) : data.HasNoEmptyId :=
  ⟨fun hid => get_ne_empty (.inl rfl) (h.objectId _ hid), fun hid => get_ne_empty (.inr rfl) (h.externalId _ hid)⟩

theorem judgesAlike_of (h : data.HasNoEmptyId ∨ ¬data.IsSatisfiedButForEmptyIds object) : data.JudgesAlike object := by
  refine ⟨data.matchesObject_iff, ?_, ?_⟩
  · intro hmatches response hresponse
    rw [data.ensureValidResponseParameters_iff hresponse]
    exact (data.matchesObject_iff.mp hmatches).butForEmptyIds
  · intro hunsatisfied response hresponse
    rw [Ne, data.ensureValidResponseParameters_iff hresponse]
    obtain hid | hfails := h
    · exact fun hbut => hunsatisfied (isSatisfied_of_hasNoEmptyId hid hbut)
    · exact hfails

theorem of_judgesAlike (h : data.JudgesAlike object) : data.HasNoEmptyId ∨ ¬data.IsSatisfiedButForEmptyIds object := by
  by_cases hsatisfied : data.IsSatisfied object
  · exact .inl hsatisfied.hasNoEmptyId
  · have hvalid : isValidPrivateData none = true ∧
        ((none = (none : Option Value) ∧ (some object.value).any isObject = true) ∨
          (some object.value = none ∧ (none : Option Value).any isObjectArray = true) ∨
          ((some object.value).any isObject = true ∧ (none : Option Value).any isObjectArray = true)) :=
      ⟨rfl, .inl ⟨rfl, object.isObject⟩⟩
    have hrejects := h.rejects hsatisfied ⟨some object.value, none, none, hvalid⟩ rfl
    rw [Ne, data.ensureValidResponseParameters_iff rfl] at hrejects
    exact .inr hrejects

end DiscoverEventData

namespace QueryEventData

variable (data : QueryEventData) {objects : List CoatyObject}

theorem isStringArray_objectTypes : data.objectTypes.all isStringArray = true := by
  obtain ⟨h, _⟩ | ⟨_, h⟩ := data.valid.2.2
  · rw [h, Option.all_none]
  · exact all_of_any h

theorem isStringArray_coreTypes : data.coreTypes.all isStringArray = true := by
  obtain ⟨_, h⟩ | ⟨h, _⟩ := data.valid.2.2
  · exact isStringArray_of_isCoreTypeArray (all_of_any h)
  · rw [h, Option.all_none]

theorem ensureValidObject_iff {object : CoatyObject} :
    data.ensureValidObject object.value = .ok () ↔
      IsOneOf data.coreTypes object "coreType" ∧ IsOneOf data.objectTypes object "objectType" := by
  rw [ensureValidObject, seq_ok, throwUnless_ok, throwUnless_ok, isListed_iff data.isStringArray_coreTypes,
    isListed_iff data.isStringArray_objectTypes]
  constructor
  · exact fun h => ⟨isOneOf_of_isSome h.1, isOneOf_of_isSome h.2⟩
  · exact fun h => ⟨fun _ => h.1, fun _ => h.2⟩

theorem ensureValidResponseParameters_iff {response : RetrieveEventData}
    (hresponse : response.objects = some (.array (objects.map CoatyObject.value))) :
    data.ensureValidResponseParameters response = .ok () ↔
      ∀ object ∈ objects, IsOneOf data.coreTypes object "coreType" ∧ IsOneOf data.objectTypes object "objectType" := by
  have hlist : response.objectList = objects.map CoatyObject.value := by rw [RetrieveEventData.objectList, hresponse]
  rw [ensureValidResponseParameters, hlist]
  clear hresponse hlist
  induction objects with
  | nil => exact iff_of_true rfl (List.forall_mem_nil _)
  | cons object objects ih =>
    rw [List.map_cons, List.forM_cons, seq_ok, data.ensureValidObject_iff, List.forall_mem_cons]
    exact and_congr_right' ih

/-- Responders and requesters judge the objects alike that a response carries. -/
structure JudgesAlike (engine : Engine) (objects : List CoatyObject) : Prop where
  decides : ∀ object ∈ objects,
    data.matchesObject engine (some object.value) = .ok true ↔ data.IsSatisfied engine object
  accepts : (∀ object ∈ objects, data.matchesObject engine (some object.value) = .ok true) →
    ∀ response : RetrieveEventData, response.objects = some (.array (objects.map CoatyObject.value)) →
      data.ensureValidResponseParameters response = .ok ()

variable {data}

theorem matchesObject_value (engine : Engine) (object : CoatyObject) :
    data.matchesObject engine (some object.value) = .ok true := by
  rw [matchesObject_eq, isTruthy_value]

/-- Every object passes for one that is asked for. -/
theorem judgesAlike_iff_isSatisfied {engine : Engine} :
    data.JudgesAlike engine objects ↔ ∀ object ∈ objects, data.IsSatisfied engine object := by
  constructor
  · intro h object hmem
    exact (h.decides object hmem).mp (matchesObject_value engine object)
  · intro h
    refine ⟨?_, ?_⟩
    · intro object hmem
      exact iff_of_true (matchesObject_value engine object) (h object hmem)
    · intro _ response hresponse
      rw [data.ensureValidResponseParameters_iff hresponse]
      exact fun object hmem => ⟨(h object hmem).coreType, (h object hmem).objectType⟩

end QueryEventData

open DiscoverEventData QueryEventData

def userQuery : QueryEventData where
  objectTypes := none
  coreTypes := some (.array [.string (text "User")])
  objectFilter := some (.object [])
  objectJoinConditions := none
  valid := ⟨rfl, rfl, .inl ⟨rfl, rfl⟩⟩

def unnamedDiscovery : DiscoverEventData where
  externalId := some (.string [])
  objectId := none
  objectTypes := none
  coreTypes := none
  valid := .inr (.inl ⟨rfl, rfl, rfl, rfl⟩)

end EventData

end Coaty
