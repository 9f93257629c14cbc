import Coaty.Com.Associate
import Coaty.Model.CoreTypes
import Coaty.Model.IoNode
import Coaty.Model.ObjectFilter

/-!
# Event data on the wire

The data classes of the twelve kinds of communication events. A constructor takes optional values and throws unless they are valid, so the data of a class is its values with their validity. `toJsonObject` writes the properties of the JSON object that is published, and `createFrom` reads the ones it passes on to the constructor.
-/

namespace Coaty

open Js Value CoreTypes

/-- A constructor that throws unless its arguments are valid. -/
def construct {Data : Type} {valid : Prop} [Decidable valid] (data : valid → Data) : Except Error Data :=
  if h : valid then .ok (data h) else .error .typeError

namespace EventData

def isValidPrivateData : Option Value → Bool := Option.all isPlainObject

/-! ### One-way events -/

structure AdvertiseEventData where
  object : Option Value
  privateData : Option Value
  valid : object.any isObject = true ∧ isValidPrivateData privateData = true

namespace AdvertiseEventData

def toJsonObject (data : AdvertiseEventData) : List (Text × Option Value) :=
  [(text "object", data.object), (text "privateData", data.privateData)]

def create (object privateData : Option Value) : Except Error AdvertiseEventData :=
  construct fun valid => ⟨object, privateData, valid⟩

def createFrom (eventData : Value) : Except Error AdvertiseEventData := do
  create (← eventData.read "object") (← eventData.read "privateData")

theorem createFrom_jsonImage (data : AdvertiseEventData) :
    createFrom (jsonImage data.toJsonObject) = .ok data := by
  have hread := @read_jsonImage data.toJsonObject (show [text "object", text "privateData"].Nodup by decide)
  rw [createFrom, hread, hread]
  show create data.object data.privateData = _
  exact dif_pos data.valid

end AdvertiseEventData

structure DeadvertiseEventData where
  objectIds : Option Value
  valid : objectIds.any isStringArray = true

namespace DeadvertiseEventData

def toJsonObject (data : DeadvertiseEventData) : List (Text × Option Value) :=
  [(text "objectIds", data.objectIds)]

def create (objectIds : Option Value) : Except Error DeadvertiseEventData :=
  construct fun valid => ⟨objectIds, valid⟩

def createFrom (eventData : Value) : Except Error DeadvertiseEventData := do
  create (← eventData.read "objectIds")

theorem createFrom_jsonImage (data : DeadvertiseEventData) :
    createFrom (jsonImage data.toJsonObject) = .ok data := by
  have hread := @read_jsonImage data.toJsonObject (show [text "objectIds"].Nodup by decide)
  rw [createFrom, hread]
  show create data.objectIds = _
  exact dif_pos data.valid

end DeadvertiseEventData

structure ChannelEventData where
  object : Option Value
  objects : Option Value
  privateData : Option Value
  valid : isValidPrivateData privateData = true ∧
    ((objects = none ∧ object.any isObject = true) ∨ (object = none ∧ objects.any isObjectArray = true))

namespace ChannelEventData

def toJsonObject (data : ChannelEventData) : List (Text × Option Value) :=
  [(text "object", data.object), (text "objects", data.objects), (text "privateData", data.privateData)]

def create (object objects privateData : Option Value) : Except Error ChannelEventData :=
  construct fun valid => ⟨object, objects, privateData, valid⟩

def createFrom (eventData : Value) : Except Error ChannelEventData := do
  create (← eventData.read "object") (← eventData.read "objects") (← eventData.read "privateData")

theorem createFrom_jsonImage (data : ChannelEventData) :
    createFrom (jsonImage data.toJsonObject) = .ok data := by
  have hread := @read_jsonImage data.toJsonObject (show [text "object", text "objects", text "privateData"].Nodup by decide)
  rw [createFrom, hread, hread, hread]
  show create data.object data.objects data.privateData = _
  exact dif_pos data.valid

end ChannelEventData

structure AssociateEventData where
  ioSourceId : Option Value
  ioActorId : Option Value
  associatingRoute : Option Value
  isExternalRoute : Option Value
  updateRate : Option Value
  valid : ioSourceId.any isNonEmptyString = true ∧ ioActorId.any isNonEmptyString = true ∧
    associatingRoute.all isNonEmptyString = true ∧ updateRate.all isNumber = true

namespace AssociateEventData

def ofTyped (data : Coaty.AssociateEventData Rat) : AssociateEventData where
  ioSourceId := some (.string data.ioSourceId.val)
  ioActorId := some (.string data.ioActorId.val)
  associatingRoute := data.associatingRoute.map fun route => .string route.val
  isExternalRoute := data.isExternalRoute.map .bool
  updateRate := data.updateRate.map .number
  valid := by
    have hid : ∀ id : NonEmptyText, isNonEmptyString (.string id.val) = true := by
      intro id
      simpa [isNonEmptyString] using id.property
    refine ⟨hid _, hid _, ?_, ?_⟩
    · cases data.associatingRoute with
      | none => rfl
      | some route => exact hid route
    · cases data.updateRate <;> rfl

def toJsonObject (data : AssociateEventData) : List (Text × Option Value) :=
  [(text "ioSourceId", data.ioSourceId), (text "ioActorId", data.ioActorId),
    (text "associatingRoute", data.associatingRoute), (text "updateRate", data.updateRate)]

def create (ioSourceId ioActorId associatingRoute isExternalRoute updateRate : Option Value) :
    Except Error AssociateEventData :=
  construct fun valid => ⟨ioSourceId, ioActorId, associatingRoute, isExternalRoute, updateRate, valid⟩

def createFrom (eventData : Value) : Except Error AssociateEventData := do
  create (← eventData.read "ioSourceId") (← eventData.read "ioActorId") (← eventData.read "associatingRoute")
    (← eventData.read "isExternalRoute") (← eventData.read "updateRate")

/-- The flag of an external route is read but not written. -/
theorem createFrom_jsonImage (data : AssociateEventData) :
    createFrom (jsonImage data.toJsonObject) = .ok { data with isExternalRoute := none } := by
  have hread := @read_jsonImage data.toJsonObject (show [text "ioSourceId", text "ioActorId", text "associatingRoute", text "updateRate"].Nodup by decide)
  rw [createFrom, hread, hread, hread, hread, hread]
  show create data.ioSourceId data.ioActorId data.associatingRoute none data.updateRate = _
  exact dif_pos data.valid

/-- Typed data arrives as the typed decoder has it. -/
theorem createFrom_ofTyped (data : Coaty.AssociateEventData Rat) :
    createFrom (jsonImage (ofTyped data).toJsonObject) = .ok (ofTyped data.received) :=
  createFrom_jsonImage (ofTyped data)

end AssociateEventData

/-! ### Two-way events -/

structure DiscoverEventData where
  externalId : Option Value
  objectId : Option Value
  objectTypes : Option Value
  coreTypes : Option Value
  valid :
    (objectId.any isString = true ∧ externalId = none ∧ objectTypes = none ∧ coreTypes = none) ∨
      (externalId.any isString = true ∧ objectId = none ∧ objectTypes.all isStringArray = true ∧
        coreTypes.all isCoreTypeArray = true) ∨
      (objectId.any isString = true ∧ externalId.any isString = true ∧ objectTypes = none ∧ coreTypes = none) ∨
      (objectId = none ∧ externalId = none ∧
        ((objectTypes = none ∧ coreTypes.any isCoreTypeArray = true) ∨
          (coreTypes = none ∧ objectTypes.any isStringArray = true)))

namespace DiscoverEventData

def toJsonObject (data : DiscoverEventData) : List (Text × Option Value) :=
  [(text "externalId", data.externalId), (text "objectId", data.objectId),
    (text "objectTypes", data.objectTypes), (text "coreTypes", data.coreTypes)]

def create (externalId objectId objectTypes coreTypes : Option Value) : Except Error DiscoverEventData :=
  construct fun valid => ⟨externalId, objectId, objectTypes, coreTypes, valid⟩

def createFrom (eventData : Value) : Except Error DiscoverEventData := do
  create (← eventData.read "externalId") (← eventData.read "objectId") (← eventData.read "objectTypes")
    (← eventData.read "coreTypes")

theorem createFrom_jsonImage (data : DiscoverEventData) :
    createFrom (jsonImage data.toJsonObject) = .ok data := by
  have hread := @read_jsonImage data.toJsonObject (show [text "externalId", text "objectId", text "objectTypes", text "coreTypes"].Nodup by decide)
  rw [createFrom, hread, hread, hread, hread]
  show create data.externalId data.objectId data.objectTypes data.coreTypes = _
  exact dif_pos data.valid

end DiscoverEventData

structure ResolveEventData where
  object : Option Value
  relatedObjects : Option Value
  privateData : Option Value
  valid : isValidPrivateData privateData = true ∧
    ((relatedObjects = none ∧ object.any isObject = true) ∨
      (object = none ∧ relatedObjects.any isObjectArray = true) ∨
      (object.any isObject = true ∧ relatedObjects.any isObjectArray = true))

namespace ResolveEventData

def toJsonObject (data : ResolveEventData) : List (Text × Option Value) :=
  [(text "object", data.object), (text "relatedObjects", data.relatedObjects),
    (text "privateData", data.privateData)]

def create (object relatedObjects privateData : Option Value) : Except Error ResolveEventData :=
  construct fun valid => ⟨object, relatedObjects, privateData, valid⟩

def createFrom (eventData : Value) : Except Error ResolveEventData := do
  create (← eventData.read "object") (← eventData.read "relatedObjects") (← eventData.read "privateData")

theorem createFrom_jsonImage (data : ResolveEventData) :
    createFrom (jsonImage data.toJsonObject) = .ok data := by
  have hread := @read_jsonImage data.toJsonObject (show [text "object", text "relatedObjects", text "privateData"].Nodup by decide)
  rw [createFrom, hread, hread, hread]
  show create data.object data.relatedObjects data.privateData = _
  exact dif_pos data.valid

end ResolveEventData

structure QueryEventData where
  objectTypes : Option Value
  coreTypes : Option Value
  objectFilter : Option Value
  objectJoinConditions : Option Value
  valid : isObjectFilterValid objectFilter = .ok true ∧ areObjectJoinConditionsValid objectJoinConditions = true ∧
    ((objectTypes = none ∧ coreTypes.any isCoreTypeArray = true) ∨
      (coreTypes = none ∧ objectTypes.any isStringArray = true))

namespace QueryEventData

def toJsonObject (data : QueryEventData) : List (Text × Option Value) :=
  [(text "objectTypes", data.objectTypes), (text "coreTypes", data.coreTypes),
    (text "objectFilter", data.objectFilter), (text "objectJoinConditions", data.objectJoinConditions)]

def create (objectTypes coreTypes objectFilter objectJoinConditions : Option Value) :
    Except Error QueryEventData :=
  construct fun valid => ⟨objectTypes, coreTypes, objectFilter, objectJoinConditions, valid⟩

def createFrom (eventData : Value) : Except Error QueryEventData := do
  create (← eventData.read "objectTypes") (← eventData.read "coreTypes") (← eventData.read "objectFilter")
    (← eventData.read "objectJoinConditions")

theorem createFrom_jsonImage (data : QueryEventData) :
    createFrom (jsonImage data.toJsonObject) = .ok data := by
  have hread := @read_jsonImage data.toJsonObject (show [text "objectTypes", text "coreTypes", text "objectFilter", text "objectJoinConditions"].Nodup by decide)
  rw [createFrom, hread, hread, hread, hread]
  show create data.objectTypes data.coreTypes data.objectFilter data.objectJoinConditions = _
  exact dif_pos data.valid

end QueryEventData

structure RetrieveEventData where
  objects : Option Value
  privateData : Option Value
  valid : isValidPrivateData privateData = true ∧ objects.any isObjectArray = true

namespace RetrieveEventData

def toJsonObject (data : RetrieveEventData) : List (Text × Option Value) :=
  [(text "objects", data.objects), (text "privateData", data.privateData)]

def create (objects privateData : Option Value) : Except Error RetrieveEventData :=
  construct fun valid => ⟨objects, privateData, valid⟩

def createFrom (eventData : Value) : Except Error RetrieveEventData := do
  create (← eventData.read "objects") (← eventData.read "privateData")

theorem createFrom_jsonImage (data : RetrieveEventData) :
    createFrom (jsonImage data.toJsonObject) = .ok data := by
  have hread := @read_jsonImage data.toJsonObject (show [text "objects", text "privateData"].Nodup by decide)
  rw [createFrom, hread, hread]
  show create data.objects data.privateData = _
  exact dif_pos data.valid

end RetrieveEventData

structure UpdateEventData where
  object : Option Value
  valid : object.any isObject = true

namespace UpdateEventData

def toJsonObject (data : UpdateEventData) : List (Text × Option Value) :=
  [(text "object", data.object)]

def create (object : Option Value) : Except Error UpdateEventData :=
  construct fun valid => ⟨object, valid⟩

def createFrom (eventData : Value) : Except Error UpdateEventData := do
  create (← eventData.read "object")

theorem createFrom_jsonImage (data : UpdateEventData) :
    createFrom (jsonImage data.toJsonObject) = .ok data := by
  have hread := @read_jsonImage data.toJsonObject (show [text "object"].Nodup by decide)
  rw [createFrom, hread]
  show create data.object = _
  exact dif_pos data.valid

end UpdateEventData

structure CompleteEventData where
  object : Option Value
  privateData : Option Value
  valid : object.any isObject = true ∧ isValidPrivateData privateData = true

namespace CompleteEventData

def toJsonObject (data : CompleteEventData) : List (Text × Option Value) :=
  [(text "object", data.object), (text "privateData", data.privateData)]

def create (object privateData : Option Value) : Except Error CompleteEventData :=
  construct fun valid => ⟨object, privateData, valid⟩

def createFrom (eventData : Value) : Except Error CompleteEventData := do
  create (← eventData.read "object") (← eventData.read "privateData")

theorem createFrom_jsonImage (data : CompleteEventData) :
    createFrom (jsonImage data.toJsonObject) = .ok data := by
  have hread := @read_jsonImage data.toJsonObject (show [text "object", text "privateData"].Nodup by decide)
  rw [createFrom, hread, hread]
  show create data.object data.privateData = _
  exact dif_pos data.valid

end CompleteEventData

structure CallEventData where
  parameters : Option Value
  filter : Option Value
  valid : (parameters.all fun parameters => isArray parameters || isPlainObject parameters) = true ∧
    isContextFilterValid filter = true

namespace CallEventData

def toJsonObject (data : CallEventData) : List (Text × Option Value) :=
  [(text "parameters", data.parameters), (text "filter", data.filter)]

def create (parameters filter : Option Value) : Except Error CallEventData :=
  construct fun valid => ⟨parameters, filter, valid⟩

/-- The property `filter` of an array is a function, which is no valid filter. -/
def createFrom : Value → Except Error CallEventData
  | .array _ => .error .typeError
  | eventData => do
    create (← eventData.read "parameters") (← eventData.read "filter")

theorem createFrom_jsonImage (data : CallEventData) :
    createFrom (jsonImage data.toJsonObject) = .ok data := by
  have hread := @read_jsonImage data.toJsonObject (show [text "parameters", text "filter"].Nodup by decide)
  show (do create (← (jsonImage data.toJsonObject).read "parameters") (← (jsonImage data.toJsonObject).read "filter")) = _
  rw [hread, hread]
  show create data.parameters data.filter = _
  exact dif_pos data.valid

end CallEventData

structure ReturnEventData where
  result : Option Value
  error : Option Value
  executionInfo : Option Value
  valid : ¬ (result = none ∧ error = none) ∧ ¬ (result ≠ none ∧ error ≠ none) ∧
    (error.all fun error => isPlainObject error && (error.get (text "code")).isSome &&
      (error.get (text "message")).isSome) = true

namespace ReturnEventData

def toJsonObject (data : ReturnEventData) : List (Text × Option Value) :=
  [(text "result", data.result), (text "error", data.error), (text "executionInfo", data.executionInfo)]

def create (result error executionInfo : Option Value) : Except Error ReturnEventData :=
  construct fun valid => ⟨result, error, executionInfo, valid⟩

def createFrom (eventData : Value) : Except Error ReturnEventData := do
  create (← eventData.read "result") (← eventData.read "error") (← eventData.read "executionInfo")

theorem createFrom_jsonImage (data : ReturnEventData) :
    createFrom (jsonImage data.toJsonObject) = .ok data := by
  have hread := @read_jsonImage data.toJsonObject (show [text "result", text "error", text "executionInfo"].Nodup by decide)
  rw [createFrom, hread, hread, hread]
  show create data.result data.error data.executionInfo = _
  exact dif_pos data.valid

end ReturnEventData

end EventData

open EventData

/-! ### Data of any event -/

inductive CommunicationEventData where
  | advertise (data : AdvertiseEventData)
  | deadvertise (data : DeadvertiseEventData)
  | channel (data : ChannelEventData)
  | associate (data : EventData.AssociateEventData)
  | discover (data : DiscoverEventData)
  | resolve (data : ResolveEventData)
  | query (data : QueryEventData)
  | retrieve (data : RetrieveEventData)
  | update (data : UpdateEventData)
  | complete (data : CompleteEventData)
  | call (data : CallEventData)
  | returnEvent (data : ReturnEventData)

namespace CommunicationEventData

def eventType : CommunicationEventData → CommunicationEventType
  | advertise _ => .advertise
  | deadvertise _ => .deadvertise
  | channel _ => .channel
  | associate _ => .associate
  | discover _ => .discover
  | resolve _ => .resolve
  | query _ => .query
  | retrieve _ => .retrieve
  | update _ => .update
  | complete _ => .complete
  | call _ => .call
  | returnEvent _ => .returnEvent

def toJsonObject : CommunicationEventData → List (Text × Option Value)
  | advertise data => data.toJsonObject
  | deadvertise data => data.toJsonObject
  | channel data => data.toJsonObject
  | associate data => data.toJsonObject
  | discover data => data.toJsonObject
  | resolve data => data.toJsonObject
  | query data => data.toJsonObject
  | retrieve data => data.toJsonObject
  | update data => data.toJsonObject
  | complete data => data.toJsonObject
  | call data => data.toJsonObject
  | returnEvent data => data.toJsonObject

/-- The switch of `_createEventInstance` over the events with JSON data. -/
def createFrom (eventType : CommunicationEventType) (eventData : Value) : Except Error CommunicationEventData :=
  match eventType with
  | .advertise => (AdvertiseEventData.createFrom eventData).map advertise
  | .deadvertise => (DeadvertiseEventData.createFrom eventData).map deadvertise
  | .channel => (ChannelEventData.createFrom eventData).map channel
  | .associate => (EventData.AssociateEventData.createFrom eventData).map associate
  | .discover => (DiscoverEventData.createFrom eventData).map discover
  | .resolve => (ResolveEventData.createFrom eventData).map resolve
  | .query => (QueryEventData.createFrom eventData).map query
  | .retrieve => (RetrieveEventData.createFrom eventData).map retrieve
  | .update => (UpdateEventData.createFrom eventData).map update
  | .complete => (CompleteEventData.createFrom eventData).map complete
  | .call => (CallEventData.createFrom eventData).map call
  | .returnEvent => (ReturnEventData.createFrom eventData).map returnEvent
  | _ => .error .typeError

/-- The data that arrives when this data is published. -/
def received : CommunicationEventData → CommunicationEventData
  | associate data => associate { data with isExternalRoute := none }
  | data => data

def HasNoRouteFlag : CommunicationEventData → Prop
  | associate data => data.isExternalRoute = none
  | _ => True

theorem createFrom_jsonImage (data : CommunicationEventData) :
    createFrom data.eventType (jsonImage data.toJsonObject) = .ok data.received := by
  cases data with
  | advertise data => exact congrArg (Except.map advertise) data.createFrom_jsonImage
  | deadvertise data => exact congrArg (Except.map deadvertise) data.createFrom_jsonImage
  | channel data => exact congrArg (Except.map channel) data.createFrom_jsonImage
  | associate data => exact congrArg (Except.map associate) data.createFrom_jsonImage
  | discover data => exact congrArg (Except.map discover) data.createFrom_jsonImage
  | resolve data => exact congrArg (Except.map resolve) data.createFrom_jsonImage
  | query data => exact congrArg (Except.map query) data.createFrom_jsonImage
  | retrieve data => exact congrArg (Except.map retrieve) data.createFrom_jsonImage
  | update data => exact congrArg (Except.map update) data.createFrom_jsonImage
  | complete data => exact congrArg (Except.map complete) data.createFrom_jsonImage
  | call data => exact congrArg (Except.map call) data.createFrom_jsonImage
  | returnEvent data => exact congrArg (Except.map returnEvent) data.createFrom_jsonImage

theorem toJsonObject_received (data : CommunicationEventData) : data.received.toJsonObject = data.toJsonObject := by
  cases data <;> rfl

theorem received_eq_iff (data : CommunicationEventData) : data.received = data ↔ data.HasNoRouteFlag := by
  cases data with
  | associate data =>
    refine ⟨fun h => ?_, fun h => ?_⟩
    · exact (congrArg EventData.AssociateEventData.isExternalRoute (associate.inj h)).symm
    · obtain ⟨_, _, _, _, _, _⟩ := data
      cases h
      rfl
  | _ => exact iff_of_true rfl trivial

def externalAssociation : CommunicationEventData :=
  associate (.ofTyped ⟨thermometerId, displayId, some ⟨text "outdoor/temperature", by decide⟩, some true, none⟩)

end CommunicationEventData

end Coaty
