import Coaty.Com.EventData
import Coaty.Com.Mqtt.TopicRoundTrip
import Coaty.Com.RequestObservables
import Coaty.Model.CoatyObject

/-!
# Advertise and Update events by core type and object type

A published object goes out under its core type, and under its object type unless that is the core object type of its core type. An observer of a core object type subscribes to the core type instead and filters. So an object is missed that has the core object type of another core type. It is also missed if it is no object any more after it has been written as JSON, where `NaN` and infinite numbers become `null`.
-/

namespace Coaty

open Js Value CommunicationEvent CoreTypes EventData

/-- Event data is JSON. -/
instance jsonValue : Json Value where
  stringify := .ok
  parse := .ok

def objectTypeOf {D : Type} [Checkable D] (obj : D) : Text :=
  ((Checkable.get obj (text "objectType")).bind Checkable.string).getD []

/-! ### Publishing objects -/

/-- An object in memory with what `AdvertiseEvent.withObject` and `UpdateEvent.withObject` ask of it. -/
structure PublishedObject where
  value : MemoryValue
  isObject : isObjectInMemory value = true
  objectType_valid : isValidEventFilter (objectTypeOf value) = true

theorem isSome_coreTypeOf_inMemory {obj : MemoryValue} (h : isObjectInMemory obj = true) :
    (coreTypeOf obj).isSome = true := by
  cases obj with
  | object properties =>
    rw [isObjectInMemory] at h
    split at h
    · cases h
    · rename_i heq
      rw [heq]
      rfl
  | _ => cases h

namespace PublishedObject

variable (object : PublishedObject)

def coreType : CoreType := (coreTypeOf object.value).get (isSome_coreTypeOf_inMemory object.isObject)

def objectType : Text := objectTypeOf object.value

/-- What is received of the object. -/
def image : Value := object.value.image.getD .null

theorem image_eq : object.value.image = some object.image := by
  obtain ⟨value, hobject, _⟩ := object
  cases value with
  | object properties => rfl
  | _ => cases hobject

theorem objectTypeOf_image : objectTypeOf object.image = object.objectType :=
  congrArg (Option.getD · []) (MemoryValue.string_get_image object.image_eq (text "objectType"))

end PublishedObject

inductive ObjectEvent where
  | advertise (object : PublishedObject) (privateData : Option MemoryValue)
    (valid : privateData.all Checkable.isPlainObject = true)
  | update (object : PublishedObject)

namespace ObjectEvent

def object : ObjectEvent → PublishedObject
  | advertise object _ _ => object
  | update object => object

/-- The event data as it is written, by the properties that `toJsonObject` gives it. -/
def toJsonObject : ObjectEvent → List (Text × Option Value)
  | advertise object privateData _ =>
    [(text "object", some object.image), (text "privateData", privateData.bind MemoryValue.image)]
  | update object => [(text "object", some object.image)]

def requestType : ObjectEvent → RequestType
  | advertise _ _ _ => .advertise
  | update _ => .update

end ObjectEvent

/-- An agent with its binding and its identity, and the correlation ids that it creates for an update. -/
structure Publisher where
  binding : MqttBinding Value
  identityId : Text
  coreId : Text
  objectId : Text
  namespace_valid : isValidEventFilter binding.messagingNamespace = true
  identityId_valid : isValidEventFilter identityId = true
  coreId_valid : isValidEventFilter coreId = true
  objectId_valid : isValidEventFilter objectId = true

def objectTypeFilter (objectType : Text) : Text := unit ':' :: objectType

namespace Publisher

variable (publisher : Publisher)

def createEventLike (event : ObjectEvent) (eventTypeFilter correlationId : Option Text) :
    CommunicationEventLike Value where
  eventType := event.requestType.val
  eventTypeFilter := eventTypeFilter
  sourceId := some publisher.identityId
  correlationId := correlationId
  data := some (jsonImage event.toJsonObject)
  isDataRaw := false
  isExternalIoRoute := false
  retain := none

def publishAdvertise (event : ObjectEvent) : List (CommunicationEventLike Value) :=
  let coreType := event.object.coreType
  let objectType := event.object.objectType
  publisher.createEventLike event (some coreType.name) none ::
    if getObjectTypeFor coreType ≠ objectType then
      [publisher.createEventLike event (some (objectTypeFilter objectType)) none]
    else []

/-- What is published with the first subscription to the response observable, which merges two observables with a correlation id each. -/
def publishUpdate (event : ObjectEvent) : List (CommunicationEventLike Value) :=
  let coreType := event.object.coreType
  let objectType := event.object.objectType
  let coreCompletes := publisher.createEventLike event (some coreType.name) (some publisher.coreId)
  if getObjectTypeFor coreType ≠ objectType then
    [publisher.createEventLike event (some (objectTypeFilter objectType)) (some publisher.objectId), coreCompletes]
  else [coreCompletes]

def publish (event : ObjectEvent) : List (CommunicationEventLike Value) :=
  match event with
  | .advertise _ _ _ => publisher.publishAdvertise event
  | .update _ => publisher.publishUpdate event

end Publisher

/-! ### Dispatching requests -/

def eventObject : CommunicationEventData → Option Value
  | .advertise data => data.object
  | .update data => data.object
  | _ => none

/-- What the constructors of events check besides their data. -/
def isInstanceValid (eventTypeFilter : Option Text) : CommunicationEventData → Bool
  | .advertise data => (data.object.map objectTypeOf).any isValidEventFilter
  | .update data => (data.object.map objectTypeOf).any isValidEventFilter
  | .channel _ => eventTypeFilter.any isValidEventFilter
  | .call _ => eventTypeFilter.any isValidEventFilter
  | _ => true

def createEventInstance (event : InboundEvent Value) (eventType : CommunicationEventType) :
    Except Error CommunicationEventData := do
  let data ← CommunicationEventData.createFrom eventType event.data
  if isInstanceValid event.eventTypeFilter data then .ok data else .error .typeError

namespace Observables

def dispatchRequest (s : Observables Value) (event : InboundEvent Value) : Option (Nat × CommunicationEventData) := do
  let eventType ← event.eventType
  let observable ← s.observedRequests.get
    (getRequestId eventType (if eventType = .raw then event.correlationId else event.eventTypeFilter))
  let data ← (createEventInstance event eventType).toOption
  return (observable, data)

/-- Whether the broker sends a message on the topic to the agent. -/
def receives (s : Observables Value) (topicName : Text) : Bool :=
  s.binding.issuedKeys.any fun key => decide (Mqtt.Matches topicName key.2)

end Observables

/-! ### Observing objects -/

/-- A request observable, filtered by an object type if there is one. -/
structure ObjectObservable where
  observable : Nat
  objectType : Option Text

/-- What `_observeAdvertise` and `_observeUpdate` have in common. -/
def observeObjects (eventType : RequestType) (s : Observables Value) (coreType objectType : Option Text) :
    Except Error (Observables Value × Option ObjectObservable) :=
  if (coreType.any fun coreType => !coreType.isEmpty && !isCoreType coreType) ||
      (objectType.any fun objectType => !objectType.isEmpty && !isValidEventFilter objectType) then
    .error .typeError
  else
    let request (filter : Text) (objectType : Option Text) : Observables Value × Option ObjectObservable :=
      let s := s.observeRequest eventType (some filter)
      (s, (s.observableOf eventType (some filter)).map (⟨·, objectType⟩))
    match getCoreTypeFor (objectType.getD []) with
    | some objectCoreType => .ok (request objectCoreType.name objectType)
    | none => .ok (request (orElse coreType (objectTypeFilter (interpolate objectType))) none)

def observeAdvertise := observeObjects .advertise

def observeUpdate := observeObjects .update

namespace ObjectObservable

/-- Whether a dispatched event gets through the filter of the observable. -/
def accepts (o : ObjectObservable) (dispatched : Nat × CommunicationEventData) : Bool :=
  dispatched.1 = o.observable &&
    o.objectType.all fun objectType => (eventObject dispatched.2).map objectTypeOf = some objectType

/-- How many events the observable emits on a message. -/
def emitted (o : ObjectObservable) (s : Observables Value) (topicName : Text) (payload : Value) : Nat :=
  if s.receives topicName then
    ((MqttBinding.dispatchMessage (fun b _ => b) s.binding topicName payload).2.filterMap s.dispatchRequest).countP
      o.accepts
  else 0

/-- How many events it emits on what is published. -/
def emissions (o : ObjectObservable) (s : Observables Value) (publisher : Publisher) (event : ObjectEvent) : Nat :=
  ((publisher.publish event).map fun eventLike =>
    o.emitted s (publisher.binding.getTopicFor eventLike) (eventLike.data.getD .null)).sum

end ObjectObservable

/-! ### What an observable emits -/

theorem isValidEventFilter_name (coreType : CoreType) : isValidEventFilter coreType.name = true := by
  cases coreType <;> decide

theorem isValidEventFilter_objectTypeFilter {objectType : Text} (hvalid : isValidEventFilter objectType = true) :
    isValidEventFilter (objectTypeFilter objectType) = true := by
  have hcolon : (!illegalFilterChars.contains (unit ':')) = true := by decide
  simp only [isValidEventFilter, Bool.and_eq_true] at hvalid
  simp only [isValidEventFilter, objectTypeFilter, List.all_cons, List.isEmpty_cons, Bool.not_false, Bool.true_and,
    hcolon]
  exact hvalid.2

theorem name_ne_objectTypeFilter (coreType : CoreType) (objectType : Text) :
    coreType.name ≠ objectTypeFilter objectType := by
  intro h
  have hhead : coreType.name.head? = some (unit ':') := congrArg List.head? h
  cases coreType <;> exact absurd hhead (by decide)

structure Observes (s : Observables Value) (eventType : RequestType) (filter : Text) (o : ObjectObservable) : Prop where
  bound : s.RequestsBound
  registered : s.observedRequests.get (getRequestId eventType.val (some filter)) = some o.observable
  subscribed : (eventType.val, s.binding.eventTopicFilter eventType.val (some filter) none) ∈ s.binding.issuedKeys
  filter_valid : isValidEventFilter filter = true

namespace ObjectEvent

variable (event : ObjectEvent)

/-- What is received of the object passes the check of its receiver. -/
def IsReceivable : Prop := CoreTypes.isObject event.object.image = true

instance : Decidable event.IsReceivable := inferInstanceAs (Decidable (_ = true))

theorem isValidPrivateData_image {privateData : Option MemoryValue} (h : privateData.all Checkable.isPlainObject = true) :
    isValidPrivateData (privateData.bind MemoryValue.image) = true := by
  cases privateData with
  | none => rfl
  | some value =>
    cases value with
    | object properties => rfl
    | _ => cases h

/-- The data that a receiver makes of the event. -/
def received : (event : ObjectEvent) → event.IsReceivable → CommunicationEventData
  | advertise object privateData valid, h =>
    .advertise ⟨some object.image, privateData.bind MemoryValue.image, h, isValidPrivateData_image valid⟩
  | update object, h => .update ⟨some object.image, h⟩

variable {event} (h : event.IsReceivable)

theorem eventObject_received : eventObject (event.received h) = some event.object.image := by
  cases event <;> rfl

theorem isInstanceValid_received (eventTypeFilter : Option Text) :
    isInstanceValid eventTypeFilter (event.received h) = true := by
  have hvalid : isValidEventFilter (objectTypeOf event.object.image) = true := by
    rw [event.object.objectTypeOf_image]
    exact event.object.objectType_valid
  cases event with
  | advertise object _ _ => exact hvalid
  | update object => exact hvalid

theorem createEventInstance_received {inbound : InboundEvent Value} (hdata : inbound.data = jsonImage event.toJsonObject) :
    createEventInstance inbound event.requestType.val = .ok (event.received h) := by
  have hdecoded : CommunicationEventData.createFrom event.requestType.val (jsonImage event.toJsonObject) =
      .ok (event.received h) := by
    have hdecoded := (event.received h).createFrom_jsonImage
    cases event <;> exact hdecoded
  rw [createEventInstance, hdata, hdecoded]
  show (if isInstanceValid inbound.eventTypeFilter (event.received h) = true then _ else _) = _
  rw [if_pos (isInstanceValid_received h _)]

theorem createEventInstance_of_not (h : ¬ event.IsReceivable) {inbound : InboundEvent Value}
    (hdata : inbound.data = jsonImage event.toJsonObject) :
    createEventInstance inbound event.requestType.val = .error .typeError := by
  have hdecoded : CommunicationEventData.createFrom event.requestType.val (jsonImage event.toJsonObject) =
      .error .typeError := by
    cases event with
    | advertise object privateData valid =>
      have hread := @read_jsonImage (advertise object privateData valid).toJsonObject
        (show [text "object", text "privateData"].Nodup by decide)
      have hcreate : AdvertiseEventData.create (some object.image) (privateData.bind MemoryValue.image) = .error .typeError :=
        dif_neg fun hvalid => h hvalid.1
      show (AdvertiseEventData.createFrom _).map CommunicationEventData.advertise = _
      rw [AdvertiseEventData.createFrom, hread, hread]
      exact congrArg (Except.map _) hcreate
    | update object =>
      have hread := @read_jsonImage (update object).toJsonObject (show [text "object"].Nodup by decide)
      have hcreate : UpdateEventData.create (some object.image) = .error .typeError := dif_neg h
      show (UpdateEventData.createFrom _).map CommunicationEventData.update = _
      rw [UpdateEventData.createFrom, hread]
      exact congrArg (Except.map _) hcreate
  rw [createEventInstance, hdata, hdecoded]
  rfl

variable (event)

theorem requestType_eq : event.requestType.val = .advertise ∨ event.requestType.val = .update := by
  cases event with
  | advertise => exact Or.inl rfl
  | update => exact Or.inr rfl

theorem ne_ioValue : event.requestType.val ≠ .ioValue := by
  rcases event.requestType_eq with h | h <;> rw [h] <;> decide

theorem ne_raw : event.requestType.val ≠ .raw := by
  rcases event.requestType_eq with h | h <;> rw [h] <;> decide

end ObjectEvent

/-- The observer is in the namespace of the publisher or in all namespaces. -/
def SameNamespace (s : Observables Value) (messagingNamespace : Text) : Prop :=
  s.binding.shouldEnableCrossNamespacing = true ∨ s.binding.messagingNamespace = messagingNamespace

section

variable {s : Observables Value} {event : ObjectEvent} {filter : Text} {o : ObjectObservable}

/-- The broker sends what is published on the filter of an observable. -/
theorem Observes.receives (ho : Observes s event.requestType filter o) (t : TopicLevels)
    (hversion : t.version = MqttBinding.apiVersion) (htype : t.eventType = event.requestType.val)
    (hfilter : t.eventTypeFilter = some filter) (hnamespace : SameNamespace s t.messagingNamespace) :
    s.receives t.name = true := by
  have hvalid : ∀ f ∈ some filter, isValidEventFilter f = true := by
    intro f hf
    exact Option.some.inj hf ▸ ho.filter_valid
  have hnone : ∀ id ∈ (none : Option Text), isValidEventFilter id = true := by
    intro id hid
    cases hid
  have hscope : (if s.binding.shouldEnableCrossNamespacing then none else some s.binding.messagingNamespace) = none ∨
      (if s.binding.shouldEnableCrossNamespacing then none else some s.binding.messagingNamespace)
        = some t.messagingNamespace := by
    rcases hnamespace with hcross | hsame
    · exact Or.inl (if_pos hcross)
    · rw [hsame]
      split
      · exact Or.inl rfl
      · exact Or.inr rfl
  have hscoped : ∀ name ∈ if s.binding.shouldEnableCrossNamespacing then none else some s.binding.messagingNamespace,
      isValidEventFilter name = true := by
    intro name hname
    rcases hscope with hnone | hsome
    · rw [hnone] at hname
      cases hname
    · rw [hsome] at hname
      exact Option.some.inj hname ▸ t.namespace_valid
  have hsource : ∀ id ∈ some t.sourceId, IsLevel id := by
    intro id hid
    exact Option.some.inj hid ▸ (isValidEventFilter_iff.mp t.source_valid).2
  refine List.any_eq_true.mpr ⟨_, ho.subscribed, decide_eq_true ⟨?_, fun hreserved => ?_⟩⟩
  · refine (MqttTopic.levelsMatch_getTopicFilter (isValidEventFilter_iff.mp t.namespace_valid).2 hscoped t.filter_valid
      hvalid hsource (MqttTopic.isLevel_of_valid t.correlation_valid) hnone).mpr ⟨?_, hscope, ?_, fun _ => Or.inl rfl⟩
    · rw [hversion]
    · rw [htype, hfilter]
  · have hhead : t.name.head? = some (unit 'c') := by
      rw [TopicLevels.name, MqttTopic.getTopicName]
      split <;> rfl
    rw [hhead] at hreserved
    exact absurd hreserved (by decide)

/-- The event that a publication on a topic comes in as. -/
def inboundOf (t : TopicLevels) (event : ObjectEvent) : InboundEvent Value :=
  ⟨t.topic.eventType, t.topic.eventTypeFilter, t.topic.sourceId, t.topic.correlationId, jsonImage event.toJsonObject⟩

theorem dispatchMessage_eq (b : MqttBinding Value) (t : TopicLevels) (hversion : t.version = MqttBinding.apiVersion)
    (htype : t.eventType = event.requestType.val) :
    (MqttBinding.dispatchMessage (fun b _ => b) b t.name (jsonImage event.toJsonObject)).2 = [inboundOf t event] := by
  have hname : MqttTopic.createByName t.name = .ok (some t.topic) := t.createByName_name (by rw [hversion]; decide)
  have htopic : t.topic.eventType = some event.requestType.val := congrArg some htype
  rw [MqttBinding.dispatchMessage, hname]
  dsimp only
  rw [if_neg (by rw [htopic]; exact fun h => event.ne_ioValue (Option.some.inj h))]
  rfl

theorem emitted_of_not_receivable (s : Observables Value) (o : ObjectObservable) (h : ¬ event.IsReceivable) (t : TopicLevels)
    (hversion : t.version = MqttBinding.apiVersion) (htype : t.eventType = event.requestType.val) :
    o.emitted s t.name (jsonImage event.toJsonObject) = 0 := by
  have hdispatch : s.dispatchRequest (inboundOf t event) = none := by
    rw [Observables.dispatchRequest, show (inboundOf t event).eventType = some event.requestType.val from congrArg some htype]
    simp only [Option.bind_eq_bind, Option.bind_some,
      ObjectEvent.createEventInstance_of_not h (show (inboundOf t event).data = _ from rfl)]
    exact Option.bind_eq_none_iff.mpr fun _ _ => rfl
  rw [ObjectObservable.emitted, dispatchMessage_eq s.binding t hversion htype, List.filterMap_cons_none hdispatch]
  exact ite_self _

/-- An observable emits one event on a publication with its event filter if the object type passes, and none on any other. -/
theorem Observes.emitted (ho : Observes s event.requestType filter o) (hreceivable : event.IsReceivable) (t : TopicLevels)
    (hversion : t.version = MqttBinding.apiVersion) (htype : t.eventType = event.requestType.val)
    (hnamespace : SameNamespace s t.messagingNamespace) :
    o.emitted s t.name (jsonImage event.toJsonObject)
      = if t.eventTypeFilter = some filter ∧ o.objectType.all (event.object.objectType = ·) = true then 1 else 0 := by
  have htopic : (inboundOf t event).eventType = some event.requestType.val := congrArg some htype
  have hdispatch : s.dispatchRequest (inboundOf t event)
      = (s.observedRequests.get (getRequestId event.requestType.val t.eventTypeFilter)).map
          (·, event.received hreceivable) := by
    rw [Observables.dispatchRequest, htopic]
    simp only [Option.bind_eq_bind, Option.bind_some, if_neg event.ne_raw,
      ObjectEvent.createEventInstance_received hreceivable (show (inboundOf t event).data = _ from rfl)]
    show (s.observedRequests.get (getRequestId event.requestType.val t.eventTypeFilter)).bind _ = _
    cases s.observedRequests.get (getRequestId event.requestType.val t.eventTypeFilter) <;> rfl
  have haccepts : o.accepts (o.observable, event.received hreceivable) =
      o.objectType.all (event.object.objectType = ·) := by
    rw [ObjectObservable.accepts, ObjectEvent.eventObject_received, Bool.eq_iff_iff]
    cases o.objectType with
    | none => simp
    | some objectType =>
      simp only [Option.map_some, Option.some.injEq, Option.all_some, decide_true, Bool.true_and, decide_eq_true_iff,
        event.object.objectTypeOf_image]
  rw [ObjectObservable.emitted, dispatchMessage_eq s.binding t hversion htype]
  by_cases hfilter : t.eventTypeFilter = some filter
  · rw [if_pos (ho.receives t hversion htype hfilter hnamespace), List.filterMap_cons_some
      (hdispatch.trans (by rw [hfilter, ho.registered]; rfl)), List.filterMap_nil, List.countP_singleton, haccepts]
    simp [hfilter]
  · rw [if_neg (c := t.eventTypeFilter = some filter ∧ _) fun h => hfilter h.1]
    split
    · cases hget : s.observedRequests.get (getRequestId event.requestType.val t.eventTypeFilter) with
      | none =>
        rw [List.filterMap_cons_none (hdispatch.trans (by rw [hget]; rfl))]
        rfl
      | some other =>
        rw [List.filterMap_cons_some (hdispatch.trans (by rw [hget]; rfl)), List.filterMap_nil, List.countP_singleton,
          if_neg]
        intro haccepted
        -- Two requests on one item have one request id.
        obtain ⟨item, hitem, hid, _⟩ := ho.bound.registered _ _ hget
        obtain ⟨item', hitem', hid', _⟩ := ho.bound.registered _ _ ho.registered
        have hsame : other = o.observable := by
          simp only [ObjectObservable.accepts, Bool.and_eq_true, decide_eq_true_eq] at haccepted
          exact haccepted.1
        rw [hsame, hitem'] at hitem
        cases hitem
        have hlevel : t.eventTypeFilter.getD [] = filter := List.append_cancel_left (hid.symm.trans hid')
        cases hlisted : t.eventTypeFilter with
        | none =>
          rw [hlisted] at hlevel
          exact absurd ho.filter_valid (by rw [← hlevel]; decide)
        | some listed =>
          rw [hlisted] at hlevel
          exact hfilter (hlisted.trans (congrArg some hlevel))
    · rfl

/-- The topic of a publication with the given levels. -/
structure HasLevels (publisher : Publisher) (event : ObjectEvent) (eventLike : CommunicationEventLike Value)
    (t : TopicLevels) : Prop where
  name : publisher.binding.getTopicFor eventLike = t.name
  data : eventLike.data = some (jsonImage event.toJsonObject)
  version : t.version = MqttBinding.apiVersion
  eventType : t.eventType = event.requestType.val
  messagingNamespace : t.messagingNamespace = publisher.binding.messagingNamespace
  eventTypeFilter : t.eventTypeFilter = eventLike.eventTypeFilter

theorem exists_hasLevels (publisher : Publisher) (event : ObjectEvent) {published : Text} {correlationId : Option Text}
    (hpublished : isValidEventFilter published = true) (hcorrelation : ∀ id ∈ correlationId, isValidEventFilter id = true)
    (hpresent : correlationId.isSome = !MqttTopic.isOneWayEvent event.requestType.val) :
    ∃ t, HasLevels publisher event (publisher.createEventLike event (some published) correlationId) t := by
  refine ⟨{ version := MqttBinding.apiVersion
            messagingNamespace := publisher.binding.messagingNamespace
            eventType := event.requestType.val
            eventTypeFilter := some published
            sourceId := publisher.identityId
            correlationId := correlationId
            namespace_valid := publisher.namespace_valid
            eventType_level := by rcases event.requestType_eq with h | h <;> rw [h] <;> decide
            filter_valid := fun f hf => Option.some.inj hf ▸ hpublished
            source_valid := publisher.identityId_valid
            correlation_valid := hcorrelation
            correlation_present := hpresent }, ?_, rfl, rfl, rfl, rfl, rfl⟩
  cases event <;> rfl

theorem isValidEventFilter_of_mem_some {own : Text} (hown : isValidEventFilter own = true) :
    ∀ id ∈ some own, isValidEventFilter id = true :=
  fun _ hid => Option.some.inj hid ▸ hown

theorem exists_hasLevels_of_mem {publisher : Publisher} {eventLike : CommunicationEventLike Value}
    (hmem : eventLike ∈ publisher.publish event) : ∃ t, HasLevels publisher event eventLike t := by
  have hcore := isValidEventFilter_name event.object.coreType
  have hobject := isValidEventFilter_objectTypeFilter event.object.objectType_valid
  cases event with
  | advertise object privateData valid =>
    rw [Publisher.publish, Publisher.publishAdvertise] at hmem
    obtain rfl | hmem := List.mem_cons.mp hmem
    · exact exists_hasLevels publisher _ hcore nofun rfl
    · split at hmem
      · obtain rfl := List.mem_singleton.mp hmem
        exact exists_hasLevels publisher _ hobject nofun rfl
      · cases hmem
  | update object =>
    have hlevels : ∀ id, isValidEventFilter id = true → ∀ published, isValidEventFilter published = true →
        ∃ t, HasLevels publisher (.update object) (publisher.createEventLike (.update object) (some published) (some id)) t :=
      fun id hid published hpublished =>
        exists_hasLevels publisher _ hpublished (isValidEventFilter_of_mem_some hid) rfl
    rw [Publisher.publish, Publisher.publishUpdate] at hmem
    split at hmem
    · obtain rfl | hmem := List.mem_cons.mp hmem
      · exact hlevels _ publisher.objectId_valid _ hobject
      · obtain rfl := List.mem_singleton.mp hmem
        exact hlevels _ publisher.coreId_valid _ hcore
    · obtain rfl := List.mem_singleton.mp hmem
      exact hlevels _ publisher.coreId_valid _ hcore

theorem emissions_of_not_receivable (s : Observables Value) (o : ObjectObservable) (publisher : Publisher)
    (h : ¬ event.IsReceivable) : o.emissions s publisher event = 0 := by
  apply List.sum_eq_zero
  intro n hn
  obtain ⟨eventLike, hmem, rfl⟩ := List.mem_map.mp hn
  obtain ⟨t, ht⟩ := exists_hasLevels_of_mem hmem
  rw [ht.name, ht.data]
  exact emitted_of_not_receivable s o h t ht.version ht.eventType

theorem Observes.emissions (ho : Observes s event.requestType filter o) (hreceivable : event.IsReceivable)
    {publisher : Publisher} (hnamespace : SameNamespace s publisher.binding.messagingNamespace) :
    o.emissions s publisher event
      = (if event.object.coreType.name = filter ∧ o.objectType.all (event.object.objectType = ·) = true then 1 else 0) +
        if getObjectTypeFor event.object.coreType ≠ event.object.objectType ∧
            objectTypeFilter event.object.objectType = filter ∧ o.objectType.all (event.object.objectType = ·) = true
          then 1 else 0 := by
  have hpublication : ∀ (published : Text) (correlationId : Option Text), isValidEventFilter published = true →
      (∀ id ∈ correlationId, isValidEventFilter id = true) →
      correlationId.isSome = !MqttTopic.isOneWayEvent event.requestType.val →
      o.emitted s (publisher.binding.getTopicFor (publisher.createEventLike event (some published) correlationId))
          (jsonImage event.toJsonObject)
        = if published = filter ∧ o.objectType.all (event.object.objectType = ·) = true then 1 else 0 := by
    intro published correlationId hpublished hcorrelation hpresent
    obtain ⟨t, ht⟩ := exists_hasLevels publisher event hpublished hcorrelation hpresent
    rw [ht.name, ho.emitted hreceivable t ht.version ht.eventType (ht.messagingNamespace ▸ hnamespace), ht.eventTypeFilter]
    simp [Publisher.createEventLike]
  have hcore := isValidEventFilter_name event.object.coreType
  have hobject := isValidEventFilter_objectTypeFilter event.object.objectType_valid
  have hnone : ∀ id ∈ (none : Option Text), isValidEventFilter id = true := by
    intro id hid
    cases hid
  have hguard : ∀ {n : Nat}, getObjectTypeFor event.object.coreType ≠ event.object.objectType →
      n = (if objectTypeFilter event.object.objectType = filter ∧ o.objectType.all (event.object.objectType = ·) = true
        then 1 else 0) → n = if getObjectTypeFor event.object.coreType ≠ event.object.objectType ∧
          objectTypeFilter event.object.objectType = filter ∧ o.objectType.all (event.object.objectType = ·) = true
        then 1 else 0 := by
    intro n hne hn
    rw [hn, if_congr (and_iff_right hne) rfl rfl]
  rw [ObjectObservable.emissions]
  by_cases hne : getObjectTypeFor event.object.coreType ≠ event.object.objectType
  · cases event with
    | advertise object privateData valid =>
      have hfirst := hpublication _ none hcore hnone rfl
      have hsecond := hguard hne (hpublication _ none hobject hnone rfl)
      simp only [Publisher.publish, Publisher.publishAdvertise]
      rw [if_pos hne, List.map_cons, List.map_singleton, List.sum_cons, List.sum_singleton]
      exact congrArg₂ (· + ·) hfirst hsecond
    | update object =>
      have hfirst := hpublication _ (some publisher.coreId) hcore (isValidEventFilter_of_mem_some publisher.coreId_valid) rfl
      have hsecond := hguard hne (hpublication _ (some publisher.objectId) hobject
        (isValidEventFilter_of_mem_some publisher.objectId_valid) rfl)
      simp only [Publisher.publish, Publisher.publishUpdate]
      rw [if_pos hne, List.map_cons, List.map_singleton, List.sum_cons, List.sum_singleton, Nat.add_comm]
      exact congrArg₂ (· + ·) hfirst hsecond
  · rw [if_neg (c := getObjectTypeFor event.object.coreType ≠ event.object.objectType ∧ _) fun h => hne h.1, Nat.add_zero]
    cases event with
    | advertise object privateData valid =>
      simp only [Publisher.publish, Publisher.publishAdvertise]
      rw [if_neg hne, List.map_singleton, List.sum_singleton]
      exact hpublication _ none hcore hnone rfl
    | update object =>
      simp only [Publisher.publish, Publisher.publishUpdate]
      rw [if_neg hne, List.map_singleton, List.sum_singleton]
      exact hpublication _ (some publisher.coreId) hcore (isValidEventFilter_of_mem_some publisher.coreId_valid) rfl

end

/-! ### Publishers and observers -/

/-- Observing with the given types and subscribing gives an observable that emits `n` events on what is published. -/
def EmitsOn (s : Observables Value) (publisher : Publisher) (event : ObjectEvent) (coreType objectType : Option Text)
    (n : Nat) : Prop :=
  ∃ s' o, observeObjects event.requestType s coreType objectType = .ok (s', some o) ∧
    o.emissions (s'.subscribeRequest o.observable) publisher event = n

/-- Core type observers get the objects of their core type and object type observers those of their object type, each once. -/
def Agree (s : Observables Value) (publisher : Publisher) (event : ObjectEvent) : Prop :=
  (∀ coreType : CoreType,
      EmitsOn s publisher event (some coreType.name) none (if coreType = event.object.coreType then 1 else 0)) ∧
    ∀ objectType, isValidEventFilter objectType = true →
      EmitsOn s publisher event none (some objectType) (if objectType = event.object.objectType then 1 else 0)

section

variable {s : Observables Value}

theorem observes_subscribeRequest (h : s.RequestsBound) (event : ObjectEvent) {filter : Text}
    (hfilter : isValidEventFilter filter = true) :
    ∃ observable, (s.observeRequest event.requestType (some filter)).observableOf event.requestType (some filter)
        = some observable ∧
      ∀ objectType, Observes ((s.observeRequest event.requestType (some filter)).subscribeRequest observable)
        event.requestType filter ⟨observable, objectType⟩ := by
  obtain ⟨hbound, _, observable, item, hobservable, hitem, hrequestId⟩ :=
    Observables.observeRequest_spec h event.requestType (some filter)
  have htype : item.eventType.val = event.requestType.val := Observables.typeName_append_inj hrequestId
  have hlevel : item.eventTypeFilter.getD [] = filter := by
    rw [ObservedRequestItem.requestId, getRequestId, htype] at hrequestId
    exact List.append_cancel_left hrequestId
  have hsome : item.eventTypeFilter = some filter := by
    cases hlisted : item.eventTypeFilter with
    | none =>
      rw [hlisted] at hlevel
      exact absurd hfilter (by rw [← hlevel]; decide)
    | some listed =>
      rw [hlisted] at hlevel
      exact congrArg some hlevel
  have hraw : item.eventType.val ≠ .raw := htype ▸ event.ne_raw
  have hioValue : item.eventType.val ≠ .ioValue := htype ▸ event.ne_ioValue
  obtain ⟨item', hitem', _, hissued⟩ := hbound.registered _ _ hobservable
  cases hitem.symm.trans hitem'
  have hkey := hissued (MqttBinding.acceptsSubscription_of_ne hraw hioValue)
  rw [Session.subscriptionKey, MqttBinding.getTopicFilterFor_eq _ hraw hioValue] at hkey
  simp only [ObservedRequestItem.eventLike, htype, hsome] at hkey
  refine ⟨observable, hobservable, fun objectType => ⟨hbound.subscribeRequest observable, ?_, ?_, hfilter⟩⟩
  · rw [Observables.subscribeRequest, hitem]
    exact hobservable
  · rw [Observables.subscribeRequest, hitem]
    exact hkey

theorem SameNamespace.observed {messagingNamespace : Text} (h : s.RequestsBound) (hsame : SameNamespace s messagingNamespace)
    (eventType : RequestType) (filter : Option Text) (observable : Nat) :
    SameNamespace ((s.observeRequest eventType filter).subscribeRequest observable) messagingNamespace := by
  have hobserved : SameNamespace (s.observeRequest eventType filter) messagingNamespace := by
    rw [Observables.observeRequest]
    dsimp only
    split
    · exact hsame
    · obtain ⟨hconnection, _⟩ := MqttBinding.subscribe_spec h.state h.nodup
        (ObservedRequestItem.eventLike ⟨eventType, filter, SubscriberItem.empty 0, true⟩ : CommunicationEventLike Value)
      exact hsame.imp hconnection.crossNamespacing.trans hconnection.messagingNamespace.trans
  rw [Observables.subscribeRequest]
  split
  · exact hobserved
  · exact hobserved

theorem emitsOn_iff (h : s.RequestsBound) {publisher : Publisher} (hnamespace : SameNamespace s publisher.binding.messagingNamespace)
    {event : ObjectEvent} (hreceivable : event.IsReceivable) {coreType objectType narrowed : Option Text} {filter : Text}
    (hfilter : isValidEventFilter filter = true)
    (hobserve : observeObjects event.requestType s coreType objectType
      = .ok (s.observeRequest event.requestType (some filter),
          ((s.observeRequest event.requestType (some filter)).observableOf event.requestType (some filter)).map
            (⟨·, narrowed⟩))) {n : Nat} :
    EmitsOn s publisher event coreType objectType n ↔
      (if event.object.coreType.name = filter ∧ narrowed.all (event.object.objectType = ·) = true then 1 else 0) +
        (if getObjectTypeFor event.object.coreType ≠ event.object.objectType ∧
            objectTypeFilter event.object.objectType = filter ∧ narrowed.all (event.object.objectType = ·) = true
          then 1 else 0) = n := by
  obtain ⟨observable, hobservable, hobserves⟩ := observes_subscribeRequest h event hfilter
  have hemissions := (hobserves narrowed).emissions hreceivable (hnamespace.observed h event.requestType (some filter) observable)
  rw [hobservable] at hobserve
  refine ⟨fun ⟨s', o, hok, hn⟩ => ?_, fun hn => ⟨_, _, hobserve, hemissions.trans hn⟩⟩
  cases hobserve.symm.trans hok
  exact hemissions.symm.trans hn

theorem receivable_of_emitsOn {publisher : Publisher} {event : ObjectEvent} {coreType objectType : Option Text} {n : Nat}
    (hemits : EmitsOn s publisher event coreType objectType (n + 1)) : event.IsReceivable := by
  obtain ⟨s', o, -, hemissions⟩ := hemits
  by_contra h
  rw [emissions_of_not_receivable _ o publisher h] at hemissions
  cases hemissions

theorem observeObjects_coreType (eventType : RequestType) (s : Observables Value) (coreType : CoreType) :
    observeObjects eventType s (some coreType.name) none
      = .ok (s.observeRequest eventType (some coreType.name),
          ((s.observeRequest eventType (some coreType.name)).observableOf eventType (some coreType.name)).map
            (⟨·, none⟩)) := by
  cases coreType <;> rfl

theorem observeObjects_objectType (eventType : RequestType) (s : Observables Value) {objectType : Text}
    (hvalid : isValidEventFilter objectType = true) :
    observeObjects eventType s none (some objectType)
      = match getCoreTypeFor objectType with
        | some coreType => .ok (s.observeRequest eventType (some coreType.name),
            ((s.observeRequest eventType (some coreType.name)).observableOf eventType (some coreType.name)).map
              (⟨·, some objectType⟩))
        | none => .ok (s.observeRequest eventType (some (objectTypeFilter objectType)),
            ((s.observeRequest eventType (some (objectTypeFilter objectType))).observableOf eventType
              (some (objectTypeFilter objectType))).map (⟨·, none⟩)) := by
  rw [observeObjects, if_neg (by simp [hvalid]), Option.getD_some]
  cases getCoreTypeFor objectType with
  | none => rfl
  | some coreType => rfl

end

/-- The location of a device that does not move, which has no heading. -/
def stationary : MemoryValue :=
  .object [(text "name", .string (text "Home")), (text "objectType", .string (text "coaty.Location")),
    (text "coreType", .string (text "Location")), (text "objectId", .string (text "home")),
    (text "geoLocation", .object [(text "timestamp", .number (.finite 0)),
      (text "coords", .object [(text "latitude", .number (.finite 48)), (text "longitude", .number (.finite 11)),
        (text "accuracy", .number (.finite 5)), (text "speed", .number (.finite 0)), (text "heading", .number .nan)])])]

-- The heading is sent as `null`, which the receiver does not take for a number.
example : isObjectInMemory stationary = true ∧ stationary.image.any isObject = false := by decide

/-- An agent in the default namespace. -/
def agent : Publisher where
  binding := MqttBinding.create ⟨none, none⟩
  identityId := text "caretaker"
  coreId := text "first"
  objectId := text "second"
  namespace_valid := by decide
  identityId_valid := by decide
  coreId_valid := by decide
  objectId_valid := by decide

def chair (objectType : Text) : MemoryValue :=
  .object [(text "name", .string (text "Chair")), (text "objectType", .string objectType),
    (text "coreType", .string (text "CoatyObject")), (text "objectId", .string (text "chair"))]

def advertiseUserChair : ObjectEvent :=
  .advertise ⟨chair (text "coaty.User"), by decide, by decide⟩ none rfl

end Coaty
