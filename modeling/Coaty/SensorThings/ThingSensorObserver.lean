import Coaty.SensorThings.Subscribers

/-!
# The observer of things, sensors and observations

For each thing that is received the controller observes its sensors, and for each sensor the observations on it. A thing that is received again is observed once more, with the sensors of its earlier observations left as they were. What is deadvertised is taken for the parent of a thing, so only the sensors of things with that parent go, and with them the observation of all sensors of these things.
-/

namespace Coaty

open Js Transition CommunicationEvent

/-- A sensor with the property `thing` that it is given. -/
structure RegisteredSensor where
  sensor : CoatyObject
  thing : CoatyObject

structure RegisteredSensorsChangeInfo where
  added : List RegisteredSensor
  removed : List RegisteredSensor
  changed : List RegisteredSensor
  total : List RegisteredSensor

/-- Subscriptions are given by their position among those that have been made. -/
structure ThingSensorObserver where
  /-- The subscriptions to sensors, with the thing as it was received. -/
  sensorSubscribers : Subscribers CoatyObject
  sensorSubscriptions : Map Uuid (List Nat)
  /-- The subscriptions to observations on a sensor. -/
  observationSubscribers : Subscribers Uuid
  observationSubscriptions : Map Uuid Nat
  registeredSensors : Map Uuid RegisteredSensor
  /-- The change infos so far, oldest first. -/
  changeInfos : List RegisteredSensorsChangeInfo

inductive ThingSensorObserver.Event where
  | thingReceived (thing : CoatyObject)
  | sensorAdvertised (sensor : CoatyObject)
  /-- A response to the query of a subscription. -/
  | sensorsRetrieved (subscription : Nat) (sensors : List CoatyObject)
  | deadvertised (objectIds : List Uuid)

namespace ThingSensorObserver

open Subscribers

/-- The controller after it has been initialized. -/
def create : ThingSensorObserver where
  sensorSubscribers := []
  sensorSubscriptions := Map.empty
  observationSubscribers := []
  observationSubscriptions := Map.empty
  registeredSensors := Map.empty
  changeInfos := [⟨[], [], [], []⟩]

variable (thingFilter : Option (CoatyObject → Bool)) (sensorFilter : Option (CoatyObject → CoatyObject → Bool))

def isRelevantThing (thing : CoatyObject) : Bool :=
  match thingFilter with
  | some thingFilter => thingFilter thing
  | none => true

def isRelevantSensor (sensor thing : CoatyObject) : Bool :=
  match sensorFilter with
  | some sensorFilter => sensorFilter sensor thing
  | none => true

variable (s : ThingSensorObserver)

def onThingReceived (thing : CoatyObject) : ThingSensorObserver :=
  if isRelevantThing thingFilter thing then
    let subscription := s.sensorSubscribers.length
    { s with
      sensorSubscribers := s.sensorSubscribers.subscribe thing
      sensorSubscriptions := s.sensorSubscriptions.set thing.objectId
        ((s.sensorSubscriptions.get thing.objectId).getD [] ++ [subscription]) }
  else s

/-- Observing a channel throws if its id is no event filter. -/
def observeObservations (sensorId : Uuid) : Except Error ThingSensorObserver :=
  if isValidEventFilter sensorId.val then
    .ok { s with
      observationSubscribers := s.observationSubscribers.subscribe sensorId
      observationSubscriptions := s.observationSubscriptions.set sensorId s.observationSubscribers.length }
  else .error .typeError

def emitRegistered (registered : RegisteredSensor) : ThingSensorObserver :=
  let sensorId := registered.sensor.objectId
  let isRegistered := s.registeredSensors.has sensorId
  let registeredSensors := s.registeredSensors.set sensorId registered
  { s with
    registeredSensors
    changeInfos := s.changeInfos ++ [{
      added := if isRegistered then [] else [registered]
      removed := []
      changed := if isRegistered then [registered] else []
      total := registeredSensors.values }] }

def onSensorReceived (sensor thing : CoatyObject) : Except Error ThingSensorObserver :=
  if isRelevantSensor sensorFilter sensor thing then
    let s := s.emitRegistered ⟨sensor, thing⟩
    let s :=
      match s.observationSubscriptions.get sensor.objectId with
      | some subscription => { s with observationSubscribers := s.observationSubscribers.unsubscribe subscription }
      | none => s
    s.observeObservations sensor.objectId
  else .ok s

/-- A set of ids keeps the order in which they were added. -/
def addId (ids : List Uuid) (id : Uuid) : List Uuid := if id ∈ ids then ids else ids ++ [id]

/-- What has been removed while the registered sensors are visited. -/
structure Removal where
  observer : ThingSensorObserver
  removedThingIds : List Uuid
  removedSensors : List RegisteredSensor

/-- The visit of a registered sensor while `objectId` is removed. -/
def visit (objectId : Uuid) (removal : Removal) (entry : Uuid × RegisteredSensor) : Except Error Removal :=
  if entry.2.thing.parentObjectId = some objectId then
    let s := removal.observer
    match s.observationSubscriptions.get entry.1 with
    | some subscription => .ok {
        observer := { s with
          observationSubscribers := s.observationSubscribers.unsubscribe subscription
          observationSubscriptions := s.observationSubscriptions.delete entry.1
          registeredSensors := s.registeredSensors.delete entry.1 }
        removedThingIds := addId removal.removedThingIds entry.2.thing.objectId
        removedSensors := removal.removedSensors ++ [entry.2] }
    | none => .error .typeError
  else .ok removal

def unobserveThing (s : ThingSensorObserver) (thingId : Uuid) : Except Error ThingSensorObserver :=
  match s.sensorSubscriptions.get thingId with
  | some subscriptions => .ok { s with
      sensorSubscribers := subscriptions.foldl unsubscribe s.sensorSubscribers
      sensorSubscriptions := s.sensorSubscriptions.delete thingId }
  | none => .error .typeError

def emitRemoved (removedSensors : List RegisteredSensor) : ThingSensorObserver :=
  if removedSensors.length = 0 then s
  else { s with changeInfos := s.changeInfos ++ [{
    added := []
    removed := removedSensors
    changed := []
    total := s.registeredSensors.values }] }

def onDeadvertised (s : ThingSensorObserver) (objectId : Uuid) : Except Error ThingSensorObserver := do
  let removal ← s.registeredSensors.entries.foldlM (visit objectId) ⟨s, [], []⟩
  let s ← removal.removedThingIds.foldlM unobserveThing removal.observer
  return s.emitRemoved removal.removedSensors

/-- The things whose sensors an advertised sensor is one of, as they are known to the handlers that are called. -/
def thingsOf (sensor : CoatyObject) : List CoatyObject :=
  s.sensorSubscribers.opened.filter fun thing => sensor.parentObjectId = some thing.objectId

def step (s : ThingSensorObserver) : Event → Except Error ThingSensorObserver
  | .thingReceived thing => .ok (s.onThingReceived thingFilter thing)
  | .sensorAdvertised sensor =>
    (s.thingsOf sensor).foldlM (fun s thing => s.onSensorReceived sensorFilter sensor thing) s
  | .sensorsRetrieved subscription sensors =>
    match s.sensorSubscribers[subscription]? with
    | some (thing, ⟨false⟩) => sensors.foldlM (fun s sensor => s.onSensorReceived sensorFilter sensor thing) s
    | _ => .ok s
  | .deadvertised objectIds => objectIds.foldlM onDeadvertised s

/-! ### What is to be so -/

def applyInfo (m : Map Uuid RegisteredSensor) (info : RegisteredSensorsChangeInfo) : Map Uuid RegisteredSensor :=
  let m := info.added.foldl (fun m registered => m.set registered.sensor.objectId registered) m
  let m := info.removed.foldl (fun m registered => m.delete registered.sensor.objectId) m
  info.changed.foldl (fun m registered => m.set registered.sensor.objectId registered) m

def replay : Map Uuid RegisteredSensor := s.changeInfos.foldl applyInfo Map.empty

def ObservesThing (thingId : Uuid) : Prop :=
  ∃ i thing, s.sensorSubscribers.IsOpen i thing ∧ thing.objectId = thingId

/-- Every registered sensor has exactly one open subscription to its observations, the sensors of its thing are observed, and replaying the change infos yields the total list of the last one. -/
structure Consistent (s : ThingSensorObserver) : Prop where
  observed : ∀ sensorId registered, s.registeredSensors.get sensorId = some registered →
    ∃! i, s.observationSubscribers.IsOpen i sensorId
  thingObserved : ∀ sensorId registered, s.registeredSensors.get sensorId = some registered →
    s.ObservesThing registered.thing.objectId
  replays : s.changeInfos.getLast?.map RegisteredSensorsChangeInfo.total = some s.replay.values

/-- A thing as it was last received, if the thing filter accepted it. -/
def latestThing (thingId : Uuid) : Option CoatyObject :=
  (s.sensorSubscribers.map Prod.fst).reverse.find? fun thing => thing.objectId = thingId

/-- Deadvertised ids name a sensor by its own id, the id of its thing or the id of the thing's parent, as the sensor was registered with it or as it was last received and accepted. -/
def Names (objectIds : List Uuid) (registered : RegisteredSensor) : Prop :=
  registered.sensor.objectId ∈ objectIds ∨ registered.thing.objectId ∈ objectIds ∨
    ∃ parent ∈ objectIds, registered.thing.parentObjectId = some parent ∨
      ∃ thing, s.latestThing registered.thing.objectId = some thing ∧ thing.parentObjectId = some parent

/-- The handlers that register the sensor if it is advertised. -/
def takers (sensor : CoatyObject) : List CoatyObject :=
  (s.thingsOf sensor).filter fun thing => isRelevantSensor sensorFilter sensor thing

/-- An advertised sensor yields exactly one change info if any handler registers it, and deadvertised ids leave no sensor registered that they name. -/
def Answers (s s' : ThingSensorObserver) : Event → Prop
  | .sensorAdvertised sensor =>
    s'.changeInfos.length = s.changeInfos.length + if s.takers sensorFilter sensor = [] then 0 else 1
  | .deadvertised objectIds => ∀ sensorId registered, s.registeredSensors.get sensorId = some registered →
    s.Names objectIds registered → s'.registeredSensors.get sensorId = none
  | _ => True

/-- No handler throws, the event is answered as it should be, and what is observed is consistent after it. -/
def Observes (s : ThingSensorObserver) (event : Event) : Prop :=
  ∃ s', step thingFilter sensorFilter s event = .ok s' ∧ s'.Consistent ∧ Answers sensorFilter s s' event

def Removes (objectIds : List Uuid) (registered : RegisteredSensor) : Prop :=
  ∃ parent ∈ objectIds, registered.thing.parentObjectId = some parent

/-- The registered sensors of a thing one of which is removed have been registered with the same parent of the thing. -/
def RemovesTogether (objectIds : List Uuid) : Prop :=
  ∀ sensorId registered sensorId' registered', s.registeredSensors.get sensorId = some registered →
    s.registeredSensors.get sensorId' = some registered' → registered.thing.objectId = registered'.thing.objectId →
    Removes objectIds registered → registered'.thing.parentObjectId = registered.thing.parentObjectId

/-- An advertised sensor is registered by one handler at most, the id of every sensor to be registered is an event filter, and deadvertised ids that name a registered sensor have the parent that its thing had, which is also that of all registered sensors of the thing. -/
def Cascades (s : ThingSensorObserver) : Event → Prop
  | .thingReceived _ => True
  | .sensorAdvertised sensor => (s.takers sensorFilter sensor).length ≤ 1 ∧
    (s.takers sensorFilter sensor ≠ [] → isValidEventFilter sensor.objectId.val = true)
  | .sensorsRetrieved subscription sensors => ∀ thing, s.sensorSubscribers.IsOpen subscription thing →
    ∀ sensor ∈ sensors, isRelevantSensor sensorFilter sensor thing = true → isValidEventFilter sensor.objectId.val = true
  | .deadvertised objectIds =>
    (∀ sensorId registered, s.registeredSensors.get sensorId = some registered → s.Names objectIds registered →
      Removes objectIds registered) ∧ s.RemovesTogether objectIds

/-! ### Invariants -/

variable {s s' : ThingSensorObserver}

/-- What is so after any events that no handler throws on. -/
structure WellFormed (s : ThingSensorObserver) : Prop where
  keyed : ∀ sensorId registered, s.registeredSensors.get sensorId = some registered →
    registered.sensor.objectId = sensorId
  observing : Tracks s.observationSubscribers s.observationSubscriptions
  registered : ∀ sensorId, (s.observationSubscriptions.get sensorId).isSome = (s.registeredSensors.get sensorId).isSome
  subscribed : TracksAll CoatyObject.objectId s.sensorSubscribers s.sensorSubscriptions
  replayed : s.replay = s.registeredSensors
  total : s.changeInfos.getLast?.map RegisteredSensorsChangeInfo.total = some s.registeredSensors.values

theorem wellFormed_create : WellFormed create := by
  refine ⟨?_, ?_, ?_, ⟨?_, ?_⟩, rfl, rfl⟩ <;> simp [create, Tracks]

/-- All that can go wrong without an error is that a registered sensor's thing is no longer observed. -/
theorem WellFormed.consistent_iff (h : s.WellFormed) :
    s.Consistent ↔ ∀ sensorId registered, s.registeredSensors.get sensorId = some registered →
      s.ObservesThing registered.thing.objectId := by
  refine ⟨Consistent.thingObserved, fun hobserved => ⟨fun sensorId registered hget => ?_, hobserved, ?_⟩⟩
  · apply h.observing.existsUnique
    rw [h.registered, hget]
    rfl
  · rw [h.replayed]
    exact h.total

/-! ### Receiving things and sensors -/

theorem onThingReceived_spec (h : s.WellFormed) (thing : CoatyObject) :
    (s.onThingReceived thingFilter thing).WellFormed ∧
      (s.onThingReceived thingFilter thing).registeredSensors = s.registeredSensors ∧
      ∀ thingId, s.ObservesThing thingId → (s.onThingReceived thingFilter thing).ObservesThing thingId := by
  rw [onThingReceived]
  split
  · refine ⟨⟨h.keyed, h.observing, h.registered, h.subscribed.subscribe thing, h.replayed, h.total⟩, rfl, ?_⟩
    intro thingId hobserves
    obtain ⟨i, known, hopen, hid⟩ := hobserves
    exact ⟨i, known, isOpen_subscribe.mpr (Or.inl hopen), hid⟩
  · exact ⟨h, rfl, fun _ hobserves => hobserves⟩

/-- A sensor that has been registered, and is observed if its id is an event filter. -/
structure Registers (s s' : ThingSensorObserver) (sensor thing : CoatyObject) : Prop where
  wellFormed : s'.WellFormed
  registeredSensors : s'.registeredSensors = s.registeredSensors.set sensor.objectId ⟨sensor, thing⟩
  sensorSubscribers : s'.sensorSubscribers = s.sensorSubscribers
  changeInfos : s'.changeInfos.length = s.changeInfos.length + 1

theorem replay_emitRegistered (s : ThingSensorObserver) (registered : RegisteredSensor) :
    (s.emitRegistered registered).replay = s.replay.set registered.sensor.objectId registered := by
  rw [replay, emitRegistered, List.foldl_append, ← replay, List.foldl_cons, List.foldl_nil, applyInfo]
  by_cases hhas : s.registeredSensors.has registered.sensor.objectId = true
  · simp [hhas]
  · simp [hhas]

theorem wellFormed_registered (h : s.WellFormed) (sensor thing : CoatyObject) {subscribers : Subscribers Uuid}
    {subscription : Nat}
    (htracks : Tracks subscribers (s.observationSubscriptions.set sensor.objectId subscription)) :
    ({ s.emitRegistered ⟨sensor, thing⟩ with
      observationSubscribers := subscribers
      observationSubscriptions := s.observationSubscriptions.set sensor.objectId subscription }).WellFormed := by
  refine ⟨fun sensorId registered hget => ?_, htracks, fun sensorId => ?_, h.subscribed, ?_, ?_⟩
  · have hset : (s.registeredSensors.set sensor.objectId ⟨sensor, thing⟩).get sensorId = some registered := hget
    rw [Map.get_set] at hset
    split at hset
    · rename_i heq
      cases hset
      exact heq.symm
    · exact h.keyed sensorId registered hset
  · show ((s.observationSubscriptions.set sensor.objectId subscription).get sensorId).isSome =
      ((s.registeredSensors.set sensor.objectId ⟨sensor, thing⟩).get sensorId).isSome
    rw [Map.get_set, Map.get_set]
    split
    · rfl
    · exact h.registered sensorId
  · have hreplay := s.replay_emitRegistered ⟨sensor, thing⟩
    rw [h.replayed] at hreplay
    exact hreplay
  · simp [emitRegistered]

theorem onSensorReceived_of_valid (h : s.WellFormed) {sensor thing : CoatyObject}
    (hrelevant : isRelevantSensor sensorFilter sensor thing = true)
    (hvalid : isValidEventFilter sensor.objectId.val = true) :
    ∃ s', s.onSensorReceived sensorFilter sensor thing = .ok s' ∧ Registers s s' sensor thing := by
  rw [onSensorReceived, if_pos hrelevant]
  simp only [observeObservations, if_pos hvalid]
  have hregisters : ∀ {subscribers : Subscribers Uuid} {subscription : Nat},
      Tracks subscribers (s.observationSubscriptions.set sensor.objectId subscription) →
      Registers s { s.emitRegistered ⟨sensor, thing⟩ with
        observationSubscribers := subscribers
        observationSubscriptions := s.observationSubscriptions.set sensor.objectId subscription } sensor thing :=
    fun htracks => ⟨wellFormed_registered h sensor thing htracks, rfl, rfl, by simp [emitRegistered]⟩
  refine ⟨_, rfl, ?_⟩
  cases hget : s.observationSubscriptions.get sensor.objectId with
  | none =>
    have hnone : (s.emitRegistered ⟨sensor, thing⟩).observationSubscriptions.get sensor.objectId = none := hget
    simp only [hnone]
    exact hregisters (h.observing.subscribe hget)
  | some subscription =>
    have hsome : (s.emitRegistered ⟨sensor, thing⟩).observationSubscriptions.get sensor.objectId = some subscription := hget
    simp only [hsome]
    exact hregisters (h.observing.resubscribe hget)

theorem onSensorReceived_of_not_valid {sensor thing : CoatyObject}
    (hrelevant : isRelevantSensor sensorFilter sensor thing = true)
    (hvalid : ¬ isValidEventFilter sensor.objectId.val = true) :
    s.onSensorReceived sensorFilter sensor thing = .error .typeError := by
  rw [onSensorReceived, if_pos hrelevant]
  simp only [observeObservations, if_neg hvalid]

theorem onSensorReceived_of_not_relevant {sensor thing : CoatyObject}
    (hrelevant : ¬ isRelevantSensor sensorFilter sensor thing = true) :
    s.onSensorReceived sensorFilter sensor thing = .ok s := by
  rw [onSensorReceived, if_neg hrelevant]

/-- A sensor and a thing whose sensors are observed come to a handler. -/
def receive (s : ThingSensorObserver) (received : CoatyObject × CoatyObject) : Except Error ThingSensorObserver :=
  s.onSensorReceived sensorFilter received.1 received.2

theorem Registers.consistent {sensor thing : CoatyObject} (h : Registers s s' sensor thing) (hs : s.Consistent)
    (hthing : s.ObservesThing thing.objectId) : s'.Consistent := by
  rw [h.wellFormed.consistent_iff]
  intro sensorId registered hget
  rw [ObservesThing, h.sensorSubscribers]
  rw [h.registeredSensors, Map.get_set] at hget
  split at hget
  · cases hget
    exact hthing
  · exact hs.thingObserved sensorId registered hget

theorem receive_all (h : s.WellFormed) (hs : s.Consistent) {received : List (CoatyObject × CoatyObject)}
    (hthings : ∀ r ∈ received, s.ObservesThing r.2.objectId)
    (hvalid : ∀ r ∈ received, isRelevantSensor sensorFilter r.1 r.2 = true → isValidEventFilter r.1.objectId.val = true) :
    ∃ s', received.foldlM (receive sensorFilter) s = .ok s' ∧ s'.WellFormed ∧ s'.Consistent ∧
      s'.changeInfos.length = s.changeInfos.length +
        (received.filter fun r => isRelevantSensor sensorFilter r.1 r.2).length := by
  induction received generalizing s with
  | nil => exact ⟨s, rfl, h, hs, rfl⟩
  | cons r received ih =>
    rw [List.forall_mem_cons] at hthings hvalid
    rw [List.foldlM_cons, receive]
    by_cases hrelevant : isRelevantSensor sensorFilter r.1 r.2 = true
    · obtain ⟨s₁, hs₁, hregisters⟩ := onSensorReceived_of_valid sensorFilter h hrelevant (hvalid.1 hrelevant)
      have hthings₁ : ∀ r ∈ received, s₁.ObservesThing r.2.objectId := by
        simp only [ObservesThing, hregisters.sensorSubscribers]
        exact hthings.2
      obtain ⟨s', hs', h', hconsistent', hlength⟩ :=
        ih hregisters.wellFormed (hregisters.consistent hs hthings.1) hthings₁ hvalid.2
      refine ⟨s', ?_, h', hconsistent', ?_⟩
      · rw [hs₁]
        exact hs'
      · rw [hlength, hregisters.changeInfos, List.filter_cons_of_pos (by exact hrelevant), List.length_cons]
        omega
    · rw [onSensorReceived_of_not_relevant sensorFilter hrelevant, List.filter_cons_of_neg (by exact hrelevant)]
      exact ih h hs hthings.2 hvalid.2

theorem valid_of_receive (h : s.WellFormed) {received : List (CoatyObject × CoatyObject)}
    (hreceived : received.foldlM (receive sensorFilter) s = .ok s') :
    ∀ r ∈ received, isRelevantSensor sensorFilter r.1 r.2 = true → isValidEventFilter r.1.objectId.val = true := by
  induction received generalizing s with
  | nil => simp
  | cons r received ih =>
    rw [List.foldlM_cons, receive] at hreceived
    rw [List.forall_mem_cons]
    by_cases hrelevant : isRelevantSensor sensorFilter r.1 r.2 = true
    · by_cases hvalid : isValidEventFilter r.1.objectId.val = true
      · obtain ⟨s₁, hs₁, hregisters⟩ := onSensorReceived_of_valid sensorFilter h hrelevant hvalid
        rw [hs₁] at hreceived
        exact ⟨fun _ => hvalid, ih hregisters.wellFormed hreceived⟩
      · rw [onSensorReceived_of_not_valid sensorFilter hrelevant hvalid] at hreceived
        cases hreceived
    · rw [onSensorReceived_of_not_relevant sensorFilter hrelevant] at hreceived
      exact ⟨fun h => absurd h hrelevant, ih h hreceived⟩

theorem observesThing_of_mem_thingsOf {sensor thing : CoatyObject} (h : thing ∈ s.thingsOf sensor) :
    s.ObservesThing thing.objectId := by
  rw [thingsOf, List.mem_filter, mem_opened] at h
  obtain ⟨⟨i, hopen⟩, _⟩ := h
  exact ⟨i, thing, hopen, rfl⟩

theorem observes_sensorAdvertised_iff (h : s.WellFormed) (hs : s.Consistent) (sensor : CoatyObject) :
    Observes thingFilter sensorFilter s (.sensorAdvertised sensor) ↔ Cascades sensorFilter s (.sensorAdvertised sensor) := by
  let received := (s.thingsOf sensor).map fun thing => (sensor, thing)
  have hstep : step thingFilter sensorFilter s (.sensorAdvertised sensor) = received.foldlM (receive sensorFilter) s := by
    rw [List.foldlM_map]
    rfl
  have htakers : (received.filter fun r => isRelevantSensor sensorFilter r.1 r.2).length =
      (s.takers sensorFilter sensor).length := by
    rw [List.filter_map, List.length_map, takers]
    rfl
  have hvalid : (∀ r ∈ received, isRelevantSensor sensorFilter r.1 r.2 = true →
      isValidEventFilter r.1.objectId.val = true) ↔
        (s.takers sensorFilter sensor ≠ [] → isValidEventFilter sensor.objectId.val = true) := by
    simp only [received, List.forall_mem_map, takers, ne_eq, List.filter_eq_nil_iff, not_forall, not_not]
    constructor
    · intro hall hsome
      obtain ⟨thing, hmem, hrelevant⟩ := hsome
      exact hall thing hmem hrelevant
    · intro hsome thing hmem hrelevant
      exact hsome ⟨thing, hmem, hrelevant⟩
  have hthings : ∀ r ∈ received, s.ObservesThing r.2.objectId := by
    rw [List.forall_mem_map]
    exact fun thing hmem => observesThing_of_mem_thingsOf hmem
  have hone : (s.takers sensorFilter sensor).length = (if s.takers sensorFilter sensor = [] then 0 else 1) ↔
      (s.takers sensorFilter sensor).length ≤ 1 := by
    cases s.takers sensorFilter sensor with
    | nil => simp
    | cons thing takers => simp
  rw [Observes, hstep, Cascades, ← hvalid, ← hone, ← htakers]
  constructor
  · intro ⟨s', hs', _, hanswers⟩
    have hall := valid_of_receive sensorFilter h hs'
    obtain ⟨s'', hs'', _, _, hlength⟩ := receive_all sensorFilter h hs hthings hall
    cases hs'.symm.trans hs''
    rw [Answers, hlength] at hanswers
    exact ⟨by omega, hall⟩
  · intro ⟨hlength', hall⟩
    obtain ⟨s', hs', _, hconsistent, hlength⟩ := receive_all sensorFilter h hs hthings hall
    refine ⟨s', hs', hconsistent, ?_⟩
    rw [Answers, hlength, hlength']

theorem observes_sensorsRetrieved_iff (h : s.WellFormed) (hs : s.Consistent) (subscription : Nat)
    (sensors : List CoatyObject) :
    Observes thingFilter sensorFilter s (.sensorsRetrieved subscription sensors) ↔
      Cascades sensorFilter s (.sensorsRetrieved subscription sensors) := by
  rw [Observes, Cascades]
  by_cases hopen : ∃ thing, s.sensorSubscribers.IsOpen subscription thing
  · obtain ⟨thing, hopen⟩ := hopen
    let received := sensors.map fun sensor => (sensor, thing)
    have hstep : step thingFilter sensorFilter s (.sensorsRetrieved subscription sensors) =
        received.foldlM (receive sensorFilter) s := by
      rw [List.foldlM_map]
      simp only [step]
      rw [hopen]
      rfl
    have hvalid : (∀ thing, s.sensorSubscribers.IsOpen subscription thing → ∀ sensor ∈ sensors,
        isRelevantSensor sensorFilter sensor thing = true → isValidEventFilter sensor.objectId.val = true) ↔
          ∀ r ∈ received, isRelevantSensor sensorFilter r.1 r.2 = true → isValidEventFilter r.1.objectId.val = true := by
      rw [List.forall_mem_map]
      constructor
      · intro hall
        exact hall thing hopen
      · intro hall thing' hopen'
        rw [hopen'.unique hopen]
        exact hall
    have hthings : ∀ r ∈ received, s.ObservesThing r.2.objectId := by
      rw [List.forall_mem_map]
      exact fun _ _ => ⟨subscription, thing, hopen, rfl⟩
    rw [hstep, hvalid]
    constructor
    · intro ⟨s', hs', _⟩
      exact valid_of_receive sensorFilter h hs'
    · intro hall
      obtain ⟨s', hs', _, hconsistent, _⟩ := receive_all sensorFilter h hs hthings hall
      exact ⟨s', hs', hconsistent, trivial⟩
  · have hstep : step thingFilter sensorFilter s (.sensorsRetrieved subscription sensors) = .ok s := by
      simp only [step]
      split
      · rename_i thing heq
        exact absurd ⟨thing, heq⟩ hopen
      · rfl
    rw [not_exists] at hopen
    exact iff_of_true ⟨s, hstep, hs, trivial⟩ fun thing hthing => absurd hthing (hopen thing)

/-! ### Removing sensors -/

theorem mem_foldl_addId {ids added : List Uuid} {id : Uuid} :
    id ∈ added.foldl addId ids ↔ id ∈ ids ∨ id ∈ added := by
  induction added generalizing ids with
  | nil => simp
  | cons other added ih =>
    rw [List.foldl_cons, ih, addId, List.mem_cons]
    by_cases hmem : other ∈ ids
    · rw [if_pos hmem]
      have hother : id = other → id ∈ ids := fun heq => heq ▸ hmem
      tauto
    · rw [if_neg hmem, List.mem_append, List.mem_singleton]
      tauto

theorem nodup_foldl_addId {ids : List Uuid} (h : ids.Nodup) (added : List Uuid) : (added.foldl addId ids).Nodup := by
  induction added generalizing ids with
  | nil => exact h
  | cons other added ih =>
    apply ih
    rw [addId]
    split
    · exact h
    · rename_i hmem
      rw [List.nodup_append]
      refine ⟨h, List.nodup_singleton other, fun a ha b hb => ?_⟩
      rw [List.mem_singleton.mp hb]
      exact fun heq => hmem (heq ▸ ha)

def goneWith (objectId : Uuid) (entries : List (Uuid × RegisteredSensor)) : List (Uuid × RegisteredSensor) :=
  entries.filter fun entry => entry.2.thing.parentObjectId = some objectId

theorem foldlM_visit (objectId : Uuid) {entries : List (Uuid × RegisteredSensor)} (hnodup : (entries.map Prod.fst).Nodup)
    (removal : Removal)
    (htracks : Tracks removal.observer.observationSubscribers removal.observer.observationSubscriptions)
    (hsome : ∀ entry ∈ entries, (removal.observer.observationSubscriptions.get entry.1).isSome = true) :
    ∃ removal' subscribers, entries.foldlM (visit objectId) removal = .ok removal' ∧
      removal'.observer = { removal.observer with
        observationSubscribers := subscribers
        observationSubscriptions :=
          ((goneWith objectId entries).map Prod.fst).foldl Map.delete removal.observer.observationSubscriptions
        registeredSensors := ((goneWith objectId entries).map Prod.fst).foldl Map.delete removal.observer.registeredSensors } ∧
      Tracks subscribers
        (((goneWith objectId entries).map Prod.fst).foldl Map.delete removal.observer.observationSubscriptions) ∧
      removal'.removedThingIds =
        ((goneWith objectId entries).map fun entry => entry.2.thing.objectId).foldl addId removal.removedThingIds ∧
      removal'.removedSensors = removal.removedSensors ++ (goneWith objectId entries).map Prod.snd := by
  induction entries generalizing removal with
  | nil => exact ⟨removal, _, rfl, rfl, htracks, rfl, (List.append_nil _).symm⟩
  | cons entry entries ih =>
    rw [List.map_cons, List.nodup_cons] at hnodup
    rw [List.forall_mem_cons] at hsome
    rw [List.foldlM_cons, visit]
    by_cases hparent : entry.2.thing.parentObjectId = some objectId
    · obtain ⟨subscription, hget⟩ := Option.isSome_iff_exists.mp hsome.1
      have hgone : goneWith objectId (entry :: entries) = entry :: goneWith objectId entries := by
        simp [goneWith, hparent]
      simp only [if_pos hparent, hget, hgone, List.map_cons, List.foldl_cons]
      have hsome' : ∀ entry' ∈ entries,
          ((removal.observer.observationSubscriptions.delete entry.1).get entry'.1).isSome = true := by
        intro entry' hmem
        have hne : entry'.1 ≠ entry.1 := fun heq => hnodup.1 (heq ▸ List.mem_map_of_mem hmem)
        rw [Map.get_delete, if_neg hne]
        exact hsome.2 entry' hmem
      let removed : Removal :=
        { observer := { removal.observer with
            observationSubscribers := removal.observer.observationSubscribers.unsubscribe subscription
            observationSubscriptions := removal.observer.observationSubscriptions.delete entry.1
            registeredSensors := removal.observer.registeredSensors.delete entry.1 }
          removedThingIds := addId removal.removedThingIds entry.2.thing.objectId
          removedSensors := removal.removedSensors ++ [entry.2] }
      obtain ⟨removal', subscribers, hfold, hobserver, htracks', hids, hsensors⟩ :=
        ih hnodup.2 removed (htracks.unsubscribe hget) hsome'
      refine ⟨removal', subscribers, hfold, hobserver, htracks', hids, ?_⟩
      rw [hsensors, List.append_assoc]
      rfl
    · have hgone : goneWith objectId (entry :: entries) = goneWith objectId entries := by
        simp [goneWith, hparent]
      rw [if_neg hparent, hgone]
      exact ih hnodup.2 removal htracks hsome.2

theorem foldlM_unobserveThing {ids : List Uuid} (hnodup : ids.Nodup)
    (htracks : TracksAll CoatyObject.objectId s.sensorSubscribers s.sensorSubscriptions)
    (hobserves : ∀ id ∈ ids, s.ObservesThing id) :
    ∃ subscribers subscriptions, ids.foldlM unobserveThing s = .ok { s with
        sensorSubscribers := subscribers
        sensorSubscriptions := subscriptions } ∧
      TracksAll CoatyObject.objectId subscribers subscriptions ∧
      ∀ i thing, subscribers.IsOpen i thing ↔ thing.objectId ∉ ids ∧ s.sensorSubscribers.IsOpen i thing := by
  induction ids generalizing s with
  | nil => exact ⟨_, _, rfl, htracks, by simp⟩
  | cons id ids ih =>
    rw [List.nodup_cons] at hnodup
    rw [List.forall_mem_cons] at hobserves
    obtain ⟨is, hget⟩ := Option.isSome_iff_exists.mp (htracks.isSome_iff.mpr hobserves.1)
    rw [List.foldlM_cons, unobserveThing, hget]
    have hrest : ∀ other ∈ ids, ObservesThing { s with
        sensorSubscribers := is.foldl unsubscribe s.sensorSubscribers
        sensorSubscriptions := s.sensorSubscriptions.delete id } other := by
      intro other hmem
      obtain ⟨i, thing, hopen, hid⟩ := hobserves.2 other hmem
      have hne : thing.objectId ≠ id := by
        rintro rfl
        exact hnodup.1 (hid ▸ hmem)
      exact ⟨i, thing, (htracks.isOpen_unsubscribe hget).mpr ⟨hne, hopen⟩, hid⟩
    obtain ⟨subscribers, subscriptions, hfold, htracks', hopen'⟩ := ih hnodup.2 (htracks.unsubscribe hget) hrest
    refine ⟨subscribers, subscriptions, hfold, htracks', fun i thing => ?_⟩
    rw [hopen', htracks.isOpen_unsubscribe hget, List.mem_cons]
    tauto

theorem observesThing_of_unobserve {ids : List Uuid}
    (htracks : TracksAll CoatyObject.objectId s.sensorSubscribers s.sensorSubscriptions)
    (hfold : ids.foldlM unobserveThing s = .ok s') : ∀ id ∈ ids, s.ObservesThing id := by
  induction ids generalizing s with
  | nil => simp
  | cons id ids ih =>
    rw [List.foldlM_cons, unobserveThing] at hfold
    cases hget : s.sensorSubscriptions.get id with
    | none =>
      rw [hget] at hfold
      cases hfold
    | some is =>
      rw [hget] at hfold
      rw [List.forall_mem_cons]
      refine ⟨htracks.isSome_iff.mp (by rw [hget]; rfl), fun other hmem => ?_⟩
      obtain ⟨i, thing, hopen, hid⟩ := ih (htracks.unsubscribe hget) hfold other hmem
      exact ⟨i, thing, ((htracks.isOpen_unsubscribe hget).mp hopen).2, hid⟩

def GoesWith (s : ThingSensorObserver) (objectId sensorId : Uuid) (registered : RegisteredSensor) : Prop :=
  s.registeredSensors.get sensorId = some registered ∧ registered.thing.parentObjectId = some objectId

theorem mem_goneWith {objectId : Uuid} {entry : Uuid × RegisteredSensor} :
    entry ∈ goneWith objectId s.registeredSensors.entries ↔ s.GoesWith objectId entry.1 entry.2 := by
  rw [goneWith, List.mem_filter, decide_eq_true_eq, GoesWith, ← Map.mem_entries]

theorem get_foldl_delete_goneWith {V : Type} (m : Map Uuid V) (objectId sensorId : Uuid)
    [Decidable (∃ registered, s.GoesWith objectId sensorId registered)] :
    (((goneWith objectId s.registeredSensors.entries).map Prod.fst).foldl Map.delete m).get sensorId =
      if ∃ registered, s.GoesWith objectId sensorId registered then none else m.get sensorId := by
  have hmem : sensorId ∈ (goneWith objectId s.registeredSensors.entries).map Prod.fst ↔
      ∃ registered, s.GoesWith objectId sensorId registered := by
    rw [List.mem_map]
    constructor
    · intro ⟨entry, hentry, heq⟩
      exact ⟨entry.2, heq ▸ mem_goneWith.mp hentry⟩
    · intro ⟨registered, hgoes⟩
      exact ⟨(sensorId, registered), mem_goneWith.mpr hgoes, rfl⟩
  rw [Map.get_foldl_delete]
  simp only [hmem]

/-- After the registered sensors have been visited. -/
structure Visited (s : ThingSensorObserver) (objectId : Uuid) (removal : Removal) : Prop where
  keyed : ∀ sensorId registered, removal.observer.registeredSensors.get sensorId = some registered ↔
    s.registeredSensors.get sensorId = some registered ∧ registered.thing.parentObjectId ≠ some objectId
  observing : Tracks removal.observer.observationSubscribers removal.observer.observationSubscriptions
  registered : ∀ sensorId, (removal.observer.observationSubscriptions.get sensorId).isSome =
    (removal.observer.registeredSensors.get sensorId).isSome
  sensorSubscribers : removal.observer.sensorSubscribers = s.sensorSubscribers
  sensorSubscriptions : removal.observer.sensorSubscriptions = s.sensorSubscriptions
  changeInfos : removal.observer.changeInfos = s.changeInfos
  removed : removal.observer.registeredSensors = removal.removedSensors.foldl
    (fun m registered => m.delete registered.sensor.objectId) s.registeredSensors
  mem_removedThingIds : ∀ thingId, thingId ∈ removal.removedThingIds ↔
    ∃ sensorId registered, s.GoesWith objectId sensorId registered ∧ registered.thing.objectId = thingId
  nodup_removedThingIds : removal.removedThingIds.Nodup

theorem WellFormed.visited (h : s.WellFormed) (objectId : Uuid) :
    ∃ removal, s.registeredSensors.entries.foldlM (visit objectId) ⟨s, [], []⟩ = .ok removal ∧
      Visited s objectId removal := by
  have hsome : ∀ entry ∈ s.registeredSensors.entries, (s.observationSubscriptions.get entry.1).isSome = true := by
    intro entry hmem
    rw [h.registered, Map.mem_entries.mp hmem]
    rfl
  obtain ⟨removal, subscribers, hfold, hobserver, htracks, hids, hsensors⟩ :=
    foldlM_visit objectId s.registeredSensors.nodup ⟨s, [], []⟩ h.observing hsome
  have hregistered : removal.observer.registeredSensors =
      ((goneWith objectId s.registeredSensors.entries).map Prod.fst).foldl Map.delete s.registeredSensors := by
    rw [hobserver]
  have hsubscriptions : removal.observer.observationSubscriptions =
      ((goneWith objectId s.registeredSensors.entries).map Prod.fst).foldl Map.delete s.observationSubscriptions := by
    rw [hobserver]
  classical
  refine ⟨removal, hfold, ?_, ?_, ?_, by rw [hobserver], by rw [hobserver], by rw [hobserver], ?_, ?_, ?_⟩
  · intro sensorId registered
    rw [hregistered, get_foldl_delete_goneWith]
    by_cases hgoes : ∃ registered, s.GoesWith objectId sensorId registered
    · rw [if_pos hgoes]
      obtain ⟨registered', hget, hparent⟩ := hgoes
      refine iff_of_false (by simp) fun hstays => ?_
      cases hget.symm.trans hstays.1
      exact hstays.2 hparent
    · rw [if_neg hgoes]
      rw [not_exists] at hgoes
      exact ⟨fun hget => ⟨hget, fun hparent => hgoes registered ⟨hget, hparent⟩⟩, And.left⟩
  · rw [hsubscriptions, hobserver]
    exact htracks
  · intro sensorId
    rw [hregistered, hsubscriptions, get_foldl_delete_goneWith, get_foldl_delete_goneWith]
    split
    · rfl
    · exact h.registered sensorId
  · rw [hregistered, hsensors, List.nil_append, List.foldl_map, List.foldl_map]
    apply List.foldl_ext
    intro m entry hmem
    rw [h.keyed entry.1 entry.2 (mem_goneWith.mp hmem).1]
  · intro thingId
    rw [hids, mem_foldl_addId, List.mem_map]
    constructor
    · intro hmem
      obtain ⟨entry, hentry, heq⟩ := hmem.resolve_left List.not_mem_nil
      exact ⟨entry.1, entry.2, mem_goneWith.mp hentry, heq⟩
    · intro hgoes
      obtain ⟨sensorId, registered, hgoes, heq⟩ := hgoes
      exact Or.inr ⟨(sensorId, registered), mem_goneWith.mpr hgoes, heq⟩
  · rw [hids]
    exact nodup_foldl_addId List.nodup_nil _

theorem replay_emitRemoved (s : ThingSensorObserver) (removedSensors : List RegisteredSensor) :
    (s.emitRemoved removedSensors).replay =
      removedSensors.foldl (fun m registered => m.delete registered.sensor.objectId) s.replay := by
  rw [emitRemoved]
  split
  · rename_i hnil
    rw [List.length_eq_zero_iff.mp hnil, List.foldl_nil]
  · rw [replay, List.foldl_append, ← replay, List.foldl_cons, List.foldl_nil, applyInfo]
    simp only [List.foldl_nil]

@[simp] theorem registeredSensors_emitRemoved (removedSensors : List RegisteredSensor) :
    (s.emitRemoved removedSensors).registeredSensors = s.registeredSensors := by
  rw [emitRemoved]
  split <;> rfl

@[simp] theorem sensorSubscribers_emitRemoved (removedSensors : List RegisteredSensor) :
    (s.emitRemoved removedSensors).sensorSubscribers = s.sensorSubscribers := by
  rw [emitRemoved]
  split <;> rfl

@[simp] theorem sensorSubscriptions_emitRemoved (removedSensors : List RegisteredSensor) :
    (s.emitRemoved removedSensors).sensorSubscriptions = s.sensorSubscriptions := by
  rw [emitRemoved]
  split <;> rfl

@[simp] theorem observationSubscribers_emitRemoved (removedSensors : List RegisteredSensor) :
    (s.emitRemoved removedSensors).observationSubscribers = s.observationSubscribers := by
  rw [emitRemoved]
  split <;> rfl

@[simp] theorem observationSubscriptions_emitRemoved (removedSensors : List RegisteredSensor) :
    (s.emitRemoved removedSensors).observationSubscriptions = s.observationSubscriptions := by
  rw [emitRemoved]
  split <;> rfl

theorem Visited.wellFormed (h : s.WellFormed) {objectId : Uuid} {removal : Removal} (hvisited : Visited s objectId removal)
    {subscribers : Subscribers CoatyObject} {subscriptions : Map Uuid (List Nat)}
    (htracks : TracksAll CoatyObject.objectId subscribers subscriptions) :
    (emitRemoved { removal.observer with sensorSubscribers := subscribers, sensorSubscriptions := subscriptions }
      removal.removedSensors).WellFormed := by
  refine ⟨?_, ?_, ?_, ?_, ?_, ?_⟩
  · intro sensorId registered hget
    rw [registeredSensors_emitRemoved, hvisited.keyed] at hget
    exact h.keyed sensorId registered hget.1
  · simpa using hvisited.observing
  · simpa using hvisited.registered
  · simpa using htracks
  · have hreplay : replay { removal.observer with
        sensorSubscribers := subscribers
        sensorSubscriptions := subscriptions } = s.replay := by
      rw [replay, replay, ← hvisited.changeInfos]
    rw [replay_emitRemoved, hreplay, h.replayed, registeredSensors_emitRemoved, ← hvisited.removed]
  · rw [registeredSensors_emitRemoved, emitRemoved]
    split
    · rename_i hnil
      have hsame := hvisited.removed
      rw [List.length_eq_zero_iff.mp hnil, List.foldl_nil] at hsame
      show removal.observer.changeInfos.getLast?.map RegisteredSensorsChangeInfo.total =
        some removal.observer.registeredSensors.values
      rw [hvisited.changeInfos, hsame]
      exact h.total
    · simp

/-- What a deadvertised id leaves. -/
structure Deadvertises (s s' : ThingSensorObserver) (objectId : Uuid) : Prop where
  wellFormed : s'.WellFormed
  registeredSensors : ∀ sensorId registered, s'.registeredSensors.get sensorId = some registered ↔
    s.registeredSensors.get sensorId = some registered ∧ registered.thing.parentObjectId ≠ some objectId
  observesThing : ∀ thingId, s'.ObservesThing thingId ↔ s.ObservesThing thingId ∧
    ∀ sensorId registered, s.GoesWith objectId sensorId registered → registered.thing.objectId ≠ thingId

theorem onDeadvertised_spec (h : s.WellFormed) (objectId : Uuid)
    (hobserves : ∀ sensorId registered, s.GoesWith objectId sensorId registered →
      s.ObservesThing registered.thing.objectId) :
    ∃ s', s.onDeadvertised objectId = .ok s' ∧ Deadvertises s s' objectId := by
  obtain ⟨removal, hvisit, hvisited⟩ := h.visited objectId
  have htracks : TracksAll CoatyObject.objectId removal.observer.sensorSubscribers removal.observer.sensorSubscriptions := by
    rw [hvisited.sensorSubscribers, hvisited.sensorSubscriptions]
    exact h.subscribed
  have hremoved : ∀ id ∈ removal.removedThingIds, removal.observer.ObservesThing id := by
    intro id hmem
    obtain ⟨sensorId, registered, hgoes, rfl⟩ := (hvisited.mem_removedThingIds id).mp hmem
    rw [ObservesThing, hvisited.sensorSubscribers]
    exact hobserves sensorId registered hgoes
  obtain ⟨subscribers, subscriptions, hunobserve, htracks', hopen⟩ :=
    foldlM_unobserveThing hvisited.nodup_removedThingIds htracks hremoved
  let observer : ThingSensorObserver := { removal.observer with
    sensorSubscribers := subscribers
    sensorSubscriptions := subscriptions }
  refine ⟨observer.emitRemoved removal.removedSensors, ?_, ?_⟩
  · rw [onDeadvertised, hvisit]
    simp only [bind, Except.bind]
    rw [hunobserve]
    rfl
  · refine ⟨hvisited.wellFormed h htracks', ?_, fun thingId => ?_⟩
    · intro sensorId registered
      rw [registeredSensors_emitRemoved]
      exact hvisited.keyed sensorId registered
    · simp only [ObservesThing, sensorSubscribers_emitRemoved, observer, hopen, hvisited.sensorSubscribers,
        hvisited.mem_removedThingIds]
      constructor
      · intro ⟨i, thing, ⟨hstays, hthing⟩, hid⟩
        refine ⟨⟨i, thing, hthing, hid⟩, fun sensorId registered hgoes hsame => hstays ?_⟩
        exact ⟨sensorId, registered, hgoes, hsame.trans hid.symm⟩
      · intro ⟨⟨i, thing, hthing, hid⟩, hstays⟩
        refine ⟨i, thing, ⟨?_, hthing⟩, hid⟩
        intro ⟨sensorId, registered, hgoes, hsame⟩
        exact hstays sensorId registered hgoes (hsame.trans hid)

theorem observesThing_of_onDeadvertised (h : s.WellFormed) {objectId : Uuid} (hs' : s.onDeadvertised objectId = .ok s') :
    ∀ sensorId registered, s.GoesWith objectId sensorId registered → s.ObservesThing registered.thing.objectId := by
  intro sensorId registered hgoes
  obtain ⟨removal, hvisit, hvisited⟩ := h.visited objectId
  have hmem : registered.thing.objectId ∈ removal.removedThingIds :=
    (hvisited.mem_removedThingIds _).mpr ⟨sensorId, registered, hgoes, rfl⟩
  have htracks : TracksAll CoatyObject.objectId removal.observer.sensorSubscribers removal.observer.sensorSubscriptions := by
    rw [hvisited.sensorSubscribers, hvisited.sensorSubscriptions]
    exact h.subscribed
  rw [onDeadvertised, hvisit] at hs'
  simp only [bind, Except.bind] at hs'
  cases hfold : removal.removedThingIds.foldlM unobserveThing removal.observer with
  | error e =>
    rw [hfold] at hs'
    cases hs'
  | ok observer =>
    have hobserves := observesThing_of_unobserve htracks hfold _ hmem
    rwa [ObservesThing, hvisited.sensorSubscribers] at hobserves

/-! ### Removing the sensors of several ids -/

theorem deadvertises_of_ok (h : s.WellFormed) {objectId : Uuid} (hs' : s.onDeadvertised objectId = .ok s') :
    Deadvertises s s' objectId := by
  obtain ⟨s'', hs'', hdeadvertises⟩ := onDeadvertised_spec h objectId (observesThing_of_onDeadvertised h hs')
  cases hs'.symm.trans hs''
  exact hdeadvertises

theorem foldlM_onDeadvertised (h : s.WellFormed) {objectIds : List Uuid} (hs' : objectIds.foldlM onDeadvertised s = .ok s') :
    s'.WellFormed ∧ ∀ sensorId registered, s'.registeredSensors.get sensorId = some registered ↔
      s.registeredSensors.get sensorId = some registered ∧ ¬ Removes objectIds registered := by
  induction objectIds generalizing s with
  | nil =>
    cases hs'
    exact ⟨h, by simp [Removes]⟩
  | cons objectId objectIds ih =>
    rw [List.foldlM_cons] at hs'
    cases hfirst : s.onDeadvertised objectId with
    | error e =>
      rw [hfirst] at hs'
      cases hs'
    | ok s₁ =>
      rw [hfirst] at hs'
      have hdeadvertises := deadvertises_of_ok h hfirst
      obtain ⟨h', hget⟩ := ih hdeadvertises.wellFormed hs'
      refine ⟨h', fun sensorId registered => ?_⟩
      rw [hget, hdeadvertises.registeredSensors, and_assoc]
      simp [Removes, not_or]

/-- A sensor whose thing is no longer observed stays so, or removing it throws. -/
theorem not_consistent_of_unobserved (h : s.WellFormed) {sensorId : Uuid} {registered : RegisteredSensor}
    (hget : s.registeredSensors.get sensorId = some registered) (hnot : ¬ s.ObservesThing registered.thing.objectId)
    {objectIds : List Uuid} (hs' : objectIds.foldlM onDeadvertised s = .ok s') : ¬ s'.Consistent := by
  induction objectIds generalizing s with
  | nil =>
    cases hs'
    exact fun hconsistent => hnot (hconsistent.thingObserved sensorId registered hget)
  | cons objectId objectIds ih =>
    rw [List.foldlM_cons] at hs'
    cases hfirst : s.onDeadvertised objectId with
    | error e =>
      rw [hfirst] at hs'
      cases hs'
    | ok s₁ =>
      rw [hfirst] at hs'
      have hdeadvertises := deadvertises_of_ok h hfirst
      have hstays : registered.thing.parentObjectId ≠ some objectId := by
        intro hparent
        exact hnot (observesThing_of_onDeadvertised h hfirst sensorId registered ⟨hget, hparent⟩)
      refine ih hdeadvertises.wellFormed ((hdeadvertises.registeredSensors _ _).mpr ⟨hget, hstays⟩) ?_ hs'
      rw [hdeadvertises.observesThing]
      exact fun hobserves => hnot hobserves.1

theorem removes_cons {objectId : Uuid} {objectIds : List Uuid} {registered : RegisteredSensor} :
    Removes (objectId :: objectIds) registered ↔
      registered.thing.parentObjectId = some objectId ∨ Removes objectIds registered := by
  simp [Removes]

theorem removesTogether_of_consistent (h : s.WellFormed) {objectIds : List Uuid}
    (hs' : objectIds.foldlM onDeadvertised s = .ok s') (hconsistent : s'.Consistent) : s.RemovesTogether objectIds := by
  induction objectIds generalizing s with
  | nil =>
    intro sensorId registered sensorId' registered' _ _ _ hremoves
    simp [Removes] at hremoves
  | cons objectId objectIds ih =>
    rw [List.foldlM_cons] at hs'
    cases hfirst : s.onDeadvertised objectId with
    | error e =>
      rw [hfirst] at hs'
      cases hs'
    | ok s₁ =>
      rw [hfirst] at hs'
      have hdeadvertises := deadvertises_of_ok h hfirst
      have hstays := hdeadvertises.registeredSensors
      -- a sensor that stays while another one of its thing goes is no longer observed
      have hunobserved : ∀ sensorId registered sensorId' registered', s.GoesWith objectId sensorId registered →
          s.registeredSensors.get sensorId' = some registered' → registered.thing.objectId = registered'.thing.objectId →
          registered'.thing.parentObjectId = some objectId := by
        intro sensorId registered sensorId' registered' hgoes hget' hsame
        by_contra hparent
        refine not_consistent_of_unobserved hdeadvertises.wellFormed ((hstays _ _).mpr ⟨hget', hparent⟩) ?_ hs' hconsistent
        rw [hdeadvertises.observesThing]
        exact fun hobserves => hobserves.2 sensorId registered hgoes hsame
      intro sensorId registered sensorId' registered' hget hget' hsame hremoves
      by_cases hgoes : registered.thing.parentObjectId = some objectId
      · rw [hgoes]
        exact hunobserved sensorId registered sensorId' registered' ⟨hget, hgoes⟩ hget' hsame
      · have hrest := (removes_cons.mp hremoves).resolve_left hgoes
        by_cases hgoes' : registered'.thing.parentObjectId = some objectId
        · exact absurd (hunobserved sensorId' registered' sensorId registered ⟨hget', hgoes'⟩ hget hsame.symm) hgoes
        · exact ih hdeadvertises.wellFormed hs' sensorId registered sensorId' registered' ((hstays _ _).mpr ⟨hget, hgoes⟩)
            ((hstays _ _).mpr ⟨hget', hgoes'⟩) hsame hrest

theorem consistent_of_removesTogether (h : s.WellFormed) (hs : s.Consistent) {objectIds : List Uuid}
    (htogether : s.RemovesTogether objectIds) :
    ∃ s', objectIds.foldlM onDeadvertised s = .ok s' ∧ s'.Consistent := by
  induction objectIds generalizing s with
  | nil => exact ⟨s, rfl, hs⟩
  | cons objectId objectIds ih =>
    obtain ⟨s₁, hfirst, hdeadvertises⟩ := onDeadvertised_spec h objectId fun sensorId registered hgoes =>
      hs.thingObserved sensorId registered hgoes.1
    have hstays := hdeadvertises.registeredSensors
    have hs₁ : s₁.Consistent := by
      rw [hdeadvertises.wellFormed.consistent_iff]
      intro sensorId' registered' hget'
      rw [hstays] at hget'
      rw [hdeadvertises.observesThing]
      refine ⟨hs.thingObserved sensorId' registered' hget'.1, fun sensorId registered hgoes hsame => hget'.2 ?_⟩
      rw [← hgoes.2]
      exact htogether sensorId registered sensorId' registered' hgoes.1 hget'.1 hsame
        (removes_cons.mpr (Or.inl hgoes.2))
    have htogether₁ : s₁.RemovesTogether objectIds := by
      intro sensorId registered sensorId' registered' hget hget' hsame hremoves
      exact htogether sensorId registered sensorId' registered' ((hstays _ _).mp hget).1 ((hstays _ _).mp hget').1 hsame
        (removes_cons.mpr (Or.inr hremoves))
    obtain ⟨s', hs', hconsistent⟩ := ih hdeadvertises.wellFormed hs₁ htogether₁
    refine ⟨s', ?_, hconsistent⟩
    rw [List.foldlM_cons, hfirst]
    exact hs'

theorem observes_deadvertised_iff (h : s.WellFormed) (hs : s.Consistent) (objectIds : List Uuid) :
    Observes thingFilter sensorFilter s (.deadvertised objectIds) ↔ Cascades sensorFilter s (.deadvertised objectIds) := by
  rw [Observes, Cascades, step]
  constructor
  · intro ⟨s', hs', hconsistent, hanswers⟩
    refine ⟨fun sensorId registered hget hnames => ?_, removesTogether_of_consistent h hs' hconsistent⟩
    by_contra hstays
    have hget' := ((foldlM_onDeadvertised h hs').2 sensorId registered).mpr ⟨hget, hstays⟩
    rw [hanswers sensorId registered hget hnames] at hget'
    cases hget'
  · intro ⟨hnamed, htogether⟩
    obtain ⟨s', hs', hconsistent⟩ := consistent_of_removesTogether h hs htogether
    refine ⟨s', hs', hconsistent, fun sensorId registered hget hnames => ?_⟩
    rw [Option.eq_none_iff_forall_ne_some]
    intro registered' hget'
    rw [(foldlM_onDeadvertised h hs').2, hget] at hget'
    cases hget'.1
    exact hget'.2 (hnamed sensorId registered hget hnames)

/-! ### Every run -/

theorem wellFormed_step (h : s.WellFormed) {event : Event} (hs' : step thingFilter sensorFilter s event = .ok s') :
    s'.WellFormed := by
  have hreceived : ∀ (s : ThingSensorObserver) (received : CoatyObject × CoatyObject) (s' : ThingSensorObserver),
      s.WellFormed → receive sensorFilter s received = .ok s' → s'.WellFormed := by
    intro s received s' h hs'
    rw [receive] at hs'
    by_cases hrelevant : isRelevantSensor sensorFilter received.1 received.2 = true
    · by_cases hvalid : isValidEventFilter received.1.objectId.val = true
      · obtain ⟨s'', hs'', hregisters⟩ := onSensorReceived_of_valid sensorFilter h hrelevant hvalid
        cases hs'.symm.trans hs''
        exact hregisters.wellFormed
      · rw [onSensorReceived_of_not_valid sensorFilter hrelevant hvalid] at hs'
        cases hs'
    · rw [onSensorReceived_of_not_relevant sensorFilter hrelevant] at hs'
      cases hs'
      exact h
  cases event with
  | thingReceived thing =>
    cases hs'
    exact (onThingReceived_spec thingFilter h thing).1
  | sensorAdvertised sensor =>
    exact invariant_foldlM (fun s thing s' => hreceived s (sensor, thing) s') h hs'
  | sensorsRetrieved subscription sensors =>
    simp only [step] at hs'
    split at hs'
    · rename_i thing _
      exact invariant_foldlM (fun s sensor s' => hreceived s (sensor, thing) s') h hs'
    · cases hs'
      exact h
  | deadvertised objectIds => exact (foldlM_onDeadvertised h hs').1

theorem consistent_create : create.Consistent := by
  rw [wellFormed_create.consistent_iff]
  simp [create]

theorem observes_iff (h : s.WellFormed) (hs : s.Consistent) (event : Event) :
    Observes thingFilter sensorFilter s event ↔ Cascades sensorFilter s event := by
  cases event with
  | thingReceived thing =>
    obtain ⟨h', hregistered, hobserves⟩ := onThingReceived_spec thingFilter h thing
    refine iff_of_true ⟨_, rfl, h'.consistent_iff.mpr fun sensorId registered hget => ?_, trivial⟩ trivial
    rw [hregistered] at hget
    exact hobserves _ (hs.thingObserved sensorId registered hget)
  | sensorAdvertised sensor => exact observes_sensorAdvertised_iff thingFilter sensorFilter h hs sensor
  | sensorsRetrieved subscription sensors =>
    exact observes_sensorsRetrieved_iff thingFilter sensorFilter h hs subscription sensors
  | deadvertised objectIds => exact observes_deadvertised_iff thingFilter sensorFilter h hs objectIds

/-- Along a run all that is observed is consistent exactly if all events cascade. -/
theorem observes_iff_cascades (thingFilter : Option (CoatyObject → Bool))
    (sensorFilter : Option (CoatyObject → CoatyObject → Bool)) (events : List Event) :
    AlongOk (step thingFilter sensorFilter) (Observes thingFilter sensorFilter) create events ↔
      AlongOk (step thingFilter sensorFilter) (Cascades sensorFilter) create events := by
  have hstep : ∀ s event s', s.WellFormed ∧ s.Consistent → Observes thingFilter sensorFilter s event →
      step thingFilter sensorFilter s event = .ok s' → s'.WellFormed ∧ s'.Consistent := by
    intro s event s' h hobserves hs'
    obtain ⟨s'', hs'', hconsistent, _⟩ := hobserves
    cases hs'.symm.trans hs''
    exact ⟨wellFormed_step thingFilter sensorFilter h.1 hs', hconsistent⟩
  exact AlongOk.congr hstep (fun s event h => observes_iff thingFilter sensorFilter h.1 h.2 event)
    ⟨wellFormed_create, consistent_create⟩

/-- A thing is received, a sensor of it is advertised and then deadvertised by its own id. -/
def nodeEvents : List Event :=
  [.thingReceived (.plain nodeId none (text "Node")),
    .sensorAdvertised (.plain thermometerId (some nodeId) (text "Thermometer")), .deadvertised [thermometerId]]

/-- A sensor stays registered when it is deadvertised by its own id. -/
theorem not_observes_of_deadvertised :
    ¬ ∀ (thingFilter : Option (CoatyObject → Bool)) (sensorFilter : Option (CoatyObject → CoatyObject → Bool))
      (events : List Event),
      AlongOk (step thingFilter sensorFilter) (Observes thingFilter sensorFilter) create events := by
  intro h
  obtain ⟨_, hreceived⟩ := h none none nodeEvents
  obtain ⟨_, hadvertised⟩ := hreceived _ rfl
  obtain ⟨⟨s', hs', _, hanswers⟩, _⟩ := hadvertised _ rfl
  cases hs'
  have hgone := hanswers thermometerId _ rfl (Or.inl (by decide))
  cases hgone

end ThingSensorObserver

end Coaty
