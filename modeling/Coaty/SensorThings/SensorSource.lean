import Coaty.Js.Map
import Coaty.Model.CoatyObject
import Coaty.Model.IoNode
import Coaty.Transition
import Mathlib.Data.Rat.Defs

/-!
# The sensor source controller

Sensors are registered and unregistered at any time, and a controller with registered sensors observes Query and Discover events. The fields of the two subscriptions also tell whether the controller is observing already. They are cleared when the communication manager stops, but not when the last sensor is unregistered, and only registering a sensor observes again. So the sensors of a controller become unreachable when the manager is restarted, and those of a controller that had lost all its sensors before are never reachable.
-/

namespace Coaty

open Js Transition

/-- A subscription to an observable of the communication manager. -/
structure Subscription where
  closed : Bool
deriving DecidableEq

namespace Subscription

/-- `unsubscribe()`, or the completion of the observable. -/
def unsubscribe (_ : Subscription) : Subscription := ⟨true⟩

/-- Whether a field holds a subscription that still receives events. -/
def isActive : Option Subscription → Bool
  | some subscription => !subscription.closed
  | none => false

/-- Observe unless the field holds a subscription, closed or not. -/
def observeIfNeeded : Option Subscription → Option Subscription
  | some subscription => some subscription
  | none => some ⟨false⟩

variable {field : Option Subscription}

@[simp] theorem isActive_none : isActive none = false := rfl

@[simp] theorem isActive_unsubscribe : isActive (field.map unsubscribe) = false := by
  cases field with
  | none => rfl
  | some subscription => rfl

/-- The field is empty, or the subscription in it is active. -/
def IsFresh (field : Option Subscription) : Prop := field.isSome = true → isActive field = true

instance : Decidable (IsFresh field) := inferInstanceAs (Decidable (_ → _))

theorem isActive_observeIfNeeded : isActive (observeIfNeeded field) = true ↔ IsFresh field := by
  cases field with
  | none => exact iff_of_true rfl nofun
  | some subscription => exact ⟨fun h _ => h, fun h => h rfl⟩

end Subscription

inductive ObservationPublicationType where
  | none
  | advertise
  | channel
deriving DecidableEq

structure SensorSourceOptions where
  skipSensorAdvertise : Bool
  skipSensorDeadvertise : Bool
  ignoreSensorQueryEvents : Bool
  ignoreSensorDiscoverEvents : Bool

inductive SensorPublication where
  | advertise (sensor : CoatyObject)
  | deadvertise (objectIds : List Uuid)

/-- An interval timer that reads a sensor and publishes its value. -/
structure ObservationPublisher where
  channeled : Bool
  samplingInterval : Rat

structure SensorSource where
  sensors : Map Uuid CoatyObject
  observationPublishers : Map Uuid ObservationPublisher
  /-- The sensors with a value observable. -/
  sensorValueObservables : List Uuid
  querySubscription : Option Subscription
  discoverSubscription : Option Subscription
  published : List SensorPublication
  /-- The operating state of the communication manager. -/
  isStarted : Bool

inductive SensorSource.Event where
  | registerSensor (sensor : CoatyObject) (observationPublicationType : ObservationPublicationType)
    (samplingInterval : Option Rat)
  | unregisterSensor (sensorId : Uuid)
  | getSensorValueObservable (sensorId : Uuid)
  /-- `start` without options, or the second half of one with options. -/
  | start
  /-- `stop`, or the first half of a `start` with options. -/
  | stop

namespace SensorSource

open Subscription

def create : SensorSource where
  sensors := Map.empty
  observationPublishers := Map.empty
  sensorValueObservables := []
  querySubscription := none
  discoverSubscription := none
  published := []
  isStarted := false

variable (options : SensorSourceOptions) (s : SensorSource)

def observeSensorQueriesIfNeeded : SensorSource :=
  { s with querySubscription := observeIfNeeded s.querySubscription }

def observeSensorDiscoversIfNeeded : SensorSource :=
  { s with discoverSubscription := observeIfNeeded s.discoverSubscription }

def isPositive (samplingInterval : Option Rat) : Bool := samplingInterval.any fun interval => 0 < interval

def addObservationPublisher (sensorId : Uuid) (observationPublicationType : ObservationPublicationType)
    (samplingInterval : Option Rat) : SensorSource :=
  match observationPublicationType, samplingInterval with
  | .none, _ => s
  | _, none => s
  | type, some interval =>
    { s with observationPublishers := s.observationPublishers.set sensorId ⟨type = .channel, interval⟩ }

def registerSensor (sensor : CoatyObject) (observationPublicationType : ObservationPublicationType)
    (samplingInterval : Option Rat) : Except Text SensorSource :=
  if s.sensors.has sensor.objectId then .ok s
  else if observationPublicationType ≠ .none ∧ isPositive samplingInterval = false then
    .error (text "A positive sampling interval is expected.")
  else
    let s := { s with sensors := s.sensors.set sensor.objectId sensor }
    let s := s.addObservationPublisher sensor.objectId observationPublicationType samplingInterval
    let s := if options.skipSensorAdvertise then s else { s with published := s.published ++ [.advertise sensor] }
    let s := if options.ignoreSensorQueryEvents then s else s.observeSensorQueriesIfNeeded
    .ok (if options.ignoreSensorDiscoverEvents then s else s.observeSensorDiscoversIfNeeded)

/-- For an unknown sensor an error is returned, not thrown. -/
def unregisterSensor (sensorId : Uuid) : SensorSource :=
  if s.sensors.has sensorId then
    let s := { s with
      sensors := s.sensors.delete sensorId
      sensorValueObservables := s.sensorValueObservables.filter fun id => id ≠ sensorId
      observationPublishers := s.observationPublishers.delete sensorId }
    let s :=
      if options.skipSensorDeadvertise then s else { s with published := s.published ++ [.deadvertise [sensorId]] }
    if s.sensors.size = 0 then
      { s with
        querySubscription := s.querySubscription.map unsubscribe
        discoverSubscription := s.discoverSubscription.map unsubscribe }
    else s
  else s

def getSensorValueObservable (sensorId : Uuid) : Except Text SensorSource :=
  if s.sensors.has sensorId then
    .ok (if sensorId ∈ s.sensorValueObservables then s
      else { s with sensorValueObservables := s.sensorValueObservables ++ [sensorId] })
  else .error (text "Cannot create a value observable for a non-registered sensor.")

def onCommunicationManagerStopping : SensorSource :=
  { s with querySubscription := none, discoverSubscription := none }

/-- The controller is told of the stop only if the manager is started, but in any case all observables of the manager complete. -/
def stop : SensorSource :=
  let s := if s.isStarted then { s.onCommunicationManagerStopping with isStarted := false } else s
  { s with
    querySubscription := s.querySubscription.map unsubscribe
    discoverSubscription := s.discoverSubscription.map unsubscribe }

/-- A call that throws has not changed anything. -/
def step (s : SensorSource) : Event → SensorSource
  | .registerSensor sensor observationPublicationType samplingInterval =>
    (s.registerSensor options sensor observationPublicationType samplingInterval).toOption.getD s
  | .unregisterSensor sensorId => s.unregisterSensor options sensorId
  | .getSensorValueObservable sensorId => (s.getSensorValueObservable sensorId).toOption.getD s
  | .start => { s with isStarted := true }
  | .stop => s.stop

/-! ### What the operations do to the subscriptions -/

variable {options} {s}

/-- Whether a call of `registerSensor` registers the sensor. -/
def Registers (s : SensorSource) (sensor : CoatyObject) (observationPublicationType : ObservationPublicationType)
    (samplingInterval : Option Rat) : Prop :=
  s.sensors.has sensor.objectId = false ∧ (observationPublicationType ≠ .none → isPositive samplingInterval = true)

instance (sensor : CoatyObject) (type : ObservationPublicationType) (interval : Option Rat) :
    Decidable (s.Registers sensor type interval) :=
  inferInstanceAs (Decidable (_ ∧ _))

@[simp] theorem sensors_addObservationPublisher (sensorId : Uuid) (type : ObservationPublicationType)
    (interval : Option Rat) : (s.addObservationPublisher sensorId type interval).sensors = s.sensors := by
  unfold addObservationPublisher
  split <;> rfl

@[simp] theorem isStarted_addObservationPublisher (sensorId : Uuid) (type : ObservationPublicationType)
    (interval : Option Rat) : (s.addObservationPublisher sensorId type interval).isStarted = s.isStarted := by
  unfold addObservationPublisher
  split <;> rfl

@[simp] theorem querySubscription_addObservationPublisher (sensorId : Uuid) (type : ObservationPublicationType)
    (interval : Option Rat) : (s.addObservationPublisher sensorId type interval).querySubscription = s.querySubscription := by
  unfold addObservationPublisher
  split <;> rfl

@[simp] theorem discoverSubscription_addObservationPublisher (sensorId : Uuid) (type : ObservationPublicationType)
    (interval : Option Rat) : (s.addObservationPublisher sensorId type interval).discoverSubscription = s.discoverSubscription := by
  unfold addObservationPublisher
  split <;> rfl

theorem step_registerSensor_of_not_registers {sensor : CoatyObject} {type : ObservationPublicationType}
    {interval : Option Rat} (h : ¬ s.Registers sensor type interval) :
    step options s (.registerSensor sensor type interval) = s := by
  rw [step, registerSensor]
  by_cases hhas : s.sensors.has sensor.objectId = true
  · rw [if_pos hhas]
    rfl
  · rw [if_neg hhas, if_pos]
    · rfl
    · by_contra hvalid
      refine h ⟨Bool.eq_false_iff.mpr hhas, fun htype => ?_⟩
      by_contra hinterval
      exact hvalid ⟨htype, Bool.eq_false_iff.mpr hinterval⟩

theorem step_registerSensor_of_registers (options : SensorSourceOptions) {sensor : CoatyObject} {type : ObservationPublicationType}
    {interval : Option Rat} (h : s.Registers sensor type interval) :
    ∃ s', step options s (.registerSensor sensor type interval) = s' ∧
      s'.sensors = s.sensors.set sensor.objectId sensor ∧ s'.isStarted = s.isStarted ∧
      (options.ignoreSensorQueryEvents = false → s'.querySubscription = observeIfNeeded s.querySubscription) ∧
      (options.ignoreSensorDiscoverEvents = false →
        s'.discoverSubscription = observeIfNeeded s.discoverSubscription) := by
  refine ⟨_, rfl, ?_⟩
  have hvalid : ¬ (type ≠ .none ∧ isPositive interval = false) := by
    intro ⟨htype, hinterval⟩
    rw [h.2 htype] at hinterval
    cases hinterval
  rw [step, registerSensor, if_neg (by rw [h.1]; decide), if_neg hvalid]
  cases options.skipSensorAdvertise <;> cases options.ignoreSensorQueryEvents <;>
    cases options.ignoreSensorDiscoverEvents <;>
    simp [observeSensorQueriesIfNeeded, observeSensorDiscoversIfNeeded, Except.toOption]

theorem unregisterSensor_of_not_has {sensorId : Uuid} (h : s.sensors.has sensorId = false) :
    s.unregisterSensor options sensorId = s := by
  rw [unregisterSensor, if_neg]
  rw [h]
  decide

/-- With the last sensor the subscriptions end, but stay in their fields. -/
theorem unregisterSensor_of_has (options : SensorSourceOptions) {sensorId : Uuid} (h : s.sensors.has sensorId = true) :
    ∃ s', s.unregisterSensor options sensorId = s' ∧
      s'.sensors = s.sensors.delete sensorId ∧ s'.isStarted = s.isStarted ∧
      (if s'.sensors.size = 0 then
        s'.querySubscription = s.querySubscription.map unsubscribe ∧
          s'.discoverSubscription = s.discoverSubscription.map unsubscribe
      else s'.querySubscription = s.querySubscription ∧ s'.discoverSubscription = s.discoverSubscription) := by
  refine ⟨_, rfl, ?_⟩
  rw [unregisterSensor, if_pos h]
  cases options.skipSensorDeadvertise <;>
    by_cases hlast : (s.sensors.delete sensorId).size = 0 <;>
    simp [hlast]

theorem step_getSensorValueObservable (options : SensorSourceOptions) (s : SensorSource) (sensorId : Uuid) :
    ∃ observables, step options s (.getSensorValueObservable sensorId) =
      { s with sensorValueObservables := observables } := by
  rw [step, getSensorValueObservable]
  split
  · split
    · exact ⟨s.sensorValueObservables, rfl⟩
    · exact ⟨_, rfl⟩
  · exact ⟨s.sensorValueObservables, rfl⟩

/-! ### Reachability -/

/-- While the manager is started, registered sensors are observed for, and without sensors nothing is ever observed. -/
structure Reachable (s : SensorSource) : Prop where
  observing : s.isStarted = true → s.sensors.size ≠ 0 →
    isActive s.querySubscription = true ∧ isActive s.discoverSubscription = true
  idle : s.sensors.size = 0 → isActive s.querySubscription = false ∧ isActive s.discoverSubscription = false

/-- A sensor is registered while the subscription fields hold no ended subscription, and the manager is started while the subscriptions of registered sensors are active. -/
def Reconnects (s : SensorSource) : Event → Prop
  | .registerSensor sensor observationPublicationType samplingInterval =>
    s.Registers sensor observationPublicationType samplingInterval → s.isStarted = true →
      IsFresh s.querySubscription ∧ IsFresh s.discoverSubscription
  | .start => s.sensors.size ≠ 0 → isActive s.querySubscription = true ∧ isActive s.discoverSubscription = true
  | _ => True

theorem reachable_create : Reachable create := by
  refine ⟨fun h => ?_, fun _ => ⟨rfl, rfl⟩⟩
  cases h

theorem size_set_ne_zero (sensors : Map Uuid CoatyObject) (sensor : CoatyObject) :
    (sensors.set sensor.objectId sensor).size ≠ 0 := by
  rw [ne_eq, Map.size_eq_zero]
  intro h
  have hget := h sensor.objectId
  rw [Map.get_set, if_pos rfl] at hget
  cases hget

theorem Reachable.registerSensor_iff (h : Reachable s) (hquery : options.ignoreSensorQueryEvents = false)
    (hdiscover : options.ignoreSensorDiscoverEvents = false) (sensor : CoatyObject)
    (type : ObservationPublicationType) (interval : Option Rat) :
    Reachable (step options s (.registerSensor sensor type interval)) ↔
      Reconnects s (.registerSensor sensor type interval) := by
  by_cases hregisters : s.Registers sensor type interval
  · obtain ⟨s', hs', hsensors, hstarted, hqueries, hdiscovers⟩ :=
      step_registerSensor_of_registers options hregisters
    have hsize : s'.sensors.size ≠ 0 := hsensors ▸ size_set_ne_zero s.sensors sensor
    rw [hs']
    constructor
    · intro hreachable _ hs
      have hactive := hreachable.observing (hstarted.trans hs) hsize
      rw [hqueries hquery, hdiscovers hdiscover, isActive_observeIfNeeded, isActive_observeIfNeeded] at hactive
      exact hactive
    · intro hfresh
      refine ⟨fun hs _ => ?_, fun hempty => absurd hempty hsize⟩
      rw [hqueries hquery, hdiscovers hdiscover, isActive_observeIfNeeded, isActive_observeIfNeeded]
      exact hfresh hregisters (hstarted.symm.trans hs)
  · rw [step_registerSensor_of_not_registers hregisters]
    exact iff_of_true h fun hregisters' => absurd hregisters' hregisters

theorem Reachable.unregisterSensor (h : Reachable s) (sensorId : Uuid) :
    Reachable (s.unregisterSensor options sensorId) := by
  cases hhas : s.sensors.has sensorId with
  | false =>
    rw [unregisterSensor_of_not_has hhas]
    exact h
  | true =>
    obtain ⟨s', hs', hsensors, hstarted, hfields⟩ := unregisterSensor_of_has options hhas
    rw [hs']
    obtain ⟨sensor, hget⟩ := Map.has_iff.mp hhas
    have hsize : s.sensors.size ≠ 0 := by
      rw [ne_eq, Map.size_eq_zero]
      intro hempty
      rw [hempty sensorId] at hget
      cases hget
    by_cases hlast : s'.sensors.size = 0
    · rw [if_pos hlast] at hfields
      refine ⟨fun _ hne => absurd hlast hne, fun _ => ?_⟩
      rw [hfields.1, hfields.2]
      exact ⟨isActive_unsubscribe, isActive_unsubscribe⟩
    · rw [if_neg hlast] at hfields
      refine ⟨fun hs _ => ?_, fun hempty => absurd hempty hlast⟩
      rw [hfields.1, hfields.2]
      exact h.observing (hstarted.symm.trans hs) hsize

theorem reachable_stop : Reachable s.stop := by
  refine ⟨fun hs => ?_, fun _ => ⟨isActive_unsubscribe, isActive_unsubscribe⟩⟩
  rw [stop] at hs
  cases hstarted : s.isStarted <;> simp [hstarted] at hs

theorem Reachable.step_iff (h : Reachable s) (hquery : options.ignoreSensorQueryEvents = false)
    (hdiscover : options.ignoreSensorDiscoverEvents = false) (event : Event) :
    Reachable (step options s event) ↔ Reconnects s event := by
  cases event with
  | registerSensor sensor type interval => exact h.registerSensor_iff hquery hdiscover sensor type interval
  | unregisterSensor sensorId => exact iff_of_true (h.unregisterSensor sensorId) trivial
  | getSensorValueObservable sensorId =>
    obtain ⟨observables, hstep⟩ := step_getSensorValueObservable options s sensorId
    rw [hstep]
    exact iff_of_true ⟨h.observing, h.idle⟩ trivial
  | start =>
    constructor
    · intro hreachable hsize
      exact hreachable.observing rfl hsize
    · intro hactive
      exact ⟨fun _ hsize => hactive hsize, h.idle⟩
  | stop => exact iff_of_true reachable_stop trivial

/-- Along a run, registered sensors are reachable exactly if every sensor is registered, and the manager started, while no subscription that is needed has ended. -/
theorem reachable_iff_reconnects (hquery : options.ignoreSensorQueryEvents = false)
    (hdiscover : options.ignoreSensorDiscoverEvents = false) (events : List Event) :
    (∀ n, Reachable ((events.take n).foldl (step options) create)) ↔
      Along (step options) Reconnects create events :=
  forall_take_iff_along (I := fun _ => True) (fun _ _ _ => trivial)
    (fun _ event _ h => h.step_iff hquery hdiscover event) trivial reachable_create

def observingOptions : SensorSourceOptions := ⟨false, false, false, false⟩

theorem reachable_iff_reconnects_thermometer :
    (∀ n, Reachable (([.start, .registerSensor (.plain thermometerId none (text "Thermometer")) .none none].take n).foldl
      (step observingOptions) create)) ↔
      Along (step observingOptions) Reconnects create
        [.start, .registerSensor (.plain thermometerId none (text "Thermometer")) .none none] :=
  reachable_iff_reconnects rfl rfl _

/-- A sensor that is registered after the last one was unregistered is not observed for. -/
theorem not_reachable_of_reregistered :
    ¬ ∀ (options : SensorSourceOptions) (events : List Event), options.ignoreSensorQueryEvents = false →
      options.ignoreSensorDiscoverEvents = false → ∀ n, Reachable ((events.take n).foldl (step options) create) := by
  intro h
  have hrun := h observingOptions
    [.start, .registerSensor (.plain thermometerId none (text "Thermometer")) .none none,
      .unregisterSensor thermometerId, .registerSensor (.plain barometerId none (text "Barometer")) .none none] rfl rfl 4
  have hactive := (hrun.observing rfl (by decide)).1
  cases hactive

end SensorSource

end Coaty
