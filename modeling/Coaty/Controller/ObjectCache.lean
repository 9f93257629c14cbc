import Coaty.Js.Map
import Coaty.Model.CoatyObject
import Coaty.Model.IoNode
import Coaty.Transition

/-!
# The object cache controller

Objects are resolved with Discover events and cached under their id. A cached object is replaced when it is advertised again. A resolved object has to have the core type of the controller and to pass its object filter, an advertised one does not. So the cache holds admitted objects exactly as long as each object that is advertised under an id in the cache is admitted.
-/

namespace Coaty

open Js Transition

/-- A subscription to the observable of a request, by the controller itself or by a caller of `resolveObject`. It is closed with the first object it accepts. -/
structure ResolveSubscription where
  request : Nat
  isOwn : Bool
  isOpen : Bool
deriving DecidableEq

/-- What `resolveObject` returns. -/
inductive ResolveObservable where
  | of (obj : CoatyObject)
  | request (number : Nat)

/-- The settings that a controller makes in `onInit`. -/
structure ObjectCacheOptions where
  coreType : CoreType
  objectFilter : Option (CoatyObject → Bool)

structure ObjectCache where
  objectCache : Map Uuid CoatyObject
  pendingRequests : Map Uuid Nat
  /-- The number of Discover events published. -/
  requests : Nat
  subscriptions : List ResolveSubscription
  isObservingAdvertisements : Bool
  /-- The objects that the observables returned by `resolveObject` have emitted. -/
  returned : List CoatyObject

inductive ObjectCache.Event where
  | onCommunicationManagerStarting
  | resolveObject (objectId : Uuid) (shouldResolvePending : Bool)
  /-- A caller subscribes to the observable of a request. -/
  | subscribe (request : Nat)
  /-- A Resolve event reaches a subscription. -/
  | resolve (subscription : Nat) (object : Option CoatyObject)
  /-- An Advertise event arrives under a core type. -/
  | advertise (coreType : CoreType) (object : CoatyObject)

namespace ObjectCacheOptions

variable (options : ObjectCacheOptions)

def passesFilter (obj : CoatyObject) : Bool :=
  match options.objectFilter with
  | some objectFilter => objectFilter obj
  | none => true

/-- The predicate on resolved objects. -/
def admits (obj : CoatyObject) : Bool := obj.coreType = options.coreType && options.passesFilter obj

end ObjectCacheOptions

namespace ObjectCache

def onInit : ObjectCache where
  objectCache := Map.empty
  pendingRequests := Map.empty
  requests := 0
  subscriptions := []
  isObservingAdvertisements := false
  returned := []

variable (options : ObjectCacheOptions) (s : ObjectCache)

def onCommunicationManagerStarting : ObjectCache :=
  { s with objectCache := Map.empty, pendingRequests := Map.empty, isObservingAdvertisements := true }

/-- A request is pending until its own subscription has accepted an object. -/
def publishDiscover (objectId : Uuid) : ObjectCache :=
  { s with
    requests := s.requests + 1
    pendingRequests := s.pendingRequests.set objectId s.requests
    subscriptions := s.subscriptions ++ [⟨s.requests, true, true⟩] }

def resolveObject (objectId : Uuid) (shouldResolvePending : Bool) : ResolveObservable × ObjectCache :=
  match s.objectCache.get objectId with
  | some object => (.of object, s)
  | none =>
    match s.pendingRequests.get objectId with
    | some resolve =>
      if shouldResolvePending then (.request s.requests, s.publishDiscover objectId) else (.request resolve, s)
    | none => (.request s.requests, s.publishDiscover objectId)

/-- An observable of an object emits it, one of a request emits nothing yet. -/
def recordReturned : ResolveObservable → ObjectCache
  | .of obj => { s with returned := s.returned ++ [obj] }
  | .request _ => s

def subscribe (request : Nat) : ObjectCache :=
  if request < s.requests then { s with subscriptions := s.subscriptions ++ [⟨request, false, true⟩] } else s

def onResolved (obj : CoatyObject) : ObjectCache :=
  { s with
    objectCache := s.objectCache.set obj.objectId obj
    pendingRequests := s.pendingRequests.delete obj.objectId }

/-- What the first object that meets the predicate does. -/
def resolve (i : Nat) (object : Option CoatyObject) : ObjectCache :=
  match s.subscriptions[i]?, object with
  | some subscription, some obj =>
    if subscription.isOpen && options.admits obj then
      let s := { s with subscriptions := s.subscriptions.set i { subscription with isOpen := false } }
      if subscription.isOwn then s.onResolved obj else { s with returned := s.returned ++ [obj] }
    else s
  | _, _ => s

def onAdvertise (coreType : CoreType) (obj : CoatyObject) : ObjectCache :=
  if s.isObservingAdvertisements && decide (coreType = options.coreType) && s.objectCache.has obj.objectId then
    { s with objectCache := s.objectCache.set obj.objectId obj }
  else s

def step (s : ObjectCache) : Event → ObjectCache
  | .onCommunicationManagerStarting => s.onCommunicationManagerStarting
  | .resolveObject objectId shouldResolvePending =>
    let (observable, s) := s.resolveObject objectId shouldResolvePending
    s.recordReturned observable
  | .subscribe request => s.subscribe request
  | .resolve subscription object => s.resolve options subscription object
  | .advertise coreType object => s.onAdvertise options coreType object

/-! ### The invariant -/

structure EntryAdmitted (objectId : Uuid) (obj : CoatyObject) : Prop where
  objectId_eq : obj.objectId = objectId
  coreType_eq : obj.coreType = options.coreType
  passesFilter : options.passesFilter obj = true

/-- Entries are stored under their own ids and admitted, and an object that the filter rejects was never returned. -/
structure Admitted : Prop where
  entry : ∀ objectId obj, s.objectCache.get objectId = some obj → EntryAdmitted options objectId obj
  returned : ∀ obj ∈ s.returned, options.passesFilter obj = true

def AdvertisesAdmitted (s : ObjectCache) : Event → Prop
  | .advertise coreType obj =>
    s.isObservingAdvertisements = true → coreType = options.coreType → s.objectCache.has obj.objectId = true →
      options.admits obj = true
  | _ => True

variable {options} {s}

theorem entryAdmitted_of_admits {obj : CoatyObject} (h : options.admits obj = true) :
    EntryAdmitted options obj.objectId obj := by
  rw [ObjectCacheOptions.admits, Bool.and_eq_true, decide_eq_true_eq] at h
  exact ⟨rfl, h.1, h.2⟩

theorem EntryAdmitted.admits {objectId : Uuid} {obj : CoatyObject} (h : EntryAdmitted options objectId obj) :
    options.admits obj = true := by
  rw [ObjectCacheOptions.admits, Bool.and_eq_true, decide_eq_true_eq]
  exact ⟨h.coreType_eq, h.passesFilter⟩

theorem admitted_onInit : Admitted options onInit := by
  refine ⟨fun objectId obj h => ?_, fun obj h => ?_⟩
  · rw [onInit, Map.get_empty] at h
    cases h
  · cases h

/-- Caching an object keeps the invariant exactly if the object is admitted. -/
theorem entries_set_iff {obj : CoatyObject}
    (h : ∀ objectId obj, s.objectCache.get objectId = some obj → EntryAdmitted options objectId obj) :
    (∀ objectId obj', (s.objectCache.set obj.objectId obj).get objectId = some obj' →
      EntryAdmitted options objectId obj') ↔ options.admits obj = true := by
  constructor
  · intro hset
    refine (hset obj.objectId obj ?_).admits
    rw [Map.get_set, if_pos rfl]
  · intro hadmits objectId obj' hget
    rw [Map.get_set] at hget
    split at hget
    · rename_i heq
      cases hget
      rw [heq]
      exact entryAdmitted_of_admits hadmits
    · exact h objectId obj' hget

theorem Admitted.resolveObject (h : Admitted options s) (objectId : Uuid) (shouldResolvePending : Bool) :
    Admitted options (step options s (.resolveObject objectId shouldResolvePending)) := by
  rw [step, ObjectCache.resolveObject]
  cases hcached : s.objectCache.get objectId with
  | some obj =>
    refine ⟨h.entry, fun obj' hmem => ?_⟩
    obtain hmem | heq := List.mem_append.mp hmem
    · exact h.returned obj' hmem
    · rw [List.mem_singleton.mp heq]
      exact (h.entry objectId obj hcached).passesFilter
  | none =>
    cases s.pendingRequests.get objectId with
    | none => exact ⟨h.entry, h.returned⟩
    | some resolve =>
      cases shouldResolvePending with
      | true => exact ⟨h.entry, h.returned⟩
      | false => exact h

theorem Admitted.resolve (h : Admitted options s) (i : Nat) (object : Option CoatyObject) :
    Admitted options (s.resolve options i object) := by
  rw [ObjectCache.resolve.eq_def]
  split
  · rename_i subscription obj _
    split
    · rename_i haccepts
      have hadmits : options.admits obj = true := (Bool.and_eq_true_iff.mp haccepts).2
      split
      · exact ⟨(entries_set_iff h.entry).mpr hadmits, h.returned⟩
      · refine ⟨h.entry, fun obj' hmem => ?_⟩
        obtain hmem | heq := List.mem_append.mp hmem
        · exact h.returned obj' hmem
        · rw [List.mem_singleton.mp heq]
          exact (entryAdmitted_of_admits hadmits).passesFilter
    · exact h
  · exact h

theorem Admitted.onAdvertise_iff (h : Admitted options s) (coreType : CoreType) (obj : CoatyObject) :
    Admitted options (s.onAdvertise options coreType obj) ↔ AdvertisesAdmitted options s (.advertise coreType obj) := by
  rw [ObjectCache.onAdvertise]
  split
  · rename_i hhandled
    rw [Bool.and_eq_true, Bool.and_eq_true, decide_eq_true_eq] at hhandled
    obtain ⟨⟨hobserving, htype⟩, hcached⟩ := hhandled
    constructor
    · intro hset _ _ _
      exact (entries_set_iff h.entry).mp hset.entry
    · intro hadmitted
      exact ⟨(entries_set_iff h.entry).mpr (hadmitted hobserving htype hcached), h.returned⟩
  · rename_i hignored
    refine iff_of_true h fun hobserving htype hcached => absurd ?_ hignored
    rw [hobserving, hcached, htype]
    simp

theorem Admitted.step_iff (h : Admitted options s) (event : Event) :
    Admitted options (step options s event) ↔ AdvertisesAdmitted options s event := by
  cases event with
  | onCommunicationManagerStarting =>
    refine iff_of_true ⟨fun objectId obj hget => ?_, h.returned⟩ trivial
    rw [step, onCommunicationManagerStarting, Map.get_empty] at hget
    cases hget
  | resolveObject objectId shouldResolvePending => exact iff_of_true (h.resolveObject objectId shouldResolvePending) trivial
  | subscribe request =>
    refine iff_of_true ?_ trivial
    rw [step, subscribe]
    split
    · exact ⟨h.entry, h.returned⟩
    · exact h
  | resolve subscription object => exact iff_of_true (h.resolve subscription object) trivial
  | advertise coreType obj => exact h.onAdvertise_iff coreType obj

end ObjectCache

end Coaty
