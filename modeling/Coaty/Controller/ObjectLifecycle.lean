import Coaty.Js.Map
import Coaty.Model.CoatyObject
import Coaty.Model.IoNode
import Coaty.Transition
import Coaty.Util.Content
import Mathlib.Data.Option.Basic

/-!
# The object lifecycle controller

Objects that are advertised or resolved are registered, and removed when they or their parents are deadvertised. Each event yields at most one info about what was added, changed or removed. Replaying the infos gives the registry, up to the order of properties of objects that were received again. An object that is its own parent is reported removed twice, and receiving an object again is an error if the registered one cannot be compared with it.
-/

namespace Coaty

open Js Transition Evaluation

abbrev Registry := Map Uuid CoatyObject

/-- Exactly one of the properties of an info is set. -/
inductive ObjectLifecycleInfo where
  | added (objects : List CoatyObject)
  | changed (objects : List CoatyObject)
  | removed (objects : List CoatyObject)

inductive LifecycleEvent where
  /-- An Advertise or a Resolve event. -/
  | received (object : Option CoatyObject)
  | deadvertised (objectIds : List Uuid)

/-- An event that has not been filtered out, with the info it yields. -/
structure HandledEvent where
  before : Registry
  event : LifecycleEvent
  info : Option ObjectLifecycleInfo
  after : Registry

structure ObjectLifecycle where
  registry : Registry
  /-- The events so far, oldest first. -/
  handled : List HandledEvent

namespace ObjectLifecycle

def addToRegistry (registry : Registry) (obj : CoatyObject) :
    Registry × Except Error (Option ObjectLifecycleInfo) :=
  (registry.set obj.objectId obj,
    match registry.get obj.objectId with
    | none => .ok (some (.added [obj]))
    | some robj => do
      let equal ← Deep.equals obj.value robj.value
      return if equal then none else some (.changed [obj]))

/-- The visit of a registered object while `objectId` is removed. -/
def visit (objectId : Uuid) (acc : Registry × List CoatyObject) (o : CoatyObject) : Registry × List CoatyObject :=
  if o.parentObjectId = some objectId then (acc.1.delete o.objectId, acc.2 ++ [o]) else acc

def updateRegistryOnRemove (acc : Registry × List CoatyObject) (objectId : Uuid) : Registry × List CoatyObject :=
  let (registry, removed) := acc.1.values.foldl (visit objectId) acc
  match acc.1.get objectId with
  | some obj => (registry.delete objectId, removed ++ [obj])
  | none => (registry, removed)

def removeFromRegistry (registry : Registry) (objectIds : List Uuid) : Registry × Option ObjectLifecycleInfo :=
  let (registry, removed) := objectIds.foldl updateRegistryOnRemove (registry, [])
  (registry, if removed.length = 0 then none else some (.removed removed))

variable (objectFilter : Option (CoatyObject → Bool))

def isTracked (obj : CoatyObject) : Bool :=
  match objectFilter with
  | some objectFilter => objectFilter obj
  | none => true

def initial : ObjectLifecycle := ⟨Map.empty, []⟩

variable (s : ObjectLifecycle)

def record (event : LifecycleEvent) (after : Registry) (info : Option ObjectLifecycleInfo) : ObjectLifecycle :=
  ⟨after, s.handled ++ [⟨s.registry, event, info, after⟩]⟩

/-- An error ends the stream of infos. -/
def step (s : ObjectLifecycle) (event : LifecycleEvent) : Except Error ObjectLifecycle :=
  match event with
  | .received none => .ok s
  | .received (some obj) =>
    if isTracked objectFilter obj then do
      let (registry, info) := addToRegistry s.registry obj
      return s.record event registry (← info)
    else .ok s
  | .deadvertised objectIds =>
    let (registry, info) := removeFromRegistry s.registry objectIds
    .ok (s.record event registry info)

/-! ### Replaying infos -/

def applyInfo (m : Registry) : ObjectLifecycleInfo → Registry
  | .added objects => objects.foldl (fun m obj => m.set obj.objectId obj) m
  | .changed objects => objects.foldl (fun m obj => m.set obj.objectId obj) m
  | .removed objects => objects.foldl (fun m obj => m.delete obj.objectId) m

def infos : List ObjectLifecycleInfo := s.handled.filterMap HandledEvent.info

def replay : Registry := s.infos.foldl applyInfo Map.empty

/-- The same object up to the order of properties. -/
def SameObject (obj other : CoatyObject) : Prop := obj = other ∨ Deep.sameContent obj.value other.value = true

def Replays : Prop := ∀ objectId, Option.Rel SameObject (s.registry.get objectId) (s.replay.get objectId)

end ObjectLifecycle

/-- What an info says is so. -/
structure HandledEvent.Faithful (handled : HandledEvent) : Prop where
  added : ∀ objects, handled.info = some (.added objects) →
    ∀ obj ∈ objects, handled.before.get obj.objectId = none
  changed : ∀ objects, handled.info = some (.changed objects) →
    ∀ obj ∈ objects, ∃ robj, handled.before.get obj.objectId = some robj ∧
      Deep.sameContent obj.value robj.value = false
  removed : ∀ objects, handled.info = some (.removed objects) →
    (objects.map CoatyObject.objectId).Nodup ∧ ∀ obj ∈ objects, handled.before.get obj.objectId = some obj
  deadvertised : ∀ objectIds, handled.event = .deadvertised objectIds →
    ∀ objectId obj, handled.after.get objectId = some obj ↔
      handled.before.get objectId = some obj ∧ objectId ∉ objectIds ∧
        ∀ parent ∈ objectIds, obj.parentObjectId ≠ some parent

namespace ObjectLifecycle

structure Consistent (s : ObjectLifecycle) : Prop where
  replays : s.Replays
  faithful : ∀ handled ∈ s.handled, handled.Faithful

/-- An object that is received again can be compared with the registered one, and no object that is its own parent is deadvertised by its id. -/
def Distinguishes (objectFilter : Option (CoatyObject → Bool)) (s : ObjectLifecycle) : LifecycleEvent → Prop
  | .received none => True
  | .received (some obj) =>
    isTracked objectFilter obj = true →
      ∀ robj, s.registry.get obj.objectId = some robj → Returns (Deep.equals obj.value robj.value)
  | .deadvertised objectIds =>
    ∀ objectId ∈ objectIds, ∀ obj, s.registry.get objectId = some obj → obj.parentObjectId ≠ some objectId

/-- Objects are registered under their ids. -/
def Keyed (registry : Registry) : Prop := ∀ objectId obj, registry.get objectId = some obj → obj.objectId = objectId

/-! ### Storing and deleting objects -/

variable {registry : Registry}

theorem Keyed.set (h : Keyed registry) (obj : CoatyObject) : Keyed (registry.set obj.objectId obj) := by
  intro objectId obj' hget
  rw [Map.get_set] at hget
  split at hget
  · rename_i heq
    cases hget
    exact heq.symm
  · exact h objectId obj' hget

theorem get_foldl_delete (objects : List CoatyObject) (objectId : Uuid) :
    (objects.foldl (fun m obj => m.delete obj.objectId) registry).get objectId =
      if objectId ∈ objects.map CoatyObject.objectId then none else registry.get objectId := by
  rw [← Map.get_foldl_delete, List.foldl_map]

theorem Keyed.map_objectId_values (h : Keyed registry) : registry.values.map CoatyObject.objectId = registry.keys := by
  rw [Map.values, Map.keys, List.map_map]
  apply List.map_congr_left
  intro e hmem
  exact h e.1 e.2 (Map.mem_entries.mp hmem)

theorem Keyed.mem_values (h : Keyed registry) {obj : CoatyObject} :
    obj ∈ registry.values ↔ registry.get obj.objectId = some obj := by
  rw [Map.mem_values]
  constructor
  · intro ⟨objectId, hget⟩
    rwa [h objectId obj hget]
  · intro hget
    exact ⟨obj.objectId, hget⟩

/-! ### Removing objects -/

/-- The registered objects with the given parent. -/
def childrenOf (registry : Registry) (objectId : Uuid) : List CoatyObject :=
  registry.values.filter fun o => o.parentObjectId = some objectId

/-- What is reported for one id. -/
def removals (registry : Registry) (objectId : Uuid) : List CoatyObject :=
  childrenOf registry objectId ++ (registry.get objectId).toList

theorem foldl_visit (objectId : Uuid) (os : List CoatyObject) (acc : Registry × List CoatyObject) :
    os.foldl (visit objectId) acc =
      ((os.filter fun o => o.parentObjectId = some objectId).foldl (fun m o => m.delete o.objectId) acc.1,
        acc.2 ++ os.filter fun o => o.parentObjectId = some objectId) := by
  induction os generalizing acc with
  | nil => simp
  | cons o os ih =>
    rw [List.foldl_cons, ih, visit]
    by_cases hparent : o.parentObjectId = some objectId
    · simp [hparent]
    · simp [hparent]

theorem updateRegistryOnRemove_snd (removed : List CoatyObject) (objectId : Uuid) :
    (updateRegistryOnRemove (registry, removed) objectId).2 = removed ++ removals registry objectId := by
  rw [updateRegistryOnRemove, foldl_visit, removals, childrenOf]
  cases registry.get objectId with
  | none => simp
  | some obj => simp

theorem mem_childrenOf (h : Keyed registry) {obj : CoatyObject} {objectId : Uuid} :
    obj ∈ childrenOf registry objectId ↔ registry.get obj.objectId = some obj ∧ obj.parentObjectId = some objectId := by
  rw [childrenOf, List.mem_filter, h.mem_values, decide_eq_true_eq]

theorem mem_removals (h : Keyed registry) {obj : CoatyObject} {objectId : Uuid} :
    obj ∈ removals registry objectId ↔
      registry.get obj.objectId = some obj ∧ (obj.parentObjectId = some objectId ∨ obj.objectId = objectId) := by
  rw [removals, List.mem_append, mem_childrenOf h, Option.mem_toList]
  constructor
  · intro hmem
    obtain ⟨hget, hparent⟩ | hget := hmem
    · exact ⟨hget, Or.inl hparent⟩
    · have hid := h objectId obj hget
      exact ⟨hid.symm ▸ hget, Or.inr hid⟩
  · intro ⟨hget, hremoved⟩
    obtain hparent | hid := hremoved
    · exact Or.inl ⟨hget, hparent⟩
    · exact Or.inr (hid ▸ hget)

theorem get_updateRegistryOnRemove (h : Keyed registry) (removed : List CoatyObject) (objectId k : Uuid)
    (obj : CoatyObject) :
    (updateRegistryOnRemove (registry, removed) objectId).1.get k = some obj ↔
      registry.get k = some obj ∧ k ≠ objectId ∧ obj.parentObjectId ≠ some objectId := by
  have hvisited : ((childrenOf registry objectId).foldl (fun m o => m.delete o.objectId) registry).get k = some obj ↔
      registry.get k = some obj ∧ obj.parentObjectId ≠ some objectId := by
    rw [get_foldl_delete]
    by_cases hmem : k ∈ (childrenOf registry objectId).map CoatyObject.objectId
    · rw [if_pos hmem]
      obtain ⟨child, hchild, hk⟩ := List.mem_map.mp hmem
      rw [mem_childrenOf h, hk] at hchild
      refine iff_of_false nofun ?_
      intro ⟨hget, hparent⟩
      rw [hchild.1] at hget
      cases hget
      exact hparent hchild.2
    · rw [if_neg hmem]
      refine ⟨fun hget => ⟨hget, fun hparent => hmem ?_⟩, fun hget => hget.1⟩
      have hid := h k obj hget
      exact List.mem_map.mpr ⟨obj, (mem_childrenOf h).mpr ⟨hid.symm ▸ hget, hparent⟩, hid⟩
  rw [updateRegistryOnRemove, foldl_visit, ← childrenOf]
  cases hget : registry.get objectId with
  | none =>
    rw [hvisited]
    have hne : registry.get k = some obj → k ≠ objectId := by
      intro hk heq
      rw [heq, hget] at hk
      cases hk
    tauto
  | some target =>
    rw [Map.get_delete]
    split
    · rename_i heq
      simp [heq]
    · rename_i hne
      rw [hvisited]
      tauto

/-- What has been removed and reported after some of the deadvertised ids. -/
structure Removed (before : Registry) (objectIds : List Uuid) (acc : Registry × List CoatyObject) : Prop where
  get : ∀ objectId obj, acc.1.get objectId = some obj ↔
    before.get objectId = some obj ∧ objectId ∉ objectIds ∧ ∀ parent ∈ objectIds, obj.parentObjectId ≠ some parent
  mem : ∀ obj, obj ∈ acc.2 ↔ before.get obj.objectId = some obj ∧ acc.1.get obj.objectId = none
  nodup : (acc.2.map CoatyObject.objectId).Nodup ↔
    ∀ objectId ∈ objectIds, ∀ obj, before.get objectId = some obj → obj.parentObjectId ≠ some objectId

theorem Keyed.removed_nil (before : Registry) : Removed before [] (before, []) := by
  refine ⟨by simp, fun obj => iff_of_false List.not_mem_nil ?_, by simp⟩
  intro hremoved
  obtain ⟨hget, hnone⟩ := hremoved
  rw [hget] at hnone
  cases hnone

theorem nodup_removals (h : Keyed registry) (objectId : Uuid) :
    ((removals registry objectId).map CoatyObject.objectId).Nodup ↔
      ∀ obj, registry.get objectId = some obj → obj.parentObjectId ≠ some objectId := by
  have hchildren : ((childrenOf registry objectId).map CoatyObject.objectId).Nodup := by
    have hnodup := registry.keys_nodup
    rw [← h.map_objectId_values] at hnodup
    exact hnodup.sublist (List.filter_sublist.map _)
  rw [removals, List.map_append, List.nodup_append]
  cases hget : registry.get objectId with
  | none => simp [hchildren]
  | some target =>
    have hid := h objectId target hget
    constructor
    · intro ⟨_, _, hdisjoint⟩ obj hobj hparent
      cases hobj
      have hchild : target ∈ childrenOf registry objectId := (mem_childrenOf h).mpr ⟨hid.symm ▸ hget, hparent⟩
      exact hdisjoint _ (List.mem_map_of_mem hchild) target.objectId (by simp) rfl
    · intro hparent
      refine ⟨hchildren, by simp, ?_⟩
      intro k hk k' hk' heq
      obtain ⟨child, hchild, hkchild⟩ := List.mem_map.mp hk
      have hktarget : k' = target.objectId := by simpa using hk'
      rw [mem_childrenOf h, hkchild, heq, hktarget, hid, hget] at hchild
      cases hchild.1
      exact hparent target rfl hchild.2

theorem Removed.step {before : Registry} {objectIds : List Uuid} {acc : Registry × List CoatyObject}
    (hbefore : Keyed before) (h : Removed before objectIds acc) (objectId : Uuid) :
    Removed before (objectIds ++ [objectId]) (updateRegistryOnRemove acc objectId) := by
  obtain ⟨registry, removed⟩ := acc
  have hkeyed : Keyed registry := fun k obj hget => hbefore k obj ((h.get k obj).mp hget).1
  have hget := get_updateRegistryOnRemove hkeyed removed objectId
  refine ⟨fun k obj => ?_, fun obj => ?_, ?_⟩
  · rw [hget, h.get]
    simp only [List.mem_append, List.mem_singleton, not_or, or_imp, forall_and, forall_eq]
    tauto
  · rw [updateRegistryOnRemove_snd, List.mem_append, mem_removals hkeyed, h.mem]
    cases hk : registry.get obj.objectId with
    | none =>
      have hnone : (updateRegistryOnRemove (registry, removed) objectId).1.get obj.objectId = none := by
        rw [Option.eq_none_iff_forall_ne_some]
        intro obj' hget'
        rw [hget, hk] at hget'
        cases hget'.1
      simp [hnone]
    | some obj' =>
      have hstill : (updateRegistryOnRemove (registry, removed) objectId).1.get obj.objectId = none ↔
          obj'.parentObjectId = some objectId ∨ obj.objectId = objectId := by
        rw [Option.eq_none_iff_forall_ne_some]
        simp only [ne_eq, hget, hk, Option.some.injEq, not_and, not_not]
        constructor
        · intro hgone
          by_cases hid : obj.objectId = objectId
          · exact Or.inr hid
          · exact Or.inl (hgone obj' rfl hid)
        · intro hgone obj'' heq hid
          rw [← heq]
          exact hgone.resolve_right hid
      have hbefore' : before.get obj.objectId = some obj' := ((h.get _ _).mp hk).1
      rw [hstill, hbefore', Option.some.injEq]
      constructor
      · intro hmem
        obtain ⟨_, hnone⟩ | ⟨rfl, hgone⟩ := hmem
        · cases hnone
        · exact ⟨rfl, hgone⟩
      · intro hgone
        exact Or.inr ⟨hgone.1, hgone.1 ▸ hgone.2⟩
  · have hdisjoint : ∀ a ∈ removed.map CoatyObject.objectId,
        ∀ b ∈ (removals registry objectId).map CoatyObject.objectId, a ≠ b := by
      intro a ha b hb heq
      obtain ⟨obj, hobj, rfl⟩ := List.mem_map.mp ha
      obtain ⟨obj', hobj', rfl⟩ := List.mem_map.mp hb
      have hnone := ((h.mem obj).mp hobj).2
      have hsome := ((mem_removals hkeyed).mp hobj').1
      rw [← heq, hnone] at hsome
      cases hsome
    rw [updateRegistryOnRemove_snd, List.map_append, List.nodup_append, h.nodup, nodup_removals hkeyed]
    simp only [List.mem_append, List.mem_singleton, or_imp, forall_and, forall_eq]
    refine and_congr_right fun hearlier => ⟨fun hlast obj hobj hparent => ?_, fun hlast => ⟨fun obj hobj => ?_, hdisjoint⟩⟩
    · -- an object that an earlier id has removed is not its own parent
      by_cases hmem : objectId ∈ objectIds
      · exact hearlier objectId hmem obj hobj hparent
      · refine hlast.1 obj ((h.get objectId obj).mpr ⟨hobj, hmem, fun parent hparents heq => hmem ?_⟩) hparent
        rw [hparent, Option.some.injEq] at heq
        rwa [heq]
    · exact hlast obj ((h.get objectId obj).mp hobj).1

theorem removed_foldl (hbefore : Keyed registry) (objectIds : List Uuid) :
    Removed registry objectIds (objectIds.foldl updateRegistryOnRemove (registry, [])) := by
  induction objectIds using List.reverseRecOn with
  | nil => exact Keyed.removed_nil registry
  | append_singleton objectIds objectId ih =>
    rw [List.foldl_append, List.foldl_cons, List.foldl_nil]
    exact ih.step hbefore objectId

/-! ### Each event -/

variable {objectFilter : Option (CoatyObject → Bool)} {s : ObjectLifecycle}

theorem SameObject.trans {obj other another : CoatyObject} (h : SameObject obj other)
    (h' : SameObject other another) : SameObject obj another := by
  obtain rfl | h := h
  · exact h'
  · obtain rfl | h' := h'
    · exact Or.inr h
    · exact Or.inr (Deep.sameContent_trans h h')

theorem replay_record (event : LifecycleEvent) (after : Registry) (info : Option ObjectLifecycleInfo) :
    (s.record event after info).replay = info.elim s.replay (applyInfo s.replay) := by
  rw [replay, infos, record, List.filterMap_append]
  cases info with
  | none =>
    simp
    rfl
  | some info =>
    simp
    rfl

theorem Consistent.record_iff (h : Consistent s) (event : LifecycleEvent) (after : Registry)
    (info : Option ObjectLifecycleInfo) (hreplays : (s.record event after info).Replays) :
    Consistent (s.record event after info) ↔ HandledEvent.Faithful ⟨s.registry, event, info, after⟩ := by
  constructor
  · intro hconsistent
    exact hconsistent.faithful _ (List.mem_append_right _ (List.mem_singleton.mpr rfl))
  · intro hfaithful
    refine ⟨hreplays, fun handled hmem => ?_⟩
    obtain hmem | heq := List.mem_append.mp hmem
    · exact h.faithful handled hmem
    · rw [List.mem_singleton.mp heq]
      exact hfaithful

theorem replays_set (h : s.Replays) (obj : CoatyObject) (objectId : Uuid) :
    Option.Rel SameObject ((s.registry.set obj.objectId obj).get objectId)
      ((s.replay.set obj.objectId obj).get objectId) := by
  rw [Map.get_set, Map.get_set]
  split
  · exact .some (Or.inl rfl)
  · exact h objectId

theorem faithful_received {before after : Registry} {object : Option CoatyObject} {info : Option ObjectLifecycleInfo}
    (hadded : ∀ objects, info = some (.added objects) → ∀ obj ∈ objects, before.get obj.objectId = none)
    (hchanged : ∀ objects, info = some (.changed objects) → ∀ obj ∈ objects,
      ∃ robj, before.get obj.objectId = some robj ∧ Deep.sameContent obj.value robj.value = false)
    (hremoved : ∀ objects, info ≠ some (.removed objects)) :
    HandledEvent.Faithful ⟨before, .received object, info, after⟩ := by
  refine ⟨hadded, hchanged, fun objects h => absurd h (hremoved objects), fun objectIds h => ?_⟩
  cases h

theorem addToRegistry_of_new {obj : CoatyObject} (h : registry.get obj.objectId = none) :
    (addToRegistry registry obj).2 = .ok (some (.added [obj])) := by
  rw [addToRegistry, h]

theorem addToRegistry_of_registered {obj robj : CoatyObject} (h : registry.get obj.objectId = some robj) :
    (addToRegistry registry obj).2 = (do
      let equal ← Deep.equals obj.value robj.value
      return if equal then none else some (.changed [obj])) := by
  rw [addToRegistry, h]

theorem step_received {obj : CoatyObject} (htracked : isTracked objectFilter obj = true) :
    step objectFilter s (.received (some obj)) = (do
      let info ← (addToRegistry s.registry obj).2
      return s.record (.received (some obj)) (s.registry.set obj.objectId obj) info) := by
  rw [step, if_pos htracked]
  rfl

theorem Consistent.received_iff (h : Consistent s) {obj : CoatyObject} (htracked : isTracked objectFilter obj = true) :
    (∃ s', step objectFilter s (.received (some obj)) = .ok s' ∧ Consistent s') ↔
      ∀ robj, s.registry.get obj.objectId = some robj → Returns (Deep.equals obj.value robj.value) := by
  rw [step_received htracked]
  cases hregistered : s.registry.get obj.objectId with
  | none =>
    rw [addToRegistry_of_new hregistered]
    refine iff_of_true ⟨_, rfl, (h.record_iff _ _ _ ?_).mpr (faithful_received ?_ ?_ ?_)⟩ ?_
    · intro objectId
      rw [replay_record]
      exact replays_set h.replays obj objectId
    · intro objects hinfo obj' hmem
      cases hinfo
      rwa [List.mem_singleton.mp hmem]
    · intro objects hinfo
      cases hinfo
    · intro objects hinfo
      cases hinfo
    · intro robj hrobj
      cases hrobj
  | some robj =>
    rw [addToRegistry_of_registered hregistered]
    simp only [Option.some.injEq, forall_eq']
    cases hequals : Deep.equals obj.value robj.value with
    | error e =>
      refine iff_of_false ?_ (not_returns_error e)
      intro ⟨s', hs', _⟩
      cases hs'
    | ok equal =>
      have hcontent := Deep.eq_sameContent_of_equals hequals
      refine iff_of_true ⟨_, rfl, (h.record_iff _ _ _ ?_).mpr (faithful_received ?_ ?_ ?_)⟩ (returns_ok equal)
      · intro objectId
        rw [replay_record]
        cases equal with
        | false => exact replays_set h.replays obj objectId
        | true =>
          have hrel := h.replays objectId
          change Option.Rel SameObject ((s.registry.set obj.objectId obj).get objectId) (s.replay.get objectId)
          rw [Map.get_set]
          split
          · -- the replay still has the object as it was last reported
            rename_i heq
            rw [heq, hregistered] at hrel
            rw [heq]
            generalize s.replay.get obj.objectId = reported at hrel
            cases hrel with
            | some hsame => exact .some (SameObject.trans (Or.inr hcontent.symm) hsame)
          · exact hrel
      · intro objects hinfo
        cases equal <;> cases hinfo
      · intro objects hinfo obj' hmem
        cases equal with
        | true => cases hinfo
        | false =>
          cases hinfo
          rw [List.mem_singleton.mp hmem]
          exact ⟨robj, hregistered, hcontent.symm⟩
      · intro objects hinfo
        cases equal <;> cases hinfo

theorem replays_removed (hkeyed : Keyed s.registry) (h : s.Replays) {objectIds : List Uuid}
    {acc : Registry × List CoatyObject} (hacc : Removed s.registry objectIds acc) (objectId : Uuid) :
    Option.Rel SameObject (acc.1.get objectId)
      ((acc.2.foldl (fun m obj => m.delete obj.objectId) s.replay).get objectId) := by
  rw [get_foldl_delete]
  by_cases hmem : objectId ∈ acc.2.map CoatyObject.objectId
  · obtain ⟨obj, hobj, rfl⟩ := List.mem_map.mp hmem
    rw [if_pos hmem, ((hacc.mem obj).mp hobj).2]
    exact .none
  · rw [if_neg hmem]
    have hsame : acc.1.get objectId = s.registry.get objectId := by
      cases hget : s.registry.get objectId with
      | none =>
        rw [Option.eq_none_iff_forall_ne_some]
        intro obj hobj
        rw [hacc.get, hget] at hobj
        cases hobj.1
      | some obj =>
        have hid := hkeyed objectId obj hget
        cases hafter : acc.1.get objectId with
        | none =>
          refine absurd (List.mem_map.mpr ⟨obj, (hacc.mem obj).mpr ⟨?_, ?_⟩, hid⟩) hmem
          · rwa [hid]
          · rwa [hid]
        | some obj' =>
          have hobj' := ((hacc.get _ _).mp hafter).1
          rw [hget] at hobj'
          exact hobj'.symm
    rw [hsame]
    exact h objectId

theorem Consistent.deadvertised_iff (hkeyed : Keyed s.registry) (h : Consistent s) (objectIds : List Uuid) :
    (∃ s', step objectFilter s (.deadvertised objectIds) = .ok s' ∧ Consistent s') ↔
      Distinguishes objectFilter s (.deadvertised objectIds) := by
  have hacc := removed_foldl hkeyed objectIds
  have hstep : (∃ s', step objectFilter s (.deadvertised objectIds) = .ok s' ∧ Consistent s') ↔
      Consistent (s.record (.deadvertised objectIds) (removeFromRegistry s.registry objectIds).1
        (removeFromRegistry s.registry objectIds).2) := by
    constructor
    · intro ⟨s', hs', hconsistent⟩
      cases hs'
      exact hconsistent
    · intro hconsistent
      exact ⟨_, rfl, hconsistent⟩
  rw [hstep, h.record_iff, Distinguishes, ← hacc.nodup]
  · rw [removeFromRegistry]
    constructor
    · intro hfaithful
      by_cases hempty : (objectIds.foldl updateRegistryOnRemove (s.registry, [])).2.length = 0
      · rw [List.length_eq_zero_iff.mp hempty]
        exact List.nodup_nil
      · exact (hfaithful.removed _ (if_neg hempty)).1
    · intro hnodup
      refine ⟨fun objects hinfo => ?_, fun objects hinfo => ?_, fun objects hinfo => ?_, fun ids hids => ?_⟩
      · dsimp only at hinfo
        split at hinfo <;> cases hinfo
      · dsimp only at hinfo
        split at hinfo <;> cases hinfo
      · dsimp only at hinfo
        split at hinfo
        · cases hinfo
        · cases hinfo
          exact ⟨hnodup, fun obj hobj => ((hacc.mem obj).mp hobj).1⟩
      · cases hids
        exact hacc.get
  · intro objectId
    rw [replay_record, removeFromRegistry]
    by_cases hempty : (objectIds.foldl updateRegistryOnRemove (s.registry, [])).2.length = 0
    · have hreplays := replays_removed hkeyed h.replays hacc objectId
      rw [List.length_eq_zero_iff.mp hempty] at hreplays
      simp only [hempty, if_true, Option.elim_none]
      exact hreplays
    · simp only [hempty, if_false, Option.elim_some]
      exact replays_removed hkeyed h.replays hacc objectId

theorem Consistent.step_iff (hkeyed : Keyed s.registry) (h : Consistent s) (event : LifecycleEvent) :
    (∃ s', step objectFilter s event = .ok s' ∧ Consistent s') ↔ Distinguishes objectFilter s event := by
  cases event with
  | received object =>
    cases object with
    | none => exact iff_of_true ⟨s, rfl, h⟩ trivial
    | some obj =>
      by_cases htracked : isTracked objectFilter obj = true
      · rw [h.received_iff htracked]
        exact ⟨fun hreturns _ => hreturns, fun hreturns => hreturns htracked⟩
      · refine iff_of_true ⟨s, ?_, h⟩ fun htracked' => absurd htracked' htracked
        rw [step, if_neg htracked]
  | deadvertised objectIds => exact h.deadvertised_iff hkeyed objectIds

theorem keyed_step (hkeyed : Keyed s.registry) {event : LifecycleEvent} {s' : ObjectLifecycle}
    (h : step objectFilter s event = .ok s') : Keyed s'.registry := by
  cases event with
  | received object =>
    cases object with
    | none =>
      cases h
      exact hkeyed
    | some obj =>
      by_cases htracked : isTracked objectFilter obj = true
      · rw [step_received htracked] at h
        cases hinfo : (addToRegistry s.registry obj).2 with
        | error e =>
          rw [hinfo] at h
          cases h
        | ok info =>
          rw [hinfo] at h
          cases h
          exact hkeyed.set obj
      · rw [step, if_neg htracked] at h
        cases h
        exact hkeyed
  | deadvertised objectIds =>
    cases h
    intro objectId obj hget
    exact hkeyed objectId obj (((removed_foldl hkeyed objectIds).get objectId obj).mp hget).1

theorem consistent_initial : Consistent initial := by
  refine ⟨fun objectId => ?_, fun handled hmem => ?_⟩
  · exact .none
  · cases hmem

end ObjectLifecycle

end Coaty
