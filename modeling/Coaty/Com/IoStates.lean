import Coaty.Com.AssociationBookkeeping

/-!
# Observed IO states

An observed IO state is fresh if it is the one that a first observation would compute from the maps. The handler of an Associate event dispatches a state for the source and for the actor of the event, and looks at the route of the event only. Whether this leaves all observed states fresh is a condition on the state before the event, and no observed state goes stale in a run exactly if all its events meet it.
-/

namespace Coaty

open Js Transition

variable {Props Rate : Type}

namespace CommunicationManager

/-- Every observed state of an own point is the one that a first observation would compute. -/
def Fresh (m : CommunicationManager Props Rate) : Prop :=
  ∀ id state, m.Owns id → m.observedIoStateItems.get id = some state → state = m.initialIoState id

def Listed (m : CommunicationManager Props Rate) (actorId : Uuid) : Prop :=
  ∃ route sourceIds, m.ioActorItems.getAt route actorId = some sourceIds

def Observed (m : CommunicationManager Props Rate) (id : Uuid) : Prop :=
  ∃ state, m.observedIoStateItems.get id = some state

def ListedApartFrom (m : CommunicationManager Props Rate) (actorId sourceId : Uuid) (route : IoRoute) : Prop :=
  ∃ route' sourceIds, m.ioActorItems.getAt route' actorId = some sourceIds ∧
    ∃ other ∈ sourceIds, other ≠ sourceId ∨ route' ≠ route

/-- The actor is the only one of the source, or the source has none. -/
def IsLastActor (m : CommunicationManager Props Rate) (sourceId actorId : Uuid) : Prop :=
  ∀ items, m.ioSourceItems.get sourceId = some items → items.actorIds.erase actorId = []

/-- The dispatched states are the right ones, and there is no other point to notify. -/
structure Notifies (m : CommunicationManager Props Rate) (data : AssociateEventData Rate) : Prop where
  /-- A disassociated actor has no other source, and is not itself a source with actors. -/
  disassociated : data.associatingRoute = none → m.Owns data.ioActorId → m.Observed data.ioActorId →
    (∀ route sourceIds, m.ioActorItems.getAt route data.ioActorId = some sourceIds →
      ∀ other ∈ sourceIds, other = data.ioSourceId) ∧
    ∀ items, m.ioSourceItems.get data.ioActorId = some items →
      data.ioActorId = data.ioSourceId ∧ items.actorIds.erase data.ioActorId = []
  /-- An associated actor is not itself a source with a rate. -/
  associated : data.associatingRoute ≠ none → m.Owns data.ioActorId → m.Observed data.ioActorId →
    (data.ioActorId = data.ioSourceId → data.updateRate = none) ∧
    (data.ioActorId ≠ data.ioSourceId → ∀ items, m.ioSourceItems.get data.ioActorId = some items →
      items.updateRate = none)
  /-- A source that loses its last actor is not itself listed as an actor. -/
  released : data.associatingRoute = none → m.Owns data.ioSourceId → m.Observed data.ioSourceId →
    data.ioSourceId ≠ data.ioActorId → m.IsLastActor data.ioSourceId data.ioActorId → ¬ m.Listed data.ioSourceId
  /-- The actors that a new route moves off the previous one are listed for another source. -/
  moved : m.Owns data.ioSourceId → ∀ route actorId,
    m.MovedOff data.ioSourceId data.associatingRoute route actorId → actorId ≠ data.ioActorId →
    actorId ≠ data.ioSourceId → m.Owns actorId → m.Observed actorId → m.ioSourceItems.get actorId = none →
    m.Listed actorId → m.ListedApartFrom actorId data.ioSourceId route

variable {m : CommunicationManager Props Rate}

/-! ### States -/

theorem any_has_iff {id : Uuid} :
    (m.ioActorItems.values.any fun sourceItems => sourceItems.has id) = true ↔ m.Listed id := by
  rw [List.any_eq_true]
  constructor
  · intro ⟨items, hitems, hhas⟩
    obtain ⟨route, hroute⟩ := Map.mem_values.mp hitems
    obtain ⟨sourceIds, hsourceIds⟩ := Map.has_iff.mp hhas
    exact ⟨route, sourceIds, (Map.getAt_of_get hroute id).trans hsourceIds⟩
  · intro ⟨route, sourceIds, hgetAt⟩
    obtain ⟨items, hroute, hsourceIds⟩ := Option.bind_eq_some_iff.mp hgetAt
    exact ⟨items, Map.mem_values.mpr ⟨route, hroute⟩, Map.has_iff.mpr ⟨sourceIds, hsourceIds⟩⟩

theorem initialIoState_of_source {id : Uuid} {items : IoSourceItem Rate} (h : m.ioSourceItems.get id = some items) :
    m.initialIoState id = ⟨true, items.updateRate⟩ := by
  rw [initialIoState, h]

theorem eq_initialIoState_iff {id : Uuid} (h : m.ioSourceItems.get id = none) (hasAssociations : Bool) :
    ⟨hasAssociations, none⟩ = m.initialIoState id ↔ (hasAssociations = true ↔ m.Listed id) := by
  rw [initialIoState, h]
  simp only [IoState.mk.injEq, and_true]
  rw [Bool.eq_iff_iff, any_has_iff]

theorem initialIoState_congr {m' : CommunicationManager Props Rate} {id : Uuid}
    (hsource : m'.ioSourceItems.get id = m.ioSourceItems.get id) (hlisted : m'.Listed id ↔ m.Listed id) :
    m'.initialIoState id = m.initialIoState id := by
  cases hitems : m.ioSourceItems.get id with
  | none =>
    have hitems' := hsource.trans hitems
    cases hstate : m'.initialIoState id with
    | mk hasAssociations updateRate =>
      have hrate : updateRate = none := by
        rw [initialIoState, hitems'] at hstate
        exact (IoState.mk.inj hstate).2.symm
      subst hrate
      rw [eq_initialIoState_iff hitems, ← hlisted]
      exact (eq_initialIoState_iff hitems' hasAssociations).mp hstate.symm
  | some items => rw [initialIoState_of_source hitems, initialIoState_of_source (hsource.trans hitems)]

/-! ### What an event changes -/

theorem updatedItem_eq_none_iff {ioActorId : Uuid} {updateRate : Option Rate} {before : Option (IoSourceItem Rate)} :
    updatedItem ioActorId none updateRate before = none ↔
      ∀ items, before = some items → items.actorIds.erase ioActorId = [] := by
  cases before with
  | none => exact ⟨fun _ _ h => absurd h.symm (Option.some_ne_none _), fun _ => rfl⟩
  | some items =>
    rw [updatedItem]
    simp only [Option.some.injEq, forall_eq']
    split
    · rename_i hlength
      exact ⟨fun _ => List.length_eq_zero_iff.mp hlength, fun _ => rfl⟩
    · rename_i hlength
      exact ⟨fun h => absurd h (Option.some_ne_none _), fun hnil => absurd (List.length_eq_zero_iff.mpr hnil) hlength⟩

theorem updatedItem_some (ioActorId : Uuid) (ioRoute : IoRoute) (updateRate : Option Rate)
    (before : Option (IoSourceItem Rate)) :
    ∃ items, updatedItem ioActorId (some ioRoute) updateRate before = some items ∧ items.updateRate = updateRate := by
  cases before with
  | none => exact ⟨_, rfl, rfl⟩
  | some items => exact ⟨_, rfl, rfl⟩

theorem without_eq_none_iff {sourceIds : List Uuid} {sourceId : Uuid} (hnodup : sourceIds.Nodup) :
    without sourceId (some sourceIds) = none ↔ ∀ other ∈ sourceIds, other = sourceId := by
  rw [without, Option.bind_some]
  have herase : (sourceIds.erase sourceId).length = 0 ↔ ∀ other ∈ sourceIds, other = sourceId := by
    rw [List.length_eq_zero_iff, List.eq_nil_iff_forall_not_mem]
    constructor
    · intro h other hother
      by_contra hdiffers
      exact h other ((List.mem_erase_of_ne hdiffers).mpr hother)
    · intro h other hother
      rw [hnodup.mem_erase_iff] at hother
      exact hother.1 (h other hother.2)
  by_cases hlength : (sourceIds.erase sourceId).length = 0
  · rw [if_pos hlength]
    exact ⟨fun _ => herase.mp hlength, fun _ => rfl⟩
  · rw [if_neg hlength]
    exact ⟨fun h => absurd h (Option.some_ne_none _), fun h => absurd (herase.mpr h) hlength⟩

theorem Disassociated.listed_iff {m' : CommunicationManager Props Rate} {sourceId : Uuid}
    {selected : IoRoute → Uuid → Prop} (h : Disassociated sourceId selected m m') (hm : ActorsConsistent m)
    (actorId : Uuid) :
    m'.Listed actorId ↔ ∃ route sourceIds, m.ioActorItems.getAt route actorId = some sourceIds ∧
      ∃ other ∈ sourceIds, other ≠ sourceId ∨ ¬ selected route actorId := by
  have hroute : ∀ route, (∃ sourceIds, m'.ioActorItems.getAt route actorId = some sourceIds) ↔
      ∃ sourceIds, m.ioActorItems.getAt route actorId = some sourceIds ∧
        ∃ other ∈ sourceIds, other ≠ sourceId ∨ ¬ selected route actorId := by
    intro route
    cases hbefore : m.ioActorItems.getAt route actorId with
    | none =>
      have hafter : m'.ioActorItems.getAt route actorId = none := by
        by_cases hselected : selected route actorId
        · rw [h.getAt_selected route actorId hselected, hbefore]
          rfl
        · rw [h.getAt_other route actorId hselected, hbefore]
      simp [hafter]
    | some sourceIds =>
      have hne := hm.sources_nonempty route actorId sourceIds hbefore
      by_cases hselected : selected route actorId
      · rw [h.getAt_selected route actorId hselected, hbefore, ← Option.ne_none_iff_exists', Ne,
          without_eq_none_iff (hm.sources_nodup route actorId sourceIds hbefore)]
        simp [hselected]
      · rw [h.getAt_other route actorId hselected, hbefore]
        obtain ⟨other, hother⟩ := List.exists_mem_of_ne_nil sourceIds hne
        exact ⟨fun _ => ⟨sourceIds, rfl, other, hother, Or.inr hselected⟩, fun _ => ⟨sourceIds, rfl⟩⟩
  exact exists_congr hroute

theorem getAt_afterActor_other (hm : Consistent m) (data : AssociateEventData Rate) {actorId : Uuid}
    (hactor : actorId ≠ data.ioActorId) (route : IoRoute) :
    (m.afterActor data).ioActorItems.getAt route actorId = (m.afterSource data).ioActorItems.getAt route actorId := by
  have hm₁ := (afterSource_consistent hm data).actors
  rw [afterActor]
  split
  · rfl
  · rename_i ioActor hfind
    split
    · apply (associated_associateIoActorItems hm₁ _ _ _ _).getAt_other
      rw [findIoPointById_objectId hfind]
      exact hactor
    · exact (disassociated_disassociateIoActorItems hm₁ _ _ _ _).getAt_other route actorId fun h => hactor h.1

theorem listed_afterActor_other (hm : Consistent m) (data : AssociateEventData Rate) {actorId : Uuid}
    (hactor : actorId ≠ data.ioActorId) :
    (m.afterActor data).Listed actorId ↔ ∃ route sourceIds, m.ioActorItems.getAt route actorId = some sourceIds ∧
      ∃ other ∈ sourceIds, other ≠ data.ioSourceId ∨
        ¬ (m.Owns data.ioSourceId ∧ m.MovedOff data.ioSourceId data.associatingRoute route actorId) := by
  have hother : (m.afterActor data).Listed actorId ↔ (m.afterSource data).Listed actorId := by
    rw [Listed, Listed]
    simp only [getAt_afterActor_other hm data hactor]
  rw [hother]
  by_cases howns : m.Owns data.ioSourceId
  · have hlisted := (disassociated_afterSource hm howns).listed_iff hm.actors actorId
    simp only [howns, true_and]
    exact hlisted
  · rw [afterSource_of_not_owns howns]
    simp only [howns, false_and, not_false_eq_true, or_true, and_true]
    constructor
    · rintro ⟨route, sourceIds, hgetAt⟩
      exact ⟨route, sourceIds, hgetAt, List.exists_mem_of_ne_nil sourceIds
        (hm.actors.sources_nonempty route actorId sourceIds hgetAt)⟩
    · rintro ⟨route, sourceIds, hgetAt, _⟩
      exact ⟨route, sourceIds, hgetAt⟩

theorem listed_afterActor_disassociated (hm : Consistent m) {data : AssociateEventData Rate}
    (hroute : data.associatingRoute = none) (howns : m.Owns data.ioActorId) :
    (m.afterActor data).Listed data.ioActorId ↔ ∃ route sourceIds,
      m.ioActorItems.getAt route data.ioActorId = some sourceIds ∧ ∃ other ∈ sourceIds, other ≠ data.ioSourceId := by
  obtain ⟨ioActor, hfind⟩ := Option.isSome_iff_exists.mp howns
  have hm₁ := (afterSource_consistent hm data).actors
  have hafter : m.afterActor data
      = (m.afterSource data).disassociateIoActorItems data.ioSourceId data.ioActorId none none := by
    rw [afterActor, hfind, hroute]
  have hgetAt : ∀ route, (m.afterSource data).ioActorItems.getAt route data.ioActorId
      = m.ioActorItems.getAt route data.ioActorId := by
    intro route
    by_cases hsource : m.Owns data.ioSourceId
    · apply (disassociated_afterSource hm hsource).getAt_other
      rintro ⟨_, _, _, hnew, _⟩
      rw [hroute] at hnew
      cases hnew
    · rw [afterSource_of_not_owns hsource]
  rw [hafter, (disassociated_disassociateIoActorItems hm₁ _ _ _ _).listed_iff hm₁]
  simp only [hgetAt]
  simp

theorem listed_afterActor_associated (hm : Consistent m) {data : AssociateEventData Rate} {ioRoute : IoRoute}
    (hroute : data.associatingRoute = some ioRoute) (howns : m.Owns data.ioActorId) :
    ∃ sourceIds, (m.afterActor data).ioActorItems.getAt ioRoute data.ioActorId = some sourceIds ∧
      data.ioSourceId ∈ sourceIds := by
  obtain ⟨ioActor, hfind⟩ := Option.isSome_iff_exists.mp howns
  have hafter : m.afterActor data
      = (m.afterSource data).associateIoActorItems data.ioSourceId ioActor ioRoute data.isExternalRoute := by
    rw [afterActor, hfind, hroute]
  rw [hafter, ← findIoPointById_objectId hfind]
  exact (associated_associateIoActorItems (afterSource_consistent hm data).actors _ _ _ _).listed

/-! ### What is dispatched -/

/-- The state that is dispatched to the observers of an own actor only tells whether the event has a route. -/
theorem actorIoState_afterActor (hm : Consistent m) {data : AssociateEventData Rate} (howns : m.Owns data.ioActorId) :
    (m.afterActor data).actorIoState data.ioActorId data.associatingRoute = ⟨data.associatingRoute.isSome, none⟩ := by
  cases hroute : data.associatingRoute with
  | none => rfl
  | some ioRoute =>
    obtain ⟨sourceIds, hgetAt, hmem⟩ := listed_afterActor_associated hm hroute howns
    rw [actorIoState, Option.bind_some]
    rw [Map.getAt] at hgetAt
    rw [hgetAt]
    simp [List.length_pos_of_mem hmem]

/-- The state that the observers of a point see after an event. -/
def shownIoState (m : CommunicationManager Props Rate) (data : AssociateEventData Rate) (id : Uuid) : IoState Rate :=
  if id = data.ioActorId then ⟨data.associatingRoute.isSome, none⟩
  else if id = data.ioSourceId then (m.afterActor data).sourceIoState data.ioSourceId
  else m.initialIoState id

theorem get_handleAssociate (hm : Consistent m) (hfresh : Fresh m) (data : AssociateEventData Rate) {id : Uuid}
    (howns : m.Owns id) :
    (m.handleAssociate data).observedIoStateItems.get id
      = (m.observedIoStateItems.get id).map fun _ => m.shownIoState data id := by
  have hobserved := afterActor_observedIoStateItems hm data
  have hactorState : ∀ m₃ : CommunicationManager Props Rate, m₃.ioActorItems = (m.afterActor data).ioActorItems →
      m.Owns data.ioActorId → m₃.actorIoState data.ioActorId data.associatingRoute
        = ⟨data.associatingRoute.isSome, none⟩ := by
    intro m₃ hitems hactor
    rw [← actorIoState_afterActor hm hactor, actorIoState, hitems]
    rfl
  have hkept : (m.observedIoStateItems.get id).map (fun _ => m.initialIoState id) = m.observedIoStateItems.get id := by
    cases hstate : m.observedIoStateItems.get id with
    | none => rfl
    | some state => rw [Option.map_some, hfresh id state howns hstate]
  set m₃ := if (m.findIoPointById data.ioSourceId).isSome
    then (m.afterActor data).dispatchIoState data.ioSourceId ((m.afterActor data).sourceIoState data.ioSourceId)
    else m.afterActor data with hm₃
  have hitems : m₃.ioActorItems = (m.afterActor data).ioActorItems := by
    rw [hm₃]
    split
    · rw [dispatchIoState_ioActorItems]
    · rfl
  have hsource : m₃.observedIoStateItems.get id = if id = data.ioSourceId
      then (m.observedIoStateItems.get id).map fun _ => (m.afterActor data).sourceIoState data.ioSourceId
      else m.observedIoStateItems.get id := by
    rw [hm₃]
    split
    · rw [get_dispatchIoState, hobserved]
    · rename_i hnone
      rw [hobserved, if_neg]
      intro hid
      exact hnone (hid ▸ howns)
  have hhandle : m.handleAssociate data = if (m.findIoPointById data.ioActorId).isSome
      then m₃.dispatchIoState data.ioActorId (m₃.actorIoState data.ioActorId data.associatingRoute) else m₃ := rfl
  rw [hhandle, shownIoState]
  split
  · rename_i hactor
    rw [get_dispatchIoState, hactorState m₃ hitems hactor, hsource]
    by_cases hid : id = data.ioActorId
    · rw [if_pos hid, if_pos hid]
      split <;> simp [Function.comp_def]
    · rw [if_neg hid, if_neg hid]
      split
      · rfl
      · exact hkept.symm
  · rename_i hactor
    have hid : id ≠ data.ioActorId := fun hid => hactor (hid ▸ howns)
    rw [hsource, if_neg hid]
    split
    · rfl
    · exact hkept.symm

theorem fresh_handleAssociate_iff_shown (hm : Consistent m) (hfresh : Fresh m) (data : AssociateEventData Rate) :
    Fresh (m.handleAssociate data) ↔ ∀ id, m.Owns id → m.Observed id →
      m.shownIoState data id = (m.afterActor data).initialIoState id := by
  obtain ⟨hsources, hactors, _⟩ := handleAssociate_maps (m := m) data
  have hinitial : ∀ id, (m.handleAssociate data).initialIoState id = (m.afterActor data).initialIoState id := by
    intro id
    rw [initialIoState, hsources, hactors]
    rfl
  have howns : ∀ id, (m.handleAssociate data).Owns id ↔ m.Owns id := by
    intro id
    rw [Owns, findIoPointById, handleAssociate_ioNodes hm]
    rfl
  constructor
  · intro h id hid ⟨state, hstate⟩
    rw [← hinitial]
    apply h id _ ((howns id).mpr hid)
    rw [get_handleAssociate hm hfresh data hid, hstate, Option.map_some]
  · intro h id state hid hstate
    have hid := (howns id).mp hid
    rw [get_handleAssociate hm hfresh data hid] at hstate
    obtain ⟨old, hold, rfl⟩ := Option.map_eq_some_iff.mp hstate
    rw [hinitial]
    exact h id hid ⟨old, hold⟩

/-! ### When the right states are shown -/

theorem shown_actor_iff (hm : Consistent m) {data : AssociateEventData Rate} (howns : m.Owns data.ioActorId) :
    m.shownIoState data data.ioActorId = (m.afterActor data).initialIoState data.ioActorId ↔
      (data.associatingRoute = none →
        (∀ route sourceIds, m.ioActorItems.getAt route data.ioActorId = some sourceIds →
          ∀ other ∈ sourceIds, other = data.ioSourceId) ∧
        ∀ items, m.ioSourceItems.get data.ioActorId = some items →
          data.ioActorId = data.ioSourceId ∧ items.actorIds.erase data.ioActorId = []) ∧
      (data.associatingRoute ≠ none →
        (data.ioActorId = data.ioSourceId → data.updateRate = none) ∧
        (data.ioActorId ≠ data.ioSourceId → ∀ items, m.ioSourceItems.get data.ioActorId = some items →
          items.updateRate = none)) := by
  have hget := get_afterActor hm data data.ioActorId
  rw [shownIoState, if_pos rfl]
  cases hroute : data.associatingRoute with
  | none =>
    have hunlisted : ¬ (m.afterActor data).Listed data.ioActorId ↔ ∀ route sourceIds,
        m.ioActorItems.getAt route data.ioActorId = some sourceIds → ∀ other ∈ sourceIds, other = data.ioSourceId := by
      rw [listed_afterActor_disassociated hm hroute howns]
      push Not
      exact Iff.rfl
    have hsource : (m.afterActor data).ioSourceItems.get data.ioActorId = none ↔
        ∀ items, m.ioSourceItems.get data.ioActorId = some items →
          data.ioActorId = data.ioSourceId ∧ items.actorIds.erase data.ioActorId = [] := by
      rw [hget]
      by_cases hsame : data.ioActorId = data.ioSourceId
      · rw [if_pos ⟨hsame ▸ howns, hsame⟩, hroute, updatedItem_eq_none_iff]
        simp only [hsame, true_and]
      · rw [if_neg fun h => hsame h.2, Option.eq_none_iff_forall_ne_some]
        simp only [hsame, false_and, imp_false, ne_eq]
    simp only [Option.isSome_none, forall_const, ne_eq, not_true_eq_false, false_implies, and_true]
    cases hitems : (m.afterActor data).ioSourceItems.get data.ioActorId with
    | none =>
      rw [eq_initialIoState_iff hitems]
      simp only [Bool.false_eq_true, false_iff]
      exact ⟨fun h => ⟨hunlisted.mp h, hsource.mp hitems⟩, fun h => hunlisted.mpr h.1⟩
    | some items =>
      rw [initialIoState_of_source hitems]
      simp only [IoState.mk.injEq, Bool.false_eq_true, false_and, false_iff]
      intro h
      rw [hsource.mpr h.2] at hitems
      cases hitems
  | some ioRoute =>
    obtain ⟨sourceIds, hlisted, _⟩ := listed_afterActor_associated hm hroute howns
    simp only [Option.isSome_some, reduceCtorEq, false_implies, true_and, ne_eq, not_false_eq_true, forall_const]
    by_cases hsame : data.ioActorId = data.ioSourceId
    · obtain ⟨items, hupdated, hrate⟩ := updatedItem_some data.ioActorId ioRoute data.updateRate
        (m.ioSourceItems.get data.ioActorId)
      rw [if_pos ⟨hsame ▸ howns, hsame⟩, hroute, hupdated] at hget
      rw [initialIoState_of_source hget, hrate]
      simp [hsame, eq_comm]
    · rw [if_neg fun h => hsame h.2] at hget
      cases hitems : m.ioSourceItems.get data.ioActorId with
      | none =>
        rw [eq_initialIoState_iff (hget.trans hitems)]
        simp only [hsame, false_implies, true_and, reduceCtorEq, imp_true_iff, iff_true]
        exact ⟨fun _ => ⟨ioRoute, sourceIds, hlisted⟩, fun _ => trivial⟩
      | some items =>
        rw [initialIoState_of_source (hget.trans hitems)]
        simp [hsame, eq_comm]

theorem shown_source_iff (hm : Consistent m) {data : AssociateEventData Rate} (howns : m.Owns data.ioSourceId)
    (hactor : data.ioSourceId ≠ data.ioActorId) :
    m.shownIoState data data.ioSourceId = (m.afterActor data).initialIoState data.ioSourceId ↔
      (data.associatingRoute = none → m.IsLastActor data.ioSourceId data.ioActorId → ¬ m.Listed data.ioSourceId) := by
  have hget := get_afterActor hm data data.ioSourceId
  rw [if_pos ⟨howns, rfl⟩] at hget
  rw [shownIoState, if_neg hactor, if_pos rfl, sourceIoState]
  cases hitems : (m.afterActor data).ioSourceItems.get data.ioSourceId with
  | none =>
    have hroute : data.associatingRoute = none := by
      cases hroute : data.associatingRoute with
      | none => rfl
      | some ioRoute =>
        obtain ⟨items, hupdated, _⟩ := updatedItem_some data.ioActorId ioRoute data.updateRate
          (m.ioSourceItems.get data.ioSourceId)
        rw [hget, hroute, hupdated] at hitems
        cases hitems
    have hlast : m.IsLastActor data.ioSourceId data.ioActorId := by
      rw [hget, hroute] at hitems
      exact updatedItem_eq_none_iff.mp hitems
    have hlisted : (m.afterActor data).Listed data.ioSourceId ↔ m.Listed data.ioSourceId := by
      rw [listed_afterActor_other hm data hactor]
      constructor
      · intro ⟨route, sourceIds, hgetAt, _⟩
        exact ⟨route, sourceIds, hgetAt⟩
      · intro ⟨route, sourceIds, hgetAt⟩
        obtain ⟨other, hother⟩ := List.exists_mem_of_ne_nil sourceIds
          (hm.actors.sources_nonempty route _ sourceIds hgetAt)
        refine ⟨route, sourceIds, hgetAt, other, hother, Or.inr fun ⟨_, _, _, _, hnew, _⟩ => ?_⟩
        rw [hroute] at hnew
        cases hnew
    show (⟨false, none⟩ : IoState Rate) = _ ↔ _
    rw [eq_initialIoState_iff hitems, hlisted]
    simp [hroute, hlast]
  | some items =>
    rw [initialIoState_of_source hitems]
    refine ⟨fun _ hroute hlast => ?_, fun _ => rfl⟩
    rw [hget, hroute, updatedItem_eq_none_iff.mpr hlast] at hitems
    cases hitems

theorem shown_other_iff (hm : Consistent m) {data : AssociateEventData Rate} {id : Uuid} (hactor : id ≠ data.ioActorId)
    (hsource : id ≠ data.ioSourceId) :
    m.shownIoState data id = (m.afterActor data).initialIoState id ↔
      (m.Owns data.ioSourceId → ∀ route, m.MovedOff data.ioSourceId data.associatingRoute route id →
        m.ioSourceItems.get id = none → m.Listed id → m.ListedApartFrom id data.ioSourceId route) := by
  have hget := get_afterActor hm data id
  rw [if_neg fun h => hsource h.2] at hget
  rw [shownIoState, if_neg hactor, if_neg hsource]
  have hlistedOf : (m.afterActor data).Listed id → m.Listed id := by
    rw [listed_afterActor_other hm data hactor]
    intro ⟨route, sourceIds, hgetAt, _⟩
    exact ⟨route, sourceIds, hgetAt⟩
  cases hitems : m.ioSourceItems.get id with
  | some items =>
    rw [initialIoState_of_source hitems, initialIoState_of_source (hget.trans hitems)]
    exact ⟨fun _ _ _ _ => nofun, fun _ => rfl⟩
  | none =>
    have hshown : m.initialIoState id = (m.afterActor data).initialIoState id ↔
        (m.Listed id → (m.afterActor data).Listed id) := by
      constructor
      · intro heq hlisted
        have htrue : (⟨true, none⟩ : IoState Rate) = m.initialIoState id :=
          (eq_initialIoState_iff hitems true).mpr ⟨fun _ => hlisted, fun _ => rfl⟩
        exact ((eq_initialIoState_iff (hget.trans hitems) true).mp (htrue.trans heq)).mp rfl
      · intro hkept
        exact (initialIoState_congr hget ⟨hlistedOf, hkept⟩).symm
    rw [hshown, listed_afterActor_other hm data hactor]
    constructor
    · intro hkept howns route hmoved _ hlisted
      obtain ⟨route', sourceIds, hgetAt, other, hother, hcases⟩ := hkept hlisted
      refine ⟨route', sourceIds, hgetAt, other, hother, hcases.imp_right fun hstays heq => ?_⟩
      exact hstays ⟨howns, heq ▸ hmoved⟩
    · intro hapart hlisted
      by_cases hmoved : m.Owns data.ioSourceId ∧ ∃ route, m.MovedOff data.ioSourceId data.associatingRoute route id
      · obtain ⟨howns, route, hmoved⟩ := hmoved
        obtain ⟨route', sourceIds, hgetAt, other, hother, hcases⟩ := hapart howns route hmoved rfl hlisted
        refine ⟨route', sourceIds, hgetAt, other, hother, hcases.imp_right fun hne hmoved' => ?_⟩
        obtain ⟨items, _, hget, _, _, hroute, _⟩ := hmoved
        obtain ⟨items', _, hget', _, _, hroute', _⟩ := hmoved'.2
        cases hget.symm.trans hget'
        exact hne (hroute'.trans hroute.symm)
      · obtain ⟨route, sourceIds, hgetAt⟩ := hlisted
        obtain ⟨other, hother⟩ := List.exists_mem_of_ne_nil sourceIds
          (hm.actors.sources_nonempty route id sourceIds hgetAt)
        exact ⟨route, sourceIds, hgetAt, other, hother, Or.inr fun h => hmoved ⟨h.1, route, h.2⟩⟩

/-- An event leaves the observed states fresh exactly if it notifies all that it concerns. -/
theorem fresh_handleAssociate_iff (hm : Consistent m) (hfresh : Fresh m) (data : AssociateEventData Rate) :
    Fresh (m.handleAssociate data) ↔ m.Notifies data := by
  rw [fresh_handleAssociate_iff_shown hm hfresh]
  constructor
  · intro h
    have hactor := fun howns hobserved => (shown_actor_iff hm howns).mp (h data.ioActorId howns hobserved)
    refine ⟨fun hroute howns hobserved => (hactor howns hobserved).1 hroute,
      fun hroute howns hobserved => (hactor howns hobserved).2 hroute, ?_, ?_⟩
    · intro hroute howns hobserved hne hlast
      exact (shown_source_iff hm howns hne).mp (h data.ioSourceId howns hobserved) hroute hlast
    · intro howns route actorId hmoved hne hne' hactorOwns hobserved hitems hlisted
      exact (shown_other_iff hm hne hne').mp (h actorId hactorOwns hobserved) howns route hmoved hitems hlisted
  · intro h id howns hobserved
    by_cases hactor : id = data.ioActorId
    · subst hactor
      exact (shown_actor_iff hm howns).mpr ⟨fun hroute => h.disassociated hroute howns hobserved,
        fun hroute => h.associated hroute howns hobserved⟩
    · by_cases hsource : id = data.ioSourceId
      · subst hsource
        exact (shown_source_iff hm howns hactor).mpr fun hroute hlast =>
          h.released hroute howns hobserved hactor hlast
      · exact (shown_other_iff hm hactor hsource).mpr fun hsourceOwns route hmoved hitems hlisted =>
          h.moved hsourceOwns route id hmoved hactor hsource howns hobserved hitems hlisted

/-! ### Whole runs -/

/-- The event is no Associate event, or it notifies all that it concerns. -/
def NotifiesAt (m : CommunicationManager Props Rate) (event : Event Rate) : Prop :=
  ∀ data, event = .associate data → m.Notifies data

theorem fresh_step_iff (m : CommunicationManager Props Rate) (event : Event Rate) (hm : Consistent m)
    (hfresh : Fresh m) : Fresh (m.step event) ↔ m.NotifiesAt event := by
  cases event with
  | associate data =>
    rw [NotifiesAt]
    simp only [Event.associate.injEq, forall_eq']
    exact fresh_handleAssociate_iff hm hfresh data
  | observeIoState ioPointId =>
    refine ⟨fun _ => nofun, fun _ => ?_⟩
    rw [step, observeIoState]
    split
    · exact hfresh
    · intro id state howns hstate
      dsimp only at hstate
      rw [Map.get_set] at hstate
      split at hstate
      · rename_i hid
        cases hstate
        rw [hid]
        rfl
      · exact hfresh id state howns hstate

/-- No observed state is ever stale in a run exactly if each of its events notifies all that it concerns. -/
theorem fresh_iff_notifies (ioNodes : List (OwnIoNode Props Rate)) (events : List (Event Rate)) :
    (∀ n, Fresh ((events.take n).foldl step (start ioNodes))) ↔ Along step NotifiesAt (start ioNodes) events :=
  forall_take_iff_along step_consistent fresh_step_iff (start_consistent ioNodes) nofun

/-- A room with a thermometer and two actors for its values. -/
def roomNode : OwnIoNode Unit Nat where
  name := text "room"
  name_valid := isValidEventFilter_room
  ioSources := [⟨thermometerId, text "celsius", none, none, none, ()⟩]
  ioActors := [⟨displayId, text "celsius", none, none, none, ()⟩, ⟨recorderId, text "celsius", none, none, none, ()⟩]

def associateEvent (ioSourceId ioActorId : Uuid) (associatingRoute : Option Uuid) : Event Nat :=
  .associate ⟨ioSourceId, ioActorId, associatingRoute, none, none⟩

/-- The display has two sources and loses one of them. -/
def losesOneSource : List (Event Nat) :=
  [associateEvent thermometerId displayId (some thermometerId), .observeIoState displayId,
    associateEvent barometerId displayId (some barometerId), associateEvent thermometerId displayId none]

def movesToNewRoute : List (Event Nat) :=
  [associateEvent thermometerId displayId (some thermometerId), .observeIoState displayId,
    associateEvent thermometerId recorderId (some barometerId)]

/-- The display is told that it has no associations while it still has one, and is not told when it loses its only one. -/
theorem not_fresh_display :
    ¬ Fresh (losesOneSource.foldl step (start [roomNode])) ∧ ¬ Fresh (movesToNewRoute.foldl step (start [roomNode])) := by
  constructor
  · intro h
    have hstate := h displayId ⟨false, none⟩ (by decide) (by decide)
    exact absurd hstate (by decide)
  · intro h
    have hstate := h displayId ⟨true, none⟩ (by decide) (by decide)
    exact absurd hstate (by decide)

end CommunicationManager

end Coaty
