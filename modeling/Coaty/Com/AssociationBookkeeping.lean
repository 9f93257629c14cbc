import Coaty.Com.AssociationInvariant

/-!
# Bookkeeping of associations

Handling an Associate event updates the entry of an own source, which on a change of its route disassociates all its previous actors, and then the lists of an own actor. Its effect on both maps is stated as a whole, and from it the invariant of the maps follows for all sequences of events, up to and including the stop.
-/

namespace Coaty

open Js Transition

variable {Props Rate : Type}

namespace CommunicationManager

/-! ### Updating an own source -/

/-- The entry of a source after an Associate event for one of its actors. -/
def updatedItem (ioActorId : Uuid) (ioRoute : Option IoRoute) (updateRate : Option Rate) :
    Option (IoSourceItem Rate) → Option (IoSourceItem Rate)
  | none => ioRoute.map fun ioRoute => ⟨ioRoute, [ioActorId], updateRate⟩
  | some items =>
    match ioRoute with
    | some ioRoute =>
      some ⟨ioRoute, if items.route = ioRoute then
        if ioActorId ∈ items.actorIds then items.actorIds else items.actorIds ++ [ioActorId]
        else [ioActorId], updateRate⟩
    | none =>
      if (items.actorIds.erase ioActorId).length = 0 then none
      else some ⟨items.route, items.actorIds.erase ioActorId, updateRate⟩

/-- The actor is one of those that an Associate event with this route moves off their previous route. -/
def MovedOff (m : CommunicationManager Props Rate) (ioSourceId : Uuid) (ioRoute : Option IoRoute) (route : IoRoute)
    (actorId : Uuid) : Prop :=
  ∃ items newRoute, m.ioSourceItems.get ioSourceId = some items ∧ ioRoute = some newRoute ∧ items.route ≠ newRoute ∧
    route = items.route ∧ actorId ∈ items.actorIds

/-- What updating the entry of an own source does. -/
structure SourceUpdated (ioSourceId ioActorId : Uuid) (ioRoute : Option IoRoute) (updateRate : Option Rate)
    (m m' : CommunicationManager Props Rate) : Prop where
  get : ∀ id, m'.ioSourceItems.get id = if id = ioSourceId
    then updatedItem ioActorId ioRoute updateRate (m.ioSourceItems.get id) else m.ioSourceItems.get id
  disassociated : Disassociated ioSourceId (MovedOff m ioSourceId ioRoute) m
    { m' with ioSourceItems := m.ioSourceItems }

variable {m : CommunicationManager Props Rate}

theorem Disassociated.refl (hm : ActorsConsistent m) {ioSourceId : Uuid} {selected : IoRoute → Uuid → Prop}
    (hnone : ∀ route actorId, ¬ selected route actorId) : Disassociated ioSourceId selected m m :=
  ⟨rfl, hm, fun route actorId h => absurd h (hnone route actorId), fun _ _ _ => rfl⟩

theorem sourceUpdated_updateIoSourceItems (hm : Consistent m) (ioSourceId ioActorId : Uuid)
    (ioRoute : Option IoRoute) (updateRate : Option Rate) :
    SourceUpdated ioSourceId ioActorId ioRoute updateRate m
      (m.updateIoSourceItems ioSourceId ioActorId ioRoute updateRate) := by
  have hset : ∀ (items' : IoSourceItem Rate) id, (m.ioSourceItems.set ioSourceId items').get id
      = if id = ioSourceId then some items' else m.ioSourceItems.get id := fun items' id => Map.get_set _ _ _ _
  have hidle : ioRoute = none ∨ m.ioSourceItems.get ioSourceId = none →
      Disassociated ioSourceId (MovedOff m ioSourceId ioRoute) m m := by
    intro hnone
    apply Disassociated.refl hm.actors
    rintro route actorId ⟨items, newRoute, hitems, hnew, _⟩
    rcases hnone with hnone | hnone
    · rw [hnone] at hnew
      cases hnew
    · rw [hnone] at hitems
      cases hitems
  rw [updateIoSourceItems.eq_def]
  cases hitems : m.ioSourceItems.get ioSourceId with
  | none =>
    cases ioRoute with
    | none =>
      dsimp only
      refine ⟨fun id => ?_, hidle (Or.inl rfl)⟩
      split
      · rename_i hid
        rw [hid, hitems]
        rfl
      · rfl
    | some ioRoute =>
      dsimp only
      refine ⟨fun id => ?_, hidle (Or.inr hitems)⟩
      dsimp only
      rw [hset]
      split
      · rename_i hid
        rw [hid, hitems]
        rfl
      · rfl
  | some items =>
    cases ioRoute with
    | none =>
      dsimp only
      split
      · rename_i hlength
        refine ⟨fun id => ?_, hidle (Or.inl rfl)⟩
        dsimp only
        rw [Map.get_delete]
        split
        · rename_i hid
          rw [hid, hitems, updatedItem]
          exact (if_pos hlength).symm
        · rfl
      · rename_i hlength
        refine ⟨fun id => ?_, hidle (Or.inl rfl)⟩
        dsimp only
        rw [hset]
        split
        · rename_i hid
          rw [hid, hitems, updatedItem]
          exact (if_neg hlength).symm
        · rfl
    | some ioRoute =>
      dsimp only
      split
      · rename_i hroute
        refine ⟨fun id => ?_, Disassociated.refl hm.actors ?_⟩
        · dsimp only
          rw [hset]
          split
          · rename_i hid
            rw [hid, hitems, updatedItem]
            simp only [if_pos hroute]
          · rfl
        · rintro route actorId ⟨items', newRoute, hitems', hnew, hne, _⟩
          cases hnew
          cases hitems.symm.trans hitems'
          exact hne hroute
      · rename_i hroute
        have hmoved := disassociated_foldl ioSourceId items.route
          (hm.actorIds_nodup ioSourceId items hitems) hm.actors
        have hselected : ∀ route actorId, MovedOff m ioSourceId (some ioRoute) route actorId ↔
            actorId ∈ items.actorIds ∧ route = items.route := by
          intro route actorId
          constructor
          · rintro ⟨items', newRoute, hitems', _, _, hprevious, hactor⟩
            cases hitems.symm.trans hitems'
            exact ⟨hactor, hprevious⟩
          · rintro ⟨hactor, hprevious⟩
            exact ⟨items, ioRoute, hitems, rfl, hroute, hprevious, hactor⟩
        set m₁ := items.actorIds.foldl
          (fun m actorId => m.disassociateIoActorItems ioSourceId actorId (some items.route) none) m
        have hsources : m₁.ioSourceItems = m.ioSourceItems := by rw [← hmoved.frame]
        have hnodes : m₁.ioNodes = m.ioNodes := by rw [← hmoved.frame]
        have hobserved : m₁.observedIoStateItems = m.observedIoStateItems := by rw [← hmoved.frame]
        refine ⟨fun id => ?_, ?_, ?_, ?_, ?_⟩
        · dsimp only
          rw [hsources, hset]
          split
          · rename_i hid
            rw [hid, hitems, updatedItem]
            simp only [if_neg hroute]
          · rfl
        · dsimp only
          rw [hnodes, hobserved]
        · obtain ⟨h₁, h₂, h₃, h₄, h₅⟩ := hmoved.consistent
          exact ⟨h₁, h₂, h₃, h₄, h₅⟩
        · intro route actorId h
          exact hmoved.getAt_selected route actorId ((hselected route actorId).mp h)
        · intro route actorId h
          exact hmoved.getAt_other route actorId fun h' => h ((hselected route actorId).mpr h')

theorem updatedItem_consistent {ioActorId : Uuid} {ioRoute : Option IoRoute} {updateRate : Option Rate}
    {before : Option (IoSourceItem Rate)} {items : IoSourceItem Rate}
    (hnodup : ∀ items, before = some items → items.actorIds.Nodup)
    (h : updatedItem ioActorId ioRoute updateRate before = some items) :
    items.actorIds ≠ [] ∧ items.actorIds.Nodup := by
  cases before with
  | none =>
    obtain ⟨route, _, rfl⟩ := Option.map_eq_some_iff.mp h
    exact ⟨List.cons_ne_nil _ _, List.nodup_singleton _⟩
  | some before =>
    have hbefore := hnodup before rfl
    cases ioRoute with
    | none =>
      rw [updatedItem] at h
      split at h
      · cases h
      · rename_i hlength
        cases h
        exact ⟨fun hnil => hlength (List.length_eq_zero_iff.mpr hnil), hbefore.erase ioActorId⟩
    | some ioRoute =>
      cases h
      dsimp only
      split
      · split
        · rename_i hmem
          exact ⟨List.ne_nil_of_mem hmem, hbefore⟩
        · rename_i hmem
          refine ⟨by simp, ?_⟩
          rw [List.nodup_append]
          refine ⟨hbefore, List.nodup_singleton _, fun actorId hactor other hother heq => ?_⟩
          rw [List.mem_singleton.mp hother] at heq
          exact hmem (heq ▸ hactor)
      · exact ⟨List.cons_ne_nil _ _, List.nodup_singleton _⟩

theorem ActorsConsistent.congr {m m' : CommunicationManager Props Rate} (h : ActorsConsistent m)
    (hitems : m'.ioActorItems = m.ioActorItems) (hcalls : m'.bindingCalls = m.bindingCalls) : ActorsConsistent m' := by
  obtain ⟨h₁, h₂, h₃, h₄, h₅⟩ := h
  have hsubscribed : m'.subscribedIoRoutes = m.subscribedIoRoutes := by
    rw [subscribedIoRoutes, hcalls, subscribedIoRoutes]
  refine ⟨?_, ?_, ?_, ?_, ?_⟩
  · rw [hitems]
    exact h₁
  · rw [hitems]
    exact h₂
  · rw [hitems]
    exact h₃
  · rw [hitems]
    exact h₄
  · rw [hitems, hsubscribed]
    exact h₅

theorem SourceUpdated.consistent {ioSourceId ioActorId : Uuid} {ioRoute : Option IoRoute} {updateRate : Option Rate}
    {m' : CommunicationManager Props Rate} (h : SourceUpdated ioSourceId ioActorId ioRoute updateRate m m')
    (hm : Consistent m) : Consistent m' := by
  have hitems : ∀ id items, m'.ioSourceItems.get id = some items → items.actorIds ≠ [] ∧ items.actorIds.Nodup := by
    intro id items hget
    rw [h.get] at hget
    split at hget
    · exact updatedItem_consistent (hm.actorIds_nodup id) hget
    · exact ⟨hm.actorIds_nonempty id items hget, hm.actorIds_nodup id items hget⟩
  exact ⟨fun id items hget => (hitems id items hget).1, fun id items hget => (hitems id items hget).2,
    h.disassociated.consistent.congr rfl rfl⟩

/-! ### Handling an event -/

@[simp] theorem dispatchIoState_ioNodes (m : CommunicationManager Props Rate) (ioPointId : Uuid) (state : IoState Rate) :
    (m.dispatchIoState ioPointId state).ioNodes = m.ioNodes := by
  rw [dispatchIoState]
  split <;> rfl

@[simp] theorem dispatchIoState_ioSourceItems (m : CommunicationManager Props Rate) (ioPointId : Uuid)
    (state : IoState Rate) : (m.dispatchIoState ioPointId state).ioSourceItems = m.ioSourceItems := by
  rw [dispatchIoState]
  split <;> rfl

@[simp] theorem dispatchIoState_ioActorItems (m : CommunicationManager Props Rate) (ioPointId : Uuid)
    (state : IoState Rate) : (m.dispatchIoState ioPointId state).ioActorItems = m.ioActorItems := by
  rw [dispatchIoState]
  split <;> rfl

@[simp] theorem dispatchIoState_bindingCalls (m : CommunicationManager Props Rate) (ioPointId : Uuid)
    (state : IoState Rate) : (m.dispatchIoState ioPointId state).bindingCalls = m.bindingCalls := by
  rw [dispatchIoState]
  split <;> rfl

theorem get_dispatchIoState (m : CommunicationManager Props Rate) (ioPointId id : Uuid) (state : IoState Rate) :
    (m.dispatchIoState ioPointId state).observedIoStateItems.get id
      = if id = ioPointId then (m.observedIoStateItems.get id).map fun _ => state
        else m.observedIoStateItems.get id := by
  rw [dispatchIoState]
  split
  · rename_i hobserved
    obtain ⟨old, hold⟩ := Map.has_iff.mp hobserved
    dsimp only
    rw [Map.get_set]
    split
    · rename_i hid
      rw [hid, hold, Option.map_some]
    · rfl
  · rename_i hobserved
    split
    · rename_i hid
      cases hold : m.observedIoStateItems.get id with
      | none => rfl
      | some old => exact absurd (Map.has_iff.mpr ⟨old, hid ▸ hold⟩) hobserved
    · rfl

def Owns (m : CommunicationManager Props Rate) (id : Uuid) : Prop := (m.findIoPointById id).isSome = true

instance (m : CommunicationManager Props Rate) (id : Uuid) : Decidable (m.Owns id) :=
  inferInstanceAs (Decidable (_ = true))

theorem findIoPointById_objectId {id : Uuid} {point : IoPoint Props Rate} (h : m.findIoPointById id = some point) :
    point.objectId = id := by
  obtain ⟨ioNode, _, hfind⟩ := List.exists_of_findSome?_eq_some h
  split at hfind
  · rename_i source hsource
    cases hfind
    simpa using List.find?_some hsource
  · simpa using List.find?_some hfind

/-- The agent after its own source has been updated. -/
def afterSource (m : CommunicationManager Props Rate) (data : AssociateEventData Rate) : CommunicationManager Props Rate :=
  if (m.findIoPointById data.ioSourceId).isSome
  then m.updateIoSourceItems data.ioSourceId data.ioActorId data.associatingRoute data.updateRate else m

/-- The agent after its own source and its own actor have been updated. -/
def afterActor (m : CommunicationManager Props Rate) (data : AssociateEventData Rate) : CommunicationManager Props Rate :=
  match m.findIoPointById data.ioActorId with
  | none => m.afterSource data
  | some ioActor =>
    match data.associatingRoute with
    | some ioRoute => (m.afterSource data).associateIoActorItems data.ioSourceId ioActor ioRoute data.isExternalRoute
    | none => (m.afterSource data).disassociateIoActorItems data.ioSourceId data.ioActorId none none

theorem afterSource_consistent (hm : Consistent m) (data : AssociateEventData Rate) : Consistent (m.afterSource data) := by
  rw [afterSource]
  split
  · exact (sourceUpdated_updateIoSourceItems hm _ _ _ _).consistent hm
  · exact hm

theorem afterActor_ioSourceItems (hm : Consistent m) (data : AssociateEventData Rate) :
    (m.afterActor data).ioSourceItems = (m.afterSource data).ioSourceItems := by
  have hm₁ := (afterSource_consistent hm data).actors
  rw [afterActor]
  split
  · rfl
  · split
    · rw [← (associated_associateIoActorItems hm₁ _ _ _ _).frame]
    · rw [← (disassociated_disassociateIoActorItems hm₁ _ _ _ _).frame]

theorem afterActor_consistent (hm : Consistent m) (data : AssociateEventData Rate) : Consistent (m.afterActor data) := by
  have hm₁ := afterSource_consistent hm data
  have hactors : ActorsConsistent (m.afterActor data) := by
    rw [afterActor]
    split
    · exact hm₁.actors
    · split
      · exact (associated_associateIoActorItems hm₁.actors _ _ _ _).consistent
      · exact (disassociated_disassociateIoActorItems hm₁.actors _ _ _ _).consistent
  refine ⟨?_, ?_, hactors⟩
  · rw [afterActor_ioSourceItems hm]
    exact hm₁.actorIds_nonempty
  · rw [afterActor_ioSourceItems hm]
    exact hm₁.actorIds_nodup

theorem handleAssociate_eq (data : AssociateEventData Rate) :
    m.handleAssociate data =
      let m₂ := m.afterActor data
      let m₃ := if (m.findIoPointById data.ioSourceId).isSome
        then m₂.dispatchIoState data.ioSourceId (m₂.sourceIoState data.ioSourceId) else m₂
      if (m.findIoPointById data.ioActorId).isSome
      then m₃.dispatchIoState data.ioActorId (m₃.actorIoState data.ioActorId data.associatingRoute) else m₃ := rfl

theorem handleAssociate_maps (data : AssociateEventData Rate) :
    (m.handleAssociate data).ioSourceItems = (m.afterActor data).ioSourceItems ∧
      (m.handleAssociate data).ioActorItems = (m.afterActor data).ioActorItems ∧
      (m.handleAssociate data).bindingCalls = (m.afterActor data).bindingCalls := by
  rw [handleAssociate_eq]
  dsimp only
  refine ⟨?_, ?_, ?_⟩
  · split <;> split <;> simp
  · split <;> split <;> simp
  · split <;> split <;> simp

theorem afterSource_of_not_owns {data : AssociateEventData Rate} (h : ¬ m.Owns data.ioSourceId) :
    m.afterSource data = m := if_neg h

theorem disassociated_afterSource (hm : Consistent m) {data : AssociateEventData Rate} (howns : m.Owns data.ioSourceId) :
    Disassociated data.ioSourceId (MovedOff m data.ioSourceId data.associatingRoute) m
      { m.afterSource data with ioSourceItems := m.ioSourceItems } := by
  have hsome : (m.findIoPointById data.ioSourceId).isSome = true := howns
  rw [afterSource, if_pos hsome]
  exact (sourceUpdated_updateIoSourceItems hm _ _ _ _).disassociated

theorem get_afterActor (hm : Consistent m) (data : AssociateEventData Rate) (id : Uuid) :
    (m.afterActor data).ioSourceItems.get id = if m.Owns data.ioSourceId ∧ id = data.ioSourceId
      then updatedItem data.ioActorId data.associatingRoute data.updateRate (m.ioSourceItems.get id)
      else m.ioSourceItems.get id := by
  rw [afterActor_ioSourceItems hm, afterSource]
  by_cases howns : m.Owns data.ioSourceId
  · have hsome : (m.findIoPointById data.ioSourceId).isSome = true := howns
    rw [if_pos hsome, (sourceUpdated_updateIoSourceItems hm _ _ _ _).get]
    simp only [howns, true_and]
  · have hnone : ¬ (m.findIoPointById data.ioSourceId).isSome = true := howns
    rw [if_neg hnone, if_neg fun h => howns h.1]

theorem afterActor_frame (hm : Consistent m) (data : AssociateEventData Rate) :
    (m.afterActor data).ioNodes = m.ioNodes ∧ (m.afterActor data).observedIoStateItems = m.observedIoStateItems := by
  have hsource : (m.afterSource data).ioNodes = m.ioNodes ∧
      (m.afterSource data).observedIoStateItems = m.observedIoStateItems := by
    by_cases howns : m.Owns data.ioSourceId
    · have hframe := (disassociated_afterSource hm howns).frame
      exact ⟨(congrArg CommunicationManager.ioNodes hframe).symm,
        (congrArg CommunicationManager.observedIoStateItems hframe).symm⟩
    · rw [afterSource_of_not_owns howns]
      exact ⟨rfl, rfl⟩
  have hm₁ := (afterSource_consistent hm data).actors
  rw [afterActor, ← hsource.1, ← hsource.2]
  split
  · exact ⟨rfl, rfl⟩
  · split
    · rw [← (associated_associateIoActorItems hm₁ _ _ _ _).frame]
      exact ⟨rfl, rfl⟩
    · rw [← (disassociated_disassociateIoActorItems hm₁ _ _ _ _).frame]
      exact ⟨rfl, rfl⟩

theorem handleAssociate_ioNodes (hm : Consistent m) (data : AssociateEventData Rate) :
    (m.handleAssociate data).ioNodes = m.ioNodes := by
  rw [handleAssociate_eq, ← (afterActor_frame hm data).1]
  dsimp only
  split <;> split <;> simp

theorem afterActor_observedIoStateItems (hm : Consistent m) (data : AssociateEventData Rate) :
    (m.afterActor data).observedIoStateItems = m.observedIoStateItems := (afterActor_frame hm data).2

theorem Consistent.congr {m m' : CommunicationManager Props Rate} (h : Consistent m)
    (hsources : m'.ioSourceItems = m.ioSourceItems) (hactors : m'.ioActorItems = m.ioActorItems)
    (hcalls : m'.bindingCalls = m.bindingCalls) : Consistent m' := by
  refine ⟨?_, ?_, h.actors.congr hactors hcalls⟩
  · rw [hsources]
    exact h.actorIds_nonempty
  · rw [hsources]
    exact h.actorIds_nodup

theorem step_consistent (m : CommunicationManager Props Rate) (event : Event Rate) (hm : Consistent m) :
    Consistent (m.step event) := by
  cases event with
  | associate data =>
    obtain ⟨hsources, hactors, hcalls⟩ := handleAssociate_maps (m := m) data
    exact (afterActor_consistent hm data).congr hsources hactors hcalls
  | observeIoState ioPointId =>
    rw [step, observeIoState]
    split
    · exact hm
    · exact hm.congr rfl rfl rfl

theorem start_consistent (ioNodes : List (OwnIoNode Props Rate)) :
    Consistent (start ioNodes : CommunicationManager Props Rate) := by
  refine ⟨nofun, nofun, nofun, nofun, nofun, nofun, fun filter => ?_⟩
  constructor
  · intro h
    cases h
  · intro ⟨route, hkey, _⟩
    cases hkey

/-! ### Stopping -/

theorem foldl_unsubscribe (routes : List IoRoute) (m : CommunicationManager Props Rate) (filter : Text) :
    filter ∈ (routes.foldl unsubscribe m).subscribedIoRoutes ↔
      filter ∈ m.subscribedIoRoutes ∧ ∀ route ∈ routes, filter ≠ route.val := by
  induction routes generalizing m with
  | nil => simp
  | cons route routes ih =>
    rw [List.foldl_cons, ih, mem_subscribedIoRoutes_unsubscribe, List.forall_mem_cons, and_assoc]

/-- No route is subscribed any more and nothing is remembered. -/
structure Stopped (m : CommunicationManager Props Rate) : Prop where
  subscribed : m.subscribedIoRoutes = []
  ioSourceItems : m.ioSourceItems.keys = []
  ioActorItems : m.ioActorItems.keys = []
  observedIoStateItems : m.observedIoStateItems.keys = []

theorem stopped_initObservedItems (hm : ActorsConsistent m) : Stopped m.unobserveIoStateAndValue.initObservedItems := by
  refine ⟨?_, rfl, rfl, rfl⟩
  rw [List.eq_nil_iff_forall_not_mem]
  intro filter hfilter
  change filter ∈ m.unobserveIoStateAndValue.subscribedIoRoutes at hfilter
  rw [unobserveIoStateAndValue, foldl_unsubscribe] at hfilter
  obtain ⟨hsubscribed, hother⟩ := hfilter
  obtain ⟨route, hkey, hval⟩ := (hm.subscribed filter).mp hsubscribed
  exact hother route hkey hval.symm

/-- After every sequence of events the maps are consistent, and a stop then leaves nothing behind. -/
theorem bookkeeping (ioNodes : List (OwnIoNode Props Rate)) (events : List (Event Rate)) :
    Consistent (events.foldl step (start ioNodes)) ∧
      Stopped (events.foldl step (start ioNodes)).unobserveIoStateAndValue.initObservedItems := by
  have hconsistent : Consistent (events.foldl step (start ioNodes)) :=
    invariant_foldl step_consistent (start_consistent ioNodes)
  exact ⟨hconsistent, stopped_initObservedItems hconsistent.actors⟩

end CommunicationManager

end Coaty
