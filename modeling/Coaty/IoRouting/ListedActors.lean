import Coaty.IoRouting.SourceEntry

/-!
# The associations of an agent under a batch of events

The events that a router publishes in one step are for different pairs, and all of them for a source carry the same route. Under these circumstances a pair is associated at an agent after the batch if the event for it says so, and as before if there is none. This holds for the entry of an own source as well as for the route on which a source is listed for an own actor.
-/

namespace Coaty

open Js Transition RuleBasedIoRouter CommunicationManager

variable {Props Rate : Type}

namespace CommunicationManager

def ListsOn (m : CommunicationManager Props Rate) (route : IoRoute) (actorId sourceId : Uuid) : Prop :=
  ∃ sourceIds, m.ioActorItems.getAt route actorId = some sourceIds ∧ sourceId ∈ sourceIds

variable {m : CommunicationManager Props Rate}

/-! ### One event -/

theorem mem_without {ioSourceId sourceId : Uuid} {before : Option (List Uuid)}
    (hnodup : ∀ sourceIds, before = some sourceIds → sourceIds.Nodup) :
    (∃ sourceIds, without ioSourceId before = some sourceIds ∧ sourceId ∈ sourceIds) ↔
      (∃ sourceIds, before = some sourceIds ∧ sourceId ∈ sourceIds) ∧ sourceId ≠ ioSourceId := by
  constructor
  · intro ⟨after, hafter, hmem⟩
    obtain ⟨sourceIds, hbefore, heq, _⟩ := without_eq_some hafter
    rw [heq, (hnodup sourceIds hbefore).mem_erase_iff] at hmem
    exact ⟨⟨sourceIds, hbefore, hmem.2⟩, hmem.1⟩
  · intro ⟨⟨sourceIds, hbefore, hmem⟩, hne⟩
    have hmem' : sourceId ∈ sourceIds.erase ioSourceId := (List.mem_erase_of_ne hne).mpr hmem
    refine ⟨sourceIds.erase ioSourceId, ?_, hmem'⟩
    have hlength : (sourceIds.erase ioSourceId).length ≠ 0 := fun h => List.ne_nil_of_mem hmem' (List.length_eq_zero_iff.mp h)
    rw [hbefore, without, Option.bind_some, if_neg hlength]

theorem Disassociated.listsOn_iff {ioSourceId : Uuid} {selected : IoRoute → Uuid → Prop}
    {m' : CommunicationManager Props Rate} (h : Disassociated ioSourceId selected m m') (hm : ActorsConsistent m)
    (route : IoRoute) (actorId sourceId : Uuid) :
    m'.ListsOn route actorId sourceId ↔
      m.ListsOn route actorId sourceId ∧ ¬ (selected route actorId ∧ sourceId = ioSourceId) := by
  rw [ListsOn, ListsOn]
  by_cases hselected : selected route actorId
  · rw [h.getAt_selected route actorId hselected, mem_without (hm.sources_nodup route actorId)]
    simp [hselected]
  · rw [h.getAt_other route actorId hselected]
    simp [hselected]

theorem listsOn_associateIoActorItems (hm : ActorsConsistent m) (ioSourceId : Uuid) (ioActor : IoActor Props Rate)
    (ioRoute : IoRoute) (isExternalRoute : Option Bool) (route : IoRoute) (actorId sourceId : Uuid) :
    (m.associateIoActorItems ioSourceId ioActor ioRoute isExternalRoute).ListsOn route actorId sourceId ↔
      (sourceId, actorId) = (ioSourceId, ioActor.objectId) ∧ ioRoute = route ∨
        (sourceId, actorId) ≠ (ioSourceId, ioActor.objectId) ∧ m.ListsOn route actorId sourceId := by
  have hdisassociated := disassociated_disassociateIoActorItems hm ioSourceId ioActor.objectId none (some ioRoute)
  have hbefore := hdisassociated.listsOn_iff hm route actorId sourceId
  rw [associateIoActorItems]
  set m₁ := m.disassociateIoActorItems ioSourceId ioActor.objectId none (some ioRoute)
  have hadd : ∀ {m' : CommunicationManager Props Rate} (sourceIds : List Uuid),
      m'.ioActorItems.getAt route actorId = (m₁.ioActorItems.setAt ioRoute ioActor.objectId
        (sourceIds ++ [ioSourceId])).getAt route actorId →
      (∀ other, other ∈ sourceIds ↔ m₁.ListsOn ioRoute ioActor.objectId other) →
      (m'.ListsOn route actorId sourceId ↔ (ioRoute = route ∧ actorId = ioActor.objectId ∧ sourceId = ioSourceId) ∨
        m₁.ListsOn route actorId sourceId) := by
    intro m' sourceIds hgetAt hsourceIds
    rw [ListsOn, hgetAt, Map.getAt_setAt]
    by_cases hsame : route = ioRoute ∧ actorId = ioActor.objectId
    · rw [if_pos hsame]
      obtain ⟨rfl, rfl⟩ := hsame
      simp only [Option.some.injEq, exists_eq_left', List.mem_append, List.mem_singleton, hsourceIds, true_and]
      exact or_comm
    · rw [if_neg hsame, ListsOn]
      have hno : ¬ (ioRoute = route ∧ actorId = ioActor.objectId ∧ sourceId = ioSourceId) :=
        fun h => hsame ⟨h.1.symm, h.2.1⟩
      simp only [hno, false_or]
  -- Without its other routes, the source is listed for the actor as it has to be once it is on the new one.
  have hlisted : ((ioRoute = route ∧ actorId = ioActor.objectId ∧ sourceId = ioSourceId) ∨
      m₁.ListsOn route actorId sourceId) ↔
      (sourceId, actorId) = (ioSourceId, ioActor.objectId) ∧ ioRoute = route ∨
        (sourceId, actorId) ≠ (ioSourceId, ioActor.objectId) ∧ m.ListsOn route actorId sourceId := by
    rw [hbefore]
    by_cases hpair : (sourceId, actorId) = (ioSourceId, ioActor.objectId)
    · obtain ⟨rfl, rfl⟩ := Prod.mk.inj hpair
      by_cases hroute : ioRoute = route
      · simp [hroute]
      · simp [hroute]
    · have hno : ¬ (actorId = ioActor.objectId ∧ sourceId = ioSourceId) := fun h => hpair (Prod.ext h.2 h.1)
      constructor
      · rintro (⟨_, hactor, hsource⟩ | ⟨hlists, _⟩)
        · exact absurd ⟨hactor, hsource⟩ hno
        · exact Or.inr ⟨hpair, hlists⟩
      · rintro (⟨hsame, _⟩ | ⟨_, hlists⟩)
        · exact absurd hsame hpair
        · exact Or.inr ⟨hlists, fun h => hno ⟨h.1.1, h.2⟩⟩
  rw [← hlisted]
  cases hitems : m₁.ioActorItems.get ioRoute with
  | none =>
    refine hadd [] ?_ ?_
    · rw [Map.setAt, Map.inner, hitems]
      rfl
    · intro other
      simp [ListsOn, Map.getAt_of_get_none hitems]
  | some items =>
    have hsetAt : ∀ sourceIds, m₁.ioActorItems.set ioRoute (items.set ioActor.objectId sourceIds)
        = m₁.ioActorItems.setAt ioRoute ioActor.objectId sourceIds := by
      intro sourceIds
      rw [Map.setAt, Map.inner, hitems]
      rfl
    dsimp only
    cases hsourceIds : items.get ioActor.objectId with
    | none =>
      refine hadd [] ?_ ?_
      · rw [← hsetAt]
        rfl
      · intro other
        simp [ListsOn, Map.getAt_of_get hitems, hsourceIds]
    | some sourceIds =>
      have hothers : ∀ other, other ∈ sourceIds ↔ m₁.ListsOn ioRoute ioActor.objectId other := by
        intro other
        simp [ListsOn, Map.getAt_of_get hitems, hsourceIds]
      dsimp only
      split
      · rename_i hmem
        refine (or_iff_right_of_imp ?_).symm
        rintro ⟨rfl, rfl, rfl⟩
        exact (hothers sourceId).mp hmem
      · refine hadd sourceIds ?_ hothers
        rw [← hsetAt]

/-- After an event for an own actor the source of the event is listed on the route of the event, as long as no own source changes its route. -/
theorem listsOn_afterActor (hm : Consistent m) {data : AssociateEventData Rate}
    (hroute : ∀ items newRoute, m.Owns data.ioSourceId → m.ioSourceItems.get data.ioSourceId = some items →
      data.associatingRoute = some newRoute → items.route = newRoute)
    (route : IoRoute) {actorId : Uuid} (howns : m.Owns actorId) (sourceId : Uuid) :
    (m.afterActor data).ListsOn route actorId sourceId ↔
      (data.ioSourceId, data.ioActorId) = (sourceId, actorId) ∧ data.associatingRoute = some route ∨
        (data.ioSourceId, data.ioActorId) ≠ (sourceId, actorId) ∧ m.ListsOn route actorId sourceId := by
  have hm₁ := (afterSource_consistent hm data).actors
  have hsource : ∀ actorId, (m.afterSource data).ListsOn route actorId sourceId ↔ m.ListsOn route actorId sourceId := by
    intro actorId
    by_cases hown : m.Owns data.ioSourceId
    · have hdisassociated := (disassociated_afterSource hm hown).listsOn_iff hm.actors route actorId sourceId
      rw [ListsOn, ListsOn] at hdisassociated ⊢
      rw [hdisassociated]
      refine and_iff_left ?_
      rintro ⟨⟨items, newRoute, hitems, hnew, hne, _⟩, _⟩
      exact hne (hroute items newRoute hown hitems hnew)
    · rw [afterSource_of_not_owns hown]
  rw [afterActor]
  cases hfind : m.findIoPointById data.ioActorId with
  | none =>
    dsimp only
    have hpair : (data.ioSourceId, data.ioActorId) ≠ (sourceId, actorId) := by
      intro heq
      rw [← (Prod.mk.inj heq).2, Owns, hfind] at howns
      cases howns
    rw [hsource]
    simp [hpair]
  | some ioActor =>
    have hid := findIoPointById_objectId hfind
    dsimp only
    cases hassociating : data.associatingRoute with
    | some ioRoute =>
      dsimp only
      rw [listsOn_associateIoActorItems hm₁, hsource, hid, Option.some.injEq, ne_comm, eq_comm (a := (sourceId, actorId))]
    | none =>
      dsimp only
      have hdisassociated := (disassociated_disassociateIoActorItems hm₁ data.ioSourceId data.ioActorId none none).listsOn_iff
        hm₁ route actorId sourceId
      rw [hdisassociated, hsource]
      constructor
      · rintro ⟨hlists, hother⟩
        refine Or.inr ⟨fun heq => hother ?_, hlists⟩
        obtain ⟨rfl, rfl⟩ := Prod.mk.inj heq
        exact ⟨⟨rfl, fun _ h => absurd h.symm (Option.some_ne_none _), fun h => absurd h.symm (Option.some_ne_none _)⟩, rfl⟩
      · rintro (⟨_, hnone⟩ | ⟨hpair, hlists⟩)
        · cases hnone
        · exact ⟨hlists, fun h => hpair (Prod.ext h.2.symm h.1.1.symm)⟩

/-! ### A batch -/

/-- The pair that an event is for. -/
def ids (event : AssociateEvent Rate) : Uuid × Uuid := (event.data.ioSourceId, event.data.ioActorId)

def IsOnRoute (routeOf : Uuid → Option IoRoute) (event : AssociateEvent Rate) : Prop :=
  ∀ route, event.data.associatingRoute = some route → routeOf event.data.ioSourceId = some route

/-- An agent of the context whose own sources are on these routes. -/
structure OnRoutes (routeOf : Uuid → Option IoRoute) (ioContextName : Text) (m : CommunicationManager Props Rate) :
    Prop where
  consistent : Consistent m
  participates : m.ParticipatesIn ioContextName
  route : ∀ sourceId items, m.Owns sourceId → m.ioSourceItems.get sourceId = some items →
    routeOf sourceId = some items.route

variable {routeOf : Uuid → Option IoRoute} {event : AssociateEvent Rate}

theorem OnRoutes.same_route (hm : OnRoutes routeOf event.ioContextName m) (hevent : IsOnRoute routeOf event)
    {items : IoSourceItem Rate} {newRoute : IoRoute} (howns : m.Owns event.data.ioSourceId)
    (hitems : m.ioSourceItems.get event.data.ioSourceId = some items)
    (hnew : event.data.associatingRoute = some newRoute) : items.route = newRoute := by
  have hbefore := hm.route event.data.ioSourceId items howns hitems
  exact Option.some.inj (hbefore.symm.trans (hevent newRoute hnew))

theorem receive_eq (hm : m.ParticipatesIn event.ioContextName) :
    m.receive event = m.handleAssociate event.data.received := by
  obtain ⟨ioNode, hmem, hname⟩ := hm
  have hany : (m.ioNodes.any fun ioNode => ioNode.name = event.ioContextName) = true := by
    rw [List.any_eq_true]
    exact ⟨ioNode, hmem, decide_eq_true hname⟩
  exact if_pos hany

theorem receive_ioNodes (hm : OnRoutes routeOf event.ioContextName m) : (m.receive event).ioNodes = m.ioNodes := by
  rw [receive_eq hm.participates, handleAssociate_ioNodes hm.consistent]

theorem receive_onRoutes (hm : OnRoutes routeOf event.ioContextName m) (hevent : IsOnRoute routeOf event) :
    OnRoutes routeOf event.ioContextName (m.receive event) := by
  have hnodes := receive_ioNodes hm
  refine ⟨?_, ?_, ?_⟩
  · rw [receive_eq hm.participates]
    exact step_consistent m (.associate event.data.received) hm.consistent
  · rw [ParticipatesIn, hnodes]
    exact hm.participates
  · intro sourceId items howns hitems
    rw [owns_congr hnodes] at howns
    rw [(receive_spec hm.consistent howns hm.participates).2.2, entryAfter] at hitems
    split at hitems
    · rename_i hsource
      rcases updatedItem_route hitems with hassociating | ⟨_, before, hbefore, heq⟩
      · rw [← hsource]
        exact hevent items.route hassociating
      · rw [← heq]
        exact hm.route sourceId before howns hbefore
    · exact hm.route sourceId items howns hitems

theorem actorOf_receive (hm : OnRoutes routeOf event.ioContextName m) (hevent : IsOnRoute routeOf event)
    {sourceId : Uuid} (howns : m.Owns sourceId) (actorId : Uuid) :
    ActorOf ((m.receive event).ioSourceItems.get sourceId) actorId ↔
      ids event = (sourceId, actorId) ∧ event.data.associatingRoute.isSome = true ∨
        ids event ≠ (sourceId, actorId) ∧ ActorOf (m.ioSourceItems.get sourceId) actorId := by
  rw [(receive_spec hm.consistent howns hm.participates).2.2, entryAfter]
  by_cases hsource : event.data.ioSourceId = sourceId
  · rw [if_pos hsource, actorOf_updatedItem (hm.consistent.actorIds_nodup sourceId)]
    · by_cases hactor : actorId = event.data.ioActorId
      · have hids : ids event = (sourceId, actorId) := Prod.ext hsource hactor.symm
        rw [if_pos hactor]
        simp [hids]
      · have hids : ids event ≠ (sourceId, actorId) := fun heq => hactor (congrArg Prod.snd heq).symm
        rw [if_neg hactor]
        simp [hids]
    · intro items route hitems hassociating
      exact hm.same_route hevent (hsource ▸ howns) (hsource ▸ hitems) hassociating
  · have hids : ids event ≠ (sourceId, actorId) := fun heq => hsource (congrArg Prod.fst heq)
    rw [if_neg hsource]
    simp [hids]

theorem listsOn_receive (hm : OnRoutes routeOf event.ioContextName m) (hevent : IsOnRoute routeOf event)
    (route : IoRoute) {actorId : Uuid} (howns : m.Owns actorId) (sourceId : Uuid) :
    (m.receive event).ListsOn route actorId sourceId ↔
      ids event = (sourceId, actorId) ∧ event.data.associatingRoute = some route ∨
        ids event ≠ (sourceId, actorId) ∧ m.ListsOn route actorId sourceId := by
  rw [receive_eq hm.participates, ListsOn, (handleAssociate_maps event.data.received).2.1]
  have hroute : ∀ items newRoute, m.Owns event.data.received.ioSourceId →
      m.ioSourceItems.get event.data.received.ioSourceId = some items →
      event.data.received.associatingRoute = some newRoute → items.route = newRoute :=
    fun items newRoute hown hitems hnew => hm.same_route hevent hown hitems hnew
  exact listsOn_afterActor hm.consistent hroute route howns sourceId

/-- What a batch of events for different pairs does to the associations of an agent. -/
structure Received (events : List (AssociateEvent Rate)) (m m' : CommunicationManager Props Rate) : Prop where
  ioNodes : m'.ioNodes = m.ioNodes
  actorOf : ∀ sourceId actorId, m.Owns sourceId →
    (ActorOf (m'.ioSourceItems.get sourceId) actorId ↔
      (∃ event ∈ events, ids event = (sourceId, actorId) ∧ event.data.associatingRoute.isSome = true) ∨
        (∀ event ∈ events, ids event ≠ (sourceId, actorId)) ∧ ActorOf (m.ioSourceItems.get sourceId) actorId)
  listsOn : ∀ route actorId sourceId, m.Owns actorId →
    (m'.ListsOn route actorId sourceId ↔
      (∃ event ∈ events, ids event = (sourceId, actorId) ∧ event.data.associatingRoute = some route) ∨
        (∀ event ∈ events, ids event ≠ (sourceId, actorId)) ∧ m.ListsOn route actorId sourceId)

theorem received_foldl {ioContextName : Text} (hm : OnRoutes routeOf ioContextName m)
    {events : List (AssociateEvent Rate)}
    (hevents : ∀ event ∈ events, event.ioContextName = ioContextName ∧ IsOnRoute routeOf event)
    (hnodup : (events.map ids).Nodup) :
    OnRoutes routeOf ioContextName (events.foldl receive m) ∧ Received events m (events.foldl receive m) := by
  -- The nodes stay the same, so an own point stays one.
  let I (m' : CommunicationManager Props Rate) := OnRoutes routeOf ioContextName m' ∧ m'.ioNodes = m.ioNodes
  have hI : ∀ m' event, I m' → (event.ioContextName = ioContextName ∧ IsOnRoute routeOf event) →
      I (m'.receive event) := by
    intro m' event ⟨hm', hnodes⟩ ⟨hname, hevent⟩
    subst hname
    exact ⟨receive_onRoutes hm' hevent, (receive_ioNodes hm').trans hnodes⟩
  have hend : I (events.foldl receive m) :=
    List.foldlRecOn events receive ⟨hm, rfl⟩ fun m' hm' event hmem => hI m' event hm' (hevents event hmem)
  refine ⟨hend.1, hend.2, ?_, ?_⟩
  · intro sourceId actorId howns
    refine foldl_iff_of_keyed (I := I)
      (P := fun m' => ActorOf (m'.ioSourceItems.get sourceId) actorId) hI ?_ hevents hnodup ⟨hm, rfl⟩
    intro m' event ⟨hm', hnodes⟩ ⟨hname, hevent⟩
    subst hname
    exact actorOf_receive hm' hevent ((owns_congr hnodes sourceId).mpr howns) actorId
  · intro route actorId sourceId howns
    refine foldl_iff_of_keyed (I := I)
      (P := fun m' => m'.ListsOn route actorId sourceId) hI ?_ hevents hnodup ⟨hm, rfl⟩
    intro m' event ⟨hm', hnodes⟩ ⟨hname, hevent⟩
    subst hname
    exact listsOn_receive hm' hevent route ((owns_congr hnodes actorId).mpr howns) sourceId

end CommunicationManager

end Coaty
