import Coaty.IoRouting.Agreement
import Coaty.IoRouting.ListedActors

/-!
# Agents that follow a router

An agent follows a router if its own sources and actors are associated as the router says, each source on its route. Receiving the batch that the router publishes in a step keeps an agent following. The update rates are left aside here.
-/

namespace Coaty

open Js Order Transition RuleBasedIoRouter CommunicationManager

variable {Props Rate : Type}

namespace RuleBasedIoRouter

def routeOf (r : RuleBasedIoRouter Props Rate) (sourceId : Uuid) : Option IoRoute :=
  (r.sourceRoutes.get sourceId).map Prod.fst

/-- The pair is currently associated. -/
def AssociatesIds (r : RuleBasedIoRouter Props Rate) (ids : Uuid × Uuid) : Prop :=
  ∃ x ∈ r.currentAssociations, x.ids = ids

variable [LinearOrder Rate]

/-- A pair is associated afterwards if it is announced, or if it was associated and nothing is published for it. -/
theorem associatesIds_iff {r r' : RuleBasedIoRouter Props Rate} {t : IoAssociationPairs Props Rate}
    {new : List (IoAssociation Props Rate)} {spec : Routing Props Rate} (h : Acted r t new r') (ht : spec.ResolvedBy t)
    (hnodup : (r.currentAssociations.map IoAssociation.ids).Nodup) (ids : Uuid × Uuid) :
    r'.AssociatesIds ids ↔ (∃ info, .associate info ∈ changesFor r t new ∧ info.ids = ids) ∨
      (∀ change ∈ changesFor r t new, change.ids ≠ ids) ∧ r.AssociatesIds ids := by
  constructor
  · intro ⟨x, hx, hids⟩
    subst hids
    rcases announced_or_kept h ht hnodup hx with hannounced | ⟨current, hcurrent, heq, _, hunchanged⟩
    · exact Or.inl ⟨x, hannounced, rfl⟩
    · exact Or.inr ⟨hunchanged, current, hcurrent, heq⟩
  · rintro (⟨info, hinfo, hids⟩ | ⟨hunchanged, current, hcurrent, hids⟩)
    · exact ⟨info, mem_of_associate_mem h hinfo, hids⟩
    · obtain ⟨info, hinfo, heq⟩ := kept_of_unchanged h ht hcurrent (hids ▸ hunchanged)
      exact ⟨info, hinfo, heq.trans hids⟩

def RoutesSources (r : RuleBasedIoRouter Props Rate) : Prop :=
  ∀ sourceId actorId, r.AssociatesIds (sourceId, actorId) → (r.routeOf sourceId).isSome = true

end RuleBasedIoRouter

/-- The own sources and actors of the agent are associated as the router says. -/
structure Follows (r : RuleBasedIoRouter Props Rate) (m : CommunicationManager Props Rate) : Prop where
  consistent : Consistent m
  participates : m.ParticipatesIn r.ioContext.name
  route : ∀ sourceId items, m.Owns sourceId → m.ioSourceItems.get sourceId = some items →
    r.routeOf sourceId = some items.route
  actorOf : ∀ sourceId actorId, m.Owns sourceId →
    (ActorOf (m.ioSourceItems.get sourceId) actorId ↔ r.AssociatesIds (sourceId, actorId))
  listsOn : ∀ route actorId sourceId, m.Owns actorId →
    (m.ListsOn route actorId sourceId ↔ r.AssociatesIds (sourceId, actorId) ∧ r.routeOf sourceId = some route)

namespace Follows

variable [LinearOrder Rate] {r r₀ r' : RuleBasedIoRouter Props Rate} {event : RuleBasedIoRouter.Event Props Rate}
  {t : IoAssociationPairs Props Rate} {new : List (IoAssociation Props Rate)} {m : CommunicationManager Props Rate}

/-- The route on which a source is announced in a step: the one that it has, or else the one that it is given. -/
def routeDuring (r r' : RuleBasedIoRouter Props Rate) (sourceId : Uuid) : Option IoRoute :=
  match r.routeOf sourceId with
  | some route => some route
  | none => r'.routeOf sourceId

omit [LinearOrder Rate] in
theorem routeDuring_of_some {sourceId : Uuid} {route : IoRoute} (h : r.routeOf sourceId = some route) :
    routeDuring r r' sourceId = some route := by
  rw [routeDuring, h]

omit [LinearOrder Rate] in
theorem routeDuring_of_none {sourceId : Uuid} (h : r.routeOf sourceId = none) :
    routeDuring r r' sourceId = r'.routeOf sourceId := by
  rw [routeDuring, h]

/-! ### The router -/

theorem routes_of_stepped (hs : Refines r r.routing) (hroutes : r.RoutesSources)
    (henabled : r.routing.Enabled event) (h : Stepped r event r') :
    r'.RoutesSources ∧ ∀ sourceId actorId, r'.AssociatesIds (sourceId, actorId) →
      routeDuring r r' sourceId = r'.routeOf sourceId := by
  have hexact := (h.refines hs henabled).exact
  suffices hboth : ∀ sourceId actorId, r'.AssociatesIds (sourceId, actorId) →
      (r'.routeOf sourceId).isSome = true ∧ routeDuring r r' sourceId = r'.routeOf sourceId from
    ⟨fun sourceId actorId h => (hboth sourceId actorId h).1, fun sourceId actorId h => (hboth sourceId actorId h).2⟩
  intro sourceId actorId ⟨x, hx, hids⟩
  have hsource : x.source.objectId = sourceId := congrArg Prod.fst hids
  have hhas : (r.routing.step event).HasSource sourceId :=
    hsource ▸ hasSource_of_routed ((hexact.pairs x.source x.actor).mp ⟨x, hx, rfl, rfl⟩)
  cases h with
  | unchanged hprepared hrouting =>
    have hroute : r'.routeOf sourceId = r.routeOf sourceId := by
      rw [routeOf, hprepared.routes_kept hs.unique sourceId (hprepared.routing ▸ hhas), routeOf]
    rw [hprepared.currentAssociations] at hx
    have hsome := hroutes sourceId actorId ⟨x, hx, hids⟩
    obtain ⟨route, hbefore⟩ := Option.isSome_iff_exists.mp hsome
    rw [hroute, routeDuring_of_some hbefore, hbefore]
    exact ⟨rfl, rfl⟩
  | acted r₀ t new hprepared hresolved hacted =>
    have hkept := hprepared.routes_kept hs.unique sourceId (hprepared.routing ▸ hhas)
    cases hbefore : r.sourceRoutes.get sourceId with
    | some route =>
      have hafter := hacted.performed.routes_kept sourceId route (hkept.trans hbefore)
      have hrouteOf : r.routeOf sourceId = some route.1 := by
        rw [routeOf, hbefore, Option.map_some]
      rw [routeDuring_of_some hrouteOf, routeOf, hafter]
      exact ⟨rfl, rfl⟩
    | none =>
      have hrouteOf : r.routeOf sourceId = none := by
        rw [routeOf, hbefore, Option.map_none]
      refine ⟨?_, routeDuring_of_none hrouteOf⟩
      have hnodup : (r₀.currentAssociations.map IoAssociation.ids).Nodup := by
        rw [hprepared.currentAssociations]
        exact hs.exact.nodup
      rcases (associatesIds_iff hacted hresolved hnodup _).mp ⟨x, hx, hids⟩ with
        ⟨info, hinfo, hinfoIds⟩ | ⟨_, current, hcurrent, hcurrentIds⟩
      · obtain ⟨route, hroute⟩ := hacted.performed.routed info hinfo
        have hinfoSource : info.source.objectId = sourceId := congrArg Prod.fst hinfoIds
        rw [routeOf, ← hinfoSource, hroute]
        rfl
      · rw [hprepared.currentAssociations] at hcurrent
        have hsome := hroutes sourceId actorId ⟨current, hcurrent, hcurrentIds⟩
        rw [hrouteOf] at hsome
        cases hsome

/-! ### The events of a step -/

omit [LinearOrder Rate] in
theorem ids_eventFor (r : RuleBasedIoRouter Props Rate) (change : Change Props Rate) :
    CommunicationManager.ids (r.eventFor change) = change.ids := by
  cases change <;> rfl

omit [LinearOrder Rate] in
theorem forall_event_iff {r : RuleBasedIoRouter Props Rate} {changes : List (Change Props Rate)}
    {ids : Uuid × Uuid} :
    (∀ event ∈ changes.map r.eventFor, CommunicationManager.ids event ≠ ids) ↔ ∀ change ∈ changes, change.ids ≠ ids := by
  rw [List.forall_mem_map]
  simp only [ids_eventFor]

omit [LinearOrder Rate] in
/-- Only an association is announced with a route. -/
theorem exists_event_iff {r : RuleBasedIoRouter Props Rate} {changes : List (Change Props Rate)} {ids : Uuid × Uuid}
    {Q : Option IoRoute → Prop} (hQ : ¬ Q none) :
    (∃ event ∈ changes.map r.eventFor, CommunicationManager.ids event = ids ∧ Q event.data.associatingRoute) ↔
      (∃ info, .associate info ∈ changes ∧ info.ids = ids) ∧ Q (r.routeOf ids.1) := by
  constructor
  · intro ⟨associateEvent, hmem, hids, hroute⟩
    obtain ⟨change, hchange, rfl⟩ := List.mem_map.mp hmem
    rw [ids_eventFor] at hids
    cases change with
    | disassociate current => exact absurd hroute hQ
    | associate info =>
      subst hids
      exact ⟨⟨info, hchange, rfl⟩, hroute⟩
  · intro ⟨⟨info, hinfo, hids⟩, hroute⟩
    subst hids
    exact ⟨_, List.mem_map_of_mem hinfo, rfl, hroute⟩

/-! ### One step -/

/-- An agent that follows a router follows it after having received all events of a step. -/
theorem step (hs : Refines r r.routing) (hroutes : r.RoutesSources) (hregular : r.routing.Regular event)
    (h : Stepped r event r') (hm : Follows r m) :
    Follows r' ((r'.published.drop r.published.length).foldl receive m) ∧
      ((r'.published.drop r.published.length).foldl receive m).ioNodes = m.ioNodes := by
  obtain ⟨hroutes', hduring⟩ := routes_of_stepped hs hroutes hregular.1 h
  have hrouting := (h.refines hs hregular.1).routing
  have hname : r'.ioContext.name = r.ioContext.name := by
    have hstep := IoSystem.name_step hregular.2
    rw [← hrouting] at hstep
    exact hstep
  cases h with
  | unchanged hprepared hsame =>
    have hcurrent : ∀ ids, r'.AssociatesIds ids ↔ r.AssociatesIds ids := by
      intro ids
      rw [AssociatesIds, hprepared.currentAssociations, AssociatesIds]
    have hroute : ∀ sourceId actorId, r.AssociatesIds (sourceId, actorId) → r'.routeOf sourceId = r.routeOf sourceId := by
      intro sourceId actorId hassociated
      obtain ⟨route, hbefore⟩ := Option.isSome_iff_exists.mp (hroutes sourceId actorId hassociated)
      rw [← hduring sourceId actorId ((hcurrent _).mpr hassociated), routeDuring_of_some hbefore, hbefore]
    rw [hprepared.published, List.drop_length, List.foldl_nil]
    refine ⟨⟨hm.consistent, hname ▸ hm.participates, ?_, ?_, ?_⟩, rfl⟩
    · intro sourceId items howns hitems
      obtain ⟨actorId, hactor⟩ := List.exists_mem_of_ne_nil _ (hm.consistent.actorIds_nonempty sourceId items hitems)
      rw [hroute sourceId actorId ((hm.actorOf sourceId actorId howns).mp ⟨items, hitems, hactor⟩)]
      exact hm.route sourceId items howns hitems
    · intro sourceId actorId howns
      rw [hm.actorOf sourceId actorId howns, hcurrent]
    · intro route actorId sourceId howns
      rw [hm.listsOn route actorId sourceId howns, hcurrent]
      refine and_congr_right fun hassociated => ?_
      rw [hroute sourceId actorId hassociated]
  | acted r₀ t new hprepared hresolved hacted =>
    have hcontext : r'.ioContext = r₀.ioContext := hacted.performed.ioContext
    have hnodup : (r₀.currentAssociations.map IoAssociation.ids).Nodup := by
      rw [hprepared.currentAssociations]
      exact hs.exact.nodup
    have hassociates : ∀ ids, r'.AssociatesIds ids ↔
        (∃ info, .associate info ∈ changesFor r₀ t new ∧ info.ids = ids) ∨
          (∀ change ∈ changesFor r₀ t new, change.ids ≠ ids) ∧ r.AssociatesIds ids := by
      intro ids
      rw [associatesIds_iff hacted hresolved hnodup, AssociatesIds, hprepared.currentAssociations, AssociatesIds]
    have hpublished : r'.published.drop r.published.length = (changesFor r₀ t new).map r'.eventFor := by
      obtain ⟨ioNode, _, hioNode⟩ := hm.participates
      have hvalid : CommunicationEvent.isValidEventFilter r₀.ioContext.name = true := by
        rw [← hcontext, hname, ← hioNode]
        exact ioNode.name_valid
      have happended : r'.published = r₀.published ++ (changesFor r₀ t new).map r'.eventFor :=
        hacted.performed.published hvalid
      rw [happended, hprepared.published, List.drop_left]
    have honRoutes : OnRoutes (routeDuring r r') r'.ioContext.name m := {
      consistent := hm.consistent
      participates := hname ▸ hm.participates
      route := fun sourceId items howns hitems => routeDuring_of_some (hm.route sourceId items howns hitems) }
    have hevents : ∀ associateEvent ∈ (changesFor r₀ t new).map r'.eventFor,
        associateEvent.ioContextName = r'.ioContext.name ∧ IsOnRoute (routeDuring r r') associateEvent := by
      rw [List.forall_mem_map]
      intro change hchange
      cases change with
      | disassociate current => exact ⟨rfl, nofun⟩
      | associate info =>
        refine ⟨rfl, fun route hroute => ?_⟩
        exact (hduring _ _ ⟨info, mem_of_associate_mem hacted hchange, rfl⟩).trans hroute
    have hids : (((changesFor r₀ t new).map r'.eventFor).map CommunicationManager.ids).Nodup := by
      rw [List.map_map, funext (ids_eventFor r') (f := CommunicationManager.ids ∘ r'.eventFor)]
      exact nodup_changesFor hacted hresolved hnodup
    obtain ⟨hon, hreceived⟩ := received_foldl honRoutes hevents hids
    rw [hpublished]
    set m' := ((changesFor r₀ t new).map r'.eventFor).foldl receive m
    have hactorOf : ∀ sourceId actorId, m.Owns sourceId →
        (ActorOf (m'.ioSourceItems.get sourceId) actorId ↔ r'.AssociatesIds (sourceId, actorId)) := by
      intro sourceId actorId howns
      rw [hreceived.actorOf sourceId actorId howns, forall_event_iff, hm.actorOf sourceId actorId howns,
        exists_event_iff (Q := fun route => route.isSome = true) nofun, hassociates]
      refine or_congr_left (and_iff_left_of_imp fun ⟨info, hinfo, heq⟩ => ?_)
      exact hroutes' sourceId actorId ⟨info, mem_of_associate_mem hacted hinfo, heq⟩
    refine ⟨⟨hon.consistent, hon.participates, ?_, ?_, ?_⟩, hreceived.ioNodes⟩
    · intro sourceId items howns hitems
      obtain ⟨actorId, hactor⟩ := List.exists_mem_of_ne_nil _ (hon.consistent.actorIds_nonempty sourceId items hitems)
      have hassociated := (hactorOf sourceId actorId ((owns_congr hreceived.ioNodes sourceId).mp howns)).mp
        ⟨items, hitems, hactor⟩
      rw [← hduring sourceId actorId hassociated]
      exact hon.route sourceId items howns hitems
    · intro sourceId actorId howns
      exact hactorOf sourceId actorId ((owns_congr hreceived.ioNodes sourceId).mp howns)
    · intro route actorId sourceId howns
      have howns' := (owns_congr hreceived.ioNodes actorId).mp howns
      rw [hreceived.listsOn route actorId sourceId howns', forall_event_iff, hm.listsOn route actorId sourceId howns',
        exists_event_iff (Q := fun newRoute => newRoute = some route) nofun, hassociates, or_and_right, and_assoc]
      refine or_congr_right (and_congr_right fun hunchanged => and_congr_right fun hassociated => ?_)
      -- The route of a source that stays associated with the actor is kept.
      have hassociated' : r'.AssociatesIds (sourceId, actorId) := (hassociates _).mpr (Or.inr ⟨hunchanged, hassociated⟩)
      obtain ⟨before, hbefore⟩ := Option.isSome_iff_exists.mp (hroutes sourceId actorId hassociated)
      rw [← hduring sourceId actorId hassociated', routeDuring_of_some hbefore, hbefore]

end Follows

end Coaty
