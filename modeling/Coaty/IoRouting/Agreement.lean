import Coaty.IoRouting.SourceEntry

/-!
# Router and agent

A router and the agent that hosts a source, which receives in order what the router publishes. The agent's entry of the source is to be the router's view of it. This holds after every step in which the source keeps its rate at the agent: an event that disassociates an actor carries no rate, and the router says nothing more about the remaining actors of the source if its rate has not changed.
-/

namespace Coaty

open Js Order Transition RuleBasedIoRouter CommunicationManager

variable {Props Rate : Type}

structure IoSystem (Props Rate : Type) where
  router : RuleBasedIoRouter Props Rate
  agent : CommunicationManager Props Rate

/-- The router reacts to an event, and the agent receives the batch of events that it publishes. -/
def IoSystem.step [LinearOrder Rate] (s : IoSystem Props Rate) (event : RuleBasedIoRouter.Event Props Rate) :
    Except Error (IoSystem Props Rate) := do
  let router ← s.router.step event
  return { router, agent := (router.published.drop s.router.published.length).foldl receive s.agent }

/-- The entry of a source at the agent is the view that the router has of it. -/
structure IoSystem.Agrees (s : IoSystem Props Rate) (sourceId : Uuid) : Prop where
  absent : s.agent.ioSourceItems.get sourceId = none ↔
    ∀ x ∈ s.router.currentAssociations, x.source.objectId ≠ sourceId
  route : ∀ items, s.agent.ioSourceItems.get sourceId = some items →
    (s.router.sourceRoutes.get sourceId).map Prod.fst = some items.route
  actorIds : ∀ items, s.agent.ioSourceItems.get sourceId = some items → ∀ actorId, actorId ∈ items.actorIds ↔
    ∃ x ∈ s.router.currentAssociations, x.ids = (sourceId, actorId)
  updateRate : ∀ items, s.agent.ioSourceItems.get sourceId = some items → ∀ x ∈ s.router.currentAssociations,
    x.source.objectId = sourceId → x.updateRate = items.updateRate

/-- The steps that a run consists of: nodes carry both arrays, points stay unique, and the context keeps its name. -/
def Routing.Regular (t : Routing Props Rate) (event : RuleBasedIoRouter.Event Props Rate) : Prop :=
  t.Enabled event ∧ ∀ ioContext, event = .updateContext ioContext → ioContext.name = t.ioContext.name

/-- The pair is routed. -/
def Routing.RoutedIds (t : Routing Props Rate) (ids : Uuid × Uuid) : Prop :=
  ∃ source actor, t.Routed source actor ∧ (source.objectId, actor.objectId) = ids

namespace RuleBasedIoRouter

/-- If an event takes an actor away from the source and leaves it another one, then the source has no rate afterwards, or gains an actor, or its rate changes and the actor of the last of its current associations stays. -/
def KeepsRate [LinearOrder Rate] (r : RuleBasedIoRouter Props Rate) (sourceId : Uuid) (event : Event Props Rate) :
    Prop :=
  let t := r.routing.step event
  (∃ x ∈ r.currentAssociations, x.source.objectId = sourceId ∧ ¬ t.RoutedIds x.ids) →
    ∀ source actor, t.Routed source actor → source.objectId = sourceId →
      IsMaximum (t.rates source) none ∨
      (∃ actor', t.Routed source actor' ∧
        (sourceId, actor'.objectId) ∉ r.currentAssociations.map IoAssociation.ids) ∨
      ∃ x, (r.currentAssociations.filter fun x => x.source.objectId = sourceId).getLast? = some x ∧
        t.RoutedIds x.ids ∧ ¬ IsMaximum (t.rates source) x.updateRate

/-! ### The changes of one step -/

section Changes

variable [LinearOrder Rate] {r r' : RuleBasedIoRouter Props Rate} {t : IoAssociationPairs Props Rate}
  {new : List (IoAssociation Props Rate)} {spec : Routing Props Rate}

theorem routedIds_iff (ht : spec.ResolvedBy t) {ids : Uuid × Uuid} :
    spec.RoutedIds ids ↔ ∃ info, t.getAt ids.1 ids.2 = some info := by
  constructor
  · intro ⟨source, actor, hrouted, hids⟩
    subst hids
    obtain ⟨info, hget, _⟩ := ht.complete source actor hrouted
    exact ⟨info, hget⟩
  · intro ⟨info, hget⟩
    obtain ⟨hsource, hactor, hrouted, _⟩ := ht.sound _ _ _ hget
    exact ⟨info.source, info.actor, hrouted, Prod.ext hsource hactor⟩

theorem ids_of_changeFor (ht : spec.ResolvedBy t) {current : IoAssociation Props Rate} {change : Change Props Rate}
    (h : changeFor t current = some change) : change.ids = current.ids := by
  rw [changeFor] at h
  cases hresolved : resolvedFor t current with
  | none =>
    rw [hresolved] at h
    cases h
    rfl
  | some info =>
    rw [hresolved] at h
    dsimp only at h
    split at h
    · cases h
    · cases h
      exact ids_of_resolvedFor ht hresolved

/-- What the router performs when it acts on a table. -/
def changesFor (r : RuleBasedIoRouter Props Rate) (t : IoAssociationPairs Props Rate)
    (new : List (IoAssociation Props Rate)) : List (Change Props Rate) :=
  r.currentAssociations.filterMap (changeFor t) ++ new.map .associate

theorem nodup_changesFor (h : Acted r t new r') (ht : spec.ResolvedBy t)
    (hnodup : (r.currentAssociations.map IoAssociation.ids).Nodup) :
    ((changesFor r t new).map Change.ids).Nodup := by
  have hkept := sublist_ids_filterMap (fun _ _ hchange => ids_of_changeFor ht hchange) r.currentAssociations
  have hnew : (new.map Change.associate).map Change.ids = new.map IoAssociation.ids := by
    rw [List.map_map]
    rfl
  rw [changesFor, List.map_append, List.nodup_append, hnew]
  refine ⟨hnodup.sublist hkept, h.new_nodup, ?_⟩
  intro key hkey key' hkey' heq
  subst heq
  obtain ⟨info, hinfo, rfl⟩ := List.mem_map.mp hkey'
  exact ((h.mem_new info).mp hinfo).1 (hkept.subset hkey)

theorem mem_of_associate_mem (h : Acted r t new r') {info : IoAssociation Props Rate}
    (hinfo : .associate info ∈ changesFor r t new) : info ∈ r'.currentAssociations := by
  rw [h.currentAssociations]
  rcases List.mem_append.mp hinfo with hmem | hmem
  · obtain ⟨current, hcurrent, hchange⟩ := List.mem_filterMap.mp hmem
    apply List.mem_append_left
    rw [List.mem_filterMap]
    refine ⟨current, hcurrent, ?_⟩
    rw [changeFor] at hchange
    cases hresolved : resolvedFor t current with
    | none =>
      rw [hresolved] at hchange
      cases hchange
    | some info' =>
      rw [hresolved] at hchange
      dsimp only at hchange
      split at hchange
      · cases hchange
      · cases hchange
        rfl
  · obtain ⟨info', hnew, heq⟩ := List.mem_map.mp hmem
    cases heq
    exact List.mem_append_right _ hnew

/-- A disassociated pair was current and is not routed any more. -/
theorem of_disassociate_mem (ht : spec.ResolvedBy t) {current : IoAssociation Props Rate}
    (h : .disassociate current ∈ changesFor r t new) :
    current ∈ r.currentAssociations ∧ ¬ spec.RoutedIds current.ids := by
  rcases List.mem_append.mp h with hmem | hmem
  · obtain ⟨current', hcurrent, hchange⟩ := List.mem_filterMap.mp hmem
    rw [changeFor] at hchange
    cases hresolved : resolvedFor t current' with
    | none =>
      rw [hresolved] at hchange
      cases hchange
      refine ⟨hcurrent, fun hrouted => ?_⟩
      obtain ⟨info, hget⟩ := (routedIds_iff ht).mp hrouted
      rw [resolvedFor, hget] at hresolved
      cases hresolved
    | some info =>
      rw [hresolved] at hchange
      dsimp only at hchange
      split at hchange
      · cases hchange
      · cases hchange
  · obtain ⟨_, _, heq⟩ := List.mem_map.mp hmem
    cases heq

/-- An association that holds afterwards is announced, or it held before with the same rate and nothing is published for it. -/
theorem announced_or_kept (h : Acted r t new r') (ht : spec.ResolvedBy t)
    (hnodup : (r.currentAssociations.map IoAssociation.ids).Nodup) {info : IoAssociation Props Rate}
    (hinfo : info ∈ r'.currentAssociations) :
    .associate info ∈ changesFor r t new ∨
      ∃ current ∈ r.currentAssociations, current.ids = info.ids ∧ current.updateRate = info.updateRate ∧
        ∀ change ∈ changesFor r t new, change.ids ≠ info.ids := by
  rw [h.currentAssociations] at hinfo
  rcases List.mem_append.mp hinfo with hmem | hmem
  · obtain ⟨current, hcurrent, hresolved⟩ := List.mem_filterMap.mp hmem
    have hids := ids_of_resolvedFor ht hresolved
    by_cases hrate : info.updateRate = current.updateRate
    · right
      refine ⟨current, hcurrent, hids.symm, hrate.symm, fun change hchange heq => ?_⟩
      rcases List.mem_append.mp hchange with hmem | hmem
      · obtain ⟨other, hother, hfor⟩ := List.mem_filterMap.mp hmem
        have hsame : other = current := by
          apply List.inj_on_of_nodup_map hnodup hother hcurrent
          rw [← ids_of_changeFor ht hfor, heq, hids]
        rw [hsame, changeFor, hresolved] at hfor
        dsimp only at hfor
        rw [if_pos hrate] at hfor
        cases hfor
      · obtain ⟨other, hother, rfl⟩ := List.mem_map.mp hmem
        have heq : other.ids = current.ids := Eq.trans heq hids
        exact ((h.mem_new other).mp hother).1 (heq ▸ List.mem_map_of_mem hcurrent)
    · left
      apply List.mem_append_left
      rw [List.mem_filterMap]
      refine ⟨current, hcurrent, ?_⟩
      rw [changeFor, hresolved]
      exact if_neg hrate
  · exact Or.inl (List.mem_append_right _ (List.mem_map_of_mem hmem))

theorem kept_of_unchanged (h : Acted r t new r') (ht : spec.ResolvedBy t) {current : IoAssociation Props Rate}
    (hcurrent : current ∈ r.currentAssociations) (hunchanged : ∀ change ∈ changesFor r t new, change.ids ≠ current.ids) :
    ∃ info ∈ r'.currentAssociations, info.ids = current.ids := by
  cases hchange : changeFor t current with
  | some change =>
    have hmem : change ∈ changesFor r t new :=
      List.mem_append_left _ (List.mem_filterMap.mpr ⟨current, hcurrent, hchange⟩)
    exact absurd (ids_of_changeFor ht hchange) (hunchanged change hmem)
  | none =>
    rw [changeFor] at hchange
    cases hresolved : resolvedFor t current with
    | none =>
      rw [hresolved] at hchange
      cases hchange
    | some info =>
      refine ⟨info, ?_, ids_of_resolvedFor ht hresolved⟩
      rw [h.currentAssociations]
      exact List.mem_append_left _ (List.mem_filterMap.mpr ⟨current, hcurrent, hresolved⟩)

omit [LinearOrder Rate] in
theorem filter_map_associate (sourceId : Uuid) (new : List (IoAssociation Props Rate)) :
    (new.map Change.associate).filter (fun change => change.ids.1 = sourceId)
      = (new.filter fun x => x.source.objectId = sourceId).map Change.associate := by
  rw [List.filter_map]
  rfl

theorem filter_filterMap_changeFor (ht : spec.ResolvedBy t) (sourceId : Uuid)
    (currents : List (IoAssociation Props Rate)) :
    (currents.filterMap (changeFor t)).filter (fun change => change.ids.1 = sourceId)
      = (currents.filter fun x => x.source.objectId = sourceId).filterMap (changeFor t) := by
  rw [List.filter_filterMap, List.filterMap_filter]
  apply List.filterMap_congr
  intro current _
  cases hchange : changeFor t current with
  | none => simp
  | some change =>
    have hids := ids_of_changeFor ht hchange
    have hsource : change.ids.1 = current.source.objectId := congrArg Prod.fst hids
    by_cases heq : current.source.objectId = sourceId
    · simp [hsource, heq]
    · simp [hsource, heq]

theorem last_change_of_new {sourceId : Uuid} (hnew : ∃ info ∈ new, info.source.objectId = sourceId) :
    ∃ info, ((changesFor r t new).filter fun change => change.ids.1 = sourceId).getLast? = some (.associate info) := by
  obtain ⟨info, hinfo, hsource⟩ := hnew
  have hne : new.filter (fun x => x.source.objectId = sourceId) ≠ [] :=
    List.ne_nil_of_mem (List.mem_filter.mpr ⟨hinfo, decide_eq_true hsource⟩)
  refine ⟨(new.filter fun x => x.source.objectId = sourceId).getLast hne, ?_⟩
  rw [changesFor, List.filter_append, filter_map_associate, List.getLast?_append, List.getLast?_map,
    List.getLast?_eq_some_getLast hne]
  rfl

theorem last_change_of_last (ht : spec.ResolvedBy t) {sourceId : Uuid}
    (hnew : ∀ info ∈ new, info.source.objectId ≠ sourceId) {last : IoAssociation Props Rate}
    (hlast : (r.currentAssociations.filter fun x => x.source.objectId = sourceId).getLast? = some last)
    {change : Change Props Rate} (hchange : changeFor t last = some change) :
    ((changesFor r t new).filter fun change => change.ids.1 = sourceId).getLast? = some change := by
  have hnone : new.filter (fun x => x.source.objectId = sourceId) = [] := by
    rw [List.filter_eq_nil_iff]
    intro info hinfo
    simpa using hnew info hinfo
  obtain ⟨before, hbefore⟩ := List.getLast?_eq_some_iff.mp hlast
  rw [changesFor, List.filter_append, filter_map_associate, hnone, List.map_nil, List.append_nil,
    filter_filterMap_changeFor ht, hbefore, List.filterMap_append, List.filterMap_cons_some hchange,
    List.filterMap_nil, List.getLast?_concat]

end Changes

/-! ### One step -/

section Step

variable [LinearOrder Rate]

theorem rate_eq_of_source {spec : Routing Props Rate} {associations : List (IoAssociation Props Rate)}
    (hexact : spec.Exact associations) (hunique : spec.UniquePoints) {x y : IoAssociation Props Rate}
    (hx : x ∈ associations) (hy : y ∈ associations) (hid : x.source.objectId = y.source.objectId) :
    x.source = y.source ∧ x.updateRate = y.updateRate := by
  obtain ⟨sourceNode, _, hrouted⟩ := (hexact.pairs x.source x.actor).mp ⟨x, hx, rfl, rfl⟩
  obtain ⟨sourceNode', _, hrouted'⟩ := (hexact.pairs y.source y.actor).mp ⟨y, hy, rfl, rfl⟩
  have hsource : x.source = y.source := (hunique.sources _ _ _ _ hrouted.sourceNode_managed
    hrouted'.sourceNode_managed hrouted.source_mem hrouted'.source_mem hid).1
  refine ⟨hsource, ?_⟩
  have hrate := hexact.rate y hy
  rw [← hsource] at hrate
  exact (hexact.rate x hx).unique hrate

omit [LinearOrder Rate] in
theorem hasSource_of_routed {spec : Routing Props Rate} {source : IoSource Props Rate} {actor : IoActor Props Rate}
    (h : spec.Routed source actor) : spec.HasSource source.objectId := by
  obtain ⟨sourceNode, _, hrouted⟩ := h
  exact ⟨sourceNode, hrouted.sourceNode_managed, source, hrouted.source_mem, rfl⟩

/-- What a step of the router and an agent with the source have to start with. -/
structure Batch (r : RuleBasedIoRouter Props Rate) (event : Event Props Rate) (r₀ : RuleBasedIoRouter Props Rate)
    (t : IoAssociationPairs Props Rate) (new : List (IoAssociation Props Rate)) (r' : RuleBasedIoRouter Props Rate)
    (m : CommunicationManager Props Rate) (sourceId : Uuid) : Prop where
  prepared : Prepared r event r₀
  resolved : r₀.routing.ResolvedBy t
  acted : Acted r₀ t new r'
  unique : r.routing.UniquePoints
  unique' : r₀.routing.UniquePoints
  exact : r.routing.Exact r.currentAssociations
  consistent : Consistent m
  owns : m.Owns sourceId
  participates : m.ParticipatesIn r₀.ioContext.name

namespace Batch

variable {r r₀ r' : RuleBasedIoRouter Props Rate} {event : Event Props Rate} {t : IoAssociationPairs Props Rate}
  {new : List (IoAssociation Props Rate)} {m : CommunicationManager Props Rate} {sourceId : Uuid}

theorem nodup (h : Batch r event r₀ t new r' m sourceId) :
    (r₀.currentAssociations.map IoAssociation.ids).Nodup := by
  rw [h.prepared.currentAssociations]
  exact h.exact.nodup

theorem exact' (h : Batch r event r₀ t new r' m sourceId) : r₀.routing.Exact r'.currentAssociations :=
  h.acted.exact h.nodup h.resolved

theorem hasSource (h : Batch r event r₀ t new r' m sourceId) {x : IoAssociation Props Rate}
    (hx : x ∈ r'.currentAssociations) : r₀.routing.HasSource x.source.objectId :=
  hasSource_of_routed ((h.exact'.pairs x.source x.actor).mp ⟨x, hx, rfl, rfl⟩)

theorem ioContext (h : Batch r event r₀ t new r' m sourceId) : r'.ioContext = r₀.ioContext :=
  h.acted.performed.ioContext

theorem published (h : Batch r event r₀ t new r' m sourceId) :
    r'.published.drop r.published.length = (changesFor r₀ t new).map r'.eventFor := by
  obtain ⟨ioNode, _, hname⟩ := h.participates
  have hvalid : CommunicationEvent.isValidEventFilter r₀.ioContext.name = true := hname ▸ ioNode.name_valid
  have hpublished : r'.published = r₀.published ++ (changesFor r₀ t new).map r'.eventFor :=
    h.acted.performed.published hvalid
  rw [hpublished, h.prepared.published, List.drop_left]

theorem route (h : Batch r event r₀ t new r' m sourceId) (hagrees : IoSystem.Agrees ⟨r, m⟩ sourceId) :
    ∃ route, EntryOn route (m.ioSourceItems.get sourceId) ∧
      ∀ x ∈ r'.currentAssociations, x.source.objectId = sourceId →
        (r'.sourceRoutes.get sourceId).map Prod.fst = some route := by
  have hnodup := h.consistent.actorIds_nodup sourceId
  cases hentry : m.ioSourceItems.get sourceId with
  | some items =>
    refine ⟨items.route, ⟨fun items' hitems' => hnodup items' (hentry.trans hitems'), ?_⟩, ?_⟩
    · intro items' hitems'
      cases hitems'
      rfl
    · intro x hx hsource
      have hkept := h.prepared.routes_kept h.unique sourceId (hsource ▸ h.hasSource hx)
      have hroute : (r.sourceRoutes.get sourceId).map Prod.fst = some items.route := hagrees.route items hentry
      obtain ⟨route, hget, hfst⟩ := Option.map_eq_some_iff.mp hroute
      rw [h.acted.performed.routes_kept sourceId route (hkept.trans hget), Option.map_some, hfst]
  | none =>
    have hannounced : ∀ x ∈ r'.currentAssociations, x.source.objectId = sourceId →
        ∃ route, r'.sourceRoutes.get sourceId = some route := by
      intro x hx hsource
      rcases announced_or_kept h.acted h.resolved h.nodup hx with hassociate | ⟨current, hcurrent, hids, _⟩
      · obtain ⟨route, hroute⟩ := h.acted.performed.routed x hassociate
        exact ⟨route, hsource ▸ hroute⟩
      · rw [h.prepared.currentAssociations] at hcurrent
        have hcurrentSource : current.source.objectId = x.source.objectId := congrArg Prod.fst hids
        exact absurd (hcurrentSource.trans hsource) (hagrees.absent.mp hentry current hcurrent)
    cases hroute : r'.sourceRoutes.get sourceId with
    | some route =>
      exact ⟨route.1, ⟨nofun, nofun⟩, fun _ _ _ => rfl⟩
    | none =>
      refine ⟨sourceId, ⟨nofun, nofun⟩, fun x hx hsource => ?_⟩
      obtain ⟨route, hsome⟩ := hannounced x hx hsource
      rw [hroute] at hsome
      cases hsome

theorem actorOf_iff (h : Batch r event r₀ t new r' m sourceId) (hagrees : IoSystem.Agrees ⟨r, m⟩ sourceId)
    {route : IoRoute} {entry' : Option (IoSourceItem Rate)}
    (hupdated : EntryUpdated sourceId route (changesFor r₀ t new) (m.ioSourceItems.get sourceId) entry')
    (actorId : Uuid) : ActorOf entry' actorId ↔ ∃ x ∈ r'.currentAssociations, x.ids = (sourceId, actorId) := by
  rw [hupdated.actorOf]
  constructor
  · intro hcases
    rcases hcases with ⟨info, hinfo, hids⟩ | ⟨⟨items, hitems, hactor⟩, hunchanged⟩
    · exact ⟨info, mem_of_associate_mem h.acted hinfo, hids⟩
    · obtain ⟨current, hcurrent, hids⟩ := (hagrees.actorIds items hitems actorId).mp hactor
      rw [← h.prepared.currentAssociations] at hcurrent
      obtain ⟨info, hinfo, heq⟩ := kept_of_unchanged h.acted h.resolved hcurrent (hids ▸ hunchanged)
      exact ⟨info, hinfo, heq.trans hids⟩
  · intro ⟨x, hx, hids⟩
    rcases announced_or_kept h.acted h.resolved h.nodup hx with hassociate | ⟨current, hcurrent, heq, _, hunchanged⟩
    · exact Or.inl ⟨x, hassociate, hids⟩
    · right
      rw [hids] at heq hunchanged
      rw [h.prepared.currentAssociations] at hcurrent
      have hsource : current.source.objectId = sourceId := congrArg Prod.fst heq
      cases hentry : m.ioSourceItems.get sourceId with
      | none => exact absurd hsource (hagrees.absent.mp hentry current hcurrent)
      | some items => exact ⟨⟨items, rfl, (hagrees.actorIds items hentry actorId).mpr ⟨current, hcurrent, heq⟩⟩, hunchanged⟩

theorem updateRate_eq (h : Batch r event r₀ t new r' m sourceId) (hagrees : IoSystem.Agrees ⟨r, m⟩ sourceId)
    (hkeeps : r.KeepsRate sourceId event)
    {route : IoRoute} {entry' : Option (IoSourceItem Rate)}
    (hupdated : EntryUpdated sourceId route (changesFor r₀ t new) (m.ioSourceItems.get sourceId) entry')
    {items : IoSourceItem Rate} (hitems : entry' = some items) {x : IoAssociation Props Rate}
    (hx : x ∈ r'.currentAssociations) (hsource : x.source.objectId = sourceId) : x.updateRate = items.updateRate := by
  have hrouted : r₀.routing.Routed x.source x.actor := (h.exact'.pairs x.source x.actor).mp ⟨x, hx, rfl, rfl⟩
  cases hlast : ((changesFor r₀ t new).filter fun change => change.ids.1 = sourceId).getLast? with
  | none =>
    -- No event of the batch is for the source.
    have hothers : ∀ change ∈ changesFor r₀ t new, change.ids.1 ≠ sourceId := by
      have hnil := List.getLast?_eq_none_iff.mp hlast
      intro change hchange
      simpa using List.filter_eq_nil_iff.mp hnil change hchange
    rcases announced_or_kept h.acted h.resolved h.nodup hx with hassociate | ⟨current, hcurrent, hids, hrate, _⟩
    · exact absurd hsource (hothers _ hassociate)
    · have hentry := (hupdated.unchanged hothers).symm.trans hitems
      rw [h.prepared.currentAssociations] at hcurrent
      have hcurrentSource : current.source.objectId = x.source.objectId := congrArg Prod.fst hids
      rw [← hrate]
      exact hagrees.updateRate items hentry current hcurrent (hcurrentSource.trans hsource)
  | some change =>
    rw [hupdated.last change hlast items hitems]
    have hmem := List.mem_filter.mp (List.mem_of_getLast? hlast)
    have hchangeSource : change.ids.1 = sourceId := of_decide_eq_true hmem.2
    cases change with
    | associate info =>
      exact (rate_eq_of_source h.exact' h.unique' hx (mem_of_associate_mem h.acted hmem.1)
        (hsource.trans hchangeSource.symm)).2
    | disassociate current =>
      obtain ⟨hcurrent, hlost⟩ := of_disassociate_mem h.resolved hmem.1
      have hnoNew : ∀ info ∈ new, info.source.objectId ≠ sourceId := by
        intro info hinfo hinfoSource
        obtain ⟨other, hother⟩ := last_change_of_new (r := r₀) (t := t) ⟨info, hinfo, hinfoSource⟩
        rw [hother] at hlast
        cases hlast
      rw [h.prepared.currentAssociations] at hcurrent
      have hlost' : ¬ (r.routing.step event).RoutedIds current.ids := h.prepared.routing ▸ hlost
      have hcases := hkeeps ⟨current, hcurrent, hchangeSource, hlost'⟩ x.source x.actor
        (h.prepared.routing ▸ hrouted) hsource
      rw [← h.prepared.routing, ← h.prepared.currentAssociations] at hcases
      rcases hcases with hnone | ⟨actor', hrouted', hnew⟩ | ⟨last, hlastCurrent, hlastRouted, hchanged⟩
      · exact (h.exact'.rate x hx).unique hnone
      · obtain ⟨info, hget, hinfoSource, hinfoActor⟩ := h.resolved.complete x.source actor' hrouted'
        have hids : info.ids = (sourceId, actor'.objectId) := by
          rw [IoAssociation.ids, hinfoSource, hinfoActor, hsource]
        have hinfo : info ∈ new := by
          rw [h.acted.mem_new, hids, ← hsource]
          exact ⟨hsource ▸ hnew, hget⟩
        exact absurd (hinfoSource ▸ hsource) (hnoNew info hinfo)
      · obtain ⟨info, hget⟩ := (routedIds_iff h.resolved).mp hlastRouted
        have hresolved : resolvedFor t last = some info := hget
        have hlastSource : last.source.objectId = sourceId :=
          of_decide_eq_true (List.mem_filter.mp (List.mem_of_getLast? hlastCurrent)).2
        have hids := ids_of_resolvedFor h.resolved hresolved
        have hinfo : info ∈ r'.currentAssociations := by
          rw [h.acted.mem_currentAssociations h.resolved, hids]
          exact hget
        have hinfoSource : info.source.objectId = sourceId := (congrArg Prod.fst hids).trans hlastSource
        have hsame := (rate_eq_of_source h.exact' h.unique' hinfo hx (hinfoSource.trans hsource.symm)).1
        have hrate : info.updateRate ≠ last.updateRate := by
          intro heq
          apply hchanged
          rw [← heq, ← hsame]
          exact h.exact'.rate info hinfo
        have hchange : changeFor t last = some (.associate info) := by
          rw [changeFor, hresolved]
          exact if_neg hrate
        rw [last_change_of_last h.resolved hnoNew hlastCurrent hchange] at hlast
        cases hlast

/-- Conversely, if the rate of the entry after the batch is that of the router, the source has kept its rate. -/
theorem keepsRate (h : Batch r event r₀ t new r' m sourceId) {route : IoRoute} {items : IoSourceItem Rate}
    (hupdated : EntryUpdated sourceId route (changesFor r₀ t new) (m.ioSourceItems.get sourceId) (some items))
    (hrate : ∀ x ∈ r'.currentAssociations, x.source.objectId = sourceId → x.updateRate = items.updateRate)
    {x : IoAssociation Props Rate} (hx : x ∈ r.currentAssociations) (hxSource : x.source.objectId = sourceId)
    (hlost : ¬ r₀.routing.RoutedIds x.ids) {source : IoSource Props Rate} {actor : IoActor Props Rate}
    (hrouted : r₀.routing.Routed source actor) (hsource : source.objectId = sourceId) :
    IsMaximum (r₀.routing.rates source) none ∨
      (∃ actor', r₀.routing.Routed source actor' ∧
        (sourceId, actor'.objectId) ∉ r.currentAssociations.map IoAssociation.ids) ∨
      ∃ last, (r.currentAssociations.filter fun x => x.source.objectId = sourceId).getLast? = some last ∧
        r₀.routing.RoutedIds last.ids ∧ ¬ IsMaximum (r₀.routing.rates source) last.updateRate := by
  rw [← h.prepared.currentAssociations] at hx ⊢
  obtain ⟨info, hinfo, hinfoSource, _⟩ := (h.exact'.pairs source actor).mpr hrouted
  have hmaximum := h.exact'.rate info hinfo
  rw [hinfoSource, hrate info hinfo (hinfoSource ▸ hsource)] at hmaximum
  -- The lost association is disassociated, so there is a last event of the batch for the source.
  have hdisassociate : changeFor t x = some (.disassociate x) := by
    have hunresolved : resolvedFor t x = none := by
      rw [resolvedFor, Option.eq_none_iff_forall_ne_some]
      intro other hother
      exact hlost ((routedIds_iff h.resolved).mpr ⟨other, hother⟩)
    rw [changeFor, hunresolved]
  have hmem : Change.disassociate x ∈ (changesFor r₀ t new).filter fun change => change.ids.1 = sourceId :=
    List.mem_filter.mpr ⟨List.mem_append_left _ (List.mem_filterMap.mpr ⟨x, hx, hdisassociate⟩),
      decide_eq_true hxSource⟩
  obtain ⟨change, hlast⟩ : ∃ change,
      ((changesFor r₀ t new).filter fun change => change.ids.1 = sourceId).getLast? = some change :=
    ⟨_, List.getLast?_eq_some_getLast (List.ne_nil_of_mem hmem)⟩
  rw [hupdated.last change hlast items rfl] at hmaximum
  cases change with
  | disassociate current => exact Or.inl hmaximum
  | associate other =>
    right
    obtain ⟨hother, hotherSource⟩ := List.mem_filter.mp (List.mem_of_getLast? hlast)
    have hotherSource : other.source.objectId = sourceId := of_decide_eq_true hotherSource
    have hotherMem := mem_of_associate_mem h.acted hother
    have hotherRouted := (h.exact'.pairs other.source other.actor).mp ⟨other, hotherMem, rfl, rfl⟩
    have heq : other.source = source := hinfoSource ▸ (rate_eq_of_source h.exact' h.unique' hotherMem hinfo
      (hotherSource.trans (hinfoSource ▸ hsource).symm)).1
    by_cases hnew : ∃ info ∈ new, info.source.objectId = sourceId
    · left
      obtain ⟨added, hadded, haddedSource⟩ := hnew
      have haddedMem : added ∈ r'.currentAssociations := by
        rw [h.acted.currentAssociations]
        exact List.mem_append_right _ hadded
      have haddedEq : added.source = source := hinfoSource ▸ (rate_eq_of_source h.exact' h.unique' haddedMem hinfo
        (haddedSource.trans (hinfoSource ▸ hsource).symm)).1
      refine ⟨added.actor, haddedEq ▸ (h.exact'.pairs added.source added.actor).mp ⟨added, haddedMem, rfl, rfl⟩, ?_⟩
      rw [← haddedSource]
      exact ((h.acted.mem_new added).mp hadded).1
    · right
      have hnoNew : ∀ info ∈ new, info.source.objectId ≠ sourceId := fun info hinfo heq => hnew ⟨info, hinfo, heq⟩
      -- The rate has changed, so every current association of the source is announced or disassociated.
      obtain ⟨current, hcurrent, hannounced⟩ : ∃ current ∈ r₀.currentAssociations,
          changeFor t current = some (.associate other) := by
        rcases List.mem_append.mp hother with hmem | hmem
        · exact List.mem_filterMap.mp hmem
        · obtain ⟨info, hinfo, hinfoEq⟩ := List.mem_map.mp hmem
          cases hinfoEq
          exact absurd hotherSource (hnoNew other hinfo)
      have hcurrentSource : current.source.objectId = sourceId :=
        (congrArg Prod.fst (ids_of_changeFor h.resolved hannounced)).symm.trans hotherSource
      have hchanged : other.updateRate ≠ current.updateRate := by
        intro hsame
        rw [changeFor] at hannounced
        cases hresolved : resolvedFor t current with
        | none =>
          rw [hresolved] at hannounced
          cases hannounced
        | some resolved =>
          rw [hresolved] at hannounced
          dsimp only at hannounced
          split at hannounced
          · cases hannounced
          · rename_i hdiffers
            cases hannounced
            exact hdiffers hsame
      have hmemCurrent : x ∈ r₀.currentAssociations.filter fun x => x.source.objectId = sourceId :=
        List.mem_filter.mpr ⟨hx, decide_eq_true hxSource⟩
      obtain ⟨last, hlastCurrent⟩ : ∃ last,
          (r₀.currentAssociations.filter fun x => x.source.objectId = sourceId).getLast? = some last :=
        ⟨_, List.getLast?_eq_some_getLast (List.ne_nil_of_mem hmemCurrent)⟩
      obtain ⟨hlastMem, hlastSource⟩ := List.mem_filter.mp (List.mem_of_getLast? hlastCurrent)
      have hlastSource : last.source.objectId = sourceId := of_decide_eq_true hlastSource
      have hlastRate : last.updateRate = current.updateRate := by
        rw [h.prepared.currentAssociations] at hlastMem hcurrent
        exact (rate_eq_of_source h.exact h.unique hlastMem hcurrent (hlastSource.trans hcurrentSource.symm)).2
      refine ⟨last, hlastCurrent, ?_, ?_⟩
      · by_contra hlastLost
        have hunresolved : resolvedFor t last = none := by
          rw [resolvedFor, Option.eq_none_iff_forall_ne_some]
          intro resolved hresolved
          exact hlastLost ((routedIds_iff h.resolved).mpr ⟨resolved, hresolved⟩)
        have hlastChange : changeFor t last = some (.disassociate last) := by rw [changeFor, hunresolved]
        rw [last_change_of_last h.resolved hnoNew hlastCurrent hlastChange] at hlast
        cases hlast
      · intro hsame
        apply hchanged
        rw [← hlastRate]
        exact hmaximum.unique hsame

theorem consistent' (h : Batch r event r₀ t new r' m sourceId) :
    Consistent ((r'.published.drop r.published.length).foldl receive m) ∧
      ((r'.published.drop r.published.length).foldl receive m).ioNodes = m.ioNodes ∧
      ((r'.published.drop r.published.length).foldl receive m).ioSourceItems.get sourceId
        = ((changesFor r₀ t new).map r'.eventFor).foldl (entryAfter sourceId) (m.ioSourceItems.get sourceId) := by
  rw [h.published]
  apply foldl_receive_spec h.consistent h.owns
  intro associateEvent hmem
  obtain ⟨change, _, rfl⟩ := List.mem_map.mp hmem
  have hname : (r'.eventFor change).ioContextName = r₀.ioContext.name := by
    rw [← h.ioContext]
    cases change <;> rfl
  rw [hname]
  exact h.participates

/-- After the batch the agent agrees with the router exactly if the source has kept its rate. -/
theorem agrees_iff (h : Batch r event r₀ t new r' m sourceId) (hagrees : IoSystem.Agrees ⟨r, m⟩ sourceId) :
    IoSystem.Agrees ⟨r', (r'.published.drop r.published.length).foldl receive m⟩ sourceId ↔
      r.KeepsRate sourceId event := by
  obtain ⟨hconsistent, _, hget⟩ := h.consistent'
  set m' := (r'.published.drop r.published.length).foldl receive m
  obtain ⟨route, hon, hroute⟩ := h.route hagrees
  have hupdated : EntryUpdated sourceId route (changesFor r₀ t new) (m.ioSourceItems.get sourceId)
      (m'.ioSourceItems.get sourceId) := by
    rw [hget]
    apply entryUpdated_foldl (nodup_changesFor h.acted h.resolved h.nodup) ?_ hon
    intro info hinfo hsource
    exact hroute info (mem_of_associate_mem h.acted hinfo) hsource
  have hactors := h.actorOf_iff hagrees hupdated
  constructor
  · intro hagrees'
    rw [KeepsRate, ← h.prepared.routing]
    intro ⟨x, hx, hxSource, hlost⟩ source actor hrouted hsource
    obtain ⟨info, hinfo, hinfoSource, _⟩ := (h.exact'.pairs source actor).mpr hrouted
    have hinfoId : info.source.objectId = sourceId := by rw [hinfoSource, hsource]
    obtain ⟨items, hitems, _⟩ := (hactors info.actor.objectId).mpr ⟨info, hinfo, Prod.ext hinfoId rfl⟩
    rw [hitems] at hupdated
    exact h.keepsRate hupdated (hagrees'.updateRate items hitems) hx hxSource hlost hrouted hsource
  · intro hkeeps
    have hassociated : ∀ items, m'.ioSourceItems.get sourceId = some items →
        ∃ x ∈ r'.currentAssociations, x.source.objectId = sourceId := by
      intro items hitems
      obtain ⟨actorId, hactorId⟩ := List.exists_mem_of_ne_nil _ (hconsistent.actorIds_nonempty sourceId items hitems)
      obtain ⟨x, hx, hids⟩ := (hactors actorId).mp ⟨items, hitems, hactorId⟩
      exact ⟨x, hx, congrArg Prod.fst hids⟩
    refine ⟨?_, ?_, ?_, ?_⟩
    · constructor
      · intro hnone x hx hsource
        obtain ⟨items, hitems, _⟩ := (hactors x.actor.objectId).mpr ⟨x, hx, Prod.ext hsource rfl⟩
        cases hnone.symm.trans hitems
      · intro hothers
        apply Option.eq_none_iff_forall_ne_some.mpr
        intro items hitems
        obtain ⟨x, hx, hsource⟩ := hassociated items hitems
        exact hothers x hx hsource
    · intro items hitems
      obtain ⟨x, hx, hsource⟩ := hassociated items hitems
      rw [hupdated.on.route items hitems]
      exact hroute x hx hsource
    · intro items hitems actorId
      rw [← hactors actorId]
      constructor
      · intro hactor
        exact ⟨items, hitems, hactor⟩
      · intro ⟨items', hitems', hactor⟩
        cases hitems.symm.trans hitems'
        exact hactor
    · intro items hitems x hx hsource
      exact h.updateRate_eq hagrees hkeeps hupdated hitems hx hsource

end Batch

end Step

end RuleBasedIoRouter

namespace IoSystem

variable [LinearOrder Rate]

/-- The router does what the abstract routing asks for, and the agent takes part in its context with the source. -/
structure Hosts (sourceId : Uuid) (s : IoSystem Props Rate) : Prop where
  refines : Refines s.router s.router.routing
  consistent : Consistent s.agent
  owns : s.agent.Owns sourceId
  participates : s.agent.ParticipatesIn s.router.ioContext.name

def KeepsRate (sourceId : Uuid) (s : IoSystem Props Rate) (event : RuleBasedIoRouter.Event Props Rate) : Prop :=
  s.router.KeepsRate sourceId event

omit [LinearOrder Rate] in
theorem name_step {t : Routing Props Rate} {event : RuleBasedIoRouter.Event Props Rate}
    (hname : ∀ ioContext, event = .updateContext ioContext → ioContext.name = t.ioContext.name) :
    (t.step event).ioContext.name = t.ioContext.name := by
  cases event with
  | advertise node =>
    rw [Routing.step]
    split <;> rfl
  | deadvertise objectIds => rfl
  | updateContext ioContext =>
    rw [Routing.step]
    split
    · exact hname ioContext rfl
    · rfl
  | defineRules rules => rfl

/-- A step does not fail, and the agent then agrees with the router exactly if the source keeps its rate. -/
theorem step_spec {sourceId : Uuid} {s : IoSystem Props Rate} {event : RuleBasedIoRouter.Event Props Rate}
    (hs : s.Hosts sourceId) (hregular : s.router.routing.Regular event) :
    ∃ s', s.step event = .ok s' ∧ (s'.Hosts sourceId ∧ s'.router.routing = s.router.routing.step event) ∧
      (s.Agrees sourceId → (s'.Agrees sourceId ↔ s.KeepsRate sourceId event)) := by
  obtain ⟨r', hok, hstepped⟩ := step_ok hs.refines.wellFormed hs.refines.exact.nodup hregular.1
  have hrefines := hstepped.refines hs.refines hregular.1
  have hrefines' : Refines r' r'.routing := by
    rw [hrefines.routing]
    exact hrefines
  refine ⟨⟨r', (r'.published.drop s.router.published.length).foldl receive s.agent⟩, ?_, ?_⟩
  · rw [step, hok]
    rfl
  have hname := name_step hregular.2
  cases hstepped with
  | unchanged hprepared hrouting =>
    have hnothing : r'.published.drop s.router.published.length = [] := by
      rw [hprepared.published, List.drop_length]
    have hcontext : r'.ioContext = s.router.ioContext := congrArg Routing.ioContext hrouting
    rw [hnothing, List.foldl_nil]
    refine ⟨⟨⟨hrefines', hs.consistent, hs.owns, ?_⟩, hrefines.routing⟩, fun hagrees => ?_⟩
    · rw [hcontext]
      exact hs.participates
    · -- No association is lost, as all of them are still routed.
      have hkeeps : s.KeepsRate sourceId event := by
        intro ⟨x, hx, _, hlost⟩
        rw [← hprepared.routing, hrouting] at hlost
        exact absurd ⟨x.source, x.actor, (hs.refines.exact.pairs x.source x.actor).mp ⟨x, hx, rfl, rfl⟩, rfl⟩ hlost
      refine ⟨fun _ => hkeeps, fun _ => ⟨?_, ?_, ?_, ?_⟩⟩
      · rw [hprepared.currentAssociations]
        exact hagrees.absent
      · intro items hitems
        have hsome : ¬ ∀ x ∈ s.router.currentAssociations, x.source.objectId ≠ sourceId := by
          intro hothers
          cases (hagrees.absent.mpr hothers).symm.trans hitems
        push Not at hsome
        obtain ⟨x, hx, hsource⟩ := hsome
        have hhas : r'.routing.HasSource sourceId := by
          rw [hrouting, ← hsource]
          exact hasSource_of_routed ((hs.refines.exact.pairs x.source x.actor).mp ⟨x, hx, rfl, rfl⟩)
        rw [hprepared.routes_kept hs.refines.unique sourceId hhas]
        exact hagrees.route items hitems
      · rw [hprepared.currentAssociations]
        exact hagrees.actorIds
      · rw [hprepared.currentAssociations]
        exact hagrees.updateRate
  | acted r₀ t new hprepared hresolved hacted =>
    have hcontext : r₀.ioContext.name = s.router.ioContext.name := by
      show _ = s.router.routing.ioContext.name
      rw [← hname, ← hprepared.routing]
      rfl
    have hbatch : Batch s.router event r₀ t new r' s.agent sourceId := {
      prepared := hprepared
      resolved := hresolved
      acted := hacted
      unique := hs.refines.unique
      unique' := by
        rw [hprepared.routing]
        exact hregular.1.2
      exact := hs.refines.exact
      consistent := hs.consistent
      owns := hs.owns
      participates := hcontext ▸ hs.participates }
    obtain ⟨hconsistent, hnodes, _⟩ := hbatch.consistent'
    refine ⟨⟨⟨hrefines', hconsistent, (owns_congr hnodes sourceId).mpr hs.owns, ?_⟩, hrefines.routing⟩,
      hbatch.agrees_iff⟩
    have hparticipates := hbatch.participates
    rw [ParticipatesIn, hnodes, hbatch.ioContext]
    exact hparticipates

/-! ### Whole runs -/

/-- A router that starts and an agent that starts. -/
def start (identity : Uuid) (createIoRoute : Uuid → IoRoute) (ioContext : IoContext Props)
    (ioNodes : List (OwnIoNode Props Rate)) : IoSystem Props Rate where
  router := init identity createIoRoute ioContext
  agent := CommunicationManager.start ioNodes

omit [LinearOrder Rate] in
theorem owns_of_mem {m : CommunicationManager Props Rate} {ioNode : OwnIoNode Props Rate} (hnode : ioNode ∈ m.ioNodes)
    {source : IoSource Props Rate} (hsource : source ∈ ioNode.ioSources) : m.Owns source.objectId := by
  rw [Owns, findIoPointById, List.findSome?_isSome_iff]
  refine ⟨ioNode, hnode, ?_⟩
  have hfind : (ioNode.ioSources.find? fun src => src.objectId = source.objectId).isSome = true := by
    rw [List.find?_isSome]
    exact ⟨source, hsource, decide_eq_true rfl⟩
  obtain ⟨found, hfound⟩ := Option.isSome_iff_exists.mp hfind
  rw [hfound]
  rfl

theorem hosts_start (identity : Uuid) (createIoRoute : Uuid → IoRoute) (ioContext : IoContext Props)
    {ioNodes : List (OwnIoNode Props Rate)} {ioNode : OwnIoNode Props Rate} (hnode : ioNode ∈ ioNodes)
    (hname : ioNode.name = ioContext.name) {source : IoSource Props Rate} (hsource : source ∈ ioNode.ioSources) :
    (start identity createIoRoute ioContext ioNodes).Hosts source.objectId where
  refines := refines_init identity createIoRoute ioContext
  consistent := start_consistent ioNodes
  owns := owns_of_mem hnode hsource
  participates := ⟨ioNode, hnode, hname⟩

omit [LinearOrder Rate] in
theorem agrees_start (identity : Uuid) (createIoRoute : Uuid → IoRoute) (ioContext : IoContext Props)
    (ioNodes : List (OwnIoNode Props Rate)) (sourceId : Uuid) :
    (start identity createIoRoute ioContext ioNodes).Agrees sourceId :=
  ⟨⟨fun _ => nofun, fun _ => rfl⟩, nofun, nofun, nofun⟩

/-- In a run of a router and the agent that hosts a source, the agent agrees with the router after every batch exactly if the source keeps its rate in every step. -/
theorem agrees_iff_keepsRate (identity : Uuid) (createIoRoute : Uuid → IoRoute) (ioContext : IoContext Props)
    {ioNodes : List (OwnIoNode Props Rate)} {ioNode : OwnIoNode Props Rate} (hnode : ioNode ∈ ioNodes)
    (hname : ioNode.name = ioContext.name) {source : IoSource Props Rate} (hsource : source ∈ ioNode.ioSources)
    (events : List (RuleBasedIoRouter.Event Props Rate))
    (hregular : Along Routing.step Routing.Regular
      (start identity createIoRoute ioContext ioNodes).router.routing events) :
    (∀ n, ∃ s, (events.take n).foldlM step (start identity createIoRoute ioContext ioNodes) = .ok s ∧
        s.Agrees source.objectId) ↔
      AlongOk step (KeepsRate source.objectId) (start identity createIoRoute ioContext ioNodes) events := by
  have hhosts := hosts_start identity createIoRoute ioContext hnode hname hsource
  have hok : AlongOk step (fun s event => s.router.routing.Regular event)
      (start identity createIoRoute ioContext ioNodes) events := by
    apply Along.alongOk (f := fun s => s.router.routing) ?_ hregular hhosts
    intro s event s' hs hregular hs'
    obtain ⟨s₁, hs₁, hnext, _⟩ := step_spec hs hregular
    cases hs₁.symm.trans hs'
    exact hnext
  apply AlongOk.forall_take_iff ?_ hok hhosts (agrees_start identity createIoRoute ioContext ioNodes source.objectId)
  intro s event hs hregular
  obtain ⟨s', hs', ⟨hhosts', _⟩, hiff⟩ := step_spec hs hregular
  exact ⟨s', hs', hhosts', hiff⟩

/-! ### A source that loses an actor -/

def thermometer : IoSource Unit Nat := ⟨thermometerId, text "celsius", none, some 500, none, ()⟩

def display : IoActor Unit Nat := ⟨displayId, text "celsius", none, none, none, ()⟩

def recorder : IoActor Unit Nat := ⟨recorderId, text "celsius", none, none, none, ()⟩

/-- The node of a room with a thermometer and some actors for its values. -/
def roomWith (ioActors : List (IoActor Unit Nat)) : IoNode Unit Nat where
  objectId := nodeId
  name := text "room"
  ioSources := some [thermometer]
  ioActors := some ioActors
  properties := ()

/-- The node of the agent that hosts the thermometer. -/
def ownRoom : OwnIoNode Unit Nat where
  name := text "room"
  name_valid := isValidEventFilter_room
  ioSources := [thermometer]
  ioActors := []

def startRoom : IoSystem Unit Nat := start ⟨text "router", by decide⟩ createRoomRoute roomContext [ownRoom]

/-- All pairs are associated, and then the room loses its recorder. -/
def losesRecorder : List (RuleBasedIoRouter.Event Unit Nat) :=
  [.defineRules [anyPair], .advertise (roomWith [display, recorder]), .advertise (roomWith [display])]

theorem regular_losesRecorder : Along Routing.step Routing.Regular startRoom.router.routing losesRecorder := by
  have hnone : ∀ node, ¬ (startRoom.router.routing.step (.defineRules [anyPair])).Managed node := by
    intro node ⟨id, hnode⟩
    cases hnode
  have hboth : ∀ node, ((startRoom.router.routing.step (.defineRules [anyPair])).step
      (.advertise (roomWith [display, recorder]))).Managed node → node = roomWith [display, recorder] := by
    intro node ⟨id, hnode⟩
    change (if id = (roomWith []).objectId then some (roomWith [display, recorder]) else none) = some node at hnode
    split at hnode
    · exact (Option.some.inj hnode).symm
    · cases hnode
  have hdisplay : ∀ node, (((startRoom.router.routing.step (.defineRules [anyPair])).step
      (.advertise (roomWith [display, recorder]))).step (.advertise (roomWith [display]))).Managed node →
      node = roomWith [display] := by
    intro node ⟨id, hnode⟩
    change (if id = (roomWith []).objectId then some (roomWith [display]) else
      if id = (roomWith []).objectId then some (roomWith [display, recorder]) else none) = some node at hnode
    split at hnode
    · exact (Option.some.inj hnode).symm
    · cases hnode
  have harrays : ∀ ioActors node, RuleBasedIoRouter.Event.advertise (roomWith ioActors) = .advertise node →
      node.ioSources.isSome = true ∧ node.ioActors.isSome = true := by
    intro ioActors node heq
    cases heq
    exact ⟨rfl, rfl⟩
  refine ⟨⟨⟨nofun, ⟨?_, ?_⟩⟩, nofun⟩, ⟨⟨harrays _, uniquePoints_of_single hboth ?_ ?_⟩, nofun⟩,
    ⟨⟨harrays _, uniquePoints_of_single hdisplay ?_ ?_⟩, nofun⟩, trivial⟩
  · intro node _ _ _ hnode
    exact absurd hnode (hnone node)
  · intro node _ _ _ hnode
    exact absurd hnode (hnone node)
  · decide
  · decide
  · decide
  · decide

theorem agrees_iff_keepsRate_thermometer :
    (∀ n, ∃ s, (losesRecorder.take n).foldlM step startRoom = .ok s ∧ s.Agrees thermometer.objectId) ↔
      AlongOk step (KeepsRate thermometer.objectId) startRoom losesRecorder :=
  agrees_iff_keepsRate ⟨text "router", by decide⟩ createRoomRoute roomContext (List.mem_singleton_self ownRoom) rfl
    (List.mem_singleton_self thermometer) losesRecorder regular_losesRecorder

/-- The thermometer is still associated with the display at a rate of 500, but its agent does not know the rate any more. -/
theorem not_agrees_thermometer :
    Along Routing.step Routing.Regular startRoom.router.routing losesRecorder ∧
      ¬ ∀ n, ∃ s, (losesRecorder.take n).foldlM step startRoom = .ok s ∧ s.Agrees thermometer.objectId := by
  refine ⟨regular_losesRecorder, fun h => ?_⟩
  obtain ⟨s, hs, hagrees⟩ := h 3
  have houtcome : (losesRecorder.take 3).foldlM step startRoom >>= (fun s => Except.ok
      ((s.agent.ioSourceItems.get thermometer.objectId).map IoSourceItem.updateRate,
        s.router.currentAssociations.map fun x => (x.source.objectId, x.updateRate)))
      = .ok (some none, [(thermometer.objectId, some 500)]) := by
    decide +kernel
  rw [hs] at houtcome
  obtain ⟨hentry, hcurrent⟩ := Prod.mk.inj (Except.ok.inj houtcome)
  obtain ⟨items, hitems, hrate⟩ := Option.map_eq_some_iff.mp hentry
  have hmem : (thermometer.objectId, some 500) ∈ s.router.currentAssociations.map fun x =>
      (x.source.objectId, x.updateRate) := by
    rw [hcurrent]
    exact List.mem_singleton_self _
  obtain ⟨x, hx, heq⟩ := List.mem_map.mp hmem
  obtain ⟨hsource, hxRate⟩ := Prod.mk.inj heq
  have hagreed := hagrees.updateRate items hitems x hx hsource
  rw [hxRate, hrate] at hagreed
  cases hagreed

end IoSystem

end Coaty
