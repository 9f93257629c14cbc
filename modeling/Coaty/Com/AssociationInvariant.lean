import Coaty.Com.CommunicationManager
import Coaty.Transition

/-!
# What the association maps have in common

Four helpers keep the two maps of an agent and its subscriptions. What they preserve together is that nothing is listed twice or kept empty, that a source is listed for an actor on one route only, and that the subscribed routes are those with an own actor. The effect of each helper on the listed sources is stated route by route and actor by actor.
-/

namespace Coaty

open Js Transition

variable {Props Rate : Type}

namespace CommunicationManager

/-! ### Subscribed routes -/

def subscribedAfter (filters : List Text) : BindingCall → List Text
  | .subscribe eventLike => filters ++ eventLike.eventTypeFilter.toList
  | .unsubscribe eventLike => filters.filter fun filter => some filter ≠ eventLike.eventTypeFilter

def subscribedIoRoutes (m : CommunicationManager Props Rate) : List Text := m.bindingCalls.foldl subscribedAfter []

variable {m : CommunicationManager Props Rate}

theorem mem_subscribedIoRoutes_subscribe {ioRoute : IoRoute} {isDataRaw isExternalIoRoute : Bool} {filter : Text} :
    filter ∈ (m.subscribe (ioValueEventLike ioRoute isDataRaw isExternalIoRoute)).subscribedIoRoutes ↔
      filter ∈ m.subscribedIoRoutes ∨ filter = ioRoute.val := by
  rw [subscribedIoRoutes, subscribe, List.foldl_append]
  show filter ∈ m.subscribedIoRoutes ++ [ioRoute.val] ↔ _
  rw [List.mem_append, List.mem_singleton]

theorem mem_subscribedIoRoutes_unsubscribe {ioRoute : IoRoute} {filter : Text} :
    filter ∈ (m.unsubscribe ioRoute).subscribedIoRoutes ↔ filter ∈ m.subscribedIoRoutes ∧ filter ≠ ioRoute.val := by
  rw [subscribedIoRoutes, unsubscribe, List.foldl_append]
  show filter ∈ m.subscribedIoRoutes.filter (fun filter => some filter ≠ some ioRoute.val) ↔ _
  rw [List.mem_filter]
  simp only [ne_eq, Option.some.injEq, decide_not, Bool.not_eq_eq_eq_not, Bool.not_true, decide_eq_false_iff_not]

/-! ### Disassociating -/

/-- The listed sources without one of them. -/
def without (ioSourceId : Uuid) (sourceIds : Option (List Uuid)) : Option (List Uuid) :=
  sourceIds.bind fun sourceIds =>
    if (sourceIds.erase ioSourceId).length = 0 then none else some (sourceIds.erase ioSourceId)

/-- The routes to unsubscribe are those without an actor. -/
def Emptied (state : IoActorItems × List IoRoute) : Prop :=
  ∀ route, route ∈ state.2 ↔ ∃ items, state.1.get route = some items ∧ items.size = 0

/-- What handling one route does, as long as it is not among those to unsubscribe. -/
structure Handled (ioSourceId ioActorId : Uuid) (newIoRoute : Option IoRoute) (routes : List IoRoute)
    (state state' : IoActorItems × List IoRoute) : Prop where
  emptied : Emptied state'
  unsubscribed : ∀ route ∈ state'.2, route ∈ state.2 ∨ route ∈ routes
  keys : ∀ route, (state'.1.get route).isSome = (state.1.get route).isSome
  getAt : ∀ route actorId, state'.1.getAt route actorId =
    if actorId = ioActorId ∧ route ∈ routes ∧ newIoRoute ≠ some route then without ioSourceId (state.1.getAt route actorId)
    else state.1.getAt route actorId

def withoutSource (ioSourceId ioActorId : Uuid) (items : Map Uuid (List Uuid)) (sourceIds : List Uuid) :
    Map Uuid (List Uuid) :=
  if (sourceIds.erase ioSourceId).length = 0 then items.delete ioActorId
  else items.set ioActorId (sourceIds.erase ioSourceId)

theorem get_withoutSource {ioSourceId ioActorId : Uuid} {items : Map Uuid (List Uuid)} {sourceIds : List Uuid}
    (h : items.get ioActorId = some sourceIds) (actorId : Uuid) :
    (withoutSource ioSourceId ioActorId items sourceIds).get actorId
      = if actorId = ioActorId then without ioSourceId (items.get actorId) else items.get actorId := by
  rw [withoutSource]
  by_cases hactor : actorId = ioActorId
  · rw [if_pos hactor, hactor, h, without, Option.bind_some]
    split
    · rw [Map.get_delete, if_pos rfl]
    · rw [Map.get_set, if_pos rfl]
  · rw [if_neg hactor]
    split
    · rw [Map.get_delete, if_neg hactor]
    · rw [Map.get_set, if_neg hactor]

theorem disassociateOnRoute_same {ioSourceId ioActorId : Uuid} {newIoRoute : Option IoRoute} {items : IoActorItems}
    {routes : List IoRoute} {route : IoRoute} (h : newIoRoute ≠ some route → items.getAt route ioActorId = none) :
    disassociateOnRoute ioSourceId ioActorId newIoRoute (items, routes) route = (items, routes) := by
  rw [disassociateOnRoute]
  by_cases hnew : newIoRoute = some route
  · exact if_pos hnew
  · have hnone := h hnew
    rw [Map.getAt] at hnone
    dsimp only
    rw [if_neg hnew]
    cases hitems : items.get route with
    | none => rfl
    | some inner =>
      rw [hitems, Option.bind_some] at hnone
      simp only [hnone]

theorem disassociateOnRoute_listed {ioSourceId ioActorId : Uuid} {newIoRoute : Option IoRoute} {items : IoActorItems}
    {routes : List IoRoute} {route : IoRoute} {inner : Map Uuid (List Uuid)} {sourceIds : List Uuid}
    (hnew : newIoRoute ≠ some route) (hitems : items.get route = some inner)
    (hsourceIds : inner.get ioActorId = some sourceIds) :
    disassociateOnRoute ioSourceId ioActorId newIoRoute (items, routes) route
      = (items.set route (withoutSource ioSourceId ioActorId inner sourceIds),
        if (withoutSource ioSourceId ioActorId inner sourceIds).size = 0 then routes ++ [route] else routes) := by
  simp only [disassociateOnRoute, if_neg hnew, hitems, hsourceIds, withoutSource]
  rfl

theorem handled_disassociateOnRoute (ioSourceId ioActorId : Uuid) (newIoRoute : Option IoRoute)
    {state : IoActorItems × List IoRoute} (hemptied : Emptied state) {route : IoRoute} (hroute : route ∉ state.2) :
    Handled ioSourceId ioActorId newIoRoute [route] state
      (disassociateOnRoute ioSourceId ioActorId newIoRoute state route) := by
  obtain ⟨items, routes⟩ := state
  by_cases hsame : newIoRoute ≠ some route → items.getAt route ioActorId = none
  · rw [disassociateOnRoute_same hsame]
    refine ⟨hemptied, fun _ h => Or.inl h, fun _ => rfl, fun route' actorId => ?_⟩
    split
    · rename_i hcase
      obtain ⟨hactor, hroute', hnew⟩ := hcase
      cases List.mem_singleton.mp hroute'
      rw [hactor, hsame hnew]
      rfl
    · rfl
  · obtain ⟨hnew, hlisted⟩ := Classical.not_imp.mp hsame
    obtain ⟨sourceIds, hgetAt⟩ := Option.ne_none_iff_exists'.mp hlisted
    obtain ⟨inner, hitems, hsourceIds⟩ := Option.bind_eq_some_iff.mp hgetAt
    rw [disassociateOnRoute_listed hnew hitems hsourceIds]
    set inner' := withoutSource ioSourceId ioActorId inner sourceIds with hinner'
    have hget : ∀ route', (items.set route inner').get route' = if route' = route then some inner' else items.get route' :=
      fun route' => Map.get_set items route route' inner'
    refine ⟨?_, ?_, ?_, ?_⟩
    · intro route'
      dsimp only
      rw [hget]
      by_cases hsame : route' = route
      · subst hsame
        rw [if_pos rfl]
        by_cases hsize : inner'.size = 0
        · rw [if_pos hsize]
          exact ⟨fun _ => ⟨inner', rfl, hsize⟩, fun _ => List.mem_append_right _ (List.mem_singleton_self _)⟩
        · rw [if_neg hsize]
          constructor
          · intro hmem
            exact absurd hmem hroute
          · rintro ⟨other, hother, hsize'⟩
            cases hother
            exact absurd hsize' hsize
      · rw [if_neg hsame, ← hemptied route']
        split
        · rw [List.mem_append, List.mem_singleton]
          exact or_iff_left hsame
        · exact Iff.rfl
    · intro route' hroute'
      dsimp only at hroute'
      split at hroute'
      · exact List.mem_append.mp hroute'
      · exact Or.inl hroute'
    · intro route'
      dsimp only
      rw [hget]
      split
      · rename_i hsame
        rw [hsame, hitems]
        rfl
      · rfl
    · intro route' actorId
      dsimp only
      rw [Map.getAt, hget]
      by_cases hsame : route' = route
      · subst hsame
        rw [if_pos rfl, Option.bind_some, get_withoutSource hsourceIds, Map.getAt_of_get hitems]
        by_cases hactor : actorId = ioActorId
        · rw [if_pos hactor, if_pos ⟨hactor, List.mem_singleton_self _, hnew⟩]
        · rw [if_neg hactor, if_neg fun h => hactor h.1]
      · rw [if_neg hsame, if_neg fun h => hsame (List.mem_singleton.mp h.2.1)]
        rfl

theorem handled_foldl (ioSourceId ioActorId : Uuid) (newIoRoute : Option IoRoute) {routes : List IoRoute}
    (hnodup : routes.Nodup) {state : IoActorItems × List IoRoute} (hemptied : Emptied state)
    (hroutes : ∀ route ∈ routes, route ∉ state.2) :
    Handled ioSourceId ioActorId newIoRoute routes state
      (routes.foldl (disassociateOnRoute ioSourceId ioActorId newIoRoute) state) := by
  induction routes generalizing state with
  | nil =>
    refine ⟨hemptied, fun _ h => Or.inl h, fun _ => rfl, fun route actorId => ?_⟩
    rw [if_neg fun h => List.not_mem_nil h.2.1]
    rfl
  | cons route routes ih =>
    obtain ⟨hfresh, hrest⟩ := List.nodup_cons.mp hnodup
    have hfirst := handled_disassociateOnRoute ioSourceId ioActorId newIoRoute hemptied
      (hroutes route List.mem_cons_self)
    have hothers : ∀ other ∈ routes,
        other ∉ (disassociateOnRoute ioSourceId ioActorId newIoRoute state route).2 := by
      intro other hother hmem
      rcases hfirst.unsubscribed other hmem with hold | hnew
      · exact hroutes other (List.mem_cons_of_mem _ hother) hold
      · exact hfresh (List.mem_singleton.mp hnew ▸ hother)
    have hlater := ih hrest hfirst.emptied hothers
    rw [List.foldl_cons]
    refine ⟨hlater.emptied, ?_, fun route' => (hlater.keys route').trans (hfirst.keys route'), ?_⟩
    · intro route' hroute'
      rcases hlater.unsubscribed route' hroute' with hmem | hmem
      · rcases hfirst.unsubscribed route' hmem with hold | hnew
        · exact Or.inl hold
        · exact Or.inr (List.mem_singleton.mp hnew ▸ List.mem_cons_self)
      · exact Or.inr (List.mem_cons_of_mem _ hmem)
    · intro route' actorId
      rw [hlater.getAt, hfirst.getAt]
      simp only [List.mem_cons]
      by_cases hsame : route' = route
      · simp [hsame, hfresh]
      · simp [hsame]

/-! ### The invariant -/

/-- What the listed actors and the subscribed routes of an agent always satisfy. -/
structure ActorsConsistent (m : CommunicationManager Props Rate) : Prop where
  actors_nonempty : ∀ route items, m.ioActorItems.get route = some items → items.size ≠ 0
  sources_nonempty : ∀ route actorId sourceIds, m.ioActorItems.getAt route actorId = some sourceIds → sourceIds ≠ []
  sources_nodup : ∀ route actorId sourceIds, m.ioActorItems.getAt route actorId = some sourceIds → sourceIds.Nodup
  one_route : ∀ route route' actorId sourceIds sourceIds' sourceId,
    m.ioActorItems.getAt route actorId = some sourceIds → m.ioActorItems.getAt route' actorId = some sourceIds' →
    sourceId ∈ sourceIds → sourceId ∈ sourceIds' → route = route'
  subscribed : ∀ filter, filter ∈ m.subscribedIoRoutes ↔ ∃ route ∈ m.ioActorItems.keys, route.val = filter

/-- The maps of an agent have no empty and no repeated entries, a source is listed for an actor on one route only, and the subscribed routes are those of the actors. -/
structure Consistent (m : CommunicationManager Props Rate) : Prop where
  actorIds_nonempty : ∀ sourceId items, m.ioSourceItems.get sourceId = some items → items.actorIds ≠ []
  actorIds_nodup : ∀ sourceId items, m.ioSourceItems.get sourceId = some items → items.actorIds.Nodup
  actors : ActorsConsistent m

theorem without_eq_some {ioSourceId : Uuid} {before : Option (List Uuid)} {after : List Uuid}
    (h : without ioSourceId before = some after) :
    ∃ sourceIds, before = some sourceIds ∧ after = sourceIds.erase ioSourceId ∧ after ≠ [] := by
  obtain ⟨sourceIds, hbefore, hafter⟩ := Option.bind_eq_some_iff.mp h
  split at hafter
  · cases hafter
  · rename_i hlength
    cases hafter
    exact ⟨sourceIds, hbefore, rfl, fun hnil => hlength (List.length_eq_zero_iff.mpr hnil)⟩

theorem foldl_giveUpRoute (routes : List IoRoute) (m : CommunicationManager Props Rate) :
    { m with
      ioActorItems := (routes.foldl giveUpRoute m).ioActorItems
      bindingCalls := (routes.foldl giveUpRoute m).bindingCalls } = routes.foldl giveUpRoute m ∧
      (∀ route, (routes.foldl giveUpRoute m).ioActorItems.get route
        = if route ∈ routes then none else m.ioActorItems.get route) ∧
      ∀ filter, filter ∈ (routes.foldl giveUpRoute m).subscribedIoRoutes ↔
        filter ∈ m.subscribedIoRoutes ∧ ∀ route ∈ routes, filter ≠ route.val := by
  induction routes generalizing m with
  | nil =>
    refine ⟨rfl, fun route => ?_, fun filter => ?_⟩
    · rw [if_neg List.not_mem_nil]
      rfl
    · simp
  | cons route routes ih =>
    obtain ⟨hframe, hget, hsubscribed⟩ := ih (m.giveUpRoute route)
    rw [List.foldl_cons]
    refine ⟨?_, fun route' => ?_, fun filter => ?_⟩
    · rw [← hframe]
      rfl
    · rw [hget]
      show (if route' ∈ routes then none else (m.ioActorItems.delete route).get route') = _
      rw [Map.get_delete]
      simp only [List.mem_cons]
      by_cases hsame : route' = route
      · simp [hsame]
      · simp [hsame]
    · rw [hsubscribed, giveUpRoute, mem_subscribedIoRoutes_unsubscribe, List.forall_mem_cons, and_assoc]
      exact Iff.rfl

structure Disassociated (ioSourceId : Uuid) (selected : IoRoute → Uuid → Prop) (m m' : CommunicationManager Props Rate) :
    Prop where
  frame : { m with ioActorItems := m'.ioActorItems, bindingCalls := m'.bindingCalls } = m'
  consistent : ActorsConsistent m'
  getAt_selected : ∀ route actorId, selected route actorId →
    m'.ioActorItems.getAt route actorId = without ioSourceId (m.ioActorItems.getAt route actorId)
  getAt_other : ∀ route actorId, ¬ selected route actorId →
    m'.ioActorItems.getAt route actorId = m.ioActorItems.getAt route actorId

theorem exists_routes_disassociateIoActorItems (m : CommunicationManager Props Rate) (ioSourceId ioActorId : Uuid)
    (currentIoRoute newIoRoute : Option IoRoute) :
    ∃ routes : List IoRoute, routes.Nodup ∧
      (∀ route actorId, m.ioActorItems.getAt route actorId ≠ none →
        (route ∈ routes ↔ ∀ current, currentIoRoute = some current → route = current)) ∧
      m.disassociateIoActorItems ioSourceId ioActorId currentIoRoute newIoRoute
        = let state := routes.foldl (disassociateOnRoute ioSourceId ioActorId newIoRoute) (m.ioActorItems, [])
          state.2.foldl giveUpRoute { m with ioActorItems := state.1 } := by
  cases currentIoRoute with
  | none =>
    refine ⟨m.ioActorItems.keys, m.ioActorItems.keys_nodup, fun route actorId hlisted => ?_, rfl⟩
    have hkey : route ∈ m.ioActorItems.keys := by
      by_contra hkey
      exact hlisted (Map.getAt_of_get_none (Map.not_mem_keys.mp hkey) actorId)
    exact ⟨fun _ _ h => absurd h.symm (Option.some_ne_none _), fun _ => hkey⟩
  | some current =>
    refine ⟨[current], List.nodup_singleton current, fun route actorId _ => ?_, rfl⟩
    rw [List.mem_singleton]
    exact ⟨fun h _ heq => h.trans (Option.some.inj heq), fun h => h current rfl⟩

theorem disassociated_disassociateIoActorItems (hm : ActorsConsistent m) (ioSourceId ioActorId : Uuid)
    (currentIoRoute newIoRoute : Option IoRoute) :
    Disassociated ioSourceId
      (fun route actorId => actorId = ioActorId ∧ (∀ current, currentIoRoute = some current → route = current) ∧
        newIoRoute ≠ some route)
      m (m.disassociateIoActorItems ioSourceId ioActorId currentIoRoute newIoRoute) := by
  obtain ⟨routes, hnodup, hselected, hm'⟩ :=
    m.exists_routes_disassociateIoActorItems ioSourceId ioActorId currentIoRoute newIoRoute
  have hemptied : Emptied (m.ioActorItems, []) := by
    intro route
    constructor
    · intro hmem
      cases hmem
    · rintro ⟨items, hitems, hsize⟩
      exact absurd hsize (hm.actors_nonempty route items hitems)
  have hhandled := handled_foldl ioSourceId ioActorId newIoRoute hnodup hemptied fun _ _ => List.not_mem_nil
  rw [hm']
  set state := routes.foldl (disassociateOnRoute ioSourceId ioActorId newIoRoute) (m.ioActorItems, [])
  obtain ⟨hframe, hget, hsubscribed⟩ := foldl_giveUpRoute state.2 { m with ioActorItems := state.1 }
  set m' := state.2.foldl giveUpRoute { m with ioActorItems := state.1 }
  -- A route that is given up has no actor any more.
  have hgetAt : ∀ route actorId, m'.ioActorItems.getAt route actorId = state.1.getAt route actorId := by
    intro route actorId
    rw [Map.getAt, hget]
    split
    · rename_i hmem
      obtain ⟨items, hitems, hsize⟩ := (hhandled.emptied route).mp hmem
      rw [Map.getAt_of_get hitems, Map.size_eq_zero.mp hsize]
      rfl
    · rfl
  have hcases : ∀ route actorId sourceIds, m'.ioActorItems.getAt route actorId = some sourceIds →
      ∃ before, m.ioActorItems.getAt route actorId = some before ∧ sourceIds ≠ [] ∧ List.Sublist sourceIds before := by
    intro route actorId sourceIds h
    rw [hgetAt, hhandled.getAt] at h
    split at h
    · obtain ⟨before, hbefore, heq, hne⟩ := without_eq_some h
      exact ⟨before, hbefore, hne, heq ▸ List.erase_sublist⟩
    · exact ⟨sourceIds, h, hm.sources_nonempty route actorId sourceIds h, List.Sublist.refl _⟩
  refine ⟨?_, ⟨?_, ?_, ?_, ?_, ?_⟩, ?_, ?_⟩
  · rw [← hframe]
  · intro route items hitems hsize
    rw [hget] at hitems
    split at hitems
    · cases hitems
    · rename_i hmem
      exact hmem ((hhandled.emptied route).mpr ⟨items, hitems, hsize⟩)
  · intro route actorId sourceIds h
    obtain ⟨_, _, hne, _⟩ := hcases route actorId sourceIds h
    exact hne
  · intro route actorId sourceIds h
    obtain ⟨before, hbefore, _, hsub⟩ := hcases route actorId sourceIds h
    exact (hm.sources_nodup route actorId before hbefore).sublist hsub
  · intro route route' actorId sourceIds sourceIds' sourceId h h' hmem hmem'
    obtain ⟨before, hbefore, _, hsub⟩ := hcases route actorId sourceIds h
    obtain ⟨before', hbefore', _, hsub'⟩ := hcases route' actorId sourceIds' h'
    exact hm.one_route route route' actorId before before' sourceId hbefore hbefore' (hsub.subset hmem)
      (hsub'.subset hmem')
  · intro filter
    have hkeys : ∀ route, route ∈ m'.ioActorItems.keys ↔ route ∈ m.ioActorItems.keys ∧ route ∉ state.2 := by
      intro route
      rw [Map.mem_keys, Map.mem_keys, ← Option.isSome_iff_exists, ← Option.isSome_iff_exists, hget,
        ← hhandled.keys route]
      split
      · rename_i hmem
        simp [hmem]
      · rename_i hmem
        simp [hmem]
    rw [hsubscribed]
    show filter ∈ m.subscribedIoRoutes ∧ _ ↔ _
    rw [hm.subscribed]
    simp only [hkeys]
    constructor
    · rintro ⟨⟨route, hkey, hval⟩, hother⟩
      exact ⟨route, ⟨hkey, fun hmem => hother route hmem hval.symm⟩, hval⟩
    · rintro ⟨route, ⟨hkey, hmem⟩, hval⟩
      refine ⟨⟨route, hkey, hval⟩, fun route' hmem' heq => ?_⟩
      exact hmem (Subtype.ext (hval.trans heq) ▸ hmem')
  · rintro route actorId ⟨hactor, hcurrent, hnew⟩
    rw [hgetAt, hhandled.getAt]
    cases hlisted : m.ioActorItems.getAt route actorId with
    | none => exact ite_self _
    | some sourceIds =>
      have hroute : route ∈ routes := (hselected route actorId (by simp [hlisted])).mpr hcurrent
      exact if_pos ⟨hactor, hroute, hnew⟩
  · intro route actorId hother
    rw [hgetAt, hhandled.getAt]
    cases hlisted : m.ioActorItems.getAt route actorId with
    | none => exact ite_self _
    | some sourceIds =>
      apply if_neg
      rintro ⟨hactor, hroute, hnew⟩
      exact hother ⟨hactor, (hselected route actorId (by simp [hlisted])).mp hroute, hnew⟩

theorem disassociated_foldl (ioSourceId : Uuid) (previousRoute : IoRoute) {actorIds : List Uuid}
    (hnodup : actorIds.Nodup) {m : CommunicationManager Props Rate} (hm : ActorsConsistent m) :
    Disassociated ioSourceId (fun route actorId => actorId ∈ actorIds ∧ route = previousRoute) m
      (actorIds.foldl (fun m actorId => m.disassociateIoActorItems ioSourceId actorId (some previousRoute) none) m) := by
  induction actorIds generalizing m with
  | nil => exact ⟨rfl, hm, fun _ _ h => absurd h.1 List.not_mem_nil, fun _ _ _ => rfl⟩
  | cons actorId actorIds ih =>
    obtain ⟨hfresh, hrest⟩ := List.nodup_cons.mp hnodup
    have hfirst := disassociated_disassociateIoActorItems hm ioSourceId actorId (some previousRoute) none
    have hlater := ih hrest hfirst.consistent
    have hselected : ∀ route other, (other = actorId ∧ (∀ current, some previousRoute = some current → route = current) ∧
        none ≠ some route) ↔ other = actorId ∧ route = previousRoute := by
      intro route other
      simp
    rw [List.foldl_cons]
    refine ⟨?_, hlater.consistent, ?_, ?_⟩
    · rw [← hlater.frame, ← hfirst.frame]
    · intro route other ⟨hmem, hroute⟩
      rcases List.mem_cons.mp hmem with heq | hmem
      · rw [hlater.getAt_other route other fun h => hfresh (heq ▸ h.1),
          hfirst.getAt_selected route other ((hselected route other).mpr ⟨heq, hroute⟩)]
      · rw [hlater.getAt_selected route other ⟨hmem, hroute⟩,
          hfirst.getAt_other route other fun h => hfresh (((hselected route other).mp h).1 ▸ hmem)]
    · intro route other hother
      rw [hlater.getAt_other route other fun h => hother ⟨List.mem_cons_of_mem _ h.1, h.2⟩,
        hfirst.getAt_other route other fun h =>
          hother ⟨((hselected route other).mp h).1 ▸ List.mem_cons_self, ((hselected route other).mp h).2⟩]

/-! ### Associating -/

theorem ActorsConsistent.setAt (hm : ActorsConsistent m) {m' : CommunicationManager Props Rate} {ioRoute : IoRoute}
    {ioActorId : Uuid} {sourceIds : List Uuid}
    (hitems : m'.ioActorItems = m.ioActorItems.setAt ioRoute ioActorId sourceIds)
    (hsubscribed : ∀ filter, filter ∈ m'.subscribedIoRoutes ↔ filter ∈ m.subscribedIoRoutes ∨ filter = ioRoute.val)
    (hnonempty : sourceIds ≠ []) (hnodup : sourceIds.Nodup)
    (hother : ∀ route others sourceId, route ≠ ioRoute → m.ioActorItems.getAt route ioActorId = some others →
      sourceId ∈ sourceIds → sourceId ∉ others) : ActorsConsistent m' := by
  have hgetAt : ∀ route actorId, m'.ioActorItems.getAt route actorId
      = if route = ioRoute ∧ actorId = ioActorId then some sourceIds else m.ioActorItems.getAt route actorId := by
    intro route actorId
    rw [hitems, Map.getAt_setAt]
  have hget : ∀ route, m'.ioActorItems.get route = if route = ioRoute
      then some ((m.ioActorItems.inner ioRoute).set ioActorId sourceIds) else m.ioActorItems.get route := by
    intro route
    rw [hitems, Map.setAt, Map.get_set]
  refine ⟨?_, ?_, ?_, ?_, ?_⟩
  · intro route items h
    rw [hget] at h
    split at h
    · cases h
      intro hsize
      have hnone := Map.size_eq_zero.mp hsize ioActorId
      rw [Map.get_set, if_pos rfl] at hnone
      cases hnone
    · exact hm.actors_nonempty route items h
  · intro route actorId others h
    rw [hgetAt] at h
    split at h
    · cases h
      exact hnonempty
    · exact hm.sources_nonempty route actorId others h
  · intro route actorId others h
    rw [hgetAt] at h
    split at h
    · cases h
      exact hnodup
    · exact hm.sources_nodup route actorId others h
  · intro route route' actorId others others' sourceId h h' hmem hmem'
    rw [hgetAt] at h h'
    split at h
    · rename_i hnew
      obtain ⟨hroute, hactor⟩ := hnew
      cases h
      subst hroute hactor
      split at h'
      · rename_i hnew'
        exact hnew'.1.symm
      · rename_i hold
        by_contra hne
        exact hother route' others' sourceId (Ne.symm hne) h' hmem hmem'
    · split at h'
      · rename_i hold hnew
        obtain ⟨hroute, hactor⟩ := hnew
        cases h'
        subst hroute hactor
        by_contra hne
        exact hother route others sourceId hne h hmem' hmem
      · exact hm.one_route route route' actorId others others' sourceId h h' hmem hmem'
  · intro filter
    rw [hsubscribed, hm.subscribed]
    have hkeys : ∀ route, route ∈ m'.ioActorItems.keys ↔ route = ioRoute ∨ route ∈ m.ioActorItems.keys := by
      intro route
      rw [Map.mem_keys, Map.mem_keys, hget]
      by_cases hroute : route = ioRoute
      · simp [hroute]
      · simp [hroute]
    simp only [hkeys, or_and_right, exists_or, exists_eq_left]
    rw [or_comm, eq_comm]

structure Associated (ioSourceId ioActorId : Uuid) (ioRoute : IoRoute) (m m' : CommunicationManager Props Rate) :
    Prop where
  frame : { m with ioActorItems := m'.ioActorItems, bindingCalls := m'.bindingCalls } = m'
  consistent : ActorsConsistent m'
  listed : ∃ sourceIds, m'.ioActorItems.getAt ioRoute ioActorId = some sourceIds ∧ ioSourceId ∈ sourceIds
  getAt_other : ∀ route actorId, actorId ≠ ioActorId →
    m'.ioActorItems.getAt route actorId = m.ioActorItems.getAt route actorId

theorem associated_associateIoActorItems (hm : ActorsConsistent m) (ioSourceId : Uuid) (ioActor : IoActor Props Rate)
    (ioRoute : IoRoute) (isExternalRoute : Option Bool) :
    Associated ioSourceId ioActor.objectId ioRoute m
      (m.associateIoActorItems ioSourceId ioActor ioRoute isExternalRoute) := by
  have hdisassociated := disassociated_disassociateIoActorItems hm ioSourceId ioActor.objectId none (some ioRoute)
  rw [associateIoActorItems]
  set m₁ := m.disassociateIoActorItems ioSourceId ioActor.objectId none (some ioRoute)
  have hm₁ := hdisassociated.consistent
  -- The source is not listed for the actor on any other route.
  have hunlisted : ∀ route others, route ≠ ioRoute → m₁.ioActorItems.getAt route ioActor.objectId = some others →
      ioSourceId ∉ others := by
    intro route others hroute hothers
    have hany : ∀ current, none = some current → route = current := by
      intro current hcurrent
      cases hcurrent
    rw [hdisassociated.getAt_selected route ioActor.objectId
      ⟨rfl, hany, fun h => hroute (Option.some.inj h).symm⟩] at hothers
    obtain ⟨before, hbefore, heq, _⟩ := without_eq_some hothers
    rw [heq]
    exact (hm.sources_nodup route ioActor.objectId before hbefore).not_mem_erase
  have hother : ∀ route actorId, actorId ≠ ioActor.objectId →
      m₁.ioActorItems.getAt route actorId = m.ioActorItems.getAt route actorId :=
    fun route actorId hactor => hdisassociated.getAt_other route actorId fun h => hactor h.1
  have hlist : ∀ {m' : CommunicationManager Props Rate} {sourceIds : List Uuid},
      { m₁ with ioActorItems := m'.ioActorItems, bindingCalls := m'.bindingCalls } = m' →
      m'.ioActorItems = m₁.ioActorItems.setAt ioRoute ioActor.objectId (sourceIds ++ [ioSourceId]) →
      (∀ filter, filter ∈ m'.subscribedIoRoutes ↔ filter ∈ m₁.subscribedIoRoutes ∨ filter = ioRoute.val) →
      (∀ sourceId ∈ sourceIds, ∃ listed, m₁.ioActorItems.getAt ioRoute ioActor.objectId = some listed ∧
        sourceId ∈ listed) → (sourceIds ++ [ioSourceId]).Nodup →
      Associated ioSourceId ioActor.objectId ioRoute m m' := by
    intro m' sourceIds hframe hitems hsubscribed hlisted hnodup
    refine ⟨?_, hm₁.setAt hitems hsubscribed (by simp) hnodup ?_, ⟨sourceIds ++ [ioSourceId], ?_, by simp⟩, ?_⟩
    · rw [← hframe, ← hdisassociated.frame]
    · intro route others sourceId hroute hothers hmem
      rcases List.mem_append.mp hmem with hmem | hmem
      · obtain ⟨listed, hgetAt, hsource⟩ := hlisted sourceId hmem
        intro hmem'
        exact hroute (hm₁.one_route route ioRoute _ others listed sourceId hothers hgetAt hmem' hsource)
      · rw [List.mem_singleton.mp hmem]
        exact hunlisted route others hroute hothers
    · rw [hitems, Map.getAt_setAt, if_pos ⟨rfl, rfl⟩]
    · intro route actorId hactor
      rw [hitems, Map.getAt_setAt, if_neg fun h => hactor h.2, hother route actorId hactor]
  -- With an actor on it, the route is subscribed already.
  have hkey : ∀ items, m₁.ioActorItems.get ioRoute = some items → ∀ filter,
      filter ∈ m₁.subscribedIoRoutes ↔ filter ∈ m₁.subscribedIoRoutes ∨ filter = ioRoute.val := by
    intro items hitems filter
    refine ⟨Or.inl, fun h => h.elim (fun h => h) fun heq => ?_⟩
    rw [heq, hm₁.subscribed]
    exact ⟨ioRoute, Map.mem_keys.mpr ⟨items, hitems⟩, rfl⟩
  have hsetAt : ∀ items sourceIds, m₁.ioActorItems.get ioRoute = some items →
      m₁.ioActorItems.set ioRoute (items.set ioActor.objectId sourceIds)
        = m₁.ioActorItems.setAt ioRoute ioActor.objectId sourceIds := by
    intro items sourceIds hitems
    rw [Map.setAt, Map.inner, hitems]
    rfl
  cases hitems : m₁.ioActorItems.get ioRoute with
  | none =>
    refine @hlist _ [] rfl ?_ ?_ (fun _ h => absurd h List.not_mem_nil) (List.nodup_singleton _)
    · rw [Map.setAt, Map.inner, hitems]
      rfl
    · intro filter
      exact mem_subscribedIoRoutes_subscribe
  | some items =>
    dsimp only
    cases hsourceIds : items.get ioActor.objectId with
    | none =>
      refine @hlist _ [] rfl ?_ (hkey items hitems) (fun _ h => absurd h List.not_mem_nil) (List.nodup_singleton _)
      exact hsetAt items [ioSourceId] hitems
    | some sourceIds =>
      have hgetAt : m₁.ioActorItems.getAt ioRoute ioActor.objectId = some sourceIds :=
        (Map.getAt_of_get hitems _).trans hsourceIds
      dsimp only
      split
      · rename_i hmem
        exact ⟨hdisassociated.frame, hm₁, ⟨sourceIds, hgetAt, hmem⟩, hother⟩
      · rename_i hmem
        refine hlist rfl (hsetAt items _ hitems) (hkey items hitems) (fun sourceId h => ⟨sourceIds, hgetAt, h⟩) ?_
        rw [List.nodup_append]
        refine ⟨hm₁.sources_nodup ioRoute _ sourceIds hgetAt, List.nodup_singleton _, ?_⟩
        intro sourceId hsource other hother heq
        rw [List.mem_singleton.mp hother] at heq
        exact hmem (heq ▸ hsource)

end CommunicationManager

end Coaty
