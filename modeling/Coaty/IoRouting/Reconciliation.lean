import Coaty.IoRouting.Evaluation

/-!
# Acting on the differences

`_act` walks the current associations and gives up every resolved pair it meets, so that the pairs left over are the new ones. As long as no two current associations are for the same pair, this is a comparison of the current associations with the table as a whole: what it publishes and what it remembers are functions of both.
-/

namespace Coaty

open Js Order CommunicationEvent

variable {Props Rate : Type}

namespace RuleBasedIoRouter

/-- What is to be done for a pair. -/
inductive Change (Props Rate : Type) where
  | associate (info : IoAssociation Props Rate)
  | disassociate (current : IoAssociation Props Rate)

def perform (r : RuleBasedIoRouter Props Rate) : Change Props Rate → RuleBasedIoRouter Props Rate
  | .associate info => r.associate info.source info.actor info.updateRate
  | .disassociate current => r.disassociate current.source current.actor

/-! ### Performing the changes -/

/-- The event that is published for a change, with the route that its source has in the end. -/
def eventFor (r : RuleBasedIoRouter Props Rate) : Change Props Rate → AssociateEvent Rate
  | .associate info => {
      ioContextName := r.ioContext.name
      data := {
        ioSourceId := info.source.objectId
        ioActorId := info.actor.objectId
        associatingRoute := (r.sourceRoutes.get info.source.objectId).map Prod.fst
        isExternalRoute := (r.sourceRoutes.get info.source.objectId).map Prod.snd
        updateRate := info.updateRate } }
  | .disassociate current => {
      ioContextName := r.ioContext.name
      data := {
        ioSourceId := current.source.objectId
        ioActorId := current.actor.objectId
        associatingRoute := none
        isExternalRoute := none
        updateRate := none } }

/-- What performing the changes does: routes are only added, and every change is published. -/
structure Performed (r : RuleBasedIoRouter Props Rate) (changes : List (Change Props Rate))
    (r' : RuleBasedIoRouter Props Rate) : Prop where
  frame : { r with sourceRoutes := r'.sourceRoutes, published := r'.published } = r'
  routes_kept : ∀ id route, r.sourceRoutes.get id = some route → r'.sourceRoutes.get id = some route
  routed : ∀ info, .associate info ∈ changes → ∃ route, r'.sourceRoutes.get info.source.objectId = some route
  published : isValidEventFilter r.ioContext.name = true →
    r'.published = r.published ++ changes.map r'.eventFor

theorem Performed.ioContext {r r' : RuleBasedIoRouter Props Rate} {changes : List (Change Props Rate)}
    (h : Performed r changes r') : r'.ioContext = r.ioContext := by
  rw [← h.frame]

theorem eventFor_congr {r r' : RuleBasedIoRouter Props Rate} (hcontext : r'.ioContext = r.ioContext)
    {change : Change Props Rate}
    (hroute : ∀ info, change = .associate info →
      r'.sourceRoutes.get info.source.objectId = r.sourceRoutes.get info.source.objectId) :
    r'.eventFor change = r.eventFor change := by
  cases change with
  | associate info => rw [eventFor, eventFor, hcontext, hroute info rfl]
  | disassociate current => rw [eventFor, eventFor, hcontext]

theorem performed_perform (r : RuleBasedIoRouter Props Rate) (change : Change Props Rate) :
    Performed r [change] (r.perform change) := by
  cases change with
  | associate info =>
    rw [perform, associate, ensureRoute]
    cases hroute : r.sourceRoutes.get info.source.objectId with
    | some route =>
      refine ⟨?_, ?_, ?_, ?_⟩
      · dsimp only [publishAssociate]
        split <;> rfl
      · intro id route' hid
        dsimp only [publishAssociate]
        split <;> exact hid
      · intro info' hinfo
        cases List.mem_singleton.mp hinfo
        dsimp only [publishAssociate]
        split <;> exact ⟨route, hroute⟩
      · intro hvalid
        dsimp only [publishAssociate]
        rw [if_pos hvalid, List.map_singleton, eventFor, hroute]
        rfl
    | none =>
      set route := r.createAssociatingRoute info.source
      have hset : ∀ id, (r.sourceRoutes.set info.source.objectId route).get id
          = if id = info.source.objectId then some route else r.sourceRoutes.get id :=
        fun id => Map.get_set _ _ _ _
      refine ⟨?_, ?_, ?_, ?_⟩
      · dsimp only [publishAssociate]
        split <;> rfl
      · intro id route' hid
        have hkept : (r.sourceRoutes.set info.source.objectId route).get id = some route' := by
          rw [hset, if_neg, hid]
          intro heq
          rw [heq, hroute] at hid
          cases hid
        dsimp only [publishAssociate]
        split <;> exact hkept
      · intro info' hinfo
        cases List.mem_singleton.mp hinfo
        have hnew : (r.sourceRoutes.set info.source.objectId route).get info.source.objectId = some route := by
          rw [hset, if_pos rfl]
        dsimp only [publishAssociate]
        split <;> exact ⟨route, hnew⟩
      · intro hvalid
        dsimp only [publishAssociate]
        rw [if_pos hvalid, List.map_singleton, eventFor]
        dsimp only
        rw [hset, if_pos rfl]
        rfl
  | disassociate current =>
    rw [perform, disassociate]
    refine ⟨?_, ?_, ?_, ?_⟩
    · rw [publishAssociate]
      split <;> rfl
    · intro id route hid
      rw [publishAssociate]
      split <;> exact hid
    · intro info hinfo
      cases List.mem_singleton.mp hinfo
    · intro hvalid
      rw [publishAssociate, if_pos hvalid, List.map_singleton]
      rfl

theorem performed_foldl (r : RuleBasedIoRouter Props Rate) (changes : List (Change Props Rate)) :
    Performed r changes (changes.foldl perform r) := by
  induction changes generalizing r with
  | nil => exact ⟨rfl, fun _ _ h => h, nofun, fun _ => (List.append_nil _).symm⟩
  | cons change changes ih =>
    have hfirst := performed_perform r change
    have hrest := ih (r.perform change)
    rw [List.foldl_cons]
    set r₁ := r.perform change
    set r' := changes.foldl perform r₁
    refine ⟨?_, ?_, ?_, ?_⟩
    · rw [← hrest.frame, ← hfirst.frame]
    · intro id route hid
      exact hrest.routes_kept id route (hfirst.routes_kept id route hid)
    · intro info hinfo
      rcases List.mem_cons.mp hinfo with heq | hmem
      · obtain ⟨route, hroute⟩ := hfirst.routed info (List.mem_singleton.mpr heq)
        exact ⟨route, hrest.routes_kept _ _ hroute⟩
      · exact hrest.routed info hmem
    · intro hvalid
      have hevent : r'.eventFor change = r₁.eventFor change := by
        apply eventFor_congr hrest.ioContext
        intro info heq
        obtain ⟨route, hroute⟩ := hfirst.routed info (List.mem_singleton.mpr heq.symm)
        rw [hroute]
        exact hrest.routes_kept _ _ hroute
      rw [hrest.published (hfirst.ioContext ▸ hvalid), hfirst.published hvalid, List.map_singleton, ← hevent,
        List.append_assoc, List.singleton_append, List.map_cons]

/-! ### The loop over the current associations -/

variable [LinearOrder Rate]

/-- The resolved pair that a current association is compared with. -/
def resolvedFor (t : IoAssociationPairs Props Rate) (current : IoAssociation Props Rate) :
    Option (IoAssociation Props Rate) := t.getAt current.ids.1 current.ids.2

/-- What a current association gives rise to. -/
def changeFor (t : IoAssociationPairs Props Rate) (current : IoAssociation Props Rate) : Option (Change Props Rate) :=
  match resolvedFor t current with
  | none => some (.disassociate current)
  | some info => if info.updateRate = current.updateRate then none else some (.associate info)

theorem actOnCurrent_none {r : RuleBasedIoRouter Props Rate} {t : IoAssociationPairs Props Rate}
    {new : List (IoAssociation Props Rate)} {current : IoAssociation Props Rate} (h : resolvedFor t current = none) :
    actOnCurrent (r, t, new) current = (r.disassociate current.source current.actor, t, new) := by
  rw [resolvedFor, Map.getAt] at h
  rw [actOnCurrent]
  cases hactors : t.get current.source.objectId with
  | none => rfl
  | some actors =>
    have hactor : actors.get current.actor.objectId = none := by
      rw [IoAssociation.ids, hactors, Option.bind_some] at h
      exact h
    simp only [hactor]

theorem actOnCurrent_some (r : RuleBasedIoRouter Props Rate) {t : IoAssociationPairs Props Rate}
    (new : List (IoAssociation Props Rate)) {current info : IoAssociation Props Rate}
    (h : resolvedFor t current = some info) :
    ∃ t', actOnCurrent (r, t, new) current =
        (if info.updateRate = current.updateRate then r else r.associate info.source info.actor info.updateRate,
          t', new ++ [info]) ∧
      ∀ k l, t'.getAt k l = if (k, l) = current.ids then none else t.getAt k l := by
  rw [resolvedFor, Map.getAt] at h
  obtain ⟨actors, hactors, hactor⟩ := Option.bind_eq_some_iff.mp h
  rw [IoAssociation.ids] at hactors hactor
  refine ⟨t.setInner current.source.objectId (actors.delete current.actor.objectId), ?_, ?_⟩
  · rw [actOnCurrent]
    simp only [hactors, hactor]
  · intro k l
    rw [Map.getAt_setInner, Map.get_delete]
    simp only [IoAssociation.ids, Prod.mk.injEq]
    by_cases hk : k = current.source.objectId
    · rw [if_pos hk, hk, Map.getAt_of_get hactors]
      simp only [true_and]
    · rw [if_neg hk, if_neg fun hkl => hk hkl.1]

/-- The loop performs the changes for the current associations, keeps the resolved ones, and leaves the pairs that are not current. -/
theorem foldl_actOnCurrent {currents : List (IoAssociation Props Rate)}
    (hnodup : (currents.map IoAssociation.ids).Nodup) (r : RuleBasedIoRouter Props Rate)
    (t : IoAssociationPairs Props Rate) (new : List (IoAssociation Props Rate)) :
    ∃ t', currents.foldl actOnCurrent (r, t, new) =
        ((currents.filterMap (changeFor t)).foldl perform r, t', new ++ currents.filterMap (resolvedFor t)) ∧
      ∀ k l, t'.getAt k l = if (k, l) ∈ currents.map IoAssociation.ids then none else t.getAt k l := by
  induction currents generalizing r t new with
  | nil =>
    refine ⟨t, ?_, fun k l => ?_⟩
    · simp only [List.foldl_nil, List.filterMap_nil, List.append_nil]
    · simp only [List.map_nil, List.not_mem_nil, if_false]
  | cons current currents ih =>
    rw [List.map_cons, List.nodup_cons] at hnodup
    obtain ⟨hfresh, hrest⟩ := hnodup
    cases hresolved : resolvedFor t current with
    | none =>
      obtain ⟨t', hfold, hleft⟩ := ih hrest (r.disassociate current.source current.actor) t new
      have hchange : changeFor t current = some (.disassociate current) := by rw [changeFor, hresolved]
      refine ⟨t', ?_, fun k l => ?_⟩
      · rw [List.foldl_cons, actOnCurrent_none hresolved, hfold, List.filterMap_cons_some hchange,
          List.filterMap_cons_none hresolved, List.foldl_cons, perform]
      · rw [hleft, List.map_cons]
        simp only [List.mem_cons]
        by_cases hids : (k, l) = current.ids
        · rw [if_pos (Or.inl hids), if_neg (hids ▸ hfresh)]
          rw [resolvedFor, ← hids] at hresolved
          exact hresolved
        · simp only [hids, false_or]
    | some info =>
      obtain ⟨t₁, hact, hafter⟩ := actOnCurrent_some r new hresolved
      obtain ⟨t', hfold, hleft⟩ := ih hrest
        (if info.updateRate = current.updateRate then r else r.associate info.source info.actor info.updateRate) t₁
        (new ++ [info])
      -- What the turn gives up concerns no other current association.
      have hothers : ∀ other ∈ currents, resolvedFor t₁ other = resolvedFor t other := by
        intro other hother
        have hne : (other.ids.1, other.ids.2) ≠ current.ids := by
          intro heq
          exact hfresh (heq ▸ List.mem_map_of_mem hother)
        rw [resolvedFor, hafter, if_neg hne, resolvedFor]
      have hchanges : currents.filterMap (changeFor t₁) = currents.filterMap (changeFor t) := by
        apply List.filterMap_congr
        intro other hother
        rw [changeFor, changeFor, hothers other hother]
      refine ⟨t', ?_, fun k l => ?_⟩
      · rw [List.foldl_cons, hact, hfold, hchanges, List.filterMap_congr hothers,
          List.filterMap_cons_some hresolved, List.append_assoc, List.singleton_append]
        by_cases hrate : info.updateRate = current.updateRate
        · have hchange : changeFor t current = none := by rw [changeFor, hresolved]; exact if_pos hrate
          rw [List.filterMap_cons_none hchange, if_pos hrate]
        · have hchange : changeFor t current = some (.associate info) := by
            rw [changeFor, hresolved]
            exact if_neg hrate
          rw [List.filterMap_cons_some hchange, if_neg hrate, List.foldl_cons, perform]
      · rw [hleft, hafter, List.map_cons]
        simp only [List.mem_cons]
        by_cases hids : (k, l) = current.ids
        · rw [if_pos hids, if_pos (Or.inl hids), ite_self]
        · simp only [hids, false_or, if_false]

/-- The result of a comparison of the current associations with the table: `new` are the pairs of the table that are not current, each once. -/
theorem act_eq {r : RuleBasedIoRouter Props Rate} {t : IoAssociationPairs Props Rate}
    (hnodup : (r.currentAssociations.map IoAssociation.ids).Nodup)
    (hids : ∀ k l info, t.getAt k l = some info → info.ids = (k, l)) :
    ∃ new, r.act t = { (r.currentAssociations.filterMap (changeFor t) ++ new.map .associate).foldl perform r with
        currentAssociations := r.currentAssociations.filterMap (resolvedFor t) ++ new } ∧
      (new.map IoAssociation.ids).Nodup ∧
      ∀ info, info ∈ new ↔ info.ids ∉ r.currentAssociations.map IoAssociation.ids ∧
        t.getAt info.ids.1 info.ids.2 = some info := by
  obtain ⟨t', hfold, hleft⟩ := foldl_actOnCurrent hnodup r t []
  have hentry : ∀ {k l info}, ((k, l), info) ∈ t'.entriesAt ↔
      (k, l) ∉ r.currentAssociations.map IoAssociation.ids ∧ t.getAt k l = some info := by
    intro k l info
    rw [Map.mem_entriesAt, hleft]
    by_cases hcurrent : (k, l) ∈ r.currentAssociations.map IoAssociation.ids
    · simp [hcurrent]
    · simp [hcurrent]
  refine ⟨t'.entriesAt.map Prod.snd, ?_, ?_, ?_⟩
  · rw [act, hfold, List.nil_append]
    dsimp only
    rw [Map.values_entriesAt, List.foldl_append, List.foldl_map]
    rfl
  · have hkeys : (t'.entriesAt.map Prod.snd).map IoAssociation.ids = t'.entriesAt.map Prod.fst := by
      rw [List.map_map]
      apply List.map_congr_left
      rintro ⟨⟨k, l⟩, info⟩ he
      exact hids k l info (hentry.mp he).2
    rw [hkeys]
    exact t'.nodup_entriesAt
  · intro info
    rw [List.mem_map]
    constructor
    · rintro ⟨⟨⟨k, l⟩, info'⟩, he, heq⟩
      cases heq
      obtain ⟨hfresh, hget⟩ := hentry.mp he
      rw [hids k l info' hget]
      exact ⟨hfresh, hget⟩
    · rintro ⟨hfresh, hget⟩
      exact ⟨(info.ids, info), hentry.mpr ⟨hfresh, hget⟩, rfl⟩

/-! ### The associations after acting -/

/-- What acting on a table does. -/
structure Acted (r : RuleBasedIoRouter Props Rate) (t : IoAssociationPairs Props Rate)
    (new : List (IoAssociation Props Rate)) (r' : RuleBasedIoRouter Props Rate) : Prop where
  currentAssociations : r'.currentAssociations = r.currentAssociations.filterMap (resolvedFor t) ++ new
  performed : Performed { r with currentAssociations := r'.currentAssociations }
    (r.currentAssociations.filterMap (changeFor t) ++ new.map .associate) r'
  new_nodup : (new.map IoAssociation.ids).Nodup
  mem_new : ∀ info, info ∈ new ↔ info.ids ∉ r.currentAssociations.map IoAssociation.ids ∧
    t.getAt info.ids.1 info.ids.2 = some info

theorem acted_act {r : RuleBasedIoRouter Props Rate} {t : IoAssociationPairs Props Rate}
    (hnodup : (r.currentAssociations.map IoAssociation.ids).Nodup)
    (hids : ∀ k l info, t.getAt k l = some info → info.ids = (k, l)) :
    ∃ new, Acted r t new (r.act t) := by
  obtain ⟨new, hact, hnew, hmem⟩ := act_eq hnodup hids
  refine ⟨new, ?_, ?_, hnew, hmem⟩
  · rw [hact]
  · obtain ⟨hframe, hkept, hrouted, hpublished⟩ :=
      performed_foldl r (r.currentAssociations.filterMap (changeFor t) ++ new.map .associate)
    rw [hact]
    refine ⟨?_, hkept, hrouted, fun hvalid => ?_⟩
    · exact congrArg (fun s : RuleBasedIoRouter Props Rate =>
        { s with currentAssociations := r.currentAssociations.filterMap (resolvedFor t) ++ new }) hframe
    · exact (hpublished hvalid).trans (congrArg (r.published ++ ·) (List.map_congr_left fun _ _ =>
        eventFor_congr rfl fun _ _ => rfl))

theorem ids_of_resolvedFor {spec : Routing Props Rate} {t : IoAssociationPairs Props Rate} (ht : spec.ResolvedBy t)
    {current info : IoAssociation Props Rate} (h : resolvedFor t current = some info) : info.ids = current.ids := by
  obtain ⟨hsource, hactor, _⟩ := ht.sound _ _ _ h
  exact Prod.ext hsource hactor

theorem Acted.mem_currentAssociations {r r' : RuleBasedIoRouter Props Rate} {t : IoAssociationPairs Props Rate}
    {new : List (IoAssociation Props Rate)} (h : Acted r t new r') {spec : Routing Props Rate}
    (ht : spec.ResolvedBy t) {info : IoAssociation Props Rate} :
    info ∈ r'.currentAssociations ↔ t.getAt info.ids.1 info.ids.2 = some info := by
  rw [h.currentAssociations, List.mem_append, List.mem_filterMap, h.mem_new]
  constructor
  · intro hinfo
    rcases hinfo with ⟨current, _, hresolved⟩ | ⟨_, hget⟩
    · rw [ids_of_resolvedFor ht hresolved]
      exact hresolved
    · exact hget
  · intro hget
    by_cases hcurrent : info.ids ∈ r.currentAssociations.map IoAssociation.ids
    · obtain ⟨current, hcurrent, heq⟩ := List.mem_map.mp hcurrent
      left
      refine ⟨current, hcurrent, ?_⟩
      rw [resolvedFor, heq]
      exact hget
    · exact Or.inr ⟨hcurrent, hget⟩

omit [LinearOrder Rate] in
theorem sublist_ids_filterMap {α : Type} {f : IoAssociation Props Rate → Option α} {ids : α → Uuid × Uuid}
    (hids : ∀ current a, f current = some a → ids a = current.ids) (currents : List (IoAssociation Props Rate)) :
    List.Sublist ((currents.filterMap f).map ids) (currents.map IoAssociation.ids) := by
  have hfilter : (currents.filterMap f).map ids
      = (currents.filter fun x => (f x).isSome).map IoAssociation.ids := by
    rw [List.map_filterMap, ← List.filterMap_eq_map, List.filterMap_filter]
    apply List.filterMap_congr
    intro current _
    cases hresult : f current with
    | none => simp
    | some a => simp [hids current a hresult]
  rw [hfilter]
  exact List.filter_sublist.map _

/-- Acting on the table of the routed pairs makes the associations exact. -/
theorem Acted.exact {r r' : RuleBasedIoRouter Props Rate} {t : IoAssociationPairs Props Rate}
    {new : List (IoAssociation Props Rate)} (h : Acted r t new r')
    (hnodup : (r.currentAssociations.map IoAssociation.ids).Nodup) {spec : Routing Props Rate}
    (ht : spec.ResolvedBy t) : spec.Exact r'.currentAssociations := by
  refine ⟨?_, ?_, ?_⟩
  · rw [h.currentAssociations, List.map_append, List.nodup_append]
    -- The kept associations are for pairs that were current, in the same order.
    have hkept := sublist_ids_filterMap (fun _ _ hresolved => ids_of_resolvedFor ht hresolved) r.currentAssociations
    refine ⟨hnodup.sublist hkept, h.new_nodup, ?_⟩
    intro key hkey key' hkey' heq
    subst heq
    obtain ⟨info, hinfo, rfl⟩ := List.mem_map.mp hkey'
    exact ((h.mem_new info).mp hinfo).1 (hkept.subset hkey)
  · intro source actor
    constructor
    · intro ⟨x, hx, hsource, hactor⟩
      subst hsource hactor
      exact (ht.sound _ _ _ ((h.mem_currentAssociations ht).mp hx)).2.2.1
    · intro hrouted
      obtain ⟨info, hget, hsource, hactor⟩ := ht.complete source actor hrouted
      subst hsource hactor
      exact ⟨info, (h.mem_currentAssociations ht).mpr hget, rfl, rfl⟩
  · intro x hx
    exact (ht.sound _ _ _ ((h.mem_currentAssociations ht).mp hx)).2.2.2

end RuleBasedIoRouter

end Coaty
