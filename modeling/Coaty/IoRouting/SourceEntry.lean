import Coaty.Com.AssociationBookkeeping
import Coaty.IoRouting.Exactness

/-!
# The entry of a source under a batch of events

The events that a router publishes in one step reach an agent as a batch, and all that they do to the entry of an own source is to update it with one event for that source after the other. As a batch has at most one event for a pair and all its routes for a source are the same, the entry afterwards is a function of the changes that the router has performed: which actors were associated and disassociated, and which change was the last.
-/

namespace Coaty

open Js RuleBasedIoRouter CommunicationManager

variable {Props Rate : Type}

namespace RuleBasedIoRouter.Change

def ids : Change Props Rate → Uuid × Uuid
  | .associate info => info.ids
  | .disassociate current => current.ids

def rate : Change Props Rate → Option Rate
  | .associate info => info.updateRate
  | .disassociate _ => none

end RuleBasedIoRouter.Change

namespace CommunicationManager

/-- An Associate event arrives as it was encoded. -/
def receive (m : CommunicationManager Props Rate) (event : AssociateEvent Rate) : CommunicationManager Props Rate :=
  m.dispatchAssociate { event with data := event.data.received }

def entryAfter (sourceId : Uuid) (entry : Option (IoSourceItem Rate)) (event : AssociateEvent Rate) :
    Option (IoSourceItem Rate) :=
  if event.data.ioSourceId = sourceId
  then updatedItem event.data.ioActorId event.data.associatingRoute event.data.updateRate entry else entry

/-- The agent takes part in the IO context with this name. -/
def ParticipatesIn (m : CommunicationManager Props Rate) (ioContextName : Text) : Prop :=
  ∃ ioNode ∈ m.ioNodes, ioNode.name = ioContextName

theorem owns_congr {m m' : CommunicationManager Props Rate} (h : m'.ioNodes = m.ioNodes) (id : Uuid) :
    m'.Owns id ↔ m.Owns id := by
  rw [Owns, findIoPointById, h]
  rfl

theorem receive_spec {m : CommunicationManager Props Rate} (hm : Consistent m) {sourceId : Uuid}
    (howns : m.Owns sourceId) {event : AssociateEvent Rate} (hname : m.ParticipatesIn event.ioContextName) :
    Consistent (m.receive event) ∧ (m.receive event).ioNodes = m.ioNodes ∧
      (m.receive event).ioSourceItems.get sourceId = entryAfter sourceId (m.ioSourceItems.get sourceId) event := by
  obtain ⟨ioNode, hmem, hioNode⟩ := hname
  have hany : (m.ioNodes.any fun ioNode => ioNode.name = event.ioContextName) = true := by
    rw [List.any_eq_true]
    exact ⟨ioNode, hmem, decide_eq_true hioNode⟩
  have hreceive : m.receive event = m.handleAssociate event.data.received := if_pos hany
  rw [hreceive]
  refine ⟨step_consistent m (.associate event.data.received) hm, handleAssociate_ioNodes hm _, ?_⟩
  rw [(handleAssociate_maps event.data.received).1, get_afterActor hm, entryAfter]
  show (if m.Owns event.data.ioSourceId ∧ sourceId = event.data.ioSourceId then _ else _) = _
  by_cases hsource : event.data.ioSourceId = sourceId
  · rw [if_pos hsource, if_pos ⟨hsource ▸ howns, hsource.symm⟩]
    rfl
  · rw [if_neg hsource, if_neg fun h => hsource h.2.symm]

theorem foldl_receive_spec {m : CommunicationManager Props Rate} (hm : Consistent m) {sourceId : Uuid}
    (howns : m.Owns sourceId) {events : List (AssociateEvent Rate)}
    (hnames : ∀ event ∈ events, m.ParticipatesIn event.ioContextName) :
    Consistent (events.foldl receive m) ∧ (events.foldl receive m).ioNodes = m.ioNodes ∧
      (events.foldl receive m).ioSourceItems.get sourceId
        = events.foldl (entryAfter sourceId) (m.ioSourceItems.get sourceId) := by
  induction events generalizing m with
  | nil => exact ⟨hm, rfl, rfl⟩
  | cons event events ih =>
    obtain ⟨hconsistent, hnodes, hget⟩ := receive_spec hm howns (hnames event List.mem_cons_self)
    have hrest := ih hconsistent ((owns_congr hnodes sourceId).mpr howns) fun other hother => by
      rw [ParticipatesIn, hnodes]
      exact hnames other (List.mem_cons_of_mem _ hother)
    rw [List.foldl_cons, List.foldl_cons, ← hget]
    exact ⟨hrest.1, hrest.2.1.trans hnodes, hrest.2.2⟩

/-! ### One update -/

def ActorOf (entry : Option (IoSourceItem Rate)) (actorId : Uuid) : Prop :=
  ∃ items, entry = some items ∧ actorId ∈ items.actorIds

theorem actorOf_updatedItem {entry : Option (IoSourceItem Rate)} {ioActorId : Uuid} {ioRoute : Option IoRoute}
    {updateRate : Option Rate} (hnodup : ∀ items, entry = some items → items.actorIds.Nodup)
    (hroute : ∀ items route, entry = some items → ioRoute = some route → items.route = route) (actorId : Uuid) :
    ActorOf (updatedItem ioActorId ioRoute updateRate entry) actorId ↔
      if actorId = ioActorId then ioRoute.isSome = true else ActorOf entry actorId := by
  cases entry with
  | none =>
    cases ioRoute with
    | none => simp [ActorOf, updatedItem]
    | some ioRoute => simp [ActorOf, updatedItem]
  | some items =>
    cases ioRoute with
    | none =>
      have hmem : ActorOf (updatedItem ioActorId none updateRate (some items)) actorId ↔
          actorId ∈ items.actorIds.erase ioActorId := by
        rw [updatedItem]
        split
        · rename_i hlength
          rw [List.length_eq_zero_iff] at hlength
          simp [ActorOf, hlength]
        · simp [ActorOf]
      rw [hmem, (hnodup items rfl).mem_erase_iff]
      by_cases hactor : actorId = ioActorId
      · simp [hactor]
      · simp [hactor, ActorOf]
    | some ioRoute =>
      have hsame := hroute items ioRoute rfl rfl
      simp only [ActorOf, updatedItem, Option.some.injEq, exists_eq_left', if_pos hsame, Option.isSome_some]
      by_cases hmem : ioActorId ∈ items.actorIds
      · rw [if_pos hmem]
        by_cases hactor : actorId = ioActorId
        · simp [hactor, hmem]
        · simp [hactor]
      · rw [if_neg hmem, List.mem_append, List.mem_singleton]
        by_cases hactor : actorId = ioActorId
        · simp [hactor]
        · simp [hactor]

theorem updatedItem_updateRate {entry : Option (IoSourceItem Rate)} {ioActorId : Uuid} {ioRoute : Option IoRoute}
    {updateRate : Option Rate} {items : IoSourceItem Rate}
    (h : updatedItem ioActorId ioRoute updateRate entry = some items) : items.updateRate = updateRate := by
  cases entry with
  | none =>
    obtain ⟨route, _, rfl⟩ := Option.map_eq_some_iff.mp h
    rfl
  | some before =>
    cases ioRoute with
    | none =>
      rw [updatedItem] at h
      split at h
      · cases h
      · cases h
        rfl
    | some ioRoute =>
      cases h
      rfl

theorem updatedItem_route {entry : Option (IoSourceItem Rate)} {ioActorId : Uuid} {ioRoute : Option IoRoute}
    {updateRate : Option Rate} {items : IoSourceItem Rate}
    (h : updatedItem ioActorId ioRoute updateRate entry = some items) :
    ioRoute = some items.route ∨ ioRoute = none ∧ ∃ before, entry = some before ∧ before.route = items.route := by
  cases entry with
  | none =>
    obtain ⟨route, hroute, rfl⟩ := Option.map_eq_some_iff.mp h
    exact Or.inl hroute
  | some before =>
    cases ioRoute with
    | none =>
      rw [updatedItem] at h
      split at h
      · cases h
      · cases h
        exact Or.inr ⟨rfl, before, rfl, rfl⟩
    | some ioRoute =>
      cases h
      exact Or.inl rfl

/-! ### A batch -/

structure EntryOn (route : IoRoute) (entry : Option (IoSourceItem Rate)) : Prop where
  actorIds_nodup : ∀ items, entry = some items → items.actorIds.Nodup
  route : ∀ items, entry = some items → items.route = route

structure EntryUpdated (sourceId : Uuid) (route : IoRoute) (changes : List (Change Props Rate))
    (entry entry' : Option (IoSourceItem Rate)) : Prop where
  on : EntryOn route entry'
  actorOf : ∀ actorId, ActorOf entry' actorId ↔
    (∃ info, .associate info ∈ changes ∧ info.ids = (sourceId, actorId)) ∨
      (ActorOf entry actorId ∧ ∀ change ∈ changes, change.ids ≠ (sourceId, actorId))
  unchanged : (∀ change ∈ changes, change.ids.1 ≠ sourceId) → entry' = entry
  last : ∀ change, (changes.filter fun change => change.ids.1 = sourceId).getLast? = some change →
    ∀ items, entry' = some items → items.updateRate = change.rate

theorem actorOf_append_iff {changes : List (Change Props Rate)} {change : Change Props Rate} {ids : Uuid × Uuid}
    (hids : change.ids ≠ ids) {P : Prop} :
    ((∃ info, .associate info ∈ changes ++ [change] ∧ info.ids = ids) ∨ (P ∧ ∀ other ∈ changes ++ [change], other.ids ≠ ids)) ↔
      (∃ info, .associate info ∈ changes ∧ info.ids = ids) ∨ (P ∧ ∀ other ∈ changes, other.ids ≠ ids) := by
  simp only [List.mem_append, List.mem_singleton, or_imp, forall_and, forall_eq, hids, ne_eq, not_false_eq_true, and_true]
  apply or_congr_left
  constructor
  · rintro ⟨info, hinfo, heq⟩
    refine ⟨info, hinfo.resolve_right fun hchange => hids ?_, heq⟩
    rw [← hchange]
    exact heq
  · rintro ⟨info, hinfo, heq⟩
    exact ⟨info, Or.inl hinfo, heq⟩

theorem entryUpdated_foldl {r : RuleBasedIoRouter Props Rate} {sourceId : Uuid} {route : IoRoute}
    {changes : List (Change Props Rate)} (hnodup : (changes.map Change.ids).Nodup)
    (hrouted : ∀ info, .associate info ∈ changes → info.source.objectId = sourceId →
      (r.sourceRoutes.get sourceId).map Prod.fst = some route)
    {entry : Option (IoSourceItem Rate)} (hentry : EntryOn route entry) :
    EntryUpdated sourceId route changes entry ((changes.map r.eventFor).foldl (entryAfter sourceId) entry) := by
  induction changes using List.reverseRecOn with
  | nil =>
    refine ⟨hentry, fun actorId => ?_, fun _ => rfl, nofun⟩
    simp
  | append_singleton changes change ih =>
    rw [List.map_append, List.nodup_append] at hnodup
    have hbefore := ih hnodup.1 fun info hinfo => hrouted info (List.mem_append_left _ hinfo)
    have hfresh : ∀ other ∈ changes, other.ids ≠ change.ids := fun other hother heq =>
      hnodup.2.2 other.ids (List.mem_map_of_mem hother) change.ids (List.mem_singleton_self _) heq
    rw [List.map_append, List.foldl_append, List.map_singleton, List.foldl_cons, List.foldl_nil]
    set before := (changes.map r.eventFor).foldl (entryAfter sourceId) entry
    have hids : ((r.eventFor change).data.ioSourceId, (r.eventFor change).data.ioActorId) = change.ids := by
      cases change <;> rfl
    have hsourceId : (r.eventFor change).data.ioSourceId = change.ids.1 := congrArg Prod.fst hids
    have hactorId : (r.eventFor change).data.ioActorId = change.ids.2 := congrArg Prod.snd hids
    rw [entryAfter, hsourceId]
    by_cases hsource : change.ids.1 = sourceId
    · rw [if_pos hsource]
      have hrate : (r.eventFor change).data.updateRate = change.rate := by cases change <;> rfl
      -- An associated actor is told the route of the source.
      have hroute : (r.eventFor change).data.associatingRoute = none ∧ (∀ info, change ≠ .associate info) ∨
          (r.eventFor change).data.associatingRoute = some route ∧ ∃ info, change = .associate info := by
        cases change with
        | disassociate current => exact Or.inl ⟨rfl, nofun⟩
        | associate info =>
          have hinfo : info.source.objectId = sourceId := hsource
          have hget := hrouted info (List.mem_append_right _ (List.mem_singleton_self _)) hinfo
          right
          rw [eventFor, hinfo]
          exact ⟨hget, info, rfl⟩
      have hsame : ∀ items newRoute, before = some items →
          (r.eventFor change).data.associatingRoute = some newRoute → items.route = newRoute := by
        intro items newRoute hitems hassociating
        rw [hbefore.on.route items hitems]
        rcases hroute with ⟨hnone, _⟩ | ⟨hsome, _⟩
        · rw [hnone] at hassociating
          cases hassociating
        · rw [hsome] at hassociating
          exact Option.some.inj hassociating
      refine ⟨⟨?_, ?_⟩, ?_, ?_, ?_⟩
      · intro items hitems
        exact (updatedItem_consistent hbefore.on.actorIds_nodup hitems).2
      · intro items hitems
        rcases updatedItem_route hitems with hassociating | ⟨_, old, hold, heq⟩
        · rcases hroute with ⟨hnone, _⟩ | ⟨hsome, _⟩
          · rw [hnone] at hassociating
            cases hassociating
          · rw [hsome] at hassociating
            exact (Option.some.inj hassociating).symm
        · rw [← heq, hbefore.on.route old hold]
      · intro actorId
        rw [actorOf_updatedItem hbefore.on.actorIds_nodup hsame, hactorId]
        by_cases hactor : actorId = change.ids.2
        · have hpair : change.ids = (sourceId, actorId) := Prod.ext hsource hactor.symm
          rw [if_pos hactor]
          constructor
          · intro hsome
            rcases hroute with ⟨hnone, _⟩ | ⟨_, info, hinfo⟩
            · rw [hnone] at hsome
              cases hsome
            · exact Or.inl ⟨info, List.mem_append_right _ (hinfo ▸ List.mem_singleton_self _),
                (congrArg Change.ids hinfo).symm.trans hpair⟩
          · intro h
            rcases h with ⟨info, hinfo, heq⟩ | ⟨_, hothers⟩
            · rcases List.mem_append.mp hinfo with hmem | hmem
              · exact absurd (heq.trans hpair.symm) (hfresh _ hmem)
              · rcases hroute with ⟨_, hne⟩ | ⟨hsome, _⟩
                · exact absurd (List.mem_singleton.mp hmem).symm (hne info)
                · rw [hsome]
                  rfl
            · exact absurd hpair (hothers change (List.mem_append_right _ (List.mem_singleton_self _)))
        · have hpair : change.ids ≠ (sourceId, actorId) := fun heq => hactor (congrArg Prod.snd heq).symm
          rw [if_neg hactor, hbefore.actorOf actorId, actorOf_append_iff hpair]
      · intro hothers
        exact absurd hsource (hothers change (List.mem_append_right _ (List.mem_singleton_self _)))
      · intro last hlast items hitems
        rw [List.filter_append, List.filter_cons_of_pos (by simpa using hsource), List.filter_nil,
          List.getLast?_concat] at hlast
        cases hlast
        rw [updatedItem_updateRate hitems, hrate]
    · rw [if_neg hsource]
      refine ⟨hbefore.on, ?_, ?_, ?_⟩
      · intro actorId
        have hpair : change.ids ≠ (sourceId, actorId) := fun heq => hsource (congrArg Prod.fst heq)
        rw [hbefore.actorOf actorId, actorOf_append_iff hpair]
      · intro hothers
        exact hbefore.unchanged fun other hother => hothers other (List.mem_append_left _ hother)
      · intro last hlast items hitems
        rw [List.filter_append, List.filter_cons_of_neg (by simpa using hsource), List.filter_nil,
          List.append_nil] at hlast
        exact hbefore.last last hlast items hitems

end CommunicationManager

end Coaty
