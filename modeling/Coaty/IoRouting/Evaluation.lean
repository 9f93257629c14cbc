import Coaty.IoRouting.Routing

/-!
# Evaluating the rules

Collecting the points of the managed nodes, pairing the compatible ones, matching the pairs against the rules and resolving the rates amounts to a table of exactly the routed pairs, each with the rate of its source.
-/

namespace Coaty

open Js Order

variable {Props Rate : Type}

structure Routing.ResolvedBy [LinearOrder Rate] (t : Routing Props Rate) (pairs : IoAssociationPairs Props Rate) : Prop where
  sound : ∀ sourceId actorId info, pairs.getAt sourceId actorId = some info →
    info.source.objectId = sourceId ∧ info.actor.objectId = actorId ∧ t.Routed info.source info.actor ∧
      IsMaximum (t.rates info.source) info.updateRate
  complete : ∀ source actor, t.Routed source actor → ∃ info,
    pairs.getAt source.objectId actor.objectId = some info ∧ info.source = source ∧ info.actor = actor

namespace RuleBasedIoRouter

/-- Managed nodes are registered under their ids and carry both arrays, and rules are registered in non-empty lists. -/
structure WellFormed (r : RuleBasedIoRouter Props Rate) : Prop where
  ids : ∀ id node, r.managedIoNodes.get id = some node → node.objectId = id
  arrays : ∀ id node, r.managedIoNodes.get id = some node →
    node.ioSources.isSome = true ∧ node.ioActors.isSome = true
  rules : ∀ valueType, r.rules.get valueType ≠ some []

variable {r : RuleBasedIoRouter Props Rate}

/-! ### Points and pairs -/

def pointEntries (points : IoNode Props Rate → List (IoPoint Props Rate)) (nodes : List (IoNode Props Rate)) :
    List (Uuid × (IoPoint Props Rate × IoNode Props Rate)) :=
  nodes.flatMap fun node => (points node).map fun point => (point.objectId, (point, node))

theorem foldl_pointEntries (points : IoNode Props Rate → List (IoPoint Props Rate))
    (nodes : List (IoNode Props Rate)) (m : Map Uuid (IoPoint Props Rate × IoNode Props Rate)) :
    (pointEntries points nodes).foldl (fun m e => m.set e.1 e.2) m
      = nodes.foldl (fun m node => (points node).foldl (fun m point => m.set point.objectId (point, node)) m) m := by
  rw [pointEntries, List.foldl_flatMap]
  simp only [List.foldl_map]

theorem managed_iff {node : IoNode Props Rate} : r.routing.Managed node ↔ node ∈ r.managedIoNodes.values :=
  Map.mem_values.symm

theorem mem_pointEntries {points : IoNode Props Rate → List (IoPoint Props Rate)} {nodes : List (IoNode Props Rate)}
    {id : Uuid} {point : IoPoint Props Rate} {node : IoNode Props Rate} :
    (id, (point, node)) ∈ pointEntries points nodes ↔ node ∈ nodes ∧ point ∈ points node ∧ point.objectId = id := by
  simp only [pointEntries, List.mem_flatMap, List.mem_map, Prod.mk.injEq]
  constructor
  · rintro ⟨node', hnode, point', hpoint, hid, rfl, rfl⟩
    exact ⟨hnode, hpoint, hid⟩
  · intro ⟨hnode, hpoint, hid⟩
    exact ⟨node, hnode, point, hpoint, hid, rfl, rfl⟩

theorem foldlM_collectIoPoints {nodes : List (IoNode Props Rate)}
    (harrays : ∀ node ∈ nodes, node.ioSources.isSome = true ∧ node.ioActors.isSome = true)
    (sources : Map Uuid (IoSource Props Rate × IoNode Props Rate))
    (actors : Map Uuid (IoActor Props Rate × IoNode Props Rate)) :
    nodes.foldlM collectIoPoints (sources, actors)
      = .ok ((pointEntries IoNode.sources nodes).foldl (fun m e => m.set e.1 e.2) sources,
        (pointEntries IoNode.actors nodes).foldl (fun m e => m.set e.1 e.2) actors) := by
  rw [foldl_pointEntries, foldl_pointEntries]
  induction nodes generalizing sources actors with
  | nil => rfl
  | cons node nodes ih =>
    obtain ⟨hsources, hactors⟩ := harrays node List.mem_cons_self
    obtain ⟨ioSources, hioSources⟩ := Option.isSome_iff_exists.mp hsources
    obtain ⟨ioActors, hioActors⟩ := Option.isSome_iff_exists.mp hactors
    have hnode : IoNode.sources node = ioSources := by rw [IoNode.sources, hioSources, Option.getD_some]
    have hnode' : IoNode.actors node = ioActors := by rw [IoNode.actors, hioActors, Option.getD_some]
    rw [List.foldlM_cons, List.foldl_cons, List.foldl_cons, hnode, hnode']
    rw [← ih fun other hother => harrays other (List.mem_cons_of_mem _ hother)]
    simp only [collectIoPoints, hioSources, hioActors, defined]
    rfl

theorem mem_values_pointEntries {points : IoNode Props Rate → List (IoPoint Props Rate)}
    {nodes : List (IoNode Props Rate)}
    (hunique : ∀ node ∈ nodes, ∀ node' ∈ nodes, ∀ point ∈ points node, ∀ point' ∈ points node',
      point.objectId = point'.objectId → point = point' ∧ node = node')
    {point : IoPoint Props Rate} {node : IoNode Props Rate} :
    (point, node) ∈ ((pointEntries points nodes).foldl (fun m e => m.set e.1 e.2) Map.empty).values ↔
      node ∈ nodes ∧ point ∈ points node := by
  have hconsistent : ∀ e ∈ pointEntries points nodes, ∀ e' ∈ pointEntries points nodes, e.1 = e'.1 →
      e.2 = e'.2 := by
    rintro ⟨id, point, node⟩ he ⟨id', point', node'⟩ he' heq
    obtain ⟨hnode, hpoint, hid⟩ := mem_pointEntries.mp he
    obtain ⟨hnode', hpoint', hid'⟩ := mem_pointEntries.mp he'
    obtain ⟨hp, hn⟩ := hunique node hnode node' hnode' point hpoint point' hpoint' (hid.trans (heq.trans hid'.symm))
    exact Prod.ext hp hn
  rw [Map.mem_values]
  simp only [Map.get_foldl_set hconsistent, mem_pointEntries]
  constructor
  · rintro ⟨id, hnode, hpoint, _⟩
    exact ⟨hnode, hpoint⟩
  · rintro ⟨hnode, hpoint⟩
    exact ⟨point.objectId, hnode, hpoint, rfl⟩

/-- A pair is compatible in the sense of the code. -/
structure Compatible (r : RuleBasedIoRouter Props Rate) (pair : IoCompatibleAssociation Props Rate) : Prop where
  sourceNode_managed : r.routing.Managed pair.sourceNode
  source_mem : pair.source ∈ pair.sourceNode.sources
  actorNode_managed : r.routing.Managed pair.actorNode
  actor_mem : pair.actor ∈ pair.actorNode.actors
  valueType : pair.source.valueType = pair.actor.valueType
  useRawIoValues : pair.source.useRawIoValues.getD false = pair.actor.useRawIoValues.getD false

theorem getCompatibleAssociations_ok (hwf : r.WellFormed) (hunique : r.routing.UniquePoints) :
    ∃ pairs, r.getCompatibleAssociations = .ok pairs ∧ ∀ pair, pair ∈ pairs ↔ r.Compatible pair := by
  have harrays : ∀ node ∈ r.managedIoNodes.values, node.ioSources.isSome = true ∧ node.ioActors.isSome = true := by
    intro node hnode
    obtain ⟨id, hid⟩ := Map.mem_values.mp hnode
    exact hwf.arrays id node hid
  rw [getCompatibleAssociations, foldlM_collectIoPoints harrays]
  refine ⟨_, rfl, fun pair => ?_⟩
  have hsources : ∀ point node, (point, node) ∈ ((pointEntries IoNode.sources r.managedIoNodes.values).foldl
      (fun m e => m.set e.1 e.2) Map.empty).values ↔
        node ∈ r.managedIoNodes.values ∧ point ∈ IoNode.sources node := fun point node =>
    mem_values_pointEntries fun node hnode node' hnode' point hpoint point' hpoint' heq =>
      hunique.sources node node' point point' (managed_iff.mpr hnode) (managed_iff.mpr hnode') hpoint hpoint' heq
  have hactors : ∀ point node, (point, node) ∈ ((pointEntries IoNode.actors r.managedIoNodes.values).foldl
      (fun m e => m.set e.1 e.2) Map.empty).values ↔
        node ∈ r.managedIoNodes.values ∧ point ∈ IoNode.actors node := fun point node =>
    mem_values_pointEntries fun node hnode node' hnode' point hpoint point' hpoint' heq =>
      hunique.actors node node' point point' (managed_iff.mpr hnode) (managed_iff.mpr hnode') hpoint hpoint' heq
  rw [List.mem_flatMap]
  constructor
  · intro ⟨⟨source, sourceNode⟩, hsource, hpair⟩
    obtain ⟨⟨actor, actorNode⟩, hactor, hsome⟩ := List.mem_filterMap.mp hpair
    obtain ⟨hsourceNode, hsourceMem⟩ := (hsources source sourceNode).mp hsource
    obtain ⟨hactorNode, hactorMem⟩ := (hactors actor actorNode).mp hactor
    dsimp only at hsome
    split at hsome
    · rename_i hcompatible
      cases hsome
      rw [areValueTypesCompatible, Bool.and_eq_true, decide_eq_true_iff, decide_eq_true_iff] at hcompatible
      exact ⟨managed_iff.mpr hsourceNode, hsourceMem, managed_iff.mpr hactorNode, hactorMem, hcompatible.1,
        hcompatible.2⟩
    · cases hsome
  · intro h
    refine ⟨(pair.source, pair.sourceNode),
      (hsources _ _).mpr ⟨managed_iff.mp h.sourceNode_managed, h.source_mem⟩, ?_⟩
    refine List.mem_filterMap.mpr ⟨(pair.actor, pair.actorNode),
      (hactors _ _).mpr ⟨managed_iff.mp h.actorNode_managed, h.actor_mem⟩, ?_⟩
    have hcompatible : areValueTypesCompatible pair.source pair.actor = true := by
      rw [areValueTypesCompatible, Bool.and_eq_true, decide_eq_true_iff, decide_eq_true_iff]
      exact ⟨h.valueType, h.useRawIoValues⟩
    dsimp only
    rw [if_pos hcompatible]

/-! ### Matching -/

def matchesRule (r : RuleBasedIoRouter Props Rate) (pair : IoCompatibleAssociation Props Rate) : Bool :=
  ((r.rulesFor pair.source.valueType).getD []).any fun rule => isMatch rule pair r.ioContext

theorem isMatch_iff {rule : IoAssociationRule Props Rate} {pair : IoCompatibleAssociation Props Rate} :
    isMatch rule pair r.ioContext = true ↔
      r.routing.Holds rule pair.source pair.sourceNode pair.actor pair.actorNode := by
  rw [isMatch, Routing.Holds]
  cases rule.condition with
  | none => simp
  | some condition =>
    have hcontext : r.routing.ioContext = r.ioContext := rfl
    simp only [Option.some.injEq, exists_eq_left', hcontext]
    cases condition pair.source pair.sourceNode pair.actor pair.actorNode r.ioContext with
    | error e => simp
    | ok holds => simp

theorem rulesFor_getD (hwf : r.WellFormed) (valueType : Text) :
    (r.rulesFor valueType).getD [] = r.routing.applicable valueType := by
  have hrules : ∀ valueType, r.routing.rules valueType = (r.rules.get valueType).getD [] := fun _ => rfl
  rw [rulesFor, Routing.applicable, hrules, hrules]
  cases hget : r.rules.get valueType with
  | none => rfl
  | some rules =>
    cases rules with
    | nil => exact absurd hget (hwf.rules valueType)
    | cons rule rules => rfl

theorem matchesRule_iff (hwf : r.WellFormed) {pair : IoCompatibleAssociation Props Rate} :
    r.matchesRule pair = true ↔ ∃ rule ∈ r.routing.applicable pair.source.valueType,
      r.routing.Holds rule pair.source pair.sourceNode pair.actor pair.actorNode := by
  rw [matchesRule, rulesFor_getD hwf, List.any_eq_true]
  simp only [isMatch_iff]

theorem routedOn_iff (hwf : r.WellFormed) {pair : IoCompatibleAssociation Props Rate} :
    r.Compatible pair ∧ r.matchesRule pair = true ↔
      r.routing.RoutedOn pair.source pair.sourceNode pair.actor pair.actorNode := by
  rw [matchesRule_iff hwf]
  constructor
  · intro ⟨hcompatible, hrule⟩
    exact {
      sourceNode_managed := hcompatible.sourceNode_managed
      source_mem := hcompatible.source_mem
      actorNode_managed := hcompatible.actorNode_managed
      actor_mem := hcompatible.actor_mem
      valueType := hcompatible.valueType
      useRawIoValues := hcompatible.useRawIoValues
      rule := hrule }
  · intro hrouted
    exact ⟨{
      sourceNode_managed := hrouted.sourceNode_managed
      source_mem := hrouted.source_mem
      actorNode_managed := hrouted.actorNode_managed
      actor_mem := hrouted.actor_mem
      valueType := hrouted.valueType
      useRawIoValues := hrouted.useRawIoValues }, hrouted.rule⟩

variable [LinearOrder Rate]

/-- What a matching pair adds to the table. -/
def matchedEntry (pair : IoCompatibleAssociation Props Rate) : (Uuid × Uuid) × IoAssociation Props Rate :=
  ((pair.source.objectId, pair.actor.objectId), {
    source := pair.source
    actor := pair.actor
    updateRate := computeCumulatedUpdateRate pair.source.updateRate pair.actor.updateRate })

theorem matchRules_eq (r : RuleBasedIoRouter Props Rate) (pairs : List (IoCompatibleAssociation Props Rate)) :
    r.matchRules pairs = ((pairs.filter r.matchesRule).map matchedEntry).foldl
      (fun m e => m.setAt e.1.1 e.1.2 e.2) Map.empty := by
  rw [List.foldl_map, List.foldl_filter, matchRules]
  congr 1
  funext associationMap pair
  rw [matchesRule]
  cases r.rulesFor pair.source.valueType with
  | none => rfl
  | some rules => rfl

/-- The table of matching pairs has exactly the routed pairs, each with the greater of its two rates. -/
theorem getAt_matchRules (hwf : r.WellFormed) (hunique : r.routing.UniquePoints)
    {pairs : List (IoCompatibleAssociation Props Rate)} (hpairs : ∀ pair, pair ∈ pairs ↔ r.Compatible pair)
    {sourceId actorId : Uuid} {info : IoAssociation Props Rate} :
    (r.matchRules pairs).getAt sourceId actorId = some info ↔
      info.source.objectId = sourceId ∧ info.actor.objectId = actorId ∧
        r.routing.Routed info.source info.actor ∧
        info.updateRate = computeCumulatedUpdateRate info.source.updateRate info.actor.updateRate := by
  have hmem : ∀ e, e ∈ (pairs.filter r.matchesRule).map matchedEntry ↔
      ∃ pair : IoCompatibleAssociation Props Rate,
        r.routing.RoutedOn pair.source pair.sourceNode pair.actor pair.actorNode ∧ matchedEntry pair = e := by
    intro e
    rw [List.mem_map]
    simp only [List.mem_filter, hpairs, routedOn_iff hwf]
  have hconsistent : ∀ e ∈ (pairs.filter r.matchesRule).map matchedEntry,
      ∀ e' ∈ (pairs.filter r.matchesRule).map matchedEntry, e.1 = e'.1 → e.2 = e'.2 := by
    intro e he e' he' hkey
    obtain ⟨pair, hrouted, rfl⟩ := (hmem e).mp he
    obtain ⟨pair', hrouted', rfl⟩ := (hmem e').mp he'
    obtain ⟨hsourceId, hactorId⟩ := Prod.mk.inj hkey
    have hsource : pair.source = pair'.source := (hunique.sources _ _ _ _ hrouted.sourceNode_managed
      hrouted'.sourceNode_managed hrouted.source_mem hrouted'.source_mem hsourceId).1
    have hactor : pair.actor = pair'.actor := (hunique.actors _ _ _ _ hrouted.actorNode_managed
      hrouted'.actorNode_managed hrouted.actor_mem hrouted'.actor_mem hactorId).1
    rw [matchedEntry, matchedEntry, hsource, hactor]
  rw [matchRules_eq, Map.getAt_foldl_setAt hconsistent, hmem]
  constructor
  · intro ⟨pair, hrouted, heq⟩
    cases heq
    exact ⟨rfl, rfl, ⟨pair.sourceNode, pair.actorNode, hrouted⟩, rfl⟩
  · intro ⟨hsourceId, hactorId, ⟨sourceNode, actorNode, hrouted⟩, hrate⟩
    refine ⟨⟨info.source, sourceNode, info.actor, actorNode⟩, hrouted, ?_⟩
    rw [matchedEntry, ← hrate, hsourceId, hactorId]

/-! ### Rates -/

theorem isMaximum_computeCumulatedUpdateRate {s t : Set Rate} {rate rate' : Option Rate} (hs : IsMaximum s rate)
    (ht : IsMaximum t rate') : IsMaximum (s ∪ t) (computeCumulatedUpdateRate rate rate') := by
  cases rate with
  | none =>
    rw [Set.union_comm]
    exact ht.union_none hs
  | some rate =>
    cases rate' with
    | none => exact hs.union_none ht
    | some rate' =>
      rw [computeCumulatedUpdateRate, max_comm]
      exact hs.union_some ht

theorem getAt_resolve (m : IoAssociationPairs Props Rate) (sourceId actorId : Uuid) :
    (resolve m).getAt sourceId actorId
      = (m.getAt sourceId actorId).map fun info => { info with updateRate := cumulatedRate (m.inner sourceId) } := by
  rw [Map.getAt, resolve, Map.get_mapValues, Map.getAt, Map.inner]
  cases m.get sourceId with
  | none => rfl
  | some actors => exact Map.get_mapValues _ actors actorId

/-- The cumulated rate of a source with a routed actor is the greatest rate defined for it and its routed actors. -/
theorem isMaximum_cumulatedRate (hunique : r.routing.UniquePoints) {m : IoAssociationPairs Props Rate}
    (hm : ∀ {sourceId actorId info}, m.getAt sourceId actorId = some info ↔
      info.source.objectId = sourceId ∧ info.actor.objectId = actorId ∧
        r.routing.Routed info.source info.actor ∧
        info.updateRate = computeCumulatedUpdateRate info.source.updateRate info.actor.updateRate)
    {source : IoSource Props Rate} {actor : IoActor Props Rate} (hrouted : r.routing.Routed source actor) :
    IsMaximum (r.routing.rates source) (cumulatedRate (m.inner source.objectId)) := by
  have hvalues : ∀ info, info ∈ (m.inner source.objectId).values ↔ info.source = source ∧
      r.routing.Routed source info.actor ∧
      info.updateRate = computeCumulatedUpdateRate source.updateRate info.actor.updateRate := by
    intro info
    rw [Map.mem_values]
    simp only [Map.getAt_inner, hm]
    constructor
    · rintro ⟨actorId, hsourceId, _, hinfo, hrate⟩
      have hsource : info.source = source := by
        obtain ⟨sourceNode, _, hon⟩ := hinfo
        obtain ⟨sourceNode', _, hon'⟩ := hrouted
        exact (hunique.sources _ _ _ _ hon.sourceNode_managed hon'.sourceNode_managed hon.source_mem
          hon'.source_mem hsourceId).1
      subst hsource
      exact ⟨rfl, hinfo, hrate⟩
    · rintro ⟨hsource, hinfo, hrate⟩
      subst hsource
      exact ⟨info.actor.objectId, rfl, rfl, hinfo, hrate⟩
  have hpart : ∀ info ∈ (m.inner source.objectId).values,
      IsMaximum ({rate | source.updateRate = some rate} ∪ {rate | info.actor.updateRate = some rate})
        info.updateRate := by
    intro info hinfo
    rw [((hvalues info).mp hinfo).2.2]
    exact isMaximum_computeCumulatedUpdateRate (isMaximum_singleton _) (isMaximum_singleton _)
  have hmaximum := isMaximum_foldl isMaximum_computeCumulatedUpdateRate hpart
    (show IsMaximum (∅ : Set Rate) none from rfl)
  have hset : ∅ ∪ ⋃ info ∈ (m.inner source.objectId).values,
      ({rate | source.updateRate = some rate} ∪ {rate | info.actor.updateRate = some rate})
        = r.routing.rates source := by
    ext rate
    simp only [Set.empty_union, Set.mem_iUnion, Set.mem_union, Set.mem_ofPred_eq, Routing.rates, exists_prop,
      hvalues]
    constructor
    · rintro ⟨info, ⟨_, hinfo, _⟩, hrate⟩
      exact hrate.imp_right fun hactor => ⟨info.actor, hinfo, hactor⟩
    · intro hrate
      rcases hrate with hsource | ⟨actor', hrouted', hactor⟩
      · exact ⟨⟨source, actor, computeCumulatedUpdateRate source.updateRate actor.updateRate⟩,
          ⟨rfl, hrouted, rfl⟩, Or.inl hsource⟩
      · exact ⟨⟨source, actor', computeCumulatedUpdateRate source.updateRate actor'.updateRate⟩,
          ⟨rfl, hrouted', rfl⟩, Or.inr hactor⟩
  rw [hset] at hmaximum
  exact hmaximum

/-- Evaluating the rules acts on the table of exactly the routed pairs. -/
theorem evaluateRules_ok (hwf : r.WellFormed) (hunique : r.routing.UniquePoints) :
    ∃ resolvedPairs, r.evaluateRules = .ok (r.act resolvedPairs) ∧ r.routing.ResolvedBy resolvedPairs := by
  obtain ⟨pairs, hok, hpairs⟩ := getCompatibleAssociations_ok hwf hunique
  refine ⟨resolve (r.matchRules pairs), ?_, ?_, ?_⟩
  · rw [evaluateRules, hok]
    rfl
  · intro sourceId actorId info hinfo
    rw [getAt_resolve] at hinfo
    obtain ⟨info, hmatch, rfl⟩ := Option.map_eq_some_iff.mp hinfo
    obtain ⟨hsourceId, hactorId, hrouted, _⟩ := (getAt_matchRules hwf hunique hpairs).mp hmatch
    refine ⟨hsourceId, hactorId, hrouted, ?_⟩
    rw [← hsourceId]
    exact isMaximum_cumulatedRate hunique (getAt_matchRules hwf hunique hpairs) hrouted
  · intro source actor hrouted
    have hmatch : (r.matchRules pairs).getAt source.objectId actor.objectId
        = some ⟨source, actor, computeCumulatedUpdateRate source.updateRate actor.updateRate⟩ :=
      (getAt_matchRules hwf hunique hpairs).mpr ⟨rfl, rfl, hrouted, rfl⟩
    refine ⟨⟨source, actor, cumulatedRate ((r.matchRules pairs).inner source.objectId)⟩, ?_, rfl, rfl⟩
    rw [getAt_resolve, hmatch, Option.map_some]

end RuleBasedIoRouter

end Coaty
