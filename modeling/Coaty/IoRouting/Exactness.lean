import Coaty.IoRouting.Reconciliation
import Coaty.Transition

/-!
# The associations are exact

Whatever a router reacts to, it first brings its nodes, context and rules up to date and then, if these have changed, acts on the table of the routed pairs. The first part refines the abstract routing step by step, and the second makes the current associations exact for it, over every run.
-/

namespace Coaty

open Js Order Transition

variable {Props Rate : Type}

def Routing.HasSource (t : Routing Props Rate) (sourceId : Uuid) : Prop :=
  ∃ node, t.Managed node ∧ ∃ source ∈ node.sources, source.objectId = sourceId

namespace RuleBasedIoRouter

/-! ### Deregistering nodes -/

def HasSource (node : IoNode Props Rate) (sourceId : Uuid) : Prop :=
  ∃ source ∈ node.sources, source.objectId = sourceId

theorem forgetRoute_ok {readvertisedNode : Option (IoNode Props Rate)}
    (harrays : ∀ node, readvertisedNode = some node → node.ioSources.isSome = true)
    (sourceRoutes : Map Uuid (IoRoute × Bool)) (point : IoSource Props Rate) :
    ∃ sourceRoutes', forgetRoute readvertisedNode sourceRoutes point = .ok sourceRoutes' ∧
      ∀ id, (id = point.objectId → ∃ node, readvertisedNode = some node ∧ HasSource node id) →
        sourceRoutes'.get id = sourceRoutes.get id := by
  have hdelete : ∀ id, id ≠ point.objectId → (sourceRoutes.delete point.objectId).get id = sourceRoutes.get id := by
    intro id hne
    rw [Map.get_delete, if_neg hne]
  cases readvertisedNode with
  | none =>
    refine ⟨sourceRoutes.delete point.objectId, rfl, fun id hid => hdelete id ?_⟩
    intro heq
    obtain ⟨node, hnode, _⟩ := hid heq
    cases hnode
  | some node =>
    obtain ⟨ioSources, hioSources⟩ := Option.isSome_iff_exists.mp (harrays node rfl)
    rw [forgetRoute, hioSources]
    refine ⟨_, rfl, fun id hid => ?_⟩
    split
    · rfl
    · rename_i hother
      apply hdelete
      intro heq
      obtain ⟨_, hnode, source, hsource, hsourceId⟩ := hid heq
      cases hnode
      rw [IoNode.sources, hioSources] at hsource
      apply hother
      rw [List.any_eq_true]
      exact ⟨source, hsource, decide_eq_true (hsourceId.trans heq)⟩

theorem foldlM_forgetRoute_ok {readvertisedNode : Option (IoNode Props Rate)}
    (harrays : ∀ node, readvertisedNode = some node → node.ioSources.isSome = true)
    (points : List (IoSource Props Rate)) (sourceRoutes : Map Uuid (IoRoute × Bool)) :
    ∃ sourceRoutes', points.foldlM (forgetRoute readvertisedNode) sourceRoutes = .ok sourceRoutes' ∧
      ∀ id, ((∃ point ∈ points, point.objectId = id) → ∃ node, readvertisedNode = some node ∧ HasSource node id) →
        sourceRoutes'.get id = sourceRoutes.get id := by
  induction points generalizing sourceRoutes with
  | nil => exact ⟨sourceRoutes, rfl, fun _ _ => rfl⟩
  | cons point points ih =>
    obtain ⟨sourceRoutes₁, hfirst, hkept₁⟩ := forgetRoute_ok harrays sourceRoutes point
    obtain ⟨sourceRoutes', hrest, hkept⟩ := ih sourceRoutes₁
    refine ⟨sourceRoutes', ?_, fun id hid => ?_⟩
    · rw [List.foldlM_cons, hfirst]
      exact hrest
    · rw [hkept id fun ⟨other, hother, hotherId⟩ => hid ⟨other, List.mem_cons_of_mem _ hother, hotherId⟩]
      exact hkept₁ id fun heq => hid ⟨point, List.mem_cons_self, heq.symm⟩

/-- What deregistering the nodes with the given ids does: only nodes and routes change, the nodes are gone, and the routes of all other sources, and of those advertised again, are kept. -/
structure Deregistered (r : RuleBasedIoRouter Props Rate) (readvertisedNode : Option (IoNode Props Rate))
    (objectIds : List Uuid) (r' : RuleBasedIoRouter Props Rate) : Prop where
  frame : { r with managedIoNodes := r'.managedIoNodes, sourceRoutes := r'.sourceRoutes } = r'
  managed : ∀ id, r'.managedIoNodes.get id = if id ∈ objectIds then none else r.managedIoNodes.get id
  routes_kept : ∀ sourceId,
    (∀ id ∈ objectIds, ∀ node, r.managedIoNodes.get id = some node → HasSource node sourceId →
      ∃ node', readvertisedNode = some node' ∧ HasSource node' sourceId) →
    r'.sourceRoutes.get sourceId = r.sourceRoutes.get sourceId

theorem deregisterNode_ok {r : RuleBasedIoRouter Props Rate} (hwf : r.WellFormed)
    {readvertisedNode : Option (IoNode Props Rate)}
    (harrays : ∀ node, readvertisedNode = some node → node.ioSources.isSome = true)
    (deregisteredNodes : List (IoNode Props Rate)) (id : Uuid) :
    ∃ r' deregisteredNodes', deregisterNode readvertisedNode (r, deregisteredNodes) id = .ok (r', deregisteredNodes') ∧
      Deregistered r readvertisedNode [id] r' ∧
      (deregisteredNodes' = [] ↔ deregisteredNodes = [] ∧
        (readvertisedNode.isSome = true ∨ r.managedIoNodes.get id = none)) := by
  rw [deregisterNode]
  cases hnode : r.managedIoNodes.get id with
  | none =>
    refine ⟨r, deregisteredNodes, rfl, ⟨rfl, fun id' => ?_, fun _ _ => rfl⟩, by simp⟩
    simp only [List.mem_singleton]
    by_cases heq : id' = id
    · rw [if_pos heq, heq, hnode]
    · rw [if_neg heq]
  | some node =>
    obtain ⟨ioSources, hioSources⟩ := Option.isSome_iff_exists.mp (hwf.arrays id node hnode).1
    obtain ⟨sourceRoutes, hforget, hkept⟩ := foldlM_forgetRoute_ok harrays ioSources r.sourceRoutes
    refine ⟨{ r with managedIoNodes := r.managedIoNodes.delete id, sourceRoutes },
      if readvertisedNode.isSome then deregisteredNodes else deregisteredNodes ++ [node], ?_, ⟨rfl, ?_, ?_⟩, ?_⟩
    · simp only [hioSources, defined]
      show (ioSources.foldlM (forgetRoute readvertisedNode) r.sourceRoutes >>= _) = _
      rw [hforget]
      rfl
    · intro id'
      simp only [List.mem_singleton]
      exact Map.get_delete _ _ _
    · intro sourceId hreadvertised
      apply hkept
      rintro ⟨point, hpoint, hpointId⟩
      apply hreadvertised id (List.mem_singleton_self id) node hnode
      refine ⟨point, ?_, hpointId⟩
      rw [IoNode.sources, hioSources]
      exact hpoint
    · cases readvertisedNode with
      | none => simp
      | some node' => simp

theorem Deregistered.wellFormed {r r' : RuleBasedIoRouter Props Rate} {readvertisedNode : Option (IoNode Props Rate)}
    {objectIds : List Uuid} (h : Deregistered r readvertisedNode objectIds r') (hwf : r.WellFormed) :
    r'.WellFormed := by
  have hmanaged : ∀ id node, r'.managedIoNodes.get id = some node → r.managedIoNodes.get id = some node := by
    intro id node hnode
    rw [h.managed] at hnode
    split at hnode
    · cases hnode
    · exact hnode
  refine ⟨?_, ?_, ?_⟩
  · intro id node hnode
    exact hwf.ids id node (hmanaged id node hnode)
  · intro id node hnode
    exact hwf.arrays id node (hmanaged id node hnode)
  · rw [← h.frame]
    exact hwf.rules

theorem foldlM_deregisterNode_ok {readvertisedNode : Option (IoNode Props Rate)}
    (harrays : ∀ node, readvertisedNode = some node → node.ioSources.isSome = true) (objectIds : List Uuid)
    {r : RuleBasedIoRouter Props Rate} (hwf : r.WellFormed) (deregisteredNodes : List (IoNode Props Rate)) :
    ∃ r' deregisteredNodes',
      objectIds.foldlM (deregisterNode readvertisedNode) (r, deregisteredNodes) = .ok (r', deregisteredNodes') ∧
      Deregistered r readvertisedNode objectIds r' ∧
      (deregisteredNodes' = [] ↔ deregisteredNodes = [] ∧
        (readvertisedNode.isSome = true ∨ ∀ id ∈ objectIds, r.managedIoNodes.get id = none)) := by
  induction objectIds generalizing r deregisteredNodes with
  | nil =>
    refine ⟨r, deregisteredNodes, rfl, ⟨rfl, ?_, fun _ _ => rfl⟩, by simp⟩
    simp
  | cons id objectIds ih =>
    obtain ⟨r₁, nodes₁, hfirst, hr₁, hnodes₁⟩ := deregisterNode_ok hwf harrays deregisteredNodes id
    obtain ⟨r', nodes', hrest, hr', hnodes'⟩ := ih (hr₁.wellFormed hwf) nodes₁
    refine ⟨r', nodes', ?_, ⟨?_, ?_, ?_⟩, ?_⟩
    · rw [List.foldlM_cons, hfirst]
      exact hrest
    · rw [← hr'.frame, ← hr₁.frame]
    · intro id'
      rw [hr'.managed, hr₁.managed]
      simp only [List.mem_cons]
      by_cases hfirst : id' = id
      · simp [hfirst]
      · simp [hfirst]
    · intro sourceId hreadvertised
      rw [hr'.routes_kept, hr₁.routes_kept]
      · intro id' hid'
        rw [List.mem_singleton] at hid'
        subst hid'
        exact hreadvertised id' List.mem_cons_self
      · intro id' hid' node hnode
        apply hreadvertised id' (List.mem_cons_of_mem _ hid') node
        rw [hr₁.managed] at hnode
        split at hnode
        · cases hnode
        · exact hnode
    · rw [hnodes', hnodes₁]
      cases hreadvertised : readvertisedNode.isSome with
      | true => simp
      | false =>
        simp only [Bool.false_eq_true, false_or, List.forall_mem_cons, and_assoc]
        refine and_congr_right fun _ => and_congr_right fun hid => ?_
        apply forall_congr'
        intro id'
        rw [hr₁.managed]
        simp only [List.mem_singleton]
        by_cases heq : id' = id
        · simp [heq, hid]
        · simp [heq]

/-! ### Bringing the router up to date -/

variable [LinearOrder Rate]

/-- The router before it evaluates the rules in reaction to an event: all but its associations is up to date, and the routes of the remaining sources are kept. -/
structure Prepared (r : RuleBasedIoRouter Props Rate) (event : Event Props Rate) (r₀ : RuleBasedIoRouter Props Rate) :
    Prop where
  routing : r₀.routing = r.routing.step event
  wellFormed : r₀.WellFormed
  currentAssociations : r₀.currentAssociations = r.currentAssociations
  published : r₀.published = r.published
  routes_kept : r.routing.UniquePoints → ∀ sourceId, r₀.routing.HasSource sourceId →
    r₀.sourceRoutes.get sourceId = r.sourceRoutes.get sourceId

omit [LinearOrder Rate] in
theorem eq_of_hasSource {r : RuleBasedIoRouter Props Rate} (hwf : r.WellFormed) (hunique : r.routing.UniquePoints)
    {sourceId id id' : Uuid} {node node' : IoNode Props Rate} (hnode : r.managedIoNodes.get id = some node)
    (hnode' : r.managedIoNodes.get id' = some node') (hsource : HasSource node sourceId)
    (hsource' : HasSource node' sourceId) : id = id' := by
  obtain ⟨source, hmem, hid⟩ := hsource
  obtain ⟨source', hmem', hid'⟩ := hsource'
  have heq := (hunique.sources node node' source source' ⟨id, hnode⟩ ⟨id', hnode'⟩ hmem hmem'
    (hid.trans hid'.symm)).2
  rw [← hwf.ids id node hnode, ← hwf.ids id' node' hnode', heq]

omit [LinearOrder Rate] in
/-- Deregistered nodes do not take the route of a source that remains with them. -/
theorem Deregistered.routes_kept_of_hasSource {r r' : RuleBasedIoRouter Props Rate} {objectIds : List Uuid}
    (h : Deregistered r none objectIds r') (hwf : r.WellFormed) (hunique : r.routing.UniquePoints) {sourceId : Uuid}
    (hsource : r'.routing.HasSource sourceId) : r'.sourceRoutes.get sourceId = r.sourceRoutes.get sourceId := by
  obtain ⟨node', ⟨id', hnode'⟩, hsource'⟩ := hsource
  change r'.managedIoNodes.get id' = some node' at hnode'
  rw [h.managed] at hnode'
  apply h.routes_kept
  intro id hid node hnode hnodeSource
  split at hnode'
  · cases hnode'
  · rename_i hremains
    have heq : id = id' := eq_of_hasSource hwf hunique hnode hnode' hnodeSource hsource'
    exact absurd (heq ▸ hid) hremains

omit [LinearOrder Rate] in
theorem Deregistered.routing {r r' : RuleBasedIoRouter Props Rate} {readvertisedNode : Option (IoNode Props Rate)}
    {objectIds : List Uuid} (h : Deregistered r readvertisedNode objectIds r') :
    r'.routing = r.routing.removeNodes objectIds := by
  have hnodes : r'.managedIoNodes.get = fun id => if id ∈ objectIds then none else r.managedIoNodes.get id :=
    funext h.managed
  rw [RuleBasedIoRouter.routing, hnodes, ← h.frame]
  rfl

theorem ioNodesDeadvertised_cases {r : RuleBasedIoRouter Props Rate} (hwf : r.WellFormed) (objectIds : List Uuid) :
    ∃ r₀, Deregistered r none objectIds r₀ ∧
      (r.ioNodesDeadvertised objectIds none = r₀.evaluateRules ∨
        r.ioNodesDeadvertised objectIds none = .ok r₀ ∧ r₀.routing = r.routing) := by
  have hnone : ∀ node : IoNode Props Rate, none = some node → node.ioSources.isSome = true := nofun
  obtain ⟨r₀, nodes, hok, hr₀, hnodes⟩ := foldlM_deregisterNode_ok hnone objectIds hwf []
  refine ⟨r₀, hr₀, ?_⟩
  have hbind : r.ioNodesDeadvertised objectIds none
      = if nodes.length > 0 then r₀.evaluateRules else .ok r₀ := by
    rw [ioNodesDeadvertised, hok]
    rfl
  rw [hbind]
  by_cases hlength : nodes.length > 0
  · rw [if_pos hlength]
    exact Or.inl rfl
  · rw [if_neg hlength]
    right
    refine ⟨rfl, ?_⟩
    have hnone := (hnodes.mp (List.length_eq_zero_iff.mp (by omega))).2
    rw [hr₀.routing, Routing.removeNodes]
    have hget : (fun id => if id ∈ objectIds then none else r.routing.nodes id) = r.routing.nodes := by
      funext id
      by_cases hid : id ∈ objectIds
      · rw [if_pos hid]
        exact ((hnone.resolve_left nofun) id hid).symm
      · rw [if_neg hid]
    rw [hget]

omit [LinearOrder Rate] in
theorem isDeadvertise_iff {node : IoNode Props Rate} :
    isDeadvertise node = true ↔ node.sources = [] ∧ node.actors = [] := by
  rw [isDeadvertise, Bool.and_eq_true, List.isEmpty_iff, List.isEmpty_iff, IoNode.sources, IoNode.actors]

omit [LinearOrder Rate] in
theorem removeNodes_singleton (t : Routing Props Rate) (id : Uuid) : t.removeNodes [id] = t.setNode id none := by
  rw [Routing.removeNodes, Routing.setNode]
  simp only [List.mem_singleton]

theorem ioNodeAdvertised_register {r : RuleBasedIoRouter Props Rate} (hwf : r.WellFormed) {node : IoNode Props Rate}
    (harrays : node.ioSources.isSome = true ∧ node.ioActors.isSome = true) (hpoints : ¬ isDeadvertise node = true) :
    ∃ r₀ : RuleBasedIoRouter Props Rate, r.ioNodeAdvertised node = r₀.evaluateRules ∧
      r₀.routing = r.routing.setNode node.objectId (some node) ∧ r₀.WellFormed ∧
      r₀.currentAssociations = r.currentAssociations ∧ r₀.published = r.published ∧
      (r.routing.UniquePoints → ∀ sourceId, r₀.routing.HasSource sourceId →
        r₀.sourceRoutes.get sourceId = r.sourceRoutes.get sourceId) := by
  have hreadvertised : ∀ node', some node = some node' → node'.ioSources.isSome = true := by
    intro node' heq
    cases heq
    exact harrays.1
  obtain ⟨r₁, nodes, hok, hr₁, hnodes⟩ := foldlM_deregisterNode_ok hreadvertised [node.objectId] hwf []
  have hnodes : nodes = [] := hnodes.mpr ⟨rfl, Or.inl rfl⟩
  subst hnodes
  have hmanaged : ∀ id, (r₁.managedIoNodes.set node.objectId node).get id
      = if id = node.objectId then some node else r.managedIoNodes.get id := by
    intro id
    rw [Map.get_set, hr₁.managed]
    simp only [List.mem_singleton]
    split <;> rfl
  refine ⟨{ r₁ with managedIoNodes := r₁.managedIoNodes.set node.objectId node }, ?_, ?_, ?_, ?_, ?_, ?_⟩
  · rw [ioNodeAdvertised, ioNodesDeadvertised, if_neg hpoints, hok]
    show (if isDeadvertise node = true then _ else _) = _
    rw [if_neg hpoints]
  · rw [routing, Routing.setNode]
    have hnodes : (r₁.managedIoNodes.set node.objectId node).get
        = fun id => if id = node.objectId then some node else r.managedIoNodes.get id := funext hmanaged
    dsimp only
    rw [hnodes, ← hr₁.frame]
    rfl
  · refine ⟨?_, ?_, (hr₁.wellFormed hwf).rules⟩
    · intro id other hother
      rw [hmanaged] at hother
      split at hother
      · rename_i hid
        cases hother
        exact hid.symm
      · exact hwf.ids id other hother
    · intro id other hother
      rw [hmanaged] at hother
      split at hother
      · cases hother
        exact harrays
      · exact hwf.arrays id other hother
  · rw [← hr₁.frame]
  · rw [← hr₁.frame]
  · rintro hunique sourceId ⟨other, ⟨id, hother⟩, hsource⟩
    change (r₁.managedIoNodes.set node.objectId node).get id = some other at hother
    rw [hmanaged] at hother
    apply hr₁.routes_kept
    intro id' hid' previous hprevious hpreviousSource
    rw [List.mem_singleton] at hid'
    split at hother
    · cases hother
      exact ⟨node, rfl, hsource⟩
    · rename_i hne
      have heq : id = id' := eq_of_hasSource hwf hunique hother hprevious hsource hpreviousSource
      exact absurd (heq.trans hid') hne

/-! ### Registering rules -/

omit [LinearOrder Rate] in
theorem foldl_registerRule (rules : List (IoAssociationRule Props Rate))
    {m : Map Text (List (IoAssociationRule Props Rate))} (hm : ∀ valueType, m.get valueType ≠ some [])
    (valueType : Text) :
    (rules.foldl registerRule m).get valueType ≠ some [] ∧
      ((rules.foldl registerRule m).get valueType).getD [] = (m.get valueType).getD [] ++
        rules.filter fun rule => rule.condition.isSome && rule.valueType.getD [] = valueType := by
  induction rules generalizing m with
  | nil =>
    rw [List.foldl_nil, List.filter_nil, List.append_nil]
    exact ⟨hm valueType, rfl⟩
  | cons rule rules ih =>
    rw [List.foldl_cons]
    cases hcondition : rule.condition with
    | none =>
      have hregister : registerRule m rule = m := by rw [registerRule, hcondition]; rfl
      rw [hregister, List.filter_cons_of_neg (by simp [hcondition])]
      exact ih hm
    | some condition =>
      have hregister : registerRule m rule
          = m.set (rule.valueType.getD []) ((m.get (rule.valueType.getD [])).getD [] ++ [rule]) := by
        rw [registerRule, hcondition]
        rfl
      have hset : ∀ valueType, (registerRule m rule).get valueType
          = if valueType = rule.valueType.getD [] then some ((m.get valueType).getD [] ++ [rule])
            else m.get valueType := by
        intro valueType
        rw [hregister, Map.get_set]
        split
        · rename_i heq
          rw [heq]
        · rfl
      have hnonempty : ∀ valueType, (registerRule m rule).get valueType ≠ some [] := by
        intro valueType
        rw [hset]
        split
        · simp
        · exact hm valueType
      obtain ⟨hne, hget⟩ := ih hnonempty
      refine ⟨hne, ?_⟩
      rw [hget, hset]
      by_cases hvalueType : valueType = rule.valueType.getD []
      · rw [if_pos hvalueType, List.filter_cons_of_pos (by simp [hcondition, hvalueType]), Option.getD_some,
          List.append_assoc, List.singleton_append]
      · rw [if_neg hvalueType, List.filter_cons_of_neg (by simp [Ne.symm hvalueType])]

/-! ### One step -/

/-- Every reaction to an event is that of a router that is up to date and evaluates the rules, unless nothing has changed. -/
theorem step_cases {r : RuleBasedIoRouter Props Rate} (hwf : r.WellFormed) {event : Event Props Rate}
    (henabled : r.routing.Enabled event) :
    ∃ r₀, Prepared r event r₀ ∧
      (r.step event = r₀.evaluateRules ∨ r.step event = .ok r₀ ∧ r₀.routing = r.routing) := by
  cases event with
  | advertise node =>
    by_cases hname : node.name = r.ioContext.name
    · have hstep : r.step (.advertise node) = r.ioNodeAdvertised node := if_pos hname
      have hspec : r.routing.step (.advertise node) = r.routing.setNode node.objectId
          (if node.sources = [] ∧ node.actors = [] then none else some node) := if_pos hname
      rw [hstep]
      by_cases hpoints : isDeadvertise node = true
      · obtain ⟨r₀, hr₀, hcases⟩ := ioNodesDeadvertised_cases hwf [node.objectId]
        have hbind : r.ioNodeAdvertised node = r.ioNodesDeadvertised [node.objectId] none := by
          rw [ioNodeAdvertised, if_pos hpoints]
          simp only [if_pos hpoints]
          exact bind_pure _
        rw [hbind]
        refine ⟨r₀, ⟨?_, hr₀.wellFormed hwf, ?_, ?_, ?_⟩, hcases⟩
        · rw [hspec, if_pos (isDeadvertise_iff.mp hpoints), hr₀.routing, removeNodes_singleton]
        · rw [← hr₀.frame]
        · rw [← hr₀.frame]
        · intro hunique sourceId hsource
          exact hr₀.routes_kept_of_hasSource hwf hunique hsource
      · obtain ⟨r₀, hok, hrouting, hwf₀, hcurrent, hpublished, hroutes⟩ :=
          ioNodeAdvertised_register hwf (henabled.1 node rfl) hpoints
        refine ⟨r₀, ⟨?_, hwf₀, hcurrent, hpublished, hroutes⟩, Or.inl hok⟩
        rw [hspec, if_neg (isDeadvertise_iff.not.mp hpoints), hrouting]
    · have hstep : r.step (.advertise node) = .ok r := if_neg hname
      have hspec : r.routing.step (.advertise node) = r.routing := if_neg hname
      exact ⟨r, ⟨hspec.symm, hwf, rfl, rfl, fun _ _ _ => rfl⟩, Or.inr ⟨hstep, rfl⟩⟩
  | deadvertise objectIds =>
    obtain ⟨r₀, hr₀, hcases⟩ := ioNodesDeadvertised_cases hwf objectIds
    refine ⟨r₀, ⟨hr₀.routing, hr₀.wellFormed hwf, ?_, ?_, ?_⟩, hcases⟩
    · rw [← hr₀.frame]
    · rw [← hr₀.frame]
    · intro hunique sourceId hsource
      exact hr₀.routes_kept_of_hasSource hwf hunique hsource
  | updateContext ioContext =>
    by_cases hid : ioContext.objectId = r.ioContext.objectId
    · have hstep : r.step (.updateContext ioContext)
          = evaluateRules { r with ioContext := { ioContext with parentObjectId := some r.identity } } := if_pos hid
      have hspec : r.routing.step (.updateContext ioContext)
          = { r.routing with ioContext := { ioContext with parentObjectId := some r.identity } } := if_pos hid
      exact ⟨{ r with ioContext := { ioContext with parentObjectId := some r.identity } },
        ⟨hspec.symm, ⟨hwf.ids, hwf.arrays, hwf.rules⟩, rfl, rfl, fun _ _ _ => rfl⟩, Or.inl hstep⟩
    · have hstep : r.step (.updateContext ioContext) = .ok r := if_neg hid
      have hspec : r.routing.step (.updateContext ioContext) = r.routing := if_neg hid
      exact ⟨r, ⟨hspec.symm, hwf, rfl, rfl, fun _ _ _ => rfl⟩, Or.inr ⟨hstep, rfl⟩⟩
  | defineRules rules =>
    have hrules := foldl_registerRule rules (m := Map.empty) nofun
    refine ⟨{ r with rules := rules.foldl registerRule Map.empty },
      ⟨?_, ⟨hwf.ids, hwf.arrays, fun valueType => (hrules valueType).1⟩, rfl, rfl, fun _ _ _ => rfl⟩, Or.inl rfl⟩
    have hget : (fun valueType => ((rules.foldl registerRule Map.empty).get valueType).getD [])
        = fun valueType => rules.filter fun rule => rule.condition.isSome && rule.valueType.getD [] = valueType := by
      funext valueType
      rw [(hrules valueType).2]
      rfl
    show Routing.mk _ _ _ _ = _
    rw [hget]
    rfl

/-- Either the router acts on the table of the pairs routed now, or nothing has changed. -/
inductive Stepped (r : RuleBasedIoRouter Props Rate) (event : Event Props Rate) (r' : RuleBasedIoRouter Props Rate) :
    Prop where
  | acted (r₀ : RuleBasedIoRouter Props Rate) (t : IoAssociationPairs Props Rate)
      (new : List (IoAssociation Props Rate)) (hprepared : Prepared r event r₀)
      (hresolved : r₀.routing.ResolvedBy t) (hacted : Acted r₀ t new r')
  | unchanged (hprepared : Prepared r event r') (hrouting : r'.routing = r.routing)

theorem step_ok {r : RuleBasedIoRouter Props Rate} (hwf : r.WellFormed)
    (hnodup : (r.currentAssociations.map IoAssociation.ids).Nodup) {event : Event Props Rate}
    (henabled : r.routing.Enabled event) : ∃ r', r.step event = .ok r' ∧ Stepped r event r' := by
  obtain ⟨r₀, hprepared, hcases⟩ := step_cases hwf henabled
  rcases hcases with hstep | ⟨hstep, hrouting⟩
  · have hunique : r₀.routing.UniquePoints := by
      rw [hprepared.routing]
      exact henabled.2
    obtain ⟨t, hok, hresolved⟩ := evaluateRules_ok hprepared.wellFormed hunique
    have hids : ∀ k l info, t.getAt k l = some info → info.ids = (k, l) := by
      intro k l info hinfo
      obtain ⟨hsource, hactor, _⟩ := hresolved.sound k l info hinfo
      exact Prod.ext hsource hactor
    obtain ⟨new, hacted⟩ := acted_act (r := r₀) (hprepared.currentAssociations ▸ hnodup) hids
    exact ⟨r₀.act t, hstep.trans hok, .acted r₀ t new hprepared hresolved hacted⟩
  · exact ⟨r₀, hstep, .unchanged hprepared hrouting⟩

omit [LinearOrder Rate] in
theorem Performed.routing {r r' : RuleBasedIoRouter Props Rate} {changes : List (Change Props Rate)}
    (h : Performed r changes r') : r'.routing = r.routing := by
  rw [← h.frame]
  rfl

omit [LinearOrder Rate] in
theorem Performed.wellFormed {r r' : RuleBasedIoRouter Props Rate} {changes : List (Change Props Rate)}
    (h : Performed r changes r') (hwf : r.WellFormed) : r'.WellFormed := by
  rw [← h.frame]
  exact ⟨hwf.ids, hwf.arrays, hwf.rules⟩

theorem Acted.routing {r r' : RuleBasedIoRouter Props Rate} {t : IoAssociationPairs Props Rate}
    {new : List (IoAssociation Props Rate)} (h : Acted r t new r') : r'.routing = r.routing :=
  h.performed.routing

theorem Acted.wellFormed {r r' : RuleBasedIoRouter Props Rate} {t : IoAssociationPairs Props Rate}
    {new : List (IoAssociation Props Rate)} (h : Acted r t new r') (hwf : r.WellFormed) : r'.WellFormed :=
  h.performed.wellFormed ⟨hwf.ids, hwf.arrays, hwf.rules⟩

/-- A router that does what the abstract routing asks for. -/
structure Refines (r : RuleBasedIoRouter Props Rate) (t : Routing Props Rate) : Prop where
  routing : r.routing = t
  wellFormed : r.WellFormed
  unique : t.UniquePoints
  exact : t.Exact r.currentAssociations

theorem Stepped.refines {r r' : RuleBasedIoRouter Props Rate} {event : Event Props Rate} (h : Stepped r event r')
    {t : Routing Props Rate} (hr : Refines r t) (henabled : t.Enabled event) : Refines r' (t.step event) := by
  have hrouting := hr.routing
  subst hrouting
  cases h with
  | acted r₀ t new hprepared hresolved hacted =>
    have hrouting : r'.routing = r.routing.step event := hacted.routing.trans hprepared.routing
    refine ⟨hrouting, hacted.wellFormed hprepared.wellFormed, henabled.2, ?_⟩
    apply hacted.exact
    · rw [hprepared.currentAssociations]
      exact hr.exact.nodup
    · rw [← hprepared.routing]
      exact hresolved
  | unchanged hprepared hrouting =>
    refine ⟨hprepared.routing, hprepared.wellFormed, henabled.2, ?_⟩
    rw [hprepared.currentAssociations, ← hprepared.routing, hrouting]
    exact hr.exact

theorem refines_init (identity : Uuid) (createIoRoute : Uuid → IoRoute) (ioContext : IoContext Props) :
    Refines (init identity createIoRoute ioContext : RuleBasedIoRouter Props Rate)
      (init identity createIoRoute ioContext).routing := by
  have hmanaged : ∀ node : IoNode Props Rate, ¬ (init identity createIoRoute ioContext).routing.Managed node := by
    intro node ⟨id, hnode⟩
    cases hnode
  refine ⟨rfl, ⟨nofun, nofun, nofun⟩, ⟨?_, ?_⟩, ⟨List.nodup_nil, ?_, nofun⟩⟩
  · intro node _ _ _ hnode
    exact absurd hnode (hmanaged node)
  · intro node _ _ _ hnode
    exact absurd hnode (hmanaged node)
  · intro source actor
    constructor
    · intro ⟨x, hx, _⟩
      cases hx
    · intro ⟨sourceNode, _, hrouted⟩
      exact absurd hrouted.sourceNode_managed (hmanaged sourceNode)

theorem step_refines {r : RuleBasedIoRouter Props Rate} {t : Routing Props Rate} (hr : Refines r t)
    {event : Event Props Rate} (henabled : t.Enabled event) :
    ∃ r', r.step event = .ok r' ∧ Refines r' (t.step event) := by
  have hrouting := hr.routing
  subst hrouting
  obtain ⟨r', hok, hstepped⟩ := step_ok hr.wellFormed hr.exact.nodup henabled
  exact ⟨r', hok, hstepped.refines hr henabled⟩

/-! ### Whole runs -/

/-- After every run whose nodes carry both arrays and whose points stay unique, the current associations are exactly the routed pairs, each once and with the maximum of the rates defined for its source. -/
theorem currentAssociations_exact (identity : Uuid) (createIoRoute : Uuid → IoRoute) (ioContext : IoContext Props)
    (events : List (Event Props Rate))
    (henabled : Along Routing.step Routing.Enabled (init identity createIoRoute ioContext).routing events) :
    ∃ r, events.foldlM step (init identity createIoRoute ioContext) = .ok r ∧
      r.routing = events.foldl Routing.step (init identity createIoRoute ioContext).routing ∧
      r.routing.Exact r.currentAssociations := by
  have hstep : ∀ (r : RuleBasedIoRouter Props Rate) (t : Routing Props Rate) (event : Event Props Rate),
      Refines r t → t.Enabled event → ∃ r', r.step event = .ok r' ∧ Refines r' (t.step event) :=
    fun _ _ _ hr henabled => step_refines hr henabled
  obtain ⟨r, hok, hr⟩ := Along.simulates hstep henabled (refines_init identity createIoRoute ioContext)
  refine ⟨r, hok, hr.routing, ?_⟩
  rw [hr.routing]
  exact hr.exact

/-- A node with a thermometer and a display for its values. -/
def thermometerNode : IoNode Unit Nat where
  objectId := nodeId
  name := text "room"
  ioSources := some [⟨thermometerId, text "celsius", none, some 500, none, ()⟩]
  ioActors := some [⟨displayId, text "celsius", none, some 1000, none, ()⟩]
  properties := ()

def roomContext : IoContext Unit := ⟨⟨text "context", by decide⟩, text "room", none, ()⟩

def createRoomRoute (sourceId : Uuid) : IoRoute := sourceId

/-- A global rule that matches every pair. -/
def anyPair : IoAssociationRule Unit Nat := ⟨none, some fun _ _ _ _ _ => .ok true⟩

omit [LinearOrder Rate] in
theorem uniquePoints_of_single {t : Routing Props Rate} {node : IoNode Props Rate}
    (hnode : ∀ other, t.Managed other → other = node) (hsources : (node.sources.map IoPoint.objectId).Nodup)
    (hactors : (node.actors.map IoPoint.objectId).Nodup) : t.UniquePoints := by
  refine ⟨?_, ?_⟩
  · intro node₁ node₂ source source' hnode₁ hnode₂ hsource hsource' hid
    cases hnode node₁ hnode₁
    cases hnode node₂ hnode₂
    exact ⟨List.inj_on_of_nodup_map hsources hsource hsource' hid, rfl⟩
  · intro node₁ node₂ actor actor' hnode₁ hnode₂ hactor hactor' hid
    cases hnode node₁ hnode₁
    cases hnode node₂ hnode₂
    exact ⟨List.inj_on_of_nodup_map hactors hactor hactor' hid, rfl⟩

theorem currentAssociations_exact_thermometerNode :
    ∃ r, [.advertise thermometerNode, .defineRules [anyPair]].foldlM step
        (init ⟨text "router", by decide⟩ createRoomRoute roomContext) = .ok r ∧
      r.routing = [.advertise thermometerNode, .defineRules [anyPair]].foldl Routing.step
        (init ⟨text "router", by decide⟩ createRoomRoute roomContext).routing ∧
      r.routing.Exact r.currentAssociations := by
  have hmanaged : ∀ node : IoNode Unit Nat,
      ((init ⟨text "router", by decide⟩ createRoomRoute roomContext).routing.step
        (.advertise thermometerNode)).Managed node → node = thermometerNode := by
    intro node ⟨id, hnode⟩
    change (if id = thermometerNode.objectId then some thermometerNode else none) = some node at hnode
    split at hnode
    · exact (Option.some.inj hnode).symm
    · cases hnode
  refine currentAssociations_exact _ _ _ _ ⟨⟨?_, uniquePoints_of_single hmanaged (by decide) (by decide)⟩,
    ⟨nofun, uniquePoints_of_single hmanaged (by decide) (by decide)⟩, trivial⟩
  intro node hnode
  cases hnode
  exact ⟨rfl, rfl⟩

end RuleBasedIoRouter

end Coaty
