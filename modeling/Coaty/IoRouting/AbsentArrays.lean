import Coaty.IoRouting.Exactness
import Coaty.Model.IoNodeData
import Mathlib.Algebra.Order.Ring.Unbundled.Rat

/-!
# IO nodes without an array

An IO node may lack an array of points. The router that is wanted takes it for an empty one and never fails. The router of the code goes the same way as long as every node that it comes to manage carries both arrays. It fails on the first one that does not, and has managed it by then.
-/

namespace Coaty

open Js Transition

variable {Props Rate : Type}

/-! ### The router that takes an absent array for an empty one -/

namespace TolerantIoRouter

open RuleBasedIoRouter

def collectIoPoints (maps : IoPointMaps Props Rate) (node : IoNode Props Rate) : IoPointMaps Props Rate :=
  (node.sources.foldl (fun sources source => sources.set source.objectId (source, node)) maps.1,
    node.actors.foldl (fun actors actor => actors.set actor.objectId (actor, node)) maps.2)

variable (r : RuleBasedIoRouter Props Rate)

def getCompatibleAssociations : List (IoCompatibleAssociation Props Rate) :=
  let (sources, actors) := r.managedIoNodes.values.foldl collectIoPoints (Map.empty, Map.empty)
  sources.values.flatMap fun (source, sourceNode) =>
    actors.values.filterMap fun (actor, actorNode) =>
      if areValueTypesCompatible source actor then some { source, sourceNode, actor, actorNode } else none

def forgetRoute (readvertisedNode : Option (IoNode Props Rate)) (sourceRoutes : Map Uuid (IoRoute × Bool))
    (point : IoSource Props Rate) : Map Uuid (IoRoute × Bool) :=
  if readvertisedNode.any fun node => node.sources.any fun p => p.objectId = point.objectId then sourceRoutes
  else sourceRoutes.delete point.objectId

def deregisterNode (readvertisedNode : Option (IoNode Props Rate))
    (state : RuleBasedIoRouter Props Rate × List (IoNode Props Rate)) (id : Uuid) :
    RuleBasedIoRouter Props Rate × List (IoNode Props Rate) :=
  let (r, deregisteredNodes) := state
  match r.managedIoNodes.get id with
  | none => (r, deregisteredNodes)
  | some deregisteredNode =>
    ({ r with
        managedIoNodes := r.managedIoNodes.delete id
        sourceRoutes := deregisteredNode.sources.foldl (forgetRoute readvertisedNode) r.sourceRoutes },
      if readvertisedNode.isSome then deregisteredNodes else deregisteredNodes ++ [deregisteredNode])

variable [LinearOrder Rate]

def evaluateRules : RuleBasedIoRouter Props Rate := r.act (resolve (r.matchRules (getCompatibleAssociations r)))

def ioNodesDeadvertised (objectIds : List Uuid) (readvertisedNode : Option (IoNode Props Rate)) :
    RuleBasedIoRouter Props Rate :=
  let (r, deregisteredNodes) := objectIds.foldl (deregisterNode readvertisedNode) (r, [])
  if deregisteredNodes.length > 0 then evaluateRules r else r

def ioNodeAdvertised (node : IoNode Props Rate) : RuleBasedIoRouter Props Rate :=
  if isDeadvertise node then ioNodesDeadvertised r [node.objectId] none
  else
    let r := ioNodesDeadvertised r [node.objectId] (some node)
    evaluateRules { r with managedIoNodes := r.managedIoNodes.set node.objectId node }

def step (r : RuleBasedIoRouter Props Rate) : Event Props Rate → RuleBasedIoRouter Props Rate
  | .advertise node => if node.name = r.ioContext.name then ioNodeAdvertised r node else r
  | .deadvertise objectIds => ioNodesDeadvertised r objectIds none
  | .updateContext ioContext =>
    if ioContext.objectId = r.ioContext.objectId then
      evaluateRules { r with ioContext := { ioContext with parentObjectId := some r.identity } }
    else r
  | .defineRules rules => evaluateRules { r with rules := rules.foldl registerRule Map.empty }

end TolerantIoRouter

/-- Both arrays of points are there, be they empty or not. -/
def IoNode.CarriesArrays (node : IoNode Props Rate) : Prop :=
  node.ioSources.isSome = true ∧ node.ioActors.isSome = true

instance (node : IoNode Props Rate) : Decidable node.CarriesArrays := inferInstanceAs (Decidable (_ ∧ _))

namespace RuleBasedIoRouter

def ArraysCarried (r : RuleBasedIoRouter Props Rate) : Event Props Rate → Prop
  | .advertise node => node.name = r.ioContext.name → isDeadvertise node = false → node.CarriesArrays
  | _ => True

def ManagesArrays (r : RuleBasedIoRouter Props Rate) : Prop :=
  ∀ id node, r.managedIoNodes.get id = some node → node.CarriesArrays

/-! ### With both arrays -/

theorem defined_ioSources {node : IoNode Props Rate} (h : node.ioSources.isSome = true) :
    defined node.ioSources = .ok node.sources := by
  obtain ⟨ioSources, hioSources⟩ := Option.isSome_iff_exists.mp h
  rw [IoNode.sources, hioSources]
  rfl

theorem defined_ioActors {node : IoNode Props Rate} (h : node.ioActors.isSome = true) :
    defined node.ioActors = .ok node.actors := by
  obtain ⟨ioActors, hioActors⟩ := Option.isSome_iff_exists.mp h
  rw [IoNode.actors, hioActors]
  rfl

theorem foldlM_eq_ok {α β : Type} {f : β → α → Except Error β} {g : β → α → β} {xs : List α}
    (h : ∀ acc, ∀ x ∈ xs, f acc x = .ok (g acc x)) (acc : β) : xs.foldlM f acc = .ok (xs.foldl g acc) := by
  induction xs generalizing acc with
  | nil => rfl
  | cons x xs ih =>
    rw [List.foldlM_cons, h acc x List.mem_cons_self]
    exact ih (fun acc' x' hx' => h acc' x' (List.mem_cons_of_mem _ hx')) (g acc x)

theorem getCompatibleAssociations_of_managesArrays {r : RuleBasedIoRouter Props Rate} (h : r.ManagesArrays) :
    r.getCompatibleAssociations = .ok (TolerantIoRouter.getCompatibleAssociations r) := by
  have hcollect : ∀ maps, ∀ node ∈ r.managedIoNodes.values,
      collectIoPoints maps node = .ok (TolerantIoRouter.collectIoPoints maps node) := by
    intro maps node hnode
    obtain ⟨id, hid⟩ := Map.mem_values.mp hnode
    obtain ⟨hsources, hactors⟩ := h id node hid
    rw [collectIoPoints, defined_ioSources hsources, defined_ioActors hactors]
    rfl
  rw [getCompatibleAssociations, foldlM_eq_ok hcollect]
  rfl

theorem forgetRoute_of_carriesArrays {readvertisedNode : Option (IoNode Props Rate)}
    (h : ∀ node, readvertisedNode = some node → node.CarriesArrays) (sourceRoutes : Map Uuid (IoRoute × Bool))
    (point : IoSource Props Rate) :
    forgetRoute readvertisedNode sourceRoutes point
      = .ok (TolerantIoRouter.forgetRoute readvertisedNode sourceRoutes point) := by
  cases readvertisedNode with
  | none => rfl
  | some node =>
    rw [forgetRoute, defined_ioSources (h node rfl).1]
    rfl

theorem deregisterNode_of_carriesArrays {readvertisedNode : Option (IoNode Props Rate)}
    (h : ∀ node, readvertisedNode = some node → node.CarriesArrays) {r : RuleBasedIoRouter Props Rate}
    (hr : r.ManagesArrays) (deregisteredNodes : List (IoNode Props Rate)) (id : Uuid) :
    deregisterNode readvertisedNode (r, deregisteredNodes) id
        = .ok (TolerantIoRouter.deregisterNode readvertisedNode (r, deregisteredNodes) id) ∧
      (TolerantIoRouter.deregisterNode readvertisedNode (r, deregisteredNodes) id).1.ManagesArrays := by
  rw [deregisterNode, TolerantIoRouter.deregisterNode]
  cases hnode : r.managedIoNodes.get id with
  | none => exact ⟨rfl, hr⟩
  | some node =>
    constructor
    · simp only [defined_ioSources (hr id node hnode).1]
      show (node.sources.foldlM (forgetRoute readvertisedNode) r.sourceRoutes >>= _) = _
      rw [foldlM_eq_ok fun sourceRoutes point _ => forgetRoute_of_carriesArrays h sourceRoutes point]
      rfl
    · intro id' node' hnode'
      change (r.managedIoNodes.delete id).get id' = some node' at hnode'
      rw [Map.get_delete] at hnode'
      split at hnode'
      · cases hnode'
      · exact hr id' node' hnode'

theorem foldlM_deregisterNode_of_carriesArrays {readvertisedNode : Option (IoNode Props Rate)}
    (h : ∀ node, readvertisedNode = some node → node.CarriesArrays) (objectIds : List Uuid)
    (state : RuleBasedIoRouter Props Rate × List (IoNode Props Rate)) (hr : state.1.ManagesArrays) :
    objectIds.foldlM (deregisterNode readvertisedNode) state
        = .ok (objectIds.foldl (TolerantIoRouter.deregisterNode readvertisedNode) state) ∧
      (objectIds.foldl (TolerantIoRouter.deregisterNode readvertisedNode) state).1.ManagesArrays := by
  induction objectIds generalizing state with
  | nil => exact ⟨rfl, hr⟩
  | cons id objectIds ih =>
    obtain ⟨hfirst, hmanages⟩ := deregisterNode_of_carriesArrays h hr state.2 id
    rw [List.foldlM_cons, hfirst, List.foldl_cons]
    exact ih _ hmanages

variable [LinearOrder Rate]

omit [LinearOrder Rate] in
theorem managedIoNodes_associate (r : RuleBasedIoRouter Props Rate) (source : IoSource Props Rate)
    (actor : IoActor Props Rate) (updateRate : Option Rate) :
    (r.associate source actor updateRate).managedIoNodes = r.managedIoNodes := by
  have hframe := (performed_perform r (.associate ⟨source, actor, updateRate⟩)).frame
  exact (congrArg managedIoNodes hframe).symm

omit [LinearOrder Rate] in
theorem managedIoNodes_disassociate (r : RuleBasedIoRouter Props Rate) (source : IoSource Props Rate)
    (actor : IoActor Props Rate) : (r.disassociate source actor).managedIoNodes = r.managedIoNodes := by
  have hframe := (performed_perform r (.disassociate ⟨source, actor, none⟩)).frame
  exact (congrArg managedIoNodes hframe).symm

theorem managedIoNodes_foldl_actOnCurrent (associations : List (IoAssociation Props Rate))
    (state : RuleBasedIoRouter Props Rate × IoAssociationPairs Props Rate × List (IoAssociation Props Rate)) :
    (associations.foldl actOnCurrent state).1.managedIoNodes = state.1.managedIoNodes := by
  induction associations generalizing state with
  | nil => rfl
  | cons current associations ih =>
    rw [List.foldl_cons, ih, actOnCurrent]
    split
    · exact managedIoNodes_disassociate _ _ _
    · split
      · exact managedIoNodes_disassociate _ _ _
      · dsimp only
        split
        · rfl
        · exact managedIoNodes_associate _ _ _ _

omit [LinearOrder Rate] in
theorem managedIoNodes_foldl_associate (pairs : List (IoAssociation Props Rate)) (r : RuleBasedIoRouter Props Rate) :
    (pairs.foldl (fun r pair => r.associate pair.source pair.actor pair.updateRate) r).managedIoNodes
      = r.managedIoNodes := by
  induction pairs generalizing r with
  | nil => rfl
  | cons pair pairs ih => rw [List.foldl_cons, ih, managedIoNodes_associate]

theorem managedIoNodes_act (r : RuleBasedIoRouter Props Rate) (resolvedPairs : IoAssociationPairs Props Rate) :
    (r.act resolvedPairs).managedIoNodes = r.managedIoNodes := by
  rw [act]
  exact (managedIoNodes_foldl_associate _ _).trans (managedIoNodes_foldl_actOnCurrent _ _)

theorem evaluateRules_of_managesArrays {r : RuleBasedIoRouter Props Rate} (h : r.ManagesArrays) :
    r.evaluateRules = .ok (TolerantIoRouter.evaluateRules r) ∧ (TolerantIoRouter.evaluateRules r).ManagesArrays := by
  constructor
  · rw [evaluateRules, getCompatibleAssociations_of_managesArrays h]
    rfl
  · intro id node hnode
    rw [TolerantIoRouter.evaluateRules, managedIoNodes_act] at hnode
    exact h id node hnode

theorem ioNodesDeadvertised_of_carriesArrays {r : RuleBasedIoRouter Props Rate} (hr : r.ManagesArrays)
    {readvertisedNode : Option (IoNode Props Rate)} (h : ∀ node, readvertisedNode = some node → node.CarriesArrays)
    (objectIds : List Uuid) :
    r.ioNodesDeadvertised objectIds readvertisedNode
        = .ok (TolerantIoRouter.ioNodesDeadvertised r objectIds readvertisedNode) ∧
      (TolerantIoRouter.ioNodesDeadvertised r objectIds readvertisedNode).ManagesArrays := by
  obtain ⟨hok, hmanages⟩ := foldlM_deregisterNode_of_carriesArrays h objectIds (r, []) hr
  obtain ⟨hevaluate, hmanages'⟩ := evaluateRules_of_managesArrays hmanages
  have hbind : r.ioNodesDeadvertised objectIds readvertisedNode
      = if (objectIds.foldl (TolerantIoRouter.deregisterNode readvertisedNode) (r, [])).2.length > 0 then
          (objectIds.foldl (TolerantIoRouter.deregisterNode readvertisedNode) (r, [])).1.evaluateRules
        else .ok (objectIds.foldl (TolerantIoRouter.deregisterNode readvertisedNode) (r, [])).1 := by
    rw [ioNodesDeadvertised, hok]
    rfl
  rw [hbind, TolerantIoRouter.ioNodesDeadvertised]
  by_cases hlength : (objectIds.foldl (TolerantIoRouter.deregisterNode readvertisedNode) (r, [])).2.length > 0
  · simp only [if_pos hlength]
    exact ⟨hevaluate, hmanages'⟩
  · rw [if_neg hlength]
    simp only [if_neg hlength]
    exact ⟨trivial, hmanages⟩

theorem ioNodeAdvertised_of_carriesArrays {r : RuleBasedIoRouter Props Rate} (hr : r.ManagesArrays)
    {node : IoNode Props Rate} (h : isDeadvertise node = false → node.CarriesArrays) :
    r.ioNodeAdvertised node = .ok (TolerantIoRouter.ioNodeAdvertised r node) ∧
      (TolerantIoRouter.ioNodeAdvertised r node).ManagesArrays := by
  rw [ioNodeAdvertised, TolerantIoRouter.ioNodeAdvertised]
  cases hpoints : isDeadvertise node with
  | true =>
    have hnone : ∀ node : IoNode Props Rate, none = some node → node.CarriesArrays := by simp
    obtain ⟨hok, hmanages⟩ := ioNodesDeadvertised_of_carriesArrays hr hnone [node.objectId]
    simp only [if_pos, hok]
    exact ⟨rfl, hmanages⟩
  | false =>
    have hsome : ∀ node', some node = some node' → node'.CarriesArrays := by
      intro node' heq
      cases heq
      exact h hpoints
    obtain ⟨hok, hmanages⟩ := ioNodesDeadvertised_of_carriesArrays hr hsome [node.objectId]
    simp only [Bool.false_eq_true, if_false, hok]
    apply evaluateRules_of_managesArrays
    intro id other hother
    rw [Map.get_set] at hother
    split at hother
    · cases hother
      exact h hpoints
    · exact hmanages id other hother

theorem step_of_arraysCarried {r : RuleBasedIoRouter Props Rate} (hr : r.ManagesArrays) {event : Event Props Rate}
    (h : r.ArraysCarried event) :
    r.step event = .ok (TolerantIoRouter.step r event) ∧ (TolerantIoRouter.step r event).ManagesArrays := by
  cases event with
  | advertise node =>
    rw [step, TolerantIoRouter.step]
    by_cases hname : node.name = r.ioContext.name
    · simp only [if_pos hname]
      exact ioNodeAdvertised_of_carriesArrays hr (h hname)
    · rw [if_neg hname, if_neg hname]
      exact ⟨rfl, hr⟩
  | deadvertise objectIds =>
    have hnone : ∀ node : IoNode Props Rate, none = some node → node.CarriesArrays := by simp
    exact ioNodesDeadvertised_of_carriesArrays hr hnone objectIds
  | updateContext ioContext =>
    rw [step, TolerantIoRouter.step]
    by_cases hid : ioContext.objectId = r.ioContext.objectId
    · simp only [if_pos hid]
      exact evaluateRules_of_managesArrays hr
    · rw [if_neg hid, if_neg hid]
      exact ⟨rfl, hr⟩
  | defineRules rules => exact evaluateRules_of_managesArrays hr

/-! ### Without one of them -/

omit [LinearOrder Rate] in
theorem collectIoPoints_ne_ok {node : IoNode Props Rate} (h : ¬ node.CarriesArrays) (maps maps' : IoPointMaps Props Rate) :
    collectIoPoints maps node ≠ .ok maps' := by
  intro hok
  apply h
  rw [collectIoPoints] at hok
  cases hioSources : node.ioSources with
  | none =>
    rw [hioSources] at hok
    cases hok
  | some ioSources =>
    cases hioActors : node.ioActors with
    | none =>
      rw [hioSources, hioActors] at hok
      cases hok
    | some ioActors =>
      rw [IoNode.CarriesArrays, hioSources, hioActors]
      exact ⟨rfl, rfl⟩

theorem foldlM_ne_ok {α β : Type} {f : β → α → Except Error β} {x : α} {xs : List α} (hx : x ∈ xs)
    (h : ∀ acc acc', f acc x ≠ .ok acc') (acc acc' : β) : xs.foldlM f acc ≠ .ok acc' := by
  induction xs generalizing acc with
  | nil => cases hx
  | cons first xs ih =>
    intro hok
    rw [List.foldlM_cons] at hok
    cases hfirst : f acc first with
    | error e =>
      rw [hfirst] at hok
      cases hok
    | ok acc₁ =>
      rw [hfirst] at hok
      cases hx with
      | head => exact h acc acc₁ hfirst
      | tail _ hx => exact ih hx acc₁ hok

/-- A managed node without an array blocks every evaluation. -/
theorem evaluateRules_ne_ok {r : RuleBasedIoRouter Props Rate} {id : Uuid} {node : IoNode Props Rate}
    (hnode : r.managedIoNodes.get id = some node) (h : ¬ node.CarriesArrays) (r' : RuleBasedIoRouter Props Rate) :
    r.evaluateRules ≠ .ok r' := by
  intro hok
  rw [evaluateRules, getCompatibleAssociations] at hok
  cases hcollect : r.managedIoNodes.values.foldlM collectIoPoints (Map.empty, Map.empty) with
  | error e =>
    rw [hcollect] at hok
    cases hok
  | ok maps => exact foldlM_ne_ok (Map.mem_values.mpr ⟨id, hnode⟩) (collectIoPoints_ne_ok h) _ maps hcollect

theorem step_ne_ok {r : RuleBasedIoRouter Props Rate} {event : Event Props Rate} (h : ¬ r.ArraysCarried event)
    (r' : RuleBasedIoRouter Props Rate) : r.step event ≠ .ok r' := by
  intro hok
  cases event with
  | advertise node =>
    simp only [ArraysCarried, not_forall] at h
    obtain ⟨hname, hpoints, hnode⟩ := h
    rw [step, if_pos hname, ioNodeAdvertised] at hok
    simp only [hpoints, Bool.false_eq_true, if_false] at hok
    cases hderegistered : r.ioNodesDeadvertised [node.objectId] (some node) with
    | error e =>
      rw [hderegistered] at hok
      cases hok
    | ok r₁ =>
      rw [hderegistered] at hok
      have hmanaged : (r₁.managedIoNodes.set node.objectId node).get node.objectId = some node := by
        rw [Map.get_set, if_pos rfl]
      exact evaluateRules_ne_ok hmanaged hnode r' hok
  | deadvertise objectIds => exact h trivial
  | updateContext ioContext => exact h trivial
  | defineRules rules => exact h trivial

/-! ### Whole runs -/

/-- No step of a run throws, and each leaves the associations that result from taking absent arrays for empty ones, exactly if every node that the router comes to manage carries both arrays. -/
theorem survives_iff_arraysCarried (identity : Uuid) (createIoRoute : Uuid → IoRoute) (ioContext : IoContext Props)
    (events : List (Event Props Rate)) :
    (∀ n, ∃ r, (events.take n).foldlM step (init identity createIoRoute ioContext) = .ok r ∧
        r.currentAssociations =
          ((events.take n).foldl TolerantIoRouter.step (init identity createIoRoute ioContext)).currentAssociations) ↔
      Along TolerantIoRouter.step ArraysCarried (init identity createIoRoute ioContext) events := by
  have hinit : (init identity createIoRoute ioContext : RuleBasedIoRouter Props Rate).ManagesArrays := by
    intro id node hnode
    cases hnode
  have hok : ∀ (r : RuleBasedIoRouter Props Rate) (event : Event Props Rate), r.ManagesArrays →
      r.ArraysCarried event →
      r.step event = .ok (TolerantIoRouter.step r event) ∧ (TolerantIoRouter.step r event).ManagesArrays :=
    fun _ _ hr h => step_of_arraysCarried hr h
  have hfail : ∀ (r : RuleBasedIoRouter Props Rate) (event : Event Props Rate), r.ManagesArrays →
      ¬ r.ArraysCarried event → ∀ r', r.step event ≠ .ok r' := fun _ _ _ h r' => step_ne_ok h r'
  exact forall_take_ok_iff_along (R := fun r r' => r.currentAssociations = r'.currentAssociations) (fun _ => rfl)
    hok hfail hinit

/-- A thermometer as it is read from the network. -/
def thermometerData : Value :=
  .object [(text "name", .string []), (text "objectType", .string (text "coaty.IoSource")),
    (text "coreType", .string (text "IoSource")), (text "objectId", .string (text "thermometer")),
    (text "valueType", .string (text "celsius"))]

/-- A node with a thermometer and no array of actors. -/
def sensorNodeData : Value :=
  .object [(text "name", .string (text "room")), (text "objectType", .string (text "coaty.IoNode")),
    (text "coreType", .string (text "IoNode")), (text "objectId", .string (text "node")),
    (text "ioSources", .array [thermometerData])]

def sensorNode : IoNode Value Rat where
  objectId := nodeId
  name := text "room"
  ioSources := some [⟨thermometerId, text "celsius", none, none, none, thermometerData⟩]
  ioActors := none
  properties := sensorNodeData

def sensorContext : IoContext Value := ⟨nodeId, text "room", none, .null⟩

/-- The node is accepted, and advertising it makes the router throw. -/
theorem not_survives_sensorNode :
    CoreTypes.isObject sensorNodeData = true ∧ IoNode.ofValue sensorNodeData = some sensorNode ∧
      ¬ ∀ n, ∃ r, ([Event.advertise sensorNode].take n).foldlM step (init nodeId id sensorContext) = .ok r ∧
        r.currentAssociations = (([Event.advertise sensorNode].take n).foldl TolerantIoRouter.step
          (init nodeId id sensorContext)).currentAssociations := by
  have hcarried : ¬ (init nodeId id sensorContext : RuleBasedIoRouter Value Rat).ArraysCarried (.advertise sensorNode) := by
    intro hcarried
    have hactors := (hcarried rfl rfl).2
    cases hactors
  refine ⟨by decide +kernel, rfl, ?_⟩
  intro hsurvives
  obtain ⟨r, hok, _⟩ := hsurvives 1
  rw [List.take_succ_cons, List.foldlM_cons] at hok
  cases hstep : (init nodeId id sensorContext : RuleBasedIoRouter Value Rat).step (.advertise sensorNode) with
  | error e =>
    rw [hstep] at hok
    cases hok
  | ok r₁ => exact step_ne_ok hcarried r₁ hstep

end RuleBasedIoRouter

end Coaty
