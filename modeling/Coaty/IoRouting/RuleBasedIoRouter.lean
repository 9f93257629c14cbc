import Coaty.Com.Associate
import Coaty.Js.NestedMap
import Coaty.Model.IoNode
import Mathlib.Order.Lattice
import Mathlib.Order.Defs.LinearOrder

/-!
# The rule-based IO router

The managed IO nodes, the routes of their sources, the rules and the current associations of a `RuleBasedIoRouter`, and what it does when a node is advertised or deadvertised, the IO context is updated or rules are defined. All of these end in an evaluation of the rules, which compares the pairs that match with the current associations and publishes an Associate event for every difference. A loop over an absent array of IO points throws.
-/

namespace Coaty

open Js CommunicationEvent

variable {Props Rate : Type}

/-- A rule without a condition is ignored. The condition is a function of the pair, its nodes and the context, and may throw. -/
structure IoAssociationRule (Props Rate : Type) where
  valueType : Option Text
  condition : Option (IoSource Props Rate → IoNode Props Rate → IoActor Props Rate → IoNode Props Rate →
    IoContext Props → Except Error Bool)

structure IoAssociation (Props Rate : Type) where
  source : IoSource Props Rate
  actor : IoActor Props Rate
  updateRate : Option Rate
deriving DecidableEq

/-- A value-compatible pair with the nodes it belongs to. -/
structure IoCompatibleAssociation (Props Rate : Type) where
  source : IoSource Props Rate
  sourceNode : IoNode Props Rate
  actor : IoActor Props Rate
  actorNode : IoNode Props Rate

/-- Matching or resolved pairs by the ids of source and actor. -/
abbrev IoAssociationPairs (Props Rate : Type) := Map Uuid (Map Uuid (IoAssociation Props Rate))

structure RuleBasedIoRouter (Props Rate : Type) where
  /-- The identity of the agent, the parent of its IO context. -/
  identity : Uuid
  /-- The routes that the binding creates for sources without an external one. -/
  createIoRoute : Uuid → IoRoute
  ioContext : IoContext Props
  managedIoNodes : Map Uuid (IoNode Props Rate)
  sourceRoutes : Map Uuid (IoRoute × Bool)
  currentAssociations : List (IoAssociation Props Rate)
  rules : Map Text (List (IoAssociationRule Props Rate))
  /-- The Associate events that were published, oldest first. -/
  published : List (AssociateEvent Rate)

/-- The value of a property that a loop or a method call needs. -/
def defined {α : Type} : Option α → Except Error α
  | none => .error .typeError
  | some value => .ok value

namespace RuleBasedIoRouter

variable [LinearOrder Rate]

/-- The state after `onInit`. -/
def init (identity : Uuid) (createIoRoute : Uuid → IoRoute) (ioContext : IoContext Props) :
    RuleBasedIoRouter Props Rate where
  identity
  createIoRoute
  ioContext := { ioContext with parentObjectId := some identity }
  managedIoNodes := Map.empty
  sourceRoutes := Map.empty
  currentAssociations := []
  rules := Map.empty
  published := []

/-! ### Publishing -/

variable (r : RuleBasedIoRouter Props Rate)

/-- `publishAssociate` of the communication manager. -/
def publishAssociate (event : AssociateEvent Rate) : RuleBasedIoRouter Props Rate :=
  if isValidEventFilter event.ioContextName then { r with published := r.published ++ [event] } else r

/-- The route a source is given with its first association, and whether it is external. -/
def createAssociatingRoute (source : IoSource Props Rate) : IoRoute × Bool :=
  match source.externalRoute with
  | some (c :: route) => (⟨c :: route, List.cons_ne_nil c route⟩, true)
  | _ => (r.createIoRoute source.objectId, false)

/-- Look up the route of a source, and store it if it is new. -/
def ensureRoute (source : IoSource Props Rate) : RuleBasedIoRouter Props Rate × (IoRoute × Bool) :=
  match r.sourceRoutes.get source.objectId with
  | some route => (r, route)
  | none =>
    let route := r.createAssociatingRoute source
    ({ r with sourceRoutes := r.sourceRoutes.set source.objectId route }, route)

def associate (source : IoSource Props Rate) (actor : IoActor Props Rate) (updateRate : Option Rate) :
    RuleBasedIoRouter Props Rate :=
  let (r, route) := r.ensureRoute source
  r.publishAssociate {
    ioContextName := r.ioContext.name
    data := {
      ioSourceId := source.objectId
      ioActorId := actor.objectId
      associatingRoute := some route.1
      isExternalRoute := some route.2
      updateRate } }

def disassociate (source : IoSource Props Rate) (actor : IoActor Props Rate) :
    RuleBasedIoRouter Props Rate :=
  r.publishAssociate {
    ioContextName := r.ioContext.name
    data := {
      ioSourceId := source.objectId
      ioActorId := actor.objectId
      associatingRoute := none
      isExternalRoute := none
      updateRate := none } }

/-! ### Evaluation of the rules -/

def areValueTypesCompatible (source : IoSource Props Rate) (actor : IoActor Props Rate) : Bool :=
  source.valueType = actor.valueType && source.useRawIoValues.getD false = actor.useRawIoValues.getD false

/-- Sources and actors by their ids, each with its node. -/
abbrev IoPointMaps (Props Rate : Type) :=
  Map Uuid (IoSource Props Rate × IoNode Props Rate) × Map Uuid (IoActor Props Rate × IoNode Props Rate)

/-- Add the points of a node. A later point replaces an earlier one with the same id. -/
def collectIoPoints (maps : IoPointMaps Props Rate) (node : IoNode Props Rate) :
    Except Error (IoPointMaps Props Rate) := do
  let ioSources ← defined node.ioSources
  let ioActors ← defined node.ioActors
  return (ioSources.foldl (fun sources source => sources.set source.objectId (source, node)) maps.1,
    ioActors.foldl (fun actors actor => actors.set actor.objectId (actor, node)) maps.2)

def getCompatibleAssociations : Except Error (List (IoCompatibleAssociation Props Rate)) := do
  let (sources, actors) ← r.managedIoNodes.values.foldlM collectIoPoints (Map.empty, Map.empty)
  return sources.values.flatMap fun (source, sourceNode) =>
    actors.values.filterMap fun (actor, actorNode) =>
      if areValueTypesCompatible source actor then some { source, sourceNode, actor, actorNode } else none

/-- A condition that throws counts as false. -/
def isMatch (rule : IoAssociationRule Props Rate) (pair : IoCompatibleAssociation Props Rate)
    (ioContext : IoContext Props) : Bool :=
  match rule.condition with
  | none => false
  | some condition =>
    match condition pair.source pair.sourceNode pair.actor pair.actorNode ioContext with
    | .ok isMatch => isMatch
    | .error _ => false

def computeCumulatedUpdateRate (rate1 rate2 : Option Rate) : Option Rate :=
  match rate1, rate2 with
  | some rate1, some rate2 => some (max rate2 rate1)
  | some rate1, none => some rate1
  | none, rate2 => rate2

/-- The rules for a value type, or else the global ones. -/
def rulesFor (valueType : Text) : Option (List (IoAssociationRule Props Rate)) :=
  match r.rules.get valueType with
  | some rules => some rules
  | none => r.rules.get []

/-- `_match` -/
def matchRules (compatibleAssociations : List (IoCompatibleAssociation Props Rate)) :
    IoAssociationPairs Props Rate :=
  compatibleAssociations.foldl (fun associationMap pair =>
    match r.rulesFor pair.source.valueType with
    | none => associationMap
    | some rules =>
      if rules.any fun rule => isMatch rule pair r.ioContext then
        associationMap.setAt pair.source.objectId pair.actor.objectId {
          source := pair.source
          actor := pair.actor
          updateRate := computeCumulatedUpdateRate pair.source.updateRate pair.actor.updateRate }
      else associationMap) Map.empty

def cumulatedRate (actors : Map Uuid (IoAssociation Props Rate)) : Option Rate :=
  actors.values.foldl (fun cumulatedRate info => computeCumulatedUpdateRate info.updateRate cumulatedRate) none

/-- `_resolve` -/
def resolve (associationMap : IoAssociationPairs Props Rate) : IoAssociationPairs Props Rate :=
  associationMap.mapValues fun actors =>
    let cumulatedRate := cumulatedRate actors
    actors.mapValues fun info => { info with updateRate := cumulatedRate }

/-- One turn of `_act` over the current associations: the router, the resolved pairs that are left and the new associations. -/
def actOnCurrent (state : RuleBasedIoRouter Props Rate × IoAssociationPairs Props Rate ×
      List (IoAssociation Props Rate)) (current : IoAssociation Props Rate) :
    RuleBasedIoRouter Props Rate × IoAssociationPairs Props Rate × List (IoAssociation Props Rate) :=
  let (r, resolvedPairs, newAssociations) := state
  match resolvedPairs.get current.source.objectId with
  | none => (r.disassociate current.source current.actor, resolvedPairs, newAssociations)
  | some resolvedActors =>
    match resolvedActors.get current.actor.objectId with
    | none => (r.disassociate current.source current.actor, resolvedPairs, newAssociations)
    | some info =>
      (if info.updateRate = current.updateRate then r
        else r.associate info.source info.actor info.updateRate,
        resolvedPairs.setInner current.source.objectId (resolvedActors.delete current.actor.objectId),
        newAssociations ++ [info])

/-- `_act` -/
def act (resolvedPairs : IoAssociationPairs Props Rate) : RuleBasedIoRouter Props Rate :=
  let (r, resolvedPairs, newAssociations) := r.currentAssociations.foldl actOnCurrent (r, resolvedPairs, [])
  let newPairs := resolvedPairs.values.flatMap fun newActors => newActors.values
  { newPairs.foldl (fun r pair => r.associate pair.source pair.actor pair.updateRate) r with
    currentAssociations := newAssociations ++ newPairs }

def evaluateRules : Except Error (RuleBasedIoRouter Props Rate) := do
  let compatibleAssociations ← r.getCompatibleAssociations
  return r.act (resolve (r.matchRules compatibleAssociations))

/-! ### What changes the router -/

/-- The routes of sources that are advertised again are kept. -/
def forgetRoute (readvertisedNode : Option (IoNode Props Rate)) (sourceRoutes : Map Uuid (IoRoute × Bool))
    (point : IoSource Props Rate) : Except Error (Map Uuid (IoRoute × Bool)) :=
  match readvertisedNode with
  | none => .ok (sourceRoutes.delete point.objectId)
  | some node => do
    let ioSources ← defined node.ioSources
    return if ioSources.any fun p => p.objectId = point.objectId then sourceRoutes
      else sourceRoutes.delete point.objectId

/-- One turn of the loop of `_ioNodesDeadvertised`: the router and the nodes that were deregistered. -/
def deregisterNode (readvertisedNode : Option (IoNode Props Rate))
    (state : RuleBasedIoRouter Props Rate × List (IoNode Props Rate)) (id : Uuid) :
    Except Error (RuleBasedIoRouter Props Rate × List (IoNode Props Rate)) :=
  let (r, deregisteredNodes) := state
  match r.managedIoNodes.get id with
  | none => .ok (r, deregisteredNodes)
  | some deregisteredNode => do
    let ioSources ← defined deregisteredNode.ioSources
    let sourceRoutes ← ioSources.foldlM (forgetRoute readvertisedNode) r.sourceRoutes
    return ({ r with managedIoNodes := r.managedIoNodes.delete id, sourceRoutes },
      if readvertisedNode.isSome then deregisteredNodes else deregisteredNodes ++ [deregisteredNode])

def ioNodesDeadvertised (objectIds : List Uuid) (readvertisedNode : Option (IoNode Props Rate)) :
    Except Error (RuleBasedIoRouter Props Rate) := do
  let (r, deregisteredNodes) ← objectIds.foldlM (deregisterNode readvertisedNode) (r, [])
  if deregisteredNodes.length > 0 then r.evaluateRules else return r

/-- A node without any point counts as deadvertised. -/
def isDeadvertise (node : IoNode Props Rate) : Bool :=
  (node.ioSources.getD []).isEmpty && (node.ioActors.getD []).isEmpty

def ioNodeAdvertised (node : IoNode Props Rate) : Except Error (RuleBasedIoRouter Props Rate) := do
  let r ← r.ioNodesDeadvertised [node.objectId] (if isDeadvertise node then none else some node)
  if isDeadvertise node then return r
  else evaluateRules { r with managedIoNodes := r.managedIoNodes.set node.objectId node }

/-- Rules without a condition are ignored, and a rule without a value type is a global one. -/
def registerRule (ruleMap : Map Text (List (IoAssociationRule Props Rate))) (rule : IoAssociationRule Props Rate) :
    Map Text (List (IoAssociationRule Props Rate)) :=
  if rule.condition.isNone then ruleMap
  else
    let valueType := rule.valueType.getD []
    ruleMap.set valueType (((ruleMap.get valueType).getD []) ++ [rule])

def defineRules (rules : List (IoAssociationRule Props Rate)) : Except Error (RuleBasedIoRouter Props Rate) :=
  evaluateRules { r with rules := rules.foldl registerRule Map.empty }

/-- What a router reacts to. -/
inductive Event (Props Rate : Type) where
  | advertise (node : IoNode Props Rate)
  | deadvertise (objectIds : List Uuid)
  | updateContext (ioContext : IoContext Props)
  | defineRules (rules : List (IoAssociationRule Props Rate))

/-- Nodes of other IO contexts and updates of other objects are filtered out. -/
def step : Event Props Rate → Except Error (RuleBasedIoRouter Props Rate)
  | .advertise node => if node.name = r.ioContext.name then r.ioNodeAdvertised node else .ok r
  | .deadvertise objectIds => r.ioNodesDeadvertised objectIds none
  | .updateContext ioContext =>
    if ioContext.objectId = r.ioContext.objectId then
      evaluateRules { r with ioContext := { ioContext with parentObjectId := some r.identity } }
    else .ok r
  | .defineRules rules => r.defineRules rules

end RuleBasedIoRouter

end Coaty
