import Coaty.IoRouting.RuleBasedIoRouter
import Coaty.Order.Maximum

/-!
# What IO routing is for

The IO nodes of a context, the rules registered for each value type and the context itself determine which sources are to be routed to which actors, and at which rate: a pair is routed if some applicable rule holds for it, and the rate of a source is the greatest one that is defined for it or for an actor it is routed to. No association and no route is remembered here.
-/

namespace Coaty

open Js Order

variable {Props Rate : Type}

structure Routing (Props Rate : Type) where
  identity : Uuid
  ioContext : IoContext Props
  nodes : Uuid → Option (IoNode Props Rate)
  /-- The rules registered for a value type, and the global ones for the empty one. -/
  rules : Text → List (IoAssociationRule Props Rate)

def IoAssociation.ids (x : IoAssociation Props Rate) : Uuid × Uuid := (x.source.objectId, x.actor.objectId)

namespace IoNode

def sources (node : IoNode Props Rate) : List (IoSource Props Rate) := node.ioSources.getD []

def actors (node : IoNode Props Rate) : List (IoActor Props Rate) := node.ioActors.getD []

end IoNode

namespace Routing

variable (t : Routing Props Rate)

def Managed (node : IoNode Props Rate) : Prop := ∃ id, t.nodes id = some node

def applicable (valueType : Text) : List (IoAssociationRule Props Rate) :=
  if (t.rules valueType).isEmpty then t.rules [] else t.rules valueType

/-- The condition of the rule holds. It does not if it throws. -/
def Holds (rule : IoAssociationRule Props Rate) (source : IoSource Props Rate) (sourceNode : IoNode Props Rate)
    (actor : IoActor Props Rate) (actorNode : IoNode Props Rate) : Prop :=
  ∃ condition, rule.condition = some condition ∧
    condition source sourceNode actor actorNode t.ioContext = .ok true

structure RoutedOn (source : IoSource Props Rate) (sourceNode : IoNode Props Rate) (actor : IoActor Props Rate)
    (actorNode : IoNode Props Rate) : Prop where
  sourceNode_managed : t.Managed sourceNode
  source_mem : source ∈ sourceNode.sources
  actorNode_managed : t.Managed actorNode
  actor_mem : actor ∈ actorNode.actors
  valueType : source.valueType = actor.valueType
  useRawIoValues : source.useRawIoValues.getD false = actor.useRawIoValues.getD false
  rule : ∃ rule ∈ t.applicable source.valueType, t.Holds rule source sourceNode actor actorNode

def Routed (source : IoSource Props Rate) (actor : IoActor Props Rate) : Prop :=
  ∃ sourceNode actorNode, t.RoutedOn source sourceNode actor actorNode

def rates (source : IoSource Props Rate) : Set Rate :=
  {rate | source.updateRate = some rate ∨ ∃ actor, t.Routed source actor ∧ actor.updateRate = some rate}

/-- What a router has to know: every routed pair once, with the rate of its source. -/
structure Exact [LinearOrder Rate] (associations : List (IoAssociation Props Rate)) : Prop where
  nodup : (associations.map IoAssociation.ids).Nodup
  pairs : ∀ source actor, (∃ x ∈ associations, x.source = source ∧ x.actor = actor) ↔ t.Routed source actor
  rate : ∀ x ∈ associations, IsMaximum (t.rates x.source) x.updateRate

/-- No two points of managed nodes with the same role have the same id. -/
structure UniquePoints : Prop where
  sources : ∀ node node' source source', t.Managed node → t.Managed node' → source ∈ node.sources →
    source' ∈ node'.sources → source.objectId = source'.objectId → source = source' ∧ node = node'
  actors : ∀ node node' actor actor', t.Managed node → t.Managed node' → actor ∈ node.actors →
    actor' ∈ node'.actors → actor.objectId = actor'.objectId → actor = actor' ∧ node = node'

/-! ### Steps -/

def setNode (id : Uuid) (node : Option (IoNode Props Rate)) : Routing Props Rate :=
  { t with nodes := fun id' => if id' = id then node else t.nodes id' }

def removeNodes (ids : List Uuid) : Routing Props Rate :=
  { t with nodes := fun id => if id ∈ ids then none else t.nodes id }

def step (t : Routing Props Rate) : RuleBasedIoRouter.Event Props Rate → Routing Props Rate
  | .advertise node =>
    if node.name = t.ioContext.name then
      t.setNode node.objectId (if node.sources = [] ∧ node.actors = [] then none else some node)
    else t
  | .deadvertise objectIds => t.removeNodes objectIds
  | .updateContext ioContext =>
    if ioContext.objectId = t.ioContext.objectId then
      { t with ioContext := { ioContext with parentObjectId := some t.identity } }
    else t
  | .defineRules rules =>
    { t with rules := fun valueType =>
        rules.filter fun rule => rule.condition.isSome && rule.valueType.getD [] = valueType }

/-- Advertised nodes carry both arrays, and the points of the managed nodes stay unique. -/
def Enabled (t : Routing Props Rate) (event : RuleBasedIoRouter.Event Props Rate) : Prop :=
  (∀ node, event = .advertise node → node.ioSources.isSome = true ∧ node.ioActors.isSome = true) ∧
    (t.step event).UniquePoints

end Routing

namespace RuleBasedIoRouter

/-- What the router knows, apart from its associations and routes. -/
def routing (r : RuleBasedIoRouter Props Rate) : Routing Props Rate where
  identity := r.identity
  ioContext := r.ioContext
  nodes := r.managedIoNodes.get
  rules valueType := (r.rules.get valueType).getD []

end RuleBasedIoRouter

end Coaty
