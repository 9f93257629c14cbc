import Coaty.Com.CommunicationEvent

/-!
# Associate events

An Associate event tells the agents of an IO context that an IO source and an IO actor are associated on a route or, without a route, not associated any more. The constructor of its data throws on empty identifiers and routes, so data is built from non-empty ones. On the wire the data has no external-route flag.
-/

namespace Coaty

open Js

/-- The route on which an IO source publishes its values. -/
abbrev IoRoute := NonEmptyText

structure AssociateEventData (Rate : Type) where
  ioSourceId : Uuid
  ioActorId : Uuid
  associatingRoute : Option IoRoute
  isExternalRoute : Option Bool
  updateRate : Option Rate
deriving DecidableEq

namespace AssociateEventData

variable {Rate : Type}

/-- The properties of the JSON object, which `createFrom` reads one by one. -/
structure JsonObject (Rate : Type) where
  ioSourceId : Uuid
  ioActorId : Uuid
  associatingRoute : Option IoRoute
  isExternalRoute : Option Bool
  updateRate : Option Rate

def toJsonObject (data : AssociateEventData Rate) : JsonObject Rate where
  ioSourceId := data.ioSourceId
  ioActorId := data.ioActorId
  associatingRoute := data.associatingRoute
  isExternalRoute := none
  updateRate := data.updateRate

def createFrom (eventData : JsonObject Rate) : AssociateEventData Rate where
  ioSourceId := eventData.ioSourceId
  ioActorId := eventData.ioActorId
  associatingRoute := eventData.associatingRoute
  isExternalRoute := eventData.isExternalRoute
  updateRate := eventData.updateRate

/-- The data that arrives when this data is published. -/
def received (data : AssociateEventData Rate) : AssociateEventData Rate := createFrom data.toJsonObject

end AssociateEventData

structure AssociateEvent (Rate : Type) where
  ioContextName : Text
  data : AssociateEventData Rate
deriving DecidableEq

end Coaty
