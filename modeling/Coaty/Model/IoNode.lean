import Coaty.Com.CommunicationEvent

/-!
# IO points, nodes and contexts

The objects that IO routing deals with. An IO source and an IO actor have the same properties here, and everything that only application code looks at, such as the characteristics of a node, is kept as an opaque part of the object. Nodes on the network may lack an array of points.
-/

namespace Coaty

open Js

/-- A numeric property that is compared but not computed with, such as an update rate, is of any linearly ordered type. -/
structure IoPoint (Props Rate : Type) where
  objectId : Uuid
  valueType : Text
  useRawIoValues : Option Bool
  updateRate : Option Rate
  externalRoute : Option Text
  properties : Props
deriving DecidableEq

abbrev IoSource := IoPoint

abbrev IoActor := IoPoint

structure IoNode (Props Rate : Type) where
  objectId : Uuid
  name : Text
  ioSources : Option (List (IoSource Props Rate))
  ioActors : Option (List (IoActor Props Rate))
  properties : Props
deriving DecidableEq

structure IoContext (Props : Type) where
  objectId : Uuid
  name : Text
  parentObjectId : Option Uuid
  properties : Props
deriving DecidableEq

/-! ### The points of a room

The ids that examples use.
-/

def nodeId : Uuid := ⟨text "node", by decide⟩

def thermometerId : Uuid := ⟨text "thermometer", by decide⟩

def barometerId : Uuid := ⟨text "barometer", by decide⟩

def displayId : Uuid := ⟨text "display", by decide⟩

def recorderId : Uuid := ⟨text "recorder", by decide⟩

theorem isValidEventFilter_room : CommunicationEvent.isValidEventFilter (text "room") = true := by decide

end Coaty
