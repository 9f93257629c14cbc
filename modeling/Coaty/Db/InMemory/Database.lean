import Coaty.Js.Map
import Coaty.Model.CoatyObject
import Coaty.Model.FilterReading
import Coaty.Util.Clone

/-!
# The in-memory database

The collections of an in-memory database hold references to objects under their ids, and the operations on them change objects and collections one by one. An operation that is rejected leaves behind what it has changed so far. `depth` is the number of nested calls that there is room for on the stack.
-/

namespace Coaty

open Js Heap Value Evaluation

namespace InMemory

abbrev Collection := Map Text Ref

structure Database where
  heap : Heap
  collections : Map Text Collection

/-- What a promise is rejected with. -/
inductive Rejection where
  | error (e : Error)
  | typeError (message : Text)
  | message (message : Text)

/-- What a promise is fulfilled with. -/
inductive Reply where
  | nothing
  | ids (objectIds : List Text)
  | count (n : Nat)
deriving DecidableEq

/-- A call that writes to a collection. -/
inductive Write where
  | insertObjects (objects : Ref) (shouldReplaceExisting : Bool)
  | updateObjects (objects : Ref)
  | updateObjectProperty (objectIds : Ref) (property : Text) (value : Ref) (shouldCreateMissing : Bool)
  | deleteObjectsById (objectIds : Ref)
  | deleteObjects (filter : Option Value)

variable (engine : Engine) (depth : Nat)

/-! ### The checks of the database context -/

/-- `CoreTypes.isObject`. The prototype of the object itself can have been replaced by `null`. -/
def isObject (h : Heap) (ref : Ref) : Bool := h.isPlainObject ref && (h.view depth ref).any CoreTypes.isObject

def isUuid : Ref → Bool
  | .string objectId => !objectId.isEmpty
  | _ => false

def throwIfNotObjectType (h : Heap) (objects : Ref) : Except Rejection Unit :=
  match h.itemsOf objects with
  | some items =>
    if items.all (isObject depth h) then .ok ()
    else .error (.typeError (text "specified array contains non-Coaty objects"))
  | none =>
    if isObject depth h objects then .ok ()
    else .error (.typeError (text "specified argument is not a Coaty object"))

def throwIfNotUuid : Ref → Except Rejection Unit
  | .string _ => .ok ()
  | _ => .error (.typeError (text "specified argument is not a UUID"))

def throwIfNotUuids (h : Heap) (objectIds : Ref) : Except Rejection Unit :=
  match h.itemsOf objectIds with
  | some items =>
    if items.all isUuid then .ok () else .error (.typeError (text "specified array contains non-UUIDs"))
  | none => throwIfNotUuid objectIds

/-- `filter && this._throwIfObjectFilterInvalid(filter)` -/
def throwIfObjectFilterInvalid (filter : Option Value) : Except Rejection Unit :=
  if isTruthy filter && !filter.any isPlainObject then
    .error (.typeError (text "specified argument is not an object filter"))
  else .ok ()

/-! ### The operations of the adapter -/

/-- `if (!Array.isArray(objects)) { objects = [objects]; }` -/
def listOf (h : Heap) (ref : Ref) : List Ref := (h.itemsOf ref).getD [ref]

/-- The strings of a list of ids. There is nothing else in a list that has passed the check. -/
def idsOf (h : Heap) (ref : Ref) : List Text :=
  (listOf h ref).filterMap fun objectId => match objectId with | .string s => some s | _ => none

/-- The id of an object that has passed the check. -/
def objectIdOf (h : Heap) (obj : Ref) : Text :=
  match (h.view depth obj).bind fun value => value.get (text "objectId") with
  | some (.string objectId) => objectId
  | _ => []

/-- `CoreTypes.clone` -/
def cloneObject (h : Heap) (obj : Ref) : Except Error (Ref × Heap) :=
  if obj = .undefined then .ok (.undefined, h)
  else if isObject depth h obj then Deep.clone h depth obj
  else .error .typeError

/-- What an operation on a collection works on. -/
structure Store where
  heap : Heap
  objects : Collection

/-- The loop over the objects to insert or update. Objects that are not due are skipped. -/
def writeObjects (isDue : Collection → Text → Bool) : List Ref → Store → List Text → Store × Except Rejection Reply
  | [], s, objectIds => (s, .ok (.ids objectIds))
  | obj :: objs, s, objectIds =>
    let objectId := objectIdOf depth s.heap obj
    if isDue s.objects objectId then
      match cloneObject depth s.heap obj with
      | .error e => (s, .error (.error e))
      | .ok (copy, heap) => writeObjects isDue objs ⟨heap, s.objects.set objectId copy⟩ (objectIds ++ [objectId])
    else writeObjects isDue objs s objectIds

def updateProperty (h : Heap) (a : Nat) (property : Text) (value : Ref) (shouldCreateMissing : Bool) :
    Except Error Heap :=
  if value = .undefined then .ok (h.delete a property)
  else do
    if (← h.hasOwn a property) || shouldCreateMissing then h.assign a property value
    else return h

/-- The loop over the ids of the objects to update a property of. -/
def updateProperties (objects : Collection) (property : Text) (value : Ref) (shouldCreateMissing : Bool) :
    List Text → Heap → Heap × Except Rejection Reply
  | [], h => (h, .ok .nothing)
  | objId :: objIds, h =>
    match objects.get objId with
    | some (.address a) =>
      match updateProperty h a property value shouldCreateMissing with
      | .error e => (h, .error (.error e))
      | .ok h => updateProperties objects property value shouldCreateMissing objIds h
    | _ => updateProperties objects property value shouldCreateMissing objIds h

def deleteIds : List Text → Collection → List Text → Collection × List Text
  | [], objects, deletedUuids => (objects, deletedUuids)
  | objId :: objIds, objects, deletedUuids =>
    if objects.has objId then deleteIds objIds (objects.delete objId) (deletedUuids ++ [objId])
    else deleteIds objIds objects deletedUuids

/-- The loop over the objects to delete the matching ones of. -/
def deleteMatching (matcher : Ref → Except Error Bool) :
    List (Text × Ref) → Collection → Nat → Collection × Except Rejection Reply
  | [], objects, numDeleted => (objects, .ok (.count numDeleted))
  | (key, obj) :: entries, objects, numDeleted =>
    match matcher obj with
    | .error e => (objects, .error (.error e))
    | .ok true => deleteMatching matcher entries (objects.delete key) (numDeleted + 1)
    | .ok false => deleteMatching matcher entries objects numDeleted

def getFilterMatcher (h : Heap) (filter : Option Value) : Option (Ref → Except Error Bool) :=
  if isTruthy filter && isTruthy (filter.bind fun filter => filter.get (text "conditions")) then
    some fun obj => ObjectMatcher.matchesFilterValue engine (h.view depth obj) filter
  else none

def notExisting (failure : String) (collectionName : Text) : Rejection :=
  .message (text "Failed to " ++ text failure ++ text " collection '" ++ collectionName ++ text "': not existing")

namespace Database

variable (db : Database)

def onCollection (failure : String) (collectionName : Text) (operation : Store → Store × Except Rejection Reply) :
    Database × Except Rejection Reply :=
  match db.collections.get collectionName with
  | none => (db, .error (notExisting failure collectionName))
  | some objects =>
    let (store, reply) := operation ⟨db.heap, objects⟩
    (⟨store.heap, db.collections.set collectionName store.objects⟩, reply)

def insertObjects (collectionName : Text) (objects : Ref) (shouldReplaceExisting : Bool) :
    Database × Except Rejection Reply :=
  db.onCollection "insert objects in" collectionName fun coll =>
    writeObjects depth (fun objects objectId => !objects.has objectId || shouldReplaceExisting)
      (listOf db.heap objects) coll []

def updateObjects (collectionName : Text) (objects : Ref) : Database × Except Rejection Reply :=
  db.onCollection "update objects in" collectionName fun coll =>
    writeObjects depth Map.has (listOf db.heap objects) coll []

def updateObjectProperty (collectionName : Text) (objectIds : Ref) (property : Text) (value : Ref)
    (shouldCreateMissing : Bool) : Database × Except Rejection Reply :=
  db.onCollection "update object property in" collectionName fun coll =>
    let (heap, reply) := updateProperties coll.objects property value shouldCreateMissing (idsOf db.heap objectIds) coll.heap
    (⟨heap, coll.objects⟩, reply)

def deleteObjectsById (collectionName : Text) (objectIds : Ref) : Database × Except Rejection Reply :=
  db.onCollection "delete objects in" collectionName fun coll =>
    let (objects, deletedUuids) := deleteIds (idsOf db.heap objectIds) coll.objects []
    (⟨coll.heap, objects⟩, .ok (.ids deletedUuids))

def deleteObjects (collectionName : Text) (filter : Option Value) : Database × Except Rejection Reply :=
  db.onCollection "delete objects in" collectionName fun coll =>
    match getFilterMatcher engine depth db.heap filter with
    | none => (⟨coll.heap, Map.empty⟩, .ok (.count coll.objects.size))
    | some matcher =>
      let (objects, reply) := deleteMatching matcher coll.objects.entries coll.objects 0
      (⟨coll.heap, objects⟩, reply)

def addCollection (name : Text) : Database :=
  match db.collections.get name with
  | none => ⟨db.heap, db.collections.set name Map.empty⟩
  | some _ => db

def removeCollection (name : Text) : Database :=
  match db.collections.get name with
  | none => db
  | some _ => ⟨db.heap, db.collections.delete name⟩

def clearCollection (name : Text) : Database × Except Rejection Reply :=
  db.onCollection "clear" name fun coll => (⟨coll.heap, Map.empty⟩, .ok .nothing)

/-- An operation of the database context, which the adapter performs if the check is passed. -/
def checked (check : Except Rejection Unit) (result : Database × Except Rejection Reply) :
    Database × Except Rejection Reply :=
  match check with
  | .error e => (db, .error e)
  | .ok () => result

def execute (collectionName : Text) : Write → Database × Except Rejection Reply
  | .insertObjects objects shouldReplaceExisting =>
    db.checked (throwIfNotObjectType depth db.heap objects)
      (db.insertObjects depth collectionName objects shouldReplaceExisting)
  | .updateObjects objects =>
    db.checked (throwIfNotObjectType depth db.heap objects) (db.updateObjects depth collectionName objects)
  | .updateObjectProperty objectIds property value shouldCreateMissing =>
    db.checked (throwIfNotUuids db.heap objectIds)
      (db.updateObjectProperty collectionName objectIds property value shouldCreateMissing)
  | .deleteObjectsById objectIds =>
    db.checked (throwIfNotUuids db.heap objectIds) (db.deleteObjectsById collectionName objectIds)
  | .deleteObjects filter =>
    db.checked (throwIfObjectFilterInvalid filter) (db.deleteObjects engine depth collectionName filter)

/-! ### Looking up objects -/

def findObjectById (collectionName : Text) (id : Ref) (isExternalId : Bool) : Except Rejection (Option Ref) :=
  match id with
  | .string objectId =>
    match db.collections.get collectionName with
    | none => .error (notExisting "find object by id in" collectionName)
    | some objects =>
      if isExternalId then .ok (objects.values.find? fun o => db.heap.find o (text "externalId") = some (.string objectId))
      else .ok (objects.get objectId)
  | _ => .error (.typeError (text "specified argument is not a UUID"))

/-- The number of objects that match. -/
def countMatching (matcher : Ref → Except Error Bool) : List Ref → Except Error Nat
  | [] => .ok 0
  | obj :: objs => do
    let isMatch ← matcher obj
    let count ← countMatching matcher objs
    return if isMatch then count + 1 else count

def countObjects (collectionName : Text) (filter : Option Value) : Except Rejection Nat :=
  match throwIfObjectFilterInvalid filter with
  | .error e => .error e
  | .ok () =>
    match db.collections.get collectionName with
    | none => .error (notExisting "count objects in" collectionName)
    | some objects =>
      match getFilterMatcher engine depth db.heap filter with
      | none => .ok objects.size
      | some matcher => (countMatching matcher objects.values).mapError .error

end Database

end InMemory

end Coaty
