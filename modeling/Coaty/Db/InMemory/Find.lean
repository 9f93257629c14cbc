import Coaty.Db.InMemory.Database
import Coaty.Db.QueryIteration
import Coaty.Order.StableSort

/-!
# Finding objects in memory

The objects of a query are found when its iterator is given an action. A query with order-by properties first collects and sorts all objects that match, otherwise the objects are matched one by one in the order they were stored. Each object within the range of the query is copied, augmented by the objects joined with it and handed to the action. What an object reads like is all that matters for this, since copies only add to the heap.
-/

namespace Coaty

open Js Heap Value Evaluation

namespace InMemory

inductive SortOrder where
  | asc
  | desc
deriving DecidableEq

def SortOrder.name : SortOrder → Text
  | .asc => text "Asc"
  | .desc => text "Desc"

/-- A filter, whose conditions are whatever has been passed for them. -/
structure DbObjectFilter where
  conditions : Option Value
  orderByProperties : Option (List (ObjectFilterProperties × SortOrder))
  skip : Option Nat
  take : Option Nat

/-- A join condition. The flags are optional and false by default. -/
structure DbJoinCondition where
  localProperty : Text
  asProperty : Text
  fromCollection : Text
  fromProperty : Text
  isLocalPropertyArray : Bool
  isOneToOneRelation : Bool

/-- `joinConditions?: DbJoinCondition | DbJoinCondition[]` -/
inductive DbJoinConditions where
  | none
  | one (joinCondition : DbJoinCondition)
  | many (joinConditions : List DbJoinCondition)

/-- What a query fails with: an error of the language, one with a message, or what its action throws. -/
inductive Failure (E : Type) where
  | error (e : Error)
  | message (message : Text)
  | thrown (error : E)

/-- What comes of giving an action to an iterator: the call throws, or its promise settles after some calls of the action. -/
inductive FindOutcome (E : Type) where
  | thrown (error : Failure E)
  | settled (outcome : List (IteratorCall Value) × IterationResult (Failure E))

namespace DbObjectFilter

def propertiesValue : ObjectFilterProperties → Value
  | .dotted propNames => .string propNames
  | .chain propNames => .array (propNames.map .string)

def properties (filter : DbObjectFilter) : List (Text × Option Value) := [
  (text "conditions", filter.conditions),
  (text "orderByProperties", filter.orderByProperties.map fun orderByProperties =>
    .array (orderByProperties.map fun (props, order) => .array [propertiesValue props, .string order.name])),
  (text "skip", filter.skip.map fun (skip : Nat) => .number skip),
  (text "take", filter.take.map fun (take : Nat) => .number take)]

/-- The filter as an object, which counting and deleting take. -/
def toValue (filter : DbObjectFilter) : Value := jsonImage filter.properties

/-- The filter without `skip` and `take`. -/
def withoutRange (filter : DbObjectFilter) : DbObjectFilter := { filter with skip := none, take := none }

/-- `(filter && filter.take) || Number.MAX_SAFE_INTEGER`, where no collection has as many objects as the latter. -/
def limit (filter : Option DbObjectFilter) : Option Nat :=
  match filter.bind DbObjectFilter.take with
  | some 0 => none
  | take => take

/-- `(filter && filter.skip) || 0` -/
def offset (filter : Option DbObjectFilter) : Nat := (filter.bind DbObjectFilter.skip).getD 0

def orderBy (filter : Option DbObjectFilter) : List (ObjectFilterProperties × SortOrder) :=
  (filter.bind DbObjectFilter.orderByProperties).getD []

end DbObjectFilter

variable (engine : Engine) (depth : Nat) {E : Type}

/-! ### Comparing -/

/-- `===` on members of objects that share none of their properties. -/
def isSame : Member → Member → Bool
  | .value x, .value y => Deep.strictEquals x y
  | .function x, .function y => x = y
  | .objectPrototype, .objectPrototype => true
  | .arrayPrototype, .arrayPrototype => true
  | _, _ => false

/-- The sign of what the comparer returns. -/
def baseComparer (x y : Option Member) : Except Error Ordering :=
  match x, y with
  | none, none => .ok .eq
  | some (.value (.string x)), some (.value (.string y)) => .ok (if x = y then .eq else engine.compare x y)
  | some (.value (.number x)), some (.value (.number y)) => .ok (compare x y)
  | some (.value (.bool x)), some (.value (.bool y)) => .ok (if x = y then .eq else if x = false then .lt else .gt)
  | none, some _ => .ok .lt
  | some _, none => .ok .gt
  | some x, some y =>
    if isSame x y then .ok .eq
    else do return if (← engine.orderOf (some x) (some y)) = some .lt then .lt else .gt

def orderByValue (h : Heap) (props : ObjectFilterProperties) (obj : Ref) : Option Member :=
  (h.view depth obj).bind (ObjectMatcher.getFilterPropertyValue engine props)

/-- The comparer of `_getFilterComparer` for some order-by properties. -/
def comparer (h : Heap) : List (ObjectFilterProperties × SortOrder) → Ref → Ref → Except Error Ordering
  | [], _, _ => .ok .eq
  | (props, order) :: orderByProperties, a, b => do
    let aVal := orderByValue engine depth h props a
    let bVal := orderByValue engine depth h props b
    let result ← match order with
      | .asc => baseComparer engine aVal bVal
      | .desc => baseComparer engine bVal aVal
    if result ≠ .eq then return result
    else comparer h orderByProperties a b

def getFilterComparer (h : Heap) (filter : Option DbObjectFilter) : Option (Ref → Ref → Except Error Ordering) :=
  match DbObjectFilter.orderBy filter with
  | [] => none
  | orderByProperties => some (comparer engine depth h orderByProperties)

/-! ### Copies with joined objects -/

/-- What a copy of the object reads like, `CoreTypes.clone(obj, true)`. -/
def copyOf (h : Heap) (obj : Ref) : Except Error Value := do
  let (copy, heap) ← Deep.clone h depth obj
  return (heap.view depth copy).getD .null

/-- The number of indices below a length that is no number yet. An infinite one, which the loop would go on for without end, is left out. -/
def indicesBelow (length : Option Member) : Except Error Nat := do
  match engine.toNumber (← engine.toPrimitive length) with
  | some (some (some n)) => return n.ceil.toNat
  | _ => return 0

/-- What a loop over the value goes through, which reads its length and its indices. -/
def iterated : Option Member → Except Error (List (Option Member))
  | none => .error .typeError
  | some (.value .null) => .error .typeError
  | some (.value (.string s)) => .ok (s.map fun c => some (.value (.string [c])))
  | some (.value (.array items)) => .ok (items.map fun item => some (.value item))
  | some member => do
    let count ← indicesBelow engine (engine.read member (text "length"))
    return (List.range count).map fun i => engine.read member (decimal i)

/-- The loop over the objects that may be joined on a local value. -/
def joinMatching (h : Heap) (isOneToOneRelation : Bool) (isJoined : Ref → Bool) : List Ref → Except Error (List Value)
  | [] => .ok []
  | fo :: fos =>
    if isJoined fo then do
      let joinedObj ← copyOf depth h fo
      if isOneToOneRelation then return [joinedObj]
      else return joinedObj :: (← joinMatching h isOneToOneRelation isJoined fos)
    else joinMatching h isOneToOneRelation isJoined fos

/-- The objects that are joined on a local value. Looking up an object by its id is optimized. -/
def joinOn (h : Heap) (fromColl : Collection) (jc : DbJoinCondition) : Option Member → Except Error (List Value)
  | none => .ok []
  | some localValue =>
    if jc.fromProperty = text "objectId" then
      match localValue with
      | .value (.string objectId) =>
        match fromColl.get objectId with
        | some fo => do return [← copyOf depth h fo]
        | none => .ok []
      | _ => .ok []
    else
      let isJoined (fo : Ref) : Bool :=
        ((h.view depth fo).bind fun value => engine.read (.value value) jc.fromProperty).any fun value => isSame value localValue
      joinMatching depth h jc.isOneToOneRelation isJoined fromColl.values

def joinAll (h : Heap) (fromColl : Collection) (jc : DbJoinCondition) : List (Option Member) → Except Error (List Value)
  | [] => .ok []
  | localValue :: localValues => do
    let joinedObjs ← joinOn engine depth h fromColl jc localValue
    return joinedObjs ++ (← joinAll h fromColl jc localValues)

/-- `obj[property] = value`, where an assignment to `__proto__` adds no property. -/
def withProperty (obj : Value) (property : Text) (value : Value) : Value :=
  match obj with
  | .object properties =>
    if property = text "__proto__" then obj
    else if (properties.lookup property).isSome then
      .object (properties.map fun own => if own.1 = property then (property, value) else own)
    else .object (properties ++ [(property, value)])
  | obj => obj

/-- `delete obj[property]` -/
def withoutProperty (obj : Value) (property : Text) : Value :=
  match obj with
  | .object properties => .object (properties.filter fun own => own.1 ≠ property)
  | obj => obj

/-- What a join condition makes of an object. -/
def joinProperty (db : Database) (obj : Value) (jc : DbJoinCondition) : Except (Failure E) Value :=
  match db.collections.get jc.fromCollection with
  | none => .error (.message (text "failed to join from collection '" ++ jc.fromCollection ++ text "': not existing"))
  | some fromColl => Except.mapError .error do
    let localValue := engine.read (.value obj) jc.localProperty
    let localValues ← if jc.isLocalPropertyArray then iterated engine localValue else .ok [localValue]
    let joinedObjs ← joinAll engine depth db.heap fromColl jc localValues
    if jc.isOneToOneRelation && !jc.isLocalPropertyArray then
      match joinedObjs with
      | [] => return withoutProperty obj jc.asProperty
      | joinedObj :: _ => return withProperty obj jc.asProperty joinedObj
    else return withProperty obj jc.asProperty (.array joinedObjs)

def joinObjectProperties (db : Database) (obj : Value) : DbJoinConditions → Except (Failure E) Value
  | .none => .ok obj
  | .one jc => joinProperty engine depth db obj jc
  | .many jcs => jcs.foldlM (joinProperty engine depth db) obj

/-- The object that the action is given for one in the collection. -/
def resultOf (db : Database) (joinConditions : DbJoinConditions) (origObj : Ref) : Except (Failure E) Value := do
  let obj ← (copyOf depth db.heap origObj).mapError .error
  joinObjectProperties engine depth db obj joinConditions

/-! ### The loop -/

/-- `!matcher || matcher(obj)` -/
def isMatch (matcher : Option (Ref → Except Error Bool)) (obj : Ref) : Except Error Bool :=
  match matcher with
  | none => .ok true
  | some matcher => matcher obj

variable {T : Type}

/-- The loop over the objects, in which `matchIndex` of them have matched so far. -/
def findLoop (matcher : Option (Ref → Except Error Bool)) (result : Ref → Except (Failure E) T)
    (iterator : QueryIterator T (Failure E)) (offset : Nat) (limit : Option Nat) :
    List Ref → Nat → Iteration T → Iteration T × LoopEnd (Failure E)
  | [], _, s => (s, .completed)
  | origObj :: objs, matchIndex, s =>
    match isMatch matcher origObj with
    | .error e => (s, .thrown (some (.error e)))
    | .ok false => findLoop matcher result iterator offset limit objs matchIndex s
    | .ok true =>
      let resultIndex : Int := matchIndex - offset
      if resultIndex ≥ 0 then
        if limit.all fun (limit : Nat) => resultIndex < limit then
          match result origObj with
          | .error e => (s, .thrown (some e))
          | .ok obj =>
            match iterator.yield s obj with
            | (s, .throw error) => (s, .thrown error)
            | (s, .breakOff) => (s, .breakInvoked)
            | (s, .proceed) => findLoop matcher result iterator offset limit objs (matchIndex + 1) s
        else (s, .allTaken)
      else findLoop matcher result iterator offset limit objs (matchIndex + 1) s

def objectsToOrder (matcher : Option (Ref → Except Error Bool)) : List Ref → Except Error (List Ref)
  | [] => .ok []
  | obj :: objs => do
    if ← isMatch matcher obj then return obj :: (← objectsToOrder matcher objs)
    else objectsToOrder matcher objs

namespace Database

variable (db : Database)

/-- What an action is started with. Nothing catches what fails before the loop. -/
def start (objects : Collection) (filter : Option DbObjectFilter) (joinConditions : DbJoinConditions)
    (iterator : QueryIterator Value (Failure E)) : FindOutcome E :=
  let matcher := getFilterMatcher engine depth db.heap (filter.map DbObjectFilter.toValue)
  let loop (matcher : Option (Ref → Except Error Bool)) (objs : List Ref) : FindOutcome E :=
    .settled (iterator.settle (findLoop matcher (resultOf engine depth db joinConditions) iterator
      (DbObjectFilter.offset filter) (DbObjectFilter.limit filter) objs 0 .initial))
  match getFilterComparer engine depth db.heap filter with
  | none => loop matcher objects.values
  | some comparer =>
    match (do Sorting.sortM comparer (← objectsToOrder matcher objects.values)) with
    | .error e => .thrown (.error e)
    | .ok sorted => loop none sorted

/-- The promise of a query yields an iterator, which is given an action then. -/
def findObjects (collectionName : Text) (filter : Option DbObjectFilter) (joinConditions : DbJoinConditions) :
    Except Rejection (QueryIterator Value (Failure E) → FindOutcome E) :=
  match db.collections.get collectionName with
  | none => .error (notExisting "find objects in" collectionName)
  | some objects => .ok (start engine depth db objects filter joinConditions)

end Database

end InMemory

end Coaty
