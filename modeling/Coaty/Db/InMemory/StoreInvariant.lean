import Coaty.Db.InMemory.Atomicity
import Coaty.Transition

/-!
# What the in-memory database stores

Under each id there is to be a valid object with that id, so that looking an object up by its id and counting the objects with the id come to the same. Inserting and updating objects check them, but updating a property writes to stored objects without a check, and an assignment to `__proto__`, which copies make, too, replaces the prototype. Between the operations the caller makes new objects, which may refer to those that are stored.
-/

namespace Coaty

open Js Heap Value Evaluation Transition

namespace InMemory

inductive Operation where
  /-- The caller makes an object or an array. -/
  | create (cell : Cell)
  | addCollection (name : Text)
  | removeCollection (name : Text)
  | clearCollection (name : Text)
  | write (collectionName : Text) (call : Write)

variable (engine : Engine) (depth : Nat)

/-- The database after an operation that is accepted. -/
def perform (db : Database) : Operation → Except Rejection Database
  | .create cell => .ok ⟨db.heap ++ [cell], db.collections⟩
  | .addCollection name => .ok (db.addCollection name)
  | .removeCollection name => .ok (db.removeCollection name)
  | .clearCollection name =>
    match db.clearCollection name with
    | (db', .ok _) => .ok db'
    | (_, .error e) => .error e
  | .write collectionName call =>
    match db.execute engine depth collectionName call with
    | (db', .ok _) => .ok db'
    | (_, .error e) => .error e

/-- A database without collections, among objects that the caller has. -/
def initial (h : Heap) : Database := ⟨h, Map.empty⟩

def idAt (h : Heap) (obj : Ref) : Option Value := (h.view depth obj).bind fun value => value.get (text "objectId")

def withObjectId (objectId : Text) : Value :=
  .object [(text "conditions", .array [.string (text "objectId"),
    .array [.number ObjectFilterOperator.equals.value, .string objectId]])]

/-- What is stored under an id is a valid object with that id, so an object is found exactly if the objects with its id are counted as one, and no two have the same id. -/
structure Sound (db : Database) : Prop where
  keyed : ∀ name key obj, db.stored name key = some obj → idAt depth db.heap obj = some (.string key)
  valid : ∀ name key obj, db.stored name key = some obj → isObject depth db.heap obj = true
  found : ∀ name objectId, (db.collections.get name).isSome = true →
    ((∃ obj, db.findObjectById name (.string objectId) false = .ok (some obj)) ↔
      db.countObjects engine depth name (some (withObjectId objectId)) = .ok 1)
  distinct : ∀ name key key' obj obj', db.stored name key = some obj → db.stored name key' = some obj' →
    idAt depth db.heap obj = idAt depth db.heap obj' → key = key'

/-- The references of an operation lead to objects of the heap, and what the caller makes has the prototype of all objects. -/
def Operation.Within (h : Heap) : Operation → Prop
  | .create cell => (∀ ref ∈ cell.refs, ref.Within h) ∧ cell.IsOrdinary
  | .write _ call => call.Within h
  | _ => True

/-- An operation that the caller can ask for, and that is accepted. -/
def Accepted (db : Database) (operation : Operation) : Prop :=
  operation.Within db.heap ∧ Returns (perform engine depth db operation)

/-- No object that is copied has a property `__proto__` anywhere, and none of which a property is updated is assigned an object or `null` to `__proto__`. -/
def KeepsPrototypes (db : Database) : Operation → Prop
  | .write collectionName (.insertObjects objs shouldReplaceExisting) =>
    ∀ objects, db.collections.get collectionName = some objects →
      ∀ obj ∈ dueToInsert depth db.heap objects shouldReplaceExisting (listOf db.heap objs), Deep.Lossless db.heap depth obj
  | .write collectionName (.updateObjects objs) =>
    ∀ objects, db.collections.get collectionName = some objects →
      ∀ obj ∈ dueToUpdate depth db.heap objects (listOf db.heap objs), Deep.Lossless db.heap depth obj
  | .write collectionName (.updateObjectProperty objectIds property value shouldCreateMissing) =>
    ∀ objects, db.collections.get collectionName = some objects →
      ∀ a ∈ targetsOf objects (idsOf db.heap objectIds), ¬ Replaces property value shouldCreateMissing db.heap a
  | _ => True

/-- An update of a property leaves ids alone, or writes those that are there, and every stored object that it changes, or that leads to one that it changes, passes the check with the value in place. -/
def KeepsValid (db : Database) : Operation → Prop
  | .write collectionName (.updateObjectProperty objectIds property value shouldCreateMissing) =>
    ∀ objects, db.collections.get collectionName = some objects →
      let targets := targetsOf objects (idsOf db.heap objectIds)
      (property = text "objectId" → ∀ a ∈ targets, ∀ name key, db.stored name key = some (.address a) →
        value = .string key) ∧
      ∀ name key b, db.stored name key = some (.address b) →
        (∃ a ∈ targets, Changes property value (creates property shouldCreateMissing) db.heap a ∧ db.heap.Reaches b a) →
          isObject depth (updateAll property value (creates property shouldCreateMissing) targets db.heap) (.address b) = true
  | _ => True

variable {engine} {depth} {db db' : Database} {obj : Ref}

/-! ### Looking up ids -/

/-- What is stored is valid and has the id that it is stored under. -/
def Keyed (depth : Nat) (db : Database) : Prop :=
  ∀ name key obj, db.stored name key = some obj →
    idAt depth db.heap obj = some (.string key) ∧ isObject depth db.heap obj = true

theorem matches_withObjectId {value : Value} {key : Text} (hid : value.get (text "objectId") = some (.string key))
    (objectId : Text) :
    ObjectMatcher.matchesFilterValue engine (some value) (some (withObjectId objectId)) = .ok (decide (key = objectId)) := by
  cases value with
  | object properties =>
    have hfilter : ContextFilter.ofValue (withObjectId objectId) = some ⟨some (.condition
        { properties := .dotted (text "objectId"), operator := .equals, operand1 := some (.string objectId),
          operand2 := none })⟩ := rfl
    have hpath : ObjectMatcher.getFilterPropertyValue engine (.dotted (text "objectId")) (.object properties) =
        some (.value (.string key)) := by
      have hsplit : (text "objectId").split (unit '.') = [text "objectId"] := by decide
      have hlookup : properties.lookup (text "objectId") = some (.string key) := hid
      rw [ObjectMatcher.getFilterPropertyValue, ObjectMatcher.getFilterProperties, hsplit]
      simp only [List.foldl_cons, List.foldl_nil, Option.bind_some, Engine.read, hlookup]
    rw [withObjectId, ObjectMatcher.matchesFilterValue_of_ofValue hfilter, ObjectMatcher.matchesFilter]
    simp only [ObjectMatcher.matchesCondition, hpath]
    rfl
  | _ => cases hid

theorem countMatching_withObjectId {objs : List Ref} {key : Ref → Text}
    (hids : ∀ obj ∈ objs, idAt depth db.heap obj = some (.string (key obj))) (objectId : Text) :
    Database.countMatching (fun obj => ObjectMatcher.matchesFilterValue engine (db.heap.view depth obj)
      (some (withObjectId objectId))) objs = .ok (objs.countP fun obj => key obj = objectId) := by
  induction objs with
  | nil => rfl
  | cons obj objs ih =>
    rw [List.forall_mem_cons] at hids
    obtain ⟨value, hview, hid⟩ := Option.bind_eq_some_iff.mp hids.1
    rw [Database.countMatching, hview, matches_withObjectId hid, ih hids.2, List.countP_cons]
    by_cases heq : key obj = objectId
    · simp [heq]
    · simp [heq]

theorem objectIdOf_of_idAt {h : Heap} {key : Text} (hid : idAt depth h obj = some (.string key)) :
    objectIdOf depth h obj = key := by
  rw [idAt] at hid
  rw [objectIdOf, hid]

/-- The objects with an id are counted as many times as the id is a key. -/
theorem countP_values {objects : Collection}
    (hids : ∀ key obj, objects.get key = some obj → idAt depth db.heap obj = some (.string key)) (objectId : Text) :
    (objects.values.countP fun obj => objectIdOf depth db.heap obj = objectId) = objects.keys.count objectId := by
  rw [Map.values, Map.keys, List.count, List.countP_map, List.countP_map]
  apply List.countP_congr
  intro entry hmem
  obtain ⟨key, obj⟩ := entry
  have hkey : objectIdOf depth db.heap obj = key := objectIdOf_of_idAt (hids key obj (Map.mem_entries.mp hmem))
  simp [hkey]

theorem Keyed.found_iff (h : Keyed depth db) {name : Text} {objects : Collection}
    (hget : db.collections.get name = some objects) (objectId : Text) :
    (∃ obj, db.findObjectById name (.string objectId) false = .ok (some obj)) ↔
      db.countObjects engine depth name (some (withObjectId objectId)) = .ok 1 := by
  have hids : ∀ key obj, objects.get key = some obj → idAt depth db.heap obj = some (.string key) := by
    intro key obj hobj
    exact (h name key obj (by rw [Database.stored_of_get hget, hobj])).1
  have hcount : db.countObjects engine depth name (some (withObjectId objectId)) =
      .ok (objects.keys.count objectId) := by
    have hvalues : ∀ obj ∈ objects.values, idAt depth db.heap obj = some (.string (objectIdOf depth db.heap obj)) := by
      intro obj hmem
      obtain ⟨key, hobj⟩ := Map.mem_values.mp hmem
      rw [hids key obj hobj, objectIdOf_of_idAt (hids key obj hobj)]
    have hcheck : throwIfObjectFilterInvalid (some (withObjectId objectId)) = .ok () := rfl
    have hmatcher : getFilterMatcher engine depth db.heap (some (withObjectId objectId)) =
        some fun obj => ObjectMatcher.matchesFilterValue engine (db.heap.view depth obj) (some (withObjectId objectId)) := rfl
    rw [Database.countObjects, hcheck]
    simp only [hget, hmatcher, countMatching_withObjectId hvalues, countP_values hids]
    rfl
  have hfind : db.findObjectById name (.string objectId) false = .ok (objects.get objectId) := by
    simp only [Database.findObjectById, hget]
    rfl
  rw [hcount, hfind]
  simp only [Except.ok.injEq]
  rw [← Map.mem_keys]
  constructor
  · intro hmem
    exact List.count_eq_one_of_mem objects.keys_nodup hmem
  · intro hone
    exact List.count_pos_iff.mp (by omega)

theorem sound_iff_keyed : Sound engine depth db ↔ Keyed depth db := by
  constructor
  · intro h name key obj hstored
    exact ⟨h.keyed name key obj hstored, h.valid name key obj hstored⟩
  · intro h
    refine ⟨fun name key obj hstored => (h name key obj hstored).1, fun name key obj hstored => (h name key obj hstored).2,
      fun name objectId hcollection => ?_, fun name key key' obj obj' hstored hstored' hsame => ?_⟩
    · obtain ⟨objects, hget⟩ := Option.isSome_iff_exists.mp hcollection
      exact h.found_iff hget objectId
    · rw [(h name key obj hstored).1, (h name key' obj' hstored').1] at hsame
      simpa using hsame

/-! ### Operations that check what they store -/

theorem idAt_of_isObject {h : Heap} (hvalid : isObject depth h obj = true) :
    idAt depth h obj = some (.string (objectIdOf depth h obj)) := by
  obtain ⟨properties, hview, hobject⟩ := exists_view_of_isObject hvalid
  have hany := CoreTypes.isAnyObject_of_isObject hobject
  simp only [CoreTypes.isAnyObject, Bool.and_eq_true] at hany
  have hid := hany.1.1.2
  rw [Checkable.hasProperty, Checkable.get_value, Option.any_eq_true] at hid
  obtain ⟨value, hget, hstring⟩ := hid
  cases value with
  | string objectId => simp only [idAt, objectIdOf, hview, Option.bind_some, hget]
  | _ => cases hstring

/-- An operation that adds to the heap, and to the collections only valid objects under their ids. -/
structure Extends (depth : Nat) (db db' : Database) : Prop where
  heap : db.heap <+: db'.heap
  plain : db'.heap.Plain
  stored : ∀ name key obj, db'.stored name key = some obj →
    db.stored name key = some obj ∨ isObject depth db'.heap obj = true ∧ objectIdOf depth db'.heap obj = key

theorem wellFormed_iff : db.WellFormed ↔ db.heap.Plain ∧ ∀ name key obj, db.stored name key = some obj →
    ∃ a properties, obj = .address a ∧ db.heap[a]? = some (.object properties) := by
  constructor
  · intro hdb
    refine ⟨hdb.plain, fun name key obj hstored => ?_⟩
    obtain ⟨objects, hget, hobj⟩ := Option.bind_eq_some_iff.mp hstored
    exact hdb.stored name objects key obj hget hobj
  · intro hdb
    refine ⟨hdb.1, fun name objects key obj hget hobj => hdb.2 name key obj ?_⟩
    rw [Database.stored_of_get hget, hobj]

theorem within_of_stored (hdb : db.WellFormed) {name key : Text} (hstored : db.stored name key = some obj) :
    obj.Within db.heap := by
  obtain ⟨a, properties, rfl, _⟩ := (wellFormed_iff.mp hdb).2 name key obj hstored
  exact Ref.in_address (WellFormed.lt_of_stored hdb hstored)

theorem Extends.wellFormed (h : Extends depth db db') (hdb : db.WellFormed) : db'.WellFormed := by
  rw [wellFormed_iff]
  refine ⟨h.plain, fun name key obj hstored => ?_⟩
  obtain hold | ⟨hvalid, _⟩ := h.stored name key obj hstored
  · obtain ⟨a, properties, rfl, hcell⟩ := (wellFormed_iff.mp hdb).2 name key obj hold
    exact ⟨a, properties, rfl, by rw [getElem?_of_grown h.heap (WellFormed.lt_of_stored hdb hold), hcell]⟩
  · obtain ⟨properties, hview, _⟩ := exists_view_of_isObject hvalid
    exact exists_object_of_view h.plain hview

theorem Extends.keyed (h : Extends depth db db') (hdb : db.WellFormed) (hkeyed : Keyed depth db) : Keyed depth db' := by
  intro name key obj hstored
  obtain hold | ⟨hvalid, hid⟩ := h.stored name key obj hstored
  · have hwithin := within_of_stored hdb hold
    rw [idAt, isObject_of_grown hdb.plain.closed h.heap hwithin, view_of_grown hdb.plain.closed h.heap depth hwithin]
    exact hkeyed name key obj hold
  · rw [idAt_of_isObject hvalid, hid]
    exact ⟨rfl, hvalid⟩

theorem extends_of_subset (hdb : db.WellFormed) {collections : Map Text Collection}
    (hstored : ∀ name key obj, (⟨db.heap, collections⟩ : Database).stored name key = some obj →
      db.stored name key = some obj) : Extends depth db ⟨db.heap, collections⟩ :=
  ⟨List.prefix_refl _, hdb.plain, fun name key obj h => Or.inl (hstored name key obj h)⟩

theorem extends_create (hdb : db.WellFormed) {cell : Cell} (hrefs : ∀ ref ∈ cell.refs, ref.Within db.heap)
    (hordinary : cell.IsOrdinary) : Extends depth db ⟨db.heap ++ [cell], db.collections⟩ :=
  ⟨List.prefix_append _ _, hdb.plain.append hordinary hrefs, fun _ _ _ hstored => Or.inl hstored⟩

theorem extends_addCollection (hdb : db.WellFormed) (name : Text) : Extends depth db (db.addCollection name) := by
  rw [Database.addCollection]
  split
  · apply extends_of_subset hdb
    intro name' key obj hstored
    rw [Database.stored, Map.get_set] at hstored
    split at hstored
    · cases hstored
    · exact hstored
  · exact extends_of_subset hdb fun _ _ _ hstored => hstored

theorem extends_removeCollection (hdb : db.WellFormed) (name : Text) : Extends depth db (db.removeCollection name) := by
  rw [Database.removeCollection]
  split
  · exact extends_of_subset hdb fun _ _ _ hstored => hstored
  · apply extends_of_subset hdb
    intro name' key obj hstored
    rw [Database.stored, Map.get_delete] at hstored
    split at hstored
    · cases hstored
    · exact hstored

variable {collectionName : Text} {objects objects' : Collection}

theorem extends_put (hdb : db.WellFormed) (hget : db.collections.get collectionName = some objects)
    (hobjects : ∀ key obj, objects'.get key = some obj → objects.get key = some obj) :
    Extends depth db (db.put collectionName ⟨db.heap, objects'⟩) := by
  apply extends_of_subset hdb
  intro name key obj hstored
  have hput : (db.put collectionName ⟨db.heap, objects'⟩).stored name key =
      if name = collectionName then objects'.get key else db.stored name key := Database.stored_put _ name key
  rw [Database.put] at hput
  rw [hput] at hstored
  split at hstored
  · rename_i hname
    rw [hname, Database.stored_of_get hget]
    exact hobjects key obj hstored
  · exact hstored

theorem checked_onCollection_ok {check : Except Rejection Unit} {failure : String}
    {operation : Store → Store × Except Rejection Reply} {reply : Reply}
    (haccepted : db.checked check (db.onCollection failure collectionName operation) = (db', .ok reply)) :
    check = .ok () ∧ ∃ objects, db.collections.get collectionName = some objects ∧
      db' = db.put collectionName (operation ⟨db.heap, objects⟩).1 ∧ (operation ⟨db.heap, objects⟩).2 = .ok reply := by
  cases check with
  | error e => cases haccepted
  | ok passed =>
    refine ⟨rfl, ?_⟩
    rw [Database.checked] at haccepted
    cases hget : db.collections.get collectionName with
    | none =>
      rw [Database.onCollection_of_none hget] at haccepted
      cases haccepted
    | some objects =>
      rw [Database.onCollection_of_some hget, Prod.mk.injEq] at haccepted
      exact ⟨objects, rfl, haccepted.1.symm, haccepted.2⟩

variable {s' : Store} {due : List Ref} {reply : Reply}

theorem wrote_of_ok (hdb : db.WellFormed) (hdue : ∀ obj ∈ due, obj.Within db.heap ∧ isObject depth db.heap obj = true)
    (hloop : writeObjects depth (fun _ _ => true) due ⟨db.heap, objects⟩ [] = (s', .ok reply)) :
    Wrote depth db.heap due ⟨db.heap, objects⟩ s' := by
  obtain ⟨_, _, _, s₁, e, rfl, _, _, _, herror⟩ | ⟨_, s₁, hwrote, hall⟩ := writeObjects_cases hdb objects hdue
  · rw [herror] at hloop
    cases hloop
  · rw [hloop] at hall
    cases hall
    exact hwrote

theorem Wrote.extends (hwrote : Wrote depth db.heap due ⟨db.heap, objects⟩ s') (hdb : db.WellFormed)
    (hget : db.collections.get collectionName = some objects)
    (hvalid : ∀ obj ∈ due, isObject depth db.heap obj = true) (hlossless : ∀ obj ∈ due, Deep.Lossless db.heap depth obj) :
    Extends depth db (db.put collectionName s') := by
  have hplain : s'.heap.Plain := ⟨hwrote.closed, hwrote.ordinary hlossless hdb.plain.ordinary⟩
  refine ⟨hwrote.heap, hplain, fun name key obj hstored => ?_⟩
  by_cases hkey : name = collectionName ∧ key ∈ due.map (objectIdOf depth db.heap)
  · obtain ⟨source, hlast, hid⟩ := exists_isLast hkey.2
    obtain ⟨a, hcopy, -, -, hview⟩ := hwrote.written source hlast
    rw [hid] at hcopy
    rw [Database.stored_put, if_pos hkey.1, hcopy] at hstored
    cases hstored
    have hput : (db.put collectionName s').heap = s'.heap := rfl
    have hsame := hview.mpr (hlossless source hlast.mem)
    refine Or.inr ⟨?_, ?_⟩
    · rw [hput, isObject_of_plain hplain, hsame, ← isObject_of_plain hdb.plain]
      exact hvalid source hlast.mem
    · rw [hput, objectIdOf, hsame]
      exact hid
  · rw [hwrote.stored_of_not_mem hget hkey] at hstored
    exact Or.inl hstored

theorem extends_insertObjects (hdb : db.WellFormed) {objs : Ref} (hobjs : objs.Within db.heap)
    {shouldReplaceExisting : Bool}
    (haccepted : db.execute engine depth collectionName (.insertObjects objs shouldReplaceExisting) = (db', .ok reply))
    (hkeeps : KeepsPrototypes depth db (.write collectionName (.insertObjects objs shouldReplaceExisting))) :
    Extends depth db db' := by
  obtain ⟨hcheck, objects, hget, rfl, hreply⟩ := checked_onCollection_ok haccepted
  have hwithin := within_of_mem_listOf hdb.plain.closed hobjs
  have hvalid := isObject_of_check hcheck
  have hdue := @dueToInsert_subset depth db.heap objects shouldReplaceExisting (listOf db.heap objs)
  rw [writeObjects_insert hdb.plain.closed (List.prefix_refl _) hdb.plain.closed hwithin] at hreply ⊢
  have hwrote := wrote_of_ok hdb (fun obj hmem => ⟨hwithin obj (hdue hmem), hvalid obj (hdue hmem)⟩) (Prod.ext rfl hreply)
  exact hwrote.extends hdb hget (fun obj hmem => hvalid obj (hdue hmem)) (hkeeps objects hget)

theorem extends_updateObjects (hdb : db.WellFormed) {objs : Ref} (hobjs : objs.Within db.heap)
    (haccepted : db.execute engine depth collectionName (.updateObjects objs) = (db', .ok reply))
    (hkeeps : KeepsPrototypes depth db (.write collectionName (.updateObjects objs))) : Extends depth db db' := by
  obtain ⟨hcheck, objects, hget, rfl, hreply⟩ := checked_onCollection_ok haccepted
  have hwithin := within_of_mem_listOf hdb.plain.closed hobjs
  have hvalid := isObject_of_check hcheck
  have hdue : dueToUpdate depth db.heap objects (listOf db.heap objs) ⊆ listOf db.heap objs := List.filter_subset_self _
  rw [writeObjects_update hdb.plain.closed (List.prefix_refl _) hdb.plain.closed hwithin] at hreply ⊢
  have hwrote := wrote_of_ok hdb (fun obj hmem => ⟨hwithin obj (hdue hmem), hvalid obj (hdue hmem)⟩) (Prod.ext rfl hreply)
  exact hwrote.extends hdb hget (fun obj hmem => hvalid obj (hdue hmem)) (hkeeps objects hget)

theorem get_of_deleteMatching {matcher : Ref → Except Error Bool} (entries : List (Text × Ref)) (objects : Collection)
    (numDeleted : Nat) {key : Text} (hobj : (deleteMatching matcher entries objects numDeleted).1.get key = some obj) :
    objects.get key = some obj := by
  induction entries generalizing objects numDeleted with
  | nil => exact hobj
  | cons entry entries ih =>
    obtain ⟨key', obj'⟩ := entry
    rw [deleteMatching] at hobj
    cases hmatch : matcher obj' with
    | error e =>
      simp only [hmatch] at hobj
      exact hobj
    | ok isMatch =>
      cases isMatch with
      | true =>
        simp only [hmatch] at hobj
        have hdeleted := ih _ _ hobj
        rw [Map.get_delete] at hdeleted
        split at hdeleted
        · cases hdeleted
        · exact hdeleted
      | false =>
        simp only [hmatch] at hobj
        exact ih _ _ hobj

theorem extends_deleteObjectsById (hdb : db.WellFormed) {objectIds : Ref}
    (haccepted : db.execute engine depth collectionName (.deleteObjectsById objectIds) = (db', .ok reply)) :
    Extends depth db db' := by
  obtain ⟨_, objects, hget, rfl, _⟩ := checked_onCollection_ok haccepted
  apply extends_put hdb hget
  intro key obj hobj
  rw [(deleteIds_spec _ objects []).1] at hobj
  split at hobj
  · cases hobj
  · exact hobj

theorem extends_deleteObjects (hdb : db.WellFormed) {filter : Option Value}
    (haccepted : db.execute engine depth collectionName (.deleteObjects filter) = (db', .ok reply)) :
    Extends depth db db' := by
  obtain ⟨_, objects, hget, rfl, _⟩ := checked_onCollection_ok haccepted
  cases hmatcher : getFilterMatcher engine depth db.heap filter with
  | none =>
    apply extends_put hdb hget
    intro key obj hobj
    cases hobj
  | some matcher =>
    apply extends_put hdb hget
    intro key obj hobj
    exact get_of_deleteMatching _ _ _ hobj

theorem extends_clearCollection (hdb : db.WellFormed) {name : Text}
    (haccepted : db.clearCollection name = (db', .ok reply)) : Extends depth db db' := by
  have hpassed : db.checked (.ok ()) (db.clearCollection name) = (db', .ok reply) := haccepted
  obtain ⟨_, objects, hget, rfl, _⟩ := checked_onCollection_ok hpassed
  apply extends_put hdb hget
  intro key obj hobj
  cases hobj

/-! ### Updates of a property -/

section Updating

variable {objectIds : Ref} {property : Text} {value : Ref} {shouldCreateMissing : Bool} {targets : List Nat} {a b : Nat}

theorem updated_of_ok (hdb : db.WellFormed) (haccepted : db.execute engine depth collectionName
      (.updateObjectProperty objectIds property value shouldCreateMissing) = (db', .ok reply))
    (hkeeps : KeepsPrototypes depth db
      (.write collectionName (.updateObjectProperty objectIds property value shouldCreateMissing))) :
    ∃ objects, db.collections.get collectionName = some objects ∧
      db' = db.put collectionName ⟨updateAll property value (creates property shouldCreateMissing)
        (targetsOf objects (idsOf db.heap objectIds)) db.heap, objects⟩ := by
  obtain ⟨_, objects, hget, rfl, hreply⟩ := checked_onCollection_ok haccepted
  refine ⟨objects, hget, ?_⟩
  simp only [updateProperties_eq] at hreply ⊢
  have hcells : ∀ a ∈ targetsOf objects (idsOf db.heap objectIds), ∃ properties, db.heap[a]? = some (.object properties) :=
    fun a ha => WellFormed.target_cell hdb hget ha
  have hlooped : Looped property value shouldCreateMissing db.heap (targetsOf objects (idsOf db.heap objectIds))
      (updateTargets property value shouldCreateMissing (targetsOf objects (idsOf db.heap objectIds)) db.heap) :=
    looped_updateTargets hdb.plain.ordinary hcells
  cases hlooped with
  | done hown hloop => rw [hloop]
  | failed before a after htargets hown hfails hloop =>
    rw [hloop] at hreply
    cases hreply
  | replaced before a after htargets hown hfails hreplaces hcell =>
    have ha : a ∈ targetsOf objects (idsOf db.heap objectIds) := by simp [htargets]
    rw [Replaces, misses_updateAll_iff (hcells a ha)] at hreplaces
    exact absurd hreplaces (hkeeps objects hget a ha)

theorem exists_object_updateAll (hcell : ∃ properties, db.heap[a]? = some (.object properties)) :
    ∃ properties, (updateAll property value shouldCreateMissing targets db.heap)[a]? = some (.object properties) := by
  obtain ⟨properties, hcell⟩ := hcell
  rw [getElem?_updateAll, hcell]
  split
  · exact ⟨_, rfl⟩
  · exact ⟨properties, rfl⟩

theorem wellFormed_updated (hdb : db.WellFormed) (hget : db.collections.get collectionName = some objects)
    (hvalue : value.Within db.heap) :
    (db.put collectionName ⟨updateAll property value shouldCreateMissing targets db.heap, objects⟩).WellFormed := by
  rw [wellFormed_iff]
  refine ⟨plain_updateAll hdb.plain hvalue, fun name key obj hstored => ?_⟩
  rw [stored_put_heap hget] at hstored
  obtain ⟨a, properties, rfl, hcell⟩ := (wellFormed_iff.mp hdb).2 name key obj hstored
  obtain ⟨properties', hcell'⟩ : ∃ properties',
      (updateAll property value shouldCreateMissing targets db.heap)[a]? = some (.object properties') :=
    exists_object_updateAll ⟨properties, hcell⟩
  exact ⟨a, properties', rfl, hcell'⟩

theorem view_updateAll_of_unchanged (hcells : ∀ a ∈ targets, ∃ properties, db.heap[a]? = some (.object properties))
    (hunchanged : ¬ ∃ a ∈ targets, Changes property value shouldCreateMissing db.heap a ∧ db.heap.Reaches b a) :
    (updateAll property value shouldCreateMissing targets db.heap).view depth (.address b) =
      db.heap.view depth (.address b) := by
  apply view_congr (P := db.heap.Reaches b) _ depth (Ref.in_address Relation.ReflTransGen.refl)
  intro a hreaches
  refine ⟨getElem?_updateAll_of_unchanged hcells fun ha hchanges => hunchanged ⟨a, ha, hchanges, hreaches⟩,
    fun cell hcell ref href c hc => ?_⟩
  subst hc
  exact hreaches.tail ⟨cell, hcell, href⟩

theorem idAt_eq_iff {h : Heap} (hclosed : h.Closed) {properties : List (Text × Ref)}
    (hcell : h[a]? = some (.object properties)) (depth : Nat) (key : Text) :
    idAt (depth + 1) h (.address a) = some (.string key) ↔
      ownProperty properties (text "objectId") = some (.string key) := by
  rw [idAt, get_view hclosed hcell]
  constructor
  · intro hid
    obtain ⟨ref, href, hview⟩ := Option.bind_eq_some_iff.mp hid
    rw [href, eq_string_of_view hview]
  · intro hown
    rw [hown, Option.bind_some]
    cases depth <;> rfl

theorem exists_depth_of_isObject {h : Heap} (hvalid : isObject depth h (.address a) = true) : ∃ d, depth = d + 1 := by
  cases depth with
  | zero =>
    have hnone : (h.view 0 (.address a)).any CoreTypes.isObject = false := rfl
    rw [isObject, hnone, Bool.and_false] at hvalid
    cases hvalid
  | succ d => exact ⟨d, rfl⟩

theorem ownProperty_updated_iff {properties : List (Text × Ref)} {key : Text}
    (hown : ownProperty properties (text "objectId") = some (.string key)) :
    ownProperty (updatedProperties property value shouldCreateMissing properties) (text "objectId") = some (.string key) ↔
      (property = text "objectId" → value = .string key) := by
  rw [updatedProperties]
  by_cases hproperty : property = text "objectId"
  · subst hproperty
    by_cases hvalue : value = .undefined
    · simp [hvalue, ownProperty_deleteProperty]
    · have hset : ((properties.lookup (text "objectId")).isSome || shouldCreateMissing) = true := by
        rw [isSome_lookup_of_ownProperty hown, Bool.true_or]
      rw [if_neg hvalue, if_pos hset, ownProperty_setProperty _ _ _ hvalue]
      simp
  · have hne : text "objectId" ≠ property := Ne.symm hproperty
    refine iff_of_true ?_ fun heq => absurd heq hproperty
    split
    · rw [ownProperty_deleteProperty, if_neg hne, hown]
    · rename_i hvalue
      split
      · rw [ownProperty_setProperty _ _ _ hvalue, if_neg hne, hown]
      · exact hown

/-- What is stored after an update is valid and has its id exactly if the update leaves ids alone and what it changes is valid. -/
theorem keyed_updated_iff (hdb : db.WellFormed) (hget : db.collections.get collectionName = some objects)
    (hvalue : value.Within db.heap) (hkeyed : Keyed depth db)
    (hcells : ∀ a ∈ targets, ∃ properties, db.heap[a]? = some (.object properties)) :
    Keyed depth (db.put collectionName ⟨updateAll property value shouldCreateMissing targets db.heap, objects⟩) ↔
      (property = text "objectId" → ∀ a ∈ targets, ∀ name key, db.stored name key = some (.address a) →
        value = .string key) ∧
      ∀ name key b, db.stored name key = some (.address b) →
        (∃ a ∈ targets, Changes property value shouldCreateMissing db.heap a ∧ db.heap.Reaches b a) →
          isObject depth (updateAll property value shouldCreateMissing targets db.heap) (.address b) = true := by
  have hplain' : (updateAll property value shouldCreateMissing targets db.heap).Plain := plain_updateAll hdb.plain hvalue
  -- The id of a stored object after the update.
  have hids : ∀ name key b, db.stored name key = some (.address b) →
      (idAt depth (updateAll property value shouldCreateMissing targets db.heap) (.address b) = some (.string key) ↔
        (b ∈ targets → property = text "objectId" → value = .string key)) := by
    intro name key b hstored
    obtain ⟨hid, hvalid⟩ := hkeyed name key _ hstored
    obtain ⟨d, rfl⟩ := exists_depth_of_isObject hvalid
    obtain ⟨_, properties, heq, hcell⟩ := (wellFormed_iff.mp hdb).2 name key _ hstored
    cases heq
    rw [idAt_eq_iff hdb.plain.closed hcell] at hid
    have hcell' : (updateAll property value shouldCreateMissing targets db.heap)[b]? = _ := getElem?_updateAll targets db.heap b
    rw [hcell] at hcell'
    by_cases hb : b ∈ targets
    · rw [if_pos hb] at hcell'
      rw [idAt_eq_iff hplain'.closed hcell', ownProperty_updated_iff hid]
      simp [hb]
    · rw [if_neg hb] at hcell'
      rw [idAt_eq_iff hplain'.closed hcell']
      simp [hb, hid]
  constructor
  · intro hkeyed'
    refine ⟨fun hproperty a ha name key hstored => ?_, fun name key b hstored _ => ?_⟩
    · have hid := (hkeyed' name key (.address a) (by rw [stored_put_heap hget, hstored])).1
      exact (hids name key a hstored).mp hid ha hproperty
    · exact (hkeyed' name key (.address b) (by rw [stored_put_heap hget, hstored])).2
  · intro hkeeps name key obj hstored
    rw [stored_put_heap hget] at hstored
    obtain ⟨b, _, rfl, _⟩ := (wellFormed_iff.mp hdb).2 name key obj hstored
    refine ⟨(hids name key b hstored).mpr fun hb hproperty => hkeeps.1 hproperty b hb name key hstored, ?_⟩
    by_cases hreaches : ∃ a ∈ targets, Changes property value shouldCreateMissing db.heap a ∧ db.heap.Reaches b a
    · exact hkeeps.2 name key b hstored hreaches
    · have hview : (updateAll property value shouldCreateMissing targets db.heap).view depth (.address b) =
          db.heap.view depth (.address b) := view_updateAll_of_unchanged hcells hreaches
      rw [Database.put, isObject_of_plain hplain', hview, ← isObject_of_plain hdb.plain]
      exact (hkeyed name key _ hstored).2

end Updating

/-! ### Runs -/

theorem perform_write_spec (hdb : db.WellFormed) {call : Write} (hwithin : call.Within db.heap)
    (haccepted : db.execute engine depth collectionName call = (db', .ok reply))
    (hprototypes : KeepsPrototypes depth db (.write collectionName call)) :
    db'.WellFormed ∧ (Keyed depth db → (Keyed depth db' ↔ KeepsValid depth db (.write collectionName call))) := by
  have hextends : Extends depth db db' → KeepsValid depth db (.write collectionName call) →
      db'.WellFormed ∧ (Keyed depth db → (Keyed depth db' ↔ KeepsValid depth db (.write collectionName call))) :=
    fun h hkeeps => ⟨h.wellFormed hdb, fun hkeyed => iff_of_true (h.keyed hdb hkeyed) hkeeps⟩
  cases call with
  | insertObjects objs shouldReplaceExisting => 
    exact hextends (extends_insertObjects hdb hwithin haccepted hprototypes) trivial
  | updateObjects objs => exact hextends (extends_updateObjects hdb hwithin haccepted hprototypes) trivial
  | deleteObjectsById objectIds => exact hextends (extends_deleteObjectsById hdb haccepted) trivial
  | deleteObjects filter => exact hextends (extends_deleteObjects hdb haccepted) trivial
  | updateObjectProperty objectIds property value shouldCreateMissing =>
    obtain ⟨objects, hget, rfl⟩ := updated_of_ok hdb haccepted hprototypes
    refine ⟨wellFormed_updated hdb hget hwithin.2, fun hkeyed => ?_⟩
    rw [keyed_updated_iff hdb hget hwithin.2 hkeyed fun a ha => WellFormed.target_cell hdb hget ha]
    constructor
    · intro hkeeps objects' hget'
      cases hget.symm.trans hget'
      exact hkeeps
    · intro hkeeps
      exact hkeeps objects hget

/-- An operation that is accepted keeps what is stored valid exactly if it is no update of a property that does not. -/
theorem perform_spec (hdb : db.WellFormed) {operation : Operation} (haccepted : Accepted engine depth db operation)
    (hprototypes : KeepsPrototypes depth db operation) :
    ∃ db', perform engine depth db operation = .ok db' ∧ db'.WellFormed ∧
      (Sound engine depth db → (Sound engine depth db' ↔ KeepsValid depth db operation)) := by
  obtain ⟨hwithin, db', hperform⟩ := haccepted
  refine ⟨db', hperform, ?_⟩
  rw [sound_iff_keyed, sound_iff_keyed]
  have hextends : Extends depth db db' → KeepsValid depth db operation →
      db'.WellFormed ∧ (Keyed depth db → (Keyed depth db' ↔ KeepsValid depth db operation)) :=
    fun h hkeeps => ⟨h.wellFormed hdb, fun hkeyed => iff_of_true (h.keyed hdb hkeyed) hkeeps⟩
  cases operation with
  | create cell =>
    cases hperform
    exact hextends (extends_create hdb hwithin.1 hwithin.2) trivial
  | addCollection name =>
    cases hperform
    exact hextends (extends_addCollection hdb name) trivial
  | removeCollection name =>
    cases hperform
    exact hextends (extends_removeCollection hdb name) trivial
  | clearCollection name =>
    rw [perform] at hperform
    split at hperform
    · rename_i hclear
      cases hperform
      exact hextends (extends_clearCollection hdb hclear) trivial
    · cases hperform
  | write collectionName call =>
    rw [perform] at hperform
    split at hperform
    · rename_i hexecute
      cases hperform
      exact perform_write_spec hdb hwithin hexecute hprototypes
    · cases hperform

theorem stored_initial (h : Heap) (name key : Text) : (initial h).stored name key = none := rfl

theorem wellFormed_initial {h : Heap} (hplain : h.Plain) : (initial h).WellFormed := by
  rw [wellFormed_iff]
  refine ⟨hplain, fun name key obj hstored => ?_⟩
  rw [stored_initial] at hstored
  cases hstored

theorem sound_initial (h : Heap) : Sound engine depth (initial h) := by
  rw [sound_iff_keyed]
  intro name key obj hstored
  rw [stored_initial] at hstored
  cases hstored

/-- A lamp is stored in a new collection. -/
def storeLamp : List Operation :=
  [.create (plainCell "lamp" []), .addCollection (text "lamps"), .write (text "lamps") (.insertObjects (.address 0) true)]

/-- The lamp is given another id. -/
def renameLamp : Operation :=
  .write (text "lamps") (.updateObjectProperty (.string (text "lamp")) (text "objectId") (.string (text "torch")) true)

theorem accepted_storeLamp (rest : List Operation)
    (hrest : ∀ db, storeLamp.foldlM (perform bareEngine 8) (initial []) = .ok db →
      AlongOk (perform bareEngine 8) (Accepted bareEngine 8) db rest) :
    AlongOk (perform bareEngine 8) (Accepted bareEngine 8) (initial []) (storeLamp ++ rest) := by
  have hwithin : ∀ ref ∈ (plainCell "lamp" []).refs, ref.Within [] := by
    simp [plainCell, Cell.refs, Ref.Within, Ref.In]
  refine alongOk_cons ⟨⟨hwithin, trivial⟩, _, rfl⟩ rfl (alongOk_cons ⟨trivial, _, rfl⟩ rfl ?_)
  exact alongOk_cons ⟨Ref.in_address (by decide), _, rfl⟩ rfl (hrest _ rfl)

theorem keepsPrototypes_storeLamp : AlongOk (perform bareEngine 8) (KeepsPrototypes 8) (initial []) storeLamp := by
  refine alongOk_cons trivial rfl (alongOk_cons trivial rfl (alongOk_cons ?_ rfl trivial))
  have hlacks : ∀ cell ∈ [plainCell "lamp" []], cell.Lacks (text "__proto__") := by
    rw [List.forall_mem_singleton]
    decide
  intro objects _ obj _
  exact Deep.lossless_of_lacks hlacks 8 obj

theorem plain_nil : Heap.Plain [] := by
  constructor
  · intro cell hcell
    cases hcell
  · intro cell hcell
    cases hcell

end InMemory

end Coaty
