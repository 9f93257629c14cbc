import Coaty.Com.ContextFilters
import Coaty.Db.InMemory.Writes

/-!
# Atomicity of database writes

A write of the database context is to change nothing if it is rejected, and to do what it says and nothing else if it is fulfilled. The operations of the in-memory adapter change objects and collections one by one and do not take anything back, so this holds as long as none comes to an element that fails after it has changed another one, as long as no other stored object shares an object that a property is updated of, and as long as nothing is assigned to a property `__proto__`, which replaces the prototype.
-/

namespace Coaty

open Js Heap Value Evaluation

namespace InMemory

namespace Database

/-- The object under an id in a collection. -/
def stored (db : Database) (name key : Text) : Option Ref := (db.collections.get name).bind fun objects => objects.get key

end Database

/-- Whatever can be reached from the reference has the same own properties or items in both heaps. -/
def SameContents (h h' : Heap) (ref : Ref) : Prop := ∀ a, ref = .address a → ∀ b, h.Reaches a b → h'[b]? = h[b]?

/-- The same objects are stored, and with the same contents. -/
structure Keeps (db db' : Database) (kept : Text → Text → Prop) : Prop where
  stored : ∀ name key, kept name key → db'.stored name key = db.stored name key
  contents : ∀ name key obj, kept name key → db.stored name key = some obj → SameContents db.heap db'.heap obj

/-- The ids are those of the objects that have been stored, a copy of the last one for each id, and no other object is changed. -/
structure Stores (depth : Nat) (db db' : Database) (collectionName : Text) (due : List Ref) (objectIds : List Text) :
    Prop where
  ids : ∀ key, key ∈ objectIds ↔ db'.stored collectionName key ≠ db.stored collectionName key
  keys : ∀ key, key ∈ objectIds ↔ key ∈ due.map (objectIdOf depth db.heap)
  copies : ∀ obj, IsLast (objectIdOf depth db.heap) due obj →
    ∃ copy, db'.stored collectionName (objectIdOf depth db.heap obj) = some copy ∧
      db'.heap.view depth copy = db.heap.view depth obj
  keeps : Keeps db db' fun name key => ¬ (name = collectionName ∧ key ∈ objectIds)

/-- The ids are those of the objects that have been deleted, and no other object is changed. -/
structure Deletes (db db' : Database) (collectionName : Text) (objectIds : List Text) : Prop where
  ids : ∀ key, key ∈ objectIds ↔ db.stored collectionName key ≠ none ∧ db'.stored collectionName key = none
  keeps : Keeps db db' fun name key => ¬ (name = collectionName ∧ key ∈ objectIds)

/-- The property of the objects under the ids has been updated, and no other object is changed. -/
structure Updates (db db' : Database) (collectionName : Text) (objIds : List Text) (property : Text) (value : Ref)
    (shouldCreateMissing : Bool) : Prop where
  targets : ∀ key ∈ objIds, ∀ a, db.stored collectionName key = some (.address a) →
    db'.heap[a]? = db.heap[a]?.map (updated property value shouldCreateMissing)
  keeps : Keeps db db' fun name key => ¬ (name = collectionName ∧ key ∈ objIds)

/-- What the write says and its reply are what has been changed. -/
def Exact (depth : Nat) (db db' : Database) (collectionName : Text) : Write → Reply → Prop
  | .insertObjects objs shouldReplaceExisting, .ids objectIds =>
    ∀ objects, db.collections.get collectionName = some objects → Stores depth db db' collectionName
      (dueToInsert depth db.heap objects shouldReplaceExisting (listOf db.heap objs)) objectIds
  | .updateObjects objs, .ids objectIds =>
    ∀ objects, db.collections.get collectionName = some objects → Stores depth db db' collectionName
      (dueToUpdate depth db.heap objects (listOf db.heap objs)) objectIds
  | .updateObjectProperty objectIds property value shouldCreateMissing, .nothing =>
    Updates db db' collectionName (idsOf db.heap objectIds) property value shouldCreateMissing
  | .deleteObjectsById _, .ids objectIds => Deletes db db' collectionName objectIds
  | .deleteObjects _, .count n => ∃ objectIds, objectIds.Nodup ∧ objectIds.length = n ∧ Deletes db db' collectionName objectIds
  | _, _ => False

variable (engine : Engine) (depth : Nat) (db : Database) (collectionName : Text)

/-- A rejected write changes nothing in its collection, and a fulfilled one nothing but what its reply says. -/
def Atomic (write : Write) : Prop :=
  match db.execute engine depth collectionName write with
  | (db', .error _) => Keeps db db' fun name _ => name = collectionName
  | (db', .ok reply) => Exact depth db db' collectionName write reply

/-- No other object that is stored leads to an object that the update of a property makes a difference to. -/
def Isolated (targets : List Nat) (objIds : List Text) (property : Text) (value : Ref) (shouldCreateMissing : Bool) : Prop :=
  ∀ a ∈ targets, Changes property value shouldCreateMissing db.heap a → ∀ name key b,
    ¬ (name = collectionName ∧ key ∈ objIds) → db.stored name key = some (.address b) → ¬ db.heap.Reaches b a

/-- No object that is due comes before the first one that cannot be copied, and if there is none of these, those that are stored have no property `__proto__` anywhere. -/
def CopiesFirst (due : List Ref) : Prop :=
  NoneBefore (fun obj => ¬ Deep.Clonable db.heap depth obj) (fun _ => True) due ∧
    ((∀ obj ∈ due, Deep.Clonable db.heap depth obj) →
      ∀ obj, IsLast (objectIdOf depth db.heap) due obj → Deep.Lossless db.heap depth obj)

/-- No object that is to be updated is changed before the first one that the update of fails, and if there is none of these, nothing is assigned to a missing property `__proto__`, no object is given a property that hides the method that the update calls and then updated again, and the objects are isolated. -/
def UpdatesFirst (objects : Collection) (objIds : List Text) (property : Text) (value : Ref) (shouldCreateMissing : Bool) :
    Prop :=
  let targets := targetsOf objects objIds
  NoneBefore (Fails property value shouldCreateMissing db.heap)
      (fun a => Replaces property value shouldCreateMissing db.heap a ∨
        Changes property value (creates property shouldCreateMissing) db.heap a) targets ∧
    ((∀ a ∈ targets, ¬ Fails property value shouldCreateMissing db.heap a) →
      (∀ a ∈ targets, ¬ Misses property value shouldCreateMissing db.heap a) ∧
        (value ≠ .undefined → property = text "hasOwnProperty" → shouldCreateMissing = true → targets.Nodup) ∧
          Isolated db collectionName targets objIds property value (creates property shouldCreateMissing))

/-- No object matches before the first one that the filter cannot be matched against. -/
def MatchesFirst (matcher : Ref → Except Error Bool) (objects : Collection) : Prop :=
  NoneBefore (fun entry => ¬ Returns (matcher entry.2)) (fun entry => matcher entry.2 = .ok true) objects.entries

/-- No step of the write on a collection fails after another one has changed something, and it changes nothing that other objects share. -/
def UndividedOn (objects : Collection) : Write → Prop
  | .insertObjects objs shouldReplaceExisting => throwIfNotObjectType depth db.heap objs = .ok () →
    CopiesFirst depth db (dueToInsert depth db.heap objects shouldReplaceExisting (listOf db.heap objs))
  | .updateObjects objs => throwIfNotObjectType depth db.heap objs = .ok () →
    CopiesFirst depth db (dueToUpdate depth db.heap objects (listOf db.heap objs))
  | .updateObjectProperty objectIds property value shouldCreateMissing => throwIfNotUuids db.heap objectIds = .ok () →
    UpdatesFirst db collectionName objects (idsOf db.heap objectIds) property value shouldCreateMissing
  | .deleteObjectsById _ => True
  | .deleteObjects filter => throwIfObjectFilterInvalid filter = .ok () →
    ∀ matcher, getFilterMatcher engine depth db.heap filter = some matcher → MatchesFirst matcher objects

def Undivided (write : Write) : Prop :=
  ∀ objects, db.collections.get collectionName = some objects → UndividedOn engine depth db collectionName objects write

/-- The references that a write is given lead to objects of the heap. -/
def Write.Within (h : Heap) : Write → Prop
  | .insertObjects objects _ => objects.Within h
  | .updateObjects objects => objects.Within h
  | .updateObjectProperty objectIds _ value _ => objectIds.Within h ∧ value.Within h
  | .deleteObjectsById objectIds => objectIds.Within h
  | .deleteObjects _ => True

variable {engine} {depth} {db} {collectionName} {objects : Collection}

/-! ### What is stored after an operation -/

namespace Database

/-- The database after an operation on a collection. -/
def put (db : Database) (collectionName : Text) (store : Store) : Database :=
  ⟨store.heap, db.collections.set collectionName store.objects⟩

theorem stored_put (store : Store) (name key : Text) :
    (db.put collectionName store).stored name key =
      if name = collectionName then store.objects.get key else db.stored name key := by
  rw [stored, put, Map.get_set]
  by_cases hname : name = collectionName
  · simp [hname]
  · simp [hname, stored]

theorem stored_of_get (hget : db.collections.get collectionName = some objects) (key : Text) :
    db.stored collectionName key = objects.get key := by
  rw [stored, hget]
  rfl

theorem onCollection_of_none (hget : db.collections.get collectionName = none) (failure : String)
    (operation : Store → Store × Except Rejection Reply) :
    db.onCollection failure collectionName operation = (db, .error (notExisting failure collectionName)) := by
  simp only [onCollection, hget]

theorem onCollection_of_some (hget : db.collections.get collectionName = some objects) (failure : String)
    (operation : Store → Store × Except Rejection Reply) :
    db.onCollection failure collectionName operation =
      (db.put collectionName (operation ⟨db.heap, objects⟩).1, (operation ⟨db.heap, objects⟩).2) := by
  simp only [onCollection, hget]
  rfl

end Database

theorem keeps_refl (kept : Text → Text → Prop) : Keeps db db kept :=
  ⟨fun _ _ _ => rfl, fun _ _ _ _ _ _ _ _ _ => rfl⟩

theorem WellFormed.sameContents (hdb : db.WellFormed) {h' : Heap} (hgrown : db.heap <+: h') {name key : Text} {obj : Ref}
    (hstored : db.stored name key = some obj) : SameContents db.heap h' obj := by
  obtain ⟨objects, hget, hobj⟩ := Option.bind_eq_some_iff.mp hstored
  obtain ⟨a, properties, rfl, hcell⟩ := hdb.stored name objects key obj hget hobj
  intro a' ha' b hreaches
  cases ha'
  obtain ⟨hlt, _⟩ := List.getElem?_eq_some_iff.mp hcell
  exact getElem?_of_grown hgrown (hdb.plain.closed.lt_of_reaches hlt hreaches)

theorem WellFormed.lt_of_stored (hdb : db.WellFormed) {name key : Text} {a : Nat}
    (hstored : db.stored name key = some (.address a)) : a < db.heap.length := by
  obtain ⟨objects, hget, hobj⟩ := Option.bind_eq_some_iff.mp hstored
  obtain ⟨a', properties, heq, hcell⟩ := hdb.stored name objects key _ hget hobj
  cases heq
  exact (List.getElem?_eq_some_iff.mp hcell).1

/-! ### Inserting and updating objects -/

section Writing

variable {due : List Ref} {s' : Store}

theorem Wrote.stored_of_not_mem (hwrote : Wrote depth db.heap due ⟨db.heap, objects⟩ s')
    (hget : db.collections.get collectionName = some objects) {name key : Text}
    (hkey : ¬ (name = collectionName ∧ key ∈ due.map (objectIdOf depth db.heap))) :
    (db.put collectionName s').stored name key = db.stored name key := by
  rw [Database.stored_put]
  by_cases hname : name = collectionName
  · have hkey' : key ∉ due.map (objectIdOf depth db.heap) := fun hmem => hkey ⟨hname, hmem⟩
    rw [if_pos hname, hname, Database.stored_of_get hget, hwrote.kept key hkey']
  · rw [if_neg hname]

theorem Wrote.stored_of_mem (hwrote : Wrote depth db.heap due ⟨db.heap, objects⟩ s') (hdb : db.WellFormed) {key : Text}
    (hkey : key ∈ due.map (objectIdOf depth db.heap)) :
    (db.put collectionName s').stored collectionName key ≠ db.stored collectionName key := by
  obtain ⟨obj, hlast, rfl⟩ := exists_isLast hkey
  obtain ⟨a, hget, hfresh, -⟩ := hwrote.written obj hlast
  rw [Database.stored_put, if_pos rfl, hget]
  intro hsame
  have hlt := WellFormed.lt_of_stored hdb hsame.symm
  have hle : db.heap.length ≤ a := hfresh
  omega

theorem Wrote.stores_iff (hwrote : Wrote depth db.heap due ⟨db.heap, objects⟩ s') (hdb : db.WellFormed)
    (hget : db.collections.get collectionName = some objects) :
    Stores depth db (db.put collectionName s') collectionName due (due.map (objectIdOf depth db.heap)) ↔
      ∀ obj, IsLast (objectIdOf depth db.heap) due obj → Deep.Lossless db.heap depth obj := by
  have hstored : ∀ obj, IsLast (objectIdOf depth db.heap) due obj → ∃ a,
      (db.put collectionName s').stored collectionName (objectIdOf depth db.heap obj) = some (.address a) ∧
        (s'.heap.view depth (.address a) = db.heap.view depth obj ↔ Deep.Lossless db.heap depth obj) := by
    intro obj hlast
    obtain ⟨a, hstored, -, -, hview⟩ := hwrote.written obj hlast
    refine ⟨a, ?_, hview⟩
    rw [Database.stored_put, if_pos rfl, hstored]
  constructor
  · intro hstores obj hlast
    obtain ⟨a, hput, hview⟩ := hstored obj hlast
    obtain ⟨copy, hcopy, hsame⟩ := hstores.copies obj hlast
    cases hput.symm.trans hcopy
    exact hview.mp hsame
  · intro hlossless
    refine ⟨fun key => ⟨fun hkey => hwrote.stored_of_mem hdb hkey, fun hne => ?_⟩, fun key => Iff.rfl, fun obj hlast => ?_,
      ?_, ?_⟩
    · by_contra hkey
      exact hne (hwrote.stored_of_not_mem hget fun hmem => hkey hmem.2)
    · obtain ⟨a, hput, hview⟩ := hstored obj hlast
      exact ⟨.address a, hput, hview.mpr (hlossless obj hlast)⟩
    · intro name key hkey
      exact hwrote.stored_of_not_mem hget hkey
    · intro name key obj _ hstored
      exact WellFormed.sameContents hdb hwrote.heap hstored

theorem Wrote.keeps_iff (hwrote : Wrote depth db.heap due ⟨db.heap, objects⟩ s') (hdb : db.WellFormed)
    (hget : db.collections.get collectionName = some objects) :
    (Keeps db (db.put collectionName s') fun name _ => name = collectionName) ↔ ∀ obj ∈ due, ¬ True := by
  constructor
  · intro hkeeps obj hobj _
    have hkey : objectIdOf depth db.heap obj ∈ due.map (objectIdOf depth db.heap) := List.mem_map_of_mem hobj
    exact hwrote.stored_of_mem hdb hkey (hkeeps.stored collectionName _ rfl)
  · intro hnone
    have hnil : due = [] := List.eq_nil_iff_forall_not_mem.mpr fun obj hobj => hnone obj hobj trivial
    subst hnil
    refine ⟨fun name key _ => hwrote.stored_of_not_mem hget (by simp), fun name key obj _ hstored => ?_⟩
    exact WellFormed.sameContents hdb hwrote.heap hstored

theorem writeObjects_cases (hdb : db.WellFormed) (objects : Collection)
    (hdue : ∀ obj ∈ due, obj.Within db.heap ∧ isObject depth db.heap obj = true) :
    (∃ before obj after s' e, due = before ++ obj :: after ∧ (∀ obj ∈ before, Deep.Clonable db.heap depth obj) ∧
        ¬ Deep.Clonable db.heap depth obj ∧ Wrote depth db.heap before ⟨db.heap, objects⟩ s' ∧
        writeObjects depth (fun _ _ => true) due ⟨db.heap, objects⟩ [] = (s', .error e)) ∨
      (∀ obj ∈ due, Deep.Clonable db.heap depth obj) ∧ ∃ s', Wrote depth db.heap due ⟨db.heap, objects⟩ s' ∧
        writeObjects depth (fun _ _ => true) due ⟨db.heap, objects⟩ [] =
          (s', .ok (.ids (due.map (objectIdOf depth db.heap)))) := by
  by_cases hfails : ∃ obj ∈ due, ¬ Deep.Clonable db.heap depth obj
  · obtain ⟨before, obj, after, rfl, hbefore, hobj⟩ := exists_first hfails
    simp only [not_not] at hbefore
    have hbefore' : ∀ obj ∈ before, obj.Within db.heap ∧ isObject depth db.heap obj = true ∧
        Deep.Clonable db.heap depth obj := by
      intro obj hmem
      obtain ⟨hwithin, hvalid⟩ := hdue obj (by simp [hmem])
      exact ⟨hwithin, hvalid, hbefore obj hmem⟩
    obtain ⟨s', hwrote, hloop⟩ := writeObjects_append (s := ⟨db.heap, objects⟩) hdb.plain (List.prefix_refl _)
      hdb.plain.closed hbefore' (obj :: after) []
    obtain ⟨hwithin, hvalid⟩ := hdue obj (by simp)
    obtain ⟨e, herror⟩ := writeObjects_error hdb.plain hwrote.heap hwithin hvalid hobj after
      ([] ++ before.map (objectIdOf depth db.heap))
    exact .inl ⟨before, obj, after, s', e, rfl, hbefore, hobj, hwrote, hloop.trans herror⟩
  · simp only [not_exists, not_and, not_not] at hfails
    have hdue' : ∀ obj ∈ due, obj.Within db.heap ∧ isObject depth db.heap obj = true ∧
        Deep.Clonable db.heap depth obj := by
      intro obj hmem
      obtain ⟨hwithin, hvalid⟩ := hdue obj hmem
      exact ⟨hwithin, hvalid, hfails obj hmem⟩
    obtain ⟨s', hwrote, hloop⟩ := writeObjects_append (s := ⟨db.heap, objects⟩) hdb.plain (List.prefix_refl _)
      hdb.plain.closed hdue' [] []
    rw [List.append_nil] at hloop
    exact .inr ⟨hfails, s', hwrote, hloop⟩

/-- Writing all of a list is atomic exactly if none comes before the first object that cannot be copied, and what is stored loses nothing. -/
theorem atomic_iff_copiesFirst {write : Write} (hdb : db.WellFormed)
    (hget : db.collections.get collectionName = some objects)
    (hdue : ∀ obj ∈ due, obj.Within db.heap ∧ isObject depth db.heap obj = true)
    (hexecute : db.execute engine depth collectionName write =
      (db.put collectionName (writeObjects depth (fun _ _ => true) due ⟨db.heap, objects⟩ []).1,
        (writeObjects depth (fun _ _ => true) due ⟨db.heap, objects⟩ []).2))
    (hexact : ∀ db' objectIds, Exact depth db db' collectionName write (.ids objectIds) ↔
      Stores depth db db' collectionName due objectIds) :
    Atomic engine depth db collectionName write ↔ CopiesFirst depth db due := by
  obtain ⟨before, obj, after, s', e, rfl, hbefore, hobj, hwrote, hloop⟩ | ⟨hclonable, s', hwrote, hloop⟩ :=
    writeObjects_cases hdb objects hdue
  · have hbefore' : ∀ obj ∈ before, ¬ ¬ Deep.Clonable db.heap depth obj := fun obj hmem hnot => hnot (hbefore obj hmem)
    have hvacuous : (∀ other ∈ before ++ obj :: after, Deep.Clonable db.heap depth other) →
        ∀ other, IsLast (objectIdOf depth db.heap) (before ++ obj :: after) other → Deep.Lossless db.heap depth other :=
      fun hall => absurd (hall obj (by simp)) hobj
    rw [CopiesFirst, noneBefore_iff hbefore' hobj, and_iff_left hvacuous, Atomic, hexecute, hloop]
    exact hwrote.keeps_iff hdb hget
  · have hnone : NoneBefore (fun obj => ¬ Deep.Clonable db.heap depth obj) (fun _ => True) due :=
      noneBefore_of_none fun obj hmem hnot => hnot (hclonable obj hmem)
    rw [CopiesFirst, and_iff_right hnone, Atomic, hexecute, hloop]
    exact (hexact _ _).trans ((hwrote.stores_iff hdb hget).trans ⟨fun h _ => h, fun h => h hclonable⟩)

theorem isObject_of_check {objects : Ref} (hcheck : throwIfNotObjectType depth db.heap objects = .ok ()) :
    ∀ obj ∈ listOf db.heap objects, isObject depth db.heap obj = true := by
  rw [throwIfNotObjectType] at hcheck
  rw [listOf]
  cases hitems : db.heap.itemsOf objects with
  | none =>
    simp only [hitems] at hcheck
    split at hcheck
    · rename_i hvalid
      simpa using hvalid
    · cases hcheck
  | some items =>
    simp only [hitems] at hcheck
    split at hcheck
    · rename_i hvalid
      simpa using hvalid
    · cases hcheck

theorem within_of_mem_listOf (hclosed : db.heap.Closed) {objects : Ref} (hobjects : objects.Within db.heap) :
    ∀ obj ∈ listOf db.heap objects, obj.Within db.heap := by
  rw [listOf]
  cases hitems : db.heap.itemsOf objects with
  | none => simpa using hobjects
  | some items => exact hclosed.items hitems

end Writing

/-! ### Checks and missing collections -/

variable {write : Write}

theorem atomic_of_unchanged {e : Rejection} (hexecute : db.execute engine depth collectionName write = (db, .error e)) :
    Atomic engine depth db collectionName write := by
  rw [Atomic, hexecute]
  exact keeps_refl _

theorem forall_get_iff (hget : db.collections.get collectionName = some objects) {P : Collection → Prop} :
    (∀ objects', db.collections.get collectionName = some objects' → P objects') ↔ P objects := by
  constructor
  · intro h
    exact h objects hget
  · intro h objects' hget'
    cases hget.symm.trans hget'
    exact h

theorem undivided_of_none (hget : db.collections.get collectionName = none) :
    Undivided engine depth db collectionName write := by
  intro objects hget'
  rw [hget] at hget'
  cases hget'

theorem atomic_iff_undivided_of_passed {check : Except Rejection Unit} {failure : String}
    {operation : Store → Store × Except Rejection Reply}
    (hexecute : db.execute engine depth collectionName write =
      db.checked check (db.onCollection failure collectionName operation))
    (hfailed : ∀ objects e, check = .error e → UndividedOn engine depth db collectionName objects write)
    (hpassed : ∀ objects, db.collections.get collectionName = some objects → check = .ok () →
      db.execute engine depth collectionName write =
        (db.put collectionName (operation ⟨db.heap, objects⟩).1, (operation ⟨db.heap, objects⟩).2) →
      (Atomic engine depth db collectionName write ↔ UndividedOn engine depth db collectionName objects write)) :
    Atomic engine depth db collectionName write ↔ Undivided engine depth db collectionName write := by
  cases check with
  | error e =>
    refine iff_of_true (atomic_of_unchanged hexecute) fun objects _ => hfailed objects e rfl
  | ok passed =>
    cases hget : db.collections.get collectionName with
    | none =>
      have hrejected : db.execute engine depth collectionName write = (db, .error (notExisting failure collectionName)) := by
        rw [hexecute, Database.checked, Database.onCollection_of_none hget]
      exact iff_of_true (atomic_of_unchanged hrejected) (undivided_of_none hget)
    | some objects =>
      rw [Undivided, forall_get_iff hget]
      apply hpassed objects hget rfl
      rw [hexecute, Database.checked, Database.onCollection_of_some hget]

theorem atomic_insertObjects_iff (hdb : db.WellFormed) {objs : Ref} (hobjs : objs.Within db.heap)
    (shouldReplaceExisting : Bool) :
    Atomic engine depth db collectionName (.insertObjects objs shouldReplaceExisting) ↔
      Undivided engine depth db collectionName (.insertObjects objs shouldReplaceExisting) := by
  have hwithin := within_of_mem_listOf hdb.plain.closed hobjs
  apply atomic_iff_undivided_of_passed rfl
  · intro objects e hfailed hcheck
    rw [hfailed] at hcheck
    cases hcheck
  · intro objects hget hcheck hexecute
    have hvalid := isObject_of_check hcheck
    have hdue := @dueToInsert_subset depth db.heap objects shouldReplaceExisting (listOf db.heap objs)
    rw [writeObjects_insert hdb.plain.closed (List.prefix_refl _) hdb.plain.closed hwithin] at hexecute
    rw [atomic_iff_copiesFirst hdb hget (fun obj hmem => ⟨hwithin obj (hdue hmem), hvalid obj (hdue hmem)⟩) hexecute
      fun _ _ => forall_get_iff hget]
    exact ⟨fun h _ => h, fun h => h hcheck⟩

theorem atomic_updateObjects_iff (hdb : db.WellFormed) {objs : Ref} (hobjs : objs.Within db.heap) :
    Atomic engine depth db collectionName (.updateObjects objs) ↔
      Undivided engine depth db collectionName (.updateObjects objs) := by
  have hwithin := within_of_mem_listOf hdb.plain.closed hobjs
  apply atomic_iff_undivided_of_passed rfl
  · intro objects e hfailed hcheck
    rw [hfailed] at hcheck
    cases hcheck
  · intro objects hget hcheck hexecute
    have hvalid := isObject_of_check hcheck
    have hdue : dueToUpdate depth db.heap objects (listOf db.heap objs) ⊆ listOf db.heap objs := List.filter_subset_self _
    rw [writeObjects_update hdb.plain.closed (List.prefix_refl _) hdb.plain.closed hwithin] at hexecute
    rw [atomic_iff_copiesFirst hdb hget (fun obj hmem => ⟨hwithin obj (hdue hmem), hvalid obj (hdue hmem)⟩) hexecute
      fun _ _ => forall_get_iff hget]
    exact ⟨fun h _ => h, fun h => h hcheck⟩

/-! ### Deleting objects -/

variable {objectIds : List Text} {objects' : Collection}

theorem deletes_put (hget : db.collections.get collectionName = some objects)
    (hdeleted : ∀ key, objects'.get key = if key ∈ objectIds then none else objects.get key)
    (hids : ∀ key ∈ objectIds, objects.get key ≠ none) :
    Deletes db (db.put collectionName ⟨db.heap, objects'⟩) collectionName objectIds := by
  have hstored : ∀ name key, (db.put collectionName ⟨db.heap, objects'⟩).stored name key =
      if name = collectionName ∧ key ∈ objectIds then none else db.stored name key := by
    intro name key
    rw [Database.stored_put, hdeleted]
    by_cases hname : name = collectionName
    · by_cases hkey : key ∈ objectIds
      · simp [hname, hkey]
      · simp [hname, hkey, Database.stored_of_get hget]
    · simp [hname]
  refine ⟨fun key => ?_, fun name key hkey => ?_, fun _ _ _ _ _ _ _ _ _ => rfl⟩
  · rw [hstored, Database.stored_of_get hget]
    by_cases hkey : key ∈ objectIds
    · simp [hkey, hids key hkey]
    · simp [hkey]
  · rw [hstored, if_neg hkey]

theorem atomic_deleteObjectsById (objs : Ref) :
    Atomic engine depth db collectionName (.deleteObjectsById objs) ↔
      Undivided engine depth db collectionName (.deleteObjectsById objs) := by
  apply atomic_iff_undivided_of_passed rfl
  · intro objects e _
    trivial
  · intro objects hget _ hexecute
    refine iff_of_true ?_ trivial
    rw [Atomic, hexecute]
    obtain ⟨hdeleted, hids⟩ := deleteIds_spec (idsOf db.heap objs) objects []
    simp only [List.not_mem_nil, false_or] at hids
    apply deletes_put hget
    · intro key
      rw [hdeleted]
      simp only [hids]
      by_cases hkey : key ∈ idsOf db.heap objs
      · cases hobj : objects.get key with
        | none => simp [hkey]
        | some obj => simp [hkey, Map.has, hobj]
      · simp [hkey]
    · intro key hkey
      have hhas := ((hids key).mp hkey).2
      rw [Map.has_iff] at hhas
      obtain ⟨obj, hobj⟩ := hhas
      simp [hobj]

variable {matcher : Ref → Except Error Bool}

theorem get_ne_none_of_mem_matchedKeys {entries : List (Text × Ref)} (hentries : entries ⊆ objects.entries) {key : Text}
    (hkey : key ∈ matchedKeys matcher entries) : objects.get key ≠ none := by
  obtain ⟨obj, hmem, _⟩ := mem_matchedKeys.mp hkey
  rw [Map.mem_entries.mp (hentries hmem)]
  simp

theorem atomic_iff_matchesFirst {filter : Option Value} (hget : db.collections.get collectionName = some objects)
    (hexecute : db.execute engine depth collectionName (.deleteObjects filter) =
      (db.put collectionName ⟨db.heap, (deleteMatching matcher objects.entries objects 0).1⟩,
        (deleteMatching matcher objects.entries objects 0).2)) :
    Atomic engine depth db collectionName (.deleteObjects filter) ↔ MatchesFirst matcher objects := by
  by_cases hfails : ∃ entry ∈ objects.entries, ¬ Returns (matcher entry.2)
  · obtain ⟨before, ⟨key, obj⟩, after, hentries, hbefore, hobj⟩ := exists_first hfails
    rw [MatchesFirst, hentries, noneBefore_iff hbefore hobj]
    simp only [not_not] at hbefore
    have hsubset : before ⊆ objects.entries := by
      rw [hentries]
      exact List.subset_append_left _ _
    obtain ⟨e, herror⟩ : ∃ e, matcher obj = .error e := by
      cases hmatch : matcher obj with
      | error e => exact ⟨e, rfl⟩
      | ok isMatch => exact absurd ⟨isMatch, hmatch⟩ hobj
    have hloop : deleteMatching matcher objects.entries objects 0 =
        ((matchedKeys matcher before).foldl Map.delete objects, .error (.error e)) := by
      rw [hentries, deleteMatching_append hbefore, deleteMatching]
      simp only [herror]
    have hdeletes := deletes_put hget (fun key => objects.get_foldl_delete (matchedKeys matcher before) key)
      fun key hkey => get_ne_none_of_mem_matchedKeys hsubset hkey
    rw [Atomic, hexecute, hloop]
    constructor
    · intro hkeeps entry hentry hmatch
      have hkey : entry.1 ∈ matchedKeys matcher before := mem_matchedKeys.mpr ⟨entry.2, hentry, hmatch⟩
      obtain ⟨hne, hnone⟩ := (hdeletes.ids entry.1).mp hkey
      exact hne ((hkeeps.stored collectionName entry.1 rfl).symm.trans hnone)
    · intro hnone
      refine ⟨fun name key _ => hdeletes.keeps.stored name key fun hmem => ?_, fun _ _ _ _ _ _ _ _ _ => rfl⟩
      obtain ⟨obj', hmem', hmatch⟩ := mem_matchedKeys.mp hmem.2
      exact hnone (key, obj') hmem' hmatch
  · simp only [not_exists, not_and, not_not] at hfails
    have hloop : deleteMatching matcher objects.entries objects 0 =
        ((matchedKeys matcher objects.entries).foldl Map.delete objects,
          .ok (.count (matchedKeys matcher objects.entries).length)) := by
      have happend := deleteMatching_append hfails [] objects 0
      rw [List.append_nil, Nat.zero_add] at happend
      exact happend
    refine iff_of_true ?_ (noneBefore_of_none fun entry hmem hnot => hnot (hfails entry hmem))
    rw [Atomic, hexecute, hloop]
    refine ⟨matchedKeys matcher objects.entries, ?_, rfl, ?_⟩
    · exact objects.nodup.sublist (List.filter_sublist.map Prod.fst)
    · exact deletes_put hget (fun key => objects.get_foldl_delete _ key)
        fun key hkey => get_ne_none_of_mem_matchedKeys (List.Subset.refl _) hkey

theorem atomic_deleteObjects_iff (filter : Option Value) :
    Atomic engine depth db collectionName (.deleteObjects filter) ↔
      Undivided engine depth db collectionName (.deleteObjects filter) := by
  apply atomic_iff_undivided_of_passed rfl
  · intro objects e hfailed hcheck
    rw [hfailed] at hcheck
    cases hcheck
  · intro objects hget hcheck hexecute
    cases hmatcher : getFilterMatcher engine depth db.heap filter with
    | none =>
      simp only [hmatcher] at hexecute
      have hcleared : ∀ key, (Map.empty : Collection).get key = if key ∈ objects.keys then none else objects.get key := by
        intro key
        by_cases hkey : key ∈ objects.keys
        · simp [hkey]
        · simp [hkey, Map.not_mem_keys.mp hkey]
      refine iff_of_true ?_ fun _ matcher hsome => ?_
      · rw [Atomic, hexecute]
        refine ⟨objects.keys, objects.keys_nodup, by simp [Map.keys, Map.size], deletes_put hget hcleared ?_⟩
        intro key hkey
        obtain ⟨obj, hobj⟩ := Map.mem_keys.mp hkey
        simp [hobj]
      · rw [hmatcher] at hsome
        cases hsome
    | some matcher =>
      simp only [hmatcher] at hexecute
      rw [atomic_iff_matchesFirst hget hexecute]
      constructor
      · intro h _ matcher' hmatcher'
        rw [hmatcher] at hmatcher'
        cases hmatcher'
        exact h
      · intro h
        exact h hcheck matcher hmatcher

/-! ### Updating a property -/

section Updating

variable {property : Text} {value : Ref} {shouldCreateMissing : Bool} {objIds : List Text} {targets : List Nat} {a : Nat}

theorem WellFormed.target_cell (hdb : db.WellFormed) (hget : db.collections.get collectionName = some objects)
    (ha : a ∈ targetsOf objects objIds) : ∃ properties, db.heap[a]? = some (.object properties) := by
  obtain ⟨key, _, hobj⟩ := mem_targetsOf.mp ha
  obtain ⟨a', properties, heq, hcell⟩ := hdb.stored collectionName objects key _ hget hobj
  cases heq
  exact ⟨properties, hcell⟩

theorem stored_put_heap (hget : db.collections.get collectionName = some objects) (h : Heap) (name key : Text) :
    (db.put collectionName ⟨h, objects⟩).stored name key = db.stored name key := by
  rw [Database.stored_put]
  by_cases hname : name = collectionName
  · rw [if_pos hname, hname, Database.stored_of_get hget]
  · rw [if_neg hname]

theorem getElem?_updateAll_eq_iff (hcell : ∃ properties, db.heap[a]? = some (.object properties)) (ha : a ∈ targets) :
    (updateAll property value shouldCreateMissing targets db.heap)[a]? = db.heap[a]? ↔
      ¬ Changes property value shouldCreateMissing db.heap a := by
  obtain ⟨properties, hcell⟩ := hcell
  rw [getElem?_updateAll, if_pos ha, hcell, Option.map_some, Option.some.injEq]
  exact updated_object_eq_self_iff hcell

theorem getElem?_updateAll_of_unchanged (hcells : ∀ a ∈ targets, ∃ properties, db.heap[a]? = some (.object properties))
    (hunchanged : a ∈ targets → ¬ Changes property value shouldCreateMissing db.heap a) :
    (updateAll property value shouldCreateMissing targets db.heap)[a]? = db.heap[a]? := by
  by_cases ha : a ∈ targets
  · exact (getElem?_updateAll_eq_iff (hcells a ha) ha).mpr (hunchanged ha)
  · rw [getElem?_updateAll, if_neg ha]

theorem keeps_iff_isolated (hdb : db.WellFormed) (hget : db.collections.get collectionName = some objects) :
    (Keeps db (db.put collectionName
        ⟨updateAll property value shouldCreateMissing (targetsOf objects objIds) db.heap, objects⟩)
      fun name key => ¬ (name = collectionName ∧ key ∈ objIds)) ↔
      Isolated db collectionName (targetsOf objects objIds) objIds property value shouldCreateMissing := by
  constructor
  · intro hkeeps a ha hchanges name key b hother hstored hreaches
    have hsame := hkeeps.contents name key _ hother hstored b rfl a hreaches
    exact (getElem?_updateAll_eq_iff (WellFormed.target_cell hdb hget ha) ha).mp hsame hchanges
  · intro hisolated
    refine ⟨fun name key _ => stored_put_heap hget _ name key, fun name key obj hother hstored b hb c hreaches => ?_⟩
    subst hb
    apply getElem?_updateAll_of_unchanged fun a ha => WellFormed.target_cell hdb hget ha
    intro hc hchanges
    exact hisolated c hc hchanges name key b hother hstored hreaches

theorem keeps_iff_unchanged (hdb : db.WellFormed) (hget : db.collections.get collectionName = some objects)
    (htargets : targets ⊆ targetsOf objects objIds) :
    (Keeps db (db.put collectionName ⟨updateAll property value shouldCreateMissing targets db.heap, objects⟩)
      fun name _ => name = collectionName) ↔ ∀ a ∈ targets, ¬ Changes property value shouldCreateMissing db.heap a := by
  constructor
  · intro hkeeps a ha
    obtain ⟨key, _, hobj⟩ := mem_targetsOf.mp (htargets ha)
    have hstored : db.stored collectionName key = some (.address a) := by
      rw [Database.stored_of_get hget, hobj]
    have hsame := hkeeps.contents collectionName key _ rfl hstored a rfl a Relation.ReflTransGen.refl
    exact (getElem?_updateAll_eq_iff (WellFormed.target_cell hdb hget (htargets ha)) ha).mp hsame
  · intro hunchanged
    refine ⟨fun name key _ => stored_put_heap hget _ name key, fun name key obj _ _ b _ c _ => ?_⟩
    exact getElem?_updateAll_of_unchanged (fun a ha => WellFormed.target_cell hdb hget (htargets ha)) (hunchanged c)

theorem not_fails_of_acts {fails acts : Nat → Prop} {before after : List Nat} (hfirst : NoneBefore fails acts targets)
    (heq : targets = before ++ a :: after) (hacts : acts a) (hbefore : ∀ b ∈ before, ¬ fails b) (ha : ¬ fails a) :
    ∀ b ∈ targets, ¬ fails b := by
  by_contra hany
  simp only [not_forall, not_not] at hany
  obtain ⟨b, hb, hfails⟩ := hany
  have hafter : ∃ b ∈ after, fails b := by
    rw [heq, List.mem_append, List.mem_cons] at hb
    obtain hb | rfl | hb := hb
    · exact absurd hfails (hbefore b hb)
    · exact absurd hfails ha
    · exact ⟨b, hb, hfails⟩
  obtain ⟨between, c, rest, rfl, hbetween, hfailsc⟩ := exists_first hafter
  refine hfirst (before ++ a :: between) c rest (by simp [heq]) ?_ hfailsc a (by simp) hacts
  intro d hd
  rw [List.mem_append, List.mem_cons] at hd
  obtain hd | rfl | hd := hd
  · exact hbefore d hd
  · exact ha
  · exact hbetween d hd

theorem nodup_of_splits (hsplits : ∀ before a after, targets = before ++ a :: after → a ∉ before) : targets.Nodup := by
  induction targets with
  | nil => exact List.nodup_nil
  | cons a targets ih =>
    rw [List.nodup_cons]
    constructor
    · intro hmem
      obtain ⟨before, after, rfl⟩ := List.append_of_mem hmem
      exact hsplits (a :: before) a after rfl List.mem_cons_self
    · apply ih
      intro before b after heq hb
      exact hsplits (a :: before) b after (by rw [heq, List.cons_append]) (List.mem_cons_of_mem _ hb)

theorem updated_creates_eq_iff {properties : List (Text × Ref)} (hcell : db.heap[a]? = some (.object properties)) :
    updated property value (creates property shouldCreateMissing) (.object properties) =
        updated property value shouldCreateMissing (.object properties) ↔
      ¬ Misses property value shouldCreateMissing db.heap a := by
  simp only [updated, Cell.mapProperties, Cell.object.injEq, updatedProperties, Misses, Heap.propertiesAt_object hcell]
  by_cases hvalue : value = .undefined
  · simp [hvalue]
  · simp only [ne_eq, hvalue, not_false_eq_true, true_and]
    cases hlookup : properties.lookup property with
    | some ref => simp
    | none =>
      cases shouldCreateMissing with
      | false => simp [creates]
      | true =>
        by_cases hproperty : property = text "__proto__"
        · subst hproperty
          have hcreates : creates (text "__proto__") true = false := by decide
          have hne : properties ≠ setProperty properties (text "__proto__") value := by
            intro hsame
            rw [hsame, lookup_setProperty, if_pos rfl] at hlookup
            cases hlookup
          simp [hcreates, hne]
        · have hcreates : creates property true = true := by simp [creates, hproperty]
          simp [hcreates, hproperty]

/-- Where the loop updates own properties only, it does what is said exactly if none of them is missing, and the objects are isolated. -/
theorem updates_iff (hdb : db.WellFormed) (hget : db.collections.get collectionName = some objects) :
    Updates db (db.put collectionName
        ⟨updateAll property value (creates property shouldCreateMissing) (targetsOf objects objIds) db.heap, objects⟩)
        collectionName objIds property value shouldCreateMissing ↔
      (∀ a ∈ targetsOf objects objIds, ¬ Misses property value shouldCreateMissing db.heap a) ∧
        Isolated db collectionName (targetsOf objects objIds) objIds property value (creates property shouldCreateMissing) := by
  have hupdated : ∀ a ∈ targetsOf objects objIds,
      ((updateAll property value (creates property shouldCreateMissing) (targetsOf objects objIds) db.heap)[a]? =
          db.heap[a]?.map (updated property value shouldCreateMissing) ↔
        ¬ Misses property value shouldCreateMissing db.heap a) := by
    intro a ha
    obtain ⟨properties, hcell⟩ := WellFormed.target_cell hdb hget ha
    rw [getElem?_updateAll, if_pos ha, hcell, Option.map_some, Option.map_some, Option.some.injEq]
    exact updated_creates_eq_iff hcell
  rw [← keeps_iff_isolated hdb hget]
  constructor
  · intro hupdates
    refine ⟨fun a ha => (hupdated a ha).mp ?_, hupdates.keeps⟩
    obtain ⟨key, hkey, hobj⟩ := mem_targetsOf.mp ha
    exact hupdates.targets key hkey a ((Database.stored_of_get hget key).trans hobj)
  · intro ⟨hmisses, hkeeps⟩
    refine ⟨fun key hkey a hstored => ?_, hkeeps⟩
    rw [Database.stored_of_get hget] at hstored
    have ha := mem_targetsOf.mpr ⟨key, hkey, hstored⟩
    exact (hupdated a ha).mpr (hmisses a ha)

variable {before after : List Nat}

theorem AllOwn.splits (hown : AllOwn property value shouldCreateMissing db.heap targets)
    (hcells : ∀ a ∈ targets, ∃ properties, db.heap[a]? = some (.object properties)) (heq : targets = before ++ a :: after) :
    ¬ Fails property value shouldCreateMissing db.heap a ∧ ¬ Replaces property value shouldCreateMissing db.heap a ∧
      ¬ (value ≠ .undefined ∧ a ∈ before ∧ property = text "hasOwnProperty" ∧ shouldCreateMissing = true) := by
  obtain ⟨hfails, hreplaces⟩ := hown before a after heq
  have hcell := hcells a (by simp [heq])
  rw [fails_updateAll_iff hcell, not_or] at hfails
  rw [Replaces, misses_updateAll_iff hcell] at hreplaces
  exact ⟨hfails.1, hreplaces, hfails.2⟩

theorem AllOwn.forall (hown : AllOwn property value shouldCreateMissing db.heap targets)
    (hcells : ∀ a ∈ targets, ∃ properties, db.heap[a]? = some (.object properties)) :
    ∀ a ∈ targets, ¬ Fails property value shouldCreateMissing db.heap a ∧
      ¬ Replaces property value shouldCreateMissing db.heap a := by
  intro a ha
  obtain ⟨before, after, heq⟩ := List.append_of_mem ha
  obtain ⟨hfails, hreplaces, -⟩ := hown.splits hcells heq
  exact ⟨hfails, hreplaces⟩

theorem updatesFirst_iff_of_done
    (hcells : ∀ a ∈ targetsOf objects objIds, ∃ properties, db.heap[a]? = some (.object properties))
    (hown : AllOwn property value shouldCreateMissing db.heap (targetsOf objects objIds)) :
    UpdatesFirst db collectionName objects objIds property value shouldCreateMissing ↔
      (∀ a ∈ targetsOf objects objIds, ¬ Misses property value shouldCreateMissing db.heap a) ∧
        Isolated db collectionName (targetsOf objects objIds) objIds property value (creates property shouldCreateMissing) := by
  have hfails : ∀ a ∈ targetsOf objects objIds, ¬ Fails property value shouldCreateMissing db.heap a :=
    fun a ha => (hown.forall hcells a ha).1
  constructor
  · intro hfirst
    obtain ⟨hmisses, -, hisolated⟩ := hfirst.2 hfails
    exact ⟨hmisses, hisolated⟩
  · intro ⟨hmisses, hisolated⟩
    refine ⟨noneBefore_of_none hfails, fun _ => ⟨hmisses, fun hvalue hproperty hcreate => ?_, hisolated⟩⟩
    apply nodup_of_splits
    intro before a after heq ha
    exact (hown.splits hcells heq).2.2 ⟨hvalue, ha, hproperty, hcreate⟩

/-- Where an update fails, the loop is atomic exactly if it has changed nothing before. -/
theorem updatesFirst_iff_of_failed (htargets : targetsOf objects objIds = before ++ a :: after)
    (hcells : ∀ a ∈ targetsOf objects objIds, ∃ properties, db.heap[a]? = some (.object properties))
    (hown : AllOwn property value shouldCreateMissing db.heap before)
    (hfails : Fails property value shouldCreateMissing
      (updateAll property value (creates property shouldCreateMissing) before db.heap) a) :
    UpdatesFirst db collectionName objects objIds property value shouldCreateMissing ↔
      ∀ b ∈ before, ¬ Changes property value (creates property shouldCreateMissing) db.heap b := by
  have hbefore := hown.forall fun b hb => hcells b (by simp [htargets, hb])
  rw [fails_updateAll_iff (hcells a (by simp [htargets]))] at hfails
  rw [UpdatesFirst, htargets]
  by_cases hfailsa : Fails property value shouldCreateMissing db.heap a
  · rw [noneBefore_iff (fun b hb => (hbefore b hb).1) hfailsa]
    constructor
    · intro hfirst b hb hchanges
      exact hfirst.1 b hb (.inr hchanges)
    · intro hunchanged
      refine ⟨fun b hb hacts => ?_, fun hnone => absurd hfailsa (hnone a (by simp))⟩
      obtain hreplaces | hchanges := hacts
      · exact (hbefore b hb).2 hreplaces
      · exact hunchanged b hb hchanges
  · -- The object has been given the property that hides the method before.
    obtain ⟨hvalue, ha, hproperty, hcreate⟩ := hfails.resolve_left hfailsa
    have hchanges : Changes property value (creates property shouldCreateMissing) db.heap a := by
      have hcreates : creates property shouldCreateMissing = true := by
        rw [creates, hcreate, hproperty]
        decide
      rw [Changes, if_neg hvalue, hcreates, Bool.or_true]
      refine ⟨rfl, fun hlookup => hfailsa ⟨hvalue, .inl ?_⟩⟩
      rw [Hides, ← hproperty, hlookup]
      rfl
    refine iff_of_false (fun hfirst => ?_) fun hunchanged => hunchanged a ha hchanges
    have hnone := not_fails_of_acts hfirst.1 rfl (.inr hchanges) (fun b hb => (hbefore b hb).1) hfailsa
    obtain ⟨-, hnodup, -⟩ := hfirst.2 hnone
    have hdisjoint := List.nodup_append.mp (hnodup hvalue hproperty hcreate)
    exact hdisjoint.2.2 a ha a List.mem_cons_self rfl

/-- Where a prototype is replaced, the loop is not atomic. -/
theorem not_updatesFirst_of_replaced (htargets : targetsOf objects objIds = before ++ a :: after)
    (hcells : ∀ a ∈ targetsOf objects objIds, ∃ properties, db.heap[a]? = some (.object properties))
    (hown : AllOwn property value shouldCreateMissing db.heap before)
    (hfails : ¬ Fails property value shouldCreateMissing
      (updateAll property value (creates property shouldCreateMissing) before db.heap) a)
    (hreplaces : Replaces property value shouldCreateMissing
      (updateAll property value (creates property shouldCreateMissing) before db.heap) a) :
    ¬ UpdatesFirst db collectionName objects objIds property value shouldCreateMissing := by
  have hbefore := hown.forall fun b hb => hcells b (by simp [htargets, hb])
  have hcell := hcells a (by simp [htargets])
  rw [fails_updateAll_iff hcell, not_or] at hfails
  rw [Replaces, misses_updateAll_iff hcell] at hreplaces
  intro hfirst
  rw [UpdatesFirst, htargets] at hfirst
  have hnone := not_fails_of_acts hfirst.1 rfl (.inl hreplaces) (fun b hb => (hbefore b hb).1) hfails.1
  exact (hfirst.2 hnone).1 a (by simp) hreplaces.1

theorem not_atomic_of_replaced {write : Write} (hdb : db.WellFormed) (hget : db.collections.get collectionName = some objects)
    (ha : a ∈ targetsOf objects objIds) {h : Heap} {reply : Except Rejection Reply} {prototype : Ref}
    {properties : List (Text × Ref)} (hderived : h[a]? = some (.derived prototype properties))
    (hexecute : db.execute engine depth collectionName write = (db.put collectionName ⟨h, objects⟩, reply))
    (hexact : ∀ db' reply, Exact depth db db' collectionName write reply →
      Updates db db' collectionName objIds property value shouldCreateMissing) :
    ¬ Atomic engine depth db collectionName write := by
  obtain ⟨key, hkey, hobj⟩ := mem_targetsOf.mp ha
  obtain ⟨own, hcell⟩ := WellFormed.target_cell hdb hget ha
  have hstored : db.stored collectionName key = some (.address a) := (Database.stored_of_get hget key).trans hobj
  rw [Atomic, hexecute]
  cases reply with
  | error e =>
    intro hkeeps
    have hsame : h[a]? = db.heap[a]? := hkeeps.contents collectionName key _ rfl hstored a rfl a Relation.ReflTransGen.refl
    rw [hderived, hcell] at hsame
    cases hsame
  | ok reply =>
    intro hok
    have hsame : h[a]? = db.heap[a]?.map (updated property value shouldCreateMissing) :=
      (hexact _ reply hok).targets key hkey a hstored
    rw [hderived, hcell] at hsame
    cases hsame

theorem atomic_updateObjectProperty_iff (hdb : db.WellFormed) (objectIds : Ref) (property : Text) (value : Ref)
    (shouldCreateMissing : Bool) :
    Atomic engine depth db collectionName (.updateObjectProperty objectIds property value shouldCreateMissing) ↔
      Undivided engine depth db collectionName (.updateObjectProperty objectIds property value shouldCreateMissing) := by
  apply atomic_iff_undivided_of_passed rfl
  · intro objects e hfailed hcheck
    rw [hfailed] at hcheck
    cases hcheck
  · intro objects hget hcheck hexecute
    have hcells : ∀ a ∈ targetsOf objects (idsOf db.heap objectIds), ∃ properties, db.heap[a]? = some (.object properties) :=
      fun a ha => WellFormed.target_cell hdb hget ha
    have hundivided : UndividedOn engine depth db collectionName objects
          (.updateObjectProperty objectIds property value shouldCreateMissing) ↔
        UpdatesFirst db collectionName objects (idsOf db.heap objectIds) property value shouldCreateMissing :=
      ⟨fun h => h hcheck, fun h _ => h⟩
    simp only [updateProperties_eq] at hexecute
    rw [hundivided]
    have hlooped : Looped property value shouldCreateMissing db.heap (targetsOf objects (idsOf db.heap objectIds))
        (updateTargets property value shouldCreateMissing (targetsOf objects (idsOf db.heap objectIds)) db.heap) :=
      looped_updateTargets hdb.plain.ordinary hcells
    cases hlooped with
    | done hown hloop =>
      rw [hloop] at hexecute
      rw [updatesFirst_iff_of_done hcells hown, ← updates_iff hdb hget, Atomic, hexecute]
      exact Iff.rfl
    | failed before a after htargets hown hfails hloop =>
      rw [hloop] at hexecute
      rw [updatesFirst_iff_of_failed htargets hcells hown hfails, ← keeps_iff_unchanged hdb hget, Atomic, hexecute]
      rw [htargets]
      exact List.subset_append_left _ _
    | replaced before a after htargets hown hfails hreplaces hcell =>
      obtain ⟨prototype, properties, hderived⟩ := hcell
      refine iff_of_false ?_ (not_updatesFirst_of_replaced htargets hcells hown hfails hreplaces)
      have ha : a ∈ targetsOf objects (idsOf db.heap objectIds) := by simp [htargets]
      have hupdates : ∀ db' reply, Exact depth db db' collectionName
          (.updateObjectProperty objectIds property value shouldCreateMissing) reply →
          Updates db db' collectionName (idsOf db.heap objectIds) property value shouldCreateMissing := by
        intro db' reply hexact
        cases reply with
        | nothing => exact hexact
        | _ => exact hexact.elim
      exact not_atomic_of_replaced hdb hget ha hderived hexecute hupdates

end Updating

/-! ### All writes -/

theorem Atomic.keeps {write : Write} (h : Atomic engine depth db collectionName write) {e : Rejection}
    (hrejected : (db.execute engine depth collectionName write).2 = .error e) :
    Keeps db (db.execute engine depth collectionName write).1 fun name _ => name = collectionName := by
  rw [Atomic] at h
  cases hexecute : db.execute engine depth collectionName write with
  | mk db' reply =>
    rw [hexecute] at h hrejected
    cases hrejected
    exact h

def plainCell (objectId : String) (properties : List (Text × Ref)) : Cell :=
  .object ([(text "objectId", .string (text objectId)), (text "coreType", .string (text "CoatyObject")),
    (text "objectType", .string (text "com.lamp")), (text "name", .string (text "Lamp"))] ++ properties)

/-- A list of two lamps, the second of which refers to an object twice, and an empty collection. -/
def lampDatabase : Database where
  heap := [.object [], plainCell "lamp" [],
    plainCell "twin" [(text "on", .address 0), (text "off", .address 0)], .array [.address 1, .address 2]]
  collections := Map.empty.set (text "lamps") Map.empty

theorem wellFormed_lampDatabase : lampDatabase.WellFormed := by
  refine ⟨⟨?_, ?_⟩, ?_⟩
  · simp [lampDatabase, plainCell, Heap.Closed, Cell.refs, Ref.Within, Ref.In]
  · simp [lampDatabase, plainCell, Cell.IsOrdinary]
  · intro name objects key obj hget hobj
    simp only [lampDatabase, Map.get_set, Map.get_empty] at hget
    split at hget
    · cases hget
      cases hobj
    · cases hget

end InMemory

end Coaty
