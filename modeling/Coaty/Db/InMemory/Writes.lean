import Coaty.Db.InMemory.Database
import Coaty.Util.CloneHeap

/-!
# What the writing loops do

Each loop of the in-memory database does its work up to the first element that fails. Which elements are due and which ones fail is a matter of the heap and the collection before the loop, since copies only add to the heap and an update writes the same property of every object.
-/

namespace Coaty

open Js Heap Evaluation

namespace InMemory

/-- The collections hold references to objects of the heap. None of these leads out of it or has had its prototype replaced. -/
structure Database.WellFormed (db : Database) : Prop where
  plain : db.heap.Plain
  stored : ∀ name objects key obj, db.collections.get name = some objects → objects.get key = some obj →
    ∃ a properties, obj = .address a ∧ db.heap[a]? = some (.object properties)

variable {depth : Nat} {h h' : Heap} {obj copy : Ref}

/-! ### Copies of objects -/

theorem isObject_of_grown (hclosed : h.Closed) (hgrown : h <+: h') (hobj : obj.Within h) :
    isObject depth h' obj = isObject depth h obj := by
  rw [isObject, isObject, view_of_grown hclosed hgrown depth hobj, isPlainObject_of_grown hgrown hobj]

theorem objectIdOf_of_grown (hclosed : h.Closed) (hgrown : h <+: h') (hobj : obj.Within h) :
    objectIdOf depth h' obj = objectIdOf depth h obj := by
  rw [objectIdOf, objectIdOf, view_of_grown hclosed hgrown depth hobj]

/-- As long as no prototype has been replaced, an object is checked as it is read. -/
theorem isObject_of_plain (hplain : h.Plain) : isObject depth h obj = (h.view depth obj).any CoreTypes.isObject := by
  rw [isObject]
  cases hview : h.view depth obj with
  | none => exact Bool.and_false _
  | some value =>
    cases value with
    | object properties =>
      obtain ⟨a, own, rfl, hcell⟩ := exists_object_of_view hplain hview
      rw [isPlainObject_object hcell, Bool.true_and]
    | _ => exact Bool.and_false _

theorem ne_undefined_of_isObject (hobj : isObject depth h obj = true) : obj ≠ .undefined := by
  rintro rfl
  cases hobj

theorem cloneObject_eq (hobj : isObject depth h obj = true) : cloneObject depth h obj = Deep.clone h depth obj := by
  rw [cloneObject, if_neg (ne_undefined_of_isObject hobj), if_pos hobj]

theorem cloneObject_spec (hclosed : h.Closed) (hclone : cloneObject depth h obj = .ok (copy, h')) :
    h <+: h' ∧ h'.Closed := by
  rw [cloneObject] at hclone
  split at hclone
  · cases hclone
    exact ⟨List.prefix_refl _, hclosed⟩
  · split at hclone
    · exact Deep.clone_grown hclosed hclone
    · cases hclone

theorem exists_view_of_isObject (hobj : isObject depth h obj = true) :
    ∃ properties, h.view depth obj = some (.object properties) ∧ CoreTypes.isObject (.object properties) = true := by
  rw [isObject, Bool.and_eq_true, Option.any_eq_true] at hobj
  obtain ⟨-, value, hview, hvalue⟩ := hobj
  cases value with
  | object properties => exact ⟨properties, hview, hvalue⟩
  | _ => cases hvalue

/-! ### The objects that are due -/

/-- The first object for each id that is not taken. -/
def firstOnes (idOf : Ref → Text) : (Text → Bool) → List Ref → List Ref
  | _, [] => []
  | taken, obj :: objs =>
    if taken (idOf obj) then firstOnes idOf taken objs
    else obj :: firstOnes idOf (fun objectId => objectId = idOf obj || taken objectId) objs

/-- The objects that an insertion is to write: all of them, or those whose ids are not taken. -/
def dueToInsert (depth : Nat) (h : Heap) (objects : Collection) (shouldReplaceExisting : Bool) (objs : List Ref) : List Ref :=
  if shouldReplaceExisting then objs else firstOnes (objectIdOf depth h) objects.has objs

/-- The objects that an update is to write: those whose ids are taken. -/
def dueToUpdate (depth : Nat) (h : Heap) (objects : Collection) (objs : List Ref) : List Ref :=
  objs.filter fun obj => objects.has (objectIdOf depth h obj)

theorem has_set (objects : Collection) (key : Text) (obj : Ref) :
    (objects.set key obj).has = fun key' => key' = key || objects.has key' := by
  funext key'
  rw [Map.has, Map.has, Map.get_set]
  by_cases hkey : key' = key
  · simp [hkey]
  · simp [hkey]

theorem subset_firstOnes (idOf : Ref → Text) (taken : Text → Bool) (objs : List Ref) :
    firstOnes idOf taken objs ⊆ objs := by
  induction objs generalizing taken with
  | nil => exact List.Subset.refl _
  | cons obj objs ih =>
    rw [firstOnes]
    split
    · exact List.subset_cons_of_subset _ (ih taken)
    · exact List.cons_subset_cons _ (ih _)

theorem dueToInsert_subset {depth : Nat} {h : Heap} {objects : Collection} {shouldReplaceExisting : Bool} {objs : List Ref} :
    dueToInsert depth h objects shouldReplaceExisting objs ⊆ objs := by
  rw [dueToInsert]
  split
  · exact List.Subset.refl _
  · exact subset_firstOnes _ _ _

variable {s : Store} {objs : List Ref}

/-- An object that is due for both loops is written alike, so they differ in the others only. -/
theorem writeObjects_cons_congr {isDue isDue' : Collection → Text → Bool} {due : List Ref} {objectIds : List Text}
    (hdue : isDue s.objects (objectIdOf depth s.heap obj) = true) (hdue' : isDue' s.objects (objectIdOf depth s.heap obj) = true)
    (hrest : ∀ copy heap, cloneObject depth s.heap obj = .ok (copy, heap) →
      writeObjects depth isDue objs ⟨heap, s.objects.set (objectIdOf depth s.heap obj) copy⟩
          (objectIds ++ [objectIdOf depth s.heap obj]) =
        writeObjects depth isDue' due ⟨heap, s.objects.set (objectIdOf depth s.heap obj) copy⟩
          (objectIds ++ [objectIdOf depth s.heap obj])) :
    writeObjects depth isDue (obj :: objs) s objectIds = writeObjects depth isDue' (obj :: due) s objectIds := by
  rw [writeObjects, writeObjects, if_pos hdue, if_pos hdue']
  cases hclone : cloneObject depth s.heap obj with
  | error e => rfl
  | ok outcome =>
    obtain ⟨copy, heap⟩ := outcome
    exact hrest copy heap hclone

theorem writeObjects_insert (hh : h.Closed) (hgrown : h <+: s.heap) (hclosed : s.heap.Closed) (hobjs : ∀ obj ∈ objs, obj.Within h)
    (shouldReplaceExisting : Bool) (objectIds : List Text) :
    writeObjects depth (fun objects objectId => !objects.has objectId || shouldReplaceExisting) objs s objectIds =
      writeObjects depth (fun _ _ => true) (dueToInsert depth h s.objects shouldReplaceExisting objs) s objectIds := by
  cases shouldReplaceExisting with
  | true =>
    have hdue : (fun (objects : Collection) objectId => !objects.has objectId || true) = fun _ _ => true := by
      funext objects objectId
      exact Bool.or_true _
    rw [hdue]
    rfl
  | false =>
    rw [dueToInsert, if_neg Bool.false_ne_true]
    induction objs generalizing s objectIds with
    | nil => rfl
    | cons obj objs ih =>
      rw [List.forall_mem_cons] at hobjs
      have hid : objectIdOf depth s.heap obj = objectIdOf depth h obj := objectIdOf_of_grown hh hgrown hobjs.1
      rw [firstOnes]
      cases htaken : s.objects.has (objectIdOf depth h obj) with
      | true =>
        rw [writeObjects]
        simpa [hid, htaken] using ih hgrown hclosed hobjs.2 objectIds
      | false =>
        rw [if_neg Bool.false_ne_true]
        apply writeObjects_cons_congr (by simp [hid, htaken]) rfl
        intro copy heap hclone
        obtain ⟨hgrows, hclosed'⟩ := cloneObject_spec hclosed hclone
        rw [ih (hgrown.trans hgrows) hclosed' hobjs.2, has_set, hid]

theorem writeObjects_update (hh : h.Closed) (hgrown : h <+: s.heap) (hclosed : s.heap.Closed) (hobjs : ∀ obj ∈ objs, obj.Within h)
    (objectIds : List Text) :
    writeObjects depth Map.has objs s objectIds =
      writeObjects depth (fun _ _ => true) (dueToUpdate depth h s.objects objs) s objectIds := by
  induction objs generalizing s objectIds with
  | nil => rfl
  | cons obj objs ih =>
    rw [List.forall_mem_cons] at hobjs
    have hid : objectIdOf depth s.heap obj = objectIdOf depth h obj := objectIdOf_of_grown hh hgrown hobjs.1
    rw [dueToUpdate, List.filter_cons]
    cases htaken : s.objects.has (objectIdOf depth h obj) with
    | false =>
      rw [writeObjects]
      simpa [hid, htaken, dueToUpdate] using ih hgrown hclosed hobjs.2 objectIds
    | true =>
      rw [if_pos rfl]
      apply writeObjects_cons_congr (by rw [hid, htaken]) rfl
      intro copy heap hclone
      obtain ⟨hgrows, hclosed'⟩ := cloneObject_spec hclosed hclone
      have hhas : (s.objects.set (objectIdOf depth s.heap obj) copy).has = s.objects.has := by
        rw [has_set, hid]
        funext key
        by_cases hkey : key = objectIdOf depth h obj
        · simp [hkey, htaken]
        · simp [hkey]
      rw [ih (hgrown.trans hgrows) hclosed' hobjs.2, dueToUpdate]
      dsimp only
      rw [hhas]

/-! ### Writing all of a list -/

/-- The last object of a list that has its id. -/
def IsLast (idOf : Ref → Text) (objs : List Ref) (obj : Ref) : Prop :=
  ∃ before after, objs = before ++ obj :: after ∧ idOf obj ∉ after.map idOf

theorem isLast_cons {idOf : Ref → Text} {other : Ref} (hlast : IsLast idOf (obj :: objs) other) :
    IsLast idOf objs other ∨ other = obj ∧ idOf obj ∉ objs.map idOf := by
  obtain ⟨before, after, heq, hnot⟩ := hlast
  cases before with
  | nil =>
    obtain ⟨rfl, rfl⟩ := List.cons.inj heq
    exact .inr ⟨rfl, hnot⟩
  | cons first before => exact .inl ⟨before, after, (List.cons.inj heq).2, hnot⟩

theorem IsLast.mem {idOf : Ref → Text} (hlast : IsLast idOf objs obj) : obj ∈ objs := by
  obtain ⟨before, after, rfl, -⟩ := hlast
  simp

theorem exists_isLast {idOf : Ref → Text} {key : Text} (hkey : key ∈ objs.map idOf) :
    ∃ obj, IsLast idOf objs obj ∧ idOf obj = key := by
  induction objs with
  | nil => cases hkey
  | cons obj objs ih =>
    by_cases hlater : key ∈ objs.map idOf
    · obtain ⟨other, ⟨before, after, rfl, hnot⟩, hid⟩ := ih hlater
      exact ⟨other, ⟨obj :: before, after, rfl, hnot⟩, hid⟩
    · obtain rfl : key = idOf obj := (List.mem_cons.mp hkey).resolve_right hlater
      exact ⟨obj, ⟨[], objs, rfl, hlater⟩, rfl⟩

/-- Copies of the objects have been stored under their ids, and nothing else has been. -/
structure Wrote (depth : Nat) (h : Heap) (objs : List Ref) (s s' : Store) : Prop where
  heap : s.heap <+: s'.heap
  closed : s'.heap.Closed
  kept : ∀ key, key ∉ objs.map (objectIdOf depth h) → s'.objects.get key = s.objects.get key
  written : ∀ obj, IsLast (objectIdOf depth h) objs obj →
    ∃ a, s'.objects.get (objectIdOf depth h obj) = some (.address a) ∧ s.heap.length ≤ a ∧ a < s'.heap.length ∧
      (s'.heap.view depth (.address a) = h.view depth obj ↔ Deep.Lossless h depth obj)
  ordinary : (∀ obj ∈ objs, Deep.Lossless h depth obj) → (∀ cell ∈ s.heap, cell.IsOrdinary) →
    ∀ cell ∈ s'.heap, cell.IsOrdinary

variable {s' s'' : Store}

theorem wrote_nil (hclosed : s.heap.Closed) : Wrote depth h [] s s :=
  ⟨List.prefix_refl _, hclosed, by simp, fun obj hlast => absurd hlast.mem (List.not_mem_nil), fun _ => id⟩

theorem Wrote.cons (hfirst : Wrote depth h [obj] s s') (hrest : Wrote depth h objs s' s'') :
    Wrote depth h (obj :: objs) s s'' := by
  refine ⟨hfirst.heap.trans hrest.heap, hrest.closed, fun key hkey => ?_, fun other hlast => ?_, fun hlossless hordinary => ?_⟩
  · rw [List.map_cons, List.mem_cons, not_or] at hkey
    rw [hrest.kept key hkey.2, hfirst.kept key (by simpa using hkey.1)]
  · obtain hlater | ⟨rfl, hnot⟩ := isLast_cons hlast
    · obtain ⟨a, hget, hfresh, hlt, hview⟩ := hrest.written other hlater
      exact ⟨a, hget, hfirst.heap.length_le.trans hfresh, hlt, hview⟩
    · obtain ⟨a, hget, hfresh, hlt, hview⟩ := hfirst.written other ⟨[], [], rfl, List.not_mem_nil⟩
      refine ⟨a, ?_, hfresh, hlt.trans_le hrest.heap.length_le, ?_⟩
      · rw [hrest.kept _ hnot, hget]
      · rw [view_of_grown hfirst.closed hrest.heap depth (Ref.in_address hlt), hview]
  · rw [List.forall_mem_cons] at hlossless
    apply hrest.ordinary hlossless.2
    exact hfirst.ordinary (by simpa using hlossless.1) hordinary

theorem wrote_of_clone (hplain : h.Plain) (hgrown : h <+: s.heap) (hs : s.heap.Closed) (hobj : obj.Within h)
    (hvalid : isObject depth h obj = true) (hclone : cloneObject depth s.heap obj = .ok (copy, h')) :
    Wrote depth h [obj] s ⟨h', s.objects.set (objectIdOf depth h obj) copy⟩ := by
  have hvalid' : isObject depth s.heap obj = true := by rwa [isObject_of_grown hplain.closed hgrown hobj]
  rw [cloneObject_eq hvalid'] at hclone
  have hmade := Deep.clone_spec hplain hgrown hs hobj hclone
  obtain ⟨properties, hobject, -⟩ := exists_view_of_isObject hvalid
  obtain ⟨a, own, rfl, hcell⟩ := exists_object_of_view hplain hobject
  obtain ⟨b, rfl⟩ := Deep.exists_address_of_clone (within_of_grown hgrown hobj a rfl) hclone
  refine ⟨hmade.grown, hmade.closed, fun key hkey => ?_, fun other hlast => ?_, fun hlossless => ?_⟩
  · rw [List.map_singleton, List.mem_singleton] at hkey
    exact (Map.get_set _ _ _ _).trans (if_neg hkey)
  · obtain rfl := List.mem_singleton.mp hlast.mem
    refine ⟨b, ?_, hmade.fresh b rfl, hmade.within b rfl, hmade.view_eq_iff⟩
    exact (Map.get_set _ _ _ _).trans (if_pos rfl)
  · exact hmade.ordinary (hlossless _ (List.mem_singleton_self _))

theorem returns_cloneObject_iff (hplain : h.Plain) (hgrown : h <+: h') (hobj : obj.Within h)
    (hvalid : isObject depth h obj = true) : Returns (cloneObject depth h' obj) ↔ Deep.Clonable h depth obj := by
  have hvalid' : isObject depth h' obj = true := by rwa [isObject_of_grown hplain.closed hgrown hobj]
  rw [cloneObject_eq hvalid']
  exact Deep.returns_clone_iff hplain hgrown hobj

theorem writeObjects_append (hplain : h.Plain) (hgrown : h <+: s.heap) (hs : s.heap.Closed)
    (hobjs : ∀ obj ∈ objs, obj.Within h ∧ isObject depth h obj = true ∧ Deep.Clonable h depth obj)
    (rest : List Ref) (objectIds : List Text) :
    ∃ s', Wrote depth h objs s s' ∧ writeObjects depth (fun _ _ => true) (objs ++ rest) s objectIds =
      writeObjects depth (fun _ _ => true) rest s' (objectIds ++ objs.map (objectIdOf depth h)) := by
  induction objs generalizing s objectIds with
  | nil => exact ⟨s, wrote_nil hs, by simp⟩
  | cons obj objs ih =>
    rw [List.forall_mem_cons] at hobjs
    obtain ⟨⟨hobj, hvalid, hclonable⟩, hobjs⟩ := hobjs
    obtain ⟨⟨copy, heap⟩, hclone⟩ := (returns_cloneObject_iff hplain hgrown hobj hvalid).mpr hclonable
    have hfirst := wrote_of_clone hplain hgrown hs hobj hvalid hclone
    obtain ⟨s', hrest, hloop⟩ := ih (hgrown.trans hfirst.heap) hfirst.closed hobjs (objectIds ++ [objectIdOf depth h obj])
    refine ⟨s', hfirst.cons hrest, ?_⟩
    rw [List.cons_append, writeObjects]
    simp only [if_true, objectIdOf_of_grown hplain.closed hgrown hobj, hclone, hloop, List.map_cons, List.append_assoc,
      List.singleton_append]

theorem writeObjects_error (hplain : h.Plain) (hgrown : h <+: s.heap) (hobj : obj.Within h)
    (hvalid : isObject depth h obj = true) (hclonable : ¬ Deep.Clonable h depth obj) (rest : List Ref)
    (objectIds : List Text) :
    ∃ e, writeObjects depth (fun _ _ => true) (obj :: rest) s objectIds = (s, .error e) := by
  rw [writeObjects]
  simp only [if_true]
  cases hclone : cloneObject depth s.heap obj with
  | error e => exact ⟨.error e, rfl⟩
  | ok outcome => exact absurd ((returns_cloneObject_iff hplain hgrown hobj hvalid).mp ⟨outcome, hclone⟩) hclonable

/-! ### Deleting -/

variable {objects : Collection}

theorem deleteIds_spec (objIds : List Text) (objects : Collection) (deletedUuids : List Text) :
    (∀ key, (deleteIds objIds objects deletedUuids).1.get key = if key ∈ objIds then none else objects.get key) ∧
      ∀ key, key ∈ (deleteIds objIds objects deletedUuids).2 ↔
        key ∈ deletedUuids ∨ key ∈ objIds ∧ objects.has key = true := by
  induction objIds generalizing objects deletedUuids with
  | nil => simp [deleteIds]
  | cons objId objIds ih =>
    rw [deleteIds]
    cases hhas : objects.has objId with
    | true =>
      obtain ⟨hget, hmem⟩ := ih (objects.delete objId) (deletedUuids ++ [objId])
      refine ⟨fun key => ?_, fun key => ?_⟩
      · simp only [if_true, hget, Map.get_delete, List.mem_cons]
        by_cases hlater : key ∈ objIds
        · simp [hlater]
        · simp [hlater]
      · have hdelete : (objects.delete objId).has key = true ↔ key ≠ objId ∧ objects.has key = true := by
          rw [Map.has, Map.has, Map.get_delete]
          by_cases hkey : key = objId
          · simp [hkey]
          · simp [hkey]
        simp only [if_true, hmem, hdelete, List.mem_append, List.mem_cons]
        by_cases hkey : key = objId
        · simp [hkey, hhas]
        · simp [hkey]
    | false =>
      obtain ⟨hget, hmem⟩ := ih objects deletedUuids
      have hnone : objects.get objId = none := by
        rw [Map.has] at hhas
        simpa using hhas
      refine ⟨fun key => ?_, fun key => ?_⟩
      · simp only [Bool.false_eq_true, if_false, hget, List.mem_cons]
        by_cases hkey : key = objId
        · simp [hkey, hnone]
        · simp [hkey]
      · simp only [Bool.false_eq_true, if_false, hmem, List.mem_cons]
        by_cases hkey : key = objId
        · simp [hkey, hhas]
        · simp [hkey]

/-- The ids of the objects that the matcher says match. -/
def matchedKeys (matcher : Ref → Except Error Bool) (entries : List (Text × Ref)) : List Text :=
  (entries.filter fun entry => match matcher entry.2 with | .ok isMatch => isMatch | .error _ => false).map Prod.fst

variable {matcher : Ref → Except Error Bool} {entries : List (Text × Ref)}

theorem mem_matchedKeys {key : Text} :
    key ∈ matchedKeys matcher entries ↔ ∃ obj, (key, obj) ∈ entries ∧ matcher obj = .ok true := by
  rw [matchedKeys, List.mem_map]
  constructor
  · intro hkey
    obtain ⟨⟨key', obj⟩, hmem, rfl⟩ := hkey
    rw [List.mem_filter] at hmem
    refine ⟨obj, hmem.1, ?_⟩
    cases hmatch : matcher obj with
    | error e => simp [hmatch] at hmem
    | ok isMatch =>
      have htrue := hmem.2
      simp only [hmatch] at htrue
      rw [htrue]
  · intro hkey
    obtain ⟨obj, hmem, hmatch⟩ := hkey
    exact ⟨(key, obj), List.mem_filter.mpr ⟨hmem, by simp [hmatch]⟩, rfl⟩

theorem deleteMatching_append (hentries : ∀ entry ∈ entries, Returns (matcher entry.2)) (rest : List (Text × Ref))
    (objects : Collection) (numDeleted : Nat) :
    deleteMatching matcher (entries ++ rest) objects numDeleted =
      deleteMatching matcher rest ((matchedKeys matcher entries).foldl Map.delete objects)
        (numDeleted + (matchedKeys matcher entries).length) := by
  induction entries generalizing objects numDeleted with
  | nil => rfl
  | cons entry entries ih =>
    obtain ⟨key, obj⟩ := entry
    rw [List.forall_mem_cons] at hentries
    obtain ⟨isMatch, hmatch⟩ := hentries.1
    rw [List.cons_append, deleteMatching, matchedKeys, List.filter_cons]
    simp only [hmatch]
    cases isMatch with
    | true =>
      simp only [if_true, ih hentries.2, List.map_cons, List.foldl_cons, List.length_cons, matchedKeys]
      rw [Nat.add_assoc, Nat.add_comm 1]
    | false =>
      simp only [Bool.false_eq_true, if_false, ih hentries.2, matchedKeys]

/-! ### Updating a property -/

section Update

variable (property : Text) (value : Ref) (shouldCreateMissing : Bool)

/-- What the update of a property makes of the properties of an object. -/
def updatedProperties (properties : List (Text × Ref)) : List (Text × Ref) :=
  if value = .undefined then deleteProperty properties property
  else if (properties.lookup property).isSome || shouldCreateMissing then setProperty properties property value
  else properties

def updated : Cell → Cell := Cell.mapProperties (updatedProperties property value shouldCreateMissing)

/-- Calling the method `hasOwnProperty` of the object is an error. -/
def Hides (h : Heap) (a : Nat) : Prop := ((h.propertiesAt a).lookup (text "hasOwnProperty")).isSome = true

/-- Whether a missing property is created, which an assignment to `__proto__` does not do. -/
def creates : Bool := shouldCreateMissing && property ≠ text "__proto__"

/-- The assignment to `__proto__` does not come to an own property. -/
def Misses (h : Heap) (a : Nat) : Prop :=
  value ≠ .undefined ∧ shouldCreateMissing = true ∧ property = text "__proto__" ∧ (h.propertiesAt a).lookup property = none

/-- The assignment replaces the prototype, or is an error since it would make the object a prototype of its own. -/
def Replaces (h : Heap) (a : Nat) : Prop :=
  Misses property value shouldCreateMissing h a ∧ (value = .null ∨ ∃ p, value = .address p)

/-- The update of a property of the object is an error. -/
def Fails (h : Heap) (a : Nat) : Prop :=
  value ≠ .undefined ∧ (Hides h a ∨ Misses property value shouldCreateMissing h a ∧ value = .address a)

/-- The update of a property of the object makes a difference to the own properties. -/
def Changes (h : Heap) (a : Nat) : Prop :=
  if value = .undefined then ((h.propertiesAt a).lookup property).isSome = true
  else (((h.propertiesAt a).lookup property).isSome || shouldCreateMissing) = true ∧
    (h.propertiesAt a).lookup property ≠ some value

def updateAll (targets : List Nat) (h : Heap) : Heap :=
  targets.foldl (fun h a => h.modify a (updated property value shouldCreateMissing)) h

/-- The objects that an update finds. -/
def targetsOf (objects : Collection) (objIds : List Text) : List Nat :=
  objIds.filterMap fun objId => match objects.get objId with | some (.address a) => some a | _ => none

/-- The loop over the objects that an update finds. -/
def updateTargets : List Nat → Heap → Heap × Except Rejection Reply
  | [], h => (h, .ok .nothing)
  | a :: targets, h =>
    match updateProperty h a property value shouldCreateMissing with
    | .error e => (h, .error (.error e))
    | .ok h => updateTargets targets h

variable {property} {value} {shouldCreateMissing} {a b : Nat} {targets : List Nat}

theorem updateProperties_eq (objIds : List Text) (h : Heap) :
    updateProperties objects property value shouldCreateMissing objIds h =
      updateTargets property value shouldCreateMissing (targetsOf objects objIds) h := by
  induction objIds generalizing h with
  | nil => rfl
  | cons objId objIds ih =>
    rw [updateProperties, targetsOf, List.filterMap_cons]
    cases objects.get objId with
    | none => exact ih h
    | some obj =>
      cases obj with
      | address a =>
        dsimp only
        rw [updateTargets]
        cases updateProperty h a property value shouldCreateMissing with
        | error e => rfl
        | ok h' => exact ih h'
      | _ => exact ih h

theorem modify_congr {f g : Cell → Cell} (hfg : ∀ cell, h[a]? = some cell → f cell = g cell) :
    h.modify a f = h.modify a g := by
  apply List.ext_getElem?
  intro b
  rw [List.getElem?_modify, List.getElem?_modify]
  split
  · rename_i heq
    subst heq
    cases hcell : h[a]? with
    | none => rfl
    | some cell => simp [hfg cell hcell]
  · rfl

theorem modify_eq_self {f : Cell → Cell} (hf : ∀ cell, h[a]? = some cell → f cell = cell) : h.modify a f = h := by
  apply List.ext_getElem?
  intro b
  rw [List.getElem?_modify]
  split
  · rename_i heq
    subst heq
    cases hcell : h[a]? with
    | none => rfl
    | some cell => simp [hf cell hcell]
  · exact Option.map_id'

/-! ### One update -/

variable {properties : List (Text × Ref)}

theorem updateProperty_undefined (hcell : h[a]? = some (.object properties)) :
    updateProperty h a property .undefined shouldCreateMissing =
      .ok (h.modify a (updated property .undefined (creates property shouldCreateMissing))) := by
  rw [updateProperty, if_pos rfl, Heap.delete]
  refine congrArg Except.ok (modify_congr fun cell hcell' => ?_)
  obtain rfl := Option.some.inj (hcell.symm.trans hcell')
  simp [updated, Cell.mapProperties, updatedProperties]

/-- If the method that an update calls is hidden, it fails. Otherwise it assigns to the property unless it is missing and is to stay so. -/
theorem updateProperty_of_not_hides (hcell : h[a]? = some (.object properties)) (hvalue : value ≠ .undefined)
    (hides : ¬ Hides h a) : updateProperty h a property value shouldCreateMissing =
      if (properties.lookup property).isSome || shouldCreateMissing then h.assign a property value else .ok h := by
  rw [Hides, propertiesAt_object hcell] at hides
  rw [updateProperty, if_neg hvalue, hasOwn_object hcell, if_neg hides]
  rfl

theorem updateProperty_of_misses (hcell : h[a]? = some (.object properties)) (hides : ¬ Hides h a)
    (hmisses : Misses property value shouldCreateMissing h a) :
    updateProperty h a property value shouldCreateMissing = h.setPrototype a value := by
  obtain ⟨hvalue, hcreate, rfl, hnone⟩ := hmisses
  rw [propertiesAt_object hcell] at hnone
  rw [updateProperty_of_not_hides hcell hvalue hides, hcreate, Bool.or_true, if_pos rfl, assign_prototype hcell hnone]

theorem updateProperty_of_fails (hcell : h[a]? = some (.object properties))
    (hfails : Fails property value shouldCreateMissing h a) :
    updateProperty h a property value shouldCreateMissing = .error .typeError := by
  by_cases hides : Hides h a
  · rw [Hides, propertiesAt_object hcell] at hides
    rw [updateProperty, if_neg hfails.1, hasOwn_object hcell, if_pos hides]
    rfl
  · obtain ⟨hmisses, rfl⟩ := hfails.2.resolve_left hides
    rw [updateProperty_of_misses hcell hides hmisses, setPrototype_self hcell]

theorem updateProperty_of_replaces (hordinary : ∀ cell ∈ h, cell.IsOrdinary) (hcell : h[a]? = some (.object properties))
    (hfails : ¬ Fails property value shouldCreateMissing h a) (hreplaces : Replaces property value shouldCreateMissing h a) :
    ∃ prototype, updateProperty h a property value shouldCreateMissing = .ok (h.modify a (Cell.withPrototype prototype)) := by
  obtain ⟨hmisses, hprototype⟩ := hreplaces
  have hides : ¬ Hides h a := fun hides => hfails ⟨hmisses.1, .inl hides⟩
  rw [updateProperty_of_misses hcell hides hmisses]
  obtain rfl | ⟨p, rfl⟩ := hprototype
  · exact ⟨.null, rfl⟩
  · have hne : p ≠ a := by
      rintro rfl
      exact hfails ⟨hmisses.1, .inr ⟨hmisses, rfl⟩⟩
    exact ⟨.address p, setPrototype_address hordinary hne⟩

theorem updateProperty_of_not (hcell : h[a]? = some (.object properties))
    (hfails : ¬ Fails property value shouldCreateMissing h a) (hreplaces : ¬ Replaces property value shouldCreateMissing h a) :
    updateProperty h a property value shouldCreateMissing =
      .ok (h.modify a (updated property value (creates property shouldCreateMissing))) := by
  by_cases hvalue : value = .undefined
  · subst hvalue
    exact updateProperty_undefined hcell
  have hides : ¬ Hides h a := fun hides => hfails ⟨hvalue, .inl hides⟩
  have hself : ((properties.lookup property).isSome || creates property shouldCreateMissing) = false →
      h.modify a (updated property value (creates property shouldCreateMissing)) = h := by
    intro hset
    refine modify_eq_self fun cell hcell' => ?_
    obtain rfl := Option.some.inj (hcell.symm.trans hcell')
    simp only [updated, Cell.mapProperties, updatedProperties, if_neg hvalue, hset, Bool.false_eq_true, if_false]
  by_cases hmisses : Misses property value shouldCreateMissing h a
  · -- Neither an object nor `null` is assigned to `__proto__`.
    have hprimitive : value ≠ .null ∧ ∀ p, value ≠ .address p := by
      constructor
      · rintro rfl
        exact hreplaces ⟨hmisses, .inl rfl⟩
      · rintro p rfl
        exact hreplaces ⟨hmisses, .inr ⟨p, rfl⟩⟩
    have hsame : h.setPrototype a value = .ok h := by
      cases value with
      | null => exact absurd rfl hprimitive.1
      | address p => exact absurd rfl (hprimitive.2 p)
      | _ => rfl
    rw [updateProperty_of_misses hcell hides hmisses, hsame, hself]
    obtain ⟨-, -, hproperty, hnone⟩ := hmisses
    rw [propertiesAt_object hcell] at hnone
    rw [hnone, creates, hproperty]
    simp
  · rw [updateProperty_of_not_hides hcell hvalue hides]
    have hcreates : ((properties.lookup property).isSome || shouldCreateMissing) =
        ((properties.lookup property).isSome || creates property shouldCreateMissing) := by
      cases hlookup : properties.lookup property with
      | some ref => rfl
      | none =>
        cases hcreate : shouldCreateMissing with
        | false => rfl
        | true =>
          have hne : property ≠ text "__proto__" := fun heq =>
            hmisses ⟨hvalue, hcreate, heq, by rw [propertiesAt_object hcell, hlookup]⟩
          simp [creates, hne]
    rw [hcreates]
    split
    · rename_i hset
      have hassign : property = text "__proto__" → (properties.lookup property).isSome = true := by
        intro heq
        simpa [creates, heq] using hset
      rw [assign_object hcell hassign]
      refine congrArg Except.ok (modify_congr fun cell hcell' => ?_)
      obtain rfl := Option.some.inj (hcell.symm.trans hcell')
      simp only [updated, Cell.mapProperties, updatedProperties, if_neg hvalue, hset, if_true]
    · rename_i hset
      rw [hself (Bool.not_eq_true _ ▸ hset)]

/-- What has had its prototype replaced keeps a replaced one. -/
theorem updateProperty_derived {prototype : Ref} {h' : Heap} (hcell : h[b]? = some (.derived prototype properties))
    (hupdate : updateProperty h a property value shouldCreateMissing = .ok h') :
    ∃ prototype' properties', h'[b]? = some (.derived prototype' properties') := by
  have hmodify : ∀ f : Cell → Cell, (∀ prototype properties, ∃ prototype' properties',
      f (.derived prototype properties) = .derived prototype' properties') →
      ∃ prototype' properties', (h.modify a f)[b]? = some (.derived prototype' properties') := by
    intro f hf
    rw [List.getElem?_modify, hcell]
    split
    · obtain ⟨prototype', properties', heq⟩ := hf prototype properties
      exact ⟨prototype', properties', congrArg some heq⟩
    · exact ⟨prototype, properties, rfl⟩
  have hmap : ∀ (f : List (Text × Ref) → List (Text × Ref)) prototype properties, ∃ prototype' properties',
      Cell.mapProperties f (.derived prototype properties) = .derived prototype' properties' :=
    fun f prototype properties => ⟨prototype, f properties, rfl⟩
  have hwith : ∀ replacing prototype properties, ∃ prototype' properties',
      Cell.withPrototype replacing (.derived prototype properties) = .derived prototype' properties' :=
    fun replacing _ properties => ⟨replacing, properties, rfl⟩
  rw [updateProperty] at hupdate
  split at hupdate
  · obtain rfl := Except.ok.inj hupdate
    exact hmodify _ (hmap _)
  · obtain ⟨isOwn, -, hassign⟩ := bind_eq_ok_iff.mp hupdate
    split at hassign
    · rw [Heap.assign] at hassign
      split at hassign
      · unfold setPrototype at hassign
        split at hassign
        · obtain rfl := Except.ok.inj hassign
          exact hmodify _ (hwith _)
        · split at hassign
          · cases hassign
          · obtain rfl := Except.ok.inj hassign
            exact hmodify _ (hwith _)
        · obtain rfl := Except.ok.inj hassign
          exact ⟨prototype, properties, hcell⟩
      · obtain rfl := Except.ok.inj hassign
        exact hmodify _ (hmap _)
    · obtain rfl := Except.ok.inj hassign
      exact ⟨prototype, properties, hcell⟩

theorem updateTargets_derived {prototype : Ref} (hcell : h[b]? = some (.derived prototype properties)) (targets : List Nat) :
    ∃ prototype' properties', (updateTargets property value shouldCreateMissing targets h).1[b]? =
      some (.derived prototype' properties') := by
  induction targets generalizing h prototype properties with
  | nil => exact ⟨prototype, properties, hcell⟩
  | cons a targets ih =>
    rw [updateTargets]
    cases hupdate : updateProperty h a property value shouldCreateMissing with
    | error e => exact ⟨prototype, properties, hcell⟩
    | ok h' =>
      obtain ⟨prototype', properties', hcell'⟩ := updateProperty_derived hcell hupdate
      exact ih hcell'

/-! ### All updates of own properties -/

theorem updatedProperties_updatedProperties (properties : List (Text × Ref)) :
    updatedProperties property value shouldCreateMissing (updatedProperties property value shouldCreateMissing properties) =
      updatedProperties property value shouldCreateMissing properties := by
  simp only [updatedProperties]
  by_cases hvalue : value = .undefined
  · simp only [if_pos hvalue]
    rw [deleteProperty_of_lookup]
    rw [lookup_deleteProperty, if_pos rfl]
  · simp only [if_neg hvalue]
    by_cases hset : ((properties.lookup property).isSome || shouldCreateMissing) = true
    · have hlookup : (setProperty properties property value).lookup property = some value := by
        rw [lookup_setProperty, if_pos rfl]
      simp only [if_pos hset, hlookup, Option.isSome_some, Bool.true_or, if_true, setProperty_of_lookup hlookup]
    · simp only [if_neg hset]

theorem updated_updated (cell : Cell) :
    updated property value shouldCreateMissing (updated property value shouldCreateMissing cell) =
      updated property value shouldCreateMissing cell := by
  cases cell with
  | array items => rfl
  | object properties => exact congrArg Cell.object (updatedProperties_updatedProperties properties)
  | derived prototype properties => exact congrArg (Cell.derived prototype) (updatedProperties_updatedProperties properties)

theorem getElem?_updateAll (targets : List Nat) (h : Heap) (b : Nat) :
    (updateAll property value shouldCreateMissing targets h)[b]? =
      if b ∈ targets then h[b]?.map (updated property value shouldCreateMissing) else h[b]? := by
  induction targets generalizing h with
  | nil => simp [updateAll]
  | cons a targets ih =>
    rw [updateAll, List.foldl_cons, ← updateAll, ih, List.getElem?_modify]
    by_cases hlater : b ∈ targets
    · by_cases heq : a = b
      · cases hcell : h[b]? with
        | none => simp [hlater, heq]
        | some cell => simp [hlater, heq, updated_updated]
      · simp [hlater, heq]
    · by_cases heq : a = b
      · simp [hlater, heq]
      · have heq' : b ≠ a := Ne.symm heq
        simp [hlater, heq, heq']

theorem updated_object_eq_self_iff {properties : List (Text × Ref)} (hcell : h[a]? = some (.object properties)) :
    updated property value shouldCreateMissing (.object properties) = .object properties ↔
      ¬ Changes property value shouldCreateMissing h a := by
  simp only [updated, Cell.mapProperties, updatedProperties, Changes, propertiesAt_object hcell, Cell.object.injEq]
  by_cases hvalue : value = .undefined
  · simp only [if_pos hvalue]
    constructor
    · intro hsame hsome
      rw [← hsame, lookup_deleteProperty, if_pos rfl] at hsome
      cases hsome
    · intro hnone
      exact deleteProperty_of_lookup (Option.not_isSome_iff_eq_none.mp hnone)
  · simp only [if_neg hvalue]
    by_cases hset : ((properties.lookup property).isSome || shouldCreateMissing) = true
    · simp only [hset, if_true, true_and, not_not]
      constructor
      · intro hsame
        rw [← hsame, lookup_setProperty, if_pos rfl]
      · intro hlookup
        exact setProperty_of_lookup hlookup
    · simp [hset]

theorem propertiesAt_updateAll (hcell : ∃ properties, h[a]? = some (.object properties)) :
    (updateAll property value shouldCreateMissing targets h).propertiesAt a =
      if a ∈ targets then updatedProperties property value shouldCreateMissing (h.propertiesAt a)
      else h.propertiesAt a := by
  obtain ⟨properties, hcell⟩ := hcell
  rw [propertiesAt_object hcell, propertiesAt, getElem?_updateAll, hcell]
  by_cases hmem : a ∈ targets
  · simp [hmem, updated, Cell.mapProperties]
  · simp [hmem]

/-- An object hides the method in the course of the loop if it did before, or has been given a property that does. -/
theorem hides_updateAll_iff (hvalue : value ≠ .undefined) (hcell : ∃ properties, h[a]? = some (.object properties)) :
    Hides (updateAll property value shouldCreateMissing targets h) a ↔
      Hides h a ∨ a ∈ targets ∧ property = text "hasOwnProperty" ∧ shouldCreateMissing = true := by
  rw [Hides, Hides, propertiesAt_updateAll hcell]
  by_cases hmem : a ∈ targets
  · simp only [hmem, if_true, true_and, updatedProperties, if_neg hvalue]
    by_cases hset : (((h.propertiesAt a).lookup property).isSome || shouldCreateMissing) = true
    · rw [if_pos hset, lookup_setProperty]
      by_cases hproperty : text "hasOwnProperty" = property
      · rw [if_pos hproperty]
        subst hproperty
        simpa using hset
      · simp [hproperty, Ne.symm hproperty]
    · rw [if_neg hset]
      simp only [Bool.or_eq_true, not_or] at hset
      simp [hset.2]
  · simp [hmem]

theorem misses_updateAll_iff (hcell : ∃ properties, h[a]? = some (.object properties)) :
    Misses property value shouldCreateMissing
        (updateAll property value (creates property shouldCreateMissing) targets h) a ↔
      Misses property value shouldCreateMissing h a := by
  have hlookup : value ≠ .undefined → property = text "__proto__" →
      (((updateAll property value (creates property shouldCreateMissing) targets h).propertiesAt a).lookup property = none ↔
        (h.propertiesAt a).lookup property = none) := by
    intro hvalue hproperty
    have hcreates : creates property shouldCreateMissing = false := by simp [creates, hproperty]
    rw [propertiesAt_updateAll hcell, hcreates]
    split
    · rw [updatedProperties, if_neg hvalue, Bool.or_false]
      split
      · rename_i hsome
        rw [lookup_setProperty, if_pos rfl, Option.isSome_iff_ne_none] at *
        simpa using hsome
      · exact Iff.rfl
    · exact Iff.rfl
  constructor
  · intro ⟨hvalue, hcreate, hproperty, hnone⟩
    exact ⟨hvalue, hcreate, hproperty, (hlookup hvalue hproperty).mp hnone⟩
  · intro ⟨hvalue, hcreate, hproperty, hnone⟩
    exact ⟨hvalue, hcreate, hproperty, (hlookup hvalue hproperty).mpr hnone⟩

/-- An update fails in the course of the loop if it did before, or if the loop has given the object a property that hides the method. -/
theorem fails_updateAll_iff (hcell : ∃ properties, h[a]? = some (.object properties)) :
    Fails property value shouldCreateMissing (updateAll property value (creates property shouldCreateMissing) targets h) a ↔
      Fails property value shouldCreateMissing h a ∨
        value ≠ .undefined ∧ a ∈ targets ∧ property = text "hasOwnProperty" ∧ shouldCreateMissing = true := by
  have hcreates : property = text "hasOwnProperty" → (creates property shouldCreateMissing = true ↔ shouldCreateMissing = true) := by
    rintro rfl
    have hne : text "hasOwnProperty" ≠ text "__proto__" := by decide
    simp [creates, hne]
  rw [Fails, Fails, misses_updateAll_iff hcell]
  constructor
  · intro ⟨hvalue, hfails⟩
    rw [hides_updateAll_iff hvalue hcell] at hfails
    obtain (hides | ⟨hmem, hproperty, hcreate⟩) | hself := hfails
    · exact .inl ⟨hvalue, .inl hides⟩
    · exact .inr ⟨hvalue, hmem, hproperty, (hcreates hproperty).mp hcreate⟩
    · exact .inl ⟨hvalue, .inr hself⟩
  · rintro (⟨hvalue, hides | hself⟩ | ⟨hvalue, hmem, hproperty, hcreate⟩)
    · exact ⟨hvalue, .inl ((hides_updateAll_iff hvalue hcell).mpr (.inl hides))⟩
    · exact ⟨hvalue, .inr hself⟩
    · exact ⟨hvalue, .inl ((hides_updateAll_iff hvalue hcell).mpr (.inr ⟨hmem, hproperty, (hcreates hproperty).mpr hcreate⟩))⟩

theorem ordinary_modify (hordinary : ∀ cell ∈ h, cell.IsOrdinary) :
    ∀ cell ∈ h.modify a (updated property value shouldCreateMissing), cell.IsOrdinary := by
  intro cell hcell
  obtain ⟨b, hb⟩ := List.mem_iff_getElem?.mp hcell
  rw [List.getElem?_modify] at hb
  obtain ⟨old, hold, rfl⟩ := Option.map_eq_some_iff.mp hb
  have holdOrdinary := hordinary old (List.mem_of_getElem? hold)
  split
  · cases old with
    | array items => trivial
    | object properties => trivial
    | derived prototype properties => exact holdOrdinary
  · exact holdOrdinary

theorem exists_object_modify (hcell : ∃ properties, h[b]? = some (.object properties)) :
    ∃ properties, (h.modify a (updated property value shouldCreateMissing))[b]? = some (.object properties) := by
  obtain ⟨properties, hcell⟩ := hcell
  rw [List.getElem?_modify, hcell]
  split
  · exact ⟨updatedProperties property value shouldCreateMissing properties, rfl⟩
  · exact ⟨properties, rfl⟩

theorem splits_cons {P : List Nat → Nat → Prop} (hfirst : P [] a)
    (hrest : ∀ before b after, targets = before ++ b :: after → P (a :: before) b) :
    ∀ before b after, a :: targets = before ++ b :: after → P before b := by
  intro before b after heq
  cases before with
  | nil => exact (List.cons.inj heq).1 ▸ hfirst
  | cons c before =>
    obtain ⟨rfl, hafter⟩ := List.cons.inj heq
    exact hrest before b after hafter

/-! ### The loop -/

/-- All updates of some objects, one after the other, are ones of own properties. -/
def AllOwn (property : Text) (value : Ref) (shouldCreateMissing : Bool) (h : Heap) (targets : List Nat) : Prop :=
  ∀ before a after, targets = before ++ a :: after →
    ¬ Fails property value shouldCreateMissing
        (updateAll property value (creates property shouldCreateMissing) before h) a ∧
      ¬ Replaces property value shouldCreateMissing
        (updateAll property value (creates property shouldCreateMissing) before h) a

theorem AllOwn.cons (hfails : ¬ Fails property value shouldCreateMissing h a)
    (hreplaces : ¬ Replaces property value shouldCreateMissing h a)
    (hrest : AllOwn property value shouldCreateMissing
      (h.modify a (updated property value (creates property shouldCreateMissing))) targets) :
    AllOwn property value shouldCreateMissing h (a :: targets) :=
  splits_cons ⟨hfails, hreplaces⟩ hrest

/-- The loop comes to its end, or to the first object that the update of fails, or has updated own properties only up to the first object that it replaces the prototype of. -/
inductive Looped (property : Text) (value : Ref) (shouldCreateMissing : Bool) (h : Heap) (targets : List Nat)
    (result : Heap × Except Rejection Reply) : Prop
  | done (hown : AllOwn property value shouldCreateMissing h targets)
    (heq : result = (updateAll property value (creates property shouldCreateMissing) targets h, .ok .nothing))
  | failed (before : List Nat) (a : Nat) (after : List Nat) (htargets : targets = before ++ a :: after)
    (hown : AllOwn property value shouldCreateMissing h before)
    (hfails : Fails property value shouldCreateMissing
      (updateAll property value (creates property shouldCreateMissing) before h) a)
    (heq : result = (updateAll property value (creates property shouldCreateMissing) before h, .error (.error .typeError)))
  | replaced (before : List Nat) (a : Nat) (after : List Nat) (htargets : targets = before ++ a :: after)
    (hown : AllOwn property value shouldCreateMissing h before)
    (hfails : ¬ Fails property value shouldCreateMissing
      (updateAll property value (creates property shouldCreateMissing) before h) a)
    (hreplaces : Replaces property value shouldCreateMissing
      (updateAll property value (creates property shouldCreateMissing) before h) a)
    (hcell : ∃ prototype properties, result.1[a]? = some (.derived prototype properties))

theorem looped_updateTargets (hordinary : ∀ cell ∈ h, cell.IsOrdinary)
    (hcells : ∀ a ∈ targets, ∃ properties, h[a]? = some (.object properties)) :
    Looped property value shouldCreateMissing h targets (updateTargets property value shouldCreateMissing targets h) := by
  have hnil : ∀ h, AllOwn property value shouldCreateMissing h [] := by simp [AllOwn]
  induction targets generalizing h with
  | nil => exact .done (hnil h) rfl
  | cons a targets ih =>
    rw [List.forall_mem_cons] at hcells
    obtain ⟨⟨properties, hcell⟩, hcells⟩ := hcells
    by_cases hfails : Fails property value shouldCreateMissing h a
    · refine .failed [] a targets rfl (hnil h) hfails ?_
      rw [updateTargets, updateProperty_of_fails hcell hfails]
      rfl
    by_cases hreplaces : Replaces property value shouldCreateMissing h a
    · obtain ⟨prototype, hupdate⟩ := updateProperty_of_replaces hordinary hcell hfails hreplaces
      refine .replaced [] a targets rfl (hnil h) hfails hreplaces ?_
      have hderived : (h.modify a (Cell.withPrototype prototype))[a]? = some (.derived prototype properties) := by
        simp [hcell, Cell.withPrototype]
      rw [updateTargets, hupdate]
      exact updateTargets_derived hderived targets
    have hstep : updateTargets property value shouldCreateMissing (a :: targets) h =
        updateTargets property value shouldCreateMissing targets
          (h.modify a (updated property value (creates property shouldCreateMissing))) := by
      rw [updateTargets, updateProperty_of_not hcell hfails hreplaces]
    rw [hstep]
    cases ih (ordinary_modify hordinary) fun b hb => exists_object_modify (hcells b hb) with
    | done hown heq => exact .done (hown.cons hfails hreplaces) heq
    | failed before b after htargets hown hfails' heq =>
      exact .failed (a :: before) b after (congrArg (a :: ·) htargets) (hown.cons hfails hreplaces) hfails' heq
    | replaced before b after htargets hown hfails' hreplaces' hcell' =>
      exact .replaced (a :: before) b after (congrArg (a :: ·) htargets) (hown.cons hfails hreplaces) hfails' hreplaces' hcell'

theorem mem_targetsOf {objIds : List Text} : a ∈ targetsOf objects objIds ↔
    ∃ key ∈ objIds, objects.get key = some (.address a) := by
  rw [targetsOf, List.mem_filterMap]
  constructor
  · intro hmem
    obtain ⟨key, hkey, hobj⟩ := hmem
    split at hobj
    · rename_i hget
      cases hobj
      exact ⟨key, hkey, hget⟩
    · cases hobj
  · intro hmem
    obtain ⟨key, hkey, hget⟩ := hmem
    exact ⟨key, hkey, by simp only [hget]⟩

theorem mem_refs_updated {cell : Cell} {ref : Ref} (href : ref ∈ (updated property value shouldCreateMissing cell).refs) :
    ref = value ∨ ref ∈ cell.refs := by
  refine mapProperties_refs (fun properties ref href => ?_) href
  rw [updatedProperties] at href
  split at href
  · exact .inr (mem_deleteProperty href)
  · split at href
    · exact mem_setProperty href
    · exact .inr href

theorem closed_modify (hclosed : h.Closed) (hvalue : value.Within h) :
    Closed (h.modify a (updated property value shouldCreateMissing)) := by
  intro cell hcell ref href
  rw [Ref.Within, List.length_modify]
  obtain ⟨b, hb⟩ := List.mem_iff_getElem?.mp hcell
  rw [List.getElem?_modify] at hb
  obtain ⟨old, hold, rfl⟩ := Option.map_eq_some_iff.mp hb
  split at href
  · obtain rfl | hmem := mem_refs_updated href
    · exact hvalue
    · exact hclosed.refs hold ref hmem
  · exact hclosed.refs hold ref href

theorem plain_updateAll (hplain : h.Plain) (hvalue : value.Within h) :
    (updateAll property value shouldCreateMissing targets h).Plain := by
  induction targets generalizing h with
  | nil => exact hplain
  | cons a targets ih =>
    apply ih ⟨closed_modify hplain.closed hvalue, ordinary_modify hplain.ordinary⟩
    rw [Ref.Within, List.length_modify]
    exact hvalue

end Update

end InMemory

end Coaty
