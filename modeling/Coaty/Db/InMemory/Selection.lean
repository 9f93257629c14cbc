import Coaty.Db.InMemory.Pipeline

/-!
# What a filter selects

Counting, finding and deleting each go through a collection in their own way. They select the same objects, provided that the objects which match can be copied: finding hands out copies, so it is rejected at one that cannot be copied, which counting and deleting do not notice.
-/

namespace Coaty

open Js Heap Value Evaluation

namespace InMemory

variable (engine : Engine) (depth : Nat)

/-- The matcher says that the object matches. -/
def isSelected (matcher : Option (Ref → Except Error Bool)) (obj : Ref) : Bool :=
  match isMatch matcher obj with
  | .ok matched => matched
  | .error _ => false

def matcherOf (h : Heap) (filter : Option DbObjectFilter) : Option (Ref → Except Error Bool) :=
  getFilterMatcher engine depth h (filter.map DbObjectFilter.toValue)

/-- Evaluating the filter does not throw. -/
structure Evaluates (h : Heap) (objects : Collection) (filter : Option DbObjectFilter) : Prop where
  matching : ∀ obj ∈ objects.values, Returns (isMatch (matcherOf engine depth h filter) obj)
  ordering : ∀ a ∈ objects.values, ∀ b ∈ objects.values,
    Returns (comparer engine depth h (DbObjectFilter.orderBy filter) a b)

/-- The objects are all those that are counted, found and deleted. -/
structure Selects (db : Database) (collectionName : Text) (filter : Option DbObjectFilter)
    (selected : List (Text × Ref)) : Prop where
  counted : db.countObjects engine depth collectionName (filter.map DbObjectFilter.toValue) = .ok selected.length
  found : ∀ (E : Type) (iterator : QueryIterator Value (Failure E)), (∀ calls, iterator.action calls = .proceed) →
    ∃ run calls, db.findObjects engine depth collectionName (filter.map DbObjectFilter.withoutRange) .none = .ok run ∧
      run iterator = .settled (calls, .resolved selected.length false) ∧
      ((calls.flatMap IteratorCall.results).map Except.ok).Perm (selected.map fun entry => copyOf depth db.heap entry.2)
  alike : db.heap.Plain → ∀ entry ∈ selected, Deep.Lossless db.heap depth entry.2 →
    copyOf depth db.heap entry.2 = .ok ((db.heap.view depth entry.2).getD .null)
  deleted : (db.deleteObjects engine depth collectionName (filter.map DbObjectFilter.toValue)).2 =
    .ok (.count selected.length)
  gone : (db.deleteObjects engine depth collectionName (filter.map DbObjectFilter.toValue)).1.countObjects engine depth
    collectionName (filter.map DbObjectFilter.toValue) = .ok 0
  kept : ∀ name key, (db.deleteObjects engine depth collectionName (filter.map DbObjectFilter.toValue)).1.stored name key =
    if name = collectionName ∧ key ∈ selected.map Prod.fst then none else db.stored name key
  unchanged : (db.deleteObjects engine depth collectionName (filter.map DbObjectFilter.toValue)).1.heap = db.heap

/-- Counting, finding and deleting agree on some entries of the collection. -/
def Agrees (db : Database) (collectionName : Text) (objects : Collection) (filter : Option DbObjectFilter) : Prop :=
  ∃ selected, List.Sublist selected objects.entries ∧ Selects engine depth db collectionName filter selected

variable {engine} {depth} {E : Type}

/-! ### Selecting -/

variable {matcher : Option (Ref → Except Error Bool)} {objs : List Ref}

theorem hits_of_returns (hreturns : ∀ obj ∈ objs, Returns (isMatch matcher obj)) :
    hits matcher objs = (⟨objs.filter (isSelected matcher), none⟩ : Rows Ref (Failure E)) := by
  induction objs with
  | nil => rfl
  | cons obj objs ih =>
    rw [List.forall_mem_cons] at hreturns
    obtain ⟨⟨matched, hmatch⟩, hrest⟩ := hreturns
    have hselected : isSelected matcher obj = matched := by
      rw [isSelected, hmatch]
    rw [hits, List.filter_cons, hselected, hmatch]
    cases matched with
    | false => exact ih hrest
    | true =>
      simp only [ih hrest]
      rfl

theorem countMatching_of_returns {matcher : Ref → Except Error Bool} (hreturns : ∀ obj ∈ objs, Returns (matcher obj)) :
    Database.countMatching matcher objs = .ok (objs.countP (isSelected (some matcher))) := by
  induction objs with
  | nil => rfl
  | cons obj objs ih =>
    rw [List.forall_mem_cons] at hreturns
    obtain ⟨⟨matched, hmatch⟩, hrest⟩ := hreturns
    have hselected : isSelected (some matcher) obj = matched := by
      rw [isSelected, isMatch, hmatch]
    rw [Database.countMatching, hmatch, ok_bind, ih hrest, ok_bind, List.countP_cons, hselected]
    cases matched <;> rfl

def selectedEntries (matcher : Option (Ref → Except Error Bool)) (objects : Collection) : List (Text × Ref) :=
  objects.entries.filter fun entry => isSelected matcher entry.2

theorem map_selectedEntries (objects : Collection) :
    (selectedEntries matcher objects).map Prod.snd = objects.values.filter (isSelected matcher) := by
  rw [selectedEntries, Map.values, List.filter_map]
  rfl

theorem selectedEntries_none (objects : Collection) : selectedEntries none objects = objects.entries :=
  List.filter_eq_self.mpr fun _ _ => rfl

theorem read_conditions_toValue (filter : DbObjectFilter) :
    filter.toValue.read "conditions" = .ok filter.conditions := by
  have hnodup : (filter.properties.map Prod.fst).Nodup :=
    show [text "conditions", text "orderByProperties", text "skip", text "take"].Nodup by decide
  rw [DbObjectFilter.toValue, read_jsonImage hnodup, DbObjectFilter.properties, List.lookup_cons_self]
  rfl

theorem get_conditions_toValue (filter : DbObjectFilter) : filter.toValue.get (text "conditions") = filter.conditions := by
  have hread : filter.toValue.read "conditions" = .ok (filter.toValue.get (text "conditions")) := rfl
  exact Except.ok.inj (hread.symm.trans (read_conditions_toValue filter))

theorem matcherOf_withoutRange (h : Heap) (filter : Option DbObjectFilter) :
    matcherOf engine depth h (filter.map DbObjectFilter.withoutRange) = matcherOf engine depth h filter := by
  cases filter with
  | none => rfl
  | some filter =>
    have hconditions : filter.withoutRange.conditions = filter.conditions := rfl
    have hmatches : ∀ obj, ObjectMatcher.matchesFilterValue engine obj (some filter.withoutRange.toValue) =
        ObjectMatcher.matchesFilterValue engine obj (some filter.toValue) := by
      intro obj
      cases obj with
      | none => rfl
      | some obj => simp only [ObjectMatcher.matchesFilterValue, read_conditions_toValue, hconditions]
    have hfilter : ∀ f : DbObjectFilter, isTruthy (some f.toValue) = true := fun _ => rfl
    simp only [matcherOf, getFilterMatcher, Option.map_some, Option.bind_some, get_conditions_toValue, hconditions,
      hmatches, hfilter]

/-! ### Counting and deleting -/

variable {db : Database} {objects : Collection} {collectionName : Text} {filter : Option DbObjectFilter}

theorem throwIfObjectFilterInvalid_toValue (filter : Option DbObjectFilter) :
    throwIfObjectFilterInvalid (filter.map DbObjectFilter.toValue) = .ok () := by
  cases filter <;> rfl

theorem countObjects_eq (hget : db.collections.get collectionName = some objects)
    (hreturns : ∀ obj ∈ objects.values, Returns (isMatch (matcherOf engine depth db.heap filter) obj)) :
    db.countObjects engine depth collectionName (filter.map DbObjectFilter.toValue) =
      .ok (selectedEntries (matcherOf engine depth db.heap filter) objects).length := by
  simp only [Database.countObjects, throwIfObjectFilterInvalid_toValue, hget]
  unfold matcherOf at hreturns ⊢
  cases hmatcher : getFilterMatcher engine depth db.heap (filter.map DbObjectFilter.toValue) with
  | none =>
    rw [selectedEntries_none]
    rfl
  | some matcher =>
    rw [hmatcher] at hreturns
    have hcount : Database.countMatching matcher objects.values = .ok _ := countMatching_of_returns hreturns
    rw [List.countP_eq_length_filter, ← map_selectedEntries, List.length_map] at hcount
    simp only [hcount]
    rfl

theorem deleteObjects_eq (hget : db.collections.get collectionName = some objects)
    (hreturns : ∀ obj ∈ objects.values, Returns (isMatch (matcherOf engine depth db.heap filter) obj)) :
    ∃ rest : Collection, db.deleteObjects engine depth collectionName (filter.map DbObjectFilter.toValue) =
        (db.put collectionName ⟨db.heap, rest⟩,
          .ok (.count (selectedEntries (matcherOf engine depth db.heap filter) objects).length)) ∧
      ∀ key, rest.get key =
        if key ∈ (selectedEntries (matcherOf engine depth db.heap filter) objects).map Prod.fst then none
        else objects.get key := by
  simp only [Database.deleteObjects, Database.onCollection, hget]
  unfold matcherOf at hreturns ⊢
  cases hmatcher : getFilterMatcher engine depth db.heap (filter.map DbObjectFilter.toValue) with
  | none =>
    refine ⟨Map.empty, ?_, fun key => ?_⟩
    · rw [selectedEntries_none]
      rfl
    · rw [selectedEntries_none]
      split
      · rfl
      · rename_i hkey
        exact (Map.not_mem_keys.mp hkey).symm
  | some matcher =>
    rw [hmatcher] at hreturns
    have hentries : ∀ entry ∈ objects.entries, Returns (matcher entry.2) :=
      fun entry hmem => hreturns entry.2 (List.mem_map_of_mem hmem)
    have hkeys : (selectedEntries (some matcher) objects).map Prod.fst = matchedKeys matcher objects.entries := rfl
    have hloop := deleteMatching_append hentries [] objects 0
    rw [List.append_nil, Nat.zero_add, deleteMatching] at hloop
    refine ⟨(matchedKeys matcher objects.entries).foldl Map.delete objects, ?_, fun key => ?_⟩
    · simp only [hloop]
      rw [← hkeys, List.length_map]
      rfl
    · rw [hkeys]
      exact Map.get_foldl_delete objects _ key

/-! ### Finding -/

theorem resultOf_none (obj : Ref) :
    (resultOf engine depth db .none obj : Except (Failure E) Value) = (copyOf depth db.heap obj).mapError .error := by
  rw [resultOf]
  cases copyOf depth db.heap obj <;> rfl

/-- What a copy reads like, if it can be made. -/
def copied (depth : Nat) (h : Heap) (obj : Ref) : Value :=
  match copyOf depth h obj with
  | .ok value => value
  | .error _ => .null

theorem copyOf_of_returns {h : Heap} {obj : Ref} (hclone : Returns (Deep.clone h depth obj)) :
    copyOf depth h obj = .ok (copied depth h obj) := by
  obtain ⟨copy, hclone⟩ := hclone
  rw [copied, copyOf, hclone]
  rfl

theorem exists_permuted (hevaluates : Evaluates engine depth db.heap objects filter) :
    ∃ ordered : List Ref, ordered.Perm ((selectedEntries (matcherOf engine depth db.heap filter) objects).map Prod.snd) ∧
      ∀ (E : Type) (iterator : QueryIterator Value (Failure E)),
        db.start engine depth objects (filter.map DbObjectFilter.withoutRange) .none iterator =
          .settled (iterator.documentedUntil
            ((⟨ordered, none⟩ : Rows Ref (Failure E)).evaluate (resultOf engine depth db .none))) := by
  have horderBy : DbObjectFilter.orderBy (filter.map DbObjectFilter.withoutRange) = DbObjectFilter.orderBy filter := by
    cases filter <;> rfl
  have hoffset : DbObjectFilter.offset (filter.map DbObjectFilter.withoutRange) = 0 := by
    cases filter <;> rfl
  have hlimit : DbObjectFilter.limit (filter.map DbObjectFilter.withoutRange) = none := by
    cases filter <;> rfl
  have hmatching : ∀ E : Type, matching engine depth db.heap objects (filter.map DbObjectFilter.withoutRange) =
      (⟨(selectedEntries (matcherOf engine depth db.heap filter) objects).map Prod.snd, none⟩ : Rows Ref (Failure E)) := by
    intro E
    rw [map_selectedEntries, ← hits_of_returns hevaluates.matching, ← matcherOf_withoutRange]
    rfl
  by_cases horder : DbObjectFilter.orderBy filter = []
  · refine ⟨_, List.Perm.refl _, fun E iterator => ?_⟩
    rw [start_of_unordered (horderBy.trans horder), hmatching, hoffset, hlimit]
    rfl
  · have hcompares : ((selectedEntries (matcherOf engine depth db.heap filter) objects).map Prod.snd).Pairwise fun a b =>
        Returns (comparer engine depth db.heap (DbObjectFilter.orderBy filter) a b) := by
      rw [map_selectedEntries]
      apply List.pairwise_of_forall_mem_list
      intro a ha b hb
      exact hevaluates.ordering a (List.mem_of_mem_filter ha) b (List.mem_of_mem_filter hb)
    obtain ⟨ordered, hsorted, hperm⟩ := Sorting.sortM_returns hcompares
    refine ⟨ordered, hperm, fun E iterator => ?_⟩
    have hnone : (matching engine depth db.heap objects (filter.map DbObjectFilter.withoutRange) :
        Rows Ref (Failure E)).failure = none := by
      rw [hmatching]
    have hsorted' : Sorting.sortM (comparer engine depth db.heap
        (DbObjectFilter.orderBy (filter.map DbObjectFilter.withoutRange)))
        (matching engine depth db.heap objects (filter.map DbObjectFilter.withoutRange) :
          Rows Ref (Failure E)).values = .ok ordered := by
      rw [hmatching, horderBy]
      exact hsorted
    rw [start_of_sorted (by rw [horderBy]; exact horder) hnone hsorted', hoffset, hlimit]
    rfl

/-! ### Counting, finding and deleting -/

/-- The objects that match can be copied. -/
def Copyable (engine : Engine) (depth : Nat) (db : Database) (objects : Collection) (filter : Option DbObjectFilter) : Prop :=
  ∀ obj ∈ objects.values, isSelected (matcherOf engine depth db.heap filter) obj = true →
    Returns (Deep.clone db.heap depth obj)

theorem copyable_of_agrees (hget : db.collections.get collectionName = some objects)
    (hevaluates : Evaluates engine depth db.heap objects filter)
    (hagrees : Agrees engine depth db collectionName objects filter) : Copyable engine depth db objects filter := by
  obtain ⟨selected, -, hselects⟩ := hagrees
  obtain ⟨ordered, hperm, hstart⟩ := exists_permuted hevaluates
  obtain ⟨run, calls, hrun, houtcome, -⟩ := hselects.found Empty (.forEach fun _ => .proceed) fun _ => rfl
  rw [findObjects_of_some hget] at hrun
  cases hrun
  rw [hstart] at houtcome
  have hiteration := FindOutcome.settled.inj houtcome
  have hnone : ((⟨ordered, none⟩ : Rows Ref (Failure Empty)).evaluate (resultOf engine depth db .none)).failure = none := by
    rw [Option.eq_none_iff_forall_ne_some]
    intro e hfailure
    rw [QueryIterator.documentedUntil_of_failure (fun _ => rfl) hfailure] at hiteration
    cases hiteration
  intro obj hobj hselected
  have hmem : obj ∈ ordered := by
    rw [hperm.mem_iff, map_selectedEntries]
    exact List.mem_filter.mpr ⟨hobj, hselected⟩
  obtain ⟨value, hresult⟩ := Rows.returns_of_evaluate hnone obj hmem
  rw [resultOf_none, copyOf] at hresult
  cases hclone : Deep.clone db.heap depth obj with
  | error e =>
    rw [hclone] at hresult
    cases hresult
  | ok copy => exact returns_ok copy

theorem countObjects_rest (hevaluates : Evaluates engine depth db.heap objects filter) {rest : Collection}
    (hrest : ∀ key, rest.get key =
      if key ∈ (selectedEntries (matcherOf engine depth db.heap filter) objects).map Prod.fst then none
      else objects.get key) :
    (db.put collectionName ⟨db.heap, rest⟩).countObjects engine depth collectionName (filter.map DbObjectFilter.toValue) =
      .ok 0 := by
  have hget : (db.put collectionName ⟨db.heap, rest⟩).collections.get collectionName = some rest :=
    (Map.get_set _ _ _ _).trans (if_pos rfl)
  have hleft : ∀ key obj, (key, obj) ∈ rest.entries →
      (key, obj) ∈ objects.entries ∧ isSelected (matcherOf engine depth db.heap filter) obj = false := by
    intro key obj hmem
    rw [Map.mem_entries, hrest] at hmem
    split at hmem
    · cases hmem
    · rename_i hkey
      refine ⟨Map.mem_entries.mpr hmem, Bool.eq_false_iff.mpr fun hselected => hkey ?_⟩
      exact List.mem_map.mpr ⟨(key, obj), List.mem_filter.mpr ⟨Map.mem_entries.mpr hmem, hselected⟩, rfl⟩
  have hreturns : ∀ obj ∈ rest.values, Returns (isMatch (matcherOf engine depth db.heap filter) obj) := by
    intro obj hobj
    obtain ⟨⟨key, obj⟩, hmem, rfl⟩ := List.mem_map.mp hobj
    exact hevaluates.matching obj (List.mem_map_of_mem (hleft key obj hmem).1)
  have hnone : selectedEntries (matcherOf engine depth db.heap filter) rest = [] := by
    rw [selectedEntries, List.filter_eq_nil_iff]
    intro entry hmem
    rw [(hleft entry.1 entry.2 hmem).2]
    exact Bool.false_ne_true
  have hcount := @countObjects_eq engine depth (db.put collectionName ⟨db.heap, rest⟩) rest collectionName filter hget hreturns
  rw [hcount]
  show Except.ok (selectedEntries (matcherOf engine depth db.heap filter) rest).length = .ok 0
  rw [hnone]
  rfl

theorem agrees_of_copyable (hget : db.collections.get collectionName = some objects)
    (hevaluates : Evaluates engine depth db.heap objects filter) (hcopyable : Copyable engine depth db objects filter) :
    Agrees engine depth db collectionName objects filter := by
  obtain ⟨ordered, hperm, hstart⟩ := exists_permuted hevaluates
  obtain ⟨rest, hdelete, hrest⟩ := deleteObjects_eq hget hevaluates.matching
  refine ⟨selectedEntries (matcherOf engine depth db.heap filter) objects, List.filter_sublist, ?_, ?_, ?_, ?_, ?_, ?_, ?_⟩
  · exact countObjects_eq hget hevaluates.matching
  · intro E iterator hproceed
    have hcopies : ∀ obj ∈ ordered, copyOf depth db.heap obj = .ok (copied depth db.heap obj) := by
      intro obj hobj
      rw [hperm.mem_iff, map_selectedEntries, List.mem_filter] at hobj
      exact copyOf_of_returns (hcopyable obj hobj.1 hobj.2)
    have hresult : ∀ obj ∈ ordered, (resultOf engine depth db .none obj : Except (Failure E) Value) =
        .ok (copied depth db.heap obj) := by
      intro obj hobj
      rw [resultOf_none, hcopies obj hobj]
      rfl
    obtain ⟨calls, hcalls, hresults⟩ := QueryIterator.documented_of_proceed hproceed
      (ordered.map (copied depth db.heap))
    refine ⟨_, calls, findObjects_of_some hget, ?_, ?_⟩
    · rw [hstart, Rows.evaluate_of_ok hresult, QueryIterator.documentedUntil]
      simp only [hcalls, List.length_map, hperm.length_eq]
    · have hsame : (ordered.map (copied depth db.heap)).map Except.ok = ordered.map (copyOf depth db.heap) := by
        rw [List.map_map]
        exact List.map_congr_left fun obj hobj => (hcopies obj hobj).symm
      have hcontents := hperm.map (copyOf depth db.heap)
      rw [List.map_map] at hcontents
      rw [hresults, hsame]
      exact hcontents
  · intro hplain entry hentry hlossless
    obtain ⟨hmem, hselected⟩ := List.mem_filter.mp hentry
    obtain ⟨copy, hclone⟩ := hcopyable entry.2 (List.mem_map_of_mem hmem) hselected
    rw [copyOf_eq hplain hlossless, hclone]
    rfl
  · rw [hdelete]
  · rw [hdelete]
    exact countObjects_rest hevaluates hrest
  · intro name key
    rw [hdelete, Database.stored_put]
    by_cases hname : name = collectionName
    · subst hname
      rw [if_pos rfl, hrest, Database.stored_of_get hget]
      by_cases hkey : key ∈ (selectedEntries (matcherOf engine depth db.heap filter) objects).map Prod.fst
      · rw [if_pos hkey, if_pos ⟨rfl, hkey⟩]
      · rw [if_neg hkey, if_neg fun h => hkey h.2]
    · rw [if_neg hname, if_neg fun h => hname h.1]
  · rw [hdelete]
    rfl

/-- Counting, finding and deleting agree if and only if the objects that match can be copied. -/
theorem agrees_iff_copyable (hget : db.collections.get collectionName = some objects)
    (hevaluates : Evaluates engine depth db.heap objects filter) :
    Agrees engine depth db collectionName objects filter ↔ Copyable engine depth db objects filter :=
  ⟨copyable_of_agrees hget hevaluates, agrees_of_copyable hget hevaluates⟩

theorem evaluates_lamps : Evaluates bareEngine 8 lampStore.heap lamps (some firstLamp) := by
  constructor
  · intro obj _
    exact ⟨true, rfl⟩
  · intro a ha b hb
    have hlamps : lamps.values = [.address 0, .address 1] := rfl
    rw [hlamps, List.mem_pair] at ha hb
    obtain rfl | rfl := ha
    · obtain rfl | rfl := hb
      · exact ⟨.eq, rfl⟩
      · exact ⟨.gt, rfl⟩
    · obtain rfl | rfl := hb
      · exact ⟨.lt, rfl⟩
      · exact ⟨.eq, rfl⟩

theorem agrees_iff_copyable_lamps :
    Agrees bareEngine 8 lampStore (text "lamps") lamps (some firstLamp) ↔
      Copyable bareEngine 8 lampStore lamps (some firstLamp) :=
  agrees_iff_copyable rfl evaluates_lamps

/-- A lamp that refers to an object twice. -/
def twinStore : Database where
  heap := [.object [], plainCell "twin" [(text "on", .address 0), (text "off", .address 0)]]
  collections := Map.empty.set (text "lamps") (Map.empty.set (text "twin") (.address 1))

/-- Such a lamp is counted and can be deleted, but it is not found. -/
theorem not_agrees_of_shared :
    ¬ Agrees bareEngine 8 twinStore (text "lamps") (Map.empty.set (text "twin") (.address 1)) none := by
  intro hagrees
  have hevaluates : Evaluates bareEngine 8 twinStore.heap (Map.empty.set (text "twin") (.address 1)) none :=
    ⟨fun _ _ => ⟨true, rfl⟩, fun _ _ _ _ => ⟨.eq, rfl⟩⟩
  have hcopyable := copyable_of_agrees rfl hevaluates hagrees
  obtain ⟨copy, hclone⟩ := hcopyable (.address 1) (List.mem_singleton_self _) rfl
  have hfails : Deep.clone twinStore.heap 8 (.address 1) = .error .typeError := rfl
  rw [hfails] at hclone
  cases hclone

end InMemory

end Coaty
