import Coaty.Db.Postgres.SqlCondition

/-!
# Paths of own properties

The code, the database and jsonpath expressions read a path alike if it leads through own properties of objects, or ends where none of them finds anything: the code must come to no inherited member, and an array on the way must have nothing to offer.
-/

namespace Coaty

namespace Postgres

open Js Deep

/-- The own property at the end of a path through objects. -/
def ownAt : List Text → Value → Option Value
  | [], v => some v
  | key :: keys, v => (v.get key).bind (ownAt keys)

variable (engine : Engine) (database : Database)

/-- The code, the database and jsonpath expressions find the own property of an object or nothing. -/
def ReadsOwn (key : Text) : Value → Prop
  | .object properties => hasOwnProperty properties key = true ∨ engine.read (.value (.object properties)) key = none
  | .array items =>
    engine.read (.value (.array items)) key = none ∧ database.element items key = none ∧
      ∀ item ∈ items, item.get key = none
  | _ => True

def IsStraight : List Text → Value → Prop
  | [], _ => True
  | key :: keys, v => ReadsOwn engine database key v ∧ ∀ w, v.get key = some w → IsStraight keys w

/-- No string that is reached, and none in an array that is, is the key that is looked for in it. -/
def TakesNoName : List Text → Value → Prop
  | [], _ => True
  | key :: keys, v =>
    (match v with
      | .string s => s ≠ key
      | .array items => ∀ item ∈ items, strictEquals (.string key) item = false
      | _ => True) ∧
      ∀ w, v.get key = some w → TakesNoName keys w

variable {engine database} {key : Text} {keys : List Text} {v : Value}

/-! ### One key -/

theorem read_of_readsOwn (h : ReadsOwn engine database key v) : engine.read (.value v) key = (v.get key).map .value := by
  cases v with
  | object properties =>
    rw [Value.get]
    cases hlookup : properties.lookup key with
    | some w =>
      rw [Engine.read, hlookup]
      rfl
    | none =>
      obtain hown | hnone := h
      · rw [hasOwnProperty, hlookup] at hown
        cases hown
      · exact hnone
  | array items => exact h.1
  | _ => rfl

theorem get_of_readsOwn (h : ReadsOwn engine database key v) : database.get v key = v.get key := by
  cases v with
  | array items => exact h.2.1
  | _ => rfl

theorem member_of_readsOwn (h : ReadsOwn engine database key v) : Lax.member key v = (v.get key).toList := by
  cases v with
  | array items =>
    rw [Lax.member, Value.get, Option.toList_none, List.flatMap_eq_nil_iff]
    · intro item hmem
      rw [h.2.2 item hmem, Option.toList_none]
    · simp
  | _ => rfl

theorem hasKey_of_takesNoName (h : TakesNoName (key :: keys) v) : Jsonb.hasKey v key = (v.get key).isSome := by
  cases v with
  | object properties => rfl
  | array items =>
    rw [Jsonb.hasKey, Value.get, Option.isSome_none, List.any_eq_false]
    · intro item hmem
      rw [h.1 item hmem]
      exact Bool.false_ne_true
    · simp
  | string s => exact decide_eq_false h.1
  | _ => rfl

/-! ### Whole paths -/

theorem getFilterPropertyValue_of_isStraight {properties : ObjectFilterProperties}
    (h : IsStraight engine database (ObjectMatcher.getFilterProperties properties) v) :
    ObjectMatcher.getFilterPropertyValue engine properties v =
      (ownAt (ObjectMatcher.getFilterProperties properties) v).map .value := by
  rw [ObjectMatcher.getFilterPropertyValue]
  generalize ObjectMatcher.getFilterProperties properties = keys at h ⊢
  induction keys generalizing v with
  | nil => rfl
  | cons key keys ih =>
    rw [List.foldl_cons, Option.bind_some, read_of_readsOwn h.1, ownAt]
    cases hget : v.get key with
    | none => exact List.foldl_fixed' (fun key => rfl) keys
    | some w => exact ih (h.2 w hget)

theorem find_of_isStraight (h : IsStraight engine database keys v) : database.find v keys = ownAt keys v := by
  rw [Database.find]
  induction keys generalizing v with
  | nil => rfl
  | cons key keys ih =>
    rw [List.foldl_cons, Option.bind_some, get_of_readsOwn h.1, ownAt]
    cases hget : v.get key with
    | none => exact List.foldl_fixed' (fun key => rfl) keys
    | some w => exact ih (h.2 w hget)

theorem items_of_isStraight (h : IsStraight engine database keys v) : Lax.items keys v = (ownAt keys v).toList := by
  rw [Lax.items]
  induction keys generalizing v with
  | nil => rfl
  | cons key keys ih =>
    rw [List.foldl_cons, List.flatMap_singleton, member_of_readsOwn h.1, ownAt]
    cases hget : v.get key with
    | none => exact List.foldl_fixed' (fun key => rfl) keys
    | some w => exact ih (h.2 w hget)

/-- The keys of a path exist exactly if there is a property at its end. -/
theorem hasKeys_of_isStraight (h : IsStraight engine database keys v) (hnames : TakesNoName keys v) :
    database.hasKeys (some v) keys = some (ownAt keys v).isSome := by
  induction keys generalizing v with
  | nil => rfl
  | cons key keys ih =>
    rw [Database.hasKeys, Option.map_some, Option.bind_some, hasKey_of_takesNoName hnames, get_of_readsOwn h.1, ownAt]
    cases hget : v.get key with
    | none => rfl
    | some w => exact ih (h.2 w hget) (hnames.2 w hget)

theorem contained_property {operand : Value} :
    Contained false v (.object [(key, operand)]) ↔ ∃ w, v.get key = some w ∧ Contained false w operand := by
  cases v with
  | object properties => rw [contained_object_object, List.forall_mem_singleton, Value.get]
  | _ =>
    refine iff_of_false ?_ (by simp [Value.get])
    intro h
    obtain ⟨xs, hxs, _⟩ := exists_object_of_contained h
    cases hxs

theorem contained_nested {operand : Value} :
    Contained false v (nested (some operand) (key :: keys)) ↔
      ∃ w, ownAt (key :: keys) v = some w ∧ Contained false w operand := by
  induction keys generalizing key v with
  | nil =>
    rw [nested, Option.toList_some, List.map_singleton, contained_property]
    simp only [ownAt, Option.bind_fun_some]
  | cons next keys ih =>
    have hnested : nested (some operand) (key :: next :: keys) =
        .object [(key, nested (some operand) (next :: keys))] := by
      rw [nested]
      simp
    rw [hnested, contained_property, ownAt]
    simp only [ih, Option.bind_eq_some_iff]
    constructor
    · intro ⟨x, hx, w, hw, hcontained⟩
      exact ⟨w, ⟨x, hx, hw⟩, hcontained⟩
    · intro ⟨w, ⟨x, hx, hw⟩, hcontained⟩
      exact ⟨x, hx, w, hw, hcontained⟩

end Postgres

end Coaty
