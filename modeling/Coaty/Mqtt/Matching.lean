import Coaty.Js.Text

/-!
# Topic filters of MQTT 3.1.1

A broker compares a topic filter with a topic name level by level. The level `+` stands for exactly one level, a final `#` for the parent level and any number of levels below it, every other level for itself. A filter that starts with a wildcard does not select the topics that start with `$`.
-/

namespace Mqtt

open Js

def separator : UInt16 := unit '/'

def singleWildcard : Text := text "+"

def multiWildcard : Text := text "#"

inductive LevelsMatch : List Text → List Text → Prop
  | done : LevelsMatch [] []
  | multi (topic : List Text) : LevelsMatch [multiWildcard] topic
  | single (level : Text) {filter topic : List Text} :
      LevelsMatch filter topic → LevelsMatch (singleWildcard :: filter) (level :: topic)
  | literal {level : Text} {filter topic : List Text} :
      LevelsMatch filter topic → LevelsMatch (level :: filter) (level :: topic)

def StartsWithWildcard (filter : Text) : Prop :=
  filter.head? = some (unit '+') ∨ filter.head? = some (unit '#')

structure Matches (topic filter : Text) : Prop where
  levels : LevelsMatch (filter.split separator) (topic.split separator)
  reserved : topic.head? = some (unit '$') → ¬ StartsWithWildcard filter

/-! ### Reading a match off the first level -/

theorem levelsMatch_cons {level level' : Text} {filter topic : List Text} (h : level ≠ multiWildcard) :
    LevelsMatch (level :: filter) (level' :: topic) ↔
      (level = singleWildcard ∨ level = level') ∧ LevelsMatch filter topic := by
  constructor
  · intro hm
    cases hm with
    | multi => exact absurd rfl h
    | single _ hm => exact ⟨Or.inl rfl, hm⟩
    | literal hm => exact ⟨Or.inr rfl, hm⟩
  · rintro ⟨rfl | rfl, hm⟩
    · exact .single _ hm
    · exact .literal hm

theorem not_levelsMatch_cons_nil {level : Text} {filter : List Text} (h : level ≠ multiWildcard) :
    ¬ LevelsMatch (level :: filter) [] := by
  intro hm
  cases hm
  exact h rfl

theorem not_levelsMatch_nil_cons {level : Text} {topic : List Text} : ¬ LevelsMatch [] (level :: topic) := by
  intro hm
  cases hm

/-! ### Deciding a match -/

instance decidableLevelsMatch : (filter topic : List Text) → Decidable (LevelsMatch filter topic)
  | [], [] => isTrue .done
  | [], _ :: _ => isFalse not_levelsMatch_nil_cons
  | level :: filter, [] =>
    decidable_of_iff (level = multiWildcard ∧ filter = []) (by
      refine ⟨fun h => ?_, fun h => ?_⟩
      · rw [h.1, h.2]
        exact .multi []
      · cases h
        exact ⟨rfl, rfl⟩)
  | level :: filter, level' :: topic =>
    have := decidableLevelsMatch filter topic
    decidable_of_iff
      ((level = multiWildcard ∧ filter = []) ∨ ((level = singleWildcard ∨ level = level') ∧ LevelsMatch filter topic))
      (by
        refine ⟨fun h => ?_, fun h => ?_⟩
        · rcases h with ⟨rfl, rfl⟩ | ⟨rfl | rfl, h⟩
          · exact .multi _
          · exact .single _ h
          · exact .literal h
        · cases h with
          | multi => exact Or.inl ⟨rfl, rfl⟩
          | single _ h => exact Or.inr ⟨Or.inl rfl, h⟩
          | literal h => exact Or.inr ⟨Or.inr rfl, h⟩)

instance (topic filter : Text) : Decidable (Matches topic filter) :=
  have : Decidable (StartsWithWildcard filter) := inferInstanceAs (Decidable (_ ∨ _))
  decidable_of_iff (LevelsMatch (filter.split separator) (topic.split separator) ∧
    (topic.head? = some (unit '$') → ¬ StartsWithWildcard filter))
    ⟨fun h => ⟨h.1, h.2⟩, fun h => ⟨h.levels, h.reserved⟩⟩

end Mqtt
