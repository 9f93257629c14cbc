import Coaty.Com.Mqtt.TopicSelection
import Coaty.Mqtt.Validity

/-!
# Matching topics against arbitrary filters

The loop of the matcher goes over the levels of the filter and takes a level that the topic does not have for an empty one. So a filter with a final `#` also selects topics that lack some of the levels in front of it, provided that these are empty or `+`. And the loop does not look at the first character of the topic, so a filter that starts with a wildcard selects reserved topics, too.
-/

namespace Coaty

open Js

namespace MqttTopic

/-- The first levels of the filter match the topic, and what is left in front of a final `#` are empty levels or `+`. -/
def Overruns (filter topic : List Text) : Prop :=
  ∃ front extra, filter = front ++ (extra ++ [Mqtt.multiWildcard]) ∧ Mqtt.multiWildcard ∉ front ∧
    Mqtt.LevelsMatch front topic ∧ extra ≠ [] ∧ ∀ level ∈ extra, level = [] ∨ level = Mqtt.singleWildcard

/-- The filter starts with a wildcard and its levels match those of a topic that starts with `$`. -/
def SelectsReserved (topic filter : Text) : Prop :=
  topic.head? = some (unit '$') ∧ Mqtt.StartsWithWildcard filter ∧
    Mqtt.LevelsMatch (filter.split Mqtt.separator) (topic.split Mqtt.separator)

/-! ### The loop behind the end of the topic -/

theorem matchLevels_multi (patternLength topicLength : Nat) (levels : List Text) :
    matchLevels patternLength topicLength [Mqtt.multiWildcard] levels = true := by
  have hne : text "#" ≠ [] := by decide
  have hplus : text "#" ≠ text "+" := by decide
  simp [matchLevels, Mqtt.multiWildcard, hne, hplus]

theorem matchLevels_behind {patternLength topicLength : Nat} {front : List Text} (hfront : Mqtt.multiWildcard ∉ front) :
    matchLevels patternLength topicLength (front ++ [Mqtt.multiWildcard]) [] = true ↔
      ∀ level ∈ front, level = [] ∨ level = Mqtt.singleWildcard := by
  induction front with
  | nil => simp [matchLevels_multi]
  | cons pattern front ih =>
    rw [List.mem_cons, not_or] at hfront
    have hne : pattern ≠ text "#" := fun heq => hfront.1 heq.symm
    rw [List.forall_mem_cons, ← ih hfront.2, List.cons_append, matchLevels]
    by_cases hempty : pattern = []
    · simp [hempty]
    · by_cases hplus : pattern = text "+"
      · simp [hplus, Mqtt.singleWildcard]
      · simp [hempty, hplus, hne, Mqtt.singleWildcard]

/-! ### Filters with a final `#` -/

theorem overruns_cons {pattern level : Text} {patterns levels : List Text} (hne : pattern ≠ Mqtt.multiWildcard) :
    Overruns (pattern :: patterns) (level :: levels) ↔
      (pattern = Mqtt.singleWildcard ∨ pattern = level) ∧ Overruns patterns levels := by
  constructor
  · intro ⟨front, extra, hfilter, hfront, hmatch, hextra⟩
    cases front with
    | nil => exact absurd hmatch Mqtt.not_levelsMatch_nil_cons
    | cons first front =>
      rw [List.cons_append, List.cons.injEq] at hfilter
      obtain ⟨rfl, hrest⟩ := hfilter
      obtain ⟨hlevel, hmatch⟩ := (Mqtt.levelsMatch_cons hne).mp hmatch
      exact ⟨hlevel, front, extra, hrest, fun h => hfront (List.mem_cons_of_mem _ h), hmatch, hextra⟩
  · intro ⟨hlevel, front, extra, hrest, hfront, hmatch, hextra⟩
    refine ⟨pattern :: front, extra, by rw [hrest, List.cons_append], ?_, (Mqtt.levelsMatch_cons hne).mpr ⟨hlevel, hmatch⟩, hextra⟩
    intro hmem
    obtain heq | hmem := List.mem_cons.mp hmem
    · exact hne heq.symm
    · exact hfront hmem

theorem overruns_nil {front : List Text} (hne : front ≠ []) :
    Overruns (front ++ [Mqtt.multiWildcard]) [] ↔ ∀ level ∈ front, level = [] ∨ level = Mqtt.singleWildcard := by
  constructor
  · intro ⟨front', extra, hfilter, hfront', hmatch, hextra, hall⟩
    have hnil : front' = [] := by
      cases hmatch with
      | done => rfl
      | multi => exact absurd (List.mem_singleton_self _) hfront'
    rw [hnil, List.nil_append] at hfilter
    rw [List.append_cancel_right hfilter]
    exact hall
  · intro hall
    exact ⟨[], front, rfl, List.not_mem_nil, .done, hne, hall⟩

theorem not_overruns_of_not_mem {patterns : List Text} (hmulti : Mqtt.multiWildcard ∉ patterns) (levels : List Text) :
    ¬ Overruns patterns levels := by
  intro ⟨front, extra, hfilter, _⟩
  apply hmulti
  rw [hfilter]
  simp

theorem matchLevels_final {patternLength topicLength : Nat} {front : List Text} (levels : List Text)
    (hfront : Mqtt.multiWildcard ∉ front) :
    matchLevels patternLength topicLength (front ++ [Mqtt.multiWildcard]) levels = true ↔
      Mqtt.LevelsMatch (front ++ [Mqtt.multiWildcard]) levels ∨ Overruns (front ++ [Mqtt.multiWildcard]) levels := by
  induction front generalizing levels with
  | nil =>
    rw [List.nil_append, matchLevels_multi]
    exact iff_of_true rfl (Or.inl (.multi levels))
  | cons pattern front ih =>
    have hne : pattern ≠ Mqtt.multiWildcard := fun heq => hfront (by simp [heq])
    cases levels with
    | nil =>
      rw [matchLevels_behind hfront, overruns_nil (List.cons_ne_nil pattern front), List.cons_append,
        or_iff_right (Mqtt.not_levelsMatch_cons_nil hne)]
    | cons level levels =>
      have htail : Mqtt.multiWildcard ∉ front := fun h => hfront (List.mem_cons_of_mem _ h)
      rw [List.cons_append, matchLevels_cons hne, Mqtt.levelsMatch_cons hne, overruns_cons hne, ih levels htail]
      exact and_or_left

/-! ### The matcher -/

/-- The matcher selects what the levels of the filter match, and what it overruns. -/
theorem matchesFilter_iff_overruns {topic filter : Text} (htopic : topic ≠ []) (hfilter : filter ≠ [])
    (hplaced : Mqtt.WildcardsPlaced filter) :
    matchesFilter topic filter = true ↔
      Mqtt.LevelsMatch (filter.split Mqtt.separator) (topic.split Mqtt.separator) ∨
        Overruns (filter.split Mqtt.separator) (topic.split Mqtt.separator) := by
  obtain hmulti | ⟨front, hsplit, hfront⟩ := hplaced.levels
  · rw [or_iff_left (not_overruns_of_not_mem hmulti _)]
    exact matchesFilter_iff htopic hfilter hmulti
  · have hsplit' : filter.split levelSeparator = front ++ [Mqtt.multiWildcard] := hsplit
    rw [matchesFilter, if_neg (by simp [htopic, hfilter])]
    simp only [hsplit', hsplit]
    exact matchLevels_final _ hfront

theorem not_levelsMatch_of_overruns {filter topic : List Text} (h : Overruns filter topic) :
    ¬ Mqtt.LevelsMatch filter topic := by
  induction topic generalizing filter with
  | nil =>
    obtain ⟨front, extra, rfl, hfront, hmatch, hextra, -⟩ := h
    cases hmatch with
    | multi => exact absurd (List.mem_singleton_self _) hfront
    | done =>
      intro hmatch
      rw [List.nil_append] at hmatch
      cases extra with
      | nil => exact hextra rfl
      | cons level extra =>
        rw [List.cons_append] at hmatch
        cases hrest : extra ++ [Mqtt.multiWildcard] with
        | nil => simp at hrest
        | cons first rest =>
          rw [hrest] at hmatch
          cases hmatch
  | cons level topic ih =>
    cases filter with
    | nil =>
      obtain ⟨front, extra, hfilter, -⟩ := h
      simp at hfilter
    | cons pattern patterns =>
      by_cases hne : pattern = Mqtt.multiWildcard
      · obtain ⟨front, extra, hfilter, hfront, hmatch, -⟩ := h
        cases front with
        | nil => exact absurd hmatch Mqtt.not_levelsMatch_nil_cons
        | cons first front =>
          rw [List.cons_append, List.cons.injEq] at hfilter
          rw [← hfilter.1, hne] at hfront
          exact absurd List.mem_cons_self hfront
      · intro hmatch
        exact ih ((overruns_cons hne).mp h).2 ((Mqtt.levelsMatch_cons hne).mp hmatch).2

theorem isTopicName_a : Mqtt.IsTopicName (text "a") where
  nonempty := by decide
  no_null := by decide
  no_single := by decide
  no_multi := by decide
  fits := by decide

theorem isTopicFilter_a : Mqtt.IsTopicFilter (text "a/+/#") where
  nonempty := by decide
  no_null := by decide
  placed := by decide
  fits := by decide

/-- The matcher decides the relation of MQTT exactly where the filter does not overrun the topic and selects no reserved one. -/
theorem matchesFilter_iff_matches_iff {topic filter : Text} (htopic : Mqtt.IsTopicName topic)
    (hfilter : Mqtt.IsTopicFilter filter) :
    (matchesFilter topic filter = true ↔ Mqtt.Matches topic filter) ↔
      ¬ Overruns (filter.split Mqtt.separator) (topic.split Mqtt.separator) ∧ ¬ SelectsReserved topic filter := by
  have hmatches : Mqtt.Matches topic filter ↔
      Mqtt.LevelsMatch (filter.split Mqtt.separator) (topic.split Mqtt.separator) ∧
        (topic.head? = some (unit '$') → ¬ Mqtt.StartsWithWildcard filter) := by
    constructor
    · intro h
      exact ⟨h.levels, h.reserved⟩
    · intro ⟨hlevels, hreserved⟩
      exact ⟨hlevels, hreserved⟩
  have hexcl := fun h : Overruns (filter.split Mqtt.separator) (topic.split Mqtt.separator) => not_levelsMatch_of_overruns h
  rw [matchesFilter_iff_overruns htopic.nonempty hfilter.nonempty hfilter.placed, hmatches, SelectsReserved]
  tauto

theorem matchesFilter_iff_matches_iff_a :
    (matchesFilter (text "a") (text "a/+/#") = true ↔ Mqtt.Matches (text "a") (text "a/+/#")) ↔
      ¬ Overruns ((text "a/+/#").split Mqtt.separator) ((text "a").split Mqtt.separator) ∧
        ¬ SelectsReserved (text "a") (text "a/+/#") :=
  matchesFilter_iff_matches_iff isTopicName_a isTopicFilter_a

/-- The levels of the filter `a/+/#` do not match the topic `a`. -/
theorem not_matches_of_overruns :
    ¬ ∀ topic filter, Mqtt.IsTopicName topic → Mqtt.IsTopicFilter filter →
      (matchesFilter topic filter = true ↔ Mqtt.Matches topic filter) := by
  intro h
  have hiff := h (text "a") (text "a/+/#") isTopicName_a isTopicFilter_a
  revert hiff
  decide

end MqttTopic

end Coaty
