import Coaty.Com.Mqtt.Topic
import Coaty.Mqtt.Validity

/-!
# The validity check on topics

The check counts four bytes for each code unit of a surrogate pair, so it takes a string for longer than it is by four bytes for each character beyond the basic multilingual plane. For subscriptions it does not look at where the wildcards are.
-/

namespace Coaty

open Js

namespace MqttTopic

/-! ### Counting bytes -/

/-- The bytes that are counted for a code unit. -/
def countedWidth (code : UInt16) : Nat :=
  if code.toNat ≤ 0x7f then 1
  else if code.toNat ≤ 0x7ff then 2
  else if 0xd800 ≤ code.toNat ∧ code.toNat ≤ 0xdfff then 4
  else 3

theorem getUtf8BytesCount_eq (str : Text) : getUtf8BytesCount str = (str.map countedWidth).sum := by
  have hfold : ∀ count, str.foldl (fun count code =>
      if code.toNat ≤ 0x7f then count + 1
      else if code.toNat ≤ 0x7ff then count + 2
      else if 0xd800 ≤ code.toNat ∧ code.toNat ≤ 0xdfff then count + 4
      else count + 3) count = count + (str.map countedWidth).sum := by
    induction str with
    | nil => exact fun count => rfl
    | cons code str ih =>
      intro count
      rw [List.foldl_cons, ih, List.map_cons, List.sum_cons, ← Nat.add_assoc, countedWidth]
      split_ifs <;> rfl
  rw [getUtf8BytesCount, hfold, Nat.zero_add]

theorem getUtf8BytesCount_le (str : Text) : getUtf8BytesCount str ≤ str.length * 4 := by
  rw [getUtf8BytesCount_eq]
  induction str with
  | nil => exact Nat.zero_le _
  | cons code str ih =>
    have hwidth : countedWidth code ≤ 4 := by
      unfold countedWidth
      split_ifs <;> omega
    rw [List.map_cons, List.sum_cons, List.length_cons]
    omega

theorem countedWidth_of_surrogate {code : UInt16} (h : isHighSurrogate code = true ∨ isLowSurrogate code = true) :
    countedWidth code = 4 := by
  simp only [isHighSurrogate, isLowSurrogate, Bool.and_eq_true, decide_eq_true_eq] at h
  unfold countedWidth
  split_ifs <;> omega

theorem countedWidth_of_not_surrogate {code : UInt16} (hhigh : isHighSurrogate code = false)
    (hlow : isLowSurrogate code = false) : countedWidth code = utf8Width code.toNat := by
  have hcode : code.toNat < 65536 := code.toNat_lt
  simp only [isHighSurrogate, isLowSurrogate, Bool.and_eq_false_iff, decide_eq_false_iff_not] at hhigh hlow
  unfold countedWidth utf8Width
  split_ifs <;> omega

/-- The count exceeds the length in UTF-8 by four bytes for each supplementary character. -/
theorem getUtf8BytesCount_of_isWellFormed {str : Text} (h : isWellFormed str = true) :
    getUtf8BytesCount str = utf8Length str + 4 * supplementaryCount str := by
  rw [getUtf8BytesCount_eq]
  refine induction_of_isWellFormed (P := fun str =>
    (str.map countedWidth).sum = utf8Length str + 4 * supplementaryCount str) rfl ?_ ?_ h
  · intro code str hhigh hlow _ ih
    rw [List.map_cons, List.sum_cons, ih, countedWidth_of_not_surrogate hhigh hlow, utf8Length_unit hhigh,
      supplementaryCount_unit hhigh, Nat.add_assoc]
  · intro high low str hhigh hlow _ ih
    rw [List.map_cons, List.map_cons, List.sum_cons, List.sum_cons, ih, countedWidth_of_surrogate (Or.inl hhigh),
      countedWidth_of_surrogate (Or.inr hlow), utf8Length_pair hhigh hlow, supplementaryCount_pair hhigh hlow]
    omega

/-! ### The check -/

/-- Skipping the count for short strings does not change the answer. -/
theorem exceeds_iff (topic : Text) :
    (topic.length * 4 > 65535 && getUtf8BytesCount topic > 65535) = true ↔ 65535 < getUtf8BytesCount topic := by
  have hle := getUtf8BytesCount_le topic
  rw [Bool.and_eq_true, decide_eq_true_eq, decide_eq_true_eq]
  omega

theorem any_illegal_iff (topic : Text) :
    topic.any illegalTopicChars.contains = true ↔ 0 ∈ topic ∨ unit '+' ∈ topic ∨ unit '#' ∈ topic := by
  simp only [List.any_eq_true, illegalTopicChars, List.contains_iff_mem, List.mem_cons, List.not_mem_nil, or_false]
  constructor
  · rintro ⟨c, hmem, rfl | rfl | rfl⟩
    · exact Or.inl hmem
    · exact Or.inr (Or.inl hmem)
    · exact Or.inr (Or.inr hmem)
  · rintro (hmem | hmem | hmem)
    · exact ⟨_, hmem, by simp⟩
    · exact ⟨_, hmem, by simp⟩
    · exact ⟨_, hmem, by simp⟩

theorem isValidTopic_name_iff (topic : Text) :
    isValidTopic (some topic) false = true ↔
      topic ≠ [] ∧ getUtf8BytesCount topic ≤ 65535 ∧ ¬ (0 ∈ topic ∨ unit '+' ∈ topic ∨ unit '#' ∈ topic) := by
  rw [← any_illegal_iff, ← not_lt, ← exceeds_iff, isValidTopic]
  by_cases hnil : topic = []
  · simp [hnil]
  · rw [if_neg hnil]
    split
    · rename_i hexceeds
      simp [hexceeds]
    · rename_i hfits
      rw [if_neg Bool.false_ne_true, Bool.not_eq_true', Bool.eq_false_iff]
      exact ⟨fun hnone => ⟨hnil, hfits, hnone⟩, fun h => h.2.2⟩

theorem isValidTopic_filter_iff (topic : Text) :
    isValidTopic (some topic) true = true ↔ topic ≠ [] ∧ getUtf8BytesCount topic ≤ 65535 ∧ 0 ∉ topic := by
  rw [← not_lt, ← exceeds_iff, isValidTopic]
  by_cases hnil : topic = []
  · simp [hnil]
  · rw [if_neg hnil]
    split
    · rename_i hexceeds
      simp [hexceeds]
    · rename_i hfits
      rw [if_pos rfl, Bool.not_eq_true', Bool.eq_false_iff, ne_eq, List.contains_iff_mem]
      exact ⟨fun hnull => ⟨hnil, hfits, hnull⟩, fun h => h.2.2⟩

def ChecksRules (s : Text) : Prop :=
  (isValidTopic (some s) false = true ↔ Mqtt.IsTopicName s) ∧ (isValidTopic (some s) true = true ↔ Mqtt.IsTopicFilter s)

/-- The string is short enough if four more bytes are counted for each supplementary character. -/
def FitsWithSurplus (s : Text) : Prop := utf8Length s + 4 * supplementaryCount s ≤ 65535

theorem isTopicName_iff (s : Text) :
    Mqtt.IsTopicName s ↔
      s ≠ [] ∧ utf8Length s ≤ 65535 ∧ ¬ (0 ∈ s ∨ unit '+' ∈ s ∨ unit '#' ∈ s) := by
  constructor
  · intro h
    refine ⟨h.nonempty, h.fits, ?_⟩
    rintro (hmem | hmem | hmem)
    · exact h.no_null hmem
    · exact h.no_single hmem
    · exact h.no_multi hmem
  · intro ⟨hnonempty, hfits, hnone⟩
    exact ⟨hnonempty, fun h => hnone (Or.inl h), fun h => hnone (Or.inr (Or.inl h)), fun h => hnone (Or.inr (Or.inr h)), hfits⟩

theorem isTopicFilter_iff (s : Text) :
    Mqtt.IsTopicFilter s ↔ s ≠ [] ∧ utf8Length s ≤ 65535 ∧ 0 ∉ s ∧ Mqtt.WildcardsPlaced s := by
  constructor
  · intro h
    exact ⟨h.nonempty, h.fits, h.no_null, h.placed⟩
  · intro ⟨hnonempty, hfits, hnull, hplaced⟩
    exact ⟨hnonempty, hnull, hplaced, hfits⟩

/-- The check agrees with the rules exactly for strings whose wildcards are placed well if they pass, and which are not taken for too long because of supplementary characters. -/
theorem checksRules_iff {s : Text} (hs : isWellFormed s = true) :
    ChecksRules s ↔ s = [] ∨ 0 ∈ s ∨
      (FitsWithSurplus s → Mqtt.WildcardsPlaced s) ∧
        (Mqtt.WildcardsPlaced s → utf8Length s ≤ 65535 → FitsWithSurplus s) := by
  have hcount : getUtf8BytesCount s ≤ 65535 ↔ FitsWithSurplus s := by
    rw [getUtf8BytesCount_of_isWellFormed hs, FitsWithSurplus]
  have hfits : FitsWithSurplus s → utf8Length s ≤ 65535 := fun h => (Nat.le_add_right _ _).trans h
  have hplaced : ¬ (0 ∈ s ∨ unit '+' ∈ s ∨ unit '#' ∈ s) → Mqtt.WildcardsPlaced s := by
    intro hnone
    exact Mqtt.wildcardsPlaced_of_not_mem (fun h => hnone (Or.inr (Or.inl h))) fun h => hnone (Or.inr (Or.inr h))
  rw [ChecksRules, isValidTopic_name_iff, isValidTopic_filter_iff, isTopicName_iff, isTopicFilter_iff, hcount]
  by_cases hnil : s = []
  · simp [hnil]
  by_cases hnull : 0 ∈ s
  · simp [hnull]
  simp only [ne_eq, hnil, not_false_eq_true, true_and, and_true, hnull, false_or]
  constructor
  · intro ⟨_, hfilter⟩
    exact ⟨fun h => (hfilter.mp h).2, fun hw hlength => hfilter.mpr ⟨hlength, hw⟩⟩
  · intro ⟨hpasses, hshort⟩
    refine ⟨?_, fun h => ⟨hfits h, hpasses h⟩, fun h => hshort h.2 h.1⟩
    constructor
    · intro ⟨h, hnone⟩
      exact ⟨hfits h, hnone⟩
    · intro ⟨hlength, hnone⟩
      exact ⟨hshort (hplaced (by simpa [hnull] using hnone)) hlength, hnone⟩

theorem checksRules_iff_a :
    ChecksRules (text "+a") ↔ text "+a" = [] ∨ 0 ∈ text "+a" ∨
      (FitsWithSurplus (text "+a") → Mqtt.WildcardsPlaced (text "+a")) ∧
        (Mqtt.WildcardsPlaced (text "+a") → utf8Length (text "+a") ≤ 65535 → FitsWithSurplus (text "+a")) :=
  checksRules_iff (by decide)

/-- The filter `+a` passes the check, although `+` takes no whole level. -/
theorem not_checksRules_of_misplaced : ¬ ∀ s, isWellFormed s = true → ChecksRules s := by
  intro h
  have hfilter := (h (text "+a") (by decide)).2.mp (by decide)
  exact absurd hfilter.placed (by decide)

end MqttTopic

end Coaty
