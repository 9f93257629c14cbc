import Coaty.Js.Utf8
import Coaty.Mqtt.Matching

/-!
# Topic names and topic filters of MQTT 3.1.1

Both are non-empty strings without the null character that take no more than 65535 bytes in UTF-8. A topic name has no wildcards. In a topic filter a wildcard takes a whole level, and `#` only the last one.
-/

namespace Mqtt

open Js

structure IsTopicName (topic : Text) : Prop where
  nonempty : topic ≠ []
  no_null : 0 ∉ topic
  no_single : unit '+' ∉ topic
  no_multi : unit '#' ∉ topic
  fits : utf8Length topic ≤ 65535

structure WildcardsPlaced (filter : Text) : Prop where
  single : ∀ level ∈ filter.split separator, unit '+' ∈ level → level = singleWildcard
  multi : ∀ level ∈ filter.split separator, unit '#' ∈ level → level = multiWildcard
  last : multiWildcard ∉ (filter.split separator).dropLast

instance (filter : Text) : Decidable (WildcardsPlaced filter) :=
  decidable_of_iff ((∀ level ∈ filter.split separator, unit '+' ∈ level → level = singleWildcard) ∧
    (∀ level ∈ filter.split separator, unit '#' ∈ level → level = multiWildcard) ∧
    multiWildcard ∉ (filter.split separator).dropLast)
    ⟨fun h => ⟨h.1, h.2.1, h.2.2⟩, fun h => ⟨h.single, h.multi, h.last⟩⟩

structure IsTopicFilter (filter : Text) : Prop where
  nonempty : filter ≠ []
  no_null : 0 ∉ filter
  placed : WildcardsPlaced filter
  fits : utf8Length filter ≤ 65535

theorem mem_of_mem_split {s level : Text} {c : UInt16} (hlevel : level ∈ s.split separator) (hc : c ∈ level) : c ∈ s := by
  induction s generalizing level with
  | nil =>
    rw [Text.split, List.splitOn_nil, List.mem_singleton] at hlevel
    exact hlevel ▸ hc
  | cons d s ih =>
    rw [Text.split, List.splitOn_cons_eq_if_modifyHead] at hlevel
    split at hlevel
    · obtain rfl | hlevel := List.mem_cons.mp hlevel
      · cases hc
      · exact List.mem_cons_of_mem d (ih hlevel hc)
    · cases hsplit : s.splitOn separator with
      | nil => exact absurd hsplit (List.splitOn_ne_nil _ _)
      | cons first rest =>
        rw [Text.split, hsplit] at ih
        rw [hsplit, List.modifyHead_cons] at hlevel
        obtain rfl | hlevel := List.mem_cons.mp hlevel
        · obtain rfl | hc := List.mem_cons.mp hc
          · exact List.mem_cons_self
          · exact List.mem_cons_of_mem d (ih List.mem_cons_self hc)
        · exact List.mem_cons_of_mem d (ih (List.mem_cons_of_mem first hlevel) hc)

theorem wildcardsPlaced_of_not_mem {filter : Text} (hsingle : unit '+' ∉ filter) (hmulti : unit '#' ∉ filter) :
    WildcardsPlaced filter where
  single level hlevel hc := absurd (mem_of_mem_split hlevel hc) hsingle
  multi level hlevel hc := absurd (mem_of_mem_split hlevel hc) hmulti
  last hmem := absurd (mem_of_mem_split (List.mem_of_mem_dropLast hmem) (by decide)) hmulti

theorem WildcardsPlaced.levels {filter : Text} (h : WildcardsPlaced filter) :
    multiWildcard ∉ filter.split separator ∨
      ∃ front, filter.split separator = front ++ [multiWildcard] ∧ multiWildcard ∉ front := by
  by_cases hmem : multiWildcard ∈ filter.split separator
  · right
    have hne : filter.split separator ≠ [] := List.ne_nil_of_mem hmem
    have hsplit := List.dropLast_append_getLast hne
    rw [← hsplit, List.mem_append, List.mem_singleton, or_iff_right h.last] at hmem
    exact ⟨(filter.split separator).dropLast, by rw [hmem, hsplit], h.last⟩
  · exact Or.inl hmem

end Mqtt
