import Coaty.Com.Mqtt.Topic
import Coaty.Mqtt.Matching

/-!
# Which topic filters select which topic names

On a filter without `#` the matcher of the binding decides the matching relation of MQTT. The filters of Coaty events are of this kind, and the relation can be read off their levels one by one, so a filter selects a name exactly when all levels that it fixes agree.
-/

namespace Coaty

open Js CommunicationEvent

namespace MqttTopic

/-! ### The matcher and the matching relation -/

theorem matchLevels_nil {patternLength topicLength : Nat} {patterns : List Text}
    (hmulti : Mqtt.multiWildcard ∉ patterns)
    (h : matchLevels patternLength topicLength patterns [] = true) : patternLength = topicLength := by
  induction patterns with
  | nil => simpa [matchLevels] using h
  | cons pattern patterns ih =>
    rw [List.mem_cons, not_or] at hmulti
    have hne : pattern ≠ text "#" := fun heq => hmulti.1 heq.symm
    by_cases hempty : pattern = []
    · exact ih hmulti.2 (by simpa [matchLevels, hempty] using h)
    · by_cases hplus : pattern = text "+"
      · exact ih hmulti.2 (by simpa [matchLevels, hempty, hplus] using h)
      · simp [matchLevels, hempty, hplus, hne] at h

theorem matchLevels_cons {patternLength topicLength : Nat} {pattern level : Text}
    {patterns levels : List Text} (hne : pattern ≠ Mqtt.multiWildcard) :
    matchLevels patternLength topicLength (pattern :: patterns) (level :: levels) = true ↔
      (pattern = Mqtt.singleWildcard ∨ pattern = level) ∧
        matchLevels patternLength topicLength patterns levels = true := by
  have hmulti : pattern ≠ text "#" := hne
  rw [matchLevels]
  simp only [List.head?_cons, Option.getD_some, List.tail_cons, Mqtt.singleWildcard]
  by_cases hplus : pattern = text "+"
  · have hfilled : pattern ≠ [] := by
      rw [hplus]
      decide
    by_cases hempty : level = []
    · simp [hempty, hplus]
    · rw [hplus] at hmulti
      simp [hempty, hplus, hmulti]
  · by_cases heq : pattern = level
    · subst heq
      by_cases hempty : pattern = []
      · simp [hempty]
      · simp [hempty, hmulti]
    · by_cases hempty : level = []
      · subst hempty
        simp [heq, hplus, hmulti]
      · simp [hempty, hplus, hmulti, heq]

theorem matchLevels_iff {patterns : List Text} (levels : List Text) (offset : Nat)
    (hmulti : Mqtt.multiWildcard ∉ patterns) :
    matchLevels (offset + patterns.length) (offset + levels.length) patterns levels = true ↔
      Mqtt.LevelsMatch patterns levels := by
  induction patterns generalizing levels offset with
  | nil =>
    cases levels with
    | nil =>
      simp only [matchLevels, List.length_nil, beq_self_eq_true, true_iff]
      exact .done
    | cons level levels =>
      simp only [matchLevels, List.length_nil, List.length_cons, beq_iff_eq, Mqtt.not_levelsMatch_nil_cons,
        iff_false]
      omega
  | cons pattern patterns ih =>
    have hne : pattern ≠ Mqtt.multiWildcard := fun heq => hmulti (by simp [heq])
    have htail : Mqtt.multiWildcard ∉ patterns := fun h => hmulti (List.mem_cons_of_mem _ h)
    cases levels with
    | nil =>
      simp only [Mqtt.not_levelsMatch_cons_nil hne, iff_false]
      intro h
      have hlen := matchLevels_nil hmulti h
      simp at hlen
    | cons level levels =>
      have hlength : ∀ rest : List Text, offset + (rest.length + 1) = offset + 1 + rest.length :=
        fun rest => by omega
      rw [matchLevels_cons hne, Mqtt.levelsMatch_cons hne, List.length_cons, List.length_cons, hlength,
        hlength, ih _ (offset + 1) htail]

theorem matchesFilter_iff {topic filter : Text} (htopic : topic ≠ []) (hfilter : filter ≠ [])
    (hmulti : Mqtt.multiWildcard ∉ filter.split levelSeparator) :
    matchesFilter topic filter = true ↔
      Mqtt.LevelsMatch (filter.split levelSeparator) (topic.split levelSeparator) := by
  have h := matchLevels_iff (topic.split levelSeparator) 0 hmulti
  rw [Nat.zero_add, Nat.zero_add] at h
  rw [matchesFilter, if_neg (by simp [htopic, hfilter]), h]

/-! ### The levels of names and filters -/

theorem version_no_separator (version : Nat) : levelSeparator ∉ numberToString version :=
  not_mem_numberToString (by decide) (by decide) version

theorem level_no_separator {level : Text} (h : IsLevel level) : levelSeparator ∉ level :=
  h.not_mem (by decide)

theorem interpolate_isLevel {s : Option Text} (h : ∀ level ∈ s, IsLevel level) : IsLevel (interpolate s) := by
  cases s with
  | none => decide
  | some level => exact h level rfl

theorem split_getTopicName (version : Nat) (eventType : CommunicationEventType) {messagingNamespace : Text}
    {eventTypeFilter sourceId correlationId : Option Text} (hnamespace : IsLevel messagingNamespace)
    (hfilter : ∀ filter ∈ eventTypeFilter, IsLevel filter) (hsource : ∀ id ∈ sourceId, IsLevel id)
    (hcorrelation : ∀ id ∈ correlationId, IsLevel id) :
    (getTopicName version messagingNamespace eventType eventTypeFilter sourceId correlationId).split
        levelSeparator
      = [protocolName, numberToString version, messagingNamespace, eventLevel eventType eventTypeFilter,
          interpolate sourceId] ++ if isOneWayEvent eventType then [] else [interpolate correlationId] := by
  have hprotocol : levelSeparator ∉ protocolName := by decide
  have hsourceLevel := level_no_separator (interpolate_isLevel hsource)
  have hcorrelationLevel := level_no_separator (interpolate_isLevel hcorrelation)
  rw [getTopicName]
  split
  · rw [Text.split_append_cons _ hprotocol, Text.split_append_cons _ (version_no_separator version),
      Text.split_append_cons _ (level_no_separator hnamespace),
      Text.split_append_cons _ (level_no_separator (eventLevel_isLevel eventType hfilter)),
      Text.split_of_not_mem hsourceLevel]
    rfl
  · simp only [List.append_assoc, List.cons_append]
    rw [Text.split_append_cons _ hprotocol, Text.split_append_cons _ (version_no_separator version),
      Text.split_append_cons _ (level_no_separator hnamespace),
      Text.split_append_cons _ (level_no_separator (eventLevel_isLevel eventType hfilter)),
      Text.split_append_cons _ hsourceLevel, Text.split_of_not_mem hcorrelationLevel]
    rfl

theorem orElse_plus_no_separator {s : Option Text} (h : ∀ level ∈ s, IsLevel level) :
    levelSeparator ∉ orElse s (text "+") := by
  match s with
  | none => decide
  | some [] => decide
  | some (c :: rest) => exact level_no_separator (h _ rfl)

theorem split_getTopicFilter (version : Nat) (eventType : CommunicationEventType)
    {messagingNamespace eventTypeFilter correlationId : Option Text}
    (hnamespace : ∀ name ∈ messagingNamespace, IsLevel name)
    (hfilter : ∀ filter ∈ eventTypeFilter, IsLevel filter) (hcorrelation : ∀ id ∈ correlationId, IsLevel id) :
    (getTopicFilter version messagingNamespace eventType eventTypeFilter correlationId).split levelSeparator
      = [protocolName, numberToString version, orElse messagingNamespace Mqtt.singleWildcard,
          eventLevel eventType eventTypeFilter, Mqtt.singleWildcard] ++
        if isOneWayEvent eventType then [] else [orElse correlationId Mqtt.singleWildcard] := by
  have hprotocol : levelSeparator ∉ protocolName := by decide
  have hplus : levelSeparator ∉ text "+" := by decide
  rw [getTopicFilter]
  split
  · rw [Text.split_append_cons _ hprotocol, Text.split_append_cons _ (version_no_separator version),
      Text.split_append_cons _ (orElse_plus_no_separator hnamespace),
      Text.split_append_cons _ (level_no_separator (eventLevel_isLevel eventType hfilter)),
      Text.split_of_not_mem hplus]
    rfl
  · simp only [List.append_assoc, List.cons_append]
    rw [Text.split_append_cons _ hprotocol, Text.split_append_cons _ (version_no_separator version),
      Text.split_append_cons _ (orElse_plus_no_separator hnamespace),
      Text.split_append_cons _ (level_no_separator (eventLevel_isLevel eventType hfilter)),
      Text.split_append_cons _ hplus, Text.split_of_not_mem (orElse_plus_no_separator hcorrelation)]
    rfl

/-! ### Levels that are no wildcards -/

theorem isLevel_ne_wildcard {level : Text} (h : IsLevel level) :
    level ≠ Mqtt.singleWildcard ∧ level ≠ Mqtt.multiWildcard := by
  refine ⟨?_, ?_⟩
  · rintro rfl
    revert h
    decide
  · rintro rfl
    revert h
    decide

theorem version_ne_wildcard (version : Nat) :
    numberToString version ≠ Mqtt.singleWildcard ∧ numberToString version ≠ Mqtt.multiWildcard :=
  ⟨numberToString_ne_singleton (by decide) version, numberToString_ne_singleton (by decide) version⟩

theorem orElse_selects {s : Option Text} (level : Text) (h : ∀ x ∈ s, isValidEventFilter x = true) :
    orElse s Mqtt.singleWildcard ≠ Mqtt.multiWildcard ∧
      ((orElse s Mqtt.singleWildcard = Mqtt.singleWildcard ∨ orElse s Mqtt.singleWildcard = level) ↔
        s = none ∨ s = some level) := by
  cases s with
  | none =>
    refine ⟨by decide, ?_⟩
    simp [orElse]
  | some x =>
    obtain ⟨hne, hlevel⟩ := isValidEventFilter_iff.mp (h x rfl)
    have hwild := isLevel_ne_wildcard hlevel
    rw [orElse_some hne]
    refine ⟨hwild.2, ?_⟩
    simp [hwild.1]

theorem ne_nil_of_valid {s : Option Text} (h : ∀ x ∈ s, isValidEventFilter x = true) : s ≠ some [] := by
  rintro rfl
  have := h [] rfl
  simp [isValidEventFilter] at this

theorem isLevel_of_valid {s : Option Text} (h : ∀ x ∈ s, isValidEventFilter x = true) :
    ∀ x ∈ s, IsLevel x :=
  fun x hx => (isValidEventFilter_iff.mp (h x hx)).2

theorem getTopicFilter_ne_nil (version : Nat) (messagingNamespace : Option Text)
    (eventType : CommunicationEventType) (eventTypeFilter correlationId : Option Text) :
    getTopicFilter version messagingNamespace eventType eventTypeFilter correlationId ≠ [] := by
  rw [getTopicFilter]
  split <;> simp

section

variable {version version' : Nat} {eventType eventType' : CommunicationEventType}
  {messagingNamespace : Text} {messagingNamespace' : Option Text}
  {eventTypeFilter eventTypeFilter' sourceId correlationId correlationId' : Option Text}

theorem multiWildcard_not_mem_split_getTopicFilter
    (hnamespace : ∀ name ∈ messagingNamespace', isValidEventFilter name = true)
    (hfilter : ∀ filter ∈ eventTypeFilter', isValidEventFilter filter = true)
    (hcorrelation : ∀ id ∈ correlationId', isValidEventFilter id = true) :
    Mqtt.multiWildcard ∉
      (getTopicFilter version' messagingNamespace' eventType' eventTypeFilter' correlationId').split
        levelSeparator := by
  rw [split_getTopicFilter version' eventType' (isLevel_of_valid hnamespace) (isLevel_of_valid hfilter)
    (isLevel_of_valid hcorrelation)]
  have hprotocol : Mqtt.multiWildcard ≠ protocolName := by decide
  have hplus : Mqtt.multiWildcard ≠ Mqtt.singleWildcard := by decide
  have hversion := (version_ne_wildcard version').2.symm
  have hname := (orElse_selects [] hnamespace).1.symm
  have hevent := (isLevel_ne_wildcard (eventLevel_isLevel eventType' (isLevel_of_valid hfilter))).2.symm
  have hid := (orElse_selects [] hcorrelation).1.symm
  split
  · simp [hprotocol, hversion, hname, hevent, hplus]
  · simp [hprotocol, hversion, hname, hevent, hplus, hid]

/-- The MQTT relation between the topic names and the topic filters of Coaty events, level by level. -/
theorem levelsMatch_getTopicFilter
    (hnamespace : IsLevel messagingNamespace)
    (hnamespace' : ∀ name ∈ messagingNamespace', isValidEventFilter name = true)
    (hfilter : ∀ filter ∈ eventTypeFilter, isValidEventFilter filter = true)
    (hfilter' : ∀ filter ∈ eventTypeFilter', isValidEventFilter filter = true)
    (hsource : ∀ id ∈ sourceId, IsLevel id) (hcorrelation : ∀ id ∈ correlationId, IsLevel id)
    (hcorrelation' : ∀ id ∈ correlationId', isValidEventFilter id = true) :
    Mqtt.LevelsMatch
        ((getTopicFilter version' messagingNamespace' eventType' eventTypeFilter' correlationId').split
          levelSeparator)
        ((getTopicName version messagingNamespace eventType eventTypeFilter sourceId correlationId).split
          levelSeparator) ↔
      numberToString version' = numberToString version ∧
        (messagingNamespace' = none ∨ messagingNamespace' = some messagingNamespace) ∧
        eventLevel eventType' eventTypeFilter' = eventLevel eventType eventTypeFilter ∧
        (isOneWayEvent eventType = false →
          correlationId' = none ∨ correlationId' = some (interpolate correlationId)) := by
  have hversion := version_ne_wildcard version'
  have hname := orElse_selects messagingNamespace hnamespace'
  have hevent := isLevel_ne_wildcard (eventLevel_isLevel eventType' (isLevel_of_valid hfilter'))
  have hid := orElse_selects (interpolate correlationId) hcorrelation'
  have hprotocol : protocolName ≠ Mqtt.multiWildcard := by decide
  have hplus : Mqtt.singleWildcard ≠ Mqtt.multiWildcard := by decide
  rw [split_getTopicFilter version' eventType' (isLevel_of_valid hnamespace') (isLevel_of_valid hfilter')
      (isLevel_of_valid hcorrelation'),
    split_getTopicName version eventType hnamespace (isLevel_of_valid hfilter) hsource hcorrelation]
  simp only [List.cons_append, List.nil_append]
  rw [Mqtt.levelsMatch_cons hprotocol, Mqtt.levelsMatch_cons hversion.2, Mqtt.levelsMatch_cons hname.1,
    Mqtt.levelsMatch_cons hevent.2, Mqtt.levelsMatch_cons hplus, hname.2]
  simp only [hversion.1, hevent.1, false_or, or_true, true_or, true_and]
  refine and_congr_right fun _ => and_congr_right fun _ => and_congr_right fun hlevel => ?_
  -- Equal event levels fix the number of levels, so only the correlation ids remain.
  have hway := isOneWayEvent_of_prefix_eq
    ((eventLevel_eq_iff (ne_nil_of_valid hfilter') (ne_nil_of_valid hfilter)).mp hlevel).1
  rw [hway]
  cases isOneWayEvent eventType with
  | true =>
    simp only [if_true, Bool.true_eq_false, false_implies, iff_true]
    exact .done
  | false =>
    simp only [Bool.false_eq_true, if_false, forall_const]
    rw [Mqtt.levelsMatch_cons hid.1, hid.2]
    exact and_iff_left .done

end

/-- A topic filter selects a topic name exactly when version, event type and event filter are equal and the namespace and the correlation id are equal as far as the filter fixes them. The event types without a topic level share one text and cannot be told apart. -/
theorem matchesFilter_getTopicName_getTopicFilter (version version' : Integer)
    (eventType eventType' : CommunicationEventType) (messagingNamespace : Text)
    (messagingNamespace' eventTypeFilter eventTypeFilter' : Option Text) (sourceId : Text)
    (correlationId correlationId' : Option Text)
    (hnamespace : isValidEventFilter messagingNamespace = true)
    (hnamespace' : ∀ name ∈ messagingNamespace', isValidEventFilter name = true)
    (hfilter : ∀ filter ∈ eventTypeFilter, isValidEventFilter filter = true)
    (hfilter' : ∀ filter ∈ eventTypeFilter', isValidEventFilter filter = true)
    (hsource : IsLevel sourceId) (hcorrelation : ∀ id ∈ correlationId, IsLevel id)
    (hpresent : isOneWayEvent eventType = false → correlationId.isSome = true)
    (hcorrelation' : ∀ id ∈ correlationId', isValidEventFilter id = true) :
    matchesFilter
        (getTopicName version.val messagingNamespace eventType eventTypeFilter (some sourceId) correlationId)
        (getTopicFilter version'.val messagingNamespace' eventType' eventTypeFilter' correlationId') = true ↔
      version = version' ∧
        (eventType = eventType' ∨ (¬ HasTopicLevel eventType ∧ ¬ HasTopicLevel eventType')) ∧
        eventTypeFilter = eventTypeFilter' ∧
        (messagingNamespace' = none ∨ messagingNamespace' = some messagingNamespace) ∧
        (isOneWayEvent eventType = false → correlationId' = none ∨ correlationId' = correlationId) := by
  have hversion : numberToString version'.val = numberToString version.val ↔ version = version' := by
    constructor
    · intro h
      exact Integer.ext (numberToString_injective version'.exact version.exact h).symm
    · rintro rfl
      rfl
  have hlevel : eventLevel eventType' eventTypeFilter' = eventLevel eventType eventTypeFilter ↔
      (eventType = eventType' ∨ (¬ HasTopicLevel eventType ∧ ¬ HasTopicLevel eventType')) ∧
        eventTypeFilter = eventTypeFilter' := by
    rw [eq_comm, eventLevel_eq_iff (ne_nil_of_valid hfilter) (ne_nil_of_valid hfilter'), prefix_eq_iff]
  have hid : (isOneWayEvent eventType = false →
        correlationId' = none ∨ correlationId' = some (interpolate correlationId)) ↔
      (isOneWayEvent eventType = false → correlationId' = none ∨ correlationId' = correlationId) := by
    refine forall_congr' fun hway => ?_
    obtain ⟨id, rfl⟩ := Option.isSome_iff_exists.mp (hpresent hway)
    rfl
  have hsourceId : ∀ id ∈ some sourceId, IsLevel id := by
    rintro id ⟨⟩
    exact hsource
  rw [matchesFilter_iff (getTopicName_ne_nil _ _ _ _ _ _) (getTopicFilter_ne_nil _ _ _ _ _)
      (multiWildcard_not_mem_split_getTopicFilter hnamespace' hfilter' hcorrelation'),
    levelsMatch_getTopicFilter (isValidEventFilter_iff.mp hnamespace).2 hnamespace' hfilter hfilter' hsourceId
      hcorrelation hcorrelation', hversion, hlevel, hid]
  constructor
  · intro ⟨hver, hname, ⟨htype, hfil⟩, hcorr⟩
    exact ⟨hver, htype, hfil, hname, hcorr⟩
  · intro ⟨hver, htype, hfil, hname, hcorr⟩
    exact ⟨hver, hname, ⟨htype, hfil⟩, hcorr⟩

/-- A call of the operation `:dim`, with a filter on its own correlation id. -/
theorem matchesFilter_call :
    matchesFilter
        (getTopicName 3 (text "-") .call (some (text ":dim")) (some (text "agent")) (some (text "7")))
        (getTopicFilter 3 none .call (some (text ":dim")) (some (text "7"))) = true ↔
      (⟨3, by decide⟩ : Integer) = ⟨3, by decide⟩ ∧
        (CommunicationEventType.call = .call ∨
          (¬ HasTopicLevel .call ∧ ¬ HasTopicLevel .call)) ∧
        some (text ":dim") = some (text ":dim") ∧ ((none : Option Text) = none ∨ none = some (text "-")) ∧
        (isOneWayEvent .call = false → some (text "7") = none ∨ some (text "7") = some (text "7")) :=
  matchesFilter_getTopicName_getTopicFilter ⟨3, by decide⟩ ⟨3, by decide⟩ .call .call
    (text "-") none (some (text ":dim")) (some (text ":dim")) (text "agent") (some (text "7")) (some (text "7")) (by decide)
    (by decide) (by decide) (by decide) (by decide) (by decide) (by decide) (by decide)

/-- Neither a Raw event nor an external one has a topic level, so their names and filters coincide. -/
theorem matchesFilter_raw_external :
    ¬ (matchesFilter
          (getTopicName 3 (text "-") .raw none (some (text "agent")) (some (text "7")))
          (getTopicFilter 3 (some (text "-")) .external none none) = true ↔
        (3 : Nat) = 3 ∧ CommunicationEventType.raw = .external ∧ (none : Option Text) = none ∧
          (some (text "-") = none ∨ some (text "-") = some (text "-")) ∧
          (isOneWayEvent .raw = false → (none : Option Text) = none ∨ none = some (text "7"))) := by
  decide

end MqttTopic

end Coaty
