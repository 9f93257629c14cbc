import Coaty.Com.Mqtt.IssuedKeys

/-!
# Raw and IO value messages

An inbound Raw or IoValue message has a turn for each subscription that is issued when it arrives, and a listener may issue and remove subscriptions in its turn. What the subscriptions should get is said without positions: each subscription that is still issued at its turn gets an event if it selects the topic and the payload can be decoded as it demands. The loop of the binding counts positions in the array that the listener changes, and ends at the first payload that it cannot decode. The two are compared turn by turn.
-/

namespace Coaty

open Js

/-- What a listener may do to the subscriptions of the binding. -/
inductive SubscriptionChange (Data : Type) where
  | subscribe (eventLike : CommunicationEventLike Data)
  | unsubscribe (eventLike : CommunicationEventLike Data)
deriving DecidableEq

namespace MqttBinding

variable {Data : Type}

def applyChange (b : MqttBinding Data) : SubscriptionChange Data → MqttBinding Data
  | .subscribe eventLike => b.subscribe eventLike
  | .unsubscribe eventLike => b.unsubscribe eventLike

/-- What a listener does with an event. A listener with a state of its own is one of these, since the binding and the event are never both the same for two events of one message. -/
abbrev Handlers (Data : Type) := MqttBinding Data → InboundEvent Data → List (SubscriptionChange Data)

def react (handlers : Handlers Data) (b : MqttBinding Data) (event : InboundEvent Data) : MqttBinding Data :=
  (handlers b event).foldl applyChange b

/-- The subscriptions among `keys` that stay issued during all of the changes. -/
def keptDuring (keys : List SubscriptionKey) (b : MqttBinding Data) :
    List (SubscriptionChange Data) → List SubscriptionKey
  | [] => keys
  | change :: changes =>
    let b := b.applyChange change
    keptDuring (keys.filter (· ∈ b.issuedKeys)) b changes

/-! ### Positions of the subscriptions -/

theorem applyChange_spec {b : MqttBinding Data} (hnodup : b.issuedKeys.Nodup) (change : SubscriptionChange Data) :
    (b.applyChange change).issuedKeys.Nodup ∧ ∀ key ∈ b.issuedKeys, key ∈ (b.applyChange change).issuedKeys →
      (b.applyChange change).issuedKeys.idxOf key ≤ b.issuedKeys.idxOf key := by
  cases change with
  | subscribe eventLike =>
    rw [applyChange]
    rcases b.issuedKeys_subscribe eventLike with hsame | ⟨new, hnew, happend⟩
    · rw [hsame]
      exact ⟨hnodup, fun key _ _ => Nat.le_refl _⟩
    · rw [happend]
      refine ⟨List.nodup_append.mpr ⟨hnodup, List.nodup_singleton new, ?_⟩, fun key hkey _ => ?_⟩
      · intro key hkey other hother heq
        rw [List.mem_singleton] at hother
        exact hnew (hother ▸ heq ▸ hkey)
      · rw [List.idxOf_append_of_mem hkey]
  | unsubscribe eventLike =>
    have hsub := b.issuedKeys_unsubscribe eventLike
    exact ⟨hnodup.sublist hsub, fun key _ hkey => idxOf_le_of_sublist hsub hnodup hkey⟩

theorem keptDuring_spec (changes : List (SubscriptionChange Data)) {keys : List SubscriptionKey} {b : MqttBinding Data}
    (hnodup : b.issuedKeys.Nodup) (hkeys : ∀ key ∈ keys, key ∈ b.issuedKeys) :
    (changes.foldl applyChange b).issuedKeys.Nodup ∧ ∀ key ∈ keptDuring keys b changes,
      key ∈ keys ∧ key ∈ (changes.foldl applyChange b).issuedKeys ∧
        (changes.foldl applyChange b).issuedKeys.idxOf key ≤ b.issuedKeys.idxOf key := by
  induction changes generalizing keys b with
  | nil => exact ⟨hnodup, fun key hkey => ⟨hkey, hkeys key hkey, Nat.le_refl _⟩⟩
  | cons change changes ih =>
    obtain ⟨hnodup', hmoved⟩ := applyChange_spec hnodup change
    have hkept : ∀ key ∈ keys.filter (· ∈ (b.applyChange change).issuedKeys),
        key ∈ keys ∧ key ∈ (b.applyChange change).issuedKeys := by
      intro key hkey
      simpa using hkey
    obtain ⟨hfinal, hrest⟩ := ih hnodup' fun key hkey => (hkept key hkey).2
    refine ⟨hfinal, fun key hkey => ?_⟩
    obtain ⟨hfirst, hissued, hle⟩ := hrest key hkey
    obtain ⟨hmem, hmem'⟩ := hkept key hfirst
    exact ⟨hmem, hissued, hle.trans (hmoved key (hkeys key hmem) hmem')⟩

/-! ### What is delivered -/

variable [Json Data]

/-- The event that an item gets for a message: none if it does not select the topic or cannot be given the payload. -/
def eventFor (topicName : Text) (payload : Data) (sourceId : Option Text) (item : SubscriptionItem) :
    Option (InboundEvent Data) :=
  if selects item topicName then
    match if item.shouldDecodeData then Json.parse payload else .ok payload with
    | .error _ => none
    | .ok data => some {
        eventType := some item.eventType
        eventTypeFilter := some topicName
        sourceId
        correlationId := some item.topicFilter
        data }
  else none

variable (handlers : Handlers Data) (topicName : Text) (payload : Data) (sourceId : Option Text)

/-- The event that a subscription is due at its turn, if it has stayed issued since the message arrived. -/
def dueEvent (kept : List SubscriptionKey) (b : MqttBinding Data) (key : SubscriptionKey) :
    Option (InboundEvent Data) :=
  if key ∈ kept then
    (b.issuedSubscriptionItems.find? fun (item : SubscriptionItem) => item.key = key).bind (eventFor topicName payload sourceId)
  else none

/-- The events that the subscriptions `keys` get if each has its turn. -/
def deliveries : List SubscriptionKey → List SubscriptionKey → MqttBinding Data → List (InboundEvent Data)
  | [], _, _ => []
  | key :: keys, kept, b =>
    match dueEvent topicName payload sourceId kept b key with
    | none => deliveries keys kept b
    | some event => event :: deliveries keys (keptDuring kept b (handlers b event)) (react handlers b event)

/-- No item from position `start` up to `stop` selects the topic. -/
def NoneSelects (topicName : Text) (b : MqttBinding Data) (start stop : Nat) : Prop :=
  ∀ position item, start ≤ position → position < stop → b.issuedSubscriptionItems[position]? = some item →
    selects item topicName = false

/-- The condition under which no turn is lost. Each subscription that is due an event is at a position that the loop has not passed, `start` being the one behind the last event, and no item in between selects the topic. When all have had their turn, the first item that selects the topic among the positions left, if there is one, cannot be given the payload. -/
def NoTurnLost (positions : Nat) : List SubscriptionKey → List SubscriptionKey → MqttBinding Data → Nat → Prop
  | [], _, b, start => ∀ position item, start ≤ position → position < positions →
      b.issuedSubscriptionItems[position]? = some item → selects item topicName = true →
      NoneSelects topicName b start position → eventFor topicName payload sourceId item = none
  | key :: keys, kept, b, start =>
    match dueEvent topicName payload sourceId kept b key with
    | none => NoTurnLost positions keys kept b start
    | some event =>
      let position := b.issuedKeys.idxOf key
      start ≤ position ∧ NoneSelects topicName b start position ∧
        NoTurnLost positions keys (keptDuring kept b (handlers b event)) (react handlers b event) (position + 1)

/-! ### The turns of the loop -/

/-- The events of the loop from position `start` on. -/
def emitted (turns start : Nat) (b : MqttBinding Data) : List (InboundEvent Data) :=
  (dispatchItems (react handlers) topicName payload sourceId turns start b []).2

theorem dispatchItems_inbound (turns start : Nat) (b : MqttBinding Data) (inbound : List (InboundEvent Data)) :
    (dispatchItems (react handlers) topicName payload sourceId turns start b inbound).2
      = inbound ++ emitted handlers topicName payload sourceId turns start b := by
  induction turns generalizing start b inbound with
  | zero => simp [emitted, dispatchItems]
  | succ turns ih =>
    rw [emitted, dispatchItems, dispatchItems]
    split
    · rw [ih, ih _ _ [], List.nil_append]
    · split
      · split
        · rw [List.append_nil]
        · rw [ih, ih _ _ ([] ++ _), List.nil_append, List.append_assoc]
      · rw [ih, ih _ _ [], List.nil_append]

variable {handlers topicName payload sourceId}

theorem emitted_skip {turns start : Nat} {b : MqttBinding Data}
    (h : NoneSelects topicName b start (start + 1)) :
    emitted handlers topicName payload sourceId (turns + 1) start b
      = emitted handlers topicName payload sourceId turns (start + 1) b := by
  rw [emitted, dispatchItems]
  split
  · rfl
  · rename_i item hitem
    rw [if_neg (by simp [h start item (Nat.le_refl _) (Nat.lt_succ_self _) hitem])]
    rfl

theorem emitted_turn {turns start : Nat} {b : MqttBinding Data} {item : SubscriptionItem}
    (hitem : b.issuedSubscriptionItems[start]? = some item) (hselects : selects item topicName = true) :
    emitted handlers topicName payload sourceId (turns + 1) start b
      = match eventFor topicName payload sourceId item with
        | none => []
        | some event => event :: emitted handlers topicName payload sourceId turns (start + 1) (react handlers b event) := by
  rw [emitted, dispatchItems, hitem, eventFor, if_pos hselects]
  dsimp only
  rw [if_pos hselects]
  cases hdata : (if item.shouldDecodeData then Json.parse payload else Except.ok payload) with
  | error error => rfl
  | ok data =>
    dsimp only
    rw [dispatchItems_inbound]
    rfl

omit [Json Data] in
theorem NoneSelects.cons {b : MqttBinding Data} {start stop : Nat} (hfirst : NoneSelects topicName b start (start + 1))
    (hrest : NoneSelects topicName b (start + 1) stop) : NoneSelects topicName b start stop := by
  intro position item hstart hstop hitem
  by_cases heq : position = start
  · exact hfirst position item hstart (by omega) hitem
  · exact hrest position item (by omega) hstop hitem

theorem emitted_cases (handlers : Handlers Data) (topicName : Text) (payload : Data) (sourceId : Option Text)
    (turns start : Nat) (b : MqttBinding Data) :
    (emitted handlers topicName payload sourceId turns start b = [] ∧
      ∀ position item, start ≤ position → position < start + turns →
        b.issuedSubscriptionItems[position]? = some item → selects item topicName = true →
        NoneSelects topicName b start position → eventFor topicName payload sourceId item = none) ∨
    ∃ position item event, start ≤ position ∧ position < start + turns ∧
      b.issuedSubscriptionItems[position]? = some item ∧ NoneSelects topicName b start position ∧
      eventFor topicName payload sourceId item = some event ∧
      emitted handlers topicName payload sourceId turns start b
        = event :: emitted handlers topicName payload sourceId (start + turns - (position + 1)) (position + 1)
            (react handlers b event) := by
  induction turns generalizing start with
  | zero => exact Or.inl ⟨rfl, fun position item hstart hstop => by omega⟩
  | succ turns ih =>
    by_cases hskip : NoneSelects topicName b start (start + 1)
    · rw [emitted_skip hskip]
      rcases ih (start + 1) with ⟨hnil, hlast⟩ | ⟨position, item, event, hstart, hstop, hitem, hnone, hevent, hemitted⟩
      · refine Or.inl ⟨hnil, fun position item hstart hstop hitem hselects hnone => ?_⟩
        have hbehind : start ≠ position := by
          intro heq
          subst heq
          simp [hskip start item hstart (Nat.lt_succ_self _) hitem] at hselects
        exact hlast position item (by omega) (by omega) hitem hselects
          fun position' item' hstart' => hnone position' item' (by omega)
      · refine Or.inr ⟨position, item, event, by omega, by omega, hitem, hskip.cons hnone, hevent, ?_⟩
        rw [hemitted]
        congr 2
        omega
    · have hselecting : ∃ item, b.issuedSubscriptionItems[start]? = some item ∧ selects item topicName = true := by
        by_contra hnot
        apply hskip
        intro position item hstart hstop hitem
        have heq : position = start := by omega
        subst heq
        by_contra hselects
        exact hnot ⟨item, hitem, by simpa using hselects⟩
      obtain ⟨item, hitem, hselects⟩ := hselecting
      have hnone : NoneSelects topicName b start start := fun position _ hstart hstop => by omega
      rw [emitted_turn hitem hselects]
      cases hevent : eventFor topicName payload sourceId item with
      | none =>
        refine Or.inl ⟨rfl, fun position item' hstart _ hitem' hselects' hnone' => ?_⟩
        have heq : position = start := by
          by_contra hne
          simp [hnone' start item (Nat.le_refl _) (by omega) hitem] at hselects
        subst heq
        cases hitem.symm.trans hitem'
        exact hevent
      | some event =>
        refine Or.inr ⟨start, item, event, Nat.le_refl _, by omega, hitem, hnone, hevent, ?_⟩
        dsimp only
        congr 2
        omega

theorem eventFor_key {item : SubscriptionItem} {event : InboundEvent Data}
    (h : eventFor topicName payload sourceId item = some event) :
    selects item topicName = true ∧ (event.eventType, event.correlationId) = (some item.eventType, some item.topicFilter) := by
  rw [eventFor] at h
  split at h
  · rename_i hselects
    split at h
    · cases h
    · cases h
      exact ⟨hselects, rfl⟩
  · cases h

theorem dueEvent_some {kept : List SubscriptionKey} {b : MqttBinding Data} {key : SubscriptionKey}
    {event : InboundEvent Data} (h : dueEvent topicName payload sourceId kept b key = some event) :
    key ∈ kept ∧ ∃ item, b.issuedSubscriptionItems[b.issuedKeys.idxOf key]? = some item ∧ item.key = key ∧
      eventFor topicName payload sourceId item = some event := by
  rw [dueEvent] at h
  split at h
  · rename_i hkept
    obtain ⟨item, hfind, hevent⟩ := Option.bind_eq_some_iff.mp h
    refine ⟨hkept, item, ?_, by simpa using List.find?_some hfind, hevent⟩
    rw [List.find?_eq_some_iff_getElem] at hfind
    obtain ⟨hkey, index, hindex, hitem, hbefore⟩ := hfind
    have hposition : b.issuedKeys.idxOf key = index := by
      rw [issuedKeys, List.idxOf, List.findIdx_map, List.findIdx_eq hindex]
      refine ⟨by simpa [hitem] using hkey, fun j hj => ?_⟩
      simpa using hbefore j hj
    rw [hposition, ← hitem]
    exact List.getElem?_eq_getElem hindex
  · cases h

/-- The subscriptions have different keys, so an event tells which of them it is for. -/
theorem position_of_event {b : MqttBinding Data} (hnodup : b.issuedKeys.Nodup) {position position' : Nat}
    {item item' : SubscriptionItem} {event : InboundEvent Data}
    (hitem : b.issuedSubscriptionItems[position]? = some item)
    (hevent : eventFor topicName payload sourceId item = some event)
    (hitem' : b.issuedSubscriptionItems[position']? = some item')
    (hevent' : eventFor topicName payload sourceId item' = some event) : position = position' := by
  have hpair := (eventFor_key hevent).2.symm.trans (eventFor_key hevent').2
  rw [Prod.mk.injEq, Option.some.injEq, Option.some.injEq] at hpair
  have hkey : item.key = item'.key := Prod.ext hpair.1 hpair.2
  have hget : b.issuedKeys[position]? = some item.key := by
    rw [issuedKeys, List.getElem?_map, hitem]
    rfl
  have hget' : b.issuedKeys[position']? = some item.key := by
    rw [issuedKeys, List.getElem?_map, hitem', hkey]
    rfl
  obtain ⟨hlt, hkeyAt⟩ := List.getElem?_eq_some_iff.mp hget
  obtain ⟨hlt', hkeyAt'⟩ := List.getElem?_eq_some_iff.mp hget'
  exact (List.Nodup.getElem_inj_iff hnodup).mp (hkeyAt.trans hkeyAt'.symm)

/-- The loop emits what is to be delivered exactly if no turn is lost. -/
theorem emitted_eq_deliveries_iff {positions start : Nat} {keys kept : List SubscriptionKey} {b : MqttBinding Data}
    (hnodup : b.issuedKeys.Nodup) (hstart : start ≤ positions)
    (hkept : ∀ key ∈ kept, key ∈ b.issuedKeys ∧ b.issuedKeys.idxOf key < positions) :
    emitted handlers topicName payload sourceId (positions - start) start b
        = deliveries handlers topicName payload sourceId keys kept b ↔
      NoTurnLost handlers topicName payload sourceId positions keys kept b start := by
  induction keys generalizing kept b start with
  | nil =>
    rw [deliveries, NoTurnLost]
    have hend : start + (positions - start) = positions := by omega
    have hcases := emitted_cases handlers topicName payload sourceId (positions - start) start b
    rw [hend] at hcases
    refine ⟨fun hnil => ?_, fun hlast => ?_⟩
    · rcases hcases with ⟨_, hlast⟩ | ⟨_, _, _, _, _, _, _, _, hemitted⟩
      · exact hlast
      · rw [hemitted] at hnil
        cases hnil
    · rcases hcases with ⟨hnil, _⟩ | ⟨position, item, event, hfrom, hto, hitem, hnone, hevent, _⟩
      · exact hnil
      · have hundecodable := hlast position item hfrom hto hitem (eventFor_key hevent).1 hnone
        rw [hevent] at hundecodable
        cases hundecodable
  | cons key keys ih =>
    rw [deliveries, NoTurnLost]
    cases hdue : dueEvent topicName payload sourceId kept b key with
    | none => exact ih hnodup hstart hkept
    | some event =>
      obtain ⟨hkey, item, hitem, _, hevent⟩ := dueEvent_some hdue
      have hposition := (hkept key hkey).2
      obtain ⟨hnodup', hkept'⟩ : (react handlers b event).issuedKeys.Nodup ∧
          ∀ key ∈ keptDuring kept b (handlers b event), key ∈ kept ∧ key ∈ (react handlers b event).issuedKeys ∧
            (react handlers b event).issuedKeys.idxOf key ≤ b.issuedKeys.idxOf key :=
        keptDuring_spec (handlers b event) hnodup fun key hkey => (hkept key hkey).1
      have hinside : ∀ key ∈ keptDuring kept b (handlers b event),
          key ∈ (react handlers b event).issuedKeys ∧ (react handlers b event).issuedKeys.idxOf key < positions := by
        intro key hkey
        obtain ⟨hmem, hissued, hle⟩ := hkept' key hkey
        exact ⟨hissued, Nat.lt_of_le_of_lt hle (hkept key hmem).2⟩
      have hrest := ih hnodup' (show b.issuedKeys.idxOf key + 1 ≤ positions from hposition) hinside
      have hend : start + (positions - start) = positions := by omega
      have hcases := emitted_cases handlers topicName payload sourceId (positions - start) start b
      rw [hend] at hcases
      dsimp only
      rw [← hrest]
      refine ⟨fun heq => ?_, fun ⟨hfrom, hnone, htail⟩ => ?_⟩
      · rcases hcases with ⟨hnil, _⟩ | ⟨position, item', event', hfrom, hto, hitem', hnone, hevent', hemitted⟩
        · rw [hnil] at heq
          cases heq
        · rw [hemitted] at heq
          obtain ⟨hhead, htail⟩ := List.cons.inj heq
          subst hhead
          obtain rfl := position_of_event hnodup hitem' hevent' hitem hevent
          exact ⟨hfrom, hnone, htail⟩
      · have hselects := (eventFor_key hevent).1
        rcases hcases with ⟨_, hlast⟩ | ⟨position, item', event', hfrom', hto', hitem', hnone', hevent', hemitted⟩
        · have hundecodable := hlast _ item hfrom hposition hitem hselects hnone
          rw [hevent] at hundecodable
          cases hundecodable
        · -- Of two items that select the topic with none before them neither is before the other.
          have hsame : position = b.issuedKeys.idxOf key := by
            rcases Nat.lt_trichotomy position (b.issuedKeys.idxOf key) with hlt | heq | hgt
            · have := hnone position item' hfrom' hlt hitem'
              rw [(eventFor_key hevent').1] at this
              cases this
            · exact heq
            · have := hnone' _ item hfrom hgt hitem
              rw [hselects] at this
              cases this
          subst hsame
          cases hitem.symm.trans hitem'
          cases hevent.symm.trans hevent'
          rw [hemitted, htail]

/-- The events of a Raw or IoValue message are those that the subscriptions issued at its arrival are to get, exactly if no turn is lost. -/
theorem dispatchMessage_eq_deliveries_iff (handlers : Handlers Data) (topicName : Text) (payload : Data)
    {b : MqttBinding Data} (hnodup : b.issuedKeys.Nodup) {topic : Option MqttTopic}
    (htopic : MqttTopic.createByName topicName = .ok topic)
    (hraw : ∀ parsed, topic = some parsed → parsed.eventType = some .ioValue) :
    (dispatchMessage (react handlers) b topicName payload).2
        = deliveries handlers topicName payload (topic.bind MqttTopic.sourceId) b.issuedKeys b.issuedKeys b ↔
      NoTurnLost handlers topicName payload (topic.bind MqttTopic.sourceId) b.issuedSubscriptionItems.length
        b.issuedKeys b.issuedKeys b 0 := by
  have hloop : (dispatchMessage (react handlers) b topicName payload).2
      = emitted handlers topicName payload (topic.bind MqttTopic.sourceId) b.issuedSubscriptionItems.length 0 b := by
    rw [dispatchMessage, htopic]
    cases topic with
    | none => rfl
    | some parsed =>
      dsimp only
      rw [if_pos (hraw parsed rfl)]
      rfl
  rw [hloop]
  refine emitted_eq_deliveries_iff hnodup (Nat.zero_le _) fun key hkey => ⟨hkey, ?_⟩
  have hlt := List.idxOf_lt_length_of_mem hkey
  rwa [issuedKeys, List.length_map] at hlt

/-! ### Two subscriptions that come to nothing -/

/-- A payload that is a JSON number, or no JSON at all. -/
inductive Payload where
  | number (n : Nat)
  | binary
deriving DecidableEq

instance : Json Payload where
  stringify := .ok
  parse
    | .number n => .ok (.number n)
    | .binary => .error .syntaxError

/-- A subscription of Raw events, or of IO values in JSON on an external route. -/
def subscriptionOn (eventType : CommunicationEventType) (topicFilter : Text) : CommunicationEventLike Payload where
  eventType := eventType
  eventTypeFilter := some topicFilter
  sourceId := none
  correlationId := none
  data := none
  isDataRaw := eventType = .raw
  isExternalIoRoute := eventType = .ioValue
  retain := none

/-- A binding with the given subscriptions. -/
def subscribed (eventLikes : List (CommunicationEventLike Payload)) : MqttBinding Payload :=
  eventLikes.foldl subscribe (create ⟨none, none⟩)

/-- The observer of the topic `room` leaves after one event. -/
def takeOne : Handlers Payload := fun _ event =>
  if event.correlationId = some (text "room") then [.unsubscribe (subscriptionOn .raw (text "room"))] else []

theorem dispatchMessage_eq_deliveries_iff_room :
    (dispatchMessage (react takeOne) (subscribed [subscriptionOn .raw (text "+"), subscriptionOn .raw (text "room")])
        (text "room") (.number 21)).2
        = deliveries takeOne (text "room") (.number 21) none [(.raw, text "+"), (.raw, text "room")]
            [(.raw, text "+"), (.raw, text "room")]
            (subscribed [subscriptionOn .raw (text "+"), subscriptionOn .raw (text "room")]) ↔
      NoTurnLost takeOne (text "room") (.number 21) none 2 [(.raw, text "+"), (.raw, text "room")]
        [(.raw, text "+"), (.raw, text "room")]
        (subscribed [subscriptionOn .raw (text "+"), subscriptionOn .raw (text "room")]) 0 :=
  dispatchMessage_eq_deliveries_iff takeOne (text "room") (.number 21) (by decide) rfl nofun

/-- The second observer misses the event because the first one leaves, or because the first one cannot decode the payload. -/
theorem dispatchMessage_ne_deliveries :
    (let b := subscribed [subscriptionOn .raw (text "room"), subscriptionOn .raw (text "+")]
     (dispatchMessage (react takeOne) b (text "room") (.number 21)).2
        ≠ deliveries takeOne (text "room") (.number 21) none b.issuedKeys b.issuedKeys b) ∧
      let b := subscribed [subscriptionOn .ioValue (text "room"), subscriptionOn .raw (text "+")]
      (dispatchMessage (react fun _ _ => []) b (text "room") .binary).2
        ≠ deliveries (fun _ _ => []) (text "room") .binary none b.issuedKeys b.issuedKeys b := by
  decide

end MqttBinding

end Coaty
