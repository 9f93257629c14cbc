import Coaty.Com.Mqtt.Session
import Coaty.Com.Mqtt.Publications
import Coaty.Com.Mqtt.Subscriptions

/-!
# Join events in the publication queue

When a connection is established, the join events are put in front of the pending publications, last one first, each one unless a publication on its topic is pending. The topic stands for the event there, and join events can share a topic: all IO nodes of an agent are advertised on the same one. The queue starts with all join events only if those not pending any more have topics of their own and those still pending are the last ones and already in front.
-/

namespace Js

variable {α κ : Type} [DecidableEq κ]

/-- The items that stay when `items` are put in front of an array with keys `taken`, last one first, each unless its key is there. -/
def unshiftNew (key : α → κ) (taken : List κ) : List α → List α
  | [] => []
  | item :: items =>
    let added := unshiftNew key taken items
    if key item ∈ added.map key ++ taken then added else item :: added

variable (key : α → κ) (taken : List κ)

theorem unshiftNew_keys (items : List α) :
    ((unshiftNew key taken items).map key).Nodup ∧ ∀ item ∈ unshiftNew key taken items, key item ∉ taken := by
  induction items with
  | nil => exact ⟨List.nodup_nil, by simp [unshiftNew]⟩
  | cons item items ih =>
    rw [unshiftNew]
    split
    · exact ih
    · rename_i hnew
      rw [List.mem_append, not_or] at hnew
      refine ⟨List.nodup_cons.mpr ⟨hnew.1, ih.1⟩, ?_⟩
      intro other hother
      rcases List.mem_cons.mp hother with rfl | hother
      · exact hnew.2
      · exact ih.2 other hother

theorem length_unshiftNew_le (items : List α) : (unshiftNew key taken items).length ≤ items.length := by
  induction items with
  | nil => exact Nat.le_refl _
  | cons item items ih =>
    rw [unshiftNew]
    split
    · exact Nat.le_succ_of_le ih
    · exact Nat.succ_le_succ ih

variable {key taken}

theorem unshiftNew_append {front back : List α} (hback : ∀ item ∈ back, key item ∈ taken)
    (hnodup : (front.map key).Nodup) (hfront : ∀ item ∈ front, key item ∉ taken) :
    unshiftNew key taken (front ++ back) = front := by
  induction front with
  | nil =>
    induction back with
    | nil => rfl
    | cons item back ih =>
      have hrest := ih fun other hother => hback other (List.mem_cons_of_mem _ hother)
      rw [List.nil_append] at hrest ⊢
      rw [unshiftNew, hrest]
      exact if_pos (hback item List.mem_cons_self)
  | cons item front ih =>
    rw [List.map_cons, List.nodup_cons] at hnodup
    have hrest := ih hnodup.2 fun other hother => hfront other (List.mem_cons_of_mem _ hother)
    rw [List.cons_append, unshiftNew, hrest]
    refine if_neg ?_
    rw [List.mem_append, not_or]
    exact ⟨hnodup.1, hfront item List.mem_cons_self⟩

theorem mapM_cons_ok {β ε : Type} {f : α → Except ε β} {x : α} {xs : List α} {ys : List β}
    (h : (x :: xs).mapM f = .ok ys) : ∃ y ys', f x = .ok y ∧ xs.mapM f = .ok ys' ∧ ys = y :: ys' := by
  rw [List.mapM_cons] at h
  cases hx : f x with
  | error e =>
    rw [hx] at h
    cases h
  | ok y =>
    cases hxs : xs.mapM f with
    | error e =>
      rw [hx, hxs] at h
      cases h
    | ok ys' =>
      rw [hx, hxs] at h
      cases h
      exact ⟨y, ys', rfl, rfl, rfl⟩

end Js

namespace Coaty

open Js

variable {Data : Type}

/-! ### Join options -/

/-- What `_joinBinding` reads of the identity and of an IO node. -/
structure JoinObject (Data : Type) where
  coreType : Text
  objectId : Uuid
  /-- The data of an Advertise event with the object. -/
  advertised : Data

/-- The event like of an event with JSON data that is published by the agent `identity`. -/
def createEventLike (identity : Uuid) (eventType : CommunicationEventType)
    (eventTypeFilter correlationId : Option Text) (data : Data) : CommunicationEventLike Data where
  eventType
  eventTypeFilter
  sourceId := some identity.val
  correlationId
  data := some data
  isDataRaw := false
  isExternalIoRoute := false
  retain := none

/-- The join options built by `_joinBinding`. -/
def joinBinding (identity : JoinObject Data) (ioNodes : List (JoinObject Data))
    (deadvertised : List Uuid → Data) : CommunicationBindingJoinOptions Data :=
  let joinObjects := identity :: ioNodes
  { joinEvents := joinObjects.map fun object =>
      createEventLike identity.objectId .advertise (some object.coreType) none object.advertised
    unjoinEvent := createEventLike identity.objectId .deadvertise none none
      (deadvertised (joinObjects.map fun object => object.objectId)) }

/-! ### The queue after a connect event -/

def PublicationItem.content (item : PublicationItem Data) : Text × Option Data × Option Bool :=
  (item.topic, item.payload, item.retain)

namespace MqttBinding

variable [Json Data] (b : MqttBinding Data)

def eventContent (eventLike : CommunicationEventLike Data) : Except Error (Text × Option Data × Option Bool) :=
  (encodePayload eventLike).map fun payload => (b.getTopicFor eventLike, payload, eventLike.retain)

/-- The queue starts with the join events in their order, followed by the other items that were pending. -/
def JoinEventsFirst [DecidableEq Data] : Prop :=
  match b.joinEvents.mapM b.eventContent with
  | .error _ => False
  | .ok contents =>
    let queue := b.onConnectQueue.pendingPublicationItems
    (queue.take contents.length).map PublicationItem.content = contents ∧
      queue.drop contents.length = b.pendingPublicationItems.filter fun item => item.content ∉ contents

/-- The pending items start with the join events from some position on and contain none otherwise, and the topics of those before that position are distinct and not pending. -/
def JoinEventsFit : Prop :=
  match b.joinEvents.mapM b.eventContent with
  | .error _ => False
  | .ok contents => ∃ n rest,
      b.pendingPublicationItems.map PublicationItem.content = contents.drop n ++ rest ∧
        (∀ content ∈ rest, content ∉ contents) ∧ ((contents.take n).map Prod.fst).Nodup ∧
        ∀ content ∈ contents.take n, content.1 ∉ b.pendingPublicationItems.map fun item => item.topic

instance [DecidableEq Data] : Decidable b.JoinEventsFirst :=
  match h : b.joinEvents.mapM b.eventContent with
  | .error _ => isFalse (by rw [JoinEventsFirst, h]; exact id)
  | .ok contents => decidable_of_iff
      ((b.onConnectQueue.pendingPublicationItems.take contents.length).map PublicationItem.content = contents ∧
        b.onConnectQueue.pendingPublicationItems.drop contents.length
          = b.pendingPublicationItems.filter fun item => item.content ∉ contents) (by rw [JoinEventsFirst, h])

theorem addPublicationItem_join {joinEvent : CommunicationEventLike Data}
    {content : Text × Option Data × Option Bool} (h : b.eventContent joinEvent = .ok content) :
    (content.1 ∈ b.pendingPublicationItems.map (fun item => item.topic) ∧
      b.addPublicationItem joinEvent false true true = b) ∨
    (content.1 ∉ b.pendingPublicationItems.map (fun item => item.topic) ∧
      ∃ item : PublicationItem Data, item.content = content ∧
        b.addPublicationItem joinEvent false true true = b.queueItem item true) := by
  rw [eventContent] at h
  rw [addPublicationItem]
  cases hpayload : encodePayload joinEvent with
  | error e =>
    rw [hpayload] at h
    cases h
  | ok payload =>
    rw [hpayload] at h
    cases h
    have htopic : (b.pendingPublicationItems.any fun item => item.topic = b.getTopicFor joinEvent) = true ↔
        b.getTopicFor joinEvent ∈ b.pendingPublicationItems.map fun item => item.topic := by
      simp
    dsimp only
    rw [Bool.true_and]
    by_cases htaken : b.getTopicFor joinEvent ∈ b.pendingPublicationItems.map fun item => item.topic
    · rw [if_pos (htopic.mpr htaken), if_neg Bool.false_ne_true]
      exact Or.inl ⟨htaken, rfl⟩
    · rw [if_neg fun h => htaken (htopic.mp h)]
      exact Or.inr ⟨htaken, _, rfl, rfl⟩

theorem addJoinEvents_pending {joinEvents : List (CommunicationEventLike Data)}
    {contents : List (Text × Option Data × Option Bool)}
    (h : joinEvents.mapM b.eventContent = .ok contents) :
    (b.addJoinEvents joinEvents).getTopicFor = b.getTopicFor ∧
    ∃ added, (b.addJoinEvents joinEvents).pendingPublicationItems = added ++ b.pendingPublicationItems ∧
      added.map PublicationItem.content
        = unshiftNew Prod.fst (b.pendingPublicationItems.map fun item => item.topic) contents := by
  induction joinEvents generalizing contents with
  | nil =>
    cases h
    exact ⟨rfl, [], rfl, rfl⟩
  | cons joinEvent joinEvents ih =>
    obtain ⟨content, contents, hcontent, hcontents, rfl⟩ := mapM_cons_ok h
    obtain ⟨htopicFor, added, hpending, hadded⟩ := ih hcontents
    have htopics : (b.addJoinEvents joinEvents).pendingPublicationItems.map (fun item => item.topic)
        = (unshiftNew Prod.fst (b.pendingPublicationItems.map fun item => item.topic) contents).map Prod.fst ++
          b.pendingPublicationItems.map fun item => item.topic := by
      rw [hpending, List.map_append, ← hadded, List.map_map]
      rfl
    have hjoined : (b.addJoinEvents joinEvents).eventContent joinEvent = .ok content := by
      rw [eventContent, htopicFor]
      exact hcontent
    rw [addJoinEvents_cons, unshiftNew, ← htopics]
    rcases (b.addJoinEvents joinEvents).addPublicationItem_join hjoined with
      ⟨htaken, heq⟩ | ⟨hnew, item, hitem, heq⟩
    · rw [heq, if_pos htaken]
      exact ⟨htopicFor, added, hpending, hadded⟩
    · rw [heq, if_neg hnew]
      refine ⟨htopicFor, item :: added, ?_, ?_⟩
      · show item :: (b.addJoinEvents joinEvents).pendingPublicationItems = _
        rw [hpending]
        rfl
      · rw [List.map_cons, hitem, hadded]

theorem onConnectQueue_pending {contents : List (Text × Option Data × Option Bool)}
    (h : b.joinEvents.mapM b.eventContent = .ok contents) :
    ∃ added, b.onConnectQueue.pendingPublicationItems = added ++ b.pendingPublicationItems ∧
      added.map PublicationItem.content
        = unshiftNew Prod.fst (b.pendingPublicationItems.map fun item => item.topic) contents := by
  let subscribed : MqttBinding Data :=
    subscribeItems { b with communicationState := .online } b.issuedSubscriptionItems
  have hpending : subscribed.pendingPublicationItems = b.pendingPublicationItems :=
    subscribeItems_pending _ _
  have hjoinEvents : b.joinEvents.mapM subscribed.eventContent = .ok contents := by
    have hnamespace : subscribed.messagingNamespace = b.messagingNamespace :=
      (sameConnection_subscribeItems { b with communicationState := .online } b.issuedSubscriptionItems
        b.issuedSubscriptionItems).1.messagingNamespace
    have hcontent : subscribed.eventContent = b.eventContent := by
      funext eventLike
      rw [eventContent, eventContent, getTopicFor, getTopicFor, hnamespace]
    rw [hcontent]
    exact h
  obtain ⟨-, added, hqueue, hadded⟩ := subscribed.addJoinEvents_pending hjoinEvents
  rw [hpending] at hqueue hadded
  exact ⟨added, hqueue, hadded⟩

/-- The queue starts with the join events after a connect event exactly if they fit to what was pending. -/
theorem joinEventsFirst_iff [DecidableEq Data] : b.JoinEventsFirst ↔ b.JoinEventsFit := by
  rw [JoinEventsFirst, JoinEventsFit]
  cases hmap : b.joinEvents.mapM b.eventContent with
  | error e => exact Iff.rfl
  | ok contents =>
    obtain ⟨added, hqueue, hadded⟩ := b.onConnectQueue_pending hmap
    obtain ⟨hnodup, htopics⟩ :=
      unshiftNew_keys Prod.fst (b.pendingPublicationItems.map fun item => item.topic) contents
    have hlength : added.length ≤ contents.length := by
      rw [← List.length_map, hadded]
      exact length_unshiftNew_le Prod.fst _ contents
    dsimp only
    rw [hqueue]
    constructor
    · intro ⟨hfront, hback⟩
      rw [List.take_append, List.take_of_length_le hlength, List.map_append] at hfront
      rw [List.drop_append, List.drop_eq_nil_of_le hlength, List.nil_append] at hback
      have hn : (added.map PublicationItem.content).length = added.length := List.length_map ..
      have htake : contents.take added.length = added.map PublicationItem.content := by
        rw [← hfront]
        exact List.take_left' hn
      have hdrop : contents.drop added.length
          = (b.pendingPublicationItems.take (contents.length - added.length)).map PublicationItem.content := by
        conv_lhs => rw [← hfront]
        exact List.drop_left' hn
      refine ⟨added.length,
        (b.pendingPublicationItems.drop (contents.length - added.length)).map PublicationItem.content, ?_, ?_, ?_, ?_⟩
      · rw [hdrop, ← List.map_append, List.take_append_drop]
      · intro content hcontent
        obtain ⟨item, hitem, rfl⟩ := List.mem_map.mp hcontent
        rw [hback] at hitem
        simpa using (List.mem_filter.mp hitem).2
      · rw [htake, hadded]
        exact hnodup
      · rw [htake, hadded]
        exact htopics
    · intro ⟨n, rest, hpending, hrest, hdistinct, hfree⟩
      obtain ⟨front, back, hsplit, hfront, hback⟩ := List.map_eq_append_iff.mp hpending
      have hadded' : added.map PublicationItem.content = contents.take n := by
        rw [hadded]
        conv_lhs => rw [← List.take_append_drop n contents]
        refine unshiftNew_append (fun content hcontent => ?_) hdistinct hfree
        rw [← hfront] at hcontent
        obtain ⟨item, hitem, rfl⟩ := List.mem_map.mp hcontent
        rw [hsplit, List.map_append]
        exact List.mem_append_left _ (List.mem_map_of_mem hitem)
      have hcontents : (added ++ front).map PublicationItem.content = contents := by
        rw [List.map_append, hadded', hfront, List.take_append_drop]
      have hcount : (added ++ front).length = contents.length := by
        rw [← List.length_map (f := PublicationItem.content), hcontents]
      have hfilter : (b.pendingPublicationItems.filter fun item => item.content ∉ contents) = back := by
        rw [hsplit, List.filter_append]
        have hnone : (front.filter fun item => item.content ∉ contents) = [] := by
          refine List.filter_eq_nil_iff.mpr fun item hitem => ?_
          have hmem : item.content ∈ contents.drop n := hfront ▸ List.mem_map_of_mem hitem
          simpa using List.mem_of_mem_drop hmem
        have hall : (back.filter fun item => item.content ∉ contents) = back := by
          refine List.filter_eq_self.mpr fun item hitem => ?_
          simpa using hrest _ (hback ▸ List.mem_map_of_mem hitem)
        rw [hnone, hall, List.nil_append]
      rw [hfilter, hsplit, ← List.append_assoc, List.take_left' hcount, List.drop_left' hcount]
      exact ⟨hcontents, rfl⟩

/-- An agent with two IO nodes advertises only the last of them. -/
theorem not_joinEventsFirst_ioNodes :
    ¬ (((create ⟨none, none⟩ : MqttBinding Text).join
      (joinBinding ⟨text "Identity", ⟨text "1", by decide⟩, text "agent"⟩
        [⟨text "IoNode", ⟨text "2", by decide⟩, text "kitchen"⟩, ⟨text "IoNode", ⟨text "3", by decide⟩, text "garden"⟩]
        fun _ => text "gone")).setConnected true).JoinEventsFirst := by
  decide

end MqttBinding

end Coaty
