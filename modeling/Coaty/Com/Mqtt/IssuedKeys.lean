import Coaty.Com.Mqtt.Subscriptions

/-!
# The keys of the issued subscriptions

A subscription is identified by its event type and its topic filter. What subscribing and unsubscribing does to the keys is said once in the order of the array and once as a set.
-/

namespace Coaty

open Js

abbrev SubscriptionKey := CommunicationEventType × Text

namespace MqttBinding

variable {Data : Type} (b : MqttBinding Data)

def issuedKeys : List SubscriptionKey := b.issuedSubscriptionItems.map SubscriptionItem.key

/-! ### In the order of the array -/

theorem issuedKeys_subscribe (eventLike : CommunicationEventLike Data) :
    (b.subscribe eventLike).issuedKeys = b.issuedKeys ∨
      ∃ key, key ∉ b.issuedKeys ∧ (b.subscribe eventLike).issuedKeys = b.issuedKeys ++ [key] := by
  rw [subscribe, onSubscribe]
  split
  · exact Or.inl rfl
  · split
    · have hissued := (b.sameConnection_subscribeItems (upsert SubscriptionItem.key b.issuedSubscriptionItems
        (b.subscriptionItem eventLike)) [b.subscriptionItem eventLike]).2
      rw [addSubscriptionItem_eq, issuedKeys, hissued, map_upsert]
      split
      · exact Or.inl rfl
      · rename_i hnew
        exact Or.inr ⟨_, hnew, rfl⟩
    · exact Or.inl rfl

theorem issuedKeys_unsubscribe (eventLike : CommunicationEventLike Data) :
    (b.unsubscribe eventLike).issuedKeys.Sublist b.issuedKeys := by
  rw [unsubscribe, onUnsubscribe]
  split
  · exact List.Sublist.refl _
  · cases hfind : b.issuedSubscriptionItems.findIdx?
        fun (item : SubscriptionItem) => item.key = Session.subscriptionKey b eventLike with
    | none =>
      rw [b.removeSubscriptionItem_none hfind]
    | some index =>
      have hissued : (b.removeSubscriptionItem eventLike).issuedSubscriptionItems
          = b.issuedSubscriptionItems.eraseIdx index := by
        rw [b.removeSubscriptionItem_some hfind]
        dsimp only
        split
        · rfl
        · exact (b.sameConnection_unsubscribeItems _ _).2
      rw [issuedKeys, hissued]
      exact (List.eraseIdx_sublist b.issuedSubscriptionItems index).map _

/-! ### As a set -/

theorem SameConnection.refl : SameConnection b b := ⟨rfl, rfl, rfl, rfl⟩

variable {b}

theorem SameConnection.subscriptionKey {b' : MqttBinding Data} (h : SameConnection b b')
    (eventLike : CommunicationEventLike Data) :
    Session.subscriptionKey b' eventLike = Session.subscriptionKey b eventLike := by
  simp only [Session.subscriptionKey, getTopicFilterFor, h.messagingNamespace, h.crossNamespacing]

theorem subscribe_spec (hstate : b.state ≠ .unjoined) (hnodup : b.issuedKeys.Nodup)
    (eventLike : CommunicationEventLike Data) :
    SameConnection b (b.subscribe eventLike) ∧ (b.subscribe eventLike).issuedKeys.Nodup ∧
      ∀ key, key ∈ (b.subscribe eventLike).issuedKeys ↔
        key ∈ b.issuedKeys ∨ (acceptsSubscription eventLike = true ∧ key = Session.subscriptionKey b eventLike) := by
  rw [subscribe, if_neg hstate, onSubscribe]
  split
  · rename_i haccepts
    obtain ⟨hsame, hissued⟩ := b.sameConnection_subscribeItems (upsert SubscriptionItem.key b.issuedSubscriptionItems
      (b.subscriptionItem eventLike)) [b.subscriptionItem eventLike]
    rw [addSubscriptionItem_eq, issuedKeys, hissued]
    refine ⟨hsame, nodup_upsert SubscriptionItem.key hnodup _, fun key => ?_⟩
    have hkey : (b.subscriptionItem eventLike).key = Session.subscriptionKey b eventLike := rfl
    rw [map_upsert, hkey, ← issuedKeys]
    split
    · rename_i hissued
      exact ⟨Or.inl, fun h => h.elim id fun h => h.2 ▸ hissued⟩
    · simp only [List.mem_append, List.mem_singleton, haccepts, true_and]
  · rename_i hrejects
    exact ⟨SameConnection.refl b, hnodup, fun key => ⟨Or.inl, fun h => h.resolve_right fun h => hrejects h.1⟩⟩

theorem unsubscribe_spec (hstate : b.state ≠ .unjoined) (hnodup : b.issuedKeys.Nodup)
    (eventLike : CommunicationEventLike Data) :
    SameConnection b (b.unsubscribe eventLike) ∧ (b.unsubscribe eventLike).issuedKeys.Nodup ∧
      ∀ key, key ∈ (b.unsubscribe eventLike).issuedKeys ↔
        key ∈ b.issuedKeys ∧ key ≠ Session.subscriptionKey b eventLike := by
  rw [unsubscribe, if_neg hstate, onUnsubscribe]
  cases hfind : b.issuedSubscriptionItems.findIdx?
      fun (item : SubscriptionItem) => item.key = Session.subscriptionKey b eventLike with
  | none =>
    have hnot := findIdx?_key_none SubscriptionItem.key hfind
    rw [b.removeSubscriptionItem_none hfind]
    exact ⟨SameConnection.refl b, hnodup, fun key => ⟨fun h => ⟨h, fun heq => hnot (heq ▸ h)⟩, fun h => h.1⟩⟩
  | some index =>
    obtain ⟨_, hnodup', hmem⟩ := eraseIdx_findIdx? SubscriptionItem.key hnodup hfind
    have hleft : SameConnection b (b.removeSubscriptionItem eventLike) ∧
        (b.removeSubscriptionItem eventLike).issuedSubscriptionItems = b.issuedSubscriptionItems.eraseIdx index := by
      rw [b.removeSubscriptionItem_some hfind]
      dsimp only
      split
      · exact ⟨⟨rfl, rfl, rfl, rfl⟩, rfl⟩
      · exact b.sameConnection_unsubscribeItems _ _
    rw [issuedKeys, hleft.2]
    refine ⟨hleft.1, hnodup', fun key => ?_⟩
    rw [issuedKeys, List.mem_map, List.mem_map]
    refine ⟨fun h => ?_, fun h => ?_⟩
    · obtain ⟨item, hitem, hkey⟩ := h
      obtain ⟨hitem, hne⟩ := (hmem item).mp hitem
      exact ⟨⟨item, hitem, hkey⟩, hkey ▸ hne⟩
    · obtain ⟨⟨item, hitem, hkey⟩, hne⟩ := h
      exact ⟨item, (hmem item).mpr ⟨hitem, hkey ▸ hne⟩, hkey⟩

theorem publish_spec [Json Data] (b : MqttBinding Data) (eventLike : CommunicationEventLike Data) :
    SameConnection b (b.publish eventLike) ∧ (b.publish eventLike).issuedKeys = b.issuedKeys := by
  have h := b.sameSubscriptions_publish eventLike
  exact ⟨⟨h.messagingNamespace, h.crossNamespacing, h.isConnected, h.state⟩, congrArg (List.map _) h.issued⟩

/-! ### Of some event types -/

/-- What is subscribed for the event types in `P` stays as it is. -/
structure SameKeys (P : CommunicationEventType → Prop) (b b' : MqttBinding Data) : Prop where
  state : b.state ≠ .unjoined → b'.state ≠ .unjoined
  nodup : b.issuedKeys.Nodup → b'.issuedKeys.Nodup
  keys : ∀ key, P key.1 → (key ∈ b'.issuedKeys ↔ key ∈ b.issuedKeys)
  subscriptionKey : ∀ eventLike, Session.subscriptionKey b' eventLike = Session.subscriptionKey b eventLike

variable {P : CommunicationEventType → Prop} {eventLike : CommunicationEventLike Data}

theorem SameKeys.refl (b : MqttBinding Data) : SameKeys P b b := ⟨id, id, fun _ _ => Iff.rfl, fun _ => rfl⟩

theorem SameKeys.trans {b₁ b₂ b₃ : MqttBinding Data} (h : SameKeys P b₁ b₂) (h' : SameKeys P b₂ b₃) :
    SameKeys P b₁ b₃ where
  state := h'.state ∘ h.state
  nodup := h'.nodup ∘ h.nodup
  keys key hP := (h'.keys key hP).trans (h.keys key hP)
  subscriptionKey eventLike := (h'.subscriptionKey eventLike).trans (h.subscriptionKey eventLike)

theorem sameKeys_subscribe (hstate : b.state ≠ .unjoined) (hnodup : b.issuedKeys.Nodup)
    (hother : ¬ P eventLike.eventType) : SameKeys P b (b.subscribe eventLike) := by
  obtain ⟨hsame, hnodup', hkeys⟩ := subscribe_spec hstate hnodup eventLike
  refine ⟨fun _ => hsame.state ▸ hstate, fun _ => hnodup', fun key hP => ?_, hsame.subscriptionKey⟩
  rw [hkeys key]
  refine ⟨fun h => h.resolve_right fun h => ?_, Or.inl⟩
  rw [h.2] at hP
  exact hother hP

theorem sameKeys_unsubscribe (hstate : b.state ≠ .unjoined) (hnodup : b.issuedKeys.Nodup)
    (hother : ¬ P eventLike.eventType) : SameKeys P b (b.unsubscribe eventLike) := by
  obtain ⟨hsame, hnodup', hkeys⟩ := unsubscribe_spec hstate hnodup eventLike
  refine ⟨fun _ => hsame.state ▸ hstate, fun _ => hnodup', fun key hP => ?_, hsame.subscriptionKey⟩
  rw [hkeys key]
  refine ⟨fun h => h.1, fun h => ⟨h, fun heq => ?_⟩⟩
  rw [heq] at hP
  exact hother hP

theorem sameKeys_publish [Json Data] (b : MqttBinding Data) (eventLike : CommunicationEventLike Data) :
    SameKeys P b (b.publish eventLike) := by
  obtain ⟨hsame, hkeys⟩ := b.publish_spec eventLike
  refine ⟨fun h => hsame.state ▸ h, fun h => hkeys ▸ h, fun key _ => ?_, hsame.subscriptionKey⟩
  rw [hkeys]

theorem sameKeys_join (b : MqttBinding Data) (joinOptions : CommunicationBindingJoinOptions Data) :
    SameKeys P b (b.join joinOptions) := by
  rw [join]
  split
  · exact ⟨fun _ h => CommunicationBindingState.noConfusion h, id, fun _ _ => Iff.rfl, fun _ => rfl⟩
  · exact SameKeys.refl b

end MqttBinding

end Coaty
