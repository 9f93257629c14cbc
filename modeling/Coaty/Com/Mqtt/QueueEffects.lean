import Coaty.Com.Mqtt.Publications

/-!
# What a binding adds to its queue and asks of its client

The functions of a binding differ in what they put into the queue of publications and in the calls they make on the client. Their effects are added up in the order in which the functions call each other. Which places in the queue the new items take does not matter here.
-/

namespace Coaty

open Js

variable {Data : Type}

def ClientCall.isEnd : ClientCall Data → Bool
  | .endClient _ => true
  | _ => false

namespace MqttBinding

/-- The items that are added to the queue, those that are published, and how often the client is ended. -/
structure Effect (b b' : MqttBinding Data) (added sent : List (PublicationItem Data)) (ends : Nat) : Prop where
  state : b'.state = b.state
  joinOptions : b'.joinOptions = b.joinOptions
  client : b'.client.isSome = b.client.isSome
  nextItem : b.nextItem ≤ b'.nextItem
  ids : ∀ item ∈ added, b.nextItem ≤ item.id ∧ item.id < b'.nextItem
  nodup : (added.map fun item => item.id).Nodup
  pending : b'.pendingPublicationItems.Perm (added ++ b.pendingPublicationItems)
  queued : ∀ item ∈ sent, item ∈ b'.pendingPublicationItems
  calls : ∃ calls, b'.calls = b.calls ++ calls ∧ publications calls = sent ∧ calls.countP ClientCall.isEnd = ends

variable {b b₁ b₂ b' : MqttBinding Data} {added added' sent sent' : List (PublicationItem Data)} {ends ends' : Nat}

theorem Effect.trans (h : Effect b b₁ added sent ends) (h' : Effect b₁ b₂ added' sent' ends') :
    Effect b b₂ (added' ++ added) (sent ++ sent') (ends + ends') := by
  obtain ⟨calls, hcalls, hpublications, hends⟩ := h.calls
  obtain ⟨calls', hcalls', hpublications', hends'⟩ := h'.calls
  have hnext := h.nextItem
  have hnext' := h'.nextItem
  refine ⟨h'.state.trans h.state, h'.joinOptions.trans h.joinOptions, h'.client.trans h.client, hnext.trans hnext',
    ?_, ?_, ?_, ?_, calls ++ calls', ?_, ?_, ?_⟩
  · intro item hitem
    obtain hitem | hitem := List.mem_append.mp hitem
    · have hids := h'.ids item hitem
      omega
    · have hids := h.ids item hitem
      omega
  · rw [List.map_append, List.nodup_append]
    refine ⟨h'.nodup, h.nodup, ?_⟩
    intro id hid id' hid' heq
    obtain ⟨item, hitem, rfl⟩ := List.mem_map.mp hid
    obtain ⟨item', hitem', rfl⟩ := List.mem_map.mp hid'
    have hids := h'.ids item hitem
    have hids' := h.ids item' hitem'
    omega
  · rw [List.append_assoc]
    exact h'.pending.trans (h.pending.append_left added')
  · intro item hitem
    obtain hitem | hitem := List.mem_append.mp hitem
    · exact h'.pending.mem_iff.mpr (List.mem_append_right _ (h.queued item hitem))
    · exact h'.queued item hitem
  · rw [hcalls', hcalls, List.append_assoc]
  · rw [publications_append, hpublications, hpublications']
  · rw [List.countP_append, hends, hends']

theorem effect_same (hstate : b'.state = b.state) (hoptions : b'.joinOptions = b.joinOptions)
    (hclient : b'.client.isSome = b.client.isSome) (hnext : b'.nextItem = b.nextItem)
    (hpending : b'.pendingPublicationItems = b.pendingPublicationItems) (hcalls : b'.calls = b.calls) :
    Effect b b' [] [] 0 where
  state := hstate
  joinOptions := hoptions
  client := hclient
  nextItem := Nat.le_of_eq hnext.symm
  ids := by simp
  nodup := List.nodup_nil
  pending := by
    rw [hpending]
    exact List.Perm.refl _
  queued := by simp
  calls := ⟨[], by rw [hcalls, List.append_nil], rfl, rfl⟩

theorem effect_refl (b : MqttBinding Data) : Effect b b [] [] 0 := effect_same rfl rfl rfl rfl rfl rfl

theorem effect_draining (b : MqttBinding Data) (isDrainingPublications : Bool) :
    Effect b { b with isDrainingPublications } [] [] 0 :=
  effect_same rfl rfl rfl rfl rfl rfl

theorem effect_callClient (b : MqttBinding Data) (call : ClientCall Data) (hclient : b.client.isSome = true)
    (hsent : ∀ item ∈ publications [call], item ∈ b.pendingPublicationItems) :
    Effect b (b.callClient call) [] (publications [call]) (if call.isEnd then 1 else 0) where
  state := rfl
  joinOptions := rfl
  client := b.callClient_isSome call
  nextItem := Nat.le_refl _
  ids := by simp
  nodup := List.nodup_nil
  pending := List.Perm.refl _
  queued := hsent
  calls := ⟨[call], b.calls_callClient call hclient, rfl, List.countP_singleton⟩

theorem effect_subscribeItems (b : MqttBinding Data) (items : List SubscriptionItem) :
    Effect b (b.subscribeItems items) [] [] 0 := by
  rw [subscribeItems]
  split
  · rename_i hconnected
    exact b.effect_callClient _ (isSome_of_isConnected hconnected) (by simp [publications])
  · exact effect_refl b

theorem effect_unsubscribeItems (b : MqttBinding Data) (items : List SubscriptionItem) :
    Effect b (b.unsubscribeItems items) [] [] 0 := by
  rw [unsubscribeItems]
  split
  · rename_i hconnected
    exact b.effect_callClient _ (isSome_of_isConnected hconnected) (by simp [publications])
  · exact effect_refl b

theorem effect_issued (b : MqttBinding Data) (issuedSubscriptionItems : List SubscriptionItem) :
    Effect b { b with issuedSubscriptionItems } [] [] 0 :=
  effect_same rfl rfl rfl rfl rfl rfl

theorem effect_subscribe (b : MqttBinding Data) (eventLike : CommunicationEventLike Data) :
    Effect b (b.subscribe eventLike) [] [] 0 := by
  rw [subscribe]
  split
  · exact effect_refl b
  · rw [onSubscribe]
    split
    · exact (b.effect_issued _).trans (effect_subscribeItems _ _)
    · exact effect_refl b

theorem effect_unsubscribe (b : MqttBinding Data) (eventLike : CommunicationEventLike Data) :
    Effect b (b.unsubscribe eventLike) [] [] 0 := by
  rw [unsubscribe]
  split
  · exact effect_refl b
  · rw [onUnsubscribe, removeSubscriptionItem]
    dsimp only
    split
    · exact effect_refl b
    · split
      · exact (b.effect_issued _).trans (effect_unsubscribeItems _ _)
      · split
        · exact b.effect_issued _
        · exact (b.effect_issued _).trans (effect_unsubscribeItems _ _)

theorem effect_queueItem (b : MqttBinding Data) {item : PublicationItem Data} (hid : item.id = b.nextItem)
    (shouldAddFirst : Bool) : Effect b (b.queueItem item shouldAddFirst) [item] [] 0 where
  state := rfl
  joinOptions := rfl
  client := rfl
  nextItem := Nat.le_succ _
  ids := by
    intro other hother
    obtain rfl := List.mem_singleton.mp hother
    show b.nextItem ≤ other.id ∧ other.id < b.nextItem + 1
    omega
  nodup := List.nodup_singleton _
  pending := by
    rw [queueItem]
    cases shouldAddFirst with
    | true => exact List.Perm.refl _
    | false => exact List.perm_append_comm
  queued := by simp
  calls := ⟨[], (List.append_nil _).symm, rfl, rfl⟩

theorem effect_doDrainPublications (b : MqttBinding Data) : ∃ sent, Effect b b.doDrainPublications [] sent 0 ∧
    (b.client.isSome = true → b.pendingPublicationItems ≠ [] → sent ≠ []) := by
  cases hclient : b.client with
  | none =>
    have hstops : b.doDrainPublications = { b with isDrainingPublications := false } := by
      simp [doDrainPublications, hclient]
    rw [hstops]
    exact ⟨[], b.effect_draining false, fun hsome => by cases hsome⟩
  | some client =>
    cases hpending : b.pendingPublicationItems with
    | nil =>
      have hstops : b.doDrainPublications = { b with isDrainingPublications := false } := by
        simp [doDrainPublications, hclient, hpending]
      rw [hstops]
      exact ⟨[], b.effect_draining false, fun _ hne => absurd rfl hne⟩
    | cons item rest =>
      have hpublishes : b.doDrainPublications = b.callClient (.publish item) := by
        simp [doDrainPublications, hclient, hpending]
      rw [hpublishes]
      refine ⟨[item], b.effect_callClient (.publish item) (by rw [hclient]; rfl) ?_, fun _ _ => List.cons_ne_nil _ _⟩
      intro other hother
      obtain rfl := List.mem_singleton.mp hother
      rw [hpending]
      exact List.mem_cons_self

theorem effect_drainPublications (b : MqttBinding Data) : ∃ sent, Effect b b.drainPublications [] sent 0 ∧
    (b.client.isSome = true → b.pendingPublicationItems ≠ [] → b.isDrainingPublications = false → sent ≠ []) := by
  rw [drainPublications]
  split
  · rename_i hdraining
    exact ⟨[], effect_refl b, fun _ _ hidle => absurd (hidle.symm.trans hdraining) Bool.false_ne_true⟩
  · obtain ⟨sent, heffect, hsent⟩ := effect_doDrainPublications { b with isDrainingPublications := true }
    exact ⟨sent, (b.effect_draining true).trans heffect, fun hclient hpending _ => hsent hclient hpending⟩

/-- Nothing is added but items without a callback. -/
def Silent (b b' : MqttBinding Data) : Prop :=
  ∃ added sent, Effect b b' added sent 0 ∧ ∀ item ∈ added, item.callback = false

theorem Effect.silent (h : Effect b b' [] sent 0) : Silent b b' := ⟨[], sent, h, by simp⟩

theorem Silent.trans (h : Silent b b₁) (h' : Silent b₁ b₂) : Silent b b₂ := by
  obtain ⟨added, sent, heffect, hadded⟩ := h
  obtain ⟨added', sent', heffect', hadded'⟩ := h'
  refine ⟨added' ++ added, sent ++ sent', heffect.trans heffect', fun item hitem => ?_⟩
  obtain hitem | hitem := List.mem_append.mp hitem
  · exact hadded' item hitem
  · exact hadded item hitem

theorem silent_addPublicationItem [Json Data] (b : MqttBinding Data) (eventLike : CommunicationEventLike Data)
    (shouldAddFirst once : Bool) : Silent b (b.addPublicationItem eventLike false shouldAddFirst once) := by
  obtain heq | ⟨item, hid, hcallback, heq⟩ := b.addPublicationItem_cases eventLike shouldAddFirst once
  · rw [heq]
    exact (effect_refl b).silent
  · rw [heq]
    exact ⟨[item], [], b.effect_queueItem hid shouldAddFirst, by simpa using hcallback⟩

theorem silent_drainPublications (b : MqttBinding Data) : Silent b b.drainPublications := by
  obtain ⟨sent, heffect, _⟩ := b.effect_drainPublications
  exact heffect.silent

theorem silent_publish [Json Data] (b : MqttBinding Data) (eventLike : CommunicationEventLike Data) :
    Silent b (b.publish eventLike) := by
  rw [publish]
  split
  · exact (effect_refl b).silent
  · rw [onPublish]
    split
    · exact (b.silent_addPublicationItem eventLike false false).trans (silent_drainPublications _)
    · exact (effect_refl b).silent

theorem silent_addJoinEvents [Json Data] (b : MqttBinding Data) (joinEvents : List (CommunicationEventLike Data)) :
    Silent b (b.addJoinEvents joinEvents) := by
  induction joinEvents with
  | nil => exact (effect_refl b).silent
  | cons joinEvent joinEvents ih =>
    rw [addJoinEvents_cons]
    exact ih.trans (silent_addPublicationItem _ joinEvent true true)

theorem effect_setConnected (b : MqttBinding Data) (connected : Bool) : Effect b (b.setConnected connected) [] [] 0 := by
  refine effect_same rfl rfl ?_ rfl rfl (b.calls_setConnected connected)
  simp [setConnected]

theorem silent_onConnect [Json Data] (b : MqttBinding Data) : Silent b (b.setConnected true).onConnect := by
  have honline : Effect (b.setConnected true) { b.setConnected true with communicationState := .online } [] [] 0 :=
    effect_same rfl rfl rfl rfl rfl rfl
  have hresubscribed : Effect b b.resubscribed [] [] 0 :=
    ((b.effect_setConnected true).trans honline).trans (effect_subscribeItems _ _)
  rw [onConnect_eq]
  exact ((hresubscribed.silent.trans (silent_addJoinEvents _ _)).trans (effect_draining _ false).silent).trans
    (silent_drainPublications _)

end MqttBinding

end Coaty
