import Coaty.Com.Mqtt.QueueEffects

/-!
# Unjoining

`unjoin` queues the unjoin event and ends the client when the event has been published or could not be. The promise it returns is resolved when the client has ended. Nothing ever happens without a callback of the client that is still to come. While the client is offline, the draining flag keeps the unjoin event from being tried, so that none may be to come; and every callback that reports an error ends the client once more while the event waits.
-/

namespace Coaty

open Js Transition

variable {Data : Type}

/-- A session, from its start until the client has ended. -/
structure Unjoining (Data : Type) where
  session : Session Data
  /-- How often `client.end` has been called. -/
  endCalls : Nat
  /-- How many of its callbacks have been called. -/
  endedCalls : Nat
  /-- Whether the promise returned by `unjoin` has been resolved. -/
  resolved : Bool

inductive UnjoinEvent (Data : Type) where
  | session (event : SessionEvent Data)
  | unjoin
  | ended

namespace Unjoining

def start (options : CommunicationBindingOptions) : Unjoining Data where
  session := Session.start options
  endCalls := 0
  endedCalls := 0
  resolved := false

/-- Take over the next state of the session and count the calls that end the client. -/
def absorb (s : Unjoining Data) (session : Session Data) : Unjoining Data :=
  let calls := session.binding.calls.drop s.session.binding.calls.length
  { s with session, endCalls := s.endCalls + calls.countP ClientCall.isEnd }

/-- A binding without a client is unjoined at once. -/
def step [Json Data] (s : Unjoining Data) : UnjoinEvent Data → Unjoining Data
  | .session event => s.absorb (s.session.step event)
  | .unjoin =>
    let b := s.session.binding.unjoin
    { s.absorb (s.session.absorb b) with resolved := s.resolved || b.client.isNone }
  | .ended =>
    if s.endedCalls < s.endCalls then
      { s with
        session := { s.session with binding := s.session.binding.ended }
        endedCalls := s.endedCalls + 1
        resolved := true }
    else s

/-- What can happen in a state. The binding is unjoined once, while it is joined. -/
def Enabled (s : Unjoining Data) : UnjoinEvent Data → Prop
  | .session event => s.session.Enabled event
  | .unjoin => s.session.binding.state = .joined
  | .ended => s.endedCalls < s.endCalls

instance (s : Unjoining Data) : (event : UnjoinEvent Data) → Decidable (s.Enabled event)
  | .session event => inferInstanceAs (Decidable (s.session.Enabled event))
  | .unjoin => inferInstanceAs (Decidable (s.session.binding.state = .joined))
  | .ended => inferInstanceAs (Decidable (s.endedCalls < s.endCalls))

/-- A binding that is being unjoined waits for a callback of its client, which it ends at most once. -/
structure Unstuck (s : Unjoining Data) : Prop where
  outstanding : s.session.binding.state = .unjoined → s.resolved = false →
    s.session.outstanding ≠ [] ∨ s.endedCalls < s.endCalls
  endedOnce : s.endCalls ≤ 1

/-- The call whose callback is called. -/
def calledBack (s : Unjoining Data) (number : Nat) : Option (OutstandingPublish Data) :=
  s.session.outstanding.find? fun call => call.number = number

/-- Whether the unjoin event is in the queue. -/
def Waits (b : MqttBinding Data) : Prop := ∃ item ∈ b.pendingPublicationItems, item.callback = true

/-- `unjoin` is not called while the draining flag is set and nothing is under way, unless the unjoin event is not to be published anyway. And while the event waits although the client has been ended, no callback reports an error, or that the event has been published. -/
def Undisturbed [Json Data] (s : Unjoining Data) : UnjoinEvent Data → Prop
  | .unjoin => s.session.binding.state = .joined → s.session.binding.isDrainingPublications = true →
      s.session.outstanding = [] → ∀ joinOptions, s.session.binding.joinOptions = some joinOptions →
        ∃ e, MqttBinding.encodePayload joinOptions.unjoinEvent = .error e
  | .session (.published number err) => 0 < s.endCalls → Waits s.session.binding →
      ∀ call, s.calledBack number = some call → err = false ∧ call.item.callback = false
  | _ => True

end Unjoining

/-! ### What is true of the queue -/

namespace Session

/-- The items whose publish callback has not been called. -/
def inTransit (s : Session Data) : List (PublicationItem Data) := s.outstanding.map fun call => call.item

variable {s : Session Data} {b : MqttBinding Data}

theorem item_outstandingCalls (live : Bool) (number : Nat) (calls : List (ClientCall Data)) :
    (outstandingCalls live number calls).map (fun call => call.item) = publications calls := by
  induction calls generalizing number with
  | nil => rfl
  | cons call calls ih =>
    cases call with
    | publish item => exact congrArg (item :: ·) (ih (number + 1))
    | subscribe topicFilters => exact ih (number + 1)
    | unsubscribe topicFilters => exact ih (number + 1)
    | endClient force => exact ih (number + 1)

theorem inTransit_absorb {calls : List (ClientCall Data)} (h : b.calls = s.binding.calls ++ calls) :
    (s.absorb b).inTransit = s.inTransit ++ publications calls := by
  rw [inTransit, outstanding_absorb h, List.map_append, item_outstandingCalls]
  rfl

end Session

namespace Unjoining

open MqttBinding

/-- Items identify themselves, and at most one of them is the unjoin event. -/
structure Tracked (b : MqttBinding Data) (transit : List (PublicationItem Data)) : Prop where
  nodup : (b.pendingPublicationItems.map fun item => item.id).Nodup
  pendingIds : ∀ item ∈ b.pendingPublicationItems, item.id < b.nextItem
  transitIds : ∀ item ∈ transit, item.id < b.nextItem
  same : ∀ item ∈ b.pendingPublicationItems, ∀ item' ∈ transit, item'.id = item.id → item' = item
  once : b.pendingPublicationItems.countP PublicationItem.callback ≤ 1
  unjoinItem : ∀ item ∈ b.pendingPublicationItems, ∀ item' ∈ transit, item.callback = true → item'.callback = true →
    item' = item

/-- No item is the unjoin event. -/
def Free (b : MqttBinding Data) (transit : List (PublicationItem Data)) : Prop :=
  (∀ item ∈ b.pendingPublicationItems, item.callback = false) ∧ ∀ item ∈ transit, item.callback = false

variable {b b' : MqttBinding Data} {transit transit' added sent : List (PublicationItem Data)} {ends endCalls endedCalls : Nat}
  {resolved : Bool}

theorem countP_eq_zero_of_free {items : List (PublicationItem Data)} (h : ∀ item ∈ items, item.callback = false) :
    items.countP PublicationItem.callback = 0 := by
  rw [List.countP_eq_zero]
  intro item hitem
  rw [h item hitem]
  exact Bool.false_ne_true

theorem eq_of_countP_le_one {items : List (PublicationItem Data)} (h : items.countP PublicationItem.callback ≤ 1)
    {item item' : PublicationItem Data} (hitem : item ∈ items) (hitem' : item' ∈ items) (hcallback : item.callback = true)
    (hcallback' : item'.callback = true) : item' = item := by
  rw [List.countP_eq_length_filter] at h
  have hmem := List.mem_filter.mpr ⟨hitem, hcallback⟩
  have hmem' := List.mem_filter.mpr ⟨hitem', hcallback'⟩
  cases hfilter : items.filter PublicationItem.callback with
  | nil =>
    rw [hfilter] at hmem
    cases hmem
  | cons first rest =>
    rw [hfilter, List.length_cons] at h
    obtain rfl : rest = [] := List.eq_nil_of_length_eq_zero (by omega)
    rw [hfilter] at hmem hmem'
    rw [List.mem_singleton.mp hmem, List.mem_singleton.mp hmem']

theorem Tracked.effect (h : Tracked b transit) (heffect : Effect b b' added sent ends)
    (hadded : (∀ item ∈ added, item.callback = false) ∨ Free b transit ∧ added.length ≤ 1) : Tracked b' (transit ++ sent) := by
  have hmem : ∀ item, item ∈ b'.pendingPublicationItems ↔ item ∈ added ∨ item ∈ b.pendingPublicationItems := by
    intro item
    rw [heffect.pending.mem_iff, List.mem_append]
  have hnodup : (b'.pendingPublicationItems.map fun item => item.id).Nodup := by
    rw [(heffect.pending.map fun item => item.id).nodup_iff, List.map_append, List.nodup_append]
    refine ⟨heffect.nodup, h.nodup, ?_⟩
    intro id hid id' hid' heq
    obtain ⟨item, hitem, rfl⟩ := List.mem_map.mp hid
    obtain ⟨item', hitem', rfl⟩ := List.mem_map.mp hid'
    have hids := heffect.ids item hitem
    have hids' := h.pendingIds item' hitem'
    omega
  have hpendingIds : ∀ item ∈ b'.pendingPublicationItems, item.id < b'.nextItem := by
    intro item hitem
    have hnext := heffect.nextItem
    obtain hitem | hitem := (hmem item).mp hitem
    · have hids := heffect.ids item hitem
      omega
    · have hids := h.pendingIds item hitem
      omega
  have honce : b'.pendingPublicationItems.countP PublicationItem.callback ≤ 1 := by
    rw [heffect.pending.countP_eq, List.countP_append]
    obtain hnone | ⟨hfree, hlength⟩ := hadded
    · rw [countP_eq_zero_of_free hnone, Nat.zero_add]
      exact h.once
    · rw [countP_eq_zero_of_free hfree.1, Nat.add_zero]
      exact List.countP_le_length.trans hlength
  refine ⟨hnodup, hpendingIds, ?_, ?_, honce, ?_⟩
  · intro item hitem
    obtain hitem | hitem := List.mem_append.mp hitem
    · exact Nat.lt_of_lt_of_le (h.transitIds item hitem) heffect.nextItem
    · exact hpendingIds item (heffect.queued item hitem)
  · intro item hitem item' hitem' heq
    obtain hitem' | hitem' := List.mem_append.mp hitem'
    · obtain hnew | hold := (hmem item).mp hitem
      · have hids := heffect.ids item hnew
        have hids' := h.transitIds item' hitem'
        omega
      · exact h.same item hold item' hitem' heq
    · exact List.inj_on_of_nodup_map hnodup (heffect.queued item' hitem') hitem heq
  · intro item hitem item' hitem' hcallback hcallback'
    obtain hitem' | hitem' := List.mem_append.mp hitem'
    · obtain hnone | ⟨hfree, _⟩ := hadded
      · obtain hnew | hold := (hmem item).mp hitem
        · exact absurd ((hnone item hnew).symm.trans hcallback) Bool.false_ne_true
        · exact h.unjoinItem item hold item' hitem' hcallback hcallback'
      · exact absurd ((hfree.2 item' hitem').symm.trans hcallback') Bool.false_ne_true
    · exact eq_of_countP_le_one honce hitem (heffect.queued item' hitem') hcallback hcallback'

theorem Tracked.sublist (h : Tracked b transit) (hpending : b'.pendingPublicationItems.Sublist b.pendingPublicationItems)
    (hnext : b'.nextItem = b.nextItem) (htransit : transit'.Sublist transit) : Tracked b' transit' where
  nodup := h.nodup.sublist (hpending.map _)
  pendingIds item hitem := hnext ▸ h.pendingIds item (hpending.subset hitem)
  transitIds item hitem := hnext ▸ h.transitIds item (htransit.subset hitem)
  same item hitem item' hitem' := h.same item (hpending.subset hitem) item' (htransit.subset hitem')
  once := (hpending.countP_le).trans h.once
  unjoinItem item hitem item' hitem' := h.unjoinItem item (hpending.subset hitem) item' (htransit.subset hitem')

/-- What is true in each phase of unjoining. -/
structure Coherent (b : MqttBinding Data) (transit : List (PublicationItem Data)) (endCalls endedCalls : Nat)
    (resolved : Bool) : Prop where
  tracked : Tracked b transit
  before : b.state ≠ .unjoined → Free b transit ∧ endCalls = 0 ∧ endedCalls = 0 ∧ resolved = false
  initialized : b.state = .initialized → b.client = none
  joined : b.state = .joined → b.client.isSome = true ∧ b.joinOptions.isSome = true
  unjoined : b.state = .unjoined → resolved = false → b.client.isSome = true ∧ endedCalls = 0 ∧ (endCalls = 0 → Waits b)
  resolved : resolved = true → b.client = none ∧ ∀ item ∈ b.pendingPublicationItems, item.callback = false

theorem Waits.effect (h : Waits b) (heffect : Effect b b' added sent ends) : Waits b' := by
  obtain ⟨item, hitem, hcallback⟩ := h
  exact ⟨item, heffect.pending.mem_iff.mpr (List.mem_append_right _ hitem), hcallback⟩

theorem Coherent.effect (h : Coherent b transit endCalls endedCalls resolved) (heffect : Effect b b' added sent ends)
    (hadded : ∀ item ∈ added, item.callback = false) : Coherent b' (transit ++ sent) endCalls endedCalls resolved := by
  have hfree : (∀ item ∈ b.pendingPublicationItems, item.callback = false) →
      ∀ item ∈ b'.pendingPublicationItems, item.callback = false := by
    intro hpending item hitem
    obtain hnew | hold := List.mem_append.mp (heffect.pending.mem_iff.mp hitem)
    · exact hadded item hnew
    · exact hpending item hold
  have hnone : b.client = none → b'.client = none := by
    intro hclient
    have hsome := heffect.client
    rw [hclient] at hsome
    exact Option.isNone_iff_eq_none.mp (Option.isSome_eq_false_iff.mp hsome)
  refine ⟨h.tracked.effect heffect (Or.inl hadded), ?_, ?_, ?_, ?_, ?_⟩
  · intro hstate
    obtain ⟨⟨hpending, htransit⟩, hcounts⟩ := h.before (heffect.state ▸ hstate)
    refine ⟨⟨hfree hpending, fun item hitem => ?_⟩, hcounts⟩
    obtain hitem | hitem := List.mem_append.mp hitem
    · exact htransit item hitem
    · exact hfree hpending item (heffect.queued item hitem)
  · exact fun hstate => hnone (h.initialized (heffect.state ▸ hstate))
  · intro hstate
    rw [heffect.client, heffect.joinOptions]
    exact h.joined (heffect.state ▸ hstate)
  · intro hstate hresolved
    obtain ⟨hclient, hended, hwaits⟩ := h.unjoined (heffect.state ▸ hstate) hresolved
    exact ⟨heffect.client.trans hclient, hended, fun hend => (hwaits hend).effect heffect⟩
  · intro hresolved
    obtain ⟨hclient, hpending⟩ := h.resolved hresolved
    exact ⟨hnone hclient, hfree hpending⟩

/-! ### Callbacks of publications -/

theorem effect_unjoinPublished (b : MqttBinding Data) (publishFailed : Bool) :
    Effect b (b.unjoinPublished publishFailed) [] [] (if b.client.isSome then 1 else 0) := by
  cases hclient : b.client with
  | none => exact effect_same rfl rfl (by simp [unjoinPublished]) rfl rfl (by simp [calls, unjoinPublished, callClient, hclient])
  | some client => exact b.effect_callClient (.endClient publishFailed) (by rw [hclient]; rfl) (by simp [publications])

theorem effect_notify (b : MqttBinding Data) (items : List (PublicationItem Data)) :
    Effect b (items.foldl (fun b item => if item.callback then b.unjoinPublished true else b) b) [] []
      (if b.client.isSome then items.countP PublicationItem.callback else 0) := by
  induction items generalizing b with
  | nil => simpa using effect_refl b
  | cons item items ih =>
    rw [List.foldl_cons, List.countP_cons]
    cases item.callback with
    | false => exact ih b
    | true =>
      have hfirst := effect_unjoinPublished b true
      have hrest := hfirst.trans (ih (b.unjoinPublished true))
      rw [hfirst.client] at hrest
      cases hclient : b.client.isSome with
      | false =>
        rw [hclient] at hrest
        exact hrest
      | true =>
        rw [hclient] at hrest
        simpa [Nat.add_comm] using hrest

/-- The queue without an item. -/
def confirmed (b : MqttBinding Data) (item : PublicationItem Data) : MqttBinding Data :=
  { b with pendingPublicationItems := b.pendingPublicationItems.eraseP fun i => i.id = item.id }

def endsClient (b : MqttBinding Data) (item : PublicationItem Data) : Bool :=
  b.client.isSome && (b.pendingPublicationItems.any fun i => i.id = item.id) && item.callback

theorem effect_published_success (b : MqttBinding Data) (item : PublicationItem Data) :
    ∃ sent, Effect (confirmed b item) (b.published item false) [] sent (if endsClient b item then 1 else 0) ∧
      (b.client.isSome = true → (confirmed b item).pendingPublicationItems ≠ [] → sent ≠ []) := by
  have hended : Effect (confirmed b item)
      (if (b.pendingPublicationItems.any fun i => i.id = item.id) && item.callback then (confirmed b item).unjoinPublished false
        else confirmed b item) [] [] (if endsClient b item then 1 else 0) := by
    rw [endsClient, Bool.and_assoc]
    cases (b.pendingPublicationItems.any fun i => i.id = item.id) && item.callback with
    | false =>
      rw [Bool.and_false]
      exact effect_refl _
    | true =>
      rw [Bool.and_true]
      exact effect_unjoinPublished (confirmed b item) false
  obtain ⟨sent, hdrained, hsent⟩ := effect_doDrainPublications
    (if (b.pendingPublicationItems.any fun i => i.id = item.id) && item.callback then (confirmed b item).unjoinPublished false
      else confirmed b item)
  have heffect := hended.trans hdrained
  refine ⟨sent, heffect, fun hclient hpending => hsent (hended.client.trans hclient) fun hempty => hpending ?_⟩
  have hperm := hended.pending
  rw [hempty] at hperm
  exact hperm.symm.eq_nil

theorem effect_published_error (b : MqttBinding Data) (item : PublicationItem Data) :
    Effect b (b.published item true) [] [] (if b.client.isSome then b.pendingPublicationItems.countP PublicationItem.callback else 0) := by
  have heffect := (b.effect_draining false).trans
    (effect_notify { b with isDrainingPublications := false } b.pendingPublicationItems)
  rw [Nat.zero_add] at heffect
  exact heffect

theorem Coherent.confirmed (h : Coherent b transit endCalls endedCalls resolved) {item : PublicationItem Data}
    (hitem : item ∈ transit) (htransit : transit'.Sublist transit) :
    Coherent (confirmed b item) transit' (endCalls + if endsClient b item then 1 else 0) endedCalls resolved := by
  have hsub : (Unjoining.confirmed b item).pendingPublicationItems.Sublist b.pendingPublicationItems := List.eraseP_sublist
  refine ⟨h.tracked.sublist hsub rfl htransit, ?_, h.initialized, h.joined, ?_, ?_⟩
  · intro hstate
    obtain ⟨⟨hpending, hfree⟩, hend, hended, hresolved⟩ := h.before hstate
    refine ⟨⟨fun i hi => hpending i (hsub.subset hi), fun i hi => hfree i (htransit.subset hi)⟩, ?_, hended, hresolved⟩
    rw [endsClient, hfree item hitem, Bool.and_false, hend]
    rfl
  · intro hstate hresolved
    obtain ⟨hclient, hended, hwaits⟩ := h.unjoined hstate hresolved
    refine ⟨hclient, hended, fun hnone => ?_⟩
    obtain ⟨hend, hother⟩ : endCalls = 0 ∧ endsClient b item = false := by
      cases hends : endsClient b item with
      | false => exact ⟨by simpa [hends] using hnone, rfl⟩
      | true => simp [hends] at hnone
    obtain ⟨unjoinItem, hunjoin, hcallback⟩ := hwaits hend
    refine ⟨unjoinItem, (List.mem_eraseP_of_neg ?_).mpr hunjoin, hcallback⟩
    intro hid
    have hid : unjoinItem.id = item.id := by simpa using hid
    have hsame : item = unjoinItem := h.tracked.same unjoinItem hunjoin item hitem hid.symm
    have hpending : (b.pendingPublicationItems.any fun i => i.id = item.id) = true :=
      List.any_eq_true.mpr ⟨unjoinItem, hunjoin, by simpa using hid⟩
    rw [endsClient, hclient, hpending, hsame, hcallback] at hother
    cases hother
  · intro hresolved
    obtain ⟨hclient, hpending⟩ := h.resolved hresolved
    exact ⟨hclient, fun i hi => hpending i (hsub.subset hi)⟩

/-! ### The steps of unjoining -/

def Consistent (s : Unjoining Data) : Prop :=
  Coherent s.session.binding s.session.inTransit s.endCalls s.endedCalls s.resolved

variable {s : Unjoining Data} {session : Session Data}

theorem consistent_start (options : CommunicationBindingOptions) : (start options : Unjoining Data).Consistent where
  tracked := ⟨List.nodup_nil, by simp [start, Session.start, create], by simp [start, Session.start, Session.inTransit],
    by simp [start, Session.start, create], by simp [start, Session.start, create], by simp [start, Session.start, create]⟩
  before _ := ⟨⟨by simp [start, Session.start, create], by simp [start, Session.start, Session.inTransit]⟩, rfl, rfl, rfl⟩
  initialized _ := rfl
  joined := by simp [start, Session.start, create]
  unjoined := by simp [start, Session.start, create]
  resolved := by simp [start]

theorem unstuck_start (options : CommunicationBindingOptions) : (start options : Unjoining Data).Unstuck where
  outstanding := by simp [start, Session.start, create]
  endedOnce := Nat.zero_le 1

theorem endCalls_absorb {calls : List (ClientCall Data)} (h : session.binding.calls = s.session.binding.calls ++ calls) :
    (s.absorb session).endCalls = s.endCalls + calls.countP ClientCall.isEnd := by
  rw [absorb, h, List.drop_left]

theorem outstanding_ne_nil_iff : session.outstanding ≠ [] ↔ session.inTransit ≠ [] := by
  rw [Session.inTransit, ne_eq, ne_eq, List.map_eq_nil_iff]

theorem Consistent.effect (h : s.Consistent) (heffect : Effect s.session.binding session.binding added sent 0)
    (hadded : ∀ item ∈ added, item.callback = false) (htransit : session.inTransit = s.session.inTransit ++ sent) :
    (s.absorb session).Consistent ∧ (s.Unstuck → (s.absorb session).Unstuck) := by
  obtain ⟨calls, hcalls, -, hends⟩ := heffect.calls
  have hendCalls : (s.absorb session).endCalls = s.endCalls := by rw [endCalls_absorb hcalls, hends, Nat.add_zero]
  refine ⟨?_, fun hunstuck => ⟨fun hstate hresolved => ?_, ?_⟩⟩
  · have hcoherent := Coherent.effect h heffect hadded
    rw [← htransit, ← hendCalls] at hcoherent
    exact hcoherent
  · obtain houtstanding | hended := hunstuck.outstanding (heffect.state.symm.trans hstate) hresolved
    · refine Or.inl (outstanding_ne_nil_iff.mpr ?_)
      show session.inTransit ≠ []
      rw [htransit]
      exact List.append_ne_nil_of_left_ne_nil (outstanding_ne_nil_iff.mp houtstanding) sent
    · rw [hendCalls]
      exact Or.inr hended
  · rw [hendCalls]
    exact hunstuck.endedOnce

theorem Consistent.silent (h : s.Consistent) (hsilent : Silent s.session.binding b)
    (hbinding : session.binding = b) (houtstanding : session.inTransit = (s.session.absorb b).inTransit) :
    (s.absorb session).Consistent ∧ (s.Unstuck → (s.absorb session).Unstuck) := by
  obtain ⟨added, sent, heffect, hadded⟩ := hsilent
  subst hbinding
  obtain ⟨calls, hcalls, hsent, _⟩ := heffect.calls
  rw [Session.inTransit_absorb hcalls, hsent] at houtstanding
  exact Consistent.effect h heffect hadded houtstanding

theorem Coherent.isSome_of_waits (h : Coherent b transit endCalls endedCalls resolved) (hend : 0 < endCalls)
    (hwaits : Waits b) : b.client.isSome = true := by
  obtain ⟨item, hitem, hcallback⟩ := hwaits
  have hstate : b.state = .unjoined := by
    by_contra hstate
    have hnone := (h.before hstate).2.1
    omega
  have hresolved : resolved = false := by
    cases hcase : resolved with
    | false => rfl
    | true => exact absurd (((h.resolved hcase).2 item hitem).symm.trans hcallback) Bool.false_ne_true
  exact (h.unjoined hstate hresolved).1

theorem Consistent.unstuck_iff (h : s.Consistent)
    (houtstanding : s.session.binding.state = .unjoined → s.resolved = false → s.endCalls = 0 → s.session.outstanding ≠ []) :
    s.Unstuck ↔ s.endCalls ≤ 1 := by
  refine ⟨fun hunstuck => hunstuck.endedOnce, fun hend => ⟨fun hstate hresolved => ?_, hend⟩⟩
  by_cases hnone : s.endCalls = 0
  · exact Or.inl (houtstanding hstate hresolved hnone)
  · have hended := (h.unjoined hstate hresolved).2.1
    right
    omega

/-- The session when a callback is called. -/
def calling (s : Unjoining Data) (number : Nat) : Session Data :=
  { s.session with outstanding := s.session.outstanding.filter fun call => call.number ≠ number }

theorem sublist_calling (s : Unjoining Data) (number : Nat) : (s.calling number).inTransit.Sublist s.session.inTransit :=
  List.filter_sublist.map _

variable [Json Data]

theorem Consistent.join (h : s.Consistent) (joinOptions : CommunicationBindingJoinOptions Data) :
    (s.step (.session (.join joinOptions))).Consistent ∧
      (s.Unstuck → (s.step (.session (.join joinOptions))).Unstuck) := by
  by_cases hstate : s.session.binding.state = .initialized
  · have hjoin := MqttBinding.join_eq hstate joinOptions
    have hnone := h.initialized hstate
    have hcalls : (s.session.binding.join joinOptions).calls = s.session.binding.calls ++ [] := by
      rw [hjoin, MqttBinding.calls, MqttBinding.calls, hnone]
      rfl
    have htransit : (s.session.step (.join joinOptions)).inTransit = s.session.inTransit ++ [] :=
      Session.inTransit_absorb hcalls
    have hendCalls : (s.step (.session (.join joinOptions))).endCalls = s.endCalls :=
      @endCalls_absorb _ s (s.session.step (.join joinOptions)) [] hcalls
    have hbefore := h.before (by rw [hstate]; decide)
    rw [List.append_nil] at htransit
    have hcoherent : Coherent (s.session.binding.join joinOptions) s.session.inTransit s.endCalls s.endedCalls s.resolved := by
      rw [hjoin]
      refine ⟨h.tracked.sublist (List.Sublist.refl _) rfl (List.Sublist.refl _), fun _ => hbefore, ?_, fun _ => ⟨rfl, rfl⟩, ?_, ?_⟩
      · intro hinitialized
        cases hinitialized
      · intro hunjoined
        cases hunjoined
      · intro hresolved
        exact absurd (hbefore.2.2.2.symm.trans hresolved) Bool.false_ne_true
    rw [← htransit, ← hendCalls] at hcoherent
    refine ⟨hcoherent, fun hunstuck => ⟨fun hunjoined => ?_, ?_⟩⟩
    · have hjoined : (s.session.binding.join joinOptions).state = .joined := congrArg MqttBinding.state hjoin
      cases hjoined.symm.trans hunjoined
    · rw [hendCalls]
      exact hunstuck.endedOnce
  · have hsame : s.session.binding.join joinOptions = s.session.binding := if_neg hstate
    exact h.silent (effect_refl _).silent hsame (by rw [Session.step, hsame])

theorem step_published {number : Nat} {err : Bool} {call : OutstandingPublish Data} (hcall : s.calledBack number = some call) :
    s.step (.session (.published number err)) =
      s.absorb ({ s.session with outstanding := s.session.outstanding.filter fun call => call.number ≠ number }.absorb
        (s.session.binding.published call.item err)) := by
  rw [calledBack] at hcall
  rw [step, Session.step, hcall]

theorem step_published_iff {number : Nat} {err : Bool} {call : OutstandingPublish Data}
    (hcall : s.calledBack number = some call) (hcalls : b.calls = s.session.binding.calls)
    (hcoherent : Coherent b (s.calling number).inTransit (s.endCalls + ends) s.endedCalls s.resolved)
    (heffect : Effect b (s.session.binding.published call.item err) [] sent ends)
    (hsent : b.client.isSome = true → s.endCalls + ends = 0 → Waits b → sent ≠ []) :
    (s.step (.session (.published number err))).Consistent ∧
      ((s.step (.session (.published number err))).Unstuck ↔ s.endCalls + ends ≤ 1) := by
  obtain ⟨calls, hextends, hpublications, hends⟩ := heffect.calls
  rw [hcalls] at hextends
  have htransit : ((s.calling number).absorb (s.session.binding.published call.item err)).inTransit =
      (s.calling number).inTransit ++ sent := by
    rw [← hpublications]
    exact Session.inTransit_absorb hextends
  have hendCalls : (s.absorb ((s.calling number).absorb (s.session.binding.published call.item err))).endCalls =
      s.endCalls + ends := by
    rw [← hends]
    exact @endCalls_absorb _ s ((s.calling number).absorb (s.session.binding.published call.item err)) calls hextends
  have hafter := hcoherent.effect heffect (by simp)
  rw [← htransit, ← hendCalls] at hafter
  have hconsistent : (s.absorb ((s.calling number).absorb (s.session.binding.published call.item err))).Consistent := hafter
  rw [step_published hcall]
  refine ⟨hconsistent, (hconsistent.unstuck_iff fun hstate hresolved hnone => ?_).trans (by rw [hendCalls])⟩
  rw [hendCalls] at hnone
  have hbefore : b.state = .unjoined := heffect.state.symm.trans hstate
  obtain ⟨hclient, _, hwaits⟩ := hcoherent.unjoined hbefore hresolved
  refine outstanding_ne_nil_iff.mpr ?_
  show ((s.calling number).absorb (s.session.binding.published call.item err)).inTransit ≠ []
  rw [htransit]
  exact List.append_ne_nil_of_right_ne_nil _ (hsent hclient hnone (hwaits hnone))

def endsOf (b : MqttBinding Data) (item : PublicationItem Data) (err : Bool) : Nat :=
  if err then if b.client.isSome then b.pendingPublicationItems.countP PublicationItem.callback else 0
  else if endsClient b item then 1 else 0

theorem Consistent.published (h : s.Consistent) {number : Nat} {call : OutstandingPublish Data}
    (hcall : s.calledBack number = some call) (err : Bool) :
    (s.step (.session (.published number err))).Consistent ∧
      ((s.step (.session (.published number err))).Unstuck ↔ s.endCalls + endsOf s.session.binding call.item err ≤ 1) := by
  have hitem : call.item ∈ s.session.inTransit := List.mem_map_of_mem (List.mem_of_find?_eq_some hcall)
  have hsub := s.sublist_calling number
  cases err with
  | false =>
    obtain ⟨sent, heffect, hsent⟩ := effect_published_success s.session.binding call.item
    refine @step_published_iff _ (confirmed s.session.binding call.item) sent _ s _ number false call hcall rfl
      (h.confirmed hitem hsub) heffect fun hclient _ hwaits => ?_
    obtain ⟨item, hpending, _⟩ := hwaits
    exact hsent hclient (List.ne_nil_of_mem hpending)
  | true =>
    refine step_published_iff hcall rfl ?_ (effect_published_error s.session.binding call.item) fun hclient hnone hwaits => ?_
    · refine ⟨h.tracked.sublist (List.Sublist.refl _) rfl hsub, ?_, h.initialized, h.joined, ?_, h.resolved⟩
      · intro hstate
        obtain ⟨⟨hpending, htransit⟩, hend, hrest⟩ := h.before hstate
        refine ⟨⟨hpending, fun item hitem => htransit item (hsub.subset hitem)⟩, ?_, hrest⟩
        rw [endsOf, if_pos rfl, countP_eq_zero_of_free hpending, hend, ite_self]
      · intro hstate hresolved
        obtain ⟨hclient, hended, hwaits⟩ := h.unjoined hstate hresolved
        exact ⟨hclient, hended, fun hnone => hwaits (by omega)⟩
    · have hpositive := List.countP_pos_iff.mpr hwaits
      rw [endsOf, if_pos rfl, if_pos hclient] at hnone
      omega

/-- A callback ends the client a second time exactly if it disturbs unjoining. -/
theorem endsOf_iff_undisturbed (h : s.Consistent) (hend : s.endCalls ≤ 1) {number : Nat} {call : OutstandingPublish Data}
    (hcall : s.calledBack number = some call) (err : Bool) :
    s.endCalls + endsOf s.session.binding call.item err ≤ 1 ↔ s.Undisturbed (.session (.published number err)) := by
  have hitem : call.item ∈ s.session.inTransit := List.mem_map_of_mem (List.mem_of_find?_eq_some hcall)
  constructor
  · intro hle hpositive hwaits call' hcall'
    obtain rfl := Option.some.inj (hcall.symm.trans hcall')
    have hclient := h.isSome_of_waits hpositive hwaits
    cases err with
    | false =>
      refine ⟨rfl, ?_⟩
      by_contra hcallback
      rw [Bool.not_eq_false] at hcallback
      obtain ⟨item, hpending, hunjoin⟩ := hwaits
      have hsame : call.item = item := h.tracked.unjoinItem item hpending call.item hitem hunjoin hcallback
      have hany : (s.session.binding.pendingPublicationItems.any fun i => i.id = call.item.id) = true :=
        List.any_eq_true.mpr ⟨item, hpending, by simp [hsame]⟩
      have hends : endsOf s.session.binding call.item false = 1 := by simp [endsOf, endsClient, hclient, hany, hcallback]
      omega
    | true =>
      have hcount := List.countP_pos_iff.mpr hwaits
      have hends : endsOf s.session.binding call.item true =
          s.session.binding.pendingPublicationItems.countP PublicationItem.callback := by simp [endsOf, hclient]
      omega
  · intro hundisturbed
    have honce := h.tracked.once
    cases err with
    | false =>
      cases hends : endsClient s.session.binding call.item with
      | false => simpa [endsOf, hends] using hend
      | true =>
        have hfirst : s.endCalls = 0 := by
          by_contra hpositive
          simp only [endsClient, Bool.and_eq_true] at hends
          obtain ⟨⟨_, hany⟩, hcallback⟩ := hends
          obtain ⟨item, hpending, hid⟩ := List.any_eq_true.mp hany
          have hid : item.id = call.item.id := by simpa using hid
          have hsame : call.item = item := h.tracked.same item hpending call.item hitem hid.symm
          have hwaits : Waits s.session.binding := ⟨item, hpending, hsame ▸ hcallback⟩
          have hother := (hundisturbed (by omega) hwaits call hcall).2
          exact absurd (hother.symm.trans hcallback) Bool.false_ne_true
        simp [endsOf, hends, hfirst]
    | true =>
      by_cases hwaits : Waits s.session.binding
      · have hfirst : s.endCalls = 0 := by
          by_contra hpositive
          exact absurd (hundisturbed (by omega) hwaits call hcall).1.symm Bool.false_ne_true
        have hle : endsOf s.session.binding call.item true ≤ 1 := by
          rw [endsOf, if_pos rfl]
          split
          · exact honce
          · exact Nat.zero_le 1
        omega
      · have hnone : s.session.binding.pendingPublicationItems.countP PublicationItem.callback = 0 := by
          by_contra hpositive
          exact hwaits (List.countP_pos_iff.mp (by omega))
        simpa [endsOf, hnone] using hend

theorem Consistent.step_published (h : s.Consistent) (number : Nat) (err : Bool) :
    (s.step (.session (.published number err))).Consistent ∧
      (s.Unstuck → ((s.step (.session (.published number err))).Unstuck ↔
        s.Undisturbed (.session (.published number err)))) := by
  cases hfind : s.calledBack number with
  | none =>
    have hsame : s.session.step (.published number err) = s.session := by
      rw [calledBack] at hfind
      rw [Session.step, hfind]
    have hstep : s.step (.session (.published number err)) = s := by
      rw [step, hsame, absorb, List.drop_length]
      rfl
    have hundisturbed : s.Undisturbed (.session (.published number err)) := by
      intro _ _ call hcall
      rw [hfind] at hcall
      cases hcall
    rw [hstep]
    exact ⟨h, fun hunstuck => ⟨fun _ => hundisturbed, fun _ => hunstuck⟩⟩
  | some call =>
    obtain ⟨hconsistent, hiff⟩ := h.published hfind err
    exact ⟨hconsistent, fun hunstuck => hiff.trans (endsOf_iff_undisturbed h hunstuck.endedOnce hfind err)⟩

theorem Consistent.step_silent (h : s.Consistent) {event : SessionEvent Data}
    (hevent : ∀ number err, event ≠ .published number err) :
    (s.step (.session event)).Consistent ∧ (s.Unstuck → (s.step (.session event)).Unstuck) := by
  cases event with
  | join joinOptions => exact h.join joinOptions
  | publish eventLike => exact h.silent (silent_publish _ eventLike) rfl rfl
  | subscribe eventLike => exact h.silent (effect_subscribe _ eventLike).silent rfl rfl
  | unsubscribe eventLike => exact h.silent (effect_unsubscribe _ eventLike).silent rfl rfl
  | connect => exact h.silent (silent_onConnect _) rfl rfl
  | lose =>
    refine h.effect (effect_setConnected _ false) (by simp) ?_
    rw [List.append_nil, Session.inTransit, Session.step, List.map_map]
    rfl
  | close => exact h.effect (effect_same rfl rfl rfl rfl rfl rfl) (by simp) (List.append_nil _).symm
  | offline => exact h.effect (effect_same rfl rfl rfl rfl rfl rfl) (by simp) (List.append_nil _).symm
  | published number err => exact absurd rfl (hevent number err)

theorem Consistent.step_ended (h : s.Consistent) :
    (s.step .ended).Consistent ∧ (s.Unstuck → (s.step .ended).Unstuck) := by
  rw [step]
  split
  · rename_i hended
    have hstate : s.session.binding.state = .unjoined := by
      by_contra hstate
      have hnone := (h.before hstate).2.1
      omega
    have hcoherent : Coherent s.session.binding.ended s.session.inTransit s.endCalls (s.endedCalls + 1) true := by
      refine ⟨h.tracked.sublist (List.nil_sublist _) rfl (List.Sublist.refl _), ?_, fun _ => rfl, ?_, ?_, ?_⟩
      · exact fun hother => absurd hstate hother
      · exact fun hjoined => by cases hstate.symm.trans hjoined
      · exact fun _ hresolved => by cases hresolved
      · exact fun _ => ⟨rfl, by simp [MqttBinding.ended, reset]⟩
    refine ⟨hcoherent, fun hunstuck => ⟨fun _ hresolved => ?_, hunstuck.endedOnce⟩⟩
    cases hresolved
  · exact ⟨h, id⟩

theorem unjoin_joined {b : MqttBinding Data} (hstate : b.state = .joined) (hclient : b.client.isSome = true)
    {joinOptions : CommunicationBindingJoinOptions Data} (hoptions : b.joinOptions = some joinOptions) :
    b.unjoin = ({ b with state := .unjoined }.addPublicationItem joinOptions.unjoinEvent true false false).drainPublications := by
  obtain ⟨client, hsome⟩ := Option.isSome_iff_exists.mp hclient
  rw [MqttBinding.unjoin, if_neg (by rw [hstate]; decide)]
  simp only [hsome, hoptions]

theorem Consistent.unjoined_iff (h : s.Consistent) (hstate : s.session.binding.state = .joined)
    (heffect : Effect { s.session.binding with state := .unjoined } s.session.binding.unjoin added sent ends)
    (hadded : added.length ≤ 1) (hends : ends ≤ 1) (hwaits : ends = 0 → Waits s.session.binding.unjoin) :
    (s.step .unjoin).Consistent ∧ ((s.step .unjoin).Unstuck ↔ s.session.outstanding ≠ [] ∨ sent ≠ [] ∨ 0 < ends) := by
  obtain ⟨hfree, hend, hended, hresolved⟩ := h.before (by rw [hstate]; decide)
  have hclient := (h.joined hstate).1
  obtain ⟨calls, hcalls, hpublications, hcount⟩ := heffect.calls
  have hafter : s.session.binding.unjoin.state = .unjoined := heffect.state
  have hsome : s.session.binding.unjoin.client.isSome = true := heffect.client.trans hclient
  have htransit : (s.session.absorb s.session.binding.unjoin).inTransit = s.session.inTransit ++ sent := by
    rw [← hpublications]
    exact Session.inTransit_absorb hcalls
  have hendCalls : (s.step .unjoin).endCalls = ends := by
    have hcounted : (s.step .unjoin).endCalls = s.endCalls + calls.countP ClientCall.isEnd :=
      @endCalls_absorb _ s (s.session.absorb s.session.binding.unjoin) calls hcalls
    rw [hcounted, hcount, hend, Nat.zero_add]
  have hunresolved : (s.step .unjoin).resolved = false := by
    show (s.resolved || s.session.binding.unjoin.client.isNone) = false
    rw [hresolved, Option.isNone_eq_false_iff.mpr hsome]
    rfl
  have hcoherent : Coherent s.session.binding.unjoin (s.session.inTransit ++ sent) ends s.endedCalls false := by
    have htracked : Tracked { s.session.binding with state := .unjoined } s.session.inTransit :=
      h.tracked.sublist (List.Sublist.refl _) rfl (List.Sublist.refl _)
    refine ⟨htracked.effect heffect (Or.inr ⟨hfree, hadded⟩), ?_, ?_, ?_, fun _ _ => ⟨hsome, hended, hwaits⟩, ?_⟩
    · exact fun hother => absurd hafter hother
    · exact fun hother => by cases hafter.symm.trans hother
    · exact fun hother => by cases hafter.symm.trans hother
    · exact fun hother => by cases hother
  rw [← htransit, ← hendCalls, ← hunresolved] at hcoherent
  have houtstanding : (s.step .unjoin).session.outstanding ≠ [] ↔ s.session.outstanding ≠ [] ∨ sent ≠ [] := by
    rw [outstanding_ne_nil_iff, outstanding_ne_nil_iff]
    show (s.session.absorb s.session.binding.unjoin).inTransit ≠ [] ↔ _
    rw [htransit, ne_eq, List.append_eq_nil_iff, not_and_or]
  have hnone : (s.step .unjoin).endedCalls = 0 := hended
  refine ⟨hcoherent, ?_⟩
  rw [← or_assoc, ← houtstanding, ← hendCalls]
  constructor
  · intro hunstuck
    have hbusy := hunstuck.outstanding hafter hunresolved
    rwa [hnone] at hbusy
  · intro hbusy
    refine ⟨fun _ _ => ?_, hendCalls ▸ hends⟩
    rwa [hnone]

theorem effect_unjoinEvent (b : MqttBinding Data) (hclient : b.client.isSome = true) (eventLike : CommunicationEventLike Data) :
    (∃ e, encodePayload eventLike = .error e) ∧ Effect b (b.addPublicationItem eventLike true false false) [] [] 1 ∨
      (¬ ∃ e, encodePayload eventLike = .error e) ∧ ∃ item, item.callback = true ∧
        b.addPublicationItem eventLike true false false = b.queueItem item false ∧
        Effect b (b.addPublicationItem eventLike true false false) [item] [] 0 := by
  rw [addPublicationItem]
  cases encodePayload eventLike with
  | error e =>
    have heffect := effect_unjoinPublished b true
    rw [if_pos hclient] at heffect
    exact Or.inl ⟨⟨e, rfl⟩, heffect⟩
  | ok payload =>
    refine Or.inr ⟨by simp, ?_⟩
    exact ⟨⟨b.nextItem, b.getTopicFor eventLike, payload, eventLike.retain, true⟩, rfl, rfl, b.effect_queueItem rfl false⟩

/-- Unjoining a joined binding does not get stuck exactly if something is under way, or the unjoin event is tried or given up at once. -/
theorem Consistent.step_unjoin_joined (h : s.Consistent) (hjoined : s.session.binding.state = .joined) :
    (s.step .unjoin).Consistent ∧ (s.Unstuck → ((s.step .unjoin).Unstuck ↔ s.Undisturbed .unjoin)) := by
  obtain ⟨hclient, hoptions⟩ := h.joined hjoined
  obtain ⟨joinOptions, hoptions⟩ := Option.isSome_iff_exists.mp hoptions
  have hunjoin := unjoin_joined hjoined hclient hoptions
  obtain ⟨hfails, hadd⟩ | ⟨hencoded, item, hcallback, hqueued, hadd⟩ :=
    effect_unjoinEvent { s.session.binding with state := .unjoined } hclient joinOptions.unjoinEvent
  · obtain ⟨sent, hdrain, _⟩ := effect_drainPublications
      ({ s.session.binding with state := .unjoined }.addPublicationItem joinOptions.unjoinEvent true false false)
    have heffect := hadd.trans hdrain
    rw [← hunjoin] at heffect
    obtain ⟨hconsistent, hiff⟩ := h.unjoined_iff hjoined heffect (Nat.zero_le 1) (Nat.le_refl 1) (by simp)
    refine ⟨hconsistent, fun _ => ⟨fun _ _ _ _ joinOptions' hoptions' => ?_, fun _ => hiff.mpr (Or.inr (Or.inr Nat.one_pos))⟩⟩
    obtain rfl := Option.some.inj (hoptions.symm.trans hoptions')
    exact hfails
  · have hwaits : ∀ {b' : MqttBinding Data} {sent},
        Effect { s.session.binding with state := .unjoined } b' [item] sent 0 → Waits b' := fun heffect =>
      ⟨item, heffect.pending.mem_iff.mpr (List.mem_append_left _ List.mem_cons_self), hcallback⟩
    cases hdraining : s.session.binding.isDrainingPublications with
    | true =>
      -- Nothing is tried, so that something must be under way already.
      have hidle : s.session.binding.unjoin =
          { s.session.binding with state := .unjoined }.addPublicationItem joinOptions.unjoinEvent true false false := by
        rw [hunjoin, hqueued, drainPublications, queueItem]
        exact if_pos hdraining
      rw [← hidle] at hadd
      obtain ⟨hconsistent, hiff⟩ := h.unjoined_iff hjoined hadd (Nat.le_refl 1) (Nat.zero_le 1) fun _ => hwaits hadd
      refine ⟨hconsistent, fun _ => hiff.trans ⟨fun hbusy _ _ hnone => ?_, fun hundisturbed => Or.inl fun hnone => ?_⟩⟩
      · obtain houtstanding | hsent | hended := hbusy
        · exact absurd hnone houtstanding
        · exact absurd rfl hsent
        · exact absurd hended (Nat.lt_irrefl 0)
      · exact hencoded (hundisturbed hjoined hdraining hnone joinOptions hoptions)
    | false =>
      obtain ⟨sent, hdrain, hsent⟩ := effect_drainPublications
        ({ s.session.binding with state := .unjoined }.addPublicationItem joinOptions.unjoinEvent true false false)
      have hpublished : sent ≠ [] := by
        refine hsent (hadd.client.trans hclient) ?_ ?_
        · exact List.ne_nil_of_mem (hadd.pending.mem_iff.mpr (List.mem_append_left _ List.mem_cons_self))
        · rw [hqueued]
          exact hdraining
      have heffect := hadd.trans hdrain
      rw [← hunjoin] at heffect
      obtain ⟨hconsistent, hiff⟩ := h.unjoined_iff hjoined heffect (Nat.le_refl 1) (Nat.zero_le 1) fun _ => hwaits heffect
      refine ⟨hconsistent, fun _ => ⟨fun _ _ hbusy => ?_, fun _ => hiff.mpr (Or.inr (Or.inl hpublished))⟩⟩
      cases hdraining.symm.trans hbusy

theorem Consistent.step_unjoin_initialized (h : s.Consistent) (hinitialized : s.session.binding.state = .initialized) :
    (s.step .unjoin).Consistent ∧ (s.step .unjoin).Unstuck := by
  have hclient := h.initialized hinitialized
  have hunjoin : s.session.binding.unjoin = { s.session.binding with state := .unjoined }.reset := by
    rw [MqttBinding.unjoin, if_neg (by rw [hinitialized]; decide)]
    simp only [hclient]
  have hcalls : s.session.binding.unjoin.calls = s.session.binding.calls ++ [] := by
    rw [hunjoin, MqttBinding.calls, MqttBinding.calls, hclient]
    rfl
  have htransit : (s.session.absorb s.session.binding.unjoin).inTransit = s.session.inTransit ++ [] :=
    Session.inTransit_absorb hcalls
  have hendCalls : (s.step .unjoin).endCalls = s.endCalls :=
    @endCalls_absorb _ s (s.session.absorb s.session.binding.unjoin) [] hcalls
  have hresolved : (s.step .unjoin).resolved = true := by
    show (s.resolved || s.session.binding.unjoin.client.isNone) = true
    rw [hunjoin]
    exact Bool.or_true _
  have hcoherent : Coherent s.session.binding.unjoin s.session.inTransit s.endCalls s.endedCalls true := by
    rw [hunjoin]
    refine ⟨h.tracked.sublist (List.nil_sublist _) rfl (List.Sublist.refl _), fun hstate => absurd rfl hstate, fun _ => rfl, ?_, ?_, ?_⟩
    · exact fun hstate => by cases hstate
    · exact fun _ hunresolved => by cases hunresolved
    · exact fun _ => ⟨rfl, by simp [reset]⟩
  rw [List.append_nil] at htransit
  rw [← htransit, ← hendCalls, ← hresolved] at hcoherent
  refine ⟨hcoherent, ⟨fun _ hunresolved => ?_, ?_⟩⟩
  · cases hresolved.symm.trans hunresolved
  · have hend := (h.before (by rw [hinitialized]; decide)).2.1
    omega

theorem Consistent.step_unjoin_unjoined (h : s.Consistent) (hunjoined : s.session.binding.state = .unjoined) :
    s.step .unjoin = s := by
  have hunjoin : s.session.binding.unjoin = s.session.binding := if_pos hunjoined
  have hresolved : (s.resolved || s.session.binding.client.isNone) = s.resolved := by
    cases hcase : s.resolved with
    | true => rfl
    | false =>
      rw [Option.isNone_eq_false_iff.mpr (h.unjoined hunjoined hcase).1]
      rfl
  rw [step, hunjoin, Session.absorb_self, hresolved, absorb, List.drop_length]
  rfl

theorem Consistent.step_unjoin (h : s.Consistent) :
    (s.step .unjoin).Consistent ∧ (s.Unstuck → ((s.step .unjoin).Unstuck ↔ s.Undisturbed .unjoin)) := by
  by_cases hjoined : s.session.binding.state = .joined
  · exact h.step_unjoin_joined hjoined
  · have hundisturbed : s.Undisturbed .unjoin := fun hstate => absurd hstate hjoined
    cases hstate : s.session.binding.state with
    | initialized =>
      obtain ⟨hconsistent, hunstuck⟩ := h.step_unjoin_initialized hstate
      exact ⟨hconsistent, fun _ => ⟨fun _ => hundisturbed, fun _ => hunstuck⟩⟩
    | joined => exact absurd hstate hjoined
    | unjoined =>
      rw [h.step_unjoin_unjoined hstate]
      exact ⟨h, fun hunstuck => ⟨fun _ => hundisturbed, fun _ => hunstuck⟩⟩

theorem Consistent.step (h : s.Consistent) (event : UnjoinEvent Data) :
    (s.step event).Consistent ∧ (s.Unstuck → ((s.step event).Unstuck ↔ s.Undisturbed event)) := by
  cases event with
  | session event =>
    by_cases hpublished : ∃ number err, event = .published number err
    · obtain ⟨number, err, rfl⟩ := hpublished
      exact h.step_published number err
    · have hundisturbed : s.Undisturbed (.session event) := by
        cases event with
        | published number err => exact absurd ⟨number, err, rfl⟩ hpublished
        | _ => trivial
      obtain ⟨hconsistent, hunstuck⟩ := h.step_silent fun number err heq => hpublished ⟨number, err, heq⟩
      exact ⟨hconsistent, fun hbefore => ⟨fun _ => hundisturbed, fun _ => hunstuck hbefore⟩⟩
  | unjoin => exact h.step_unjoin
  | ended =>
    obtain ⟨hconsistent, hunstuck⟩ := h.step_ended
    exact ⟨hconsistent, fun hbefore => ⟨fun _ => trivial, fun _ => hunstuck hbefore⟩⟩

/-- Unjoining does not get stuck and ends the client at most once in a run exactly if no step of it disturbs unjoining. -/
theorem unstuck_iff_undisturbed (options : CommunicationBindingOptions) (events : List (UnjoinEvent Data)) :
    (∀ n, ((events.take n).foldl step (start options)).Unstuck) ↔ Along step Undisturbed (start options) events :=
  forall_take_iff_along (fun _ event h => h.step event |>.1) (fun _ event h => h.step event |>.2)
    (consistent_start options) (unstuck_start options)

/-- The broker cannot be reached. -/
def offlineRun : List (UnjoinEvent Text) :=
  [.session (.join ⟨[], Session.rawEvent (text "gone")⟩), .session .close, .unjoin]

/-- A publication is tried on two connections, both of which are lost. -/
def failingRun : List (UnjoinEvent Text) :=
  [.session (.join ⟨[], Session.rawEvent (text "gone")⟩), .session .connect, .session (.publish (Session.rawEvent (text "a"))),
    .session .lose, .session .connect, .unjoin, .session .lose, .session (.published 1 true), .session (.published 3 true)]

/-- Unjoining gets stuck while the broker cannot be reached, and it ends the client for each publication that fails. -/
theorem not_unstuck_offline :
    (Along step Enabled (start ⟨none, none⟩) offlineRun ∧ ¬ (offlineRun.foldl step (start ⟨none, none⟩)).Unstuck) ∧
    Along step Enabled (start ⟨none, none⟩) failingRun ∧ (failingRun.foldl step (start ⟨none, none⟩)).endCalls = 2 := by
  refine ⟨⟨by decide, fun hunstuck => ?_⟩, by decide, by decide⟩
  have hbusy := hunstuck.outstanding (by decide) (by decide)
  exact absurd hbusy (by decide)

end Unjoining

end Coaty
