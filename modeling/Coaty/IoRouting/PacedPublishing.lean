import Coaty.IoRouting.IoSourceController

/-!
# Paced publishing

The invariant of an IO source controller. A subscription lives in a period of its own, which ends with the next change of the IO state, with a stop, or with a value that cannot be published, and keeps the log of its source paced. The observers of a source show what the communication manager says.
-/

namespace Coaty

open Js Pacing Transition CommunicationManager

variable {Props Raw Json : Type}

namespace IoSourceItems

variable {item : IoSourceItems Props Raw Json} {now : Nat}

/-- The last value was in the wrong format, and closed the subscription. -/
def Failed (item : IoSourceItems Props Raw Json) : Prop :=
  ∃ before time value, item.updateLog = before ++ [⟨time, .published value⟩] ++ [⟨time, .closed⟩] ∧
    value.isRaw ≠ item.source.useRawIoValues.getD false

/-- The log of the source is paced, and its period is that of the update subscription. -/
structure Keeps (item : IoSourceItems Props Raw Json) (now : Nat) : Prop where
  paced : Paced item.updateLog
  closed : item.updateSubscription = none → (status item.updateLog).limit = none
  subscribed : ∀ sub, item.updateSubscription = some sub → item.association = true ∧
    sub.piping = piping item.source item.updateRate ∧ sub.Tracks (status item.updateLog) now
  failed : item.isSubscribed = true → item.association = true → item.updateSubscription = none → item.Failed

theorem Keeps.settled (h : item.Keeps now) : (status item.updateLog).Settled now := by
  cases hsub : item.updateSubscription with
  | none =>
    have hclosed := h.closed hsub
    refine ⟨fun rate time value hlimit => ?_, fun hlimit => ?_⟩
    · cases hclosed.symm.trans hlimit
    · cases hclosed.symm.trans hlimit
  | some sub => exact (h.subscribed sub hsub).2.2.settled

theorem piping_positive (source : IoSource (SourceProperties Props) Nat) (updateRate : Option Nat) :
    ∀ rate, (piping source updateRate).limit = some rate → 0 < rate := by
  intro rate hrate
  unfold piping at hrate
  split at hrate
  · cases hrate
  · cases hrate
  · rename_i recommended hzero
    have hpositive : 0 < recommended := Nat.pos_of_ne_zero hzero
    split at hrate
    · cases hrate
      exact hpositive
    · cases hrate
      exact hpositive
    · cases hrate
      exact hpositive
    · cases hrate

/-- Whatever has changed, the next subscription keeps the log paced. -/
theorem keeps_updateUpdateRateObservable (hpaced : Paced item.updateLog)
    (hsettled : (status item.updateLog).Settled now) : (item.updateUpdateRateObservable now).Keeps now := by
  rw [updateUpdateRateObservable]
  by_cases hassociation : item.association = true
  · rw [if_pos hassociation]
    refine ⟨paced_append.mpr ⟨hpaced, hsettled.admits nofun nofun⟩, nofun, fun sub hsub => ?_, nofun⟩
    cases hsub
    refine ⟨hassociation, rfl, ?_⟩
    rw [record, status_append]
    exact Subscription.tracks_subscribe (piping_positive _ _) now
  · rw [if_neg hassociation]
    refine ⟨paced_append.mpr ⟨hpaced, hsettled.admits nofun nofun⟩, fun _ => ?_, nofun,
      fun _ htrue => absurd htrue hassociation⟩
    rw [record, status_append]
    rfl

theorem Keeps.onIoStateChanged (h : item.Keeps now) (state : IoState Nat) :
    (item.onIoStateChanged now state).Keeps now := by
  rw [IoSourceItems.onIoStateChanged]
  split
  · exact keeps_updateUpdateRateObservable h.paced h.settled
  · exact h

theorem onIoStateChanged_shows (item : IoSourceItems Props Raw Json) (state : IoState Nat) :
    (⟨(item.onIoStateChanged now state).association, (item.onIoStateChanged now state).updateRate⟩ : IoState Nat) = state := by
  rw [onIoStateChanged]
  split
  · rw [updateUpdateRateObservable]
    split <;> rfl
  · rename_i hsame
    rw [not_or, not_not, not_not] at hsame
    rw [hsame.1, hsame.2]

theorem onIoStateChanged_frame (now : Nat) (item : IoSourceItems Props Raw Json) (state : IoState Nat) :
    (item.onIoStateChanged now state).source = item.source ∧
      (item.onIoStateChanged now state).isSubscribed = item.isSubscribed ∧
      (item.onIoStateChanged now state).strayStateSubscriptions = item.strayStateSubscriptions := by
  rw [onIoStateChanged]
  split
  · rw [updateUpdateRateObservable]
    split <;> exact ⟨rfl, rfl, rfl⟩
  · exact ⟨rfl, rfl, rfl⟩

structure Told (observers : Nat) (state : IoState Nat) (now : Nat) (item item' : IoSourceItems Props Raw Json) : Prop where
  keeps : item.Keeps now → item'.Keeps now
  source : item'.source = item.source
  isSubscribed : item'.isSubscribed = item.isSubscribed
  stateSubscriptions : item'.stateSubscriptions = item.stateSubscriptions
  shows : 0 < observers → ⟨item'.association, item'.updateRate⟩ = state
  closed : state.hasAssociations = false → item.updateSubscription = none → item'.updateSubscription = none

theorem closed_onIoStateChanged (item : IoSourceItems Props Raw Json) {state : IoState Nat}
    (hstate : state.hasAssociations = false) (h : item.updateSubscription = none) :
    (item.onIoStateChanged now state).updateSubscription = none := by
  rw [onIoStateChanged]
  split
  · rw [updateUpdateRateObservable, if_neg (by rw [hstate]; exact Bool.false_ne_true)]
    rfl
  · exact h

theorem told_iterate (now : Nat) (item : IoSourceItems Props Raw Json) (state : IoState Nat) (observers : Nat) :
    Told observers state now item ((fun item => onIoStateChanged now item state)^[observers] item) := by
  induction observers with
  | zero => exact ⟨id, rfl, rfl, rfl, fun h => absurd h (lt_irrefl 0), fun _ h => h⟩
  | succ observers ih =>
    rw [Function.iterate_succ_apply']
    obtain ⟨hsource, hsubscribed, hstray⟩ := onIoStateChanged_frame now
      ((fun item => onIoStateChanged now item state)^[observers] item) state
    refine ⟨fun h => (ih.keeps h).onIoStateChanged state, hsource.trans ih.source, hsubscribed.trans ih.isSubscribed,
      ?_, fun _ => onIoStateChanged_shows _ state, fun hstate h => closed_onIoStateChanged _ hstate (ih.closed hstate h)⟩
    rw [← ih.stateSubscriptions, stateSubscriptions, stateSubscriptions, hsubscribed, hstray]

theorem told_dispatchNext (now : Nat) (item : IoSourceItems Props Raw Json) (state : IoState Nat) :
    Told item.stateSubscriptions state now item (item.dispatchNext now state) := told_iterate now item state _

/-! ### Values -/

section Publishing

variable {publishIoValue : IoSource (SourceProperties Props) Nat → IoValue Raw Json →
  Except Text (Option (IoValueEvent Raw Json))}

/-- Publishing fails for values in the wrong format. -/
def ChecksFormat (publishIoValue : IoSource (SourceProperties Props) Nat → IoValue Raw Json →
    Except Text (Option (IoValueEvent Raw Json))) : Prop :=
  ∀ source value error, publishIoValue source value = .error error → value.isRaw ≠ source.useRawIoValues.getD false

theorem handOn_of_ok (item : IoSourceItems Props Raw Json) {value : IoValue Raw Json}
    {event : Option (IoValueEvent Raw Json)} (h : publishIoValue item.source value = .ok event) :
    item.handOn publishIoValue now value
      = { item.record now (.published value) with published := item.published ++ event.toList } := by
  have hrecord : publishIoValue (item.record now (.published value)).source value = .ok event := h
  rw [handOn, hrecord]
  rfl

theorem handOn_of_error (item : IoSourceItems Props Raw Json) {value : IoValue Raw Json} {error : Text}
    (h : publishIoValue item.source value = .error error) :
    item.handOn publishIoValue now value
      = record now { item.record now (.published value) with updateSubscription := none } .closed := by
  have hrecord : publishIoValue (item.record now (.published value)).source value = .error error := h
  rw [handOn, hrecord]

theorem keeps_handOn (item : IoSourceItems Props Raw Json) (hchecks : ChecksFormat publishIoValue)
    (hpaced : Paced item.updateLog) {sub : Subscription (IoValue Raw Json)} (hsub : item.updateSubscription = some sub) (hassociation : item.association = true)
    (hpiping : sub.piping = piping item.source item.updateRate) {value : IoValue Raw Json}
    (hadmits : (status item.updateLog).Admits ⟨now, .published value⟩)
    (htracks : sub.Tracks ((status item.updateLog).step ⟨now, .published value⟩) now) :
    (item.handOn publishIoValue now value).Keeps now := by
  have hpublished : Paced (item.updateLog ++ [⟨now, .published value⟩]) := paced_append.mpr ⟨hpaced, hadmits⟩
  cases hpublish : publishIoValue item.source value with
  | ok event =>
    rw [handOn_of_ok item hpublish]
    refine ⟨hpublished, fun hnone => ?_, fun sub' hsub' => ?_, fun _ _ hnone => ?_⟩
    · cases hsub.symm.trans hnone
    · cases hsub.symm.trans hsub'
      refine ⟨hassociation, hpiping, ?_⟩
      rw [record, status_append]
      exact htracks
    · cases hsub.symm.trans hnone
  | error error =>
    have hsettled : (status (item.updateLog ++ [⟨now, .published value⟩])).Settled now := by
      rw [status_append]
      exact htracks.settled
    rw [handOn_of_error item hpublish]
    refine ⟨paced_append.mpr ⟨hpublished, hsettled.admits nofun nofun⟩, fun _ => ?_, nofun, fun _ _ _ => ?_⟩
    · rw [record, status_append]
      rfl
    · exact ⟨item.updateLog, now, value, rfl, hchecks _ _ _ hpublish⟩

theorem Keeps.next (h : item.Keeps now) (hchecks : ChecksFormat publishIoValue) (value : IoValue Raw Json) :
    (item.next publishIoValue now value).Keeps now := by
  rw [IoSourceItems.next]
  cases hsub : item.updateSubscription with
  | none => exact h
  | some sub =>
    obtain ⟨hassociation, hpiping, htracks⟩ := h.subscribed sub hsub
    have hadmits : (status item.updateLog).Admits ⟨now, .scheduled value⟩ :=
      h.settled.admits (fun _ _ => by rw [htracks.limit]; exact Option.some_ne_none _) nofun
    have hscheduled : Paced (item.updateLog ++ [⟨now, .scheduled value⟩]) := paced_append.mpr ⟨h.paced, hadmits⟩
    dsimp only
    split
    · rename_i hdirect
      obtain ⟨hadmits', htracks'⟩ := htracks.handOnDirectly hdirect value
      refine keeps_handOn (item.record now (.scheduled value)) hchecks hscheduled hsub hassociation hpiping ?_ ?_
      · rw [record, status_append]
        exact hadmits'
      · rw [record, status_append]
        exact htracks'
    · rename_i hrated
      obtain ⟨rate, hrate⟩ : ∃ rate, sub.piping.limit = some rate := by
        cases hpiping : sub.piping with
        | direct => exact absurd hpiping hrated
        | sampleTime period => exact ⟨period, rfl⟩
        | debounceTime dueTime => exact ⟨dueTime, rfl⟩
      refine ⟨hscheduled, nofun, fun sub' hsub' => ?_, nofun⟩
      cases hsub'
      refine ⟨hassociation, hpiping, ?_⟩
      rw [record, status_append]
      exact htracks.give hrate value

theorem Keeps.elapse (h : item.Keeps now) (hchecks : ChecksFormat publishIoValue) {rx : Operators (IoValue Raw Json)}
    (hrx : rx.Documented) : (item.elapse publishIoValue (now + 1) rx).Keeps (now + 1) := by
  rw [IoSourceItems.elapse]
  cases hsub : item.updateSubscription with
  | none =>
    refine ⟨h.paced, h.closed, fun sub heq => ?_, h.failed⟩
    cases hsub.symm.trans heq
  | some sub =>
    obtain ⟨hassociation, hpiping, htracks⟩ := h.subscribed sub hsub
    rw [Option.bind_some]
    cases hvalue : sub.handsOn rx (now + 1) with
    | none =>
      refine ⟨h.paced, h.closed, fun sub' heq => ?_, h.failed⟩
      cases hsub.symm.trans heq
      exact ⟨hassociation, hpiping, htracks.elapse hrx hvalue⟩
    | some value =>
      obtain ⟨hadmits, htracks'⟩ := htracks.handOn hrx hvalue
      exact keeps_handOn _ hchecks h.paced hsub hassociation hpiping hadmits htracks'

end Publishing

/-- Nothing has changed but what becomes of the values. -/
structure Unmoved (item item' : IoSourceItems Props Raw Json) : Prop where
  source : item'.source = item.source
  isSubscribed : item'.isSubscribed = item.isSubscribed
  stateSubscriptions : item'.stateSubscriptions = item.stateSubscriptions
  association : item'.association = item.association
  updateRate : item'.updateRate = item.updateRate
  closed : item.updateSubscription = none → item'.updateSubscription = none

theorem Unmoved.refl (item : IoSourceItems Props Raw Json) : Unmoved item item :=
  ⟨rfl, rfl, rfl, rfl, rfl, id⟩

theorem unmoved_handOn (publishIoValue : IoSource (SourceProperties Props) Nat → IoValue Raw Json →
    Except Text (Option (IoValueEvent Raw Json))) (now : Nat) (item : IoSourceItems Props Raw Json)
    (value : IoValue Raw Json) : Unmoved item (item.handOn publishIoValue now value) := by
  cases hpublish : publishIoValue item.source value with
  | ok event =>
    rw [handOn_of_ok item hpublish]
    exact ⟨rfl, rfl, rfl, rfl, rfl, id⟩
  | error error =>
    rw [handOn_of_error item hpublish]
    exact ⟨rfl, rfl, rfl, rfl, rfl, fun _ => rfl⟩

theorem unmoved_next (publishIoValue : IoSource (SourceProperties Props) Nat → IoValue Raw Json →
    Except Text (Option (IoValueEvent Raw Json))) (now : Nat) (item : IoSourceItems Props Raw Json)
    (value : IoValue Raw Json) : Unmoved item (item.next publishIoValue now value) := by
  rw [next]
  cases hsub : item.updateSubscription with
  | none => exact Unmoved.refl item
  | some sub =>
    dsimp only
    split
    · have h := unmoved_handOn publishIoValue now (item.record now (.scheduled value)) value
      exact ⟨h.source, h.isSubscribed, h.stateSubscriptions, h.association, h.updateRate, h.closed⟩
    · refine ⟨rfl, rfl, rfl, rfl, rfl, fun hnone => ?_⟩
      cases hsub.symm.trans hnone

theorem unmoved_elapse (publishIoValue : IoSource (SourceProperties Props) Nat → IoValue Raw Json →
    Except Text (Option (IoValueEvent Raw Json))) (now : Nat) (item : IoSourceItems Props Raw Json)
    (rx : Operators (IoValue Raw Json)) : Unmoved item (item.elapse publishIoValue now rx) := by
  rw [elapse]
  split
  · exact Unmoved.refl item
  · exact unmoved_handOn publishIoValue now item _

/-! ### Registration -/

theorem Keeps.deregister (h : item.Keeps now) : (item.deregister now).Keeps now := by
  refine ⟨paced_append.mpr ⟨h.paced, h.settled.admits nofun nofun⟩, fun _ => ?_, nofun, nofun⟩
  rw [IoSourceItems.deregister, record, status_append]
  rfl

theorem updateUpdateRateObservable_frame (now : Nat) (item : IoSourceItems Props Raw Json) :
    (item.updateUpdateRateObservable now).source = item.source ∧
      (item.updateUpdateRateObservable now).isSubscribed = item.isSubscribed ∧
      (item.updateUpdateRateObservable now).strayStateSubscriptions = item.strayStateSubscriptions ∧
      (item.updateUpdateRateObservable now).association = item.association ∧
      (item.updateUpdateRateObservable now).updateRate = item.updateRate := by
  rw [updateUpdateRateObservable]
  split <;> exact ⟨rfl, rfl, rfl, rfl, rfl⟩

theorem closed_updateUpdateRateObservable (now : Nat) {item : IoSourceItems Props Raw Json}
    (h : item.association = false) : (item.updateUpdateRateObservable now).updateSubscription = none := by
  rw [updateUpdateRateObservable, if_neg (by rw [h]; exact Bool.false_ne_true)]
  rfl

theorem Keeps.dispatchComplete (h : item.Keeps now) : item.dispatchComplete.Keeps now :=
  ⟨h.paced, h.closed, h.subscribed, nofun⟩

theorem onIoStateChanged_updateLog (now : Nat) (item : IoSourceItems Props Raw Json) (state : IoState Nat) (observers : Nat) :
    (onIoStateChanged now { item with strayStateSubscriptions := observers, isSubscribed := true } state).updateLog
      = (item.onIoStateChanged now state).updateLog := by
  rw [onIoStateChanged, onIoStateChanged]
  split
  · rw [updateUpdateRateObservable, updateUpdateRateObservable]
    split <;> rfl
  · rfl

theorem Keeps.reregister (h : item.Keeps now) (state : IoState Nat) : (item.reregister now state).Keeps now := by
  have hlog := onIoStateChanged_updateLog now item state item.stateSubscriptions
  have hchanged := h.onIoStateChanged state
  refine keeps_updateUpdateRateObservable ?_ ?_
  · exact hlog ▸ hchanged.paced
  · exact hlog ▸ hchanged.settled

structure Registered (source : IoSource (SourceProperties Props) Nat) (state : IoState Nat) (now : Nat)
    (item : IoSourceItems Props Raw Json) : Prop where
  keeps : item.Keeps now
  source : item.source = source
  isSubscribed : item.isSubscribed = true
  shows : ⟨item.association, item.updateRate⟩ = state
  closed : state.hasAssociations = false → item.updateSubscription = none

theorem registered_create (source : IoSource (SourceProperties Props) Nat) (state : IoState Nat) (now : Nat) :
    Registered source state now (create now source state : IoSourceItems Props Raw Json) := by
  rw [create]
  have hframe := updateUpdateRateObservable_frame now
    ({ source, isSubscribed := true, strayStateSubscriptions := 0, updateRate := state.updateRate
       association := state.hasAssociations, updateSubscription := none, updateLog := [], published := [] } :
      IoSourceItems Props Raw Json)
  refine ⟨keeps_updateUpdateRateObservable trivial ⟨nofun, nofun⟩, hframe.1, hframe.2.1, ?_,
    fun hstate => closed_updateUpdateRateObservable now hstate⟩
  rw [hframe.2.2.2.1, hframe.2.2.2.2]

theorem registered_reregister (h : item.Keeps now) (state : IoState Nat) :
    Registered item.source state now (item.reregister now state) := by
  have hchanged := onIoStateChanged_frame now
    { item with strayStateSubscriptions := item.stateSubscriptions, isSubscribed := true } state
  have hframe := updateUpdateRateObservable_frame now
    { onIoStateChanged now
        { item with strayStateSubscriptions := item.stateSubscriptions, isSubscribed := true } state with
      updateRate := state.updateRate, association := state.hasAssociations }
  refine ⟨h.reregister state, hframe.1.trans hchanged.1, hframe.2.1.trans hchanged.2.1, ?_,
    fun hstate => closed_updateUpdateRateObservable now hstate⟩
  exact congrArg₂ IoState.mk hframe.2.2.2.1 hframe.2.2.2.2

end IoSourceItems

namespace IoSourceController

variable {s : IoSourceController Props Raw Json}

/-- The log of every item is paced, and its observers show the state of the subject that they observe. -/
structure Mirrors (subject : Uuid → Option (IoState Nat)) (s : IoSourceController Props Raw Json) : Prop where
  source : ∀ id item, s.sourceItems.get id = some item → item.source.objectId = id
  keeps : ∀ id item, s.sourceItems.get id = some item → item.Keeps s.now
  shows : ∀ id item, s.sourceItems.get id = some item → 0 < item.stateSubscriptions →
    subject id = some ⟨item.association, item.updateRate⟩

/-- In every state between two events the observers show what the communication manager says, and there are update subscriptions only while it is started. -/
structure Sound (s : IoSourceController Props Raw Json) : Prop where
  manager : Consistent s.agent.manager
  mirrors : Mirrors s.agent.manager.observedIoStateItems.get s
  started : s.operatingState = .started → ∀ id item, s.sourceItems.get id = some item → item.isSubscribed = true
  stopped : s.operatingState = .stopped → ∀ id item, s.sourceItems.get id = some item → item.updateSubscription = none
  unassociated : s.operatingState = .stopped → ∀ id, s.agent.manager.ioStateSubject id = ⟨false, none⟩

theorem Sound.of_unmoved {s' : IoSourceController Props Raw Json} (hs : Sound s) (hagent : s'.agent = s.agent)
    (hstate : s'.operatingState = s.operatingState)
    (h : ∀ id item', s'.sourceItems.get id = some item' → ∃ item, s.sourceItems.get id = some item ∧
      IoSourceItems.Unmoved item item' ∧ item'.Keeps s'.now) : Sound s' := by
  refine ⟨hagent ▸ hs.manager, ⟨?_, ?_, ?_⟩, ?_, ?_, ?_⟩
  · intro id item' hitem'
    obtain ⟨item, hitem, hunmoved, _⟩ := h id item' hitem'
    rw [hunmoved.source]
    exact hs.mirrors.source id item hitem
  · intro id item' hitem'
    obtain ⟨item, hitem, _, hkeeps⟩ := h id item' hitem'
    exact hkeeps
  · intro id item' hitem' hobserved
    obtain ⟨item, hitem, hunmoved, _⟩ := h id item' hitem'
    rw [hunmoved.association, hunmoved.updateRate, hagent]
    exact hs.mirrors.shows id item hitem (hunmoved.stateSubscriptions ▸ hobserved)
  · intro hstarted id item' hitem'
    obtain ⟨item, hitem, hunmoved, _⟩ := h id item' hitem'
    rw [hunmoved.isSubscribed]
    exact hs.started (hstate ▸ hstarted) id item hitem
  · intro hstopped id item' hitem'
    obtain ⟨item, hitem, hunmoved, _⟩ := h id item' hitem'
    exact hunmoved.closed (hs.stopped (hstate ▸ hstopped) id item hitem)
  · intro hstopped
    rw [hagent]
    exact hs.unassociated (hstate ▸ hstopped)

theorem checksFormat_publishIoValue (agent : IoAgent (SourceProperties Props) Nat Raw Json) :
    IoSourceItems.ChecksFormat agent.publishIoValue := by
  intro source value error herror
  rw [IoAgent.publishIoValue] at herror
  split at herror
  · cases herror
  · assumption

theorem Sound.observeIoState (hs : Sound s) (ioPointId : Uuid) : Sound (s.observeIoState ioPointId) := by
  refine ⟨step_consistent _ (.observeIoState ioPointId) hs.manager, ⟨hs.mirrors.source, hs.mirrors.keeps, ?_⟩, hs.started,
    hs.stopped, ?_⟩
  · intro id item hitem hobserved
    exact get_observeIoState_of_some (hs.mirrors.shows id item hitem hobserved)
  · intro hstopped id
    exact (ioStateSubject_observeIoState ioPointId id).trans (hs.unassociated hstopped id)

theorem Sound.ensureRegistered (hs : Sound s) (source : IoSource (SourceProperties Props) Nat) :
    Sound (s.ensureRegistered source) := by
  rw [IoSourceController.ensureRegistered]
  cases hitem : s.sourceItems.get source.objectId with
  | some item => exact hs
  | none =>
    let state := s.agent.manager.ioStateSubject source.objectId
    have hcreated := @IoSourceItems.registered_create Props Raw Json source state s.now
    have hs₁ := hs.observeIoState source.objectId
    have hget : ∀ id item', (s.sourceItems.set source.objectId (IoSourceItems.create s.now source state)).get id = some item' →
        id = source.objectId ∧ item' = IoSourceItems.create s.now source state ∨ s.sourceItems.get id = some item' := by
      intro id item' hitem'
      rw [Map.get_set] at hitem'
      split at hitem'
      · exact Or.inl ⟨‹_›, (Option.some.inj hitem').symm⟩
      · exact Or.inr hitem'
    refine ⟨hs₁.manager, ⟨?_, ?_, ?_⟩, ?_, ?_, hs₁.unassociated⟩
    · intro id item' hitem'
      rcases hget id item' hitem' with ⟨rfl, rfl⟩ | hitem
      · rw [hcreated.source]
      · exact hs₁.mirrors.source id item' hitem
    · intro id item' hitem'
      rcases hget id item' hitem' with ⟨rfl, rfl⟩ | hitem
      · exact hcreated.keeps
      · exact hs₁.mirrors.keeps id item' hitem
    · intro id item' hitem' hobserved
      rcases hget id item' hitem' with ⟨rfl, rfl⟩ | hitem
      · rw [hcreated.shows]
        exact (get_observeIoState _ _).trans (if_pos rfl)
      · exact hs₁.mirrors.shows id item' hitem hobserved
    · intro hstarted id item' hitem'
      rcases hget id item' hitem' with ⟨rfl, rfl⟩ | hitem
      · exact hcreated.isSubscribed
      · exact hs₁.started hstarted id item' hitem
    · intro hstopped id item' hitem'
      rcases hget id item' hitem' with ⟨rfl, rfl⟩ | hitem
      · exact hcreated.closed (congrArg IoState.hasAssociations (hs.unassociated hstopped source.objectId))
      · exact hs₁.stopped hstopped id item' hitem

theorem Sound.publish (hs : Sound s) (source : IoSource (SourceProperties Props) Nat) (value : IoValue Raw Json) :
    Sound (s.publish source value) := by
  have hs₁ := hs.ensureRegistered source
  rw [IoSourceController.publish]
  refine hs₁.of_unmoved rfl rfl fun id item' hitem' => ?_
  obtain ⟨item, hitem, ⟨_, rfl⟩ | ⟨_, rfl⟩⟩ := Map.exists_of_get_modify hitem'
  · have hkeeps := hs₁.mirrors.keeps id item hitem
    refine ⟨item, hitem, ?_, ?_⟩
    · split
      · exact IoSourceItems.unmoved_next _ _ item value
      · exact IoSourceItems.Unmoved.refl item
    · split
      · exact hkeeps.next (checksFormat_publishIoValue _) value
      · exact hkeeps
  · exact ⟨item', hitem, IoSourceItems.Unmoved.refl item', hs₁.mirrors.keeps id item' hitem⟩

theorem Sound.elapse {rx : Operators (IoValue Raw Json)} (hrx : rx.Documented) (hs : Sound s) : Sound (s.elapse rx) := by
  refine hs.of_unmoved rfl rfl fun id item' hitem' => ?_
  rw [IoSourceController.elapse] at hitem'
  dsimp only at hitem'
  rw [Map.get_mapValues, Option.map_eq_some_iff] at hitem'
  obtain ⟨item, hitem, rfl⟩ := hitem'
  exact ⟨item, hitem, IoSourceItems.unmoved_elapse _ _ item rx,
    (hs.mirrors.keeps id item hitem).elapse (checksFormat_publishIoValue _) hrx⟩

/-! ### IO states -/

theorem mirrors_foldl_dispatchIoState (events : List (Uuid × IoState Nat)) {subject : Uuid → Option (IoState Nat)}
    (h : Mirrors subject s) :
    Mirrors (fun id => events.foldl (afterIoStateEvent id) (subject id)) (events.foldl dispatchIoState s) ∧
      (events.foldl dispatchIoState s).agent = s.agent ∧
      (events.foldl dispatchIoState s).operatingState = s.operatingState ∧
      ∀ id item', (events.foldl dispatchIoState s).sourceItems.get id = some item' →
        ∃ item, s.sourceItems.get id = some item ∧ item'.isSubscribed = item.isSubscribed := by
  induction events generalizing s subject with
  | nil => exact ⟨h, rfl, rfl, fun id item' hitem => ⟨item', hitem, rfl⟩⟩
  | cons event events ih =>
    have hfirst : Mirrors (fun id => afterIoStateEvent id (subject id) event) (s.dispatchIoState event) := by
      refine ⟨?_, ?_, ?_⟩
      · intro id item' hitem'
        obtain ⟨item, hitem, ⟨_, rfl⟩ | ⟨_, rfl⟩⟩ := Map.exists_of_get_modify hitem'
        · rw [(IoSourceItems.told_dispatchNext s.now item event.2).source]
          exact h.source id item hitem
        · exact h.source id item' hitem
      · intro id item' hitem'
        obtain ⟨item, hitem, ⟨_, rfl⟩ | ⟨_, rfl⟩⟩ := Map.exists_of_get_modify hitem'
        · exact (IoSourceItems.told_dispatchNext s.now item event.2).keeps (h.keeps id item hitem)
        · exact h.keeps id item' hitem
      · intro id item' hitem' hobserved
        rw [afterIoStateEvent]
        obtain ⟨item, hitem, ⟨hid, rfl⟩ | ⟨hid, rfl⟩⟩ := Map.exists_of_get_modify hitem'
        · have htold := IoSourceItems.told_dispatchNext s.now item event.2
          rw [if_pos hid.symm, htold.shows (htold.stateSubscriptions ▸ hobserved)]
        · rw [if_neg fun heq => hid heq.symm]
          exact h.shows id item' hitem hobserved
    obtain ⟨hmirrors, hagent, hstate, hsubscribed⟩ := ih hfirst
    refine ⟨hmirrors, hagent, hstate, fun id item' hitem' => ?_⟩
    obtain ⟨item₁, hitem₁, heq⟩ := hsubscribed id item' hitem'
    obtain ⟨item, hitem, ⟨_, rfl⟩ | ⟨_, rfl⟩⟩ := Map.exists_of_get_modify hitem₁
    · exact ⟨item, hitem, heq.trans (IoSourceItems.told_dispatchNext s.now item event.2).isSubscribed⟩
    · exact ⟨item₁, hitem, heq⟩

theorem Sound.handleAssociate (hs : Sound s) (data : AssociateEventData Nat) : Sound (s.handleAssociate data) := by
  cases hstate : s.operatingState with
  | stopped =>
    rw [IoSourceController.handleAssociate, hstate]
    exact hs
  | started =>
    let s₁ := { s with agent := { s.agent with manager := s.agent.manager.handleAssociate data } }
    have hmirrors : Mirrors s.agent.manager.observedIoStateItems.get s₁ :=
      ⟨hs.mirrors.source, hs.mirrors.keeps, hs.mirrors.shows⟩
    obtain ⟨hmirrors', hagent, hstate', hsubscribed⟩ :=
      mirrors_foldl_dispatchIoState (s.agent.manager.ioStateEvents data) hmirrors
    have hrunning : ((s.agent.manager.ioStateEvents data).foldl dispatchIoState s₁).operatingState = .started :=
      hstate'.trans hstate
    have hhandled : s.handleAssociate data = (s.agent.manager.ioStateEvents data).foldl dispatchIoState s₁ := by
      rw [IoSourceController.handleAssociate, hstate]
      dsimp only [s₁]
      rw [hstate]
    rw [hhandled]
    refine ⟨?_, ?_, fun _ id item' hitem' => ?_, fun hstopped => ?_, fun hstopped => ?_⟩
    · rw [hagent]
      exact step_consistent _ (.associate data) hs.manager
    · rw [hagent]
      have hsubject : (s.agent.manager.handleAssociate data).observedIoStateItems.get
          = fun id => (s.agent.manager.ioStateEvents data).foldl (afterIoStateEvent id)
            (s.agent.manager.observedIoStateItems.get id) :=
        funext fun id => get_handleAssociate_foldl hs.manager data id
      exact hsubject ▸ hmirrors'
    · obtain ⟨item, hitem, heq⟩ := hsubscribed id item' hitem'
      exact heq.trans (hs.started hstate id item hitem)
    · cases hrunning.symm.trans hstopped
    · cases hrunning.symm.trans hstopped

/-! ### Starting and stopping -/

theorem foldl_reregister (ids : List Uuid) (hm : Consistent s.agent.manager)
    (h : Mirrors s.agent.manager.observedIoStateItems.get s) :
    Consistent (ids.foldl reregister s).agent.manager ∧
      Mirrors (ids.foldl reregister s).agent.manager.observedIoStateItems.get (ids.foldl reregister s) ∧
      (ids.foldl reregister s).operatingState = s.operatingState ∧
      ∀ id item', (ids.foldl reregister s).sourceItems.get id = some item' →
        ∃ item, s.sourceItems.get id = some item ∧ (item.isSubscribed = true ∨ id ∈ ids → item'.isSubscribed = true) := by
  induction ids generalizing s with
  | nil =>
    refine ⟨hm, h, rfl, fun id item' hitem => ⟨item', hitem, ?_⟩⟩
    rintro (hsubscribed | hmem)
    · exact hsubscribed
    · cases hmem
  | cons sourceId ids ih =>
    let state := s.agent.manager.ioStateSubject sourceId
    have hget : ∀ id item', (s.reregister sourceId).sourceItems.get id = some item' → ∃ item,
        s.sourceItems.get id = some item ∧
          (id = sourceId ∧ IoSourceItems.Registered item.source state s.now item' ∨ id ≠ sourceId ∧ item' = item) := by
      intro id item' hitem'
      obtain ⟨item, hitem, ⟨hid, rfl⟩ | ⟨hid, rfl⟩⟩ := Map.exists_of_get_modify hitem'
      · exact ⟨item, hitem, Or.inl ⟨hid, IoSourceItems.registered_reregister (h.keeps id item hitem) state⟩⟩
      · exact ⟨item', hitem, Or.inr ⟨hid, rfl⟩⟩
    have hm₁ : Consistent (s.reregister sourceId).agent.manager := step_consistent _ (.observeIoState sourceId) hm
    have hfirst : Mirrors (s.reregister sourceId).agent.manager.observedIoStateItems.get (s.reregister sourceId) := by
      refine ⟨?_, ?_, ?_⟩
      · intro id item' hitem'
        obtain ⟨item, hitem, ⟨_, hregistered⟩ | ⟨_, rfl⟩⟩ := hget id item' hitem'
        · rw [hregistered.source]
          exact h.source id item hitem
        · exact h.source id item' hitem
      · intro id item' hitem'
        obtain ⟨item, hitem, ⟨_, hregistered⟩ | ⟨_, rfl⟩⟩ := hget id item' hitem'
        · exact hregistered.keeps
        · exact h.keeps id item' hitem
      · intro id item' hitem' hobserved
        obtain ⟨item, hitem, ⟨rfl, hregistered⟩ | ⟨_, rfl⟩⟩ := hget id item' hitem'
        · rw [hregistered.shows]
          exact (get_observeIoState _ _).trans (if_pos rfl)
        · exact get_observeIoState_of_some (h.shows id item' hitem hobserved)
    obtain ⟨hm', hmirrors, hstate, hsubscribed⟩ := ih hm₁ hfirst
    refine ⟨hm', hmirrors, hstate, fun id item' hitem' => ?_⟩
    obtain ⟨item₁, hitem₁, himp⟩ := hsubscribed id item' hitem'
    obtain ⟨item, hitem, ⟨hid, hregistered⟩ | ⟨hid, rfl⟩⟩ := hget id item₁ hitem₁
    · exact ⟨item, hitem, fun _ => himp (Or.inl hregistered.isSubscribed)⟩
    · refine ⟨item₁, hitem, fun hor => himp (hor.imp_right fun hmem => ?_)⟩
      exact (List.mem_cons.mp hmem).resolve_left hid

theorem Sound.start (hs : Sound s) : Sound s.start := by
  rw [IoSourceController.start]
  cases hstate : s.operatingState with
  | started => exact hs
  | stopped =>
    obtain ⟨hm, hmirrors, hstarted, hsubscribed⟩ := foldl_reregister (s := { s with operatingState := .started })
      s.sourceItems.keys hs.manager ⟨hs.mirrors.source, hs.mirrors.keeps, hs.mirrors.shows⟩
    dsimp only
    refine ⟨hm, hmirrors, fun _ id item' hitem' => ?_, fun hstopped => ?_, fun hstopped => ?_⟩
    · obtain ⟨item, hitem, himp⟩ := hsubscribed id item' hitem'
      exact himp (Or.inr (Map.mem_keys.mpr ⟨item, hitem⟩))
    · cases hstarted.symm.trans hstopped
    · cases hstarted.symm.trans hstopped

theorem foldl_completeIoState (ids : List Uuid) {subject : Uuid → Option (IoState Nat)} (h : Mirrors subject s)
    (hclosed : ∀ id item, s.sourceItems.get id = some item → item.updateSubscription = none) :
    Mirrors subject (ids.foldl completeIoState s) ∧ (ids.foldl completeIoState s).agent = s.agent ∧
      (ids.foldl completeIoState s).operatingState = s.operatingState ∧
      ∀ id item', (ids.foldl completeIoState s).sourceItems.get id = some item' → item'.updateSubscription = none ∧
        (id ∈ ids → item'.stateSubscriptions = 0) ∧
        ∃ item, s.sourceItems.get id = some item ∧ (item.stateSubscriptions = 0 → item'.stateSubscriptions = 0) := by
  induction ids generalizing s with
  | nil => exact ⟨h, rfl, rfl, fun id item' hitem => ⟨hclosed id item' hitem, nofun, item', hitem, fun h => h⟩⟩
  | cons pointId ids ih =>
    have hfirst : Mirrors subject (s.completeIoState pointId) := by
      refine ⟨?_, ?_, ?_⟩
      · intro id item' hitem'
        obtain ⟨item, hitem, ⟨_, rfl⟩ | ⟨_, rfl⟩⟩ := Map.exists_of_get_modify hitem'
        · exact (congrArg IoPoint.objectId (IoSourceItems.told_dispatchNext s.now item ⟨false, none⟩).source).trans
            (h.source id item hitem)
        · exact h.source id item' hitem
      · intro id item' hitem'
        obtain ⟨item, hitem, ⟨_, rfl⟩ | ⟨_, rfl⟩⟩ := Map.exists_of_get_modify hitem'
        · exact ((IoSourceItems.told_dispatchNext s.now item ⟨false, none⟩).keeps (h.keeps id item hitem)).dispatchComplete
        · exact h.keeps id item' hitem
      · intro id item' hitem' hobserved
        obtain ⟨item, hitem, ⟨_, rfl⟩ | ⟨_, rfl⟩⟩ := Map.exists_of_get_modify hitem'
        · exact absurd hobserved (lt_irrefl 0)
        · exact h.shows id item' hitem hobserved
    have hclosed₁ : ∀ id item', (s.completeIoState pointId).sourceItems.get id = some item' →
        item'.updateSubscription = none := by
      intro id item' hitem'
      obtain ⟨item, hitem, ⟨_, rfl⟩ | ⟨_, rfl⟩⟩ := Map.exists_of_get_modify hitem'
      · exact (IoSourceItems.told_dispatchNext s.now item ⟨false, none⟩).closed rfl (hclosed id item hitem)
      · exact hclosed id item' hitem
    obtain ⟨hmirrors, hagent, hstate, hcompleted⟩ := ih hfirst hclosed₁
    refine ⟨hmirrors, hagent, hstate, fun id item' hitem' => ?_⟩
    obtain ⟨hnone, hmem, item₁, hitem₁, himp⟩ := hcompleted id item' hitem'
    obtain ⟨item, hitem, ⟨hid, rfl⟩ | ⟨hid, rfl⟩⟩ := Map.exists_of_get_modify hitem₁
    · exact ⟨hnone, fun _ => himp rfl, item, hitem, fun _ => himp rfl⟩
    · exact ⟨hnone, fun h => hmem ((List.mem_cons.mp h).resolve_left hid), item₁, hitem, himp⟩

theorem mirrors_deregisterAll {subject : Uuid → Option (IoState Nat)} (h : Mirrors subject s) :
    Mirrors subject s.deregisterAll ∧
      ∀ id item', s.deregisterAll.sourceItems.get id = some item' → item'.updateSubscription = none := by
  have hget : ∀ id item', s.deregisterAll.sourceItems.get id = some item' →
      ∃ item, s.sourceItems.get id = some item ∧ item' = item.deregister s.now := by
    intro id item' hitem'
    rw [deregisterAll, Map.get_mapValues, Option.map_eq_some_iff] at hitem'
    obtain ⟨item, hitem, heq⟩ := hitem'
    exact ⟨item, hitem, heq.symm⟩
  refine ⟨⟨?_, ?_, ?_⟩, ?_⟩
  · intro id item' hitem'
    obtain ⟨item, hitem, rfl⟩ := hget id item' hitem'
    exact h.source id item hitem
  · intro id item' hitem'
    obtain ⟨item, hitem, rfl⟩ := hget id item' hitem'
    exact (h.keeps id item hitem).deregister
  · intro id item' hitem' hobserved
    obtain ⟨item, hitem, rfl⟩ := hget id item' hitem'
    -- Stray subscriptions are left alone.
    exact h.shows id item hitem (Nat.lt_of_lt_of_le hobserved (Nat.add_le_add_left (Nat.zero_le _) _))
  · intro id item' hitem'
    obtain ⟨item, hitem, rfl⟩ := hget id item' hitem'
    rfl

theorem sound_unobserveIoState (hm : Consistent s.agent.manager)
    (h : Mirrors s.agent.manager.observedIoStateItems.get s) (hstate : s.operatingState = .stopped)
    (hclosed : ∀ id item, s.sourceItems.get id = some item → item.updateSubscription = none) :
    Sound s.unobserveIoState := by
  obtain ⟨hmirrors, hagent, hstate', hcompleted⟩ :=
    foldl_completeIoState s.agent.manager.observedIoStateItems.keys h hclosed
  have hunobserved : ∀ id item, s.unobserveIoState.sourceItems.get id = some item → item.stateSubscriptions = 0 := by
    intro id item hitem
    by_contra hobserved
    have hshown := hmirrors.shows id item hitem (Nat.pos_of_ne_zero hobserved)
    exact hobserved ((hcompleted id item hitem).2.1 (Map.mem_keys.mpr ⟨_, hshown⟩))
  refine ⟨consistent_initObservedItems hm, ⟨hmirrors.source, hmirrors.keeps, ?_⟩, ?_,
    fun _ id item hitem => (hcompleted id item hitem).1, fun _ _ => rfl⟩
  · intro id item hitem hobserved
    exact absurd (hunobserved id item hitem) (Nat.pos_iff_ne_zero.mp hobserved)
  · intro hstarted
    cases (hstate'.trans hstate).symm.trans hstarted

theorem Sound.stop (hs : Sound s) : Sound s.stop := by
  cases hstate : s.operatingState with
  | started =>
    have hmirrors : Mirrors s.agent.manager.observedIoStateItems.get { s with operatingState := .stopped } :=
      ⟨hs.mirrors.source, hs.mirrors.keeps, hs.mirrors.shows⟩
    obtain ⟨hderegistered, hclosed⟩ := mirrors_deregisterAll hmirrors
    rw [IoSourceController.stop, hstate]
    exact sound_unobserveIoState hs.manager hderegistered rfl hclosed
  | stopped =>
    rw [IoSourceController.stop, hstate]
    exact sound_unobserveIoState hs.manager hs.mirrors hstate (hs.stopped hstate)

/-! ### Whole runs -/

theorem sound_init (ioNodes : List (OwnIoNode (SourceProperties Props) Nat)) :
    Sound (init ioNodes : IoSourceController Props Raw Json) := by
  have hnone : ∀ id item, (init ioNodes : IoSourceController Props Raw Json).sourceItems.get id ≠ some item := by
    intro id item hitem
    cases hitem
  exact ⟨start_consistent ioNodes, ⟨fun id item h => absurd h (hnone id item), fun id item h => absurd h (hnone id item),
    fun id item h => absurd h (hnone id item)⟩, fun _ id item h => absurd h (hnone id item),
    fun _ id item h => absurd h (hnone id item), fun _ _ => rfl⟩

theorem sound_step {rx : Operators (IoValue Raw Json)} (hrx : rx.Documented) (event : Event Props Raw Json)
    (hs : Sound s) : Sound (s.step rx event) := by
  cases event with
  | associate data => exact hs.handleAssociate data
  | observeIoState ioPointId => exact hs.observeIoState ioPointId
  | register source => exact hs.ensureRegistered source
  | publish source value => exact hs.publish source value
  | elapse => exact hs.elapse hrx
  | start => exact hs.start
  | stop => exact hs.stop

end IoSourceController

end Coaty
