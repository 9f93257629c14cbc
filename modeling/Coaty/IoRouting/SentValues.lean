import Coaty.IoRouting.PacedPublishing

/-!
# Sent values

In every run of an IO source controller the values that the application publishes are scheduled while there are associations, and those of each source are published at the pace of its IO state. As long as no Associate event takes the source for an actor, a source that shows associations has a route, and so all values of its log that are in the right format have been handed to the binding.
-/

namespace Coaty

open Js Pacing Transition CommunicationManager

variable {Props Raw Json : Type}

namespace IoSourceItems

variable {item item' : IoSourceItems Props Raw Json} {now : Nat}

/-- All published values in the format of the source have been handed to the binding. -/
def Sends (item : IoSourceItems Props Raw Json) : Prop :=
  item.published.map IoValueEvent.payload
    = (Pacing.publications item.updateLog).filter fun value => value.isRaw = item.source.useRawIoValues.getD false

/-- Nothing has been scheduled or published in between. -/
structure Unsent (item item' : IoSourceItems Props Raw Json) : Prop where
  source : item'.source = item.source
  published : item'.published = item.published
  publications : Pacing.publications item'.updateLog = Pacing.publications item.updateLog
  schedulings : Pacing.schedulings item'.updateLog = Pacing.schedulings item.updateLog

theorem Unsent.refl (item : IoSourceItems Props Raw Json) : Unsent item item := ⟨rfl, rfl, rfl, rfl⟩

theorem Unsent.trans {item'' : IoSourceItems Props Raw Json} (h : Unsent item item') (h' : Unsent item' item'') :
    Unsent item item'' :=
  ⟨h'.source.trans h.source, h'.published.trans h.published, h'.publications.trans h.publications,
    h'.schedulings.trans h.schedulings⟩

theorem Unsent.sends (h : Unsent item item') (hsends : item.Sends) : item'.Sends := by
  rw [Sends, h.source, h.published, h.publications]
  exact hsends

theorem unsent_record (now : Nat) (item : IoSourceItems Props Raw Json) (act : Act (IoValue Raw Json))
    (hpublication : act.publication = none) (hscheduled : act.isScheduled = false) :
    Unsent item (item.record now act) := by
  refine ⟨rfl, rfl, ?_, ?_⟩
  · rw [record, Pacing.publications_append, hpublication, Option.toList_none, List.append_nil]
  · simp [record, hscheduled]

theorem unsent_updateUpdateRateObservable (now : Nat) (item : IoSourceItems Props Raw Json) :
    Unsent item (item.updateUpdateRateObservable now) := by
  rw [updateUpdateRateObservable]
  split
  · have h := unsent_record now
      { item with updateSubscription := some ⟨piping item.source item.updateRate, now, []⟩ }
      (.opened (piping item.source item.updateRate).limit) rfl rfl
    exact ⟨h.source, h.published, h.publications, h.schedulings⟩
  · have h := unsent_record now { item with updateSubscription := none } .closed rfl rfl
    exact ⟨h.source, h.published, h.publications, h.schedulings⟩

theorem unsent_onIoStateChanged (now : Nat) (item : IoSourceItems Props Raw Json) (state : IoState Nat) :
    Unsent item (item.onIoStateChanged now state) := by
  rw [onIoStateChanged]
  split
  · have h := unsent_updateUpdateRateObservable now
      { item with association := state.hasAssociations, updateRate := state.updateRate }
    exact ⟨h.source, h.published, h.publications, h.schedulings⟩
  · exact Unsent.refl item

theorem unsent_dispatchNext (now : Nat) (item : IoSourceItems Props Raw Json) (state : IoState Nat) :
    Unsent item (item.dispatchNext now state) := by
  rw [dispatchNext]
  induction item.stateSubscriptions with
  | zero => exact Unsent.refl item
  | succ observers ih =>
    rw [Function.iterate_succ_apply']
    exact ih.trans (unsent_onIoStateChanged now _ state)

theorem unsent_dispatchComplete (item : IoSourceItems Props Raw Json) : Unsent item item.dispatchComplete :=
  ⟨rfl, rfl, rfl, rfl⟩

theorem unsent_reregister (now : Nat) (item : IoSourceItems Props Raw Json) (state : IoState Nat) :
    Unsent item (item.reregister now state) := by
  have hchanged := unsent_onIoStateChanged now
    { item with strayStateSubscriptions := item.stateSubscriptions, isSubscribed := true } state
  have hupdated := unsent_updateUpdateRateObservable now
    { onIoStateChanged now
        { item with strayStateSubscriptions := item.stateSubscriptions, isSubscribed := true } state with
      updateRate := state.updateRate, association := state.hasAssociations }
  exact ⟨hupdated.source.trans hchanged.source, hupdated.published.trans hchanged.published,
    hupdated.publications.trans hchanged.publications, hupdated.schedulings.trans hchanged.schedulings⟩

theorem unsent_deregister (now : Nat) (item : IoSourceItems Props Raw Json) : Unsent item (item.deregister now) := by
  have h := unsent_record now { item with isSubscribed := false, updateSubscription := none } .closed rfl rfl
  exact ⟨h.source, h.published, h.publications, h.schedulings⟩

theorem sends_create (source : IoSource (SourceProperties Props) Nat) (state : IoState Nat) (now : Nat) :
    (create now source state : IoSourceItems Props Raw Json).Sends :=
  (unsent_updateUpdateRateObservable now _).sends rfl

/-! ### Publishing -/

variable {publishIoValue : IoSource (SourceProperties Props) Nat → IoValue Raw Json →
  Except Text (Option (IoValueEvent Raw Json))}

/-- The values of a source that is routed are published if they are in its format. -/
def PublishesFor (publishIoValue : IoSource (SourceProperties Props) Nat → IoValue Raw Json →
    Except Text (Option (IoValueEvent Raw Json))) (source : IoSource (SourceProperties Props) Nat) : Prop :=
  ∀ value, if value.isRaw = source.useRawIoValues.getD false
    then ∃ event, publishIoValue source value = .ok (some event) ∧ event.payload = value
    else ∃ error, publishIoValue source value = .error error

theorem sends_handOn (item : IoSourceItems Props Raw Json) (hpublishes : PublishesFor publishIoValue item.source) (hsends : item.Sends)
    (value : IoValue Raw Json) : (item.handOn publishIoValue now value).Sends := by
  have hpublish := hpublishes value
  have hpublications : Pacing.publications (item.updateLog ++ [⟨now, .published value⟩])
      = Pacing.publications item.updateLog ++ [value] := Pacing.publications_append _ _
  by_cases hformat : value.isRaw = item.source.useRawIoValues.getD false
  · rw [if_pos hformat] at hpublish
    obtain ⟨event, hok, hpayload⟩ := hpublish
    rw [handOn_of_ok item hok, Sends, record]
    dsimp only
    rw [hpublications, List.filter_append, ← hsends, List.map_append]
    simp [hformat, hpayload]
  · rw [if_neg hformat] at hpublish
    obtain ⟨error, herror⟩ := hpublish
    rw [handOn_of_error item herror]
    refine (unsent_record now _ _ rfl rfl).sends ?_
    rw [Sends, record]
    dsimp only
    rw [hpublications, List.filter_append, ← hsends]
    simp [hformat]

theorem sends_next (hpublishes : item.updateSubscription ≠ none → PublishesFor publishIoValue item.source)
    (hsends : item.Sends) (value : IoValue Raw Json) :
    (item.next publishIoValue now value).Sends := by
  rw [next]
  cases hsub : item.updateSubscription with
  | none => exact hsends
  | some sub =>
    have hpublishes := hpublishes (by rw [hsub]; exact Option.some_ne_none sub)
    have hscheduled : (item.record now (.scheduled value)).Sends := by
      rw [Sends, record, Pacing.publications_append]
      exact hsends.trans (by rw [show (Act.scheduled value).publication = none from rfl, Option.toList_none, List.append_nil])
    dsimp only
    split
    · exact sends_handOn (item.record now (.scheduled value)) hpublishes hscheduled value
    · exact hscheduled

theorem sends_elapse (hpublishes : item.updateSubscription ≠ none → PublishesFor publishIoValue item.source)
    (hsends : item.Sends) (rx : Operators (IoValue Raw Json)) :
    (item.elapse publishIoValue (now + 1) rx).Sends := by
  rw [elapse]
  cases hsub : item.updateSubscription with
  | none => exact hsends
  | some sub =>
    have hpublishes := hpublishes (by rw [hsub]; exact Option.some_ne_none sub)
    rw [Option.bind_some]
    cases sub.handsOn rx (now + 1) with
    | none => exact hsends
    | some value => exact sends_handOn item hpublishes hsends value

/-! ### Scheduling -/

theorem schedulings_handOn (publishIoValue : IoSource (SourceProperties Props) Nat → IoValue Raw Json →
    Except Text (Option (IoValueEvent Raw Json))) (now : Nat) (item : IoSourceItems Props Raw Json)
    (value : IoValue Raw Json) :
    Pacing.schedulings (item.handOn publishIoValue now value).updateLog = Pacing.schedulings item.updateLog := by
  have hpublished : Pacing.schedulings (item.record now (.published value)).updateLog
      = Pacing.schedulings item.updateLog := by
    simp [record, Act.isScheduled]
  rw [handOn]
  split
  · exact hpublished
  · exact (unsent_record now _ .closed rfl rfl).schedulings.trans hpublished

theorem schedulings_elapse (publishIoValue : IoSource (SourceProperties Props) Nat → IoValue Raw Json →
    Except Text (Option (IoValueEvent Raw Json))) (now : Nat) (item : IoSourceItems Props Raw Json)
    (rx : Operators (IoValue Raw Json)) :
    Pacing.schedulings (item.elapse publishIoValue now rx).updateLog = Pacing.schedulings item.updateLog := by
  rw [elapse]
  split
  · rfl
  · exact schedulings_handOn publishIoValue now item _

theorem schedulings_next (publishIoValue : IoSource (SourceProperties Props) Nat → IoValue Raw Json →
    Except Text (Option (IoValueEvent Raw Json))) (now : Nat) (item : IoSourceItems Props Raw Json)
    (value : IoValue Raw Json) :
    Pacing.schedulings (item.next publishIoValue now value).updateLog
      = Pacing.schedulings item.updateLog
        ++ if item.updateSubscription.isSome then [⟨now, .scheduled value⟩] else [] := by
  rw [next]
  cases hsub : item.updateSubscription with
  | none => simp
  | some sub =>
    have hrecord : Pacing.schedulings (item.record now (.scheduled value)).updateLog
        = Pacing.schedulings item.updateLog ++ [⟨now, .scheduled value⟩] := Pacing.schedulings_append _ _
    dsimp only
    split
    · exact (schedulings_handOn publishIoValue now _ value).trans hrecord
    · exact hrecord

theorem schedulings_create (source : IoSource (SourceProperties Props) Nat) (state : IoState Nat) (now : Nat) :
    Pacing.schedulings (create now source state : IoSourceItems Props Raw Json).updateLog = [] :=
  (unsent_updateUpdateRateObservable now _).schedulings

def HasPeriod (item : IoSourceItems Props Raw Json) : Bool := (status item.updateLog).limit.isSome

theorem Keeps.hasPeriod (h : item.Keeps now) :
    item.HasPeriod = item.updateSubscription.isSome ∧ (item.HasPeriod = true → item.association = true) := by
  rw [HasPeriod]
  cases hsub : item.updateSubscription with
  | none =>
    rw [h.closed hsub]
    exact ⟨rfl, fun h => absurd h Bool.false_ne_true⟩
  | some sub =>
    obtain ⟨hassociation, -, htracks⟩ := h.subscribed sub hsub
    rw [htracks.limit]
    exact ⟨rfl, fun _ => hassociation⟩

end IoSourceItems

namespace IoSourceController

variable {s s' : IoSourceController Props Raw Json} {id : Uuid}

/-! ### Frame -/

/-- Nothing has been scheduled or published in between, for no source. -/
def Unsent (s s' : IoSourceController Props Raw Json) : Prop :=
  ∀ id, Option.Rel IoSourceItems.Unsent (s.sourceItems.get id) (s'.sourceItems.get id)

theorem Unsent.refl (s : IoSourceController Props Raw Json) : Unsent s s := by
  intro id
  cases s.sourceItems.get id with
  | none => exact .none
  | some item => exact .some (IoSourceItems.Unsent.refl item)

theorem Unsent.trans {s'' : IoSourceController Props Raw Json} (h : Unsent s s') (h' : Unsent s' s'') : Unsent s s'' := by
  intro id
  have hfirst := h id
  have hsecond := h' id
  cases hitem : s.sourceItems.get id with
  | none =>
    rw [hitem] at hfirst
    cases hfirst' : s'.sourceItems.get id with
    | none => exact hfirst' ▸ hsecond
    | some item' =>
      rw [hfirst'] at hfirst
      cases hfirst
  | some item =>
    rw [hitem] at hfirst
    cases hfirst' : s'.sourceItems.get id with
    | none =>
      rw [hfirst'] at hfirst
      cases hfirst
    | some item' =>
      rw [hfirst'] at hfirst hsecond
      cases hfirst with
      | some hunsent =>
        cases hsecond' : s''.sourceItems.get id with
        | none =>
          rw [hsecond'] at hsecond
          cases hsecond
        | some item'' =>
          rw [hsecond'] at hsecond
          cases hsecond with
          | some hunsent' => exact .some (hunsent.trans hunsent')

theorem Unsent.item (h : Unsent s s') {item' : IoSourceItems Props Raw Json} (hitem' : s'.sourceItems.get id = some item') :
    ∃ item, s.sourceItems.get id = some item ∧ IoSourceItems.Unsent item item' := by
  have hid := h id
  rw [hitem'] at hid
  cases hitem : s.sourceItems.get id with
  | none =>
    rw [hitem] at hid
    cases hid
  | some item =>
    rw [hitem] at hid
    cases hid with
    | some hunsent => exact ⟨item, rfl, hunsent⟩

theorem unsent_map (f : IoSourceItems Props Raw Json → IoSourceItems Props Raw Json)
    (hf : ∀ item, IoSourceItems.Unsent item (f item)) (item : Option (IoSourceItems Props Raw Json)) :
    Option.Rel IoSourceItems.Unsent item (item.map f) := by
  cases item with
  | none => exact .none
  | some item => exact .some (hf item)

theorem unsent_update (s : IoSourceController Props Raw Json) (sourceId : Uuid)
    {f : IoSourceItems Props Raw Json → IoSourceItems Props Raw Json} (hf : ∀ item, IoSourceItems.Unsent item (f item)) :
    Unsent s (s.update sourceId f) := by
  intro id
  rw [update, Map.get_modify]
  split
  · exact unsent_map f hf _
  · exact Unsent.refl s id

theorem unsent_foldl {Label : Type} {f : IoSourceController Props Raw Json → Label → IoSourceController Props Raw Json}
    (hf : ∀ s label, Unsent s (f s label)) (labels : List Label) (s : IoSourceController Props Raw Json) :
    Unsent s (labels.foldl f s) := by
  exact invariant_foldl (I := Unsent s) (fun s₁ label h => h.trans (hf s₁ label)) (Unsent.refl s)

/-! ### Scheduling -/

/-- When which values of a source have been scheduled, oldest first. -/
def schedulings (s : IoSourceController Props Raw Json) (id : Uuid) : List (Entry (IoValue Raw Json)) :=
  (s.sourceItems.get id).elim [] fun item => Pacing.schedulings item.updateLog

def HasPeriod (s : IoSourceController Props Raw Json) (id : Uuid) : Bool :=
  (s.sourceItems.get id).any IoSourceItems.HasPeriod

/-- A value is scheduled if it is published in an open period of its source, which may be registered for it. -/
def Event.scheduling (s : IoSourceController Props Raw Json) (id : Uuid) :
    Event Props Raw Json → Option (Entry (IoValue Raw Json))
  | .publish source value =>
    if source.objectId = id ∧ (s.ensureRegistered source).HasPeriod id = true then some ⟨s.now, .scheduled value⟩ else none
  | _ => none

theorem schedulings_of_get {item : IoSourceItems Props Raw Json} (hitem : s.sourceItems.get id = some item) :
    s.schedulings id = Pacing.schedulings item.updateLog := by
  rw [schedulings, hitem]
  rfl

theorem Unsent.schedulings (h : Unsent s s') (id : Uuid) : s'.schedulings id = s.schedulings id := by
  rw [IoSourceController.schedulings, IoSourceController.schedulings]
  have hid := h id
  cases hitem : s.sourceItems.get id with
  | none =>
    cases hitem' : s'.sourceItems.get id with
    | none => rfl
    | some item' =>
      rw [hitem, hitem'] at hid
      cases hid
  | some item =>
    cases hitem' : s'.sourceItems.get id with
    | none =>
      rw [hitem, hitem'] at hid
      cases hid
    | some item' =>
      rw [hitem, hitem'] at hid
      cases hid with
      | some hunsent => exact hunsent.schedulings

theorem schedulings_ensureRegistered (s : IoSourceController Props Raw Json)
    (source : IoSource (SourceProperties Props) Nat) (id : Uuid) :
    (s.ensureRegistered source).schedulings id = s.schedulings id := by
  rw [ensureRegistered]
  cases hitem : s.sourceItems.get source.objectId with
  | some item => rfl
  | none =>
    rw [schedulings, schedulings]
    dsimp only
    rw [Map.get_set]
    by_cases hid : id = source.objectId
    · rw [if_pos hid, hid, hitem]
      exact IoSourceItems.schedulings_create source _ s.now
    · rw [if_neg hid]

theorem schedulings_publish (hs : Sound s) (source : IoSource (SourceProperties Props) Nat) (value : IoValue Raw Json)
    (id : Uuid) :
    (s.publish source value).schedulings id
      = s.schedulings id ++ (Event.scheduling s id (.publish source value)).toList := by
  have hs₁ := hs.ensureRegistered source
  have hnow : (s.ensureRegistered source).now = s.now := by
    rw [ensureRegistered]
    split <;> rfl
  rw [← schedulings_ensureRegistered s source id, publish, Event.scheduling]
  by_cases hid : source.objectId = id
  · subst hid
    cases hitem : (s.ensureRegistered source).sourceItems.get source.objectId with
    | none => simp [schedulings, HasPeriod, update, Map.get_modify, hitem]
    | some item =>
      obtain ⟨hperiod, hassociation⟩ := (hs₁.mirrors.keeps source.objectId item hitem).hasPeriod
      have hopen : (s.ensureRegistered source).HasPeriod source.objectId = item.HasPeriod := by
        rw [HasPeriod, hitem]
        rfl
      rw [schedulings_of_get hitem, hopen, hnow, schedulings, update, Map.get_modify, if_pos rfl, hitem]
      dsimp only [Option.map_some, Option.elim_some]
      by_cases hassociated : item.association = true
      · rw [if_pos hassociated, IoSourceItems.schedulings_next, ← hperiod]
        cases item.HasPeriod with
        | true => simp
        | false => simp
      · have hclosed : ¬ item.HasPeriod = true := fun h => hassociated (hassociation h)
        simp [hassociated, hclosed]
  · have hother : ¬ id = source.objectId := fun h => hid h.symm
    simp [schedulings, update, Map.get_modify, hid, hother]

theorem schedulings_elapse (s : IoSourceController Props Raw Json) (rx : Operators (IoValue Raw Json)) (id : Uuid) :
    (s.elapse rx).schedulings id = s.schedulings id := by
  rw [schedulings, schedulings, elapse]
  dsimp only
  rw [Map.get_mapValues]
  cases s.sourceItems.get id with
  | none => rfl
  | some item => exact IoSourceItems.schedulings_elapse _ _ item rx

theorem unsent_handleAssociate (s : IoSourceController Props Raw Json) (data : AssociateEventData Nat) :
    Unsent s (s.handleAssociate data) := by
  rw [handleAssociate]
  split
  · exact Unsent.refl s
  · have hdispatched : ∀ (s : IoSourceController Props Raw Json) event, Unsent s (s.dispatchIoState event) :=
      fun s event => unsent_update s event.1 fun item => IoSourceItems.unsent_dispatchNext s.now item event.2
    exact unsent_foldl hdispatched _ { s with agent := { s.agent with manager := s.agent.manager.handleAssociate data } }

theorem unsent_start (s : IoSourceController Props Raw Json) : Unsent s s.start := by
  rw [start]
  split
  · exact Unsent.refl s
  · exact unsent_foldl (fun s sourceId => unsent_update (s.observeIoState sourceId) sourceId fun item =>
      IoSourceItems.unsent_reregister s.now item _) _ { s with operatingState := .started }

theorem unsent_unobserveIoState (s : IoSourceController Props Raw Json) : Unsent s s.unobserveIoState :=
  unsent_foldl (fun s pointId => unsent_update s pointId fun item =>
    (IoSourceItems.unsent_dispatchNext s.now item ⟨false, none⟩).trans (IoSourceItems.unsent_dispatchComplete _)) _ s

theorem unsent_deregisterAll (s : IoSourceController Props Raw Json) : Unsent s s.deregisterAll := by
  intro id
  rw [deregisterAll, Map.get_mapValues]
  exact unsent_map _ (IoSourceItems.unsent_deregister s.now) _

theorem unsent_stop (s : IoSourceController Props Raw Json) : Unsent s s.stop := by
  rw [stop]
  split
  · have hderegistered := unsent_deregisterAll { s with operatingState := .stopped }
    exact hderegistered.trans (unsent_unobserveIoState _)
  · exact unsent_unobserveIoState s

theorem schedulings_step (hs : Sound s) (rx : Operators (IoValue Raw Json)) (event : Event Props Raw Json) (id : Uuid) :
    (s.step rx event).schedulings id = s.schedulings id ++ (event.scheduling s id).toList := by
  have hnone : s.schedulings id ++ [] = s.schedulings id := List.append_nil _
  cases event with
  | associate data => exact ((unsent_handleAssociate s data).schedulings id).trans hnone.symm
  | observeIoState ioPointId => exact hnone.symm
  | register source => exact (schedulings_ensureRegistered s source id).trans hnone.symm
  | publish source value => exact schedulings_publish hs source value id
  | elapse => exact (schedulings_elapse s rx id).trans hnone.symm
  | start => exact ((unsent_start s).schedulings id).trans hnone.symm
  | stop => exact ((unsent_stop s).schedulings id).trans hnone.symm

/-! ### Routes -/

/-- The source is no actor, its observers are shown whether it has a route, and its values are sent. -/
structure Routed (id : Uuid) (s : IoSourceController Props Raw Json) : Prop where
  unlisted : ¬ s.agent.manager.Listed id
  subject : ∀ state, s.agent.manager.observedIoStateItems.get id = some state →
    state = s.agent.manager.sourceIoState id
  sends : ∀ item, s.sourceItems.get id = some item → item.Sends

theorem initialIoState_of_unlisted {m : CommunicationManager (SourceProperties Props) Nat} (h : ¬ m.Listed id) :
    m.initialIoState id = m.sourceIoState id := by
  rw [sourceIoState]
  cases hitems : m.ioSourceItems.get id with
  | none => exact ((eq_initialIoState_iff hitems false).mpr
    ⟨fun htrue => absurd htrue Bool.false_ne_true, fun hlisted => absurd hlisted h⟩).symm
  | some items => exact initialIoState_of_source hitems

theorem publishesFor {source : IoSource (SourceProperties Props) Nat} (hs : Routed id s) (hid : source.objectId = id)
    {updateRate : Option Nat} (hshown : s.agent.manager.observedIoStateItems.get id = some ⟨true, updateRate⟩) :
    IoSourceItems.PublishesFor s.agent.publishIoValue source := by
  intro value
  have hassociated : (s.agent.manager.ioSourceItems.get id).isSome = true :=
    (congrArg IoState.hasAssociations (hs.subject _ hshown)).symm
  obtain ⟨items, hitems⟩ := Option.isSome_iff_exists.mp hassociated
  rw [IoAgent.publishIoValue, hid, hitems]
  split
  · exact ⟨_, rfl, rfl⟩
  · exact ⟨_, rfl⟩

theorem Routed.of_unsent (hs : Routed id s) (hunsent : Unsent s s') (hunlisted : ¬ s'.agent.manager.Listed id)
    (hsubject : ∀ state, s'.agent.manager.observedIoStateItems.get id = some state →
      state = s'.agent.manager.sourceIoState id) : Routed id s' := by
  refine ⟨hunlisted, hsubject, fun item' hitem' => ?_⟩
  obtain ⟨item, hitem, h⟩ := hunsent.item hitem'
  exact h.sends (hs.sends item hitem)

/-- There is an update subscription only while the source is shown to have associations. -/
theorem Sound.publishesFor (hs : Sound s) (hrouted : Routed id s) {item : IoSourceItems Props Raw Json}
    (hitem : s.sourceItems.get id = some item) (hsub : item.updateSubscription ≠ none) :
    IoSourceItems.PublishesFor s.agent.publishIoValue item.source := by
  obtain ⟨sub, hsub⟩ := Option.ne_none_iff_exists'.mp hsub
  have hassociation := ((hs.mirrors.keeps id item hitem).subscribed sub hsub).1
  have hstarted : s.operatingState = .started := by
    cases hstate : s.operatingState with
    | started => rfl
    | stopped => cases (hs.stopped hstate id item hitem).symm.trans hsub
  have hsubscribed := hs.started hstarted id item hitem
  have hshown := hs.mirrors.shows id item hitem (by rw [IoSourceItems.stateSubscriptions, hsubscribed]; exact Nat.succ_pos _)
  rw [hassociation] at hshown
  exact IoSourceController.publishesFor hrouted (hs.mirrors.source id item hitem) hshown

theorem Routed.observeIoState (hrouted : Routed id s) (ioPointId : Uuid) : Routed id (s.observeIoState ioPointId) := by
  have hmaps : (s.agent.manager.observeIoState ioPointId).ioSourceItems = s.agent.manager.ioSourceItems ∧
      (s.agent.manager.observeIoState ioPointId).ioActorItems = s.agent.manager.ioActorItems := by
    rw [CommunicationManager.observeIoState]
    split <;> exact ⟨rfl, rfl⟩
  have hsource : (s.agent.manager.observeIoState ioPointId).sourceIoState id = s.agent.manager.sourceIoState id := by
    rw [sourceIoState, sourceIoState, hmaps.1]
  refine ⟨?_, fun state hstate => ?_, hrouted.sends⟩
  · rw [IoSourceController.observeIoState, Listed, hmaps.2]
    exact hrouted.unlisted
  · rw [IoSourceController.observeIoState, hsource]
    rw [IoSourceController.observeIoState, get_observeIoState] at hstate
    by_cases hid : id = ioPointId
    · rw [if_pos hid, ← hid, ioStateSubject, Option.some.injEq] at hstate
      subst hstate
      cases hobserved : s.agent.manager.observedIoStateItems.get id with
      | none => exact initialIoState_of_unlisted hrouted.unlisted
      | some state => exact hrouted.subject state hobserved
    · rw [if_neg hid] at hstate
      exact hrouted.subject state hstate

theorem Routed.ensureRegistered (hrouted : Routed id s) (source : IoSource (SourceProperties Props) Nat) :
    Routed id (s.ensureRegistered source) := by
  rw [IoSourceController.ensureRegistered]
  split
  · exact hrouted
  · have hobserved := hrouted.observeIoState source.objectId
    refine ⟨hobserved.unlisted, hobserved.subject, fun item hitem => ?_⟩
    dsimp only at hitem
    rw [Map.get_set] at hitem
    split at hitem
    · rw [← Option.some.inj hitem]
      exact IoSourceItems.sends_create source _ s.now
    · exact hrouted.sends item hitem

theorem Routed.publish (hs : Sound s) (hrouted : Routed id s) (source : IoSource (SourceProperties Props) Nat)
    (value : IoValue Raw Json) : Routed id (s.publish source value) := by
  have hs₁ := hs.ensureRegistered source
  have hrouted₁ := hrouted.ensureRegistered source
  rw [IoSourceController.publish]
  refine ⟨hrouted₁.unlisted, hrouted₁.subject, fun item' hitem' => ?_⟩
  obtain ⟨item, hitem, ⟨_, rfl⟩ | ⟨_, rfl⟩⟩ := Map.exists_of_get_modify hitem'
  · split
    · exact IoSourceItems.sends_next (hs₁.publishesFor hrouted₁ hitem) (hrouted₁.sends item hitem) value
    · exact hrouted₁.sends item hitem
  · exact hrouted₁.sends item' hitem

theorem Routed.elapse (hs : Sound s) (hrouted : Routed id s) (rx : Operators (IoValue Raw Json)) :
    Routed id (s.elapse rx) := by
  refine ⟨hrouted.unlisted, hrouted.subject, fun item' hitem' => ?_⟩
  rw [IoSourceController.elapse] at hitem'
  dsimp only at hitem'
  rw [Map.get_mapValues, Option.map_eq_some_iff] at hitem'
  obtain ⟨item, hitem, rfl⟩ := hitem'
  exact IoSourceItems.sends_elapse (hs.publishesFor hrouted hitem) (hrouted.sends item hitem) rx

theorem Routed.handleAssociate (hs : Sound s) (hrouted : Routed id s) {data : AssociateEventData Nat}
    (hactor : id ≠ data.ioActorId) : Routed id (s.handleAssociate data) := by
  cases hstate : s.operatingState with
  | stopped =>
    rw [IoSourceController.handleAssociate, hstate]
    exact hrouted
  | started =>
    let m' := s.agent.manager.handleAssociate data
    let s₁ := { s with agent := { s.agent with manager := m' } }
    have hmirrors : Mirrors s.agent.manager.observedIoStateItems.get s₁ :=
      ⟨hs.mirrors.source, hs.mirrors.keeps, hs.mirrors.shows⟩
    obtain ⟨_, hagent, _, _⟩ := mirrors_foldl_dispatchIoState (s.agent.manager.ioStateEvents data) hmirrors
    have hhandled : s.handleAssociate data = (s.agent.manager.ioStateEvents data).foldl dispatchIoState s₁ := by
      rw [IoSourceController.handleAssociate, hstate]
      dsimp only [s₁]
      rw [hstate]
    have hunsent := unsent_handleAssociate s data
    rw [hhandled] at hunsent
    obtain ⟨hsources, hactors, _⟩ := handleAssociate_maps (m := s.agent.manager) data
    rw [hhandled]
    refine ⟨?_, ?_, fun item' hitem' => ?_⟩
    · rw [hagent]
      have hlisted : m'.Listed id ↔ (s.agent.manager.afterActor data).Listed id := by
        rw [Listed, Listed, hactors]
      rw [hlisted, listed_afterActor_other hs.manager data hactor]
      rintro ⟨route, sourceIds, hgetAt, _⟩
      exact hrouted.unlisted ⟨route, sourceIds, hgetAt⟩
    · rw [hagent]
      intro state hshown
      rw [get_handleAssociate_source hs.manager hactor] at hshown
      by_cases hsource : id = data.ioSourceId ∧ s.agent.manager.Owns id
      · rw [if_pos hsource, Option.map_eq_some_iff] at hshown
        obtain ⟨_, _, heq⟩ := hshown
        exact heq.symm
      · rw [if_neg hsource] at hshown
        have hsame : m'.ioSourceItems.get id = s.agent.manager.ioSourceItems.get id := by
          rw [hsources, get_afterActor hs.manager, if_neg]
          rintro ⟨howns, rfl⟩
          exact hsource ⟨rfl, howns⟩
        rw [hrouted.subject state hshown, sourceIoState, sourceIoState, hsame]
    · obtain ⟨item, hitem, h⟩ := hunsent.item hitem'
      exact h.sends (hrouted.sends item hitem)

theorem Routed.reregister (hrouted : Routed id s) (sourceId : Uuid) : Routed id (s.reregister sourceId) := by
  have hobserved := hrouted.observeIoState sourceId
  exact hobserved.of_unsent (unsent_update _ sourceId fun item => IoSourceItems.unsent_reregister s.now item _)
    hobserved.unlisted hobserved.subject

theorem Routed.start (hrouted : Routed id s) : Routed id s.start := by
  rw [IoSourceController.start]
  split
  · exact hrouted
  · exact invariant_foldl (I := Routed id) (fun _ sourceId h => h.reregister sourceId)
      ⟨hrouted.unlisted, hrouted.subject, hrouted.sends⟩

theorem Routed.unobserveIoState (hrouted : Routed id s) : Routed id s.unobserveIoState := by
  refine hrouted.of_unsent (unsent_unobserveIoState s) ?_ fun state hshown => ?_
  · rintro ⟨route, sourceIds, hgetAt⟩
    cases hgetAt
  · cases hshown

theorem Routed.stop (hrouted : Routed id s) : Routed id s.stop := by
  have hderegistered : Routed id (deregisterAll { s with operatingState := .stopped }) :=
    hrouted.of_unsent (unsent_deregisterAll { s with operatingState := .stopped }) hrouted.unlisted hrouted.subject
  rw [IoSourceController.stop]
  split
  · exact hderegistered.unobserveIoState
  · exact hrouted.unobserveIoState

theorem routed_init (ioNodes : List (OwnIoNode (SourceProperties Props) Nat)) (id : Uuid) :
    Routed id (init ioNodes : IoSourceController Props Raw Json) := by
  refine ⟨?_, fun state hshown => ?_, fun item hitem => ?_⟩
  · rintro ⟨route, sourceIds, hgetAt⟩
    cases hgetAt
  · cases hshown
  · cases hitem

/-! ### Whole runs -/

/-- The event does not take the point for an actor. -/
def Event.Spares (id : Uuid) (event : Event Props Raw Json) : Prop :=
  ∀ data, event = .associate data → id ≠ data.ioActorId

theorem Routed.step (hs : Sound s) (hrouted : Routed id s) {event : Event Props Raw Json} (hspares : event.Spares id)
    (rx : Operators (IoValue Raw Json)) : Routed id (s.step rx event) := by
  cases event with
  | associate data => exact hrouted.handleAssociate hs (hspares data rfl)
  | observeIoState ioPointId => exact hrouted.observeIoState ioPointId
  | register source => exact hrouted.ensureRegistered source
  | publish source value => exact hrouted.publish hs source value
  | elapse => exact hrouted.elapse hs rx
  | start => exact hrouted.start
  | stop => exact hrouted.stop

/-- What a source is published at, and what its observers are shown. -/
structure Paces (s : IoSourceController Props Raw Json) (id : Uuid) (item : IoSourceItems Props Raw Json) : Prop where
  paced : Paced item.updateLog
  settled : (status item.updateLog).Settled s.now
  shows : s.operatingState = .started →
    s.agent.manager.observedIoStateItems.get id = some ⟨item.association, item.updateRate⟩
  /-- The open period has the limit of the current state, unless the last value has closed it. -/
  associated : s.operatingState = .started → item.association = true →
    (status item.updateLog).limit = some (IoSourceItems.piping item.source item.updateRate).limit ∨ item.Failed
  unassociated : s.operatingState = .started → item.association = false → (status item.updateLog).limit = none
  stopped : s.operatingState = .stopped → (status item.updateLog).limit = none

theorem Sound.paces_of_get (hs : Sound s) {item : IoSourceItems Props Raw Json} (hitem : s.sourceItems.get id = some item) :
    s.Paces id item := by
  have hkeeps := hs.mirrors.keeps id item hitem
  refine ⟨hkeeps.paced, hkeeps.settled, fun hstarted => ?_, fun hstarted hassociation => ?_, fun _ hassociation => ?_,
    fun hstopped => hkeeps.closed (hs.stopped hstopped id item hitem)⟩
  · have hsubscribed := hs.started hstarted id item hitem
    refine hs.mirrors.shows id item hitem ?_
    rw [IoSourceItems.stateSubscriptions, hsubscribed]
    exact Nat.succ_pos _
  · cases hsub : item.updateSubscription with
    | none => exact Or.inr (hkeeps.failed (hs.started hstarted id item hitem) hassociation hsub)
    | some sub =>
      obtain ⟨_, hpiping, htracks⟩ := hkeeps.subscribed sub hsub
      rw [htracks.limit, hpiping]
      exact Or.inl rfl
  · cases hsub : item.updateSubscription with
    | none => exact hkeeps.closed hsub
    | some sub => exact absurd (hkeeps.subscribed sub hsub).1 (by rw [hassociation]; exact Bool.false_ne_true)

def sampledThermometer : IoSource (SourceProperties Unit) Nat :=
  ⟨thermometerId, text "celsius", none, none, none, ⟨some .sample, ()⟩⟩

def sampledRoom : OwnIoNode (SourceProperties Unit) Nat where
  name := text "room"
  name_valid := isValidEventFilter_room
  ioSources := [sampledThermometer]
  ioActors := []

/-- The first value comes before there is an association, and the last one is discarded by the stop. -/
def sampledEvents : List (Event Unit Unit Nat) :=
  [.start, .publish sampledThermometer (.json 1), .associate ⟨thermometerId, displayId, some thermometerId, none, some 2⟩,
    .publish sampledThermometer (.json 2), .elapse, .publish sampledThermometer (.json 3), .elapse,
    .publish sampledThermometer (.json 4), .elapse, .stop]

def sampledRun : IoSourceController Unit Unit Nat := sampledEvents.foldl (step Operators.latest) (init [sampledRoom])

theorem isSome_sampledItem : (sampledRun.sourceItems.get thermometerId).isSome = true := by decide

def sampledItem : IoSourceItems Unit Unit Nat := (sampledRun.sourceItems.get thermometerId).get isSome_sampledItem

end IoSourceController

end Coaty
