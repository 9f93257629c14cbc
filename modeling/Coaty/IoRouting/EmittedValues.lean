import Coaty.IoRouting.IoActorController

/-!
# Emitted values

How often the observers of an actor get a value. The controller subscribes once more at every start of the communication manager, and only a stop ends its subscriptions. So a value is emitted twice for an actor that was asked about before the start, and once for any other.
-/

namespace Coaty

open Js Transition CommunicationManager

variable {Props Rate Raw Json : Type}

namespace IoActorController

namespace IoActorItems

variable (item : IoActorItems Props Rate Raw Json)

theorem onIoStateChanged_eq (state : IoState Rate) :
    item.onIoStateChanged state = { item with association := state.hasAssociations } := by
  rw [onIoStateChanged]
  split
  · rfl
  · rename_i hsame
    rw [← not_not.mp hsame]

theorem dispatchIoState_eq (state : IoState Rate) :
    item.dispatchIoState state =
      if item.stateSubscriptions = 0 then item else { item with association := state.hasAssociations } := by
  have hiterate : ∀ subscriptions, (fun item => onIoStateChanged item state)^[subscriptions] item
      = if subscriptions = 0 then item else { item with association := state.hasAssociations } := by
    intro subscriptions
    induction subscriptions with
    | zero => rfl
    | succ subscriptions ih =>
      rw [Function.iterate_succ_apply', ih, onIoStateChanged_eq, if_neg (Nat.succ_ne_zero subscriptions)]
      split <;> rfl
  exact hiterate item.stateSubscriptions

theorem dispatchIoValue_eq (value : IoValue Raw Json) :
    item.dispatchIoValue value
      = { item with ioValues := item.ioValues ++ List.replicate item.valueSubscriptions value } := by
  have hiterate : ∀ subscriptions, (fun item => onIoValueChanged item value)^[subscriptions] item
      = { item with ioValues := item.ioValues ++ List.replicate subscriptions value } := by
    intro subscriptions
    induction subscriptions with
    | zero =>
      rw [List.replicate_zero, List.append_nil]
      rfl
    | succ subscriptions ih =>
      rw [Function.iterate_succ_apply', ih, onIoValueChanged, List.replicate_succ', List.append_assoc]
  exact hiterate item.valueSubscriptions

theorem reregister_eq (state : IoState Rate) :
    item.reregister state =
      { item with
        stateSubscriptions := item.stateSubscriptions + 1
        valueSubscriptions := item.valueSubscriptions + 1
        association := state.hasAssociations } := by
  rw [reregister, onIoStateChanged_eq]

/-- Nothing has been emitted in between to the observers of the values. -/
structure Silent (item item' : IoActorItems Props Rate Raw Json) : Prop where
  stateSubscriptions : item'.stateSubscriptions = item.stateSubscriptions
  valueSubscriptions : item'.valueSubscriptions = item.valueSubscriptions
  ioValues : item'.ioValues = item.ioValues

end IoActorItems

variable {s : IoActorController Props Rate Raw Json} {id : Uuid}

/-! ### Subscriptions -/

/-- What a run comes to for the subscriptions of one actor. -/
structure Registration where
  isStarted : Bool
  isRegistered : Bool
  /-- The actor was asked about while the communication manager was stopped, which it has not been since. -/
  isEarly : Bool
deriving DecidableEq

namespace Registration

def initial : Registration := ⟨false, false, false⟩

def step (id : Uuid) (r : Registration) : Event Props Rate Raw Json → Registration
  | .register actor =>
    if actor.objectId = id ∧ r.isRegistered = false then { r with isRegistered := true, isEarly := !r.isStarted } else r
  | .start => { r with isStarted := true }
  | .stop => { r with isStarted := false, isEarly := false }
  | _ => r

/-- The number of subscriptions of the controller to the values of the actor. -/
def subscriptions (r : Registration) : Nat := r.isEarly.toNat + r.isStarted.toNat

end Registration

/-- The controller has the subscriptions to an actor that its run comes to, and shows the state that it is subscribed to. -/
structure Sound (id : Uuid) (s : IoActorController Props Rate Raw Json) (r : Registration) : Prop where
  manager : Consistent s.agent.manager
  started : s.operatingState = .started ↔ r.isStarted = true
  registered : (s.actorItems.get id).isSome = r.isRegistered
  subscriptions : ∀ item, s.actorItems.get id = some item →
    item.stateSubscriptions = r.subscriptions ∧ item.valueSubscriptions = r.subscriptions
  shows : ∀ item, s.actorItems.get id = some item → 0 < r.subscriptions →
    ∃ state, s.agent.manager.observedIoStateItems.get id = some state ∧ item.association = state.hasAssociations
  observes : r.isRegistered = true → 0 < r.subscriptions → s.agent.observedIoValueItems.has id = true
  unassociated : s.operatingState = .stopped → (∀ id, s.agent.manager.ioStateSubject id = ⟨false, none⟩) ∧
    ∀ item, s.actorItems.get id = some item → item.association = false

variable {r : Registration}

theorem sound_init (ioNodes : List (OwnIoNode Props Rate)) (id : Uuid) :
    Sound id (init ioNodes : IoActorController Props Rate Raw Json) Registration.initial := by
  have hnone : ∀ item, (init ioNodes : IoActorController Props Rate Raw Json).actorItems.get id ≠ some item := by
    intro item hitem
    cases hitem
  refine ⟨start_consistent ioNodes, ⟨nofun, nofun⟩, rfl, fun item h => absurd h (hnone item),
    fun item h => absurd h (hnone item), nofun, fun _ => ⟨fun _ => rfl, fun item h => absurd h (hnone item)⟩⟩

theorem Sound.observeIoState (hs : Sound id s r) (ioPointId : Uuid) : Sound id (s.observeIoState ioPointId) r := by
  refine ⟨step_consistent _ (.observeIoState ioPointId) hs.manager, hs.started, hs.registered, hs.subscriptions,
    fun item hitem hpositive => ?_, hs.observes, fun hstopped => ⟨fun pointId => ?_, (hs.unassociated hstopped).2⟩⟩
  · obtain ⟨state, hstate, hshown⟩ := hs.shows item hitem hpositive
    exact ⟨state, get_observeIoState_of_some hstate, hshown⟩
  · exact (ioStateSubject_observeIoState ioPointId pointId).trans ((hs.unassociated hstopped).1 pointId)

theorem Sound.observeIoValue (hs : Sound id s r) (ioActorId : Uuid) : Sound id (s.observeIoValue ioActorId) r := by
  have hmanager : (s.observeIoValue ioActorId).agent.manager = s.agent.manager :=
    IoAgent.observeIoValue_manager s.agent ioActorId
  refine ⟨hmanager ▸ hs.manager, hs.started, hs.registered, hs.subscriptions, hmanager ▸ hs.shows, ?_,
    hmanager ▸ hs.unassociated⟩
  intro hregistered hpositive
  exact (IoAgent.has_observeIoValue s.agent ioActorId id).mpr (Or.inr (hs.observes hregistered hpositive))

theorem Sound.ensureRegistered (hs : Sound id s r) (actor : IoActor Props Rate) :
    Sound id (s.ensureRegistered actor) (r.step id (.register actor : Event Props Rate Raw Json)) := by
  rw [IoActorController.ensureRegistered]
  cases hitem : s.actorItems.get actor.objectId with
  | some item =>
    have hkept : r.step id (.register actor : Event Props Rate Raw Json) = r := by
      rw [Registration.step, if_neg]
      rintro ⟨rfl, hregistered⟩
      rw [← hs.registered, hitem] at hregistered
      cases hregistered
    rw [hkept]
    exact hs
  | none =>
    have hs₁ := (hs.observeIoState actor.objectId).observeIoValue actor.objectId
    by_cases hid : actor.objectId = id
    · subst hid
      have hregistered : r.isRegistered = false := by
        rw [← hs.registered, hitem]
        rfl
      let r' : Registration := { r with isRegistered := true, isEarly := !r.isStarted }
      have hr : r.step actor.objectId (.register actor : Event Props Rate Raw Json) = r' := by
        rw [Registration.step, if_pos ⟨rfl, hregistered⟩]
      have hone : r'.subscriptions = 1 := by
        dsimp only [r', Registration.subscriptions]
        cases r.isStarted <;> rfl
      have hget : ∀ item', (s.actorItems.set actor.objectId
          (IoActorItems.create actor (s.agent.manager.ioStateSubject actor.objectId))).get actor.objectId = some item' →
          item' = IoActorItems.create actor (s.agent.manager.ioStateSubject actor.objectId) := by
        intro item' hitem'
        rw [Map.get_set, if_pos rfl] at hitem'
        exact (Option.some.inj hitem').symm
      rw [hr]
      refine ⟨hs₁.manager, hs₁.started, ?_, fun item' hitem' => ?_, fun item' hitem' _ => ?_, fun _ _ => ?_,
        fun hstopped => ⟨(hs₁.unassociated hstopped).1, fun item' hitem' => ?_⟩⟩
      · dsimp only
        rw [Map.get_set, if_pos rfl]
        rfl
      · rw [hget item' hitem', hone]
        exact ⟨rfl, rfl⟩
      · refine ⟨s.agent.manager.ioStateSubject actor.objectId, ?_, by rw [hget item' hitem']; rfl⟩
        have hmanager : (s.observeIoState actor.objectId |>.observeIoValue actor.objectId).agent.manager
            = s.agent.manager.observeIoState actor.objectId := IoAgent.observeIoValue_manager _ _
        dsimp only
        rw [hmanager, get_observeIoState, if_pos rfl]
      · exact (IoAgent.has_observeIoValue _ _ _).mpr (Or.inl rfl)
      · rw [hget item' hitem']
        exact congrArg IoState.hasAssociations ((hs.unassociated hstopped).1 actor.objectId)
    · rw [Registration.step, if_neg fun h => hid h.1]
      have hget : (s.actorItems.set actor.objectId
          (IoActorItems.create actor (s.agent.manager.ioStateSubject actor.objectId))).get id = s.actorItems.get id := by
        rw [Map.get_set, if_neg fun h => hid h.symm]
      refine ⟨hs₁.manager, hs₁.started, ?_, ?_, ?_, hs₁.observes, ?_⟩
      · dsimp only
        rw [hget]
        exact hs₁.registered
      · dsimp only
        rw [hget]
        exact hs₁.subscriptions
      · dsimp only
        rw [hget]
        exact hs₁.shows
      · dsimp only
        rw [hget]
        exact hs₁.unassociated

/-! ### IO states -/

theorem foldl_update {A : Type} (key : A → Uuid)
    (f : A → IoActorItems Props Rate Raw Json → IoActorItems Props Rate Raw Json) (events : List A)
    (s : IoActorController Props Rate Raw Json) :
    events.foldl (fun s event => s.update (key event) (f event)) s
      = { s with actorItems := events.foldl (fun m event => m.modify (key event) (f event)) s.actorItems } := by
  induction events generalizing s with
  | nil => rfl
  | cons event events ih =>
    rw [List.foldl_cons, ih]
    rfl

namespace IoActorItems

def dispatchIoStates (id : Uuid) (events : List (Uuid × IoState Rate)) (item : IoActorItems Props Rate Raw Json) :
    IoActorItems Props Rate Raw Json :=
  events.foldl (fun item event => if event.1 = id then item.dispatchIoState event.2 else item) item

theorem silent_dispatchIoState (item : IoActorItems Props Rate Raw Json) (state : IoState Rate) :
    Silent item (item.dispatchIoState state) := by
  rw [dispatchIoState_eq]
  split <;> exact ⟨rfl, rfl, rfl⟩

theorem silent_dispatchIoStates (id : Uuid) (events : List (Uuid × IoState Rate))
    (item : IoActorItems Props Rate Raw Json) : Silent item (item.dispatchIoStates id events) := by
  induction events generalizing item with
  | nil => exact ⟨rfl, rfl, rfl⟩
  | cons event events ih =>
    rw [dispatchIoStates, List.foldl_cons]
    split
    · have hfirst := item.silent_dispatchIoState event.2
      have hrest := ih (item.dispatchIoState event.2)
      exact ⟨hrest.stateSubscriptions.trans hfirst.stateSubscriptions,
        hrest.valueSubscriptions.trans hfirst.valueSubscriptions, hrest.ioValues.trans hfirst.ioValues⟩
    · exact ih item

theorem shows_dispatchIoStates {id : Uuid} (events : List (Uuid × IoState Rate))
    {item : IoActorItems Props Rate Raw Json} {subject : Option (IoState Rate)} (hpositive : 0 < item.stateSubscriptions)
    (h : ∃ state, subject = some state ∧ item.association = state.hasAssociations) :
    ∃ state, events.foldl (afterIoStateEvent id) subject = some state ∧
      (item.dispatchIoStates id events).association = state.hasAssociations := by
  induction events generalizing item subject with
  | nil => exact h
  | cons event events ih =>
    rw [dispatchIoStates, List.foldl_cons, List.foldl_cons, afterIoStateEvent]
    by_cases hid : event.1 = id
    · rw [if_pos hid, if_pos hid]
      have hfirst := item.silent_dispatchIoState event.2
      refine ih (hfirst.stateSubscriptions ▸ hpositive) ⟨event.2, rfl, ?_⟩
      rw [dispatchIoState_eq, if_neg (Nat.pos_iff_ne_zero.mp hpositive)]
    · rw [if_neg hid, if_neg hid]
      exact ih hpositive h

end IoActorItems

theorem handleAssociate_eq (hstate : s.operatingState = .started) (data : AssociateEventData Rate) :
    s.handleAssociate data =
      { agent := { s.agent with manager := s.agent.manager.handleAssociate data }
        operatingState := .started
        actorItems := (s.agent.manager.ioStateEvents data).foldl
          (fun m event => m.modify event.1 fun item => item.dispatchIoState event.2) s.actorItems } := by
  rw [handleAssociate, hstate]
  exact foldl_update Prod.fst (fun event item => item.dispatchIoState event.2) _ _

theorem get_handleAssociate (hstate : s.operatingState = .started) (data : AssociateEventData Rate) (id : Uuid) :
    (s.handleAssociate data).actorItems.get id
      = (s.actorItems.get id).map (IoActorItems.dispatchIoStates id (s.agent.manager.ioStateEvents data)) := by
  rw [handleAssociate_eq hstate]
  exact Map.get_foldl_modify Prod.fst (fun event (item : IoActorItems Props Rate Raw Json) => item.dispatchIoState event.2)
    _ _ id

theorem Sound.handleAssociate (hs : Sound id s r) (data : AssociateEventData Rate) : Sound id (s.handleAssociate data) r := by
  cases hstate : s.operatingState with
  | stopped =>
    rw [IoActorController.handleAssociate, hstate]
    exact hs
  | started =>
    have hget := get_handleAssociate hstate data id
    have hagent := congrArg agent (handleAssociate_eq hstate data)
    have hstarted := congrArg operatingState (handleAssociate_eq hstate data)
    dsimp only at hagent hstarted
    have hof : ∀ item', (s.handleAssociate data).actorItems.get id = some item' → ∃ item,
        s.actorItems.get id = some item ∧ item' = item.dispatchIoStates id (s.agent.manager.ioStateEvents data) := by
      intro item' hitem'
      obtain ⟨item, hitem, heq⟩ := Option.map_eq_some_iff.mp (hget.symm.trans hitem')
      exact ⟨item, hitem, heq.symm⟩
    refine ⟨?_, ?_, ?_, fun item' hitem' => ?_, fun item' hitem' hpositive => ?_, ?_, fun hstopped => ?_⟩
    · rw [hagent]
      exact step_consistent _ (.associate data) hs.manager
    · rw [hstarted, ← hs.started, hstate]
    · rw [hget, Option.isSome_map]
      exact hs.registered
    · obtain ⟨item, hitem, rfl⟩ := hof item' hitem'
      have hsilent := item.silent_dispatchIoStates id (s.agent.manager.ioStateEvents data)
      rw [hsilent.stateSubscriptions, hsilent.valueSubscriptions]
      exact hs.subscriptions item hitem
    · obtain ⟨item, hitem, rfl⟩ := hof item' hitem'
      rw [hagent, CommunicationManager.get_handleAssociate_foldl hs.manager]
      refine IoActorItems.shows_dispatchIoStates _ ?_ (hs.shows item hitem hpositive)
      exact (hs.subscriptions item hitem).1 ▸ hpositive
    · rw [hagent]
      exact hs.observes
    · cases hstarted.symm.trans hstopped

/-! ### IO values -/

theorem get_dispatchNext (value : IoValue Raw Json) (ioActorId id : Uuid) :
    (dispatchNext value s ioActorId).actorItems.get id
      = if id = ioActorId ∧ s.agent.observedIoValueItems.has id = true
        then (s.actorItems.get id).map fun item => item.dispatchIoValue value else s.actorItems.get id := by
  rw [dispatchNext]
  by_cases hhas : s.agent.observedIoValueItems.has ioActorId = true
  · rw [if_pos hhas, update]
    dsimp only
    rw [Map.get_modify]
    by_cases hid : id = ioActorId
    · rw [if_pos hid, if_pos ⟨hid, hid ▸ hhas⟩]
    · rw [if_neg hid, if_neg fun h => hid h.1]
  · rw [if_neg hhas, if_neg]
    rintro ⟨rfl, h⟩
    exact hhas h

theorem dispatchNext_frame (value : IoValue Raw Json) (ioActorId : Uuid) :
    (dispatchNext value s ioActorId).agent = s.agent ∧
      (dispatchNext value s ioActorId).operatingState = s.operatingState := by
  rw [dispatchNext]
  split <;> exact ⟨rfl, rfl⟩

theorem foldl_dispatchNext_frame (value : IoValue Raw Json) (ids : List Uuid)
    (s : IoActorController Props Rate Raw Json) :
    (ids.foldl (dispatchNext value) s).agent = s.agent ∧
      (ids.foldl (dispatchNext value) s).operatingState = s.operatingState := by
  induction ids generalizing s with
  | nil => exact ⟨rfl, rfl⟩
  | cons first ids ih =>
    obtain ⟨hagent, hstate⟩ := dispatchNext_frame (s := s) value first
    obtain ⟨hagent', hstate'⟩ := ih (dispatchNext value s first)
    exact ⟨hagent'.trans hagent, hstate'.trans hstate⟩

theorem get_foldl_dispatchNext (value : IoValue Raw Json) {ids : List Uuid} (hnodup : ids.Nodup)
    (s : IoActorController Props Rate Raw Json) (id : Uuid) :
    (ids.foldl (dispatchNext value) s).actorItems.get id
      = if id ∈ ids ∧ s.agent.observedIoValueItems.has id = true
        then (s.actorItems.get id).map fun item => item.dispatchIoValue value else s.actorItems.get id := by
  induction ids generalizing s with
  | nil => rw [if_neg fun h => List.not_mem_nil h.1, List.foldl_nil]
  | cons first ids ih =>
    obtain ⟨hfresh, hrest⟩ := List.nodup_cons.mp hnodup
    rw [List.foldl_cons, ih hrest, (dispatchNext_frame value first).1, get_dispatchNext]
    by_cases hid : id = first
    · rw [if_neg fun h => hfresh (hid ▸ h.1)]
      simp [hid]
    · simp [hid]

theorem dispatchIoValue_frame (hstate : s.operatingState = .started) (event : IoValueEvent Raw Json) :
    (s.dispatchIoValue event).agent = s.agent.dispatchIoValue event ∧
      (s.dispatchIoValue event).operatingState = .started := by
  rw [dispatchIoValue, hstate]
  dsimp only
  split
  · exact foldl_dispatchNext_frame event.payload _ _
  · exact ⟨rfl, rfl⟩

/-- Every subscription of an actor that is listed on the route emits the value. -/
theorem get_dispatchIoValue (hstate : s.operatingState = .started) (event : IoValueEvent Raw Json) (id : Uuid) :
    (s.dispatchIoValue event).actorItems.get id
      = if (s.agent.manager.ioActorItems.getAt event.topic id).isSome ∧ s.agent.observedIoValueItems.has id = true
        then (s.actorItems.get id).map fun item => item.dispatchIoValue event.payload else s.actorItems.get id := by
  rw [dispatchIoValue, hstate]
  dsimp only
  cases hitems : s.agent.manager.ioActorItems.get event.topic with
  | none => rw [Map.getAt_of_get_none hitems, if_neg fun h => Bool.false_ne_true h.1]
  | some items =>
    dsimp only
    rw [get_foldl_dispatchNext event.payload items.keys_nodup, Map.getAt_of_get hitems]
    dsimp only
    simp only [IoAgent.has_dispatchIoValue, Map.mem_keys, ← Option.isSome_iff_exists]

theorem Sound.dispatchIoValue (hs : Sound id s r) (event : IoValueEvent Raw Json) : Sound id (s.dispatchIoValue event) r := by
  cases hstate : s.operatingState with
  | stopped =>
    rw [IoActorController.dispatchIoValue, hstate]
    exact hs
  | started =>
    obtain ⟨hagent, hstarted⟩ := dispatchIoValue_frame hstate event
    have hmanager : (s.dispatchIoValue event).agent.manager = s.agent.manager := by
      rw [hagent, IoAgent.dispatchIoValue_manager]
    have hget := get_dispatchIoValue hstate event id
    have hof : ∀ item', (s.dispatchIoValue event).actorItems.get id = some item' → ∃ item,
        s.actorItems.get id = some item ∧ item'.stateSubscriptions = item.stateSubscriptions ∧
          item'.valueSubscriptions = item.valueSubscriptions ∧ item'.association = item.association := by
      intro item' hitem'
      rw [hget] at hitem'
      split at hitem'
      · obtain ⟨item, hitem, rfl⟩ := Option.map_eq_some_iff.mp hitem'
        rw [IoActorItems.dispatchIoValue_eq]
        exact ⟨item, hitem, rfl, rfl, rfl⟩
      · exact ⟨item', hitem', rfl, rfl, rfl⟩
    refine ⟨hmanager ▸ hs.manager, ?_, ?_, fun item' hitem' => ?_, fun item' hitem' hpositive => ?_, ?_,
      fun hstopped => ?_⟩
    · rw [hstarted, ← hs.started, hstate]
    · rw [hget, ← hs.registered]
      split
      · rw [Option.isSome_map]
      · rfl
    · obtain ⟨item, hitem, hstates, hvalues, _⟩ := hof item' hitem'
      rw [hstates, hvalues]
      exact hs.subscriptions item hitem
    · obtain ⟨item, hitem, _, _, hassociation⟩ := hof item' hitem'
      rw [hmanager, hassociation]
      exact hs.shows item hitem hpositive
    · rw [hagent, IoAgent.has_dispatchIoValue]
      exact hs.observes
    · cases hstarted.symm.trans hstopped

/-! ### Starting and stopping -/

theorem reregister_frame (s : IoActorController Props Rate Raw Json) (actorId : Uuid) :
    (s.reregister actorId).agent.manager = s.agent.manager.observeIoState actorId ∧
      (s.reregister actorId).operatingState = s.operatingState ∧
      (∀ id, (s.reregister actorId).agent.observedIoValueItems.has id = true ↔
        id = actorId ∨ s.agent.observedIoValueItems.has id = true) ∧
      ∀ id, (s.reregister actorId).actorItems.get id = if id = actorId
        then (s.actorItems.get id).map fun item => item.reregister (s.agent.manager.ioStateSubject actorId)
        else s.actorItems.get id :=
  ⟨IoAgent.observeIoValue_manager _ actorId, rfl, IoAgent.has_observeIoValue _ actorId,
    fun id => Map.get_modify _ actorId id _⟩

/-- The actor with this id is registered again once, if it is one of them. -/
structure Reregistered (id : Uuid) (ids : List Uuid) (s s' : IoActorController Props Rate Raw Json) : Prop where
  manager : Consistent s.agent.manager → Consistent s'.agent.manager
  operatingState : s'.operatingState = s.operatingState
  subject : s'.agent.manager.ioStateSubject id = s.agent.manager.ioStateSubject id
  observed : id ∈ ids ∨ s.agent.manager.observedIoStateItems.get id = some (s.agent.manager.ioStateSubject id) →
    s'.agent.manager.observedIoStateItems.get id = some (s.agent.manager.ioStateSubject id)
  observes : id ∈ ids ∨ s.agent.observedIoValueItems.has id = true → s'.agent.observedIoValueItems.has id = true
  item : s'.actorItems.get id = if id ∈ ids
    then (s.actorItems.get id).map fun item => item.reregister (s.agent.manager.ioStateSubject id)
    else s.actorItems.get id

theorem foldl_reregister (id : Uuid) {ids : List Uuid} (hnodup : ids.Nodup) (s : IoActorController Props Rate Raw Json) :
    Reregistered id ids s (ids.foldl reregister s) := by
  induction ids generalizing s with
  | nil =>
    refine ⟨fun h => h, rfl, rfl, ?_, ?_, by rw [if_neg List.not_mem_nil, List.foldl_nil]⟩
    · rintro (hmem | h)
      · cases hmem
      · exact h
    · rintro (hmem | h)
      · cases hmem
      · exact h
  | cons first ids ih =>
    obtain ⟨hfresh, hrest⟩ := List.nodup_cons.mp hnodup
    obtain ⟨hmanager, hstate, hobserves, hget⟩ := s.reregister_frame first
    have h := ih hrest (s.reregister first)
    have hsubject : (s.reregister first).agent.manager.ioStateSubject id = s.agent.manager.ioStateSubject id := by
      rw [hmanager, ioStateSubject_observeIoState]
    refine ⟨fun hm => h.manager ?_, h.operatingState.trans hstate, h.subject.trans hsubject, fun hor => ?_,
      fun hor => h.observes ?_, ?_⟩
    · rw [hmanager]
      exact step_consistent _ (.observeIoState first) hm
    · rw [← hsubject]
      refine h.observed (hor.elim (fun hmem => ?_) fun hobserved => Or.inr ?_)
      · refine (List.mem_cons.mp hmem).symm.imp_right fun hid => ?_
        rw [hsubject, hmanager, get_observeIoState, if_pos hid, hid]
      · rw [hsubject, hmanager]
        exact get_observeIoState_of_some hobserved
    · rcases hor with hmem | hhas
      · exact (List.mem_cons.mp hmem).symm.imp_right fun hid => (hobserves id).mpr (Or.inl hid)
      · exact Or.inr ((hobserves id).mpr (Or.inr hhas))
    · rw [List.foldl_cons, h.item, hget, hsubject]
      by_cases hid : id = first
      · rw [if_neg (hid ▸ hfresh), if_pos hid, if_pos (hid ▸ List.mem_cons_self), hid]
      · simp [hid]

theorem Sound.start (hs : Sound id s r) : Sound id s.start (r.step id (.start : Event Props Rate Raw Json)) := by
  rw [IoActorController.start]
  cases hstate : s.operatingState with
  | started =>
    have hkept : r.step id (.start : Event Props Rate Raw Json) = r := by
      rw [Registration.step, ← hs.started.mp hstate]
    rw [hkept]
    exact hs
  | stopped =>
    have hwas : r.isStarted = false := by
      rw [← Bool.not_eq_true, ← hs.started, hstate]
      exact nofun
    have hsubscriptions : (r.step id (.start : Event Props Rate Raw Json)).subscriptions = r.subscriptions + 1 := by
      rw [Registration.step, Registration.subscriptions, Registration.subscriptions, hwas]
      rfl
    have h := foldl_reregister id s.actorItems.keys_nodup { s with operatingState := .started }
    have hkey : ∀ item, s.actorItems.get id = some item → id ∈ s.actorItems.keys :=
      fun item hitem => Map.mem_keys.mpr ⟨item, hitem⟩
    have hof : ∀ item', (s.actorItems.keys.foldl reregister { s with operatingState := .started }).actorItems.get id
        = some item' → ∃ item, s.actorItems.get id = some item ∧
          item' = item.reregister (s.agent.manager.ioStateSubject id) := by
      intro item' hitem'
      rw [h.item] at hitem'
      split at hitem'
      · obtain ⟨item, hitem, rfl⟩ := Option.map_eq_some_iff.mp hitem'
        exact ⟨item, hitem, rfl⟩
      · rename_i hmem
        exact absurd (hkey item' hitem') hmem
    dsimp only
    rw [reregisterAll]
    refine ⟨h.manager hs.manager, ?_, ?_, fun item' hitem' => ?_, fun item' hitem' _ => ?_, fun hregistered _ => ?_,
      fun hstopped => ?_⟩
    · rw [h.operatingState]
      exact ⟨fun _ => rfl, fun _ => rfl⟩
    · rw [h.item]
      split
      · rw [Option.isSome_map]
        exact hs.registered
      · exact hs.registered
    · obtain ⟨item, hitem, rfl⟩ := hof item' hitem'
      obtain ⟨hstates, hvalues⟩ := hs.subscriptions item hitem
      rw [IoActorItems.reregister_eq, hsubscriptions]
      exact ⟨congrArg (· + 1) hstates, congrArg (· + 1) hvalues⟩
    · obtain ⟨item, hitem, rfl⟩ := hof item' hitem'
      refine ⟨_, h.observed (Or.inl (hkey item hitem)), ?_⟩
      rw [IoActorItems.reregister_eq]
    · have hsome : (s.actorItems.get id).isSome = true := hs.registered.trans hregistered
      obtain ⟨item, hitem⟩ := Option.isSome_iff_exists.mp hsome
      exact h.observes (Or.inl (hkey item hitem))
    · cases h.operatingState.symm.trans hstopped

theorem get_foldl_update (f : IoActorItems Props Rate Raw Json → IoActorItems Props Rate Raw Json) {ids : List Uuid}
    (hnodup : ids.Nodup) (s : IoActorController Props Rate Raw Json) (id : Uuid) :
    (ids.foldl (fun s id => s.update id f) s).actorItems.get id
      = if id ∈ ids then (s.actorItems.get id).map f else s.actorItems.get id := by
  have hget := Map.get_foldl_modify_of_nodup f hnodup s.actorItems id
  rw [foldl_update (fun id => id) fun _ => f]
  dsimp only
  by_cases hmem : id ∈ ids
  · rw [if_pos hmem] at hget ⊢
    exact hget
  · rw [if_neg hmem] at hget ⊢
    exact hget

theorem get_foldl_completeIoState {ids : List Uuid} (hnodup : ids.Nodup) (s : IoActorController Props Rate Raw Json)
    (id : Uuid) :
    (ids.foldl completeIoState s).actorItems.get id
      = if id ∈ ids
        then (s.actorItems.get id).map fun item => { item.dispatchIoState ⟨false, none⟩ with stateSubscriptions := 0 }
        else s.actorItems.get id := get_foldl_update _ hnodup s id

theorem get_foldl_completeIoValue {ids : List Uuid} (hnodup : ids.Nodup) (s : IoActorController Props Rate Raw Json)
    (id : Uuid) :
    (ids.foldl completeIoValue s).actorItems.get id
      = if id ∈ ids then (s.actorItems.get id).map fun item => { item with valueSubscriptions := 0 }
        else s.actorItems.get id := get_foldl_update _ hnodup s id

def completed (s : IoActorController Props Rate Raw Json) (id : Uuid) (item : IoActorItems Props Rate Raw Json) :
    IoActorItems Props Rate Raw Json :=
  let observed := s.agent.manager.observedIoStateItems.has id
  { item with
    association := if observed = true ∧ item.stateSubscriptions ≠ 0 then false else item.association
    stateSubscriptions := if observed = true then 0 else item.stateSubscriptions
    valueSubscriptions := if s.agent.observedIoValueItems.has id = true then 0 else item.valueSubscriptions }

theorem get_stop (s : IoActorController Props Rate Raw Json) (id : Uuid) :
    s.stop.actorItems.get id = (s.actorItems.get id).map (s.completed id) := by
  have hmem : ∀ {V : Type} (m : Map Uuid V), id ∈ m.keys ↔ m.has id = true := by
    intro V m
    rw [Map.mem_keys, Map.has, Option.isSome_iff_exists]
  rw [stop]
  dsimp only
  rw [get_foldl_completeIoValue s.agent.observedIoValueItems.keys_nodup,
    get_foldl_completeIoState s.agent.manager.observedIoStateItems.keys_nodup]
  cases s.actorItems.get id with
  | none => simp
  | some item =>
    simp only [hmem, completed, Option.map_some, IoActorItems.dispatchIoState_eq]
    by_cases hstates : s.agent.manager.observedIoStateItems.has id = true
    · by_cases hvalues : s.agent.observedIoValueItems.has id = true
      · by_cases hsubscribed : item.stateSubscriptions = 0
        · simp [hstates, hvalues, hsubscribed]
        · simp [hstates, hvalues, hsubscribed]
      · by_cases hsubscribed : item.stateSubscriptions = 0
        · simp [hstates, hvalues, hsubscribed]
        · simp [hstates, hvalues, hsubscribed]
    · by_cases hvalues : s.agent.observedIoValueItems.has id = true
      · simp [hstates, hvalues]
      · simp [hstates, hvalues]

/-- Whatever the controller is subscribed to is observed, so that nothing is left of its subscriptions. -/
theorem Sound.completed (hs : Sound id s r) {item : IoActorItems Props Rate Raw Json}
    (hitem : s.actorItems.get id = some item) :
    (s.completed id item).stateSubscriptions = 0 ∧ (s.completed id item).valueSubscriptions = 0 ∧
      (s.completed id item).association = false := by
  obtain ⟨hstates, hvalues⟩ := hs.subscriptions item hitem
  rw [IoActorController.completed]
  dsimp only
  by_cases hpositive : 0 < r.subscriptions
  · obtain ⟨state, hstate, _⟩ := hs.shows item hitem hpositive
    have hobserved : s.agent.manager.observedIoStateItems.has id = true := Map.has_iff.mpr ⟨state, hstate⟩
    have hregistered : r.isRegistered = true := by
      rw [← hs.registered, hitem]
      rfl
    rw [if_pos hobserved, if_pos (hs.observes hregistered hpositive),
      if_pos ⟨hobserved, hstates ▸ Nat.pos_iff_ne_zero.mp hpositive⟩]
    exact ⟨rfl, rfl, rfl⟩
  · have hzero : r.subscriptions = 0 := Nat.eq_zero_of_not_pos hpositive
    have hstopped : s.operatingState = .stopped := by
      cases hstate : s.operatingState with
      | stopped => rfl
      | started =>
        rw [Registration.subscriptions, hs.started.mp hstate] at hzero
        cases hzero
    have hassociation := (hs.unassociated hstopped).2 item hitem
    rw [hstates, hvalues, hzero, hassociation]
    simp

theorem Sound.stop (hs : Sound id s r) : Sound id s.stop (r.step id (.stop : Event Props Rate Raw Json)) := by
  have hzero : ¬ 0 < (r.step id (.stop : Event Props Rate Raw Json)).subscriptions := lt_irrefl 0
  have hof : ∀ item', s.stop.actorItems.get id = some item' → ∃ item, s.actorItems.get id = some item ∧
      item' = s.completed id item := by
    intro item' hitem'
    obtain ⟨item, hitem, heq⟩ := Option.map_eq_some_iff.mp ((get_stop s id).symm.trans hitem')
    exact ⟨item, hitem, heq.symm⟩
  refine ⟨consistent_initObservedItems hs.manager, ⟨nofun, nofun⟩, ?_, fun item' hitem' => ?_,
    fun _ _ hpositive => absurd hpositive hzero, fun _ hpositive => absurd hpositive hzero, fun _ =>
      ⟨fun _ => rfl, fun item' hitem' => ?_⟩⟩
  · rw [get_stop, Option.isSome_map]
    exact hs.registered
  · obtain ⟨item, hitem, rfl⟩ := hof item' hitem'
    obtain ⟨hstates, hvalues, _⟩ := hs.completed hitem
    exact ⟨hstates, hvalues⟩
  · obtain ⟨item, hitem, rfl⟩ := hof item' hitem'
    exact (hs.completed hitem).2.2

/-! ### Whole runs -/

theorem sound_step (hs : Sound id s r) (event : Event Props Rate Raw Json) : Sound id (s.step event) (r.step id event) := by
  cases event with
  | associate data => exact hs.handleAssociate data
  | observeIoState ioPointId => exact hs.observeIoState ioPointId
  | observeIoValue ioActorId => exact hs.observeIoValue ioActorId
  | register actor => exact hs.ensureRegistered actor
  | ioValue event => exact hs.dispatchIoValue event
  | start => exact hs.start
  | stop => exact hs.stop

theorem sound_foldl (events : List (Event Props Rate Raw Json)) (hs : Sound id s r) :
    Sound id (events.foldl step s) (events.foldl (Registration.step id) r) := by
  induction events generalizing s r with
  | nil => exact hs
  | cons event events ih => exact ih (sound_step hs event)

/-- How often the next event emits its value to the observers of an actor. -/
def emissions (s : IoActorController Props Rate Raw Json) (r : Registration) (id : Uuid) :
    Event Props Rate Raw Json → List (IoValue Raw Json)
  | .ioValue event =>
    if s.operatingState = .started ∧ (s.agent.manager.ioActorItems.getAt event.topic id).isSome
    then List.replicate (if r.isEarly then 2 else 1) event.payload else []
  | _ => []

theorem Sound.ioValues_step (hs : Sound id s r) {item : IoActorItems Props Rate Raw Json}
    (hitem : s.actorItems.get id = some item) (event : Event Props Rate Raw Json) :
    ∃ item', (s.step event).actorItems.get id = some item' ∧ item'.ioValues = item.ioValues ++ emissions s r id event := by
  have hquiet : ∀ item' : IoActorItems Props Rate Raw Json, item'.ioValues = item.ioValues →
      item'.ioValues = item.ioValues ++ [] := fun item' h => by rw [h, List.append_nil]
  cases event with
  | associate data =>
    cases hstate : s.operatingState with
    | stopped =>
      rw [step, IoActorController.handleAssociate, hstate]
      exact ⟨item, hitem, hquiet item rfl⟩
    | started =>
      refine ⟨_, (get_handleAssociate hstate data id).trans (congrArg _ hitem), hquiet _ ?_⟩
      exact (item.silent_dispatchIoStates id _).ioValues
  | observeIoState ioPointId => exact ⟨item, hitem, hquiet item rfl⟩
  | observeIoValue ioActorId => exact ⟨item, hitem, hquiet item rfl⟩
  | register actor =>
    refine ⟨item, ?_, hquiet item rfl⟩
    rw [step, IoActorController.ensureRegistered]
    cases hactor : s.actorItems.get actor.objectId with
    | some _ => exact hitem
    | none =>
      dsimp only
      rw [Map.get_set, if_neg, hitem]
      rintro rfl
      cases hactor.symm.trans hitem
  | ioValue event =>
    rw [step, emissions]
    cases hstate : s.operatingState with
    | stopped =>
      rw [IoActorController.dispatchIoValue, hstate, if_neg fun h => nomatch h.1]
      exact ⟨item, hitem, hquiet item rfl⟩
    | started =>
      have hstarted := hs.started.mp hstate
      have hsubscriptions : r.subscriptions = if r.isEarly then 2 else 1 := by
        rw [Registration.subscriptions, hstarted]
        cases r.isEarly <;> rfl
      have hregistered : r.isRegistered = true := by
        rw [← hs.registered, hitem]
        rfl
      have hobserves := hs.observes hregistered (by rw [hsubscriptions]; split <;> decide)
      rw [get_dispatchIoValue hstate]
      by_cases hlisted : (s.agent.manager.ioActorItems.getAt event.topic id).isSome = true
      · rw [if_pos ⟨hlisted, hobserves⟩, if_pos ⟨rfl, hlisted⟩, hitem]
        refine ⟨_, rfl, ?_⟩
        dsimp only
        rw [IoActorItems.dispatchIoValue_eq, (hs.subscriptions item hitem).2, hsubscriptions]
      · rw [if_neg fun h => hlisted h.1, if_neg fun h => hlisted h.2]
        exact ⟨item, hitem, hquiet item rfl⟩
  | start =>
    rw [step, IoActorController.start]
    cases hstate : s.operatingState with
    | started => exact ⟨item, hitem, hquiet item rfl⟩
    | stopped =>
      have h := foldl_reregister id s.actorItems.keys_nodup { s with operatingState := .started }
      dsimp only
      rw [reregisterAll, h.item, if_pos (Map.mem_keys.mpr ⟨item, hitem⟩)]
      dsimp only
      rw [hitem]
      refine ⟨_, rfl, hquiet _ ?_⟩
      dsimp only
      rw [IoActorItems.reregister_eq]
  | stop => exact ⟨_, (get_stop s id).trans (congrArg _ hitem), hquiet _ rfl⟩

/-- In every run an actor that was asked about shows whether it is associated, and the next value on a route on which it is listed is emitted once, or twice if it was asked about before the start. -/
theorem emits (ioNodes : List (OwnIoNode Props Rate)) (events : List (Event Props Rate Raw Json)) (actorId : Uuid)
    (item : IoActorItems Props Rate Raw Json)
    (h : (events.foldl step (init ioNodes)).actorItems.get actorId = some item) :
    let s := events.foldl step (init ioNodes)
    item.association = (s.agent.manager.ioStateSubject actorId).hasAssociations ∧
      (s.operatingState = .stopped → item.association = false) ∧
      ∀ event, ∃ item', (s.step event).actorItems.get actorId = some item' ∧
        item'.ioValues = item.ioValues ++ emissions s (events.foldl (Registration.step actorId) Registration.initial) actorId event := by
  intro s
  have hs : Sound actorId s (events.foldl (Registration.step actorId) Registration.initial) :=
    sound_foldl events (sound_init ioNodes actorId)
  refine ⟨?_, fun hstopped => (hs.unassociated hstopped).2 item h, hs.ioValues_step h⟩
  cases hstate : s.operatingState with
  | stopped =>
    obtain ⟨hsubject, hassociation⟩ := hs.unassociated hstate
    rw [hassociation item h, hsubject]
  | started =>
    have hpositive : 0 < (events.foldl (Registration.step actorId) Registration.initial).subscriptions := by
      rw [Registration.subscriptions, hs.started.mp hstate]
      exact Nat.succ_pos _
    obtain ⟨state, hobserved, hassociation⟩ := hs.shows item h hpositive
    rw [hassociation, ioStateSubject, hobserved, Option.getD_some]

/-- The display is asked about before the start, and the recorder after it. -/
def roomEvents : List (Event Unit Nat Unit Nat) :=
  [.register ⟨displayId, text "celsius", none, none, none, ()⟩, .start,
    .register ⟨recorderId, text "celsius", none, none, none, ()⟩,
    .associate ⟨thermometerId, displayId, some thermometerId, none, none⟩,
    .associate ⟨thermometerId, recorderId, some thermometerId, none, none⟩]

def roomRun : IoActorController Unit Nat Unit Nat := roomEvents.foldl step (init [roomNode])

theorem isSome_displayItem : (roomRun.actorItems.get displayId).isSome = true := by decide

theorem isSome_recorderItem : (roomRun.actorItems.get recorderId).isSome = true := by decide

/-- The observers of the display get the temperature twice. -/
theorem emits_roomRun :
    (∃ item, (roomRun.step (.ioValue ⟨thermometerId, .json 21⟩)).actorItems.get displayId = some item ∧
      item.ioValues = [.json 21, .json 21]) ∧
    ∃ item, (roomRun.step (.ioValue ⟨thermometerId, .json 21⟩)).actorItems.get recorderId = some item ∧
      item.ioValues = [.json 21] := by
  have hdisplay := emits [roomNode] roomEvents displayId _ (Option.some_get isSome_displayItem).symm
  have hrecorder := emits [roomNode] roomEvents recorderId _ (Option.some_get isSome_recorderItem).symm
  obtain ⟨item, hitem, hvalues⟩ := hdisplay.2.2 (.ioValue ⟨thermometerId, .json 21⟩)
  obtain ⟨item', hitem', hvalues'⟩ := hrecorder.2.2 (.ioValue ⟨thermometerId, .json 21⟩)
  refine ⟨⟨item, hitem, hvalues.trans ?_⟩, ⟨item', hitem', hvalues'.trans ?_⟩⟩
  · decide
  · decide

end IoActorController

end Coaty
