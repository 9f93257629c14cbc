import Coaty.Transition
import Mathlib.Data.List.Induction

/-!
# The lifecycle of controllers

A container constructs its configured controllers, calls the lifecycle methods of its controllers in loops over their map, and calls those of a controller that is registered later right away. Constructors, callbacks and observers of the operating state can register further controllers, which a loop over the map that is under way or still to come then visits, too. Controllers are numbered in the order in which they enter the map, which is the order of the map as long as their names are fresh.

What each controller is still due from the loops and calls under way, after what it was called so far, does not change while the loops go on. So a controller is called as it should be exactly if nothing is registered before a loop over the map has come to its end.
-/

namespace Coaty

open Transition

inductive LifecycleCall where
  | onInit
  | onCommunicationManagerStarting
  | onCommunicationManagerStopping
  | onDispose
deriving DecidableEq

inductive OperatingState where
  | started
  | stopped
deriving DecidableEq

/-- What is under way or comes next: a loop over the map of controllers with the number of the controller it visits next, or the construction and the calls for a controller that is being registered. -/
inductive Frame where
  /-- The constructors of the configured controllers that have not returned yet, the first of which is running. -/
  | resolveControllers (remaining : Nat)
  /-- The initialization in `_resolveComponents`. -/
  | resolveComponents (next : Nat)
  /-- Observers of the operating state that have subscribed before the container. -/
  | earlierObservers
  /-- The dispatch of an operating state. -/
  | operatingState (state : OperatingState) (next : Nat)
  /-- `_releaseComponents` -/
  | releaseComponents (next : Nat)
  /-- The constructor of a controller that is registered is running. -/
  | construct
  /-- `onInit` of a controller that is registered is running. -/
  | registerController (ctrl : Nat)
  /-- The operating state is dispatched to a controller that is registered. -/
  | registeredController (ctrl : Nat)
deriving DecidableEq

structure Container where
  /-- The number of controllers in the map. -/
  controllers : Nat
  operatingState : OperatingState
  isShutdown : Bool
  /-- The loops and registrations under way and to come, innermost first. -/
  frames : List Frame
  /-- The calls so far, oldest first. -/
  calls : List (Nat × LifecycleCall)

inductive Container.Action where
  /-- The innermost loop or registration goes on, after what it was running has returned. -/
  | proceed
  | registerController
  | start
  | stop
  | shutdown
deriving DecidableEq

def OperatingState.call : OperatingState → LifecycleCall
  | .started => .onCommunicationManagerStarting
  | .stopped => .onCommunicationManagerStopping

/-- Whether a loop or a registration is running application code. -/
def Frame.isCalling : Frame → Bool
  | .resolveControllers remaining => 0 < remaining
  | .resolveComponents next => 0 < next
  | .earlierObservers => true
  | .operatingState _ next => 0 < next
  | .releaseComponents next => 0 < next
  | .construct => true
  | .registerController _ => true
  | .registeredController _ => true

namespace Container

/-- A container with the given number of configured controllers, which are constructed before they are initialized. -/
def resolve (configured : Nat) : Container :=
  ⟨0, .stopped, false, [.resolveControllers configured, .resolveComponents 0], []⟩

variable (s : Container)

/-- A step of a loop: the next controller is called, or the loop ends. -/
def visit (frame : Nat → Frame) (call : LifecycleCall) (next : Nat) (outer : List Frame) : Container :=
  if next < s.controllers then { s with frames := frame (next + 1) :: outer, calls := s.calls ++ [(next, call)] }
  else { s with frames := outer }

def proceed : Container :=
  match s.frames with
  | [] => s
  | .resolveControllers 0 :: outer => { s with frames := outer }
  | .resolveControllers (remaining + 1) :: outer =>
    { s with controllers := s.controllers + 1, frames := .resolveControllers remaining :: outer }
  | .resolveComponents next :: outer => s.visit .resolveComponents .onInit next outer
  | .earlierObservers :: outer => { s with frames := outer }
  | .operatingState state next :: outer => s.visit (.operatingState state) state.call next outer
  | .releaseComponents next :: outer => s.visit .releaseComponents .onDispose next outer
  | .construct :: outer =>
    { s with controllers := s.controllers + 1
             frames := .registerController s.controllers :: outer
             calls := s.calls ++ [(s.controllers, .onInit)] }
  | .registerController ctrl :: outer =>
    match s.operatingState with
    | .started =>
      { s with frames := .registeredController ctrl :: outer
               calls := s.calls ++ [(ctrl, .onCommunicationManagerStarting)] }
    | .stopped => { s with frames := outer }
  | .registeredController _ :: outer => { s with frames := outer }

/-- Application code runs in constructors, callbacks and observers, and outside of all loops. -/
def isRunningApplication : Bool := s.frames.head?.all Frame.isCalling

def registerController : Container :=
  if s.isShutdown then s else { s with frames := .construct :: s.frames }

def updateOperatingState (newState : OperatingState) : Container :=
  if s.operatingState = newState then s
  else { s with operatingState := newState, frames := .earlierObservers :: .operatingState newState 0 :: s.frames }

/-- The communication manager is disposed first. -/
def shutdown : Container :=
  if s.isShutdown then s
  else updateOperatingState { s with isShutdown := true, frames := .releaseComponents 0 :: s.frames } .stopped

/-- Callbacks do not start or stop the manager, and neither does anyone after the shutdown. -/
def step (s : Container) : Action → Container
  | .proceed => s.proceed
  | .registerController => if s.isRunningApplication then s.registerController else s
  | .start => if s.frames = [] ∧ s.isShutdown = false then s.updateOperatingState .started else s
  | .stop => if s.frames = [] ∧ s.isShutdown = false then s.updateOperatingState .stopped else s
  | .shutdown => if s.frames = [] then s.shutdown else s

end Container

/-! ### The lifecycle of one controller -/

/-- What has been called for a controller last. -/
inductive Phase where
  | created
  | stopped
  | started
  | disposed
deriving DecidableEq

namespace Phase

def next : Phase → LifecycleCall → Option Phase
  | .created, .onInit => some .stopped
  | .stopped, .onCommunicationManagerStarting => some .started
  | .started, .onCommunicationManagerStopping => some .stopped
  | .stopped, .onDispose => some .disposed
  | _, _ => none

/-- The phase after calls, unless one of them comes at the wrong time. -/
def after (phase : Phase) (calls : List LifecycleCall) : Option Phase := calls.foldlM next phase

@[simp] theorem after_nil (phase : Phase) : phase.after [] = some phase := rfl

@[simp] theorem after_cons (phase : Phase) (call : LifecycleCall) (calls : List LifecycleCall) :
    phase.after (call :: calls) = (phase.next call).bind fun phase => phase.after calls := rfl

theorem after_append (phase : Phase) (calls more : List LifecycleCall) :
    phase.after (calls ++ more) = (phase.after calls).bind fun phase => phase.after more := by
  rw [after, List.foldlM_append]
  rfl

/-- A number of starts, each followed by a stop. -/
def rounds (n : Nat) : List LifecycleCall :=
  (List.replicate n [.onCommunicationManagerStarting, .onCommunicationManagerStopping]).flatten

theorem rounds_succ (n : Nat) :
    rounds (n + 1) = .onCommunicationManagerStarting :: .onCommunicationManagerStopping :: rounds n := by
  simp [rounds, List.replicate_succ]

/-- How the calls end that lead to a phase. -/
def lastCalls : Phase → Option (List LifecycleCall)
  | .created => none
  | .stopped => some []
  | .started => some [.onCommunicationManagerStarting]
  | .disposed => some [.onDispose]

theorem after_rounds (n : Nat) (calls : List LifecycleCall) : stopped.after (rounds n ++ calls) = stopped.after calls := by
  induction n with
  | zero => rfl
  | succ n ih =>
    rw [rounds_succ]
    exact ih

theorem after_stopped {calls : List LifecycleCall} {phase : Phase} (h : stopped.after calls = some phase) :
    ∃ n last, lastCalls phase = some last ∧ calls = rounds n ++ last := by
  induction calls using List.twoStepInduction with
  | nil =>
    cases h
    exact ⟨0, [], rfl, rfl⟩
  | singleton call =>
    cases call <;> cases h
    · exact ⟨0, _, rfl, rfl⟩
    · exact ⟨0, _, rfl, rfl⟩
  | cons_cons call call' calls ih _ =>
    cases call with
    | onCommunicationManagerStarting =>
      cases call' with
      | onCommunicationManagerStopping =>
        obtain ⟨n, last, hlast, rfl⟩ := ih h
        exact ⟨n + 1, last, hlast, by rw [rounds_succ]; rfl⟩
      | _ => cases h
    | onDispose => cases call' <;> cases h
    | _ => cases h

/-- The calls of a controller are `onInit`, a number of starts and stops in turn, and whatever the phase ends with. -/
theorem after_created_iff {calls : List LifecycleCall} {phase : Phase} {last : List LifecycleCall}
    (hlast : lastCalls phase = some last) :
    created.after calls = some phase ↔ ∃ n, calls = .onInit :: rounds n ++ last := by
  constructor
  · intro h
    cases calls with
    | nil =>
      cases h
      cases hlast
    | cons call calls =>
      cases call with
      | onInit =>
        obtain ⟨n, last', hlast', rfl⟩ := after_stopped h
        cases hlast.symm.trans hlast'
        exact ⟨n, rfl⟩
      | _ => cases h
  · intro ⟨n, hcalls⟩
    have hphase : stopped.after last = some phase := by
      cases phase <;> cases hlast <;> rfl
    rw [hcalls, List.cons_append, after_cons, ← hphase]
    exact after_rounds n last

end Phase

/-! ### What controllers are due -/

def Frame.due (operatingState : OperatingState) (ctrl : Nat) : Frame → List LifecycleCall
  | .resolveControllers _ => []
  | .resolveComponents next => if next ≤ ctrl then [.onInit] else []
  | .earlierObservers => []
  | .operatingState state next => if next ≤ ctrl then [state.call] else []
  | .releaseComponents next => if next ≤ ctrl then [.onDispose] else []
  | .construct => []
  | .registerController registered =>
    if registered = ctrl ∧ operatingState = .started then [.onCommunicationManagerStarting] else []
  | .registeredController _ => []

def Frame.isLoop : Frame → Bool
  | .resolveControllers _ => false
  | .resolveComponents _ => true
  | .earlierObservers => false
  | .operatingState _ _ => true
  | .releaseComponents _ => true
  | .construct => false
  | .registerController _ => false
  | .registeredController _ => false

namespace Container

variable (s : Container)

def callsOf (calls : List (Nat × LifecycleCall)) (ctrl : Nat) : List LifecycleCall :=
  (calls.filter fun call => call.1 = ctrl).map Prod.snd

/-- The calls so far, and those under way. -/
def total (ctrl : Nat) : List LifecycleCall :=
  callsOf s.calls ctrl ++ s.frames.flatMap (Frame.due s.operatingState ctrl)

/-- The phase that all controllers are in when no loop is running. -/
def phase : Phase :=
  if s.isShutdown then .disposed
  else match s.operatingState with
    | .started => .started
    | .stopped => .stopped

/-- No controller is ever called at the wrong time, and outside of loops all are in the same phase. -/
structure Disciplined : Prop where
  valid : ∀ ctrl < s.controllers, Phase.created.after (callsOf s.calls ctrl) ≠ none
  settled : s.frames = [] → ∀ ctrl < s.controllers, Phase.created.after (callsOf s.calls ctrl) = some s.phase

/-- No controller is registered while a loop over the map of controllers is under way or still to come. -/
def RegistersOutside (s : Container) : Action → Prop
  | .registerController => s.isShutdown = false → s.isRunningApplication = true → ∀ frame ∈ s.frames, frame.isLoop = false
  | _ => True

/-! ### Loops and registrations -/

variable {s}

theorem callsOf_append (calls : List (Nat × LifecycleCall)) (called : Nat) (call : LifecycleCall) (ctrl : Nat) :
    callsOf (calls ++ [(called, call)]) ctrl = callsOf calls ctrl ++ if called = ctrl then [call] else [] := by
  rw [callsOf, callsOf, List.filter_append, List.map_append]
  by_cases h : called = ctrl
  · simp [h]
  · simp [h]

theorem total_visit {frame : Nat → Frame} {call : LifecycleCall} {next ctrl : Nat} {outer : List Frame}
    (hdue : ∀ next, (frame next).due s.operatingState ctrl = if next ≤ ctrl then [call] else [])
    (hframes : s.frames = frame next :: outer) (hctrl : ctrl < s.controllers) :
    (s.visit frame call next outer).total ctrl = s.total ctrl := by
  have htotal : s.total ctrl = callsOf s.calls ctrl ++
      ((if next ≤ ctrl then [call] else []) ++ outer.flatMap (Frame.due s.operatingState ctrl)) := by
    rw [total, hframes, List.flatMap_cons, hdue]
  rw [htotal, visit]
  by_cases hnext : next < s.controllers
  · rw [if_pos hnext, total, callsOf_append, List.flatMap_cons, hdue]
    by_cases hvisited : next = ctrl
    · have hnot : ¬ next + 1 ≤ ctrl := by omega
      simp [hvisited]
    · by_cases hlater : next ≤ ctrl
      · have hlater' : next + 1 ≤ ctrl := by omega
        simp [hvisited, hlater, hlater']
      · have hlater' : ¬ next + 1 ≤ ctrl := by omega
        simp [hvisited, hlater, hlater']
  · have hlater : ¬ next ≤ ctrl := by omega
    rw [if_neg hnext, if_neg hlater, List.nil_append]
    rfl

theorem total_proceed {ctrl : Nat} (hctrl : ctrl < s.controllers) : s.proceed.total ctrl = s.total ctrl := by
  rw [proceed.eq_def]
  split
  · rfl
  · rename_i hframes
    rw [total, total, hframes]
    rfl
  · rename_i hframes
    rw [total, total, hframes]
    rfl
  · rename_i hframes
    exact total_visit (fun _ => rfl) hframes hctrl
  · rename_i hframes
    rw [total, total, hframes]
    rfl
  · rename_i hframes
    exact total_visit (fun _ => rfl) hframes hctrl
  · rename_i hframes
    exact total_visit (fun _ => rfl) hframes hctrl
  · rename_i outer hframes
    have hne : s.controllers ≠ ctrl := Nat.ne_of_gt hctrl
    rw [total, total, hframes]
    simp [callsOf_append, Frame.due, hne]
  · rename_i registered outer hframes
    have htotal : s.total ctrl = callsOf s.calls ctrl ++ ((if registered = ctrl ∧ s.operatingState = .started then
        [.onCommunicationManagerStarting] else []) ++ outer.flatMap (Frame.due s.operatingState ctrl)) := by
      rw [total, hframes, List.flatMap_cons]
      rfl
    rw [htotal]
    cases hstate : s.operatingState with
    | started =>
      dsimp only
      rw [total, callsOf_append]
      simp [Frame.due]
    | stopped =>
      dsimp only
      rw [total]
      simp
  · rename_i hframes
    rw [total, total, hframes]
    rfl

/-- What a frame says of the state, and that it is due to all controllers that are registered after it. -/
def Fits (s : Container) : Frame → Prop
  | .resolveControllers _ => True
  | .resolveComponents next => next ≤ s.controllers ∧ s.isShutdown = false ∧ s.operatingState = .stopped
  | .earlierObservers => True
  | .operatingState state next => next ≤ s.controllers ∧ state = s.operatingState
  | .releaseComponents next => next ≤ s.controllers ∧ s.isShutdown = true
  | .construct => s.isShutdown = false
  | .registerController ctrl => ctrl < s.controllers
  | .registeredController _ => True

/-- Each frame goes with those outside of it. -/
def WithOuter (p : Frame → List Frame → Prop) : List Frame → Prop
  | [] => True
  | frame :: outer => p frame outer ∧ WithOuter p outer

/-- The configured controllers are initialized when all are constructed. -/
def Resolves (frame : Frame) (outer : List Frame) : Prop :=
  ∀ remaining, frame = .resolveControllers remaining → outer = [.resolveComponents 0]

/-- A controller under construction does not enter the map before a loop over it. -/
def ConstructsOutside (frame : Frame) (outer : List Frame) : Prop :=
  frame = .construct → ∀ frame ∈ outer, frame.isLoop = false

/-- The frames fit, and only controllers have been called. -/
structure Fitting (s : Container) : Prop where
  frames : ∀ frame ∈ s.frames, s.Fits frame
  called : ∀ call ∈ s.calls, call.1 < s.controllers
  resolves : WithOuter Resolves s.frames

/-- A controller is due nothing else than what leads to the phase of the container, unless it is called at a wrong time. -/
structure Coherent (s : Container) : Prop extends Fitting s where
  phases : ∀ ctrl < s.controllers,
    Phase.created.after (s.total ctrl) = none ∨ Phase.created.after (s.total ctrl) = some s.phase

/-- No controller is or will be called at a wrong time. -/
structure Sound (s : Container) : Prop where
  calls : ∀ ctrl < s.controllers, Phase.created.after (s.total ctrl) ≠ none
  outside : WithOuter ConstructsOutside s.frames

theorem Coherent.after_total (h : Coherent s) (hsound : Sound s) {ctrl : Nat} (hctrl : ctrl < s.controllers) :
    Phase.created.after (s.total ctrl) = some s.phase :=
  (h.phases ctrl hctrl).resolve_left (hsound.calls ctrl hctrl)

theorem phase_proceed : s.proceed.phase = s.phase := by
  have hvisit : ∀ frame call next outer, (s.visit frame call next outer).phase = s.phase := by
    intro frame call next outer
    rw [visit]
    split <;> rfl
  rw [proceed.eq_def]
  split
  · rfl
  · rfl
  · rfl
  · exact hvisit _ _ _ _
  · rfl
  · exact hvisit _ _ _ _
  · exact hvisit _ _ _ _
  · rfl
  · split <;> rfl
  · rfl

/-- All controllers are due some more calls, which lead to the phase of the container. -/
structure Advances (s t : Container) (calls : List LifecycleCall) : Prop where
  controllers : t.controllers = s.controllers
  outside : WithOuter ConstructsOutside t.frames ↔ WithOuter ConstructsOutside s.frames
  total : ∀ ctrl < s.controllers, t.total ctrl = s.total ctrl ++ calls
  phase : s.phase.after calls = some t.phase

variable {t : Container} {calls : List LifecycleCall}

theorem Advances.refl (s : Container) : Advances s s [] := ⟨rfl, Iff.rfl, fun _ _ => (List.append_nil _).symm, rfl⟩

theorem Advances.phases (h : Advances s t calls) (hs : Coherent s) {ctrl : Nat} (hctrl : ctrl < t.controllers) :
    Phase.created.after (t.total ctrl) = none ∨ Phase.created.after (t.total ctrl) = some t.phase := by
  rw [h.controllers] at hctrl
  rw [h.total ctrl hctrl, Phase.after_append]
  obtain hnone | hsome := hs.phases ctrl hctrl
  · left
    rw [hnone]
    rfl
  · right
    rw [hsome]
    exact h.phase

theorem Advances.sound_iff (h : Advances s t calls) (hs : Coherent s) : Sound t ↔ Sound s := by
  constructor
  · intro hsound
    refine ⟨fun ctrl hctrl hnone => ?_, h.outside.mp hsound.outside⟩
    apply hsound.calls ctrl (h.controllers.symm ▸ hctrl)
    rw [h.total ctrl hctrl, Phase.after_append, hnone]
    rfl
  · intro hsound
    refine ⟨fun ctrl hctrl => ?_, h.outside.mpr hsound.outside⟩
    rw [h.controllers] at hctrl
    rw [h.total ctrl hctrl, Phase.after_append, hs.after_total hsound hctrl, Option.bind_some, h.phase]
    exact Option.some_ne_none _

theorem advances_updateOperatingState (hframes : s.frames = []) (hrunning : s.isShutdown = false)
    (newState : OperatingState) : ∃ calls, Advances s (s.updateOperatingState newState) calls := by
  rw [updateOperatingState]
  by_cases hsame : s.operatingState = newState
  · rw [if_pos hsame]
    exact ⟨[], Advances.refl s⟩
  · rw [if_neg hsame]
    refine ⟨[newState.call], rfl, ?_, fun ctrl _ => ?_, ?_⟩
    · simp [hframes, WithOuter, ConstructsOutside]
    · rw [total, total, hframes]
      simp [Frame.due]
    · rw [phase, phase, hrunning]
      cases hstate : s.operatingState <;> cases newState <;> first | exact absurd hstate hsame | rfl

theorem advances_shutdown (hframes : s.frames = []) : ∃ calls, Advances s s.shutdown calls := by
  rw [shutdown]
  by_cases hshutdown : s.isShutdown = true
  · rw [if_pos hshutdown]
    exact ⟨[], Advances.refl s⟩
  · rw [if_neg hshutdown, updateOperatingState]
    cases hstate : s.operatingState with
    | stopped =>
      refine ⟨[.onDispose], rfl, ?_, fun ctrl _ => ?_, ?_⟩
      · simp [hframes, WithOuter, ConstructsOutside]
      · simp [total, hframes, Frame.due]
      · simp [phase, hshutdown, hstate, Phase.next]
    | started =>
      refine ⟨[.onCommunicationManagerStopping, .onDispose], rfl, ?_, fun ctrl _ => ?_, ?_⟩
      · simp [hframes, WithOuter, ConstructsOutside]
      · simp [total, hframes, Frame.due, OperatingState.call]
      · simp [phase, hshutdown, hstate, Phase.next]

theorem step_advances {action : Action} (hproceed : action ≠ .proceed) (haction : action ≠ .registerController) :
    ∃ calls, Advances s (step s action) calls := by
  cases action with
  | proceed => exact absurd rfl hproceed
  | registerController => exact absurd rfl haction
  | start =>
    rw [step]
    split
    · rename_i h
      exact advances_updateOperatingState h.1 h.2 .started
    · exact ⟨[], Advances.refl s⟩
  | stop =>
    rw [step]
    split
    · rename_i h
      exact advances_updateOperatingState h.1 h.2 .stopped
    · exact ⟨[], Advances.refl s⟩
  | shutdown =>
    rw [step]
    split
    · rename_i h
      exact advances_shutdown h
    · exact ⟨[], Advances.refl s⟩

/-! ### Registering a controller -/

theorem flatMap_due_eq_nil {frames : List Frame} {operatingState : OperatingState}
    (hfits : ∀ frame ∈ frames, s.Fits frame) (hloop : ∀ frame ∈ frames, frame.isLoop = false) :
    frames.flatMap (Frame.due operatingState s.controllers) = [] := by
  rw [List.flatMap_eq_nil_iff]
  intro frame hmem
  have hfit := hfits frame hmem
  have hno := hloop frame hmem
  cases frame with
  | registerController ctrl =>
    have hne : ctrl ≠ s.controllers := Nat.ne_of_lt hfit
    simp [Frame.due, hne]
  | resolveComponents next => cases hno
  | operatingState state next => cases hno
  | releaseComponents next => cases hno
  | _ => rfl

/-- A loop that is under way calls a controller that has been registered meanwhile at a wrong time. -/
theorem after_due_eq_none {frames : List Frame} (hfits : ∀ frame ∈ frames, s.Fits frame)
    (hrunning : s.isShutdown = false) (hloop : ∃ frame ∈ frames, frame.isLoop = true) :
    s.phase.after (frames.flatMap (Frame.due s.operatingState s.controllers)) = none := by
  induction frames with
  | nil =>
    obtain ⟨frame, hmem, _⟩ := hloop
    cases hmem
  | cons frame frames ih =>
    rw [List.forall_mem_cons] at hfits
    rw [List.flatMap_cons]
    cases frame with
    | resolveComponents next =>
      obtain ⟨hnext, _, hstopped⟩ := hfits.1
      simp [Frame.due, hnext, phase, hrunning, hstopped, Phase.next]
    | operatingState state next =>
      obtain ⟨hnext, hstate⟩ := hfits.1
      cases hs : s.operatingState <;>
        simp [Frame.due, hnext, phase, hrunning, hstate, hs, OperatingState.call, Phase.next]
    | releaseComponents next =>
      obtain ⟨_, hshutdown⟩ := hfits.1
      rw [hrunning] at hshutdown
      cases hshutdown
    | registerController ctrl =>
      have hne : ctrl ≠ s.controllers := Nat.ne_of_lt hfits.1
      have hrest : ∃ frame ∈ frames, frame.isLoop = true := by
        obtain ⟨frame, hmem, hframe⟩ := hloop
        obtain rfl | hmem := List.mem_cons.mp hmem
        · cases hframe
        · exact ⟨frame, hmem, hframe⟩
      simpa [Frame.due, hne] using ih hfits.2 hrest
    | _ =>
      have hrest : ∃ frame ∈ frames, frame.isLoop = true := by
        obtain ⟨frame, hmem, hframe⟩ := hloop
        obtain rfl | hmem := List.mem_cons.mp hmem
        · cases hframe
        · exact ⟨frame, hmem, hframe⟩
      exact ih hfits.2 hrest

theorem callsOf_eq_nil (h : ∀ call ∈ s.calls, call.1 < s.controllers) : callsOf s.calls s.controllers = [] := by
  rw [callsOf, List.map_eq_nil_iff, List.filter_eq_nil_iff]
  intro call hmem heq
  have hlt := h call hmem
  rw [of_decide_eq_true heq] at hlt
  omega

/-! ### Controllers that enter the map -/

theorem Fits.mono {frame : Frame} (h : s.Fits frame) (hcontrollers : s.controllers ≤ t.controllers)
    (hshutdown : t.isShutdown = s.isShutdown) (hstate : t.operatingState = s.operatingState) : t.Fits frame := by
  cases frame with
  | resolveComponents next =>
    exact ⟨Nat.le_trans h.1 hcontrollers, hshutdown.trans h.2.1, hstate.trans h.2.2⟩
  | operatingState state next => exact ⟨Nat.le_trans h.1 hcontrollers, h.2.trans hstate.symm⟩
  | releaseComponents next => exact ⟨Nat.le_trans h.1 hcontrollers, hshutdown.trans h.2⟩
  | construct => exact hshutdown.trans h
  | registerController ctrl => exact Nat.lt_of_lt_of_le h hcontrollers
  | _ => trivial

theorem after_total_constructed (h : Fitting s) {remaining : Nat} {outer : List Frame}
    (hframes : s.frames = .resolveControllers (remaining + 1) :: outer) :
    Phase.created.after (s.proceed.total s.controllers) = some s.phase := by
  have hresolves := h.resolves
  rw [hframes] at hresolves
  have houter : outer = [.resolveComponents 0] := hresolves.1 (remaining + 1) rfl
  subst houter
  obtain ⟨-, hrunning, hstopped⟩ := h.frames (.resolveComponents 0) (by rw [hframes]; simp)
  have hphase : s.phase = .stopped := by
    rw [phase, hrunning, hstopped]
    rfl
  have hcalls : callsOf s.calls s.controllers = [] := callsOf_eq_nil h.called
  rw [hphase, proceed, hframes]
  simp [total, hcalls, Frame.due, Phase.next]

/-- A registered controller is due what leads to the phase of the container, and then what the loops under way call. -/
theorem after_total_registered (h : Fitting s) {outer : List Frame} (hframes : s.frames = .construct :: outer) :
    Phase.created.after (s.proceed.total s.controllers) =
      s.phase.after (outer.flatMap (Frame.due s.operatingState s.controllers)) := by
  have hrunning : s.isShutdown = false := h.frames .construct (by rw [hframes]; simp)
  rw [proceed, hframes, total, callsOf_append, callsOf_eq_nil h.called]
  cases hstate : s.operatingState <;> simp [Frame.due, Phase.next, phase, hrunning, hstate]

theorem controllers_proceed : s.proceed.controllers = s.controllers ∨
    s.proceed.controllers = s.controllers + 1 ∧
      ((∃ remaining outer, s.frames = .resolveControllers (remaining + 1) :: outer) ∨
        ∃ outer, s.frames = .construct :: outer) := by
  have hvisit : ∀ frame call next outer, (s.visit frame call next outer).controllers = s.controllers := by
    intro frame call next outer
    rw [visit]
    split <;> rfl
  rw [proceed.eq_def]
  split
  · exact Or.inl rfl
  · exact Or.inl rfl
  · rename_i remaining outer hframes
    exact Or.inr ⟨rfl, Or.inl ⟨remaining, outer, hframes⟩⟩
  · exact Or.inl (hvisit _ _ _ _)
  · exact Or.inl rfl
  · exact Or.inl (hvisit _ _ _ _)
  · exact Or.inl (hvisit _ _ _ _)
  · rename_i outer hframes
    exact Or.inr ⟨rfl, Or.inr ⟨outer, hframes⟩⟩
  · split <;> exact Or.inl rfl
  · exact Or.inl rfl

theorem frames_proceed : s.frames = [] ∧ s.proceed.frames = [] ∨ ∃ frame outer, s.frames = frame :: outer ∧
    (s.proceed.frames = outer ∨ ∃ frame', s.proceed.frames = frame' :: outer ∧ frame' ≠ .construct ∧
      ∀ remaining, frame' = .resolveControllers remaining → frame = .resolveControllers (remaining + 1)) := by
  have hvisit : ∀ (frame : Nat → Frame) call next outer, (∀ next, frame next ≠ .construct) →
      (∀ next remaining, frame next ≠ .resolveControllers remaining) →
      (s.visit frame call next outer).frames = outer ∨ ∃ frame', (s.visit frame call next outer).frames = frame' :: outer ∧
        frame' ≠ .construct ∧ ∀ remaining, frame' = .resolveControllers remaining →
          frame next = .resolveControllers (remaining + 1) := by
    intro frame call next outer hconstruct hresolve
    rw [visit]
    split
    · exact Or.inr ⟨frame (next + 1), rfl, hconstruct _, fun remaining h => absurd h (hresolve _ remaining)⟩
    · exact Or.inl rfl
  rw [proceed.eq_def]
  split
  · rename_i hframes
    exact Or.inl ⟨hframes, hframes⟩
  · rename_i outer hframes
    exact Or.inr ⟨_, outer, hframes, Or.inl rfl⟩
  · rename_i remaining outer hframes
    exact Or.inr ⟨_, outer, hframes, Or.inr ⟨_, rfl, nofun, fun _ h => by cases h; rfl⟩⟩
  · rename_i next outer hframes
    exact Or.inr ⟨_, outer, hframes, hvisit .resolveComponents _ next outer nofun nofun⟩
  · rename_i outer hframes
    exact Or.inr ⟨_, outer, hframes, Or.inl rfl⟩
  · rename_i state next outer hframes
    exact Or.inr ⟨_, outer, hframes, hvisit (.operatingState state) _ next outer nofun nofun⟩
  · rename_i next outer hframes
    exact Or.inr ⟨_, outer, hframes, hvisit .releaseComponents _ next outer nofun nofun⟩
  · rename_i outer hframes
    exact Or.inr ⟨_, outer, hframes, Or.inr ⟨_, rfl, nofun, nofun⟩⟩
  · rename_i ctrl outer hframes
    split
    · exact Or.inr ⟨_, outer, hframes, Or.inr ⟨_, rfl, nofun, nofun⟩⟩
    · exact Or.inr ⟨_, outer, hframes, Or.inl rfl⟩
  · rename_i ctrl outer hframes
    exact Or.inr ⟨_, outer, hframes, Or.inl rfl⟩

/-! ### Each step -/

theorem Fitting.visit (h : Fitting s) {frame : Nat → Frame} {call : LifecycleCall} {next : Nat} {outer : List Frame}
    (hframes : s.frames = frame next :: outer)
    (hnext : next < s.controllers → s.Fits (frame next) → s.Fits (frame (next + 1))) :
    (∀ inner ∈ (s.visit frame call next outer).frames, (s.visit frame call next outer).Fits inner) ∧
      ∀ called ∈ (s.visit frame call next outer).calls, called.1 < (s.visit frame call next outer).controllers := by
  have hfits := h.frames
  rw [hframes, List.forall_mem_cons] at hfits
  rw [Container.visit]
  by_cases hlt : next < s.controllers
  · rw [if_pos hlt]
    refine ⟨List.forall_mem_cons.mpr ⟨hnext hlt hfits.1, hfits.2⟩, fun called hmem => ?_⟩
    obtain hmem | heq := List.mem_append.mp hmem
    · exact h.called called hmem
    · rw [List.mem_singleton.mp heq]
      exact hlt
  · rw [if_neg hlt]
    exact ⟨hfits.2, h.called⟩

theorem fits_proceed (h : Fitting s) : (∀ frame ∈ s.proceed.frames, s.proceed.Fits frame) ∧
    ∀ called ∈ s.proceed.calls, called.1 < s.proceed.controllers := by
  have hfits := h.frames
  rw [Container.proceed.eq_def]
  split
  · exact ⟨hfits, h.called⟩
  · rename_i hframes
    rw [hframes, List.forall_mem_cons] at hfits
    exact ⟨hfits.2, h.called⟩
  · rename_i remaining outer hframes
    rw [hframes, List.forall_mem_cons] at hfits
    refine ⟨fun frame hmem => ?_, fun called hmem => ?_⟩
    · obtain rfl | hmem := List.mem_cons.mp hmem
      · trivial
      · exact Fits.mono (hfits.2 frame hmem) (Nat.le_succ s.controllers) rfl rfl
    · exact Nat.lt_succ_of_lt (h.called called hmem)
  · rename_i hframes
    exact h.visit hframes fun hlt hfit => ⟨hlt, hfit.2⟩
  · rename_i hframes
    rw [hframes, List.forall_mem_cons] at hfits
    exact ⟨hfits.2, h.called⟩
  · rename_i hframes
    exact h.visit hframes fun hlt hfit => ⟨hlt, hfit.2⟩
  · rename_i hframes
    exact h.visit hframes fun hlt hfit => ⟨hlt, hfit.2⟩
  · rename_i outer hframes
    rw [hframes, List.forall_mem_cons] at hfits
    refine ⟨fun frame hmem => ?_, fun called hmem => ?_⟩
    · obtain rfl | hmem := List.mem_cons.mp hmem
      · exact Nat.lt_succ_self s.controllers
      · exact Fits.mono (hfits.2 frame hmem) (Nat.le_succ s.controllers) rfl rfl
    · obtain hmem | heq := List.mem_append.mp hmem
      · exact Nat.lt_succ_of_lt (h.called called hmem)
      · rw [List.mem_singleton.mp heq]
        exact Nat.lt_succ_self _
  · rename_i ctrl outer hframes
    rw [hframes, List.forall_mem_cons] at hfits
    split
    · refine ⟨List.forall_mem_cons.mpr ⟨trivial, hfits.2⟩, fun called hmem => ?_⟩
      obtain hmem | heq := List.mem_append.mp hmem
      · exact h.called called hmem
      · rw [List.mem_singleton.mp heq]
        exact hfits.1
    · exact ⟨hfits.2, h.called⟩
  · rename_i hframes
    rw [hframes, List.forall_mem_cons] at hfits
    exact ⟨hfits.2, h.called⟩

theorem Fitting.proceed (h : Fitting s) : Fitting s.proceed := by
  obtain ⟨hfits, hcalled⟩ := fits_proceed h
  refine ⟨hfits, hcalled, ?_⟩
  have hresolves := h.resolves
  rcases frames_proceed (s := s) with ⟨-, hnone⟩ | ⟨frame, outer, hframes, houter | ⟨frame', hframe', -, hresolve⟩⟩
  · rw [hnone]
    trivial
  · rw [hframes] at hresolves
    rw [houter]
    exact hresolves.2
  · rw [hframes] at hresolves
    rw [hframe']
    exact ⟨fun remaining heq => hresolves.1 (remaining + 1) (hresolve remaining heq), hresolves.2⟩

theorem Fitting.updateOperatingState (h : Fitting s) (hframes : s.frames = []) (newState : OperatingState) :
    Fitting (s.updateOperatingState newState) := by
  rw [Container.updateOperatingState]
  split
  · exact h
  · refine ⟨?_, h.called, ?_⟩
    · rw [hframes, List.forall_mem_cons, List.forall_mem_singleton]
      exact ⟨trivial, Nat.zero_le _, rfl⟩
    · simp [hframes, WithOuter, Resolves]

theorem Fitting.shutdown (h : Fitting s) (hframes : s.frames = []) : Fitting s.shutdown := by
  rw [Container.shutdown]
  split
  · exact h
  · rw [Container.updateOperatingState, hframes]
    split
    · refine ⟨?_, h.called, ?_⟩
      · rw [List.forall_mem_singleton]
        exact ⟨Nat.zero_le _, rfl⟩
      · simp [WithOuter, Resolves]
    · refine ⟨?_, h.called, ?_⟩
      · rw [List.forall_mem_cons, List.forall_mem_cons, List.forall_mem_singleton]
        exact ⟨trivial, ⟨Nat.zero_le _, rfl⟩, Nat.zero_le _, rfl⟩
      · simp [WithOuter, Resolves]

theorem registerController_of_running (hrunning : s.isShutdown = false) :
    s.registerController = { s with frames := .construct :: s.frames } := by
  rw [registerController, if_neg]
  rw [hrunning]
  decide

theorem total_registerController (s : Container) (ctrl : Nat) : s.registerController.total ctrl = s.total ctrl := by
  rw [registerController]
  split
  · rfl
  · rfl

theorem Coherent.registerController (h : Coherent s) : Coherent s.registerController := by
  cases hrunning : s.isShutdown with
  | true => rwa [Container.registerController, if_pos hrunning]
  | false =>
    have hphases : ∀ ctrl < s.registerController.controllers,
        Phase.created.after (s.registerController.total ctrl) = none ∨
          Phase.created.after (s.registerController.total ctrl) = some s.registerController.phase := by
      intro ctrl hctrl
      rw [total_registerController, registerController_of_running hrunning]
      rw [registerController_of_running hrunning] at hctrl
      exact h.phases ctrl hctrl
    refine ⟨?_, hphases⟩
    rw [registerController_of_running hrunning]
    refine ⟨List.forall_mem_cons.mpr ⟨hrunning, h.frames⟩, h.called, ?_, h.resolves⟩
    intro remaining heq
    cases heq

theorem Coherent.proceed (h : Coherent s) : Coherent s.proceed := by
  refine ⟨h.toFitting.proceed, fun ctrl hctrl => ?_⟩
  rw [phase_proceed]
  by_cases hold : ctrl < s.controllers
  · rw [total_proceed hold]
    exact h.phases ctrl hold
  · rcases controllers_proceed (s := s) with hsame | ⟨hsucc, ⟨remaining, outer, hframes⟩ | ⟨outer, hframes⟩⟩
    · exact absurd (hsame ▸ hctrl) hold
    · obtain rfl : ctrl = s.controllers := by omega
      exact Or.inr (after_total_constructed h.toFitting hframes)
    · obtain rfl : ctrl = s.controllers := by omega
      have hrunning : s.isShutdown = false := h.frames .construct (by rw [hframes]; simp)
      have hfits : ∀ frame ∈ outer, s.Fits frame := fun frame hmem =>
        h.frames frame (by rw [hframes]; exact List.mem_cons_of_mem _ hmem)
      rw [after_total_registered h.toFitting hframes]
      by_cases hloop : ∃ frame ∈ outer, frame.isLoop = true
      · exact Or.inl (after_due_eq_none hfits hrunning hloop)
      · right
        rw [flatMap_due_eq_nil hfits fun frame hmem => ?_]
        · rfl
        · rw [← Bool.not_eq_true]
          exact fun hframe => hloop ⟨frame, hmem, hframe⟩

theorem Coherent.step (h : Coherent s) (action : Action) : Coherent (step s action) := by
  have hadvances : ∀ {t calls}, Advances s t calls → Fitting t → Coherent t := fun hadvances hfitting =>
    ⟨hfitting, fun ctrl hctrl => hadvances.phases h hctrl⟩
  cases action with
  | proceed => exact h.proceed
  | registerController =>
    rw [Container.step]
    split
    · exact h.registerController
    · exact h
  | start =>
    rw [Container.step]
    split
    · rename_i hidle
      obtain ⟨calls, hcalls⟩ := advances_updateOperatingState hidle.1 hidle.2 .started
      exact hadvances hcalls (h.toFitting.updateOperatingState hidle.1 _)
    · exact h
  | stop =>
    rw [Container.step]
    split
    · rename_i hidle
      obtain ⟨calls, hcalls⟩ := advances_updateOperatingState hidle.1 hidle.2 .stopped
      exact hadvances hcalls (h.toFitting.updateOperatingState hidle.1 _)
    · exact h
  | shutdown =>
    rw [Container.step]
    split
    · rename_i hidle
      obtain ⟨calls, hcalls⟩ := advances_shutdown hidle
      exact hadvances hcalls (h.toFitting.shutdown hidle)
    · exact h

/-! ### Soundness of each step -/

theorem Sound.proceed (h : Coherent s) (hsound : Sound s) : Sound s.proceed := by
  have houtside := hsound.outside
  refine ⟨fun ctrl hctrl => ?_, ?_⟩
  · by_cases hold : ctrl < s.controllers
    · rw [total_proceed hold]
      exact hsound.calls ctrl hold
    · rcases controllers_proceed (s := s) with hsame | ⟨hsucc, ⟨remaining, outer, hframes⟩ | ⟨outer, hframes⟩⟩
      · exact absurd (hsame ▸ hctrl) hold
      · obtain rfl : ctrl = s.controllers := by omega
        rw [after_total_constructed h.toFitting hframes]
        exact Option.some_ne_none _
      · obtain rfl : ctrl = s.controllers := by omega
        have hfits : ∀ frame ∈ outer, s.Fits frame := fun frame hmem =>
          h.frames frame (by rw [hframes]; exact List.mem_cons_of_mem _ hmem)
        rw [hframes] at houtside
        rw [after_total_registered h.toFitting hframes, flatMap_due_eq_nil hfits (houtside.1 rfl)]
        exact Option.some_ne_none _
  · rcases frames_proceed (s := s) with ⟨-, hnone⟩ | ⟨frame, outer, hframes, houter | ⟨frame', hframe', hne, -⟩⟩
    · rw [hnone]
      trivial
    · rw [hframes] at houtside
      rw [houter]
      exact houtside.2
    · rw [hframes] at houtside
      rw [hframe']
      exact ⟨fun heq => absurd heq hne, houtside.2⟩

theorem sound_of_sound_proceed (h : Coherent s) (hsound : Sound s.proceed) : Sound s := by
  have hlater := hsound.outside
  refine ⟨fun ctrl hctrl => ?_, ?_⟩
  · rw [← total_proceed hctrl]
    refine hsound.calls ctrl (Nat.lt_of_lt_of_le hctrl ?_)
    rcases controllers_proceed (s := s) with hsame | ⟨hsucc, -⟩ <;> omega
  · rcases frames_proceed (s := s) with ⟨hnone, -⟩ | ⟨frame, outer, hframes, hproceed⟩
    · rw [hnone]
      trivial
    · have houter : WithOuter ConstructsOutside outer := by
        rcases hproceed with houter | ⟨frame', hframe', -⟩
        · rwa [houter] at hlater
        · rw [hframe'] at hlater
          exact hlater.2
      rw [hframes]
      refine ⟨fun hconstruct frame' hmem => ?_, houter⟩
      subst hconstruct
      rw [← Bool.not_eq_true]
      intro hloop
      have hrunning : s.isShutdown = false := h.frames .construct (by rw [hframes]; simp)
      have hfits : ∀ frame ∈ outer, s.Fits frame := fun frame hmem =>
        h.frames frame (by rw [hframes]; exact List.mem_cons_of_mem _ hmem)
      refine hsound.calls s.controllers ?_ ?_
      · rw [Container.proceed, hframes]
        exact Nat.lt_succ_self _
      · rw [after_total_registered h.toFitting hframes]
        exact after_due_eq_none hfits hrunning ⟨frame', hmem, hloop⟩

theorem sound_registerController_iff (hsound : Sound s) (hrunning : s.isShutdown = false) :
    Sound s.registerController ↔ ∀ frame ∈ s.frames, frame.isLoop = false := by
  constructor
  · intro h
    have houtside := h.outside
    rw [registerController_of_running hrunning] at houtside
    exact houtside.1 rfl
  · intro h
    refine ⟨fun ctrl hctrl => ?_, ?_⟩
    · rw [total_registerController]
      rw [registerController_of_running hrunning] at hctrl
      exact hsound.calls ctrl hctrl
    · rw [registerController_of_running hrunning]
      exact ⟨fun _ => h, hsound.outside⟩

theorem sound_step_iff (h : Coherent s) (hsound : Sound s) (action : Action) :
    Sound (step s action) ↔ RegistersOutside s action := by
  by_cases hproceed : action = .proceed
  · rw [hproceed]
    exact iff_of_true (hsound.proceed h) trivial
  by_cases haction : action = .registerController
  · rw [haction, step]
    split
    · rename_i hrunning
      cases hshutdown : s.isShutdown with
      | true =>
        rw [registerController, if_pos hshutdown]
        refine iff_of_true hsound fun hnot => ?_
        rw [hshutdown] at hnot
        cases hnot
      | false =>
        rw [sound_registerController_iff hsound hshutdown]
        exact ⟨fun hloops _ _ => hloops, fun hloops => hloops hshutdown hrunning⟩
    · rename_i hnot
      exact iff_of_true hsound fun _ hrunning => absurd hrunning hnot
  · obtain ⟨calls, hadvances⟩ := step_advances (s := s) hproceed haction
    refine iff_of_true ((hadvances.sound_iff h).mpr hsound) ?_
    cases action with
    | registerController => exact absurd rfl haction
    | _ => trivial

/-- What is due at a wrong time stays due, or is called. -/
theorem sound_of_sound_step (h : Coherent s) {action : Action} (hsound : Sound (step s action)) : Sound s := by
  by_cases hproceed : action = .proceed
  · rw [hproceed] at hsound
    exact sound_of_sound_proceed h hsound
  by_cases haction : action = .registerController
  · rw [haction, step] at hsound
    split at hsound
    · cases hrunning : s.isShutdown with
      | true => rwa [registerController, if_pos hrunning] at hsound
      | false =>
        have hcalls := hsound.calls
        have houtside := hsound.outside
        simp only [total_registerController] at hcalls
        rw [registerController_of_running hrunning] at hcalls houtside
        exact ⟨hcalls, houtside.2⟩
    · exact hsound
  · obtain ⟨calls, hadvances⟩ := step_advances (s := s) hproceed haction
    exact (hadvances.sound_iff h).mp hsound

theorem sound_of_sound_foldl (h : Coherent s) {actions : List Action} (hsound : Sound (actions.foldl step s)) :
    Sound s := by
  induction actions generalizing s with
  | nil => exact hsound
  | cons action actions ih => exact sound_of_sound_step h (ih (h.step action) hsound)

/-! ### Runs -/

theorem coherent_resolve (configured : Nat) : Coherent (resolve configured) := by
  refine ⟨⟨?_, fun call hmem => ?_, ?_⟩, fun ctrl hctrl => absurd hctrl (Nat.not_lt_zero ctrl)⟩
  · rw [resolve, List.forall_mem_cons, List.forall_mem_singleton]
    exact ⟨trivial, Nat.zero_le _, rfl, rfl⟩
  · cases hmem
  · simp [resolve, WithOuter, Resolves]

theorem sound_resolve (configured : Nat) : Sound (resolve configured) := by
  refine ⟨fun ctrl hctrl => absurd hctrl (Nat.not_lt_zero ctrl), ?_⟩
  simp [resolve, WithOuter, ConstructsOutside]

theorem total_of_idle (hidle : s.frames = []) (ctrl : Nat) : s.total ctrl = callsOf s.calls ctrl := by
  rw [total, hidle, List.flatMap_nil, List.append_nil]

theorem Coherent.disciplined (h : Coherent s) (hsound : Sound s) : Disciplined s := by
  refine ⟨fun ctrl hctrl hnone => ?_, fun hidle ctrl hctrl => ?_⟩
  · apply hsound.calls ctrl hctrl
    rw [total, Phase.after_append, hnone]
    rfl
  · rw [← total_of_idle hidle]
    exact h.after_total hsound hctrl

/-- In a run that ends outside of all callbacks, controllers are called as they should be exactly if none is registered while a loop over the map of controllers is under way or still to come. -/
theorem disciplined_iff_registersOutside (configured : Nat) (actions : List Action)
    (hidle : (actions.foldl step (resolve configured)).frames = []) :
    (∀ n, Disciplined ((actions.take n).foldl step (resolve configured))) ↔
      Along step RegistersOutside (resolve configured) actions := by
  have hcoherent : ∀ actions : List Action, Coherent (actions.foldl step (resolve configured)) := fun actions =>
    invariant_foldl (fun _ action h => h.step action) (coherent_resolve configured)
  rw [← forall_take_iff_along (I := Coherent) (J := Sound) (fun _ action h => h.step action)
    (fun _ action h hsound => sound_step_iff h hsound action) (coherent_resolve configured) (sound_resolve configured)]
  constructor
  · intro h n
    have hend : Sound (actions.foldl step (resolve configured)) := by
      refine ⟨fun ctrl hctrl => ?_, by rw [hidle]; trivial⟩
      have hlast := h actions.length
      rw [List.take_length] at hlast
      rw [total_of_idle hidle]
      exact hlast.valid ctrl hctrl
    have hsplit : actions.foldl step (resolve configured) =
        (actions.drop n).foldl step ((actions.take n).foldl step (resolve configured)) := by
      rw [← List.foldl_append, List.take_append_drop]
    rw [hsplit] at hend
    exact sound_of_sound_foldl (hcoherent _) hend
  · intro h n
    exact (hcoherent _).disciplined (h n)

theorem disciplined_iff_registersOutside_started :
    (∀ n, Disciplined (([Action.proceed, .proceed, .proceed, .proceed, .registerController, .proceed, .proceed, .start,
        .proceed, .proceed, .proceed, .proceed].take n).foldl step (resolve 1))) ↔
      Along step RegistersOutside (resolve 1)
        [.proceed, .proceed, .proceed, .proceed, .registerController, .proceed, .proceed, .start, .proceed, .proceed,
          .proceed, .proceed] :=
  disciplined_iff_registersOutside 1 _ (by decide)

/-- A controller is initialized twice if it is registered in the constructor or in `onInit` of a configured one, and started twice if it is registered by an observer of the operating state that comes before the container. -/
theorem not_disciplined_of_registered_inside :
    (¬ ∀ (configured : Nat) (actions : List Action) (n : Nat),
      Disciplined ((actions.take n).foldl step (resolve configured))) ∧
    (¬ Disciplined ([Action.registerController, .proceed, .proceed, .proceed, .proceed, .proceed].foldl step (resolve 1))) ∧
    ¬ Disciplined ([Action.proceed, .proceed, .proceed, .proceed, .start, .registerController, .proceed, .proceed, .proceed,
      .proceed, .proceed, .proceed].foldl step (resolve 1)) := by
  refine ⟨fun h => ?_, fun h => ?_, fun h => ?_⟩
  · exact (h 1 [.proceed, .proceed, .proceed, .registerController, .proceed, .proceed, .proceed] 7).valid 1 (by decide)
      (by decide)
  · exact h.valid 0 (by decide) (by decide)
  · exact h.valid 1 (by decide) (by decide)

end Container

end Coaty
