import Coaty.Transition
import Mathlib.Data.Nat.Basic

/-!
# Pacing

Values are scheduled at any time and published in periods with a limit. Without a limit a value is published at once. With one, publications are at least that far apart, each is of the value scheduled last, and no value waits as long as the limit. Operators that look at their values from time to time, or wait for silence, keep a log paced as long as each of them has a period of its own.
-/

namespace Pacing

open Transition

variable {Value : Type}

/-- A period begins or ends, or a value is scheduled or published in it. -/
inductive Act (Value : Type) where
  | opened (limit : Option Nat)
  | closed
  | scheduled (value : Value)
  | published (value : Value)
deriving DecidableEq

structure Entry (Value : Type) where
  time : Nat
  act : Act Value
deriving DecidableEq

/-- What a log comes to: the limit of the open period, if there is one, the time of its last publication, and the value that was scheduled since. -/
structure Status (Value : Type) where
  limit : Option (Option Nat)
  lastPublished : Option Nat
  waiting : Option (Nat × Value)

namespace Status

def initial : Status Value := ⟨none, none, none⟩

def step (s : Status Value) (entry : Entry Value) : Status Value :=
  match entry.act with
  | .opened limit => ⟨some limit, none, none⟩
  | .closed => ⟨none, none, none⟩
  | .scheduled value => { s with waiting := some (entry.time, value) }
  | .published _ => { s with lastPublished := some entry.time, waiting := none }

/-- What may come next in a paced log. -/
structure Admits (s : Status Value) (entry : Entry Value) : Prop where
  /-- Nothing is scheduled outside of a period. -/
  scheduled : ∀ value, entry.act = .scheduled value → s.limit ≠ none
  /-- What is published was scheduled last, in the same period, and is published only once. -/
  published : ∀ value, entry.act = .published value → ∃ time, s.waiting = some (time, value)
  apart : ∀ value rate time, entry.act = .published value → s.limit = some (some rate) →
    s.lastPublished = some time → time + rate ≤ entry.time
  prompt : ∀ rate time value, s.limit = some (some rate) → s.waiting = some (time, value) → entry.time ≤ time + rate
  atOnce : ∀ time value, s.limit = some none → s.waiting = some (time, value) → entry = ⟨time, .published value⟩

/-- Nothing is overdue. -/
structure Settled (s : Status Value) (now : Nat) : Prop where
  prompt : ∀ rate time value, s.limit = some (some rate) → s.waiting = some (time, value) → now < time + rate
  atOnce : s.limit = some none → s.waiting = none

variable {s : Status Value} {now : Nat}

/-- Where nothing is overdue anything but a publication may come next. -/
theorem Settled.admits (hs : s.Settled now) {act : Act Value} (hscheduled : ∀ value, act = .scheduled value → s.limit ≠ none)
    (hpublished : ∀ value, act ≠ .published value) : s.Admits ⟨now, act⟩ where
  scheduled := hscheduled
  published value hact := absurd hact (hpublished value)
  apart value _ _ hact := absurd hact (hpublished value)
  prompt rate time value hlimit hwaiting := le_of_lt (hs.prompt rate time value hlimit hwaiting)
  atOnce time value hlimit hwaiting := by
    rw [hs.atOnce hlimit] at hwaiting
    cases hwaiting

end Status

def Act.publication : Act Value → Option Value
  | .published value => some value
  | _ => none

/-- The values that have been published, oldest first. -/
def publications (log : List (Entry Value)) : List Value := log.filterMap fun entry => entry.act.publication

@[simp] theorem publications_append (log : List (Entry Value)) (entry : Entry Value) :
    publications (log ++ [entry]) = publications log ++ entry.act.publication.toList := by
  rw [publications, List.filterMap_append, List.filterMap_cons, List.filterMap_nil]
  cases entry.act.publication with
  | none => rfl
  | some value => rfl

def Act.isScheduled : Act Value → Bool
  | .scheduled _ => true
  | _ => false

/-- When which values have been scheduled, oldest first. -/
def schedulings (log : List (Entry Value)) : List (Entry Value) := log.filter fun entry => entry.act.isScheduled

@[simp] theorem schedulings_append (log : List (Entry Value)) (entry : Entry Value) :
    schedulings (log ++ [entry]) = schedulings log ++ if entry.act.isScheduled then [entry] else [] := by
  rw [schedulings, List.filter_append, List.filter_cons, List.filter_nil]
  rfl

def status (log : List (Entry Value)) : Status Value := log.foldl Status.step Status.initial

/-- Each entry is admitted by those before it. -/
def Paced (log : List (Entry Value)) : Prop := Along Status.step Status.Admits Status.initial log

@[simp] theorem status_append (log : List (Entry Value)) (entry : Entry Value) :
    status (log ++ [entry]) = (status log).step entry := by
  rw [status, List.foldl_append]
  rfl

theorem paced_append {log : List (Entry Value)} {entry : Entry Value} :
    Paced (log ++ [entry]) ↔ Paced log ∧ (status log).Admits entry := by
  rw [Paced, along_append, Along]
  exact and_congr_right fun _ => and_iff_left trivial

/-! ### Operators -/

/-- Operators that hand on some of the values that are given to a subscription: what each of them hands on at a time, by what it was given before. -/
structure Operators (Value : Type) where
  sampleTime : (period start now : Nat) → (given : List (Nat × Value)) → Option Value
  debounceTime : (dueTime now : Nat) → (given : List (Nat × Value)) → Option Value

/-- What is given to a subscription from `start` on and before `now`, oldest first. -/
structure GivenBetween (start now : Nat) (given : List (Nat × Value)) : Prop where
  sorted : given.Pairwise fun a b => a.1 ≤ b.1
  within : ∀ e ∈ given, start ≤ e.1 ∧ e.1 < now

structure Operators.Documented (rx : Operators Value) : Prop where
  /-- Every period from the subscription on ends with the value that it was given last, if it was given one. -/
  sampleTime : ∀ {period start now : Nat} {given : List (Nat × Value)}, 0 < period → start < now →
    GivenBetween start now given → rx.sampleTime period start now given
      = if period ∣ now - start then (given.getLast?.filter fun e => now ≤ e.1 + period).map Prod.snd else none
  /-- A value is handed on when the time has passed without another one. -/
  debounceTime : ∀ {dueTime start now : Nat} {given : List (Nat × Value)}, 0 < dueTime →
    GivenBetween start now given → rx.debounceTime dueTime now given
      = (given.getLast?.filter fun e => e.1 + dueTime = now).map Prod.snd

/-- Operators that only look at the latest value. -/
def Operators.latest : Operators Value where
  sampleTime period start now given :=
    if period ∣ now - start then (given.getLast?.filter fun e => now ≤ e.1 + period).map Prod.snd else none
  debounceTime dueTime now given := (given.getLast?.filter fun e => e.1 + dueTime = now).map Prod.snd

theorem Operators.documented_latest : (latest : Operators Value).Documented := ⟨fun _ _ _ => rfl, fun _ _ => rfl⟩

/-- Values are handed on as they are given, or by an operator. -/
inductive Piping where
  | direct
  | sampleTime (period : Nat)
  | debounceTime (dueTime : Nat)
deriving DecidableEq

def Piping.limit : Piping → Option Nat
  | .direct => none
  | .sampleTime period => some period
  | .debounceTime dueTime => some dueTime

structure Subscription (Value : Type) where
  piping : Piping
  start : Nat
  given : List (Nat × Value)

namespace Subscription

/-- What the subscription hands on when it gets `now`. -/
def handsOn (rx : Operators Value) (sub : Subscription Value) (now : Nat) : Option Value :=
  match sub.piping with
  | .direct => none
  | .sampleTime period => rx.sampleTime period sub.start now sub.given
  | .debounceTime dueTime => rx.debounceTime dueTime now sub.given

/-- The time of the earliest values that can still wait. -/
def waitsFrom (sub : Subscription Value) (now : Nat) : Nat :=
  match sub.piping with
  | .direct => now + 1
  | .sampleTime period => now - (now - sub.start) % period
  | .debounceTime dueTime => now + 1 - dueTime

def waiting (sub : Subscription Value) (now : Nat) : Option (Nat × Value) :=
  sub.given.getLast?.filter fun e => sub.waitsFrom now ≤ e.1

def give (sub : Subscription Value) (now : Nat) (value : Value) : Subscription Value :=
  { sub with given := sub.given ++ [(now, value)] }

@[simp] theorem give_piping (sub : Subscription Value) (now : Nat) (value : Value) :
    (sub.give now value).piping = sub.piping := rfl

@[simp] theorem give_start (sub : Subscription Value) (now : Nat) (value : Value) :
    (sub.give now value).start = sub.start := rfl

variable {sub : Subscription Value} {now : Nat}

theorem waitsFrom_sampleTime {period : Nat} (hpiping : sub.piping = .sampleTime period) (hperiod : 0 < period)
    (hstart : sub.start ≤ now) :
    (period ∣ now + 1 - sub.start ∧ sub.waitsFrom now + period = now + 1 ∧ sub.waitsFrom (now + 1) = now + 1) ∨
      (¬ period ∣ now + 1 - sub.start ∧ sub.waitsFrom (now + 1) = sub.waitsFrom now) := by
  have hlt := Nat.mod_lt (now - sub.start) hperiod
  have hle := Nat.mod_le (now - sub.start) period
  have hsucc : now + 1 - sub.start = now - sub.start + 1 := by omega
  have hmod : (now - sub.start + 1) % period = ((now - sub.start) % period + 1) % period :=
    (Nat.mod_add_mod (now - sub.start) period 1).symm
  rw [waitsFrom, waitsFrom, hpiping]
  dsimp only
  rw [hsucc, Nat.dvd_iff_mod_eq_zero, hmod]
  by_cases hend : (now - sub.start) % period + 1 = period
  · rw [hend, Nat.mod_self]
    refine Or.inl ⟨rfl, ?_, rfl⟩
    omega
  · rw [Nat.mod_eq_of_lt (by omega : (now - sub.start) % period + 1 < period)]
    refine Or.inr ⟨by omega, ?_⟩
    omega

theorem waitsFrom_debounceTime {dueTime : Nat} (hpiping : sub.piping = .debounceTime dueTime) :
    sub.waitsFrom now = now + 1 - dueTime := by
  rw [waitsFrom, hpiping]

theorem waiting_give (now : Nat) (value : Value) (hwaits : sub.waitsFrom now ≤ now) :
    (sub.give now value).waiting now = some (now, value) := by
  have hwaitsFrom : (sub.give now value).waitsFrom now = sub.waitsFrom now := rfl
  rw [waiting, hwaitsFrom, give, List.getLast?_concat, Option.filter_some, if_pos (decide_eq_true hwaits)]

theorem filter_congr {o : Option Value} {p q : Value → Bool} (h : ∀ value, o = some value → p value = q value) :
    o.filter p = o.filter q := by
  cases o with
  | none => rfl
  | some value => rw [Option.filter_some, Option.filter_some, h value rfl]

/-- The subscription has done what the log of its period says, up to `now`. -/
structure Tracks (sub : Subscription Value) (s : Status Value) (now : Nat) : Prop where
  limit : s.limit = some sub.piping.limit
  positive : ∀ rate, sub.piping.limit = some rate → 0 < rate
  start_le : sub.start ≤ now
  given : GivenBetween sub.start (now + 1) sub.given
  waiting : s.waiting = sub.waiting now
  before : ∀ time, s.lastPublished = some time → time ≤ now ∧ ∀ e, s.waiting = some e → time ≤ e.1
  sampled : ∀ period time, sub.piping = .sampleTime period → s.lastPublished = some time → time ≤ sub.waitsFrom now

variable {s : Status Value}

theorem tracks_subscribe {piping : Piping} (hpositive : ∀ rate, piping.limit = some rate → 0 < rate) (now : Nat) :
    Tracks (⟨piping, now, []⟩ : Subscription Value) ⟨some piping.limit, none, none⟩ now where
  limit := rfl
  positive := hpositive
  start_le := le_rfl
  given := ⟨List.Pairwise.nil, nofun⟩
  waiting := rfl
  before := nofun
  sampled := nofun

namespace Tracks

/-- A value that waits has not waited as long as the limit. -/
theorem waitsFrom_bounds (h : Tracks sub s now) {rate : Nat} (hrate : sub.piping.limit = some rate) :
    sub.waitsFrom now ≤ now ∧ now < sub.waitsFrom now + rate := by
  have hpositive := h.positive rate hrate
  cases hpiping : sub.piping with
  | direct =>
    rw [hpiping] at hrate
    cases hrate
  | sampleTime period =>
    rw [hpiping] at hrate
    cases hrate
    have hlt := Nat.mod_lt (now - sub.start) hpositive
    have hle := Nat.mod_le (now - sub.start) rate
    rw [waitsFrom, hpiping]
    dsimp only
    omega
  | debounceTime dueTime =>
    rw [hpiping] at hrate
    cases hrate
    rw [waitsFrom_debounceTime hpiping]
    omega

theorem exists_given (h : Tracks sub s now) {e : Nat × Value} (he : s.waiting = some e) :
    sub.given.getLast? = some e ∧ sub.waitsFrom now ≤ e.1 := by
  rw [h.waiting, Subscription.waiting, Option.filter_eq_some_iff] at he
  exact ⟨he.1, of_decide_eq_true he.2⟩

theorem settled (h : Tracks sub s now) : s.Settled now where
  prompt rate time value hlimit hwaiting := by
    rw [h.limit, Option.some.injEq] at hlimit
    have hbounds := h.waitsFrom_bounds hlimit
    have hwaits : sub.waitsFrom now ≤ time := (h.exists_given hwaiting).2
    omega
  atOnce hlimit := by
    rw [h.limit, Option.some.injEq] at hlimit
    rw [Option.eq_none_iff_forall_ne_some]
    intro e he
    obtain ⟨hlast, hwaits⟩ := h.exists_given he
    have hlt := (h.given.within e (List.mem_of_getLast? hlast)).2
    cases hpiping : sub.piping with
    | direct =>
      rw [waitsFrom, hpiping] at hwaits
      dsimp only at hwaits
      omega
    | sampleTime period =>
      rw [hpiping] at hlimit
      cases hlimit
    | debounceTime dueTime =>
      rw [hpiping] at hlimit
      cases hlimit

theorem give (h : Tracks sub s now) {rate : Nat} (hrate : sub.piping.limit = some rate) (value : Value) :
    Tracks (sub.give now value) (s.step ⟨now, .scheduled value⟩) now where
  limit := h.limit
  positive := h.positive
  start_le := h.start_le
  given := by
    constructor
    · refine List.pairwise_append.mpr ⟨h.given.sorted, List.pairwise_singleton _ _, fun a ha b hb => ?_⟩
      rw [List.mem_singleton.mp hb]
      exact Nat.lt_succ_iff.mp (h.given.within a ha).2
    · intro e he
      rcases List.mem_append.mp he with hbefore | hlast
      · exact h.given.within e hbefore
      · rw [List.mem_singleton.mp hlast]
        exact ⟨h.start_le, Nat.lt_succ_self now⟩
  waiting := (waiting_give now value (h.waitsFrom_bounds hrate).1).symm
  before time htime := by
    refine ⟨(h.before time htime).1, fun e he => ?_⟩
    cases he
    exact (h.before time htime).1
  sampled := h.sampled

theorem handOnDirectly (h : Tracks sub s now) (hdirect : sub.piping = .direct) (value : Value) :
    (s.step ⟨now, .scheduled value⟩).Admits ⟨now, .published value⟩ ∧
      Tracks sub ((s.step ⟨now, .scheduled value⟩).step ⟨now, .published value⟩) now := by
  have hlimit : s.limit = some none := by
    rw [h.limit, hdirect]
    rfl
  have hrated : ∀ rate, s.limit ≠ some (some rate) := by
    intro rate heq
    cases hlimit.symm.trans heq
  have hnone : sub.waiting now = none := h.waiting.symm.trans (h.settled.atOnce hlimit)
  refine ⟨⟨nofun, fun _ hact => ?_, fun _ rate _ _ heq => absurd heq (hrated rate), fun rate _ _ heq => absurd heq (hrated rate),
    fun time v _ hwaiting => ?_⟩, h.limit, h.positive, h.start_le, h.given, hnone.symm, fun time htime => ?_,
    fun period _ hpiping => ?_⟩
  · cases hact
    exact ⟨now, rfl⟩
  · cases hwaiting
    rfl
  · cases htime
    exact ⟨le_rfl, nofun⟩
  · cases hdirect.symm.trans hpiping

/-! ### Time -/

theorem givenBetween (h : Tracks sub s now) : GivenBetween sub.start (now + 1 + 1) sub.given :=
  ⟨h.given.sorted, fun e he => ⟨(h.given.within e he).1, Nat.lt_succ_of_lt (h.given.within e he).2⟩⟩

theorem waitsFrom_le_succ (h : Tracks sub s now) : sub.waitsFrom now ≤ sub.waitsFrom (now + 1) := by
  cases hpiping : sub.piping with
  | direct =>
    rw [waitsFrom, waitsFrom, hpiping]
    exact Nat.le_succ _
  | sampleTime period =>
    have hlimit : sub.piping.limit = some period := by rw [hpiping]; rfl
    have hbounds := h.waitsFrom_bounds hlimit
    rcases waitsFrom_sampleTime hpiping (h.positive period hlimit) h.start_le with
      ⟨_, _, heq⟩ | ⟨_, heq⟩
    · omega
    · omega
  | debounceTime dueTime =>
    rw [waitsFrom_debounceTime hpiping, waitsFrom_debounceTime hpiping]
    omega

theorem handsOn_succ {rx : Operators Value} (hrx : rx.Documented) (h : Tracks sub s now) :
    sub.handsOn rx (now + 1) = (s.waiting.filter fun e => e.1 < sub.waitsFrom (now + 1)).map Prod.snd := by
  cases hpiping : sub.piping with
  | direct =>
    have hnone : s.waiting = none := h.settled.atOnce (by rw [h.limit, hpiping]; rfl)
    rw [handsOn, hpiping, hnone]
    rfl
  | sampleTime period =>
    have hlimit : sub.piping.limit = some period := by rw [hpiping]; rfl
    have hpositive := h.positive period hlimit
    rw [handsOn, hpiping]
    dsimp only
    rw [hrx.sampleTime hpositive (Nat.lt_succ_of_le h.start_le) ⟨h.given.sorted, h.given.within⟩, h.waiting,
      Subscription.waiting, Option.filter_filter]
    rcases waitsFrom_sampleTime hpiping hpositive h.start_le with ⟨hdvd, hbefore, hafter⟩ | ⟨hdvd, hsame⟩
    · rw [if_pos hdvd, hafter]
      congr 1
      refine filter_congr fun e he => ?_
      have hlt := (h.given.within e (List.mem_of_getLast? he)).2
      rw [← Bool.decide_and, decide_eq_decide]
      omega
    · rw [if_neg hdvd, hsame]
      symm
      rw [Option.map_eq_none_iff, Option.filter_eq_none_iff]
      intro e _
      simp
  | debounceTime dueTime =>
    have hlimit : sub.piping.limit = some dueTime := by rw [hpiping]; rfl
    have hpositive := h.positive dueTime hlimit
    rw [handsOn, hpiping]
    dsimp only
    rw [hrx.debounceTime hpositive h.given, h.waiting, Subscription.waiting, Option.filter_filter,
      waitsFrom_debounceTime hpiping, waitsFrom_debounceTime hpiping]
    congr 1
    refine filter_congr fun e _ => ?_
    rw [← Bool.decide_and, decide_eq_decide]
    omega

theorem waiting_succ (h : Tracks sub s now) :
    sub.waiting (now + 1) = s.waiting.filter fun e => sub.waitsFrom (now + 1) ≤ e.1 := by
  have hle := h.waitsFrom_le_succ
  rw [h.waiting, Subscription.waiting, Subscription.waiting, Option.filter_filter]
  refine filter_congr fun e _ => ?_
  rw [← Bool.decide_and, decide_eq_decide]
  omega

theorem elapse (h : Tracks sub s now) {rx : Operators Value} (hrx : rx.Documented)
    (hnone : sub.handsOn rx (now + 1) = none) : Tracks sub s (now + 1) where
  limit := h.limit
  positive := h.positive
  start_le := Nat.le_succ_of_le h.start_le
  given := h.givenBetween
  waiting := by
    rw [h.handsOn_succ hrx, Option.map_eq_none_iff, Option.filter_eq_none_iff] at hnone
    rw [h.waiting_succ]
    cases hwaiting : s.waiting with
    | none => rfl
    | some e =>
      have hwaits := hnone e hwaiting
      rw [decide_eq_true_eq, not_lt] at hwaits
      rw [Option.filter_some, if_pos (decide_eq_true hwaits)]
  before time htime := ⟨Nat.le_succ_of_le (h.before time htime).1, (h.before time htime).2⟩
  sampled period time hpiping htime := le_trans (h.sampled period time hpiping htime) h.waitsFrom_le_succ

/-- What is handed on is the value that waits, late enough and not too late. -/
theorem handOn (h : Tracks sub s now) {rx : Operators Value} (hrx : rx.Documented) {value : Value}
    (hsome : sub.handsOn rx (now + 1) = some value) :
    s.Admits ⟨now + 1, .published value⟩ ∧ Tracks sub (s.step ⟨now + 1, .published value⟩) (now + 1) := by
  rw [h.handsOn_succ hrx, Option.map_eq_some_iff] at hsome
  obtain ⟨⟨time, value⟩, hfilter, rfl⟩ := hsome
  obtain ⟨hwaiting, hlt⟩ := Option.filter_eq_some_iff.mp hfilter
  have hlt : time < sub.waitsFrom (now + 1) := of_decide_eq_true hlt
  have hwaits : sub.waitsFrom now ≤ time := (h.exists_given hwaiting).2
  constructor
  · refine ⟨nofun, fun _ hact => ?_, fun _ rate last _ hlimit hlast => ?_, fun rate t v hlimit hv => ?_, fun t v hlimit => ?_⟩
    · cases hact
      exact ⟨time, hwaiting⟩
    · rw [h.limit, Option.some.injEq] at hlimit
      have hbefore : last ≤ time := (h.before last hlast).2 _ hwaiting
      cases hpiping : sub.piping with
      | direct =>
        rw [hpiping] at hlimit
        cases hlimit
      | sampleTime period =>
        rw [hpiping] at hlimit
        cases hlimit
        have hsampled := h.sampled rate last hpiping hlast
        rcases waitsFrom_sampleTime hpiping (h.positive rate (by rw [hpiping]; rfl)) h.start_le with
          ⟨_, hsum, _⟩ | ⟨_, hsame⟩
        · dsimp only
          omega
        · omega
      | debounceTime dueTime =>
        rw [hpiping] at hlimit
        cases hlimit
        rw [waitsFrom_debounceTime hpiping] at hlt hwaits
        dsimp only
        omega
    · exact h.settled.prompt rate t v hlimit hv
    · rw [h.settled.atOnce hlimit]
      nofun
  · refine ⟨h.limit, h.positive, Nat.le_succ_of_le h.start_le, h.givenBetween, ?_, ?_, ?_⟩
    · rw [h.waiting_succ, hwaiting, Option.filter_some, if_neg (by simpa using hlt)]
      rfl
    · intro last hlast
      cases hlast
      exact ⟨le_rfl, nofun⟩
    · intro period last hpiping hlast
      cases hlast
      rcases waitsFrom_sampleTime hpiping (h.positive period (by rw [hpiping]; rfl)) h.start_le with
        ⟨_, _, heq⟩ | ⟨_, hsame⟩
      · exact Nat.le_of_eq heq.symm
      · omega

end Tracks

end Subscription

end Pacing
