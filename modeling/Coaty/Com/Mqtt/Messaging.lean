import Coaty.Com.Mqtt.EventDelivery
import Coaty.Com.Mqtt.PublicationStream
import Mathlib.Logic.Function.Basic

/-!
# Agents on a broker

Any number of agents, each with the session of its binding, exchange messages over one broker. What an agent asks its client to do on a connection travels to the broker in order and is lost with the connection. The broker processes the calls of each connection in order and forwards a message to every connected agent with a filter that matches its topic, in the order in which it has processed them. When a connection is lost the broker publishes the last will of the agent. A message that arrives is dispatched by the binding, and what listeners do about it are later events of the session. Messages that the broker retains for later subscribers are left out.
-/

namespace Coaty

open Js CommunicationEvent Transition

variable {Agent Data : Type} [DecidableEq Agent]

/-- A message on its way to a subscriber. -/
inductive Delivery (Agent Data : Type) where
  | publication (publisher : Agent) (item : PublicationItem Data)
  | lastWill (publisher : Agent) (message : PublicationMessage Data)

def Delivery.message : Delivery Agent Data → PublicationMessage Data
  | .publication _ item => item.message
  | .lastWill _ message => message

structure Messaging (Agent Data : Type) where
  session : Agent → Session Data
  /-- The calls on the current connection that the broker has not processed. -/
  uplink : Agent → List (ClientCall Data)
  /-- The topic filters that the broker holds. -/
  filters : Agent → Finset Text
  downlink : Agent → List (Delivery Agent Data)
  /-- The messages that have arrived, with the events that were emitted for them. -/
  received : Agent → List (Delivery Agent Data × List (InboundEvent Data))

inductive MessagingEvent (Agent Data : Type) where
  | session (agent : Agent) (event : SessionEvent Data)
  | process (agent : Agent)
  | receive (agent : Agent)

namespace MqttBinding

variable [Json Data]

/-- `_getLastWill`, which is never retained. -/
def getLastWill (b : MqttBinding Data) : Option (PublicationMessage Data) :=
  (b.joinOptions.bind fun joinOptions => b.encodeMessage joinOptions.unjoinEvent).map fun message =>
    { message with retain := some false }

def emittedFor (b : MqttBinding Data) (message : PublicationMessage Data) : List (InboundEvent Data) :=
  match message.payload with
  | none => []
  | some payload => (b.dispatchMessage (fun b _ => b) message.topic payload).2

end MqttBinding

theorem Session.calls_step [Json Data] {s : Session Data} (h : s.Accounted) {event : SessionEvent Data}
    (henabled : s.Enabled event) : ∃ calls, (s.step event).binding.calls = s.binding.calls ++ calls := by
  cases event with
  | join joinOptions =>
    refine ⟨[], ?_⟩
    show (s.binding.join joinOptions).calls = s.binding.calls ++ []
    rw [MqttBinding.join_eq henabled, MqttBinding.calls, MqttBinding.calls, h.initialized henabled]
    rfl
  | publish eventLike =>
    obtain ⟨calls, hcalls, -⟩ := (s.binding.sameSubscriptions_publish eventLike).calls
    exact ⟨calls, hcalls⟩
  | subscribe eventLike =>
    obtain ⟨calls, hcalls, -⟩ := (s.binding.samePublications_subscribe eventLike).calls
    exact ⟨calls, hcalls⟩
  | unsubscribe eventLike =>
    obtain ⟨calls, hcalls, -⟩ := (s.binding.samePublications_unsubscribe eventLike).calls
    exact ⟨calls, hcalls⟩
  | connect =>
    obtain ⟨added, sent, heffect, -⟩ := s.binding.silent_onConnect
    obtain ⟨calls, hcalls, -⟩ := heffect.calls
    exact ⟨calls, hcalls⟩
  | lose => exact ⟨[], (s.binding.calls_setConnected false).trans (List.append_nil _).symm⟩
  | close => exact ⟨[], (List.append_nil _).symm⟩
  | offline => exact ⟨[], (List.append_nil _).symm⟩
  | published number err =>
    rw [Session.step]
    cases s.outstanding.find? fun call => call.number = number with
    | none => exact ⟨[], (List.append_nil _).symm⟩
    | some call =>
      obtain ⟨calls, hcalls, -⟩ := (s.binding.sameSubscriptions_published call.item err).calls
      exact ⟨calls, hcalls⟩

namespace Messaging

variable [Json Data]

def start (options : Agent → CommunicationBindingOptions) : Messaging Agent Data where
  session agent := Session.start (options agent)
  uplink _ := []
  filters _ := ∅
  downlink _ := []
  received _ := []

/-- The messages on their way when the broker has forwarded one more. -/
def forward (n : Messaging Agent Data) (delivery : Delivery Agent Data) : Messaging Agent Data :=
  { n with downlink := fun agent =>
      if (n.session agent).connected = true ∧ ∃ topicFilter ∈ n.filters agent, Mqtt.Matches delivery.message.topic topicFilter
      then n.downlink agent ++ [delivery]
      else n.downlink agent }

/-- A step of a session. The calls made on a connection are added to those on their way. -/
def act (n : Messaging Agent Data) (agent : Agent) (event : SessionEvent Data) : Messaging Agent Data :=
  let s := (n.session agent).step event
  let calls := s.binding.calls.drop (n.session agent).binding.calls.length
  { n with
    session := Function.update n.session agent s
    uplink := Function.update n.uplink agent (n.uplink agent ++ if s.connected then calls else []) }

/-- The end of a connection, for the broker. -/
def disconnect (n : Messaging Agent Data) (agent : Agent) : Messaging Agent Data :=
  let disconnected : Messaging Agent Data := { n with
    uplink := Function.update n.uplink agent []
    filters := Function.update n.filters agent ∅
    downlink := Function.update n.downlink agent [] }
  match (n.session agent).binding.getLastWill with
  | none => disconnected
  | some message => disconnected.forward (.lastWill agent message)

def step (n : Messaging Agent Data) : MessagingEvent Agent Data → Messaging Agent Data
  | .session agent .lose => (n.act agent .lose).disconnect agent
  | .session agent event => n.act agent event
  | .process agent =>
    match n.uplink agent with
    | [] => n
    | call :: calls =>
      let processed : Messaging Agent Data := { n with
        uplink := Function.update n.uplink agent calls
        filters := Function.update n.filters agent (brokerProcess (n.filters agent) call) }
      match call with
      | .publish item => processed.forward (.publication agent item)
      | _ => processed
  | .receive agent =>
    match n.downlink agent with
    | [] => n
    | delivery :: deliveries => { n with
        downlink := Function.update n.downlink agent deliveries
        received := Function.update n.received agent
          (n.received agent ++ [(delivery, (n.session agent).binding.emittedFor delivery.message)]) }

def Enabled (n : Messaging Agent Data) : MessagingEvent Agent Data → Prop
  | .session agent event => (n.session agent).Enabled event
  | .process agent => n.uplink agent ≠ []
  | .receive agent => n.downlink agent ≠ []

instance (n : Messaging Agent Data) : (event : MessagingEvent Agent Data) → Decidable (n.Enabled event)
  | .session agent event => inferInstanceAs (Decidable ((n.session agent).Enabled event))
  | .process agent => inferInstanceAs (Decidable (n.uplink agent ≠ []))
  | .receive agent => inferInstanceAs (Decidable (n.downlink agent ≠ []))

/-! ### What is on its way -/

def publicationsFrom (publisher : Agent) (deliveries : List (Delivery Agent Data)) : List (PublicationItem Data) :=
  deliveries.filterMap fun
    | .publication agent item => if agent = publisher then some item else none
    | .lastWill _ _ => none

omit [Json Data] in
theorem publicationsFrom_append (publisher : Agent) (deliveries deliveries' : List (Delivery Agent Data)) :
    publicationsFrom publisher (deliveries ++ deliveries')
      = publicationsFrom publisher deliveries ++ publicationsFrom publisher deliveries' :=
  List.filterMap_append

/-- What has arrived of the publications of an agent, and after it what is still on its way. -/
def track (n : Messaging Agent Data) (publisher subscriber : Agent) : List (PublicationItem Data) :=
  publicationsFrom publisher ((n.received subscriber).map Prod.fst ++ n.downlink subscriber)
    ++ publications (n.uplink publisher)

variable {n n' : Messaging Agent Data} {agent publisher subscriber : Agent}

omit [Json Data] in
theorem track_forward (n : Messaging Agent Data) (delivery : Delivery Agent Data) (publisher subscriber : Agent) :
    List.Sublist ((n.forward delivery).track publisher subscriber)
      (publicationsFrom publisher ((n.received subscriber).map Prod.fst ++ n.downlink subscriber)
        ++ (publicationsFrom publisher [delivery] ++ publications (n.uplink publisher))) := by
  rw [track, forward, ← List.append_assoc]
  dsimp only
  split
  · rw [← List.append_assoc, publicationsFrom_append _ _ [delivery]]
  · exact (List.sublist_append_left _ _).append_right _

/-- Nothing is on its way or has arrived but what its publisher has asked its client to publish, in this order and not more often. -/
def InTransit (n : Messaging Agent Data) : Prop :=
  ∀ publisher subscriber, List.Sublist (n.track publisher subscriber) (publications (n.session publisher).binding.calls)

theorem inTransit_act (h : n.InTransit) {event : SessionEvent Data}
    (hcalls : ∃ calls, ((n.session agent).step event).binding.calls = (n.session agent).binding.calls ++ calls) :
    (n.act agent event).InTransit := by
  obtain ⟨calls, hcalls⟩ := hcalls
  intro publisher subscriber
  rw [track, act]
  dsimp only
  by_cases heq : publisher = agent
  · subst heq
    have hmade : List.Sublist (publications (if ((n.session publisher).step event).connected then calls else []))
        (publications calls) := by
      split
      · exact List.Sublist.refl _
      · exact List.nil_sublist _
    rw [Function.update_self, Function.update_self, hcalls, List.drop_left, publications_append, publications_append,
      ← List.append_assoc]
    exact (h publisher subscriber).append hmade
  · rw [Function.update_of_ne heq, Function.update_of_ne heq]
    exact h publisher subscriber

theorem track_disconnect (n : Messaging Agent Data) (agent publisher subscriber : Agent) :
    List.Sublist ((n.disconnect agent).track publisher subscriber) (n.track publisher subscriber) := by
  have huplink : List.Sublist (publications (Function.update n.uplink agent [] publisher))
      (publications (n.uplink publisher)) := by
    by_cases heq : publisher = agent
    · subst heq
      rw [Function.update_self]
      exact List.nil_sublist _
    · rw [Function.update_of_ne heq]
  have hdownlink : List.Sublist
      (publicationsFrom publisher ((n.received subscriber).map Prod.fst ++ Function.update n.downlink agent [] subscriber))
      (publicationsFrom publisher ((n.received subscriber).map Prod.fst ++ n.downlink subscriber)) := by
    by_cases heq : subscriber = agent
    · subst heq
      rw [Function.update_self, List.append_nil, publicationsFrom_append]
      exact List.sublist_append_left _ _
    · rw [Function.update_of_ne heq]
  rw [disconnect]
  cases (n.session agent).binding.getLastWill with
  | none => exact hdownlink.append huplink
  | some message => exact (track_forward _ _ publisher subscriber).trans (hdownlink.append huplink)

theorem disconnect_frame (n : Messaging Agent Data) (agent : Agent) :
    (n.disconnect agent).session = n.session ∧ (n.disconnect agent).received = n.received := by
  rw [disconnect]
  cases (n.session agent).binding.getLastWill with
  | none => exact ⟨rfl, rfl⟩
  | some message => exact ⟨rfl, rfl⟩

omit [Json Data] in
theorem publicationsFrom_publication (publisher agent : Agent) (item : PublicationItem Data) :
    publicationsFrom publisher [(.publication agent item : Delivery Agent Data)]
      = if agent = publisher then publications [.publish item] else [] := by
  by_cases heq : agent = publisher
  · simp [publicationsFrom, publications, heq]
  · simp [publicationsFrom, heq]

omit [Json Data] in
theorem publications_uplink {call : ClientCall Data} {calls : List (ClientCall Data)}
    (huplink : n.uplink agent = call :: calls) (publisher : Agent) :
    publications (n.uplink publisher)
      = (if agent = publisher then publications [call] else [])
        ++ publications (Function.update n.uplink agent calls publisher) := by
  by_cases heq : agent = publisher
  · subst heq
    rw [if_pos rfl, Function.update_self, huplink]
    exact publications_append [call] calls
  · rw [if_neg heq, Function.update_of_ne (Ne.symm heq), List.nil_append]

theorem inTransit_process (h : n.InTransit) (agent : Agent) : (n.step (.process agent)).InTransit := by
  rw [step]
  cases huplink : n.uplink agent with
  | nil => exact h
  | cons call calls =>
    have hrest : ∀ publisher subscriber, List.Sublist
        (publicationsFrom publisher ((n.received subscriber).map Prod.fst ++ n.downlink subscriber)
          ++ ((if agent = publisher then publications [call] else [])
            ++ publications (Function.update n.uplink agent calls publisher)))
        (publications (n.session publisher).binding.calls) := by
      intro publisher subscriber
      have hold := h publisher subscriber
      rw [track, publications_uplink huplink publisher] at hold
      exact hold
    have hforgotten : ∀ publisher subscriber, List.Sublist
        (publicationsFrom publisher ((n.received subscriber).map Prod.fst ++ n.downlink subscriber)
          ++ publications (Function.update n.uplink agent calls publisher))
        (publications (n.session publisher).binding.calls) := fun publisher subscriber =>
      ((List.sublist_append_right _ _).append_left _).trans (hrest publisher subscriber)
    cases call with
    | publish item =>
      intro publisher subscriber
      refine (track_forward _ _ publisher subscriber).trans ?_
      rw [publicationsFrom_publication]
      exact hrest publisher subscriber
    | subscribe topicFilters => exact hforgotten
    | unsubscribe topicFilters => exact hforgotten
    | endClient force => exact hforgotten

theorem track_receive (n : Messaging Agent Data) (agent publisher subscriber : Agent) :
    (n.step (.receive agent)).track publisher subscriber = n.track publisher subscriber := by
  rw [step]
  cases hdownlink : n.downlink agent with
  | nil => rfl
  | cons delivery deliveries =>
    rw [track, track]
    dsimp only
    by_cases heq : subscriber = agent
    · subst heq
      rw [Function.update_self, Function.update_self, hdownlink, List.map_append, List.append_assoc]
      rfl
    · rw [Function.update_of_ne heq, Function.update_of_ne heq]

theorem inTransit_receive (h : n.InTransit) (agent : Agent) : (n.step (.receive agent)).InTransit := by
  have hsession : (n.step (.receive agent)).session = n.session := by
    rw [step]
    cases n.downlink agent <;> rfl
  intro publisher subscriber
  rw [track_receive, hsession]
  exact h publisher subscriber

/-! ### The agents of a run -/

def eventAt (agent : Agent) : MessagingEvent Agent Data → Option (SessionEvent Data)
  | .session other event => if other = agent then some event else none
  | _ => none

theorem session_step (n : Messaging Agent Data) (event : MessagingEvent Agent Data) (agent : Agent) :
    (n.step event).session agent = (eventAt agent event).elim (n.session agent) (n.session agent).step := by
  have hact : ∀ other sessionEvent, (n.act other sessionEvent).session agent
      = (eventAt agent (.session other sessionEvent)).elim (n.session agent) (n.session agent).step := by
    intro other sessionEvent
    rw [act, eventAt]
    by_cases heq : other = agent
    · subst heq
      rw [if_pos rfl]
      exact Function.update_self ..
    · rw [if_neg heq]
      exact Function.update_of_ne (Ne.symm heq) ..
  cases event with
  | session other sessionEvent =>
    cases sessionEvent with
    | lose =>
      rw [step, (disconnect_frame _ _).1]
      exact hact other .lose
    | _ => exact hact other _
  | process other =>
    rw [step]
    cases n.uplink other with
    | nil => rfl
    | cons call calls => cases call <;> rfl
  | receive other =>
    rw [step]
    cases n.downlink other <;> rfl

/-- Each agent runs like a single one. -/
theorem session_run {events : List (MessagingEvent Agent Data)} (hrun : Along step Enabled n events) (agent : Agent) :
    Along Session.step Session.Enabled (n.session agent) (events.filterMap (eventAt agent)) ∧
      (events.foldl step n).session agent
        = (events.filterMap (eventAt agent)).foldl Session.step (n.session agent) := by
  induction events generalizing n with
  | nil => exact ⟨trivial, rfl⟩
  | cons event events ih =>
    obtain ⟨henabled, hrest⟩ := hrun
    obtain ⟨halong, hfinal⟩ := ih hrest
    rw [session_step] at halong hfinal
    rw [List.foldl_cons, hfinal]
    cases hevent : eventAt agent event with
    | none =>
      rw [hevent] at halong
      rw [List.filterMap_cons_none hevent]
      exact ⟨halong, rfl⟩
    | some sessionEvent =>
      have hown : (n.session agent).Enabled sessionEvent := by
        cases event with
        | session other otherEvent =>
          rw [eventAt] at hevent
          split at hevent
          · rename_i heq
            cases hevent
            exact heq ▸ henabled
          · cases hevent
        | process other => cases hevent
        | receive other => cases hevent
      rw [hevent] at halong
      rw [List.filterMap_cons_some hevent]
      exact ⟨⟨hown, halong⟩, rfl⟩

/-! ### Whole runs -/

structure Sound (n : Messaging Agent Data) : Prop where
  accounted : ∀ agent, (n.session agent).Accounted ∧ (n.session agent).Awake
  inTransit : n.InTransit
  /-- What was emitted for a message is what some state of the binding makes of it. -/
  dispatched : ∀ subscriber, ∀ entry ∈ n.received subscriber, ∃ b : MqttBinding Data,
    entry.2 = b.emittedFor entry.1.message

theorem sound_start (options : Agent → CommunicationBindingOptions) :
    (start options : Messaging Agent Data).Sound where
  accounted agent := ⟨Session.accounted_start (options agent), Session.awake_start (options agent)⟩
  inTransit publisher subscriber := List.nil_sublist _
  dispatched subscriber entry hentry := by simp [start] at hentry

theorem Sound.dispatched_step (h : n.Sound) (event : MessagingEvent Agent Data) {subscriber : Agent}
    {entry : Delivery Agent Data × List (InboundEvent Data)} (hentry : entry ∈ (n.step event).received subscriber) :
    ∃ b : MqttBinding Data, entry.2 = b.emittedFor entry.1.message := by
  cases event with
  | session agent sessionEvent =>
    have hsame : (n.step (.session agent sessionEvent)).received = n.received := by
      cases sessionEvent with
      | lose => exact (disconnect_frame _ _).2
      | _ => rfl
    rw [hsame] at hentry
    exact h.dispatched subscriber entry hentry
  | process agent =>
    have hsame : (n.step (.process agent)).received = n.received := by
      rw [step]
      cases n.uplink agent with
      | nil => rfl
      | cons call calls => cases call <;> rfl
    rw [hsame] at hentry
    exact h.dispatched subscriber entry hentry
  | receive agent =>
    rw [step] at hentry
    cases hdownlink : n.downlink agent with
    | nil =>
      rw [hdownlink] at hentry
      exact h.dispatched subscriber entry hentry
    | cons delivery deliveries =>
      rw [hdownlink] at hentry
      dsimp only at hentry
      by_cases heq : subscriber = agent
      · subst heq
        rw [Function.update_self] at hentry
        rcases List.mem_append.mp hentry with hentry | hentry
        · exact h.dispatched subscriber entry hentry
        · rw [List.mem_singleton.mp hentry]
          exact ⟨_, rfl⟩
      · rw [Function.update_of_ne heq] at hentry
        exact h.dispatched subscriber entry hentry

theorem Sound.step (h : n.Sound) {event : MessagingEvent Agent Data} (henabled : n.Enabled event) :
    (n.step event).Sound := by
  refine ⟨fun agent => ?_, ?_, fun subscriber entry hentry => h.dispatched_step event hentry⟩
  · have hsingle : Along Messaging.step Enabled n [event] := ⟨henabled, trivial⟩
    have hown := (session_run hsingle agent).1
    rw [session_step]
    cases hevent : eventAt agent event with
    | none => exact h.accounted agent
    | some sessionEvent =>
      rw [List.filterMap_cons_some hevent] at hown
      exact (h.accounted agent).1.step (h.accounted agent).2 hown.1
  · cases event with
    | session agent sessionEvent =>
      have hact := inTransit_act h.inTransit (Session.calls_step (h.accounted agent).1 henabled)
      cases sessionEvent with
      | lose =>
        intro publisher subscriber
        rw [Messaging.step, (disconnect_frame _ _).1]
        exact (track_disconnect _ agent publisher subscriber).trans (hact publisher subscriber)
      | _ => exact hact
    | process agent => exact inTransit_process h.inTransit agent
    | receive agent => exact inTransit_receive h.inTransit agent

end Messaging

theorem MqttBinding.topic_of_encodeMessage [Json Data] {b : MqttBinding Data} {eventLike : CommunicationEventLike Data}
    {message : PublicationMessage Data} (h : b.encodeMessage eventLike = some message) :
    message.topic = b.getTopicFor eventLike := by
  rw [encodeMessage] at h
  cases hencoded : encodePayload eventLike with
  | error e =>
    rw [hencoded] at h
    cases h
  | ok payload =>
    rw [hencoded] at h
    cases h
    rfl

/-- Every item that is known is for the message of an event that was published, or of a join event. -/
theorem Session.Streaming.origin [Json Data] {s : Session Data} {options : CommunicationBindingOptions}
    {events : List (SessionEvent Data)} (h : s.Streaming options (events.filterMap (SessionEvent.messageOf options)))
    {item : PublicationItem Data} (hitem : s.binding.Known item) :
    ∃ eventLike, (.publish eventLike ∈ events ∨ eventLike ∈ s.binding.joinEvents) ∧
      (MqttBinding.create options).encodeMessage eventLike = some item.message := by
  by_cases hid : item.id ∈ s.enqueued
  · have hmessage := h.composed.publication item hitem _ (List.getElem?_idxOf hid)
    obtain ⟨event, hevent, hcomposed⟩ := List.mem_filterMap.mp (List.mem_of_getElem? hmessage)
    cases event with
    | publish eventLike =>
      rw [SessionEvent.messageOf, MqttBinding.messageOf] at hcomposed
      split at hcomposed
      · exact ⟨eventLike, Or.inl hevent, hcomposed⟩
      · cases hcomposed
    | _ => cases hcomposed
  · obtain ⟨eventLike, hjoin, hcomposed⟩ := List.mem_filterMap.mp (h.composed.joinEvent item hitem hid)
    exact ⟨eventLike, Or.inr hjoin, hcomposed⟩

namespace Messaging

variable [Json Data]

/-- Of each publisher an agent receives messages of its publications in their order, possibly with gaps, and one repeated only right after itself. Every message is one of a publication or of a join event of its publisher, and what is emitted for it is, if that is a Coaty event, this event. -/
theorem receives_published (options : Agent → CommunicationBindingOptions) (events : List (MessagingEvent Agent Data))
    (hrun : Along step Enabled (start options) events) (publisher subscriber : Agent)
    (hnamespace : ∀ name ∈ (options publisher).messagingNamespace, isValidEventFilter name = true) :
    let n := events.foldl step (start options)
    let published := events.filterMap (eventAt publisher)
    let messages := published.filterMap (SessionEvent.messageOf (options publisher))
    let items := publicationsFrom publisher ((n.received subscriber).map Prod.fst)
    (∃ sent count, Outbox.Repeats sent (messages.take count) ∧
      List.Sublist ((items.filter fun item => item.id ∈ (n.session publisher).enqueued).map PublicationItem.message)
        sent) ∧
      ∀ item emitted, (.publication publisher item, emitted) ∈ n.received subscriber → ∃ eventLike,
        (.publish eventLike ∈ published ∨ eventLike ∈ (n.session publisher).binding.joinEvents) ∧
          (MqttBinding.create (options publisher)).encodeMessage eventLike = some item.message ∧
          (eventLike.IsCoatyEvent → ∀ payload data, item.payload = some payload → Json.parse payload = .ok data →
            emitted = [eventLike.inbound data]) := by
  intro n published messages items
  have hsound : n.Sound :=
    hrun.invariant (I := Sound) (fun _ _ h henabled => h.step henabled) (sound_start options)
  obtain ⟨halong, hsession⟩ := session_run hrun publisher
  have hstreaming : (n.session publisher).Streaming (options publisher) messages := by
    rw [hsession]
    exact Session.streaming_run (options publisher) published halong
  have hreceived : List.Sublist items (publications (n.session publisher).binding.calls) := by
    have htrack := hsound.inTransit publisher subscriber
    rw [track, publicationsFrom_append, List.append_assoc] at htrack
    exact (List.sublist_append_left _ _).trans htrack
  constructor
  · obtain ⟨confirmed, count, -, -, -, hrepeats, -⟩ := hstreaming.stream
    exact ⟨_, count, hrepeats, (hreceived.filter _).map _⟩
  · intro item emitted hentry
    have hitem : item ∈ items := by
      refine List.mem_filterMap.mpr ⟨_, List.mem_map_of_mem hentry, ?_⟩
      exact if_pos rfl
    obtain ⟨eventLike, horigin, hcomposed⟩ := hstreaming.origin (Or.inr (hreceived.subset hitem))
    refine ⟨eventLike, horigin, hcomposed, fun hevent payload data hpayload hparsed => ?_⟩
    obtain ⟨b, hemitted⟩ := hsound.dispatched subscriber _ hentry
    have htopic : item.topic = (MqttBinding.create (options publisher)).getTopicFor eventLike :=
      MqttBinding.topic_of_encodeMessage hcomposed
    have hdispatched : b.emittedFor item.message = (b.dispatchMessage (fun b _ => b) item.topic payload).2 := by
      rw [MqttBinding.emittedFor, PublicationItem.message, hpayload]
    rw [show emitted = b.emittedFor item.message from hemitted, hdispatched, htopic]
    exact MqttBinding.dispatchMessage_getTopicFor hevent _ (MqttBinding.isValidEventFilter_getD hnamespace) hparsed _

/-- One agent observes identities, the other one advertises its own. -/
def identityRun : List (MessagingEvent Bool Text) :=
  [.session true (.join ⟨[], Session.rawEvent (text "gone")⟩), .session true .connect,
    .session true (.subscribe Session.identityEvent), .process true, .process true,
    .session false (.join ⟨[], Session.rawEvent (text "gone")⟩), .session false .connect,
    .session false (.publish Session.identityEvent), .process false, .process false, .receive true]

theorem receives_identityEvent :
    let n := identityRun.foldl step (start fun _ => ⟨none, none⟩)
    let published := identityRun.filterMap (eventAt false)
    let messages := published.filterMap (SessionEvent.messageOf ⟨none, none⟩)
    let items := publicationsFrom false ((n.received true).map Prod.fst)
    (∃ sent count, Outbox.Repeats sent (messages.take count) ∧
      List.Sublist ((items.filter fun item => item.id ∈ (n.session false).enqueued).map PublicationItem.message)
        sent) ∧
      ∀ item emitted, (.publication false item, emitted) ∈ n.received true → ∃ eventLike,
        (.publish eventLike ∈ published ∨ eventLike ∈ (n.session false).binding.joinEvents) ∧
          (MqttBinding.create ⟨none, none⟩).encodeMessage eventLike = some item.message ∧
          (eventLike.IsCoatyEvent → ∀ payload data, item.payload = some payload → Json.parse payload = .ok data →
            emitted = [eventLike.inbound data]) :=
  receives_published (fun _ => ⟨none, none⟩) identityRun (by decide) false true (by simp)

end Messaging

end Coaty
