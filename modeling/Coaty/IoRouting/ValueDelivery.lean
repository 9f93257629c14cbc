import Coaty.Com.IoValues
import Coaty.Com.Mqtt.Binding
import Coaty.IoRouting.Following

/-!
# From sources to actors

A router and the agents whose IO nodes it manages. What the router publishes reaches every agent in order, but at any time, and meanwhile agents observe the values of their actors and are handed values on any route. An agent that has received everything published so far follows the router, so a value goes from one such agent to another exactly as the rules say.
-/

namespace Coaty

open Js Order Transition RuleBasedIoRouter CommunicationManager

variable {Agent Props Rate Raw Json : Type}

structure IoNetwork (Agent Props Rate Raw Json : Type) where
  router : RuleBasedIoRouter Props Rate
  agents : Agent → IoAgent Props Rate Raw Json
  /-- The Associate events that an agent has yet to receive, oldest first. -/
  inTransit : Agent → List (AssociateEvent Rate)

namespace IoNetwork

inductive Event (Agent Props Rate Raw Json : Type) where
  | route (event : RuleBasedIoRouter.Event Props Rate)
  | receive (agent : Agent)
  | observeIoValue (agent : Agent) (ioActorId : Uuid)
  | ioValue (agent : Agent) (event : IoValueEvent Raw Json)

/-- The nodes of an agent do not change while it runs. -/
def start (identity : Uuid) (createIoRoute : Uuid → IoRoute) (ioContext : IoContext Props)
    (ioNodes : Agent → List (OwnIoNode Props Rate)) : IoNetwork Agent Props Rate Raw Json where
  router := init identity createIoRoute ioContext
  agents agent := IoAgent.start (ioNodes agent)
  inTransit _ := []

variable [DecidableEq Agent] [LinearOrder Rate] (s : IoNetwork Agent Props Rate Raw Json)

def setAgent (agent : Agent) (a : IoAgent Props Rate Raw Json) : IoNetwork Agent Props Rate Raw Json :=
  { s with agents := Function.update s.agents agent a }

def step : Event Agent Props Rate Raw Json → Except Error (IoNetwork Agent Props Rate Raw Json)
  | .route event => do
    let router ← s.router.step event
    return { s with
      router
      inTransit := fun agent => s.inTransit agent ++ router.published.drop s.router.published.length }
  | .receive agent =>
    match s.inTransit agent with
    | [] => .ok s
    | event :: events =>
      let a := s.agents agent
      .ok { s.setAgent agent { a with manager := a.manager.receive event } with
        inTransit := Function.update s.inTransit agent events }
  | .observeIoValue agent ioActorId => .ok (s.setAgent agent ((s.agents agent).observeIoValue ioActorId))
  | .ioValue agent event => .ok (s.setAgent agent ((s.agents agent).dispatchIoValue event))

/-- What a run asks of the router. -/
def Event.routing : Event Agent Props Rate Raw Json → Option (RuleBasedIoRouter.Event Props Rate)
  | .route event => some event
  | _ => none

/-- The agent as it will be when it has received everything that has been published. -/
def settled (agent : Agent) : CommunicationManager Props Rate :=
  (s.inTransit agent).foldl CommunicationManager.receive (s.agents agent).manager

variable {s : IoNetwork Agent Props Rate Raw Json}

omit [LinearOrder Rate] in
@[simp] theorem settled_setAgent (agent agent' : Agent) (a : IoAgent Props Rate Raw Json)
    (ha : a.manager = (s.agents agent).manager) : (s.setAgent agent a).settled agent' = s.settled agent' := by
  rw [settled, settled, setAgent]
  dsimp only
  by_cases hagent : agent' = agent
  · subst hagent
    rw [Function.update_self, ha]
  · rw [Function.update_of_ne hagent]

omit [LinearOrder Rate] in
theorem settled_receive {agent : Agent} {event : AssociateEvent Rate} {events : List (AssociateEvent Rate)}
    (h : s.inTransit agent = event :: events) (a : IoAgent Props Rate Raw Json)
    (ha : a.manager = (s.agents agent).manager.receive event) (agent' : Agent) :
    settled { s.setAgent agent a with inTransit := Function.update s.inTransit agent events } agent'
      = s.settled agent' := by
  rw [settled, settled, setAgent]
  dsimp only
  by_cases hagent : agent' = agent
  · subst hagent
    rw [Function.update_self, Function.update_self, ha, h, List.foldl_cons]
  · rw [Function.update_of_ne hagent, Function.update_of_ne hagent]

/-! ### The invariant -/

/-- The router does what the routing asks for, and every agent of its context will follow it. -/
structure Sound (ioNodes : Agent → List (OwnIoNode Props Rate)) (s : IoNetwork Agent Props Rate Raw Json)
    (t : Routing Props Rate) : Prop where
  refines : Refines s.router t
  routes : s.router.RoutesSources
  follows : ∀ agent, (∃ ioNode ∈ ioNodes agent, ioNode.name = t.ioContext.name) →
    Follows s.router (s.settled agent) ∧ (s.settled agent).ioNodes = ioNodes agent

variable {ioNodes : Agent → List (OwnIoNode Props Rate)} {t : Routing Props Rate}

omit [DecidableEq Agent] in
theorem sound_start (identity : Uuid) (createIoRoute : Uuid → IoRoute) (ioContext : IoContext Props)
    (ioNodes : Agent → List (OwnIoNode Props Rate)) :
    Sound ioNodes (start identity createIoRoute ioContext ioNodes : IoNetwork Agent Props Rate Raw Json)
      (init identity createIoRoute ioContext).routing where
  refines := refines_init identity createIoRoute ioContext
  routes := nofun
  follows agent hparticipates := by
    refine ⟨⟨start_consistent (ioNodes agent), hparticipates, nofun, ?_, ?_⟩, rfl⟩
    · intro sourceId actorId _
      exact ⟨nofun, nofun⟩
    · intro route actorId sourceId _
      exact ⟨nofun, nofun⟩

/-- What a step of the network does to the routing. -/
def routingStep (t : Routing Props Rate) (event : Event Agent Props Rate Raw Json) : Routing Props Rate :=
  event.routing.elim t t.step

theorem step_sound (hs : Sound ioNodes s t) {event : Event Agent Props Rate Raw Json}
    (hregular : ∀ routerEvent, event.routing = some routerEvent → t.Regular routerEvent) :
    ∃ s', s.step event = .ok s' ∧ Sound ioNodes s' (routingStep t event) := by
  cases event with
  | route event =>
    have hregular := hregular event rfl
    have hrouting := hs.refines.routing
    subst hrouting
    obtain ⟨router, hok, hstepped⟩ := step_ok hs.refines.wellFormed hs.refines.exact.nodup hregular.1
    refine ⟨_, by rw [step, hok]; rfl, hstepped.refines hs.refines hregular.1,
      (Follows.routes_of_stepped hs.refines hs.routes hregular.1 hstepped).1, fun agent hparticipates => ?_⟩
    have hname : (s.router.routing.step event).ioContext.name = s.router.ioContext.name := IoSystem.name_step hregular.2
    obtain ⟨hfollows, hnodes⟩ := hs.follows agent (hname ▸ hparticipates)
    obtain ⟨hfollows', hnodes'⟩ := hfollows.step hs.refines hs.routes hregular hstepped
    rw [settled, List.foldl_append]
    exact ⟨hfollows', hnodes'.trans hnodes⟩
  | receive agent =>
    cases hinTransit : s.inTransit agent with
    | nil => exact ⟨s, by rw [step, hinTransit], hs⟩
    | cons event events =>
      let a : IoAgent Props Rate Raw Json :=
        { s.agents agent with manager := (s.agents agent).manager.receive event }
      have hok : s.step (.receive agent)
          = .ok { s.setAgent agent a with inTransit := Function.update s.inTransit agent events } := by
        rw [step, hinTransit]
      refine ⟨_, hok, hs.refines, hs.routes, fun agent' hparticipates => ?_⟩
      rw [settled_receive hinTransit a rfl agent']
      exact hs.follows agent' hparticipates
  | observeIoValue agent ioActorId =>
    refine ⟨_, rfl, hs.refines, hs.routes, fun agent' hparticipates => ?_⟩
    rw [settled_setAgent agent agent' _ (IoAgent.observeIoValue_manager _ ioActorId)]
    exact hs.follows agent' hparticipates
  | ioValue agent event =>
    refine ⟨_, rfl, hs.refines, hs.routes, fun agent' hparticipates => ?_⟩
    rw [settled_setAgent agent agent' _ (IoAgent.dispatchIoValue_manager _ event)]
    exact hs.follows agent' hparticipates

/-! ### Settled agents -/

omit [DecidableEq Agent] [LinearOrder Rate] in
theorem settled_of_nothing_inTransit {agent : Agent} (h : s.inTransit agent = []) :
    s.settled agent = (s.agents agent).manager := by
  rw [settled, h]
  rfl

omit [DecidableEq Agent] in
theorem associatesIds_iff_routed (hrefines : Refines s.router t) (ids : Uuid × Uuid) :
    s.router.AssociatesIds ids ↔ t.RoutedIds ids := by
  constructor
  · intro ⟨x, hx, hids⟩
    exact ⟨x.source, x.actor, (hrefines.exact.pairs x.source x.actor).mp ⟨x, hx, rfl, rfl⟩, hids⟩
  · intro ⟨source, actor, hrouted, hids⟩
    obtain ⟨x, hx, hsource, hactor⟩ := (hrefines.exact.pairs source actor).mpr hrouted
    refine ⟨x, hx, ?_⟩
    rw [IoAssociation.ids, hsource, hactor]
    exact hids

open Classical in
/-- What becomes of a value that one agent has for a source, at the observers of the actors of another. -/
def Delivers (s : IoNetwork Agent Props Rate Raw Json) (t : Routing Props Rate) (agent agent' : Agent)
    (ioSource : IoSource Props Rate) (value : IoValue Raw Json) : Prop :=
  if ∃ actorId, t.RoutedIds (ioSource.objectId, actorId) then
    ∃ event, (s.agents agent).publishIoValue ioSource value = .ok (some event) ∧
      s.router.routeOf ioSource.objectId = some event.topic ∧ event.payload = value ∧
      ∀ actorId, (s.agents agent').manager.Owns actorId →
        ((s.agents agent').dispatchIoValue event).observedIoValueItems.get actorId
          = if ∃ sourceId, t.RoutedIds (sourceId, actorId) ∧ s.router.routeOf sourceId = some event.topic
            then ((s.agents agent').observedIoValueItems.get actorId).map fun payloads => payloads ++ [value]
            else (s.agents agent').observedIoValueItems.get actorId
  else (s.agents agent).publishIoValue ioSource value = .ok none

omit [DecidableEq Agent] in
/-- An agent that has received everything publishes values of a source exactly if it is routed to some actor, on the route of the source, and one that has received everything hands a value to the observers of the actors that a source on its route is routed to. -/
theorem delivers (hs : Sound ioNodes s t) {agent agent' : Agent}
    (hparticipates : ∃ ioNode ∈ ioNodes agent, ioNode.name = t.ioContext.name)
    (hparticipates' : ∃ ioNode ∈ ioNodes agent', ioNode.name = t.ioContext.name)
    (hinTransit : s.inTransit agent = []) (hinTransit' : s.inTransit agent' = [])
    {ioSource : IoSource Props Rate} (howns : (s.agents agent).manager.Owns ioSource.objectId)
    {value : IoValue Raw Json} (hformat : value.isRaw = ioSource.useRawIoValues.getD false) :
    s.Delivers t agent agent' ioSource value := by
  obtain ⟨hfollows, _⟩ := hs.follows agent hparticipates
  obtain ⟨hfollows', _⟩ := hs.follows agent' hparticipates'
  rw [settled_of_nothing_inTransit hinTransit] at hfollows
  rw [settled_of_nothing_inTransit hinTransit'] at hfollows'
  have hactors : ∀ actorId, ActorOf ((s.agents agent).manager.ioSourceItems.get ioSource.objectId) actorId ↔
      t.RoutedIds (ioSource.objectId, actorId) := by
    intro actorId
    rw [hfollows.actorOf _ actorId howns, associatesIds_iff_routed hs.refines]
  rw [Delivers, IoAgent.publishIoValue, if_pos hformat]
  cases hitems : (s.agents agent).manager.ioSourceItems.get ioSource.objectId with
  | none =>
    rw [if_neg]
    · rfl
    · rintro ⟨actorId, hrouted⟩
      obtain ⟨items, hsome, _⟩ := (hactors actorId).mpr hrouted
      cases hitems.symm.trans hsome
  | some items =>
    obtain ⟨actorId, hactor⟩ := List.exists_mem_of_ne_nil _
      (hfollows.consistent.actorIds_nonempty ioSource.objectId items hitems)
    rw [if_pos ⟨actorId, (hactors actorId).mp ⟨items, hitems, hactor⟩⟩]
    refine ⟨⟨items.route, value⟩, rfl, hfollows.route _ items howns hitems, rfl, fun actorId howns' => ?_⟩
    rw [IoAgent.get_dispatchIoValue]
    -- The actor is on the route if some source is listed for it there.
    have hlisted : ((s.agents agent').manager.ioActorItems.getAt items.route actorId).isSome = true ↔
        ∃ sourceId, t.RoutedIds (sourceId, actorId) ∧ s.router.routeOf sourceId = some items.route := by
      simp only [← associatesIds_iff_routed hs.refines, ← hfollows'.listsOn items.route actorId _ howns']
      constructor
      · intro hsome
        obtain ⟨sourceIds, hgetAt⟩ := Option.isSome_iff_exists.mp hsome
        obtain ⟨sourceId, hsource⟩ := List.exists_mem_of_ne_nil _
          (hfollows'.consistent.actors.sources_nonempty items.route actorId sourceIds hgetAt)
        exact ⟨sourceId, sourceIds, hgetAt, hsource⟩
      · rintro ⟨sourceId, sourceIds, hgetAt, _⟩
        rw [hgetAt]
        rfl
    by_cases hroute : ∃ sourceId, t.RoutedIds (sourceId, actorId) ∧ s.router.routeOf sourceId = some items.route
    · rw [if_pos hroute, if_pos (hlisted.mpr hroute)]
    · rw [if_neg hroute, if_neg fun h => hroute (hlisted.mp h)]

/-! ### Whole runs -/

/-- In whatever order the agents receive what the router publishes, observe their actors and are handed values: between two agents that have received everything, a value of a source gets to the observers of an actor exactly once if the source is routed to the actor, and to no other actors but those that are routed from a source on the same route. -/
theorem delivers_routed (identity : Uuid) (createIoRoute : Uuid → IoRoute) (ioContext : IoContext Props)
    (ioNodes : Agent → List (OwnIoNode Props Rate)) (events : List (Event Agent Props Rate Raw Json))
    (hregular : Along Routing.step Routing.Regular
      (init identity createIoRoute ioContext : RuleBasedIoRouter Props Rate).routing (events.filterMap Event.routing)) :
    ∃ s : IoNetwork Agent Props Rate Raw Json,
      events.foldlM step (start identity createIoRoute ioContext ioNodes) = .ok s ∧
      ∀ agent agent', (∃ ioNode ∈ ioNodes agent, ioNode.name = s.router.ioContext.name) →
        (∃ ioNode ∈ ioNodes agent', ioNode.name = s.router.ioContext.name) →
        s.inTransit agent = [] → s.inTransit agent' = [] →
        ∀ ioSource value, (s.agents agent).manager.Owns ioSource.objectId →
          value.isRaw = ioSource.useRawIoValues.getD false →
          s.Delivers ((events.filterMap Event.routing).foldl Routing.step
            (init identity createIoRoute ioContext).routing) agent agent' ioSource value := by
  have halong : Along routingStep
      (fun t event => ∀ routerEvent, Event.routing event = some routerEvent → Routing.Regular t routerEvent)
      (init identity createIoRoute ioContext).routing events := Along.of_filterMap hregular
  have hstep : ∀ (s : IoNetwork Agent Props Rate Raw Json) t event, Sound ioNodes s t →
      (∀ routerEvent, Event.routing event = some routerEvent → t.Regular routerEvent) →
      ∃ s', s.step event = .ok s' ∧ Sound ioNodes s' (routingStep t event) :=
    fun _ _ _ hs hregular => step_sound hs hregular
  obtain ⟨s, hok, hs⟩ := Along.simulates hstep halong (sound_start identity createIoRoute ioContext ioNodes)
  refine ⟨s, hok, fun agent agent' hparticipates hparticipates' hinTransit hinTransit' ioSource value howns hformat => ?_⟩
  have hrouting : events.foldl routingStep (init identity createIoRoute ioContext).routing
      = (events.filterMap Event.routing).foldl Routing.step (init identity createIoRoute ioContext).routing :=
    foldl_elim Event.routing _ events
  have hname : s.router.ioContext = (events.foldl routingStep (init identity createIoRoute ioContext).routing).ioContext :=
    congrArg Routing.ioContext hs.refines.routing
  rw [hname] at hparticipates hparticipates'
  rw [← hrouting]
  exact delivers hs hparticipates hparticipates' hinTransit hinTransit' howns hformat

/-! ### A thermometer and a display in different places -/

/-- The agent of the thermometer hosts no actor, and the other one the display. -/
def roomNodes : Bool → List (OwnIoNode Unit Nat)
  | true => [IoSystem.ownRoom]
  | false => [{ IoSystem.ownRoom with ioSources := [], ioActors := [IoSystem.display] }]

/-- The room is advertised and loses its recorder, and some of the events are received in between. -/
def roomEvents : List (Event Bool Unit Nat Unit Nat) :=
  [.route (.defineRules [anyPair]), .observeIoValue false displayId,
    .route (.advertise (IoSystem.roomWith [IoSystem.display, IoSystem.recorder])), .receive true, .receive false,
    .route (.advertise (IoSystem.roomWith [IoSystem.display])), .receive false, .receive true, .receive false,
    .receive true]

/-- The MQTT binding of the router creates the routes. -/
def roomBinding : MqttBinding Nat := .create ⟨none, none⟩

theorem delivers_routed_room :
    ∃ s : IoNetwork Bool Unit Nat Unit Nat,
      roomEvents.foldlM step (start ⟨text "router", by decide⟩ roomBinding.createIoRoute roomContext roomNodes) = .ok s ∧
      ∀ agent agent', (∃ ioNode ∈ roomNodes agent, ioNode.name = s.router.ioContext.name) →
        (∃ ioNode ∈ roomNodes agent', ioNode.name = s.router.ioContext.name) →
        s.inTransit agent = [] → s.inTransit agent' = [] →
        ∀ ioSource value, (s.agents agent).manager.Owns ioSource.objectId →
          value.isRaw = ioSource.useRawIoValues.getD false →
          s.Delivers ((roomEvents.filterMap Event.routing).foldl Routing.step
            (init ⟨text "router", by decide⟩ roomBinding.createIoRoute roomContext).routing) agent agent' ioSource value :=
  delivers_routed ⟨text "router", by decide⟩ roomBinding.createIoRoute roomContext roomNodes roomEvents
    IoSystem.regular_losesRecorder

end IoNetwork

end Coaty
