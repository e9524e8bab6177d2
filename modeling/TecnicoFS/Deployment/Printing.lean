/-
What the subscribers of a box print, and what the publishers of a box lose.
-/

import TecnicoFS.Deployment.Delivery

set_option autoImplicit false

namespace TecnicoFS.Deployment

open FileSystem Protocol Mbroker

variable {Client : Type}

/-! ### What is printed -/

section
variable [DecidableEq Client] {clients : Clients Client} {atomicity : Atomicity}
  {params : MbrokerParams} {network : Network Client (Fin params.maxSessions)}
  {name : CString} {boxI : Nat}

end

/-! ### One message -/

/-- The network of the three programs, with a worker at a point of the handler of one of them -/
structure Moment (property : Network Program (Fin twoSessions.maxSessions) → Prop)
    (base : Broker (Fin twoSessions.maxSessions)) (thread : Fin twoSessions.maxSessions)
    (program : Program) (points : Program → ClientPoint) (unsent : Program → List (List UInt8))
    (pipes : Program → List UInt8) (server : Server (Fin twoSessions.maxSessions)) (point : Point)
    (network : Network Program (Fin twoSessions.maxSessions)) : Prop where
  holds : property network
  broker : network.broker = base.goto thread server point
  serving : network.serving thread = some program
  silent : network.Silent
  points : network.points = points
  unsent : network.unsent = unsent
  toBroker : network.toBroker = pipes

/-- No client has registered on the first box. -/
structure Unregistered (network : Network Program (Fin twoSessions.maxSessions)) : Prop where
  reachable : (deploymentSystem Program.clients .sections twoSessions).Reachable network
  publishers : network.publishers 0 = []
  subscribers : network.subscribers 0 = []

/-- The run started when the first box was created. -/
def Runs (network : Network Program (Fin twoSessions.maxSessions)) : Prop :=
  (deliverySystem Program.clients .sections twoSessions boxA 0).Reachable network

namespace Moment

variable {property : Network Program (Fin twoSessions.maxSessions) → Prop}
  {base : Broker (Fin twoSessions.maxSessions)} {thread : Fin twoSessions.maxSessions}
  {program : Program} {points : Program → ClientPoint} {unsent : Program → List (List UInt8)}
  {pipes : Program → List UInt8} {server server' : Server (Fin twoSessions.maxSessions)}
  {point next : Point} {rest written : List UInt8}
  {network : Network Program (Fin twoSessions.maxSessions)}

/-- The worker goes on. -/
theorem handles (moment : Moment property base thread program points unsent pipes server point
      network) (busy : point ≠ .idle)
    (step : (base.goto thread server point).Step .sections thread
      ((base.goto thread server point).goto thread server' next))
    (piped : PipeStep (points program = .closed) point next (pipes program) rest written)
    (kept : (deploymentSystem Program.clients .sections twoSessions).step (.worker thread) network
        (network.handled thread program (base.goto thread server' next) rest written) →
      property (network.handled thread program (base.goto thread server' next) rest written)) :
    ∃ network', Moment property base thread program points unsent
      (Function.update pipes program rest) server' next network' := by
  refine ⟨_, kept ?_, rfl, moment.serving, ?_, moment.points, moment.unsent, ?_⟩
  · rw [Broker.goto_goto] at step
    refine WorkerStep.handles moment.serving ?_ ?_ ?_
    · rw [moment.broker, Broker.goto_self]
      exact busy
    · rw [moment.broker]
      exact step
    · rw [moment.points, moment.broker, moment.toBroker, Broker.goto_self, Broker.goto_self]
      exact piped
  · exact ⟨moment.silent.registerPipe, moment.silent.received, moment.silent.requestsQueue⟩
  · rw [← moment.toBroker]
    rfl

/-- The manager does not register. -/
theorem creates {point : CreatePoint} {next : Option CreatePoint}
    (moment : Moment Unregistered base thread program points unsent pipes server (.create point)
      network) (step : CreateStep .sections server point server' next)
    (piped : PipeStep (points program = .closed) (.create point) (next.elim .idle .create)
      (pipes program) (pipes program) written) :
    ∃ network', Moment Unregistered base thread program points unsent pipes server'
      (next.elim .idle .create) network' := by
  have nobody {members : Nat → List Program} (none : members 0 = [])
      (after : Server (Fin twoSessions.maxSessions)) :
      registered network.broker.server after Option.none program members 0 = [] := by
    unfold registered
    rw [none]
    split <;> rfl
  have here : network.broker.workers thread = .create point := by
    rw [moment.broker, Broker.goto_self]
  have goes := moment.handles Point.noConfusion (.create (Broker.goto_self _ _ _ _) step) piped
  rw [Function.update_eq_self] at goes
  apply goes
  intro taken
  constructor
  · exact moment.holds.reachable.step taken
  · change registered _ _ (publisherJoins (network.broker.workers thread) _) _ _ 0 = []
    rw [here]
    exact nobody moment.holds.publishers _
  · change registered _ _ (subscriberJoins (network.broker.workers thread) _) _ _ 0 = []
    rw [here]
    exact nobody moment.holds.subscribers _

/-- A publisher or a subscriber keeps the box. -/
theorem keeps (moment : Moment Runs base thread program points unsent pipes server point network)
    (creates : ∀ create, point ≠ .create create) (removes : ∀ remove, point ≠ .remove remove)
    (taken : (deploymentSystem Program.clients .sections twoSessions).step (.worker thread) network
      (network.handled thread program (base.goto thread server' next) rest written)) :
    Runs (network.handled thread program (base.goto thread server' next) rest written) := by
  have reachable : (deliverySystem Program.clients .sections twoSessions boxA 0).Reachable
    network := moment.holds
  apply reachable.step
  refine ⟨taken, ?_⟩
  intro worker same
  cases same
  have here : network.broker.workers thread = point := by
    rw [moment.broker, Broker.goto_self]
  constructor
  · rw [here]
    exact removes _
  · intro _ other f place atPoint
    rw [here] at atPoint
    exact (creates _ atPoint).elim

theorem publishes {point : PublisherPoint} {next : Option PublisherPoint}
    (moment : Moment Runs base thread program points unsent pipes server (.publisher point) network)
    (step : PublisherStep server point server' next)
    (piped : PipeStep (points program = .closed) (.publisher point) (next.elim .idle .publisher)
      (pipes program) rest written) :
    ∃ network', Moment Runs base thread program points unsent (Function.update pipes program rest)
      server' (next.elim .idle .publisher) network' :=
  moment.handles Point.noConfusion (.publisher (Broker.goto_self _ _ _ _) step) piped
    (moment.keeps (fun _ => Point.noConfusion) (fun _ => Point.noConfusion))

theorem subscribes {point : SubscriberPoint} {next : Option SubscriberPoint}
    (moment : Moment Runs base thread program points unsent pipes server (.subscriber point)
      network) (step : SubscriberStep thread server point server' next)
    (piped : PipeStep (points program = .closed) (.subscriber point) (next.elim .idle .subscriber)
      (pipes program) rest written) :
    ∃ network', Moment Runs base thread program points unsent (Function.update pipes program rest)
      server' (next.elim .idle .subscriber) network' :=
  moment.handles Point.noConfusion (.subscriber (Broker.goto_self _ _ _ _) step) piped
    (moment.keeps (fun _ => Point.noConfusion) (fun _ => Point.noConfusion))

/-- The client takes a step. -/
theorem client {network' : Network Program (Fin twoSessions.maxSessions)}
    (moment : Moment Runs base thread program points unsent pipes server point network)
    (step : ClientStep Program.clients program network network') : Runs network' := by
  have reachable : (deliverySystem Program.clients .sections twoSessions boxA 0).Reachable
    network := moment.holds
  exact @ThreadSystem.Reachable.step _ _ _ _ _ (.client program) reachable
    ⟨step, fun _ impossible => by cases impossible⟩

theorem sends {packet : List UInt8} {left : List (List UInt8)}
    (moment : Moment Runs base thread program points unsent pipes server point network)
    (running : points program = .running) (opened : PipeOpen point)
    (first : unsent program = packet :: left) :
    ∃ network', Moment Runs base thread program points (Function.update unsent program left)
      (Function.update pipes program (pipes program ++ packet)) server point network' := by
  have here : network.broker.workers thread = point := by
    rw [moment.broker, Broker.goto_self]
  rw [← moment.points] at running
  rw [← moment.unsent] at first
  rw [← here] at opened
  refine ⟨_, moment.client (.sends running moment.serving opened first), moment.broker,
    moment.serving, ?_, moment.points, ?_, ?_⟩
  · exact ⟨moment.silent.registerPipe, moment.silent.received, moment.silent.requestsQueue⟩
  · rw [← moment.unsent]
  · rw [← moment.toBroker]

theorem closes
    (moment : Moment Runs base thread program points unsent pipes server point network)
    (running : points program = .running) :
    ∃ network', Moment Runs base thread program (Function.update points program .closed) unsent
      pipes server point network' := by
  rw [← moment.points] at running
  refine ⟨_, moment.client (.closes running), moment.broker, moment.serving, ?_, ?_,
    moment.unsent, moment.toBroker⟩
  · exact ⟨moment.silent.registerPipe, moment.silent.received, moment.silent.requestsQueue⟩
  · rw [← moment.points]

/-- The request of another program is taken by a worker. -/
theorem asks {other : Program} {worker : Fin twoSessions.maxSessions} {request : Mbroker.Request}
    (moment : Moment Runs base thread program points unsent pipes server point network)
    (idle : (base.goto thread server point).workers worker = .idle)
    (starting : points other = .starting)
    (asks : serverRequest? (Program.clients.request other) = some request) :
    ∃ network', Moment Runs (base.goto thread server point) worker other
      (Function.update points other .running) unsent pipes server request.start network' := by
  rw [← moment.broker] at idle
  rw [← moment.points] at starting
  obtain ⟨holds, silent⟩ := @Network.Silent.asked _ _ Program.clients .sections _ _ moment.silent
    _ _ _ idle starting asks Runs moment.holds (by
      intro actor before after reachable step still
      refine ThreadSystem.Reachable.step reachable ⟨step, ?_⟩
      intro worker same
      have atIdle := still worker same
      constructor
      · rw [atIdle]
        exact Point.noConfusion
      · intro _ _ _ _ impossible
        rw [atIdle] at impossible
        cases impossible)
  refine ⟨_, holds, ?_, Function.update_self _ _ _, silent, ?_, moment.unsent, moment.toBroker⟩
  · change network.broker.goto worker network.broker.server request.start = _
    rw [moment.broker]
    rfl
  · change Function.update network.points other .running = _
    rw [moment.points]

end Moment

end TecnicoFS.Deployment
