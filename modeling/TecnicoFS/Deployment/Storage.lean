/-
Every message that is written to a session pipe is stored.

A worker that reads messages comes closer to storing the next one with each of its steps, and
nothing but the end of the pipe or the end of the block stops it.
-/

import TecnicoFS.Deployment.Printing
import TecnicoFS.Deployment.Progress

set_option autoImplicit false

namespace TecnicoFS.Deployment

open FileSystem Protocol Mbroker

/-! ### The loop of a publisher session -/

/-- The steps a worker that has stored some messages is away from having stored a number of
them -/
def toStore (goal stored : Nat) : Point → Nat
  | .publisher (.publish _) => 5 * (goal - stored) + 5
  | .publisher (.readCode _) => 5 * (goal - stored) + 4
  | .publisher (.checkBox _) => 5 * (goal - stored) + 3
  | .publisher (.readMessage _) => 5 * (goal - stored) + 2
  | .publisher (.writeMessage _ _) => 5 * (goal - stored) + 1
  | .idle | .publisher _ | .subscriber _ | .create _ | .remove _ => 0

section
variable {Thread : Type} {server server' : Server Thread} {point : PublisherPoint}
  {next : Option PublisherPoint} {session : Mbroker.Session}

/-- A step of the loop comes closer to the next message, or the session ends. -/
theorem storing_step (own : point.session? = some session) (reads : ReadsOn point)
    (step : PublisherStep server point server' next) :
    (∃ point', next = some point' ∧ point'.session? = some session ∧ ReadsOn point' ∧
      ∀ goal stored, stored < goal →
        toStore goal (stored + (storedBy (.publisher point) (.publisher point')).length)
            (.publisher point') < toStore goal stored (.publisher point)) ∨
      next = some (.unregister session) := by
  cases step with
  | pipeFails => cases own
  | pipeOpens => cases own
  | notFound _ => cases own
  | found _ => cases own
  | busy _ _ => cases own
  | openFails _ _ _ _ => cases own
  | registers _ _ _ _ => cases own
  | unregisters _ => exact reads.elim
  | closes _ => exact reads.elim
  | codeArrives _ =>
      cases own
      refine Or.inl ⟨_, rfl, rfl, trivial, ?_⟩
      intro goal stored _
      change 5 * (goal - (stored + 0)) + 3 < 5 * (goal - stored) + 4
      omega
  | boxThere _ =>
      cases own
      refine Or.inl ⟨_, rfl, rfl, trivial, ?_⟩
      intro goal stored _
      change 5 * (goal - (stored + 0)) + 2 < 5 * (goal - stored) + 3
      omega
  | messageArrives =>
      cases own
      refine Or.inl ⟨_, rfl, rfl, trivial, ?_⟩
      intro goal stored _
      change 5 * (goal - (stored + 0)) + 1 < 5 * (goal - stored) + 2
      omega
  | writes _ _ =>
      cases own
      refine Or.inl ⟨_, rfl, rfl, trivial, ?_⟩
      intro goal stored left
      change 5 * (goal - (stored + 1)) + 5 < 5 * (goal - stored) + 1
      omega
  | publishes _ =>
      cases own
      refine Or.inl ⟨_, rfl, rfl, trivial, ?_⟩
      intro goal stored _
      change 5 * (goal - (stored + 0)) + 4 < 5 * (goal - stored) + 5
      omega
  | codeMissing _ =>
      cases own
      exact Or.inr rfl
  | boxGone _ =>
      cases own
      exact Or.inr rfl
  | messageMissing =>
      cases own
      exact Or.inr rfl
  | writeFails _ _ =>
      cases own
      exact Or.inr rfl

/-- When a message is in the pipe or with the worker, the worker has a step. -/
theorem storing_goes {params : MbrokerParams} {model : Model Nat} {traffic : Traffic}
    {messages : List Message} {goal : Nat} (small : params.maxSessions < 2 ^ 31)
    (files : Files params server.fs model) (isTaken : server.IsTaken session.boxI)
    (unlocked : server.Unlocked session.boxI) (own : point.session? = some session)
    (reads : ReadsOn point) (flows : traffic.Flows messages point)
    (written : goal + traffic.unsent.length ≤ messages.length)
    (left : traffic.accepted.length < goal) (closed : Prop) :
    ∃ server' next pipe, PublisherStep server point server' (some next) ∧
      PipeStep closed (.publisher point) (.publisher next) traffic.toBroker pipe [] := by
  obtain ⟨arriving, later, carried, unsent, places⟩ := flows
  cases point with
  | readCode _ =>
      cases own
      have arrives : arriving ≠ [] := by
        intro nothing
        rw [unsent, places, nothing, List.length_map] at written
        change goal + later.length ≤ (traffic.accepted ++ later).length at written
        rw [List.length_append] at written
        omega
      rcases @Traffic.arriving_code _ _ arriving _ _ carried rfl with
        ⟨nothing, _, _⟩ | ⟨one, code, _⟩
      · exact (arrives nothing).elim
      · exact ⟨_, _, _, .codeArrives rfl, .codeArrives (Prod.ext one (Prod.ext code rfl))⟩
  | checkBox _ =>
      cases own
      exact ⟨_, _, _, .boxThere isTaken, .silent not_false⟩
  | readMessage _ =>
      cases own
      obtain ⟨message, others, _, bytes⟩ :=
        @Traffic.arriving_cons arriving traffic.toBroker carried
      refine ⟨_, _, (others.map Publisher.packetOf).flatten,
        @PublisherStep.messageArrives _ _ _ message, .messageArrives ?_⟩
      rw [bytes]
      exact Publisher.readArray_message _ _
  | writeMessage _ message =>
      cases own
      obtain ⟨result, fs, returned⟩ := files.returns small (.writes session.boxF message)
      by_cases full : result.length = msgMaxLen
      · exact ⟨_, _, _, .writes returned full, .silent not_false⟩
      · exact ⟨_, _, _, .writeFails returned full, .silent not_false⟩
  | publish _ =>
      cases own
      exact ⟨_, _, _, .publishes unlocked, .silent not_false⟩
  | unregister _ => exact reads.elim
  | closeFile _ => exact reads.elim
  | _ => cases own

end

/-! ### The session in the network -/

variable {Client Thread : Type}

section
variable (clients : Clients Client) (boxI goal : Nat) (worker : Thread) (client : Client)
  (network : Network Client Thread)

/-- The worker reads the messages of its client for the box and has yet to store some of those
that were written. -/
structure Unstored : Prop where
  serves : network.Serves worker client
  reads : ∃ point session, network.broker.workers worker = .publisher point ∧
    point.session? = some session ∧ session.boxI = boxI ∧ ReadsOn point
  written : goal + (network.unsent client).length ≤ (clients.messages client).length
  left : (network.accepted client).length < goal

/-- As many messages were stored, or the block of the box is full. -/
def Stored : Prop :=
  goal ≤ (network.accepted client).length ∨ Full network.broker boxI

end

section
variable [DecidableEq Client] {clients : Clients Client} {atomicity : Atomicity}
  {params : MbrokerParams} {network network' : Network Client (Fin params.maxSessions)}
  {name : CString} {boxI goal : Nat} {worker : Fin params.maxSessions} {client watched : Client}
  {actor : Actor Client (Fin params.maxSessions)}

/-- The worker comes closer with each of its steps. -/
theorem Unstored.own (unstored : Unstored clients boxI goal worker client network)
    (kept : DeliveryKept clients atomicity params name boxI network)
    (step : WorkerStep clients atomicity worker network network') :
    (Unstored clients boxI goal worker client network' ∧
      toStore goal (network'.accepted client).length (network'.broker.workers worker) <
        toStore goal (network.accepted client).length (network.broker.workers worker)) ∨
      Stored boxI goal client network' := by
  obtain ⟨serves, ⟨point, session, atPoint, own, here, reads⟩, written, left⟩ := unstored
  obtain ⟨_, _, stream⟩ := kept.stream
  have pipes := (Network.reachable_pipesKept kept.reachable).serving worker client serves
  obtain ⟨broker, pipe, answer, taken, piped, sameNetwork⟩ := serves.step step
  have accepts := stream.acceptsMessages taken
  have grows := (stored_grows stream taken).length_le
  obtain ⟨server, next, stepped, sameBroker⟩ := taken.ofPublisher atPoint
  have moved : broker.workers worker = next.elim .idle .publisher := by
    rw [sameBroker, Broker.goto_self]
  have accepted : (network.handled worker client broker pipe answer).accepted client =
      network.accepted client ++ storedBy (network.broker.workers worker)
        (broker.workers worker) := Function.update_self _ _ _
  rw [atPoint] at pipes piped accepted
  subst sameNetwork
  rcases storing_step own reads stepped with ⟨point', isNext, own', reads', less⟩ | isNext
  · rw [isNext] at moved
    rw [moved] at accepted
    have count := congrArg List.length accepted
    rw [List.length_append] at count
    by_cases left' : ((network.handled worker client broker pipe answer).accepted client).length <
        goal
    · refine Or.inl ⟨⟨⟨serves.1, ?_⟩, ⟨point', session, moved, own', here, reads'⟩, written,
        left'⟩, ?_⟩
      · change broker.workers worker ≠ .idle
        rw [moved]
        exact Point.noConfusion
      · change toStore goal _ (broker.workers worker) < _
        rw [moved, atPoint, count]
        exact less goal _ left
    · exact Or.inr (Or.inl (Nat.le_of_not_lt left'))
  · rw [isNext] at moved stepped
    rw [moved] at piped
    rcases (pipes.1 reads).stops stepped piped with
      ⟨_, _, later, unsent, places⟩ | ⟨_, gone⟩ | ⟨message, writes⟩
    · -- Nothing is left of what was written.
      have unsent : network.unsent client = later.map Publisher.packetOf := unsent
      have places : clients.messages client = network.accepted client ++ later := places
      rw [unsent, places, List.length_map, List.length_append] at written
      omega
    · rw [here] at gone
      exact (gone stream.entry.isTaken).elim
    · rw [writes] at atPoint
      have full := accepts.refused session message atPoint moved here
      refine Or.inr (Or.inr ?_)
      unfold Full
      change 1024 * 1024 < msgMaxLen * ((broker.server.stored boxI).length + 1)
      exact full.trans_le (Nat.mul_le_mul_left _ (Nat.succ_le_succ grows))

/-- The steps of the others store nothing for a client and take nothing back that it wrote. -/
theorem traffic_others (kept : (deploymentSystem clients atomicity params).Reachable network)
    (serves : network.Serves worker client)
    (step : (deploymentSystem clients atomicity params).step actor network network')
    (other : actor ≠ .worker worker) : network'.accepted client = network.accepted client ∧
      (network'.unsent client).length ≤ (network.unsent client).length := by
  obtain ⟨_, _, _, requests⟩ := Network.reachable_requestsKept kept
  cases actor with
  | client asking =>
      cases step with
      | requests _ _ => exact ⟨rfl, Nat.le_refl _⟩
      | @sends _ packet rest _ _ _ first =>
          refine ⟨rfl, ?_⟩
          change (Function.update network.unsent asking rest client).length ≤ _
          by_cases same : client = asking
          · rw [same, Function.update_self, first, List.length_cons]
            exact Nat.le_succ _
          · rw [Function.update_of_ne same]
      | closes _ => exact ⟨rfl, Nat.le_refl _⟩
  | listener => cases step <;> exact ⟨rfl, Nat.le_refl _⟩
  | worker thread =>
      cases step with
      | dequeues _ _ _ _ => exact ⟨rfl, Nat.le_refl _⟩
      | lists _ _ _ _ _ => exact ⟨rfl, Nat.le_refl _⟩
      | @handles served broker pipe written serving busy _ _ =>
          refine ⟨?_, Nat.le_refl _⟩
          have different : client ≠ served := by
            intro same
            rw [same] at serves
            rw [requests.alone worker thread served serves ⟨serving, busy⟩] at other
            exact other rfl
          exact congrArg Traffic.accepted
            (network.handled_other thread broker pipe written different)

/-- The steps of the others leave the worker where it is. -/
theorem Unstored.others (unstored : Unstored clients boxI goal worker client network)
    (kept : (deploymentSystem clients atomicity params).Reachable network)
    (step : (deploymentSystem clients atomicity params).step actor network network')
    (other : actor ≠ .worker worker) :
    Unstored clients boxI goal worker client network' ∧
      toStore goal (network'.accepted client).length (network'.broker.workers worker) =
        toStore goal (network.accepted client).length (network.broker.workers worker) := by
  obtain ⟨serves, ⟨point, session, atPoint, own, here, reads⟩, written, left⟩ := unstored
  obtain ⟨accepted, unsent⟩ := traffic_others kept serves step other
  have alone := leftAlone step other
  constructor
  · constructor
    · refine ⟨alone.serving.trans serves.1, ?_⟩
      rw [alone.point]
      exact serves.2
    · exact ⟨point, session, alone.point.trans atPoint, own, here, reads⟩
    · exact (Nat.add_le_add_left unsent goal).trans written
    · rw [accepted]
      exact left
  · rw [accepted, alone.point]

theorem Unstored.ready (unstored : Unstored clients boxI goal worker client network)
    (small : params.maxSessions < 2 ^ 31)
    (kept : DeliveryKept clients atomicity params name boxI network) :
    Ready clients atomicity params name boxI watched (.worker worker) network := by
  obtain ⟨serves, ⟨point, session, atPoint, own, here, reads⟩, written, left⟩ := unstored
  obtain ⟨_, _, stream⟩ := kept.stream
  have pipes := (Network.reachable_pipesKept kept.reachable).serving worker client serves
  have isTaken := stream.entry.isTaken
  have unlocked := kept.unlocked
  rw [atPoint] at pipes
  rw [← here] at isTaken unlocked
  obtain ⟨server, next, pipe, step, piped⟩ := storing_goes small stream.stream.files isTaken
    unlocked own reads (pipes.1 reads) written left (network.points client = .closed)
  exact ready_publisher serves kept.record atPoint own here step piped

/-! ### Fair runs -/

end

end TecnicoFS.Deployment
