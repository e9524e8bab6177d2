/-
Every stored message arrives.

A worker that sends messages comes closer to the next one with each of its steps, and it falls
asleep only when it has sent every message.  If it sleeps over a message, the publisher of the
box has yet to announce it, and the announcement wakes it.
-/

import TecnicoFS.Deployment.Printing
import TecnicoFS.Deployment.Progress

set_option autoImplicit false

namespace TecnicoFS.Deployment

open FileSystem Protocol Mbroker

/-! ### The loop of a subscriber session -/

/-- The session of a worker in the loop that sends messages -/
def sending? : SubscriberPoint → Option SubscriberSession
  | .awaitMessage session | .blocked session | .checkBox session | .sendMessage session
  | .readNext session => some session
  | .openPipe _ | .findBox _ | .register _ | .unregister _ | .closeFile _ => none

/-- The steps a worker is away from having sent a number of messages -/
def remaining (goal : Nat) : Point → Nat
  | .subscriber (.blocked session) => 5 * (goal - session.sent.length) + 4
  | .subscriber (.awaitMessage session) => 5 * (goal - session.sent.length) + 3
  | .subscriber (.readNext session) => 5 * (goal - session.sent.length) + 3
  | .subscriber (.checkBox session) => 5 * (goal - session.sent.length) + 2
  | .subscriber (.sendMessage session) => 5 * (goal - session.sent.length) + 1
  | .idle | .publisher _ | .subscriber _ | .create _ | .remove _ => 0

section
variable {Thread : Type} [DecidableEq Thread] {thread : Thread} {params : MbrokerParams}
  {server server' : Server Thread} {model : Model Nat} {boxName : CString} {boxI id : Nat}
  {point : SubscriberPoint} {next : Option SubscriberPoint} {session : SubscriberSession}

/-- A step stays in the loop, where it comes closer to the next message that is left, or the
session ends. -/
theorem sending_step (entry : server.HasEntry boxName boxI)
    (stream : StreamFiles params boxName id server.fs (server.stored boxI) model)
    (inStream : point.InStream model boxName boxI id (server.stored boxI))
    (sending : sending? point = some session) (here : session.boxI = boxI)
    (step : SubscriberStep thread server point server' next) :
    (∃ point' session', next = some point' ∧ sending? point' = some session' ∧
      session'.boxI = boxI ∧ ∀ goal, session.sent.length < goal →
        goal ≤ (server.stored boxI).length →
        remaining goal (.subscriber point') < remaining goal (.subscriber point)) ∨
      ∃ session', next = some (.unregister session') := by
  have unread {goal : Nat} (behind : session.sent.length < goal)
      (stored : goal ≤ (server.stored boxI).length) : session.sent ≠ server.stored boxI := by
    intro all
    rw [← all] at stored
    omega
  have taken : server.IsTaken session.boxI := by
    rw [here]
    exact entry.isTaken
  cases step with
  | pipeFails => cases sending
  | pipeOpens => cases sending
  | notFound _ => cases sending
  | found _ => cases sending
  | openFails _ _ _ => cases sending
  | registers _ _ _ => cases sending
  | unregisters _ => cases sending
  | closes _ => cases sending
  | noWait _ gone =>
      cases sending
      exact (gone taken).elim
  | reads _ _ _ _ =>
      cases sending
      refine Or.inl ⟨_, _, rfl, rfl, here, ?_⟩
      intro goal _ _
      change 5 * (goal - session.sent.length) + 2 < 5 * (goal - session.sent.length) + 3
      omega
  | blocks _ _ returned short =>
      cases sending
      refine Or.inl ⟨_, _, rfl, rfl, here, ?_⟩
      intro goal behind stored
      obtain ⟨_, _, _, _, last⟩ := stream.readsNext inStream returned
      exact (unread behind stored ((last short).2 here)).elim
  | wakes _ =>
      cases sending
      refine Or.inl ⟨_, _, rfl, rfl, here, ?_⟩
      intro goal _ _
      change 5 * (goal - session.sent.length) + 3 < 5 * (goal - session.sent.length) + 4
      omega
  | wakesSpuriously _ =>
      cases sending
      refine Or.inl ⟨_, _, rfl, rfl, here, ?_⟩
      intro goal _ _
      change 5 * (goal - session.sent.length) + 3 < 5 * (goal - session.sent.length) + 4
      omega
  | boxThere _ =>
      cases sending
      refine Or.inl ⟨_, _, rfl, rfl, here, ?_⟩
      intro goal _ _
      change 5 * (goal - session.sent.length) + 1 < 5 * (goal - session.sent.length) + 2
      omega
  | boxGone gone =>
      cases sending
      exact (gone taken).elim
  | sends =>
      cases sending
      refine Or.inl ⟨_, _, rfl, rfl, here, ?_⟩
      intro goal behind _
      have one : session.send.sent.length = session.sent.length + 1 := List.length_append
      change 5 * (goal - session.send.sent.length) + 3 < 5 * (goal - session.sent.length) + 1
      omega
  | sendFails => exact Or.inr ⟨_, rfl⟩
  | readsNext _ _ =>
      cases sending
      refine Or.inl ⟨_, _, rfl, rfl, here, ?_⟩
      intro goal _ _
      change 5 * (goal - session.sent.length) + 1 < 5 * (goal - session.sent.length) + 3
      omega
  | readsLast returned short =>
      cases sending
      refine Or.inl ⟨_, _, rfl, rfl, here, ?_⟩
      intro goal behind stored
      obtain ⟨_, _, _, _, last⟩ := stream.readsNext inStream returned
      exact (unread behind stored ((last short).2 here)).elim

/-- A worker that is not asleep has a step. -/
theorem sending_goes (small : params.maxSessions < 2 ^ 31)
    (files : Files params server.fs model) (isTaken : server.IsTaken boxI)
    (unlocked : server.Unlocked boxI) (sending : sending? point = some session)
    (here : session.boxI = boxI)
    (awake : ∀ session', point = .blocked session' → server.waiting session'.boxI thread = false)
    (closed : Prop) (pipe : List UInt8) :
    ∃ server' next, SubscriberStep thread server point server' (some next) ∧
      PipeStep closed (.subscriber point) (.subscriber next) pipe pipe [] := by
  rw [← here] at isTaken unlocked
  cases point with
  | awaitMessage session' =>
      cases sending
      obtain ⟨result, fs, returned⟩ := files.returns small (.reads session.boxF)
      by_cases full : result.length = msgMaxLen
      · exact ⟨_, _, .reads unlocked isTaken returned full, .silent not_false⟩
      · exact ⟨_, _, .blocks unlocked isTaken returned full, .silent not_false⟩
  | blocked session' => exact ⟨_, _, .wakes (awake session' rfl), .silent not_false⟩
  | checkBox session' =>
      cases sending
      exact ⟨_, _, .boxThere isTaken, .silent not_false⟩
  | sendMessage session' => exact ⟨_, _, .sendFails, .sendFails⟩
  | readNext session' =>
      cases sending
      obtain ⟨result, fs, returned⟩ := files.returns small (.reads session.boxF)
      by_cases full : result.length = msgMaxLen
      · exact ⟨_, _, .readsNext returned full, .silent not_false⟩
      · exact ⟨_, _, .readsLast returned full, .silent not_false⟩
  | _ => cases sending

end

/-! ### The session in the network -/

variable {Client Thread : Type}

/-- The worker sends the messages of the box to its client. -/
def Network.SendsOn (network : Network Client Thread) (boxI : Nat) (worker : Thread)
    (client : Client) (session : SubscriberSession) : Prop :=
  network.serving worker = some client ∧ session.boxI = boxI ∧
    ∃ point, network.broker.workers worker = .subscriber point ∧ sending? point = some session

/-- The worker of the client has left the loop that sends messages: while the box is there, it
does so when a write to the session pipe fails. -/
def Network.PipeFailed (network : Network Client Thread) (client : Client) : Prop :=
  ∃ worker session, network.serving worker = some client ∧
    network.broker.workers worker = .subscriber (.unregister session)

section
variable (boxI : Nat) (goal : List Message) (worker : Thread) (client : Client)
  (network : Network Client Thread)

/-- The worker has yet to send some of the messages. -/
structure Behind : Prop where
  stored : goal <+: network.broker.server.stored boxI
  session : ∃ session, network.SendsOn boxI worker client session ∧
    session.sent.length < goal.length

/-- The worker has sent as many messages, or it has left its loop. -/
structure Arrived : Prop where
  stored : goal <+: network.broker.server.stored boxI
  outcome : (∃ session, network.SendsOn boxI worker client session ∧
    goal.length ≤ session.sent.length) ∨ network.PipeFailed client

/-- The worker is a number of steps away from having sent the messages. -/
def BehindBy (bound : Nat) : Prop :=
  Behind boxI goal worker client network ∧
    remaining goal.length (network.broker.workers worker) = bound

/-- The worker has come closer. -/
def Closer (bound : Nat) : Prop :=
  (Behind boxI goal worker client network ∧
    remaining goal.length (network.broker.workers worker) < bound) ∨
  Arrived boxI goal worker client network

end

section
variable [DecidableEq Client] {clients : Clients Client} {atomicity : Atomicity}
  {params : MbrokerParams} {network network' : Network Client (Fin params.maxSessions)}
  {name : CString} {boxI bound : Nat} {goal : List Message}
  {worker announcer : Fin params.maxSessions} {client : Client}
  {actor : Actor Client (Fin params.maxSessions)}

omit [DecidableEq Client] in
theorem Network.SendsOn.serves {session : SubscriberSession}
    (sends : network.SendsOn boxI worker client session) : network.Serves worker client := by
  obtain ⟨serving, _, point, atPoint, _⟩ := sends
  refine ⟨serving, ?_⟩
  rw [atPoint]
  exact Point.noConfusion

/-- A step of the worker stays in the loop, or it ends the session. -/
theorem Network.SendsOn.step {session : SubscriberSession}
    (sends : network.SendsOn boxI worker client session)
    (kept : DeliveryKept clients atomicity params name boxI network)
    (step : WorkerStep clients atomicity worker network network') :
    (∃ session', network'.SendsOn boxI worker client session' ∧
      ∀ goal, session.sent.length < goal →
        goal ≤ (network.broker.server.stored boxI).length →
        remaining goal (network'.broker.workers worker) <
          remaining goal (network.broker.workers worker)) ∨
      network'.PipeFailed client := by
  obtain ⟨_, _, stream⟩ := kept.stream
  obtain ⟨broker, pipe, written, taken, _, sameNetwork⟩ := sends.serves.step step
  obtain ⟨serving, here, point, atPoint, sending⟩ := sends
  obtain ⟨server, next, stepped, sameBroker⟩ := taken.ofSubscriber atPoint
  have inStream := stream.points worker
  rw [atPoint] at inStream
  have moved : broker.workers worker = next.elim .idle .subscriber := by
    rw [sameBroker, Broker.goto_self]
  subst sameNetwork
  rcases sending_step stream.entry stream.stream inStream sending here stepped with
    ⟨point', session', isNext, sending', here', less⟩ | ⟨session', isNext⟩
  · rw [isNext] at moved
    refine Or.inl ⟨session', ⟨serving, here', point', moved, sending'⟩, ?_⟩
    change ∀ goal, _ → _ → remaining goal (broker.workers worker) < _
    rw [moved, atPoint]
    exact less
  · rw [isNext] at moved
    exact Or.inr ⟨worker, session', serving, moved⟩

/-- The worker comes closer with each of its steps. -/
theorem BehindBy.own (behind : BehindBy boxI goal worker client network bound)
    (kept : DeliveryKept clients atomicity params name boxI network)
    (step : WorkerStep clients atomicity worker network network') :
    Closer boxI goal worker client network' bound := by
  obtain ⟨⟨stored, session, sends, left⟩, same⟩ := behind
  have grows := stored.trans (@DeliveryKept.grows _ _ _ _ _ _ _ _ _ (.worker worker) kept step)
  rcases sends.step kept step with ⟨session', sends', less⟩ | failed
  · by_cases left' : session'.sent.length < goal.length
    · refine Or.inl ⟨⟨grows, session', sends', left'⟩, ?_⟩
      rw [← same]
      exact less goal.length left stored.length_le
    · exact Or.inr ⟨grows, Or.inl ⟨session', sends', Nat.le_of_not_lt left'⟩⟩
  · exact Or.inr ⟨grows, Or.inr failed⟩

/-- The steps of the others leave the worker where it is. -/
theorem BehindBy.others (behind : BehindBy boxI goal worker client network bound)
    (kept : DeliveryKept clients atomicity params name boxI network)
    (step : (deploymentSystem clients atomicity params).step actor network network')
    (other : actor ≠ .worker worker) : BehindBy boxI goal worker client network' bound := by
  obtain ⟨⟨stored, session, ⟨serving, here, point, atPoint, sending⟩, left⟩, same⟩ := behind
  have alone := leftAlone step other
  constructor
  · constructor
    · exact stored.trans (kept.grows step)
    · exact ⟨session, ⟨alone.serving.trans serving, here, point, alone.point.trans atPoint,
        sending⟩, left⟩
  · rw [alone.point]
    exact same

theorem BehindBy.step (behind : BehindBy boxI goal worker client network bound)
    (kept : DeliveryKept clients atomicity params name boxI network)
    (step : (deploymentSystem clients atomicity params).step actor network network') :
    (actor ≠ .worker worker ∧ BehindBy boxI goal worker client network' bound) ∨
      Closer boxI goal worker client network' bound := by
  by_cases own : actor = .worker worker
  · subst own
    exact Or.inr (behind.own kept step)
  · exact Or.inl ⟨own, behind.others kept step own⟩

omit [DecidableEq Client] in
/-- A worker that sleeps is in the session it is behind in. -/
theorem Behind.asleep {place : Nat} (behind : Behind boxI goal worker client network)
    (asleep : network.broker.AsleepOn worker place) : place = boxI ∧
      ∃ session, network.broker.workers worker = .subscriber (.blocked session) ∧
        session.boxI = boxI ∧ session.sent.length < goal.length := by
  obtain ⟨_, session, ⟨_, here, point, atPoint, sending⟩, left⟩ := behind
  obtain ⟨⟨session', blocked, place'⟩, _⟩ := asleep
  have same := atPoint.symm.trans blocked
  rw [Point.subscriber.injEq] at same
  rw [same] at sending
  cases sending
  exact ⟨place'.symm.trans here, session, blocked, here, left⟩

/-- A worker that is awake goes on. -/
theorem BehindBy.ready (behind : BehindBy boxI goal worker client network bound)
    (small : params.maxSessions < 2 ^ 31)
    (kept : DeliveryKept clients atomicity params name boxI network)
    (awake : ∀ place, ¬ network.broker.AsleepOn worker place) :
    Ready clients atomicity params name boxI client (.worker worker) network := by
  obtain ⟨⟨_, session, sends, _⟩, _⟩ := behind
  obtain ⟨_, _, stream⟩ := kept.stream
  have serves := sends.serves
  obtain ⟨_, here, point, atPoint, sending⟩ := sends
  obtain ⟨server, next, step, piped⟩ := sending_goes small stream.stream.files
    stream.entry.isTaken kept.unlocked sending here (by
      intro session' blocked
      rw [blocked] at atPoint
      by_contra waits
      exact awake session'.boxI ⟨⟨session', atPoint, rfl⟩, Bool.not_eq_false _ ▸ waits⟩)
    (network.points client = .closed) (network.toBroker client)
  refine ready_session serves (Or.inl rfl) ?_ awake
    ⟨_, network.toBroker client, [], .subscriber atPoint step, ?_⟩
  · rw [atPoint]
    cases point <;> first | exact Option.some_ne_none _ | cases sending
  · rw [Broker.goto_self, atPoint]
    exact piped

/-! ### The announcement -/

omit [DecidableEq Client] in
theorem pending_eq_some {point : Point} (pending : point.pending? = some boxI) :
    ∃ session, point = .publisher (.publish session) ∧ session.boxI = boxI := by
  cases point with
  | publisher point =>
      cases point with
      | publish session => exact ⟨session, rfl, Option.some.inj pending⟩
      | _ => cases pending
  | _ => cases pending

/-- The announcement wakes everybody. -/
theorem announces (kept : DeliveryKept clients atomicity params name boxI network)
    (pending : (network.broker.workers announcer).pending? = some boxI)
    (step : WorkerStep clients atomicity announcer network network')
    (worker : Fin params.maxSessions) : network'.broker.server.waiting boxI worker = false := by
  obtain ⟨session, atPoint, here⟩ := pending_eq_some pending
  obtain ⟨_, _, _, requests⟩ := Network.reachable_requestsKept kept.reachable
  have busy : network.broker.workers announcer ≠ .idle := by
    rw [atPoint]
    exact Point.noConfusion
  obtain ⟨client, _, serving, _⟩ := requests.serves announcer busy
  obtain ⟨broker, _, _, taken, _, sameNetwork⟩ := Network.Serves.step ⟨serving, busy⟩ step
  obtain ⟨server, next, stepped, sameBroker⟩ := taken.ofPublisher atPoint
  subst sameNetwork
  subst sameBroker
  rw [← here]
  cases stepped with
  | publishes _ =>
      exact congrFun (Function.update_self session.boxI _ network.broker.server.waiting) worker

omit [DecidableEq Client] in
/-- A worker that was woken is awake. -/
theorem Behind.awake (behind : Behind boxI goal worker client network)
    (woken : network.broker.server.waiting boxI worker = false) (place : Nat) :
    ¬ network.broker.AsleepOn worker place := by
  intro asleep
  obtain ⟨same, _⟩ := behind.asleep asleep
  have waits := asleep.2
  rw [same, woken] at waits
  cases waits

/-! ### Fair runs -/

section
variable {run : (deliverySystem clients atomicity params name boxI).Run}
  (fair : FairFor clients atomicity params name boxI client run)
include fair

end

omit [DecidableEq Client] in
/-- A worker that sends messages has sent its client the first ones of the box. -/
theorem Network.SendsOn.sent {session : SubscriberSession} {boxName : CString} {id : Nat}
    {model : Model Nat} (sends : network.SendsOn boxI worker client session)
    (pipes : PipesKept clients network)
    (stream : StreamKept params boxName boxI id network.broker model) :
    session.sent <+: network.broker.server.stored boxI ∧
      network.toClient client = (session.sent.map Subscriber.packetOf).flatten := by
  have atPoint := pipes.serving worker client sends.serves
  obtain ⟨_, here, point, isPoint, sending⟩ := sends
  have own : point.session? = some session := by
    cases point <;> first | exact sending | cases sending
  have sent : messagesSent point = session.sent := by
    unfold messagesSent
    rw [own]
    rfl
  rw [isPoint] at atPoint
  refine ⟨stream.messageStream.sent worker point session isPoint own here, ?_⟩
  rw [← sent]
  exact atPoint

end

end TecnicoFS.Deployment
