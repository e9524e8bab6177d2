/-
What a session pipe carries.

The messages of a publisher are, in their order, those that were stored, the one its worker
holds, those in the pipe and those it has not sent.  What a subscriber was sent are the packets
of the messages its worker has sent.
-/

import TecnicoFS.Deployment.Requests

set_option autoImplicit false

namespace TecnicoFS.Deployment

open FileSystem Protocol Mbroker

variable {Client Thread : Type}

/-! ### The messages of a client -/

/-- The messages in which a publisher sends its input -/
def Clients.messages (clients : Clients Client) (client : Client) : List Message :=
  if (clients.request client).code = .pubRegister then
    Publisher.publishedMessages (clients.stdin client)
  else
    []

theorem publisherPackets_eq (stdin : List UInt8) :
    publisherPackets stdin = (Publisher.publishedMessages stdin).map Publisher.packetOf := by
  have small : ¬ Publisher.packetLen > pipeBufferMaxLen := by decide
  have first := @Publisher.delivered_first (fun _ => true) []
    ((Publisher.publishedMessages stdin).map Publisher.packetOf)
    (fun place impossible => absurd impossible (Nat.not_lt_zero place))
  have returned : Publisher.publisherWriteMessages .working (stdin.length + 1) stdin =
      .ok (Publisher.delivered (fun _ => true) []
        ((Publisher.publishedMessages stdin).map Publisher.packetOf)) := by
    unfold Publisher.publisherWriteMessages
    rw [if_neg small, if_neg (fun closed => closed rfl)]
    exact Publisher.publisherLoop_delivered (Nat.lt_succ_self _)
  unfold publisherPackets
  rw [returned]
  apply first.complete.mp
  by_contra failed
  have impossible : true = false := (first.stops failed).2
  cases impossible

theorem Clients.packets_eq (clients : Clients Client) (client : Client) :
    clients.packets client = (clients.messages client).map Publisher.packetOf := by
  unfold Clients.packets Clients.messages
  split
  · exact publisherPackets_eq _
  · rfl

/-! ### The places of a message -/

/-- The code of a packet whose message has not been read -/
def codeRead : PublisherPoint → List UInt8
  | .checkBox _ | .readMessage _ => [protocolCodeMessageReceive]
  | .openPipe _ | .findBox _ | .register _ | .readCode _ | .writeMessage _ _ | .publish _
  | .unregister _ | .closeFile _ => []

/-- The message that was read and not stored -/
def messageHeld : PublisherPoint → List Message
  | .writeMessage _ message => [message]
  | .openPipe _ | .findBox _ | .register _ | .readCode _ | .checkBox _ | .readMessage _
  | .publish _ | .unregister _ | .closeFile _ => []

/-- The worker has not read its last message. -/
def ReadsOn : PublisherPoint → Prop
  | .unregister _ | .closeFile _ => False
  | .openPipe _ | .findBox _ | .register _ | .readCode _ | .checkBox _ | .readMessage _
  | .writeMessage _ _ | .publish _ => True

/-- What the worker has sent -/
def messagesSent (point : SubscriberPoint) : List Message :=
  (point.session?.map SubscriberSession.sent).getD []

/-- What there is of a client beside its request -/
structure Traffic where
  unsent : List (List UInt8)
  toBroker : List UInt8
  toClient : List UInt8
  accepted : List Message

def Network.traffic (network : Network Client Thread) (client : Client) : Traffic where
  unsent := network.unsent client
  toBroker := network.toBroker client
  toClient := network.toClient client
  accepted := network.accepted client

/-- A step stores the message of the write it makes, or none. -/
theorem storedBy_cases (point next : Point) : storedBy point next = [] ∨
    ∃ session message session', point = .publisher (.writeMessage session message) ∧
      next = .publisher (.publish session') ∧ storedBy point next = [message] := by
  unfold storedBy
  split
  case h_1 session message session' => exact Or.inr ⟨session, message, session', rfl, rfl, rfl⟩
  case h_2 => exact Or.inl rfl

namespace Traffic

/-- The bytes that were read are left out, those that were written are added, and so are the
messages that were stored. -/
def handled (traffic : Traffic) (pipe written : List UInt8) (messages : List Message) : Traffic :=
  { traffic with
    toBroker := pipe
    toClient := traffic.toClient ++ written
    accepted := traffic.accepted ++ messages }

/-- Where the messages of a publisher are while its worker reads on -/
def Flows (traffic : Traffic) (messages : List Message) (point : PublisherPoint) : Prop :=
  ∃ arriving left, codeRead point ++ traffic.toBroker =
      (arriving.map Publisher.packetOf).flatten ∧
    traffic.unsent = left.map Publisher.packetOf ∧
    messages = traffic.accepted ++ (messageHeld point ++ (arriving ++ left))

/-- Every message that was written to the pipe has been stored. -/
def Emptied (traffic : Traffic) (messages : List Message) : Prop :=
  ∃ left, traffic.unsent = left.map Publisher.packetOf ∧ messages = traffic.accepted ++ left

/-- What has gone through a session pipe when the worker is at a point -/
def AtPoint (traffic : Traffic) (messages : List Message) : Point → Prop
  | .publisher point => (ReadsOn point → traffic.Flows messages point) ∧
      (point.session? = none → traffic.accepted = [])
  | .subscriber point =>
      traffic.toClient = ((messagesSent point).map Subscriber.packetOf).flatten
  | .idle | .create _ | .remove _ => True

/-! ### Steps -/

variable {traffic : Traffic} {messages : List Message} {closed : Prop}
  {pipe rest written : List UInt8} {server server' : Server Thread}

/-- The bytes of a pipe that starts with a code -/
theorem arriving_cons {arriving : List Message} {pipe : List UInt8}
    (carried : protocolCodeMessageReceive :: pipe = (arriving.map Publisher.packetOf).flatten) :
    ∃ message later, arriving = message :: later ∧
      pipe = message.bytes ++ (later.map Publisher.packetOf).flatten := by
  cases arriving with
  | nil => cases carried
  | cons message later =>
      refine ⟨message, later, rfl, ?_⟩
      rw [List.map_cons, List.flatten_cons] at carried
      exact (List.cons.inj carried).2

/-- The packets in a pipe that is read -/
theorem arriving_code {arriving : List Message} {bytesRead : Int} {code : List UInt8}
    (carried : pipe = (arriving.map Publisher.packetOf).flatten)
    (read : pipeRead pipe 1 = (bytesRead, code, rest)) :
    (arriving = [] ∧ rest = [] ∧ bytesRead = 0) ∨
      (bytesRead = 1 ∧ code = [protocolCodeMessageReceive] ∧
        protocolCodeMessageReceive :: rest = pipe) := by
  cases arriving with
  | nil =>
      rw [List.map_nil, List.flatten_nil] at carried
      rw [carried] at read
      cases read
      exact Or.inl ⟨rfl, rfl, rfl⟩
  | cons message later =>
      rw [List.map_cons, List.flatten_cons] at carried
      have first : pipeRead pipe 1 = (((1 : Nat) : Int), [protocolCodeMessageReceive],
          message.bytes ++ (later.map Publisher.packetOf).flatten) := by
        rw [carried]
        exact @pipeRead_whole [protocolCodeMessageReceive] _ _ rfl
      rw [read] at first
      obtain ⟨count, first⟩ := Prod.mk.inj first
      obtain ⟨sameCode, sameRest⟩ := Prod.mk.inj first
      refine Or.inr ⟨count, sameCode, ?_⟩
      rw [sameRest, carried]
      rfl

/-- While the worker reads on, a step moves a message to its next place. -/
theorem Flows.step {point next : PublisherPoint} (flows : traffic.Flows messages point)
    (step : PublisherStep server point server' (some next))
    (piped : PipeStep closed (.publisher point) (.publisher next) traffic.toBroker rest written)
    (reads : ReadsOn next) :
    (traffic.handled rest written (storedBy (.publisher point) (.publisher next))).Flows messages
      next := by
  obtain ⟨arriving, left, carried, unsent, places⟩ := flows
  have quiet : (traffic.handled traffic.toBroker written []).accepted = traffic.accepted :=
    List.append_nil _
  cases step with
  | codeArrives _ =>
      cases piped with
      | codeArrives read =>
          refine ⟨arriving, left, ?_, unsent, ?_⟩
          · rcases arriving_code carried read with ⟨_, _, impossible⟩ | ⟨_, _, same⟩
            · cases impossible
            · exact same.trans carried
          · rw [places]
            exact congrArg (· ++ (arriving ++ left)) quiet.symm
      | silent uses => exact (uses trivial).elim
  | @messageArrives session message =>
      cases piped with
      | messageArrives read =>
          obtain ⟨first, later, isFirst, bytes⟩ := @arriving_cons arriving traffic.toBroker carried
          rw [bytes, Publisher.readArray_message, Option.some.injEq, Prod.mk.injEq] at read
          obtain ⟨same, behind⟩ := read
          have sameMessage : first = message := Message.ext_bytes (congrArg CharArray.bytes same)
          refine ⟨later, left, behind.symm, unsent, ?_⟩
          rw [places, isFirst, sameMessage]
          exact congrArg (· ++ ([message] ++ (later ++ left))) quiet.symm
      | silent uses => exact (uses trivial).elim
  | @writes session message result fs returned full =>
      cases piped with
      | silent _ =>
          refine ⟨arriving, left, carried, unsent, ?_⟩
          rw [places]
          exact (List.append_assoc traffic.accepted [message] (arriving ++ left)).symm
  | codeMissing _ => exact reads.elim
  | boxGone _ => exact reads.elim
  | messageMissing => exact reads.elim
  | writeFails _ _ => exact reads.elim
  | unregisters _ => exact reads.elim
  | _ =>
      cases piped with
      | silent _ =>
          refine ⟨arriving, left, carried, unsent, ?_⟩
          rw [places]
          exact congrArg (· ++ (arriving ++ left)) quiet.symm

/-- A session stops reading at the end of its loop. -/
theorem stops_reading {point : PublisherPoint} {next : Option PublisherPoint}
    (step : PublisherStep server point server' next) (inside : point.session? ≠ none)
    (reads : ReadsOn point) (ended : ∀ next', next = some next' → ¬ ReadsOn next') :
    ∃ session, next = some (.unregister session) := by
  cases step with
  | codeMissing _ => exact ⟨_, rfl⟩
  | boxGone _ => exact ⟨_, rfl⟩
  | messageMissing => exact ⟨_, rfl⟩
  | writeFails _ _ => exact ⟨_, rfl⟩
  | unregisters _ => exact reads.elim
  | closes _ => exact reads.elim
  | pipeFails => exact (inside rfl).elim
  | notFound _ => exact (inside rfl).elim
  | busy _ _ => exact (inside rfl).elim
  | openFails _ _ _ _ => exact (inside rfl).elim
  | _ => exact (ended _ rfl trivial).elim

/-- When the worker stops reading, the client has closed the pipe and everything in it was
stored, or the box is gone, or the last write failed. -/
theorem Flows.stops {point : PublisherPoint} {session : Mbroker.Session}
    (flows : traffic.Flows messages point)
    (step : PublisherStep server point server' (some (.unregister session)))
    (piped : PipeStep closed (.publisher point) (.publisher (.unregister session))
      traffic.toBroker rest written) :
    (closed ∧ point = .readCode session ∧ traffic.Emptied messages) ∨
      (point = .checkBox session ∧ ¬ server.IsTaken session.boxI) ∨
      ∃ message, point = .writeMessage session message := by
  obtain ⟨arriving, left, carried, unsent, places⟩ := flows
  cases step with
  | codeMissing _ =>
      cases piped with
      | codeMissing read ended other =>
          rcases arriving_code carried read with ⟨nothing, _, none⟩ | ⟨one, code, _⟩
          · refine Or.inl ⟨ended (Int.le_of_eq none), rfl, left, unsent, ?_⟩
            rw [places, nothing]
            rfl
          · exfalso
            apply other
            rw [one, code]
            exact ⟨Int.one_pos, rfl⟩
      | silent uses => exact (uses trivial).elim
  | boxGone gone => exact Or.inr (Or.inl ⟨rfl, gone⟩)
  | messageMissing =>
      cases piped with
      | messageMissing missing _ =>
          obtain ⟨first, later, _, bytes⟩ := @arriving_cons arriving traffic.toBroker carried
          rw [bytes, Publisher.readArray_message] at missing
          cases missing
      | silent uses => exact (uses trivial).elim
  | writeFails _ _ => exact Or.inr (Or.inr ⟨_, rfl⟩)

/-- A step that stores nothing leaves everything stored. -/
theorem Emptied.handled (emptied : traffic.Emptied messages) :
    (traffic.handled pipe written []).Emptied messages := by
  obtain ⟨left, unsent, places⟩ := emptied
  refine ⟨left, unsent, ?_⟩
  change messages = (traffic.accepted ++ []) ++ left
  rw [List.append_nil]
  exact places

/-- A message is stored in front of those that are still to come. -/
theorem Flows.stores {point : PublisherPoint} (flows : traffic.Flows messages point)
    (next : Point) : traffic.accepted ++ storedBy (.publisher point) next <+: messages := by
  obtain ⟨arriving, left, _, _, places⟩ := flows
  rcases storedBy_cases (.publisher point) next with none | ⟨_, message, _, writes, _, stored⟩
  · rw [none, List.append_nil, places]
    exact List.prefix_append _ _
  · rw [Point.publisher.injEq] at writes
    rw [stored, places, writes, ← List.append_assoc]
    exact List.prefix_append _ _

/-- A subscriber is sent the packet of each message in turn. -/
theorem subscriber_step [DecidableEq Thread] {thread : Thread} {point next : SubscriberPoint}
    (atPoint : traffic.AtPoint messages (.subscriber point))
    (step : SubscriberStep thread server point server' (some next))
    (piped : PipeStep closed (.subscriber point) (.subscriber next) pipe rest written) :
    (traffic.handled rest written []).AtPoint messages (.subscriber next) := by
  have sent : traffic.toClient = ((messagesSent point).map Subscriber.packetOf).flatten := atPoint
  change traffic.toClient ++ written = _
  rw [sent]
  cases step with
  | sends =>
      cases piped with
      | sends packed =>
          rw [Subscriber.messagePacket_eq, Except.ok.injEq] at packed
          rw [← packed]
          change _ = ((_ ++ [_]).map Subscriber.packetOf).flatten
          rw [List.map_append, List.flatten_append, List.map_singleton, List.flatten_singleton]
          rfl
      | silent uses => exact (uses trivial).elim
  | _ =>
      cases piped with
      | _ =>
          rw [List.append_nil]
          rfl

/-- A publisher that has no session has not stored anything. -/
theorem publisher_step {point next : PublisherPoint}
    (atPoint : traffic.AtPoint messages (.publisher point))
    (step : PublisherStep server point server' (some next))
    (piped : PipeStep closed (.publisher point) (.publisher next) traffic.toBroker rest written) :
    (traffic.handled rest written (storedBy (.publisher point) (.publisher next))).AtPoint
      messages (.publisher next) := by
  obtain ⟨flows, without⟩ := atPoint
  constructor
  · intro reads
    refine (flows ?_).step step piped reads
    cases step <;> trivial
  · intro outside
    have nothing : storedBy (.publisher point) (.publisher next) = [] := by
      cases step <;> first | rfl | cases outside
    have before : point.session? = none := by
      cases step <;> first | rfl | cases outside
    change traffic.accepted ++ _ = []
    rw [without before, nothing]
    rfl

/-- The client writes its next packet to the pipe. -/
theorem AtPoint.sends {point : Point} {packet : List UInt8} {left : List (List UInt8)}
    (atPoint : traffic.AtPoint messages point) (first : traffic.unsent = packet :: left) :
    AtPoint { traffic with unsent := left, toBroker := traffic.toBroker ++ packet } messages
      point := by
  cases point with
  | publisher point =>
      refine ⟨?_, atPoint.2⟩
      intro reads
      obtain ⟨arriving, later, carried, unsent, places⟩ := atPoint.1 reads
      rw [first] at unsent
      cases later with
      | nil => cases unsent
      | cons message later =>
          rw [List.map_cons, List.cons.injEq] at unsent
          refine ⟨arriving ++ [message], later, ?_, unsent.2, ?_⟩
          · change codeRead point ++ (traffic.toBroker ++ packet) = _
            rw [← List.append_assoc, carried, unsent.1, List.map_append, List.flatten_append,
              List.map_singleton, List.flatten_singleton]
          · rw [places]
            simp only [List.append_assoc, List.singleton_append]
  | _ => exact atPoint

end Traffic

/-! ### Every client -/

section
variable [DecidableEq Client]

theorem Network.handled_traffic (network : Network Client Thread) (thread : Thread)
    (client : Client) (broker : Broker Thread) (pipe written : List UInt8) :
    (network.handled thread client broker pipe written).traffic client =
      (network.traffic client).handled pipe written
        (storedBy (network.broker.workers thread) (broker.workers thread)) := by
  unfold Network.traffic Network.handled Traffic.handled
  simp only [Function.update_self]

theorem Network.handled_other (network : Network Client Thread) (thread : Thread)
    {client other : Client} (broker : Broker Thread) (pipe written : List UInt8)
    (different : other ≠ client) :
    (network.handled thread client broker pipe written).traffic other = network.traffic other := by
  unfold Network.traffic Network.handled
  simp only [Function.update_of_ne different]

end

/-- What holds of the session pipes of all clients -/
structure PipesKept (clients : Clients Client) (network : Network Client Thread) : Prop where
  fresh : ∀ client, client ∉ network.started → network.traffic client =
    { unsent := clients.packets client, toBroker := [], toClient := [], accepted := [] }
  serving : ∀ worker client, network.Serves worker client →
    (network.traffic client).AtPoint (clients.messages client) (network.broker.workers worker)
  accepted : ∀ client, network.accepted client <+: clients.messages client

namespace PipesKept

variable {clients : Clients Client} {network network' : Network Client Thread}

/-- A step that leaves the workers alone keeps the pipes it does not use. -/
theorem quiet (kept : PipesKept clients network) (broker : network'.broker = network.broker)
    (serving : network'.serving = network.serving)
    (started : ∀ client, client ∈ network.started → client ∈ network'.started)
    (used : ∀ client, network'.traffic client ≠ network.traffic client →
      client ∈ network'.started ∧ network'.accepted client = network.accepted client ∧
        ∀ worker, network.Serves worker client → (network'.traffic client).AtPoint
          (clients.messages client) (network.broker.workers worker)) :
    PipesKept clients network' := by
  constructor
  · intro client new
    by_cases same : network'.traffic client = network.traffic client
    · rw [same]
      exact kept.fresh client (fun before => new (started client before))
    · exact (new (used client same).1).elim
  · intro worker client serves
    have before : network.Serves worker client := by
      unfold Network.Serves at serves ⊢
      rw [← broker, ← serving]
      exact serves
    rw [broker]
    by_cases same : network'.traffic client = network.traffic client
    · rw [same]
      exact kept.serving worker client before
    · exact (used client same).2.2 worker before
  · intro client
    by_cases same : network'.traffic client = network.traffic client
    · have stored := congrArg Traffic.accepted same
      change network'.accepted client = network.accepted client at stored
      rw [stored]
      exact kept.accepted client
    · rw [(used client same).2.1]
      exact kept.accepted client

theorem client [DecidableEq Client] {capacity : Nat} {queued held pending : List Client}
    {client : Client} (kept : PipesKept clients network)
    (requests : RequestsKept clients capacity network queued held pending)
    (step : ClientStep clients client network network') : PipesKept clients network' := by
  cases step with
  | requests _ _ => exact ⟨kept.fresh, kept.serving, kept.accepted⟩
  | @sends worker packet rest _ serving opened first =>
      have busy : network.broker.workers worker ≠ .idle := by
        intro idle
        rw [idle] at opened
        exact opened
      refine kept.quiet rfl rfl (fun _ member => member) ?_
      intro other changed
      have same : other = client := by
        by_contra different
        apply changed
        unfold Network.traffic
        simp only [Function.update_of_ne different]
      subst same
      refine ⟨?_, rfl, ?_⟩
      · exact requests.serves_started ⟨serving, busy⟩
      · intro reader serves
        have sent := (kept.serving reader other serves).sends first
        unfold Network.traffic
        simp only [Function.update_self]
        exact sent
  | closes _ => exact ⟨kept.fresh, kept.serving, kept.accepted⟩

theorem listener {capacity : Nat} (kept : PipesKept clients network)
    (step : ListenerStep capacity network network') : PipesKept clients network' := by
  cases step with
  | receives _ _ _ _ => exact ⟨kept.fresh, kept.serving, kept.accepted⟩
  | enqueues _ _ => exact ⟨kept.fresh, kept.serving, kept.accepted⟩

/-- A worker takes a client that has not used its session pipe yet. -/
theorem start (kept : PipesKept clients network) {client : Client}
    (new : client ∉ network.started) (request : Mbroker.Request) :
    (network.traffic client).AtPoint (clients.messages client) request.start := by
  rw [kept.fresh client new]
  cases request with
  | pubRegister name =>
      refine ⟨fun _ => ⟨[], clients.messages client, rfl, clients.packets_eq client, rfl⟩, ?_⟩
      intro _
      rfl
  | subRegister name => rfl
  | createRequest name => trivial
  | removeRequest name => trivial

/-- The client whose worker takes a step -/
theorem own [DecidableEq Thread] {client : Client} {thread : Thread} {atomicity : Atomicity}
    {broker : Broker Thread} {pipe written : List UInt8} (kept : PipesKept clients network)
    (serves : network.Serves thread client) (step : network.broker.Step atomicity thread broker)
    (piped : PipeStep (network.points client = .closed) (network.broker.workers thread)
      (broker.workers thread) (network.toBroker client) pipe written) :
    ((network.traffic client).handled pipe written
        (storedBy (network.broker.workers thread) (broker.workers thread))).AtPoint
      (clients.messages client) (broker.workers thread) ∧
    network.accepted client ++
        storedBy (network.broker.workers thread) (broker.workers thread) <+:
      clients.messages client := by
  have atPoint := kept.serving thread client serves
  have accepted := kept.accepted client
  have nothing {point next : Point} (other : ∀ session message,
      point ≠ .publisher (.writeMessage session message)) : storedBy point next = [] := by
    rcases storedBy_cases point next with none | ⟨session, message, _, writes, _⟩
    · exact none
    · exact (other session message writes).elim
  cases step with
  | dequeue request idle => exact (serves.2 idle).elim
  | @publisher point server next here taken =>
      rw [here] at atPoint piped ⊢
      rw [Broker.goto_self] at piped ⊢
      cases next with
      | none =>
          rw [show storedBy (.publisher point) (Option.elim none .idle .publisher) = [] by
            cases point <;> rfl, List.append_nil]
          exact ⟨trivial, accepted⟩
      | some next =>
          refine ⟨Traffic.publisher_step atPoint taken piped, ?_⟩
          by_cases reads : ReadsOn point
          · exact (atPoint.1 reads).stores _
          · rw [nothing, List.append_nil]
            · exact accepted
            · intro session message writes
              rw [Point.publisher.injEq] at writes
              rw [writes] at reads
              exact reads trivial
  | @subscriber point server next here taken =>
      rw [here] at atPoint piped ⊢
      rw [Broker.goto_self] at piped ⊢
      rw [nothing (fun _ _ impossible => Point.noConfusion impossible), List.append_nil]
      refine ⟨?_, accepted⟩
      cases next with
      | none => trivial
      | some next => exact Traffic.subscriber_step atPoint taken piped
  | @create point server next here taken =>
      rw [here, Broker.goto_self,
        nothing (fun _ _ impossible => Point.noConfusion impossible), List.append_nil]
      refine ⟨?_, accepted⟩
      cases next <;> trivial
  | @remove point server next here taken =>
      rw [here, Broker.goto_self,
        nothing (fun _ _ impossible => Point.noConfusion impossible), List.append_nil]
      refine ⟨?_, accepted⟩
      cases next <;> trivial

theorem worker [DecidableEq Client] [DecidableEq Thread] {thread : Thread}
    {atomicity : Atomicity} {capacity : Nat} {queued held pending : List Client}
    (kept : PipesKept clients network)
    (requests : RequestsKept clients capacity network queued held pending)
    (step : WorkerStep clients atomicity thread network network') : PipesKept clients network' := by
  cases step with
  | @dequeues request rest client point idle first path reception =>
      obtain ⟨asked, asks, start⟩ := requests.first_starts first path reception
      constructor
      · intro other fresh
        exact kept.fresh other (fun before => fresh (List.mem_append_left _ before))
      · intro worker other serves
        rcases Network.taken_serves serves with ⟨_, same, atStart⟩ | ⟨_, before, stays⟩
        · rw [atStart, same, start]
          exact kept.start (requests.first_new first path) asked
        · rw [stays]
          exact kept.serving worker other before
      · exact kept.accepted
  | @lists request rest client packets returnCode accepts idle first path reception listed =>
      refine kept.quiet rfl rfl (fun _ member => List.mem_append_left _ member) ?_
      intro other changed
      have same : other = client := by
        by_contra different
        apply changed
        unfold Network.traffic
        simp only [Function.update_of_ne different]
      subst same
      refine ⟨List.mem_append_right _ List.mem_cons_self, rfl, ?_⟩
      intro worker serves
      exact (requests.first_new first path (requests.serves_started serves)).elim
  | @handles client broker pipe written serving busy taken piped =>
      have serves : network.Serves thread client := ⟨serving, busy⟩
      have own := kept.own serves taken piped
      have others {other : Client} (different : other ≠ client) :=
        network.handled_other thread broker pipe written different
      have same := network.handled_traffic thread client broker pipe written
      constructor
      · intro other fresh
        have different : other ≠ client := by
          intro same
          rw [same] at fresh
          exact fresh (requests.serves_started serves)
        rw [others different]
        exact kept.fresh other fresh
      · intro worker other serves'
        rcases Network.handled_serves requests.alone serves taken serves' with
          ⟨isThread, isClient⟩ | ⟨_, different, before, stays⟩
        · rw [isThread, isClient, same]
          exact own.1
        · rw [others different]
          change Traffic.AtPoint _ _ (broker.workers worker)
          rw [stays]
          exact kept.serving worker other before
      · intro other
        by_cases isClient : other = client
        · rw [isClient]
          have stored := congrArg Traffic.accepted same
          change (network.handled thread client broker pipe written).accepted client = _ at stored
          rw [stored]
          exact own.2
        · have stored := congrArg Traffic.accepted (others isClient)
          change (network.handled thread client broker pipe written).accepted other = _ at stored
          rw [stored]
          exact kept.accepted other

end PipesKept

/-! ### Runs -/

theorem Network.reachable_pipesKept [DecidableEq Client] {clients : Clients Client}
    {atomicity : Atomicity} {params : MbrokerParams}
    {network : Network Client (Fin params.maxSessions)}
    (reachable : (deploymentSystem clients atomicity params).Reachable network) :
    PipesKept clients network := by
  apply reachable.preserves_with (fun _ => Network.reachable_requestsKept)
  · intro start initial
    obtain ⟨⟨_, idle⟩, starts⟩ := initial
    constructor
    · intro client _
      unfold Network.traffic
      rw [starts.unsent, starts.toBroker, starts.toClient, starts.accepted]
    · intro worker _ serves
      exact (serves.2 (idle worker)).elim
    · intro client
      rw [starts.accepted]
      exact List.nil_prefix
  · intro actor before after known kept step
    obtain ⟨queued, held, pending, requests⟩ := known
    cases actor with
    | client client => exact kept.client requests step
    | listener => exact kept.listener step
    | worker thread => exact kept.worker requests step

end TecnicoFS.Deployment
