/-
The way of a request from its client to a worker.

A request waits in the register pipe, in the hands of the listener and then in the queue.  The
clients in these places are, in this order, those that have asked and that no worker has taken:
a request is taken once, in the order of the requests, by the handler it asks for.
-/

import TecnicoFS.Deployment.System
import TecnicoFS.Mbroker.Occupants

set_option autoImplicit false

namespace TecnicoFS.Deployment

open FileSystem Protocol Mbroker

variable {Client Thread : Type}

/-- The worker is in the handler it started for the client. -/
def Network.Serves (network : Network Client Thread) (worker : Thread) (client : Client) : Prop :=
  network.serving worker = some client ∧ network.broker.workers worker ≠ .idle

/-- Two workers do not serve the same client. -/
def Network.Exclusive (network : Network Client Thread) : Prop :=
  ∀ left right client, network.Serves left client → network.Serves right client → left = right

/-- The requests that were received are those of the clients. -/
def Received (clients : Clients Client) (received : List Protocol.Request)
    (waiting : List Client) : Prop :=
  List.Forall₂ (fun request client => request.Decodes (clients.request client)) received waiting

/-- The clients whose requests are in the queue, with the listener and in the register pipe, and
the clients the workers serve -/
structure RequestsKept (clients : Clients Client) (capacity : Nat)
    (network : Network Client Thread) (queued held pending : List Client) : Prop where
  inOrder : network.requested = network.started ++ (queued ++ (held ++ pending))
  once : network.requested.Nodup
  asked : ∀ client, client ∈ network.requested ↔ network.points client ≠ .starting
  queue : Received clients network.requestsQueue queued
  listener : Received clients network.received.toList held
  pipe : network.registerPipe =
    (pending.map (fun client => (clients.request client).wire)).flatten
  room : network.requestsQueue.length ≤ capacity
  serves : ∀ worker, network.broker.workers worker ≠ .idle → ∃ client request,
    network.serving worker = some client ∧ client ∈ network.started ∧
      serverRequest? (clients.request client) = some request ∧
      (network.broker.workers worker).Handles request
  alone : network.Exclusive

/-- The worker takes the client: it starts its handler, or it sends it the listing. -/
def Takes [DecidableEq Client] [DecidableEq Thread] (clients : Clients Client)
    (atomicity : Atomicity) (worker : Thread) (client : Client)
    (network network' : Network Client Thread) : Prop :=
  WorkerStep clients atomicity worker network network' ∧
    network'.started = network.started ++ [client] ∧
    ((clients.request client).code = .listRequest ∨ network'.Serves worker client)

/-- While a request waits, the listener can go on, or every worker is busy, or every other one
can take the first request. -/
def Advances [DecidableEq Client] [DecidableEq Thread] (clients : Clients Client)
    (atomicity : Atomicity) (capacity : Nat) (network : Network Client Thread) : Prop :=
  network.requested = network.started ∨
    (∃ network', ListenerStep capacity network network') ∨
    (∀ worker, network.broker.workers worker ≠ .idle) ∨
    ∃ client, network.started ++ [client] <+: network.requested ∧
      ∀ worker, network.broker.workers worker = .idle →
        ∃ network', Takes clients atomicity worker client network network'

/-! ### The register pipe -/

section
variable {clients : Clients Client}

theorem pipeRead_wire (request : ClientRequest) (rest : List UInt8) :
    pipeRead (request.wire ++ rest) 1 = (1, [UInt8.ofNat request.code.code.toNat],
      request.sessionPipename.bytes ++ (request.wireName ++ rest)) := by
  have split : request.wire ++ rest = [UInt8.ofNat request.code.code.toNat] ++
      (request.sessionPipename.bytes ++ (request.wireName ++ rest)) := by
    unfold ClientRequest.wire
    rw [List.cons_append, List.append_assoc]
    rfl
  rw [split]
  exact pipeRead_whole rfl

theorem Received.append {received received' : List Protocol.Request}
    {waiting waiting' : List Client} (first : Received clients received waiting)
    (last : Received clients received' waiting') :
    Received clients (received ++ received') (waiting ++ waiting') :=
  List.rel_append first last

/-- The session pipe named in a request is that of its client. -/
theorem Clients.sameClient (clients : Clients Client) {received : Protocol.Request}
    {asking client : Client} (decodes : received.Decodes (clients.request asking))
    (path : received.clientNamedPipePath.string? = some (clients.request client).path) :
    client = asking := by
  apply clients.ownPipe
  have same := path.symm.trans decodes.path
  exact Option.some.inj same

end

/-- A worker that moves alone and then serves a client of its own -/
theorem Network.Exclusive.moves {network network' : Network Client Thread} {thread : Thread}
    (alone : network.Exclusive)
    (others : ∀ worker client, worker ≠ thread → network'.Serves worker client →
      network.Serves worker client)
    (own : ∀ worker client, network'.Serves thread client → network.Serves worker client →
      worker = thread) : network'.Exclusive := by
  intro left right client leftServes rightServes
  by_cases leftMoved : left = thread
  · by_cases rightMoved : right = thread
    · rw [leftMoved, rightMoved]
    · rw [leftMoved] at leftServes ⊢
      exact (own right client leftServes (others right client rightMoved rightServes)).symm
  · have before := others left client leftMoved leftServes
    by_cases rightMoved : right = thread
    · rw [rightMoved] at rightServes ⊢
      exact own left client rightServes before
    · exact alone left right client before (others right client rightMoved rightServes)

/-- After a worker took a client, the worker of a client has just taken it or served it
before. -/
theorem Network.taken_serves [DecidableEq Thread] {network : Network Client Thread}
    {thread worker : Thread} {client other : Client} {rest : List Protocol.Request} {point : Point}
    (serves : (network.taken thread client rest point).Serves worker other) :
    (worker = thread ∧ other = client ∧
        (network.taken thread client rest point).broker.workers worker = point) ∨
      (worker ≠ thread ∧ network.Serves worker other ∧
        (network.taken thread client rest point).broker.workers worker =
          network.broker.workers worker) := by
  obtain ⟨serving, busy⟩ := serves
  by_cases moved : worker = thread
  · subst moved
    have own : (network.taken worker client rest point).serving worker = some client :=
      Function.update_self _ _ _
    exact Or.inl ⟨rfl, Option.some.inj (serving.symm.trans own), Broker.goto_self _ _ _ _⟩
  · have stays : (network.taken thread client rest point).broker.workers worker =
        network.broker.workers worker := Broker.goto_other _ _ _ moved
    have same : (network.taken thread client rest point).serving worker =
        network.serving worker := Function.update_of_ne moved _ _
    exact Or.inr ⟨moved, ⟨same.symm.trans serving, fun idle => busy (stays.trans idle)⟩, stays⟩

/-- After a step of a worker, the other ones serve other clients at the points where they
were. -/
theorem Network.handled_serves [DecidableEq Client] [DecidableEq Thread]
    {network : Network Client Thread} {thread worker : Thread} {client other : Client}
    {broker : Broker Thread} {pipe written : List UInt8} {atomicity : Atomicity}
    (alone : network.Exclusive) (serves : network.Serves thread client)
    (step : network.broker.Step atomicity thread broker)
    (serves' : (network.handled thread client broker pipe written).Serves worker other) :
    (worker = thread ∧ other = client) ∨
      (worker ≠ thread ∧ other ≠ client ∧ network.Serves worker other ∧
        broker.workers worker = network.broker.workers worker) := by
  by_cases moved : worker = thread
  · subst moved
    exact Or.inl ⟨rfl, Option.some.inj (serves'.1.symm.trans serves.1)⟩
  · have stays := step.others moved
    have before : network.Serves worker other :=
      ⟨serves'.1, fun idle => serves'.2 (stays.trans idle)⟩
    refine Or.inr ⟨moved, ?_, before, stays⟩
    intro same
    rw [same] at before
    exact moved (alone worker thread client before serves)

/-! ### Workers and their clients -/

section
variable {params : MbrokerParams} {network network' : Network Client (Fin params.maxSessions)}
  {worker : Fin params.maxSessions}

/-- The step of a worker that serves a client -/
theorem Network.Serves.step [DecidableEq Client] {clients : Clients Client}
    {atomicity : Atomicity} {client : Client} (serves : network.Serves worker client)
    (step : WorkerStep clients atomicity worker network network') :
    ∃ broker pipe written, network.broker.Step atomicity worker broker ∧
      PipeStep (network.points client = .closed) (network.broker.workers worker)
        (broker.workers worker) (network.toBroker client) pipe written ∧
      network' = network.handled worker client broker pipe written := by
  cases step with
  | dequeues idle _ _ _ => exact (serves.2 idle).elim
  | lists idle _ _ _ _ => exact (serves.2 idle).elim
  | handles serving _ taken piped =>
      have same := Option.some.inj (serves.1.symm.trans serving)
      subst same
      exact ⟨_, _, _, taken, piped, rfl⟩

/-- What the steps of the other actors leave to a worker -/
structure LeftAlone (network network' : Network Client (Fin params.maxSessions))
    (worker : Fin params.maxSessions) : Prop where
  serving : network'.serving worker = network.serving worker
  point : network'.broker.workers worker = network.broker.workers worker
  waiting : ∀ place, network'.broker.server.waiting place worker = true →
    network.broker.server.waiting place worker = true

theorem leftAlone [DecidableEq Client] {clients : Clients Client}
    {atomicity : Atomicity} {actor : Actor Client (Fin params.maxSessions)}
    (step : (deploymentSystem clients atomicity params).step actor network network')
    (other : actor ≠ .worker worker) : LeftAlone network network' worker := by
  cases actor with
  | client client => cases step <;> exact ⟨rfl, rfl, fun _ waits => waits⟩
  | listener => cases step <;> exact ⟨rfl, rfl, fun _ waits => waits⟩
  | worker thread =>
      have different : worker ≠ thread := by
        intro same
        rw [same] at other
        exact other rfl
      cases step with
      | dequeues _ _ _ _ =>
          exact ⟨Function.update_of_ne different _ _, Broker.goto_other _ _ _ different,
            fun _ waits => waits⟩
      | lists _ _ _ _ _ => exact ⟨rfl, rfl, fun _ waits => waits⟩
      | handles _ _ taken _ =>
          exact ⟨rfl, taken.others different, fun _ waits => taken.waiting different waits⟩

end

namespace RequestsKept

section
variable {clients : Clients Client} {capacity : Nat} {network network' : Network Client Thread}
  {queued held pending : List Client}

/-- Only clients that wait have not been taken. -/
theorem waiting_new (kept : RequestsKept clients capacity network queued held pending)
    {client : Client} (waits : client ∈ queued ++ (held ++ pending)) :
    client ∉ network.started := by
  intro taken
  have once := kept.once
  rw [kept.inOrder, List.nodup_append] at once
  exact once.2.2 client taken client waits rfl

/-- The client of a session has been taken by its worker. -/
theorem serves_started (kept : RequestsKept clients capacity network queued held pending)
    {thread : Thread} {client : Client} (serves : network.Serves thread client) :
    client ∈ network.started := by
  obtain ⟨served, _, serving, started, _⟩ := kept.serves thread serves.2
  rw [serves.1, Option.some.injEq] at serving
  rw [serving]
  exact started

theorem client [DecidableEq Client] {client : Client}
    (kept : RequestsKept clients capacity network queued held pending)
    (step : ClientStep clients client network network') :
    ∃ pending', RequestsKept clients capacity network' queued held pending' := by
  cases step with
  | @requests packet starting sent =>
      rw [clientRequestConnection_wire, Except.ok.injEq, Option.some.injEq] at sent
      have new : client ∉ network.requested := by
        intro asked
        exact (kept.asked client).mp asked starting
      refine ⟨pending ++ [client], ?_, ?_, ?_, kept.queue, kept.listener, ?_, kept.room,
        kept.serves, kept.alone⟩
      · change network.requested ++ [client] = network.started ++ _
        rw [kept.inOrder]
        simp only [List.append_assoc]
      · change (network.requested ++ [client]).Nodup
        rw [← List.concat_eq_append]
        exact kept.once.concat new
      · intro other
        change other ∈ network.requested ++ [client] ↔
          Function.update network.points client .running other ≠ .starting
        rw [List.mem_append, List.mem_singleton, Function.update_apply]
        by_cases same : other = client
        · rw [if_pos same]
          exact ⟨fun _ impossible => ClientPoint.noConfusion impossible, fun _ => Or.inr same⟩
        · rw [if_neg same, kept.asked other]
          exact or_iff_left same
      · change network.registerPipe ++ packet = _
        rw [kept.pipe, ← sent, List.map_append, List.flatten_append]
        simp only [List.map_cons, List.map_nil, List.flatten_cons, List.flatten_nil,
          List.append_nil]
  | sends _ _ _ _ =>
      exact ⟨pending, kept.inOrder, kept.once, kept.asked, kept.queue, kept.listener, kept.pipe,
        kept.room, kept.serves, kept.alone⟩
  | closes running =>
      refine ⟨pending, kept.inOrder, kept.once, ?_, kept.queue, kept.listener, kept.pipe,
        kept.room, kept.serves, kept.alone⟩
      intro other
      change other ∈ network.requested ↔
        Function.update network.points client .closed other ≠ .starting
      rw [kept.asked other, Function.update_apply]
      by_cases same : other = client
      · rw [if_pos same, same, running]
        exact ⟨fun _ impossible => ClientPoint.noConfusion impossible,
          fun _ impossible => ClientPoint.noConfusion impossible⟩
      · rw [if_neg same]

theorem listens (kept : RequestsKept clients capacity network queued held pending)
    (step : ListenerStep capacity network network') :
    ∃ queued' held' pending', RequestsKept clients capacity network' queued' held' pending' := by
  cases step with
  | @receives code pipe rest malloc request free read _ received =>
      have nobody : held = [] := by
        have listener := kept.listener
        rw [free] at listener
        cases listener
        rfl
      have arrived := kept.pipe
      cases waits : pending with
      | nil =>
          rw [waits] at arrived
          rw [arrived] at read
          cases read
      | cons client pending' =>
          rw [waits, List.map_cons, List.flatten_cons] at arrived
          rw [arrived, pipeRead_wire] at read
          obtain ⟨decoded, decodes, returned⟩ := mbrokerReceiveConnection_fits
            (clients.request client) (clients.fits client) malloc
            (pending'.map (fun client => (clients.request client).wire)).flatten []
          simp only [Prod.mk.injEq, List.cons.injEq, and_true, true_and] at read
          obtain ⟨sameCode, samePipe⟩ := read
          rw [← sameCode, ← samePipe, returned] at received
          simp only [Except.ok.injEq, Prod.mk.injEq, Listener.mk.injEq, List.nil_append,
            List.cons.injEq, and_true, true_and] at received
          obtain ⟨sameRest, sameRequest⟩ := received
          refine ⟨queued, [client], pending', ?_, kept.once, kept.asked, kept.queue, ?_,
            sameRest.symm, kept.room, kept.serves, kept.alone⟩
          · change network.requested = network.started ++ _
            rw [kept.inOrder, nobody, waits]
            rfl
          · rw [sameRequest] at decodes
            exact .cons decodes .nil
  | @enqueues request holds room =>
      have listener := kept.listener
      rw [holds] at listener
      refine ⟨queued ++ held, [], pending, ?_, kept.once, kept.asked,
        kept.queue.append listener, .nil, kept.pipe, ?_, kept.serves, kept.alone⟩
      · change network.requested = network.started ++ _
        rw [kept.inOrder]
        simp only [List.append_assoc, List.nil_append]
      · change (network.requestsQueue ++ [request]).length ≤ capacity
        rw [List.length_append]
        exact room

/-- A worker takes the first request of the queue, which is that of its first client. -/
theorem takes (kept : RequestsKept clients capacity network queued held pending)
    {request : Protocol.Request} {rest : List Protocol.Request} {client : Client}
    (first : network.requestsQueue = request :: rest)
    (path : request.clientNamedPipePath.string? = some (clients.request client).path) :
    ∃ queued', queued = client :: queued' ∧ request.Decodes (clients.request client) ∧
      Received clients rest queued' ∧ rest.length ≤ capacity ∧
      network.requested = network.started ++ [client] ++ (queued' ++ (held ++ pending)) := by
  have queue := kept.queue
  have room := kept.room
  rw [first] at queue room
  cases waits : queued with
  | nil =>
      rw [waits] at queue
      cases queue
  | cons asking queued' =>
      rw [waits] at queue
      cases queue with
      | cons decodes queue' =>
          have same := clients.sameClient decodes path
          subst same
          refine ⟨queued', rfl, decodes, queue', Nat.le_of_succ_le room, ?_⟩
          rw [kept.inOrder, waits]
          simp only [List.append_assoc, List.cons_append, List.nil_append]

/-- The client of the first request of the queue has not been taken. -/
theorem first_new (kept : RequestsKept clients capacity network queued held pending)
    {request : Protocol.Request} {rest : List Protocol.Request} {client : Client}
    (first : network.requestsQueue = request :: rest)
    (path : request.clientNamedPipePath.string? = some (clients.request client).path) :
    client ∉ network.started := by
  obtain ⟨_, waits, _⟩ := kept.takes first path
  apply kept.waiting_new
  rw [waits]
  exact List.mem_cons_self

/-- The worker that takes the first request starts the handler that its client asked for. -/
theorem first_starts (kept : RequestsKept clients capacity network queued held pending)
    {request : Protocol.Request} {rest : List Protocol.Request} {client : Client} {point : Point}
    (first : network.requestsQueue = request :: rest)
    (path : request.clientNamedPipePath.string? = some (clients.request client).path)
    (reception : workersReception request = .ok (.handler point)) :
    ∃ asked, serverRequest? (clients.request client) = some asked ∧ point = asked.start := by
  obtain ⟨_, _, decodes, _⟩ := kept.takes first path
  rw [workersReception_decodes decodes, Except.ok.injEq] at reception
  cases asks : serverRequest? (clients.request client) with
  | none =>
      rw [asks] at reception
      cases reception
  | some asked =>
      rw [asks] at reception
      cases reception
      exact ⟨asked, rfl, rfl⟩

theorem worker [DecidableEq Client] [DecidableEq Thread] {atomicity : Atomicity}
    {thread : Thread} (kept : RequestsKept clients capacity network queued held pending)
    (step : WorkerStep clients atomicity thread network network') :
    ∃ queued', RequestsKept clients capacity network' queued' held pending := by
  cases step with
  | @dequeues request rest client point idle first path reception =>
      obtain ⟨queued', _, _, queue, room, inOrder⟩ := kept.takes first path
      have new := kept.first_new first path
      refine ⟨queued', inOrder, kept.once, kept.asked, queue, kept.listener, kept.pipe, room,
        ?_, ?_⟩
      · intro worker busy
        by_cases moved : worker = thread
        · subst moved
          obtain ⟨asked, asks, atStart⟩ := kept.first_starts first path reception
          refine ⟨client, asked, Function.update_self _ _ _,
            List.mem_append_right _ List.mem_cons_self, asks, ?_⟩
          change ((network.broker.goto worker _ _).workers worker).Handles asked
          rw [Broker.goto_self, atStart]
          exact asked.start_handles
        · have stays : (network.taken thread client rest point).broker.workers worker =
              network.broker.workers worker := Broker.goto_other _ _ _ moved
          rw [stays] at busy ⊢
          obtain ⟨other, request, serving, started, asks, handles⟩ := kept.serves worker busy
          exact ⟨other, request, (Function.update_of_ne moved _ _).trans serving,
            List.mem_append_left _ started, asks, handles⟩
      · refine @Network.Exclusive.moves _ _ _ _ thread kept.alone ?_ ?_
        · intro worker other moved serves
          rcases Network.taken_serves serves with ⟨same, _, _⟩ | ⟨_, before, _⟩
          · exact (moved same).elim
          · exact before
        · intro worker other serves before
          rcases Network.taken_serves serves with ⟨_, same, _⟩ | ⟨moved, _, _⟩
          · rw [same] at before
            exact (new (kept.serves_started before)).elim
          · exact (moved rfl).elim
  | lists idle first path _ _ =>
      obtain ⟨queued', _, _, queue, room, inOrder⟩ := kept.takes first path
      refine ⟨queued', inOrder, kept.once, kept.asked, queue, kept.listener, kept.pipe, room,
        ?_, kept.alone⟩
      intro worker busy
      obtain ⟨other, request, serving, started, asks, handles⟩ := kept.serves worker busy
      exact ⟨other, request, serving, List.mem_append_left _ started, asks, handles⟩
  | @handles client broker pipe written serving busy taken _ =>
      refine ⟨queued, kept.inOrder, kept.once, kept.asked, kept.queue, kept.listener, kept.pipe,
        kept.room, ?_, ?_⟩
      · intro worker busy'
        by_cases moved : worker = thread
        · subst moved
          obtain ⟨other, request, serving, started, asks, handles⟩ := kept.serves worker busy
          rcases taken.handles handles with idle | handles'
          · exact (busy' idle).elim
          · exact ⟨other, request, serving, started, asks, handles'⟩
        · change broker.workers worker ≠ .idle at busy'
          rw [taken.others moved] at busy'
          obtain ⟨other, request, serving, started, asks, handles⟩ := kept.serves worker busy'
          refine ⟨other, request, serving, started, asks, ?_⟩
          change (broker.workers worker).Handles request
          rw [taken.others moved]
          exact handles
      · have serves : network.Serves thread client := ⟨serving, busy⟩
        apply kept.alone.moves
        · intro worker other moved serves'
          rcases Network.handled_serves kept.alone serves taken serves' with
            ⟨same, _⟩ | ⟨_, _, before, _⟩
          · exact (moved same).elim
          · exact before
        · intro worker other serves' before
          exact kept.alone worker thread other before ⟨serves'.1, busy⟩

/-- While the queue is empty and a request waits, the listener can go on. -/
theorem listener_next (kept : RequestsKept clients capacity network queued held pending)
    (positive : 0 < capacity) (empty : network.requestsQueue = [])
    (waits : network.requested ≠ network.started) :
    ∃ network', ListenerStep capacity network network' := by
  have queue := kept.queue
  have listener := kept.listener
  rw [empty] at queue
  have none : queued = [] := List.forall₂_nil_left_iff.mp queue
  cases received : network.received with
  | some request =>
      refine ⟨_, .enqueues received ?_⟩
      rw [empty]
      exact positive
  | none =>
      rw [received] at listener
      have nobody : held = [] := List.forall₂_nil_left_iff.mp listener
      cases arriving : pending with
      | nil =>
          refine (waits ?_).elim
          rw [kept.inOrder, none, nobody, arriving, List.append_nil, List.append_nil,
            List.append_nil]
      | cons client pending' =>
          have arrived := kept.pipe
          rw [arriving, List.map_cons, List.flatten_cons] at arrived
          obtain ⟨decoded, _, returned⟩ := mbrokerReceiveConnection_fits
            (clients.request client) (clients.fits client) ⟨0, .zeroed _, .zeroed _⟩
            (pending'.map (fun client => (clients.request client).wire)).flatten []
          refine ⟨_, .receives received ?_ (clients.request client).code.code_facts.1 returned⟩
          rw [arrived, pipeRead_wire]

/-- While the queue is not empty, a worker that is idle can take the first client. -/
theorem worker_next [DecidableEq Client] [DecidableEq Thread] (atomicity : Atomicity)
    (kept : RequestsKept clients capacity network queued held pending)
    (nonempty : network.requestsQueue ≠ []) : ∃ client,
      network.started ++ [client] <+: network.requested ∧
        ∀ worker, network.broker.workers worker = .idle →
          ∃ network', Takes clients atomicity worker client network network' := by
  have queue := kept.queue
  cases waits : queued with
  | nil =>
      rw [waits] at queue
      exact (nonempty (List.forall₂_nil_right_iff.mp queue)).elim
  | cons client queued' =>
      rw [waits] at queue
      obtain ⟨request, rest, decodes, _, first⟩ := List.forall₂_cons_right_iff.mp queue
      refine ⟨client, ?_, ?_⟩
      · obtain ⟨_, _, _, _, _, inOrder⟩ := kept.takes first decodes.path
        rw [inOrder]
        exact List.prefix_append _ _
      · intro worker idle
        have reception := workersReception_decodes decodes
        cases asks : serverRequest? (clients.request client) with
        | none =>
            rw [asks] at reception
            obtain ⟨_, _, listed⟩ := listing_returns network.broker.server (fun _ => true)
            exact ⟨_, .lists idle first decodes.path reception listed, rfl,
              Or.inl ((serverRequest_none _).mp asks)⟩
        | some asked =>
            rw [asks] at reception
            refine ⟨_, .dequeues idle first decodes.path reception, rfl,
              Or.inr ⟨Function.update_self _ _ _, ?_⟩⟩
            change (network.broker.goto worker _ _).workers worker ≠ .idle
            rw [Broker.goto_self]
            cases asked <;> exact Point.noConfusion

/-- What is left to do when a request waits -/
theorem advances [DecidableEq Client] [DecidableEq Thread] {atomicity : Atomicity}
    (kept : RequestsKept clients capacity network queued held pending) (positive : 0 < capacity) :
    Advances clients atomicity capacity network := by
  by_cases empty : network.requestsQueue = []
  · by_cases waits : network.requested = network.started
    · exact Or.inl waits
    · exact Or.inr (Or.inl (kept.listener_next positive empty waits))
  · exact Or.inr (Or.inr (Or.inr (kept.worker_next atomicity empty)))

end

end RequestsKept

/-! ### Runs -/

section
variable [DecidableEq Client] {clients : Clients Client} {atomicity : Atomicity}
  {params : MbrokerParams} {network : Network Client (Fin params.maxSessions)}

theorem Network.reachable_requestsKept
    (reachable : (deploymentSystem clients atomicity params).Reachable network) :
    ∃ queued held pending,
      RequestsKept clients params.maxSessions network queued held pending := by
  apply reachable.preserves
  · intro start initial
    obtain ⟨⟨_, idle⟩, starts⟩ := initial
    refine ⟨[], [], [], ?_⟩
    constructor
    · rw [starts.requested, starts.started]
      rfl
    · rw [starts.requested]
      exact List.nodup_nil
    · intro client
      rw [starts.requested, starts.points client]
      exact ⟨fun member => (List.not_mem_nil member).elim,
        fun impossible => (impossible rfl).elim⟩
    · rw [starts.requestsQueue]
      exact .nil
    · rw [starts.received]
      exact .nil
    · exact starts.registerPipe
    · rw [starts.requestsQueue]
      exact Nat.zero_le _
    · intro worker busy
      exact (busy (idle worker)).elim
    · intro left _ _ serves
      exact (serves.2 (idle left)).elim
  · intro actor before after waiting step
    obtain ⟨queued, held, pending, kept⟩ := waiting
    cases actor with
    | client client =>
        obtain ⟨pending', kept'⟩ := kept.client step
        exact ⟨queued, held, pending', kept'⟩
    | listener => exact kept.listens step
    | worker thread =>
        obtain ⟨queued', kept'⟩ := kept.worker step
        exact ⟨queued', held, pending, kept'⟩

/-- The broker between its clients is the broker whose requests come from anywhere. -/
theorem deployment_refines :
    ThreadSystem.Refines (deploymentSystem clients atomicity params)
      (brokerSystem atomicity params) Network.broker where
  initial := fun _ initial => initial.1
  step := by
    intro actor before after reachable step
    obtain ⟨_, _, _, kept⟩ := Network.reachable_requestsKept reachable
    cases actor with
    | client client =>
        left
        cases step <;> rfl
    | listener =>
        left
        cases step <;> rfl
    | worker thread =>
        cases step with
        | @dequeues request _ client point idle first path reception =>
            obtain ⟨asked, _, atStart⟩ := kept.first_starts first path reception
            rw [atStart]
            exact Or.inr ⟨thread, .dequeue asked idle⟩
        | lists _ _ _ _ _ => exact Or.inl rfl
        | handles _ _ taken _ => exact Or.inr ⟨thread, taken⟩

/-- In every run, every request that was made is taken by a worker once or waits in its place
behind those made before it; a worker is in the handler its client asked for, and no other
worker serves that client; and as long as a request waits, it can be brought nearer to a worker
or all workers are busy. -/
theorem requests_in_order
    (reachable : (deploymentSystem clients atomicity params).Reachable network) :
    (∃ queued held pending,
      RequestsKept clients params.maxSessions network queued held pending) ∧
      Advances clients atomicity params.maxSessions network := by
  obtain ⟨queued, held, pending, kept⟩ := Network.reachable_requestsKept reachable
  exact ⟨⟨queued, held, pending, kept⟩, kept.advances params.positive⟩

end

/-! ### One request -/

/-- The network after the request of a client went all its way while no other one did -/
def Network.asked [DecidableEq Client] [DecidableEq Thread] (network : Network Client Thread)
    (thread : Thread) (client : Client) (request : Mbroker.Request) : Network Client Thread :=
  { network with
    broker := network.broker.goto thread network.broker.server request.start
    serving := Function.update network.serving thread (some client)
    points := Function.update network.points client .running
    requested := network.requested ++ [client]
    started := network.started ++ [client] }

/-- No request is on its way. -/
structure Network.Silent (network : Network Client Thread) : Prop where
  registerPipe : network.registerPipe = []
  received : network.received = none
  requestsQueue : network.requestsQueue = []

/-- What is kept by the steps of clients, of the listener and of idle workers holds after a
request went all its way. -/
theorem Network.Silent.asked [DecidableEq Client] {clients : Clients Client}
    {atomicity : Atomicity} {params : MbrokerParams}
    {network : Network Client (Fin params.maxSessions)} (silent : network.Silent)
    {thread : Fin params.maxSessions} {client : Client} {request : Mbroker.Request}
    (idle : network.broker.workers thread = .idle) (starting : network.points client = .starting)
    (asks : serverRequest? (clients.request client) = some request)
    {property : Network Client (Fin params.maxSessions) → Prop} (holds : property network)
    (kept : ∀ actor before after, property before →
      (deploymentSystem clients atomicity params).step actor before after →
      (∀ worker, actor = .worker worker → before.broker.workers worker = .idle) →
      property after) :
    property (network.asked thread client request) ∧
      (network.asked thread client request).Silent := by
  obtain ⟨emptyPipe, free, emptyQueue⟩ := silent
  obtain ⟨decoded, decodes, returned⟩ := mbrokerReceiveConnection_fits (clients.request client)
    (clients.fits client) ⟨0, .zeroed _, .zeroed _⟩ [] []
  have reception := workersReception_decodes decodes
  rw [asks] at reception
  have requests := kept (.client client) _ _ holds
    (ClientStep.requests starting (clientRequestConnection_wire (clients.request client)))
    (fun _ impossible => by cases impossible)
  have receives := kept .listener _ _ requests (ListenerStep.receives free (by
      change pipeRead (network.registerPipe ++ _) 1 = _
      rw [emptyPipe, List.nil_append, ← List.append_nil (clients.request client).wire]
      exact pipeRead_wire _ []) (clients.request client).code.code_facts.1 returned)
    (fun _ impossible => by cases impossible)
  have enqueues := kept .listener _ _ receives (ListenerStep.enqueues rfl (by
      change network.requestsQueue.length < params.maxSessions
      rw [emptyQueue]
      exact params.positive)) (fun _ impossible => by cases impossible)
  have dequeues := kept (.worker thread) _ _ enqueues (WorkerStep.dequeues idle (by
      change network.requestsQueue ++ _ = _
      rw [emptyQueue]
      rfl) decodes.path reception) (fun worker same => by
        cases same
        exact idle)
  have same : network.asked thread client request = { network.asked thread client request with
      registerPipe := [], received := none, requestsQueue := [] } := by
    unfold Network.asked
    rw [emptyPipe, free, emptyQueue]
  constructor
  · rw [same]
    exact dequeues
  · exact ⟨emptyPipe, free, emptyQueue⟩

/-- A manager that creates a box, and a publisher and a subscriber of the box -/
inductive Program where
  | manager
  | publisher
  | subscriber
deriving DecidableEq

namespace Program

def code : Program → RequestCode
  | manager => .createRequest
  | publisher => .pubRegister
  | subscriber => .subRegister

/-- The path of the session pipe -/
def path : Program → CString
  | manager => ⟨[109], by decide⟩
  | publisher => ⟨[112], by decide⟩
  | subscriber => ⟨[115], by decide⟩

def request (program : Program) : ClientRequest where
  code := program.code
  sessionPipename := ⟨program.path.bytes ++ 0 :: List.replicate 254 0, by
    rw [List.length_append, List.length_cons, List.length_replicate]
    cases program <;> rfl⟩
  path := program.path
  boxName := some boxA
  terminated := CharArray.string?_eq_some rfl
  named := by
    constructor
    · intro impossible
      cases impossible
    · intro listing
      cases program <;> cases listing
  short := by
    intro name same
    rw [← Option.some.inj same]
    decide

/-- The three programs, and a line for the publisher -/
def clients : Clients Program where
  request := request
  stdin := fun _ => [72, 105, Publisher.newline]
  fits := by
    intro program name same
    rw [← Option.some.inj same]
    decide
  ownPipe := by
    intro left right same
    cases left <;> cases right <;> first | rfl | cases same

end Program

/-- The network when the broker has started -/
def initialNetwork (fs : FileSystem.State) (boxes : Nat → Box) :
    Network Program (Fin twoSessions.maxSessions) where
  broker := initialBroker fs boxes
  registerPipe := []
  received := none
  requestsQueue := []
  serving := fun _ => none
  points := fun _ => .starting
  unsent := Program.clients.packets
  toBroker := fun _ => []
  toClient := fun _ => []
  requested := []
  started := []
  accepted := fun _ => []
  publishers := fun _ => []
  subscribers := fun _ => []

theorem initialNetwork_reachable (atomicity : Atomicity) {fs : FileSystem.State}
    {boxes : Nat → Box} (started : MbrokerInit twoSessions
      (initialServer fs boxes : Server (Fin twoSessions.maxSessions))) :
    (deploymentSystem Program.clients atomicity twoSessions).Reachable
      (initialNetwork fs boxes) := by
  refine .initial ⟨⟨started, fun _ => rfl⟩, ?_⟩
  exact ⟨rfl, rfl, rfl, fun _ => rfl, fun _ => rfl, fun _ => rfl, fun _ => rfl, rfl, rfl,
    fun _ => rfl, fun _ => rfl, fun _ => rfl⟩

/-- The request of the manager reaches a worker. -/
theorem exists_serving : ∃ network : Network Program (Fin twoSessions.maxSessions),
    (deploymentSystem Program.clients .sections twoSessions).Reachable network ∧
      network.started = [Program.manager] ∧ network.Serves workerA .manager := by
  obtain ⟨fs, _, started⟩ := exists_started (fun _ => ⟨boxA, 0, 0, 0⟩)
  have start := initialNetwork_reachable .sections started
  have silent : (initialNetwork fs (fun _ => ⟨boxA, 0, 0, 0⟩)).Silent := ⟨rfl, rfl, rfl⟩
  have asks : serverRequest? (Program.clients.request .manager) = some (.createRequest boxA) := rfl
  have idle : (initialNetwork fs (fun _ => ⟨boxA, 0, 0, 0⟩)).broker.workers workerA = .idle := rfl
  have asked := (silent.asked idle rfl asks start (fun _ _ _ reached step _ =>
    reached.step step)).1
  have serving := Function.update_self workerA (some Program.manager) (fun _ => none)
  refine ⟨_, asked, rfl, serving, ?_⟩
  change (Broker.goto _ workerA _ _).workers workerA ≠ .idle
  rw [Broker.goto_self]
  exact Point.noConfusion

/-- The manager has been taken by one of the workers. -/
theorem requests_in_order_create :
    ∃ network : Network Program (Fin twoSessions.maxSessions),
      network.started = [Program.manager] ∧ network.Serves workerA .manager ∧
        (∃ queued held pending,
          RequestsKept Program.clients twoSessions.maxSessions network queued held pending) ∧
        Advances Program.clients .sections twoSessions.maxSessions network := by
  obtain ⟨network, reachable, started, serves⟩ := exists_serving
  exact ⟨network, started, serves, requests_in_order reachable⟩

end TecnicoFS.Deployment
