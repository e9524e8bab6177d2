/-
The broker with the programs that talk to it: clients, pipes, the listener and the workers.

A client writes its request to the register pipe; the listener reads the requests and puts
them in the queue; a worker takes the first one and serves the client over its session pipe.
Packets are written whole, and a read that finds nothing waits unless the other end is
closed.  A listing is one step.  Everything below `The record` is kept for the properties and
by no program.
-/

import TecnicoFS.Library.Refinement
import TecnicoFS.Manager.Answers
import TecnicoFS.Mbroker.Reception
import TecnicoFS.Publisher.Input
import TecnicoFS.Subscriber.Messages

set_option autoImplicit false

namespace TecnicoFS.Deployment

open FileSystem Protocol Mbroker

/-! ### Clients -/

/-- The programs that are started: the request of each one and what is typed into it.  A box
name leaves room for the slash, and no two programs are given the same session pipe. -/
structure Clients (Client : Type) where
  request : Client → ClientRequest
  stdin : Client → List UInt8
  fits : ∀ client, (request client).Fits
  ownPipe : ∀ left right, (request left).path = (request right).path → left = right

variable {Client : Type}

/-- The packets `publisher_write_messages` writes while its writes succeed -/
def publisherPackets (stdin : List UInt8) : List (List UInt8) :=
  match Publisher.publisherWriteMessages .working (stdin.length + 1) stdin with
  | .ok (_, sent) => sent
  | .error _ => []

/-- What a client writes to its session pipe: only a publisher does -/
def Clients.packets (clients : Clients Client) (client : Client) : List (List UInt8) :=
  if (clients.request client).code = .pubRegister then
    publisherPackets (clients.stdin client)
  else
    []

/-- Where a client is: before its request, behind it, or behind the end of its session pipe -/
inductive ClientPoint where
  | starting
  | running
  | closed
deriving DecidableEq

/-! ### The state -/

/-- The broker, its queue, and the clients with their pipes.  `toBroker` are the bytes of a
session pipe that were written and not yet read, `toClient` all bytes that were written. -/
structure Network (Client Thread : Type) where
  broker : Broker Thread
  registerPipe : List UInt8
  received : Option Protocol.Request
  requestsQueue : List Protocol.Request
  serving : Thread → Option Client
  points : Client → ClientPoint
  unsent : Client → List (List UInt8)
  toBroker : Client → List UInt8
  toClient : Client → List UInt8
  /- The record: the clients in the order of their requests and in the order in which workers
  took them, what was stored for a client, and who was registered on the box that took a
  slot last -/
  requested : List Client
  started : List Client
  accepted : Client → List Message
  publishers : Nat → List Client
  subscribers : Nat → List Client

/-- Who takes a step -/
inductive Actor (Client Thread : Type) where
  | client (client : Client)
  | listener
  | worker (thread : Thread)

/-- All workers -/
def workerActors (maxSessions : Nat) : List (Actor Client (Fin maxSessions)) :=
  (List.finRange maxSessions).map .worker

theorem worker_mem {maxSessions : Nat} (worker : Fin maxSessions) :
    (Actor.worker worker : Actor Client (Fin maxSessions)) ∈ workerActors maxSessions :=
  List.mem_map_of_mem (List.mem_finRange worker)

/-! ### Pipes -/

/-- The worker has its end of the session pipe open. -/
def PipeOpen : Point → Prop
  | .publisher (.openPipe _) => False
  | .publisher _ => True
  | .subscriber (.openPipe _) => False
  | .subscriber _ => True
  | .idle | .create _ | .remove _ => False

/-- The worker is about to use the session pipe. -/
def UsesPipe : Point → Prop
  | .publisher (.readCode _) | .publisher (.readMessage _) => True
  | .subscriber (.sendMessage _) => True
  | .create (.answer _) | .remove (.answer _) => True
  | .idle | .publisher _ | .subscriber _ | .create _ | .remove _ => False

/-- What a step from one point to another does with the session pipe: the bytes that were
there to be read, those that are left, and those that are written -/
inductive PipeStep (closed : Prop) :
    Point → Point → List UInt8 → List UInt8 → List UInt8 → Prop where
  | codeArrives {session : Mbroker.Session} {pipe rest : List UInt8} :
      pipeRead pipe 1 = (1, [protocolCodeMessageReceive], rest) →
      PipeStep closed (.publisher (.readCode session)) (.publisher (.checkBox session)) pipe rest []
  | codeMissing {session : Mbroker.Session} {pipe code rest : List UInt8} {bytesRead : Int} :
      pipeRead pipe 1 = (bytesRead, code, rest) → (bytesRead ≤ 0 → closed) →
      ¬ (0 < bytesRead ∧ code = [protocolCodeMessageReceive]) →
      PipeStep closed (.publisher (.readCode session)) (.publisher (.unregister session)) pipe rest
        []
  | messageArrives {session : Mbroker.Session} {message : Message} {pipe rest : List UInt8} :
      readArray pipe msgMaxLen = some (⟨message.bytes, message.length_eq⟩, rest) →
      PipeStep closed (.publisher (.readMessage session))
        (.publisher (.writeMessage session message)) pipe rest []
  | messageMissing {session : Mbroker.Session} {pipe : List UInt8} :
      readArray pipe msgMaxLen = none → closed →
      PipeStep closed (.publisher (.readMessage session)) (.publisher (.unregister session)) pipe []
        []
  | sends {session : SubscriberSession} {pipe packet : List UInt8} :
      Subscriber.messagePacket session.message = .ok packet →
      PipeStep closed (.subscriber (.sendMessage session))
        (.subscriber (.readNext session.send)) pipe pipe packet
  | sendFails {session : SubscriberSession} {pipe : List UInt8} :
      PipeStep closed (.subscriber (.sendMessage session)) (.subscriber (.unregister session)) pipe
        pipe []
  | answersCreate {returnCode : Int} {pipe packet : List UInt8} :
      Manager.createAnswer returnCode = .ok packet →
      PipeStep closed (.create (.answer returnCode)) .idle pipe pipe packet
  | answersRemove {returnCode : Int} {pipe packet : List UInt8} :
      Manager.removeAnswer returnCode = .ok packet →
      PipeStep closed (.remove (.answer returnCode)) .idle pipe pipe packet
  /-- The session pipe does not open. -/
  | answerFails {point : Point} {pipe : List UInt8}
      (answers : ∃ returnCode, point = .create (.answer returnCode) ∨
        point = .remove (.answer returnCode)) :
      PipeStep closed point .idle pipe pipe []
  | silent {point next : Point} {pipe : List UInt8} : ¬ UsesPipe point →
      PipeStep closed point next pipe pipe []

/-! ### The record -/

/-- The message a step stores for the client of its worker -/
def storedBy : Point → Point → List Message
  | .publisher (.writeMessage _ message), .publisher (.publish _) => [message]
  | _, _ => []

/-- The slot whose `n_publishers` a registration has raised -/
def publisherJoins : Point → Point → Option Nat
  | .publisher (.register box), .publisher (.readCode _) => some box.boxI
  | _, _ => none

/-- The slot whose `n_subscribers` a registration has raised -/
def subscriberJoins : Point → Point → Option Nat
  | .subscriber (.register box), .subscriber (.awaitMessage _) => some box.boxI
  | _, _ => none

/-- The clients registered on the boxes: one more joins, and a new box starts without any. -/
def registered {Thread : Type} (server server' : Server Thread) (joins : Option Nat)
    (client : Client) (members : Nat → List Client) (boxI : Nat) : List Client :=
  if server'.occupants boxI = server.occupants boxI then
    members boxI ++ (if joins = some boxI then [client] else [])
  else
    []

/-- The network after a worker took the first request and started its handler -/
def Network.taken {Thread : Type} [DecidableEq Thread] (network : Network Client Thread)
    (thread : Thread) (client : Client) (rest : List Protocol.Request) (point : Point) :
    Network Client Thread :=
  { network with
    broker := network.broker.goto thread network.broker.server point
    requestsQueue := rest
    serving := Function.update network.serving thread (some client)
    started := network.started ++ [client] }

/-- The network after a step that took the broker and a session pipe further -/
def Network.handled {Thread : Type} [DecidableEq Client] (network : Network Client Thread)
    (thread : Thread) (client : Client) (broker : Broker Thread) (pipe written : List UInt8) :
    Network Client Thread :=
  { network with
    broker := broker
    toBroker := Function.update network.toBroker client pipe
    toClient := Function.update network.toClient client (network.toClient client ++ written)
    accepted := Function.update network.accepted client
      (network.accepted client ++
        storedBy (network.broker.workers thread) (broker.workers thread))
    publishers := registered network.broker.server broker.server
      (publisherJoins (network.broker.workers thread) (broker.workers thread)) client
      network.publishers
    subscribers := registered network.broker.server broker.server
      (subscriberJoins (network.broker.workers thread) (broker.workers thread)) client
      network.subscribers }

/-! ### Steps -/

section
variable {Thread : Type} [DecidableEq Client]

/-- One step of a client -/
inductive ClientStep (clients : Clients Client) (client : Client) :
    Network Client Thread → Network Client Thread → Prop where
  | requests {network : Network Client Thread} {packet : List UInt8} :
      network.points client = .starting →
      clientRequestConnection (clients.request client) = .ok (some packet) →
      ClientStep clients client network
        { network with
          points := Function.update network.points client .running
          registerPipe := network.registerPipe ++ packet
          requested := network.requested ++ [client] }
  | sends {network : Network Client Thread} {worker : Thread} {packet : List UInt8}
      {rest : List (List UInt8)} : network.points client = .running →
      network.serving worker = some client → PipeOpen (network.broker.workers worker) →
      network.unsent client = packet :: rest →
      ClientStep clients client network
        { network with
          unsent := Function.update network.unsent client rest
          toBroker := Function.update network.toBroker client
            (network.toBroker client ++ packet) }
  | closes {network : Network Client Thread} : network.points client = .running →
      ClientStep clients client network
        { network with points := Function.update network.points client .closed }

/-- One step of the listener: `main` reads a request, and it waits until the queue has room. -/
inductive ListenerStep (capacity : Nat) :
    Network Client Thread → Network Client Thread → Prop where
  | receives {network : Network Client Thread} {code : UInt8} {pipe rest : List UInt8}
      {malloc request : Protocol.Request} : network.received = none →
      pipeRead network.registerPipe 1 = (1, [code], pipe) → code ∈ protocolCodes →
      mbrokerReceiveConnection code malloc ⟨pipe, []⟩ = .ok (0, ⟨rest, [request]⟩) →
      ListenerStep capacity network
        { network with registerPipe := rest, received := some request }
  | enqueues {network : Network Client Thread} {request : Protocol.Request} :
      network.received = some request → network.requestsQueue.length < capacity →
      ListenerStep capacity network
        { network with
          received := none
          requestsQueue := network.requestsQueue ++ [request] }

/-- One step of a worker -/
inductive WorkerStep [DecidableEq Thread] (clients : Clients Client) (atomicity : Atomicity)
    (thread : Thread) : Network Client Thread → Network Client Thread → Prop where
  | dequeues {network : Network Client Thread} {request : Protocol.Request}
      {rest : List Protocol.Request} {client : Client} {point : Point} :
      network.broker.workers thread = .idle → network.requestsQueue = request :: rest →
      request.clientNamedPipePath.string? = some (clients.request client).path →
      workersReception request = .ok (.handler point) →
      WorkerStep clients atomicity thread network (network.taken thread client rest point)
  | lists {network : Network Client Thread} {request : Protocol.Request}
      {rest : List Protocol.Request} {client : Client} {packets : List (List UInt8)}
      {returnCode : Int} {accepts : Nat → Bool} :
      network.broker.workers thread = .idle → network.requestsQueue = request :: rest →
      request.clientNamedPipePath.string? = some (clients.request client).path →
      workersReception request = .ok .listing →
      workersHandleManagerListing network.broker.server accepts = .ok (returnCode, packets) →
      WorkerStep clients atomicity thread network
        { network with
          requestsQueue := rest
          toClient := Function.update network.toClient client
            (network.toClient client ++ packets.flatten)
          started := network.started ++ [client] }
  | handles {network : Network Client Thread} {client : Client} {broker : Broker Thread}
      {pipe written : List UInt8} : network.serving thread = some client →
      network.broker.workers thread ≠ .idle →
      network.broker.Step atomicity thread broker →
      PipeStep (network.points client = .closed) (network.broker.workers thread)
        (broker.workers thread) (network.toBroker client) pipe written →
      WorkerStep clients atomicity thread network
        (network.handled thread client broker pipe written)

end

/-- `mbroker` has started and no client has. -/
structure Starts {Thread : Type} (clients : Clients Client)
    (network : Network Client Thread) : Prop where
  registerPipe : network.registerPipe = []
  received : network.received = none
  requestsQueue : network.requestsQueue = []
  points : ∀ client, network.points client = .starting
  unsent : ∀ client, network.unsent client = clients.packets client
  toBroker : ∀ client, network.toBroker client = []
  toClient : ∀ client, network.toClient client = []
  requested : network.requested = []
  started : network.started = []
  accepted : ∀ client, network.accepted client = []
  publishers : ∀ boxI, network.publishers boxI = []
  subscribers : ∀ boxI, network.subscribers boxI = []

/-- The broker with its clients: the queue has room for `max_sessions` requests. -/
def deploymentSystem [DecidableEq Client] (clients : Clients Client) (atomicity : Atomicity)
    (params : MbrokerParams) :
    ThreadSystem (Actor Client (Fin params.maxSessions))
      (Network Client (Fin params.maxSessions)) where
  initial network :=
    (brokerSystem atomicity params).initial network.broker ∧ Starts clients network
  step actor network network' :=
    match actor with
    | .client client => ClientStep clients client network network'
    | .listener => ListenerStep params.maxSessions network network'
    | .worker thread => WorkerStep clients atomicity thread network network'

end TecnicoFS.Deployment
