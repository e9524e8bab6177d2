/-
Which workers can go on, and the runs in which they do.

What a client is sent depends on the worker of its session and on those of the publishers of its
box.  Such a worker can go on when it has a step, unless all it could do is to wake up without
being woken; a write to its session pipe ends or fails.  Nothing is asked of the other workers,
which may wait for a request or for a client that does not open its pipe, of the listener and of
the clients.
-/

import TecnicoFS.Deployment.Delivery
import TecnicoFS.Library.FairRuns

set_option autoImplicit false

namespace TecnicoFS.Deployment

open FileSystem Protocol Mbroker

section
variable {Client : Type} [DecidableEq Client] (clients : Clients Client) (atomicity : Atomicity)
  (params : MbrokerParams) (name : CString) (boxI : Nat)

/-- The actor is a worker that is in the session of the client or of a publisher of the box and
can go on. -/
def Ready (client : Client) (actor : Actor Client (Fin params.maxSessions))
    (network : Network Client (Fin params.maxSessions)) : Prop :=
  ∃ worker served, actor = .worker worker ∧ network.Serves worker served ∧
    (served = client ∨ served ∈ network.publishers boxI) ∧
    (network.broker.workers worker).session? ≠ none ∧
    (∀ place, ¬ network.broker.AsleepOn worker place) ∧
    ∃ network', (deliverySystem clients atomicity params name boxI).step actor network network'

/-- The runs in which the workers of the client and of the publishers of the box go on when they
can -/
def FairFor (client : Client) (run : (deliverySystem clients atomicity params name boxI).Run) :
    Prop :=
  run.Fair (Ready clients atomicity params name boxI client)

/-- A fair run starts wherever a run leads. -/
theorem exists_fairRun {network : Network Client (Fin params.maxSessions)}
    (reachable : (deliverySystem clients atomicity params name boxI).Reachable network)
    (client : Client) : ∃ run : (deliverySystem clients atomicity params name boxI).Run,
      run.state 0 = network ∧ FairFor clients atomicity params name boxI client run := by
  apply reachable.exists_roundRobin .listener (workerActors params.maxSessions)
  · intro actor _ ready
    obtain ⟨worker, _, same, _⟩ := ready
    rw [same]
    exact List.mem_cons_of_mem _ (worker_mem worker)
  · intro actor state ready
    obtain ⟨_, _, _, _, _, _, _, enabled⟩ := ready
    exact enabled

end

variable {Client : Type} [DecidableEq Client] {clients : Clients Client} {atomicity : Atomicity}
  {params : MbrokerParams} {network network' : Network Client (Fin params.maxSessions)}
  {name : CString} {boxI : Nat} {worker : Fin params.maxSessions} {client : Client}

/-! ### Steps -/

omit [DecidableEq Client] in
/-- Nobody else puts a worker to sleep. -/
theorem LeftAlone.awake (alone : LeftAlone network network' worker)
    (awake : ∀ place, ¬ network.broker.AsleepOn worker place) (place : Nat) :
    ¬ network'.broker.AsleepOn worker place := by
  intro asleep
  obtain ⟨blocked, waits⟩ := asleep
  rw [alone.point] at blocked
  exact awake place ⟨blocked, alone.waiting place waits⟩

/-- The messages of the box only grow. -/
theorem DeliveryKept.grows {actor : Actor Client (Fin params.maxSessions)}
    (kept : DeliveryKept clients atomicity params name boxI network)
    (step : (deploymentSystem clients atomicity params).step actor network network') :
    network.broker.server.stored boxI <+: network'.broker.server.stored boxI := by
  obtain ⟨_, _, stream⟩ := kept.stream
  cases actor with
  | client client => cases step <;> exact List.prefix_refl _
  | listener => cases step <;> exact List.prefix_refl _
  | worker thread =>
      cases step with
      | dequeues _ _ _ _ => exact List.prefix_refl _
      | lists _ _ _ _ _ => exact List.prefix_refl _
      | handles _ _ taken _ => exact stored_grows stream taken

/-! ### Workers that can go on -/

/-- A worker of a session goes on when its handler and its session pipe let it. -/
theorem ready_session {served : Client} (serves : network.Serves worker served)
    (asked : served = client ∨ served ∈ network.publishers boxI)
    (inside : (network.broker.workers worker).session? ≠ none)
    (awake : ∀ place, ¬ network.broker.AsleepOn worker place)
    (possible : ∃ broker pipe written, network.broker.Step atomicity worker broker ∧
      PipeStep (network.points served = .closed) (network.broker.workers worker)
        (broker.workers worker) (network.toBroker served) pipe written) :
    Ready clients atomicity params name boxI client (.worker worker) network := by
  obtain ⟨broker, pipe, written, taken, piped⟩ := possible
  refine ⟨worker, served, rfl, serves, asked, inside, awake, _,
    .handles serves.1 serves.2 taken piped, ?_⟩
  intro thread same
  cases same
  constructor
  · intro atPoint
    rw [atPoint] at inside
    exact inside rfl
  · intro _ _ _ _ atPoint
    rw [atPoint] at inside
    exact (inside rfl).elim

omit [DecidableEq Client] in
/-- A publisher is never asleep. -/
theorem publisher_awake {point : PublisherPoint}
    (atPoint : network.broker.workers worker = .publisher point) (place : Nat) :
    ¬ network.broker.AsleepOn worker place := by
  intro asleep
  obtain ⟨⟨_, blocked, _⟩, _⟩ := asleep
  rw [atPoint] at blocked
  cases blocked

/-- A publisher of the box goes on when its handler and its session pipe let it. -/
theorem ready_publisher {point next : PublisherPoint} {server : Server (Fin params.maxSessions)}
    {session : Mbroker.Session} {pipe written : List UInt8} {served : Client}
    (serves : network.Serves worker served) (record : BoxRecord network boxI)
    (atPoint : network.broker.workers worker = .publisher point)
    (own : point.session? = some session) (here : session.boxI = boxI)
    (step : PublisherStep network.broker.server point server (some next))
    (piped : PipeStep (network.points served = .closed) (.publisher point) (.publisher next)
      (network.toBroker served) pipe written) :
    Ready clients atomicity params name boxI client (.worker worker) network := by
  have inside : (network.broker.workers worker).session? = some session := by
    rw [atPoint]
    exact own
  have member : served ∈ network.publishers boxI := by
    rw [record.publisher worker served serves, atPoint]
    change point.session?.map _ = _
    rw [own, ← here]
    rfl
  refine ready_session serves (Or.inr member) ?_ (publisher_awake atPoint)
    ⟨_, pipe, written, .publisher atPoint step, ?_⟩
  · rw [inside]
    exact Option.some_ne_none session
  · rw [Broker.goto_self, atPoint]
    exact piped

end TecnicoFS.Deployment
