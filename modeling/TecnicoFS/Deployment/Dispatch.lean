/-
What becomes of a request while the listener and the idle workers go on.

A request comes nearer to the workers with every request that is taken before it, and with
every step of the listener while the queue is empty.  It waits for ever only when every worker
serves one client for ever.
-/

import TecnicoFS.Deployment.Requests
import TecnicoFS.Library.FairRuns

set_option autoImplicit false

namespace TecnicoFS.Deployment

open FileSystem Protocol Mbroker

/-- The actor is the listener or a worker that waits for a request, and can go on. -/
def Able {Client : Type} [DecidableEq Client] (clients : Clients Client) (atomicity : Atomicity)
    (params : MbrokerParams) (actor : Actor Client (Fin params.maxSessions))
    (network : Network Client (Fin params.maxSessions)) : Prop :=
  (actor = .listener ∨
      ∃ worker, actor = .worker worker ∧ network.broker.workers worker = .idle) ∧
    ∃ network', (deploymentSystem clients atomicity params).step actor network network'

section
variable {Client Thread : Type}

/-- The client has asked and no worker has taken it. -/
def Network.Waits (network : Network Client Thread) (client : Client) : Prop :=
  client ∈ network.requested ∧ client ∉ network.started

/-- The requests that are taken before that of the client -/
def Network.ahead [DecidableEq Client] (network : Network Client Thread) (client : Client) : Nat :=
  (network.requested.drop network.started.length).idxOf client

/-- The steps the listener still takes until a request is in the queue -/
def Network.stage (network : Network Client Thread) : Nat :=
  match network.requestsQueue, network.received with
  | _ :: _, _ => 0
  | [], some _ => 1
  | [], none => 2

def Network.distance [DecidableEq Client] (network : Network Client Thread) (client : Client) :
    Nat :=
  3 * network.ahead client + network.stage

/-- Some worker waits for a request. -/
def Network.SomeIdle (network : Network Client Thread) : Prop :=
  ∃ worker, network.broker.workers worker = .idle

/-- The client waits and has come nearer, by at least so much. -/
def Nearer [DecidableEq Client] (network network' : Network Client Thread) (client : Client)
    (gain : Nat) : Prop :=
  network'.Waits client ∧ network'.distance client + gain ≤ network.distance client

/-! ### The stages of a request -/

theorem Network.stage_le (network : Network Client Thread) : network.stage ≤ 2 := by
  unfold Network.stage
  split <;> omega

theorem Network.stage_eq_zero (network : Network Client Thread) :
    network.stage = 0 ↔ network.requestsQueue ≠ [] := by
  unfold Network.stage
  cases network.requestsQueue with
  | cons request rest => exact ⟨fun _ => List.cons_ne_nil _ _, fun _ => rfl⟩
  | nil =>
      cases network.received with
      | none =>
          exact ⟨fun zero => (Nat.succ_ne_zero _ zero).elim, fun filled => (filled rfl).elim⟩
      | some request =>
          exact ⟨fun zero => (Nat.succ_ne_zero _ zero).elim, fun filled => (filled rfl).elim⟩

/-- The queue is filled or not as the distance says. -/
theorem Network.distance_stage [DecidableEq Client] {network : Network Client Thread}
    {client : Client} {bound : Nat} (same : network.distance client = bound) :
    network.requestsQueue ≠ [] ↔ bound % 3 = 0 := by
  rw [← network.stage_eq_zero]
  unfold Network.distance at same
  have within := network.stage_le
  omega

/-! ### Steps -/

section
variable [DecidableEq Client] {clients : Clients Client} {capacity : Nat}
  {network network' : Network Client Thread} {queued held pending : List Client}
  {client : Client}

theorem RequestsKept.ahead (kept : RequestsKept clients capacity network queued held pending)
    (client : Client) : network.ahead client = (queued ++ (held ++ pending)).idxOf client := by
  unfold Network.ahead
  rw [kept.inOrder, List.drop_left]

/-- The steps of the clients leave a request where it is. -/
theorem RequestsKept.client_nearer
    (kept : RequestsKept clients capacity network queued held pending)
    (waits : network.Waits client) {other : Client}
    (step : ClientStep clients other network network') : Nearer network network' client 0 := by
  cases step with
  | requests _ _ =>
      refine ⟨⟨List.mem_append_left _ waits.1, waits.2⟩, Nat.le_of_eq ?_⟩
      have within : network.started.length ≤ network.requested.length := by
        rw [kept.inOrder, List.length_append]
        exact Nat.le_add_right _ _
      have ahead : ((network.requested ++ [other]).drop network.started.length).idxOf client =
          network.ahead client := by
        have behind : client ∈ network.requested.drop network.started.length := by
          have asked := waits.1
          rw [kept.inOrder, List.mem_append] at asked
          rw [kept.inOrder, List.drop_left]
          exact asked.resolve_left waits.2
        rw [List.drop_append_of_le_length within, List.idxOf_append_of_mem behind]
        rfl
      exact congrArg (fun count => 3 * count + network.stage) ahead
  | sends _ _ _ _ => exact ⟨waits, Nat.le_refl _⟩
  | closes _ => exact ⟨waits, Nat.le_refl _⟩

/-- A step of the listener brings a request nearer when the queue is empty. -/
theorem listener_nearer (waits : network.Waits client)
    (step : ListenerStep capacity network network') :
    Nearer network network' client (if network.requestsQueue = [] then 1 else 0) := by
  refine ⟨?_, ?_⟩
  · cases step <;> exact waits
  · have ahead : network'.ahead client = network.ahead client := by
      cases step <;> rfl
    have stage : network'.stage + (if network.requestsQueue = [] then 1 else 0) ≤
        network.stage := by
      cases step with
      | receives free _ _ _ =>
          unfold Network.stage
          rw [free]
          cases network.requestsQueue <;> exact Nat.le_refl _
      | enqueues holds _ =>
          unfold Network.stage
          rw [holds]
          cases network.requestsQueue <;> exact Nat.le_refl _
    unfold Network.distance
    omega

/-- The worker that takes the first request takes that of the client or brings it nearer. -/
theorem Network.Waits.taken
    (waits : network.Waits client) {first : Client} {rest : List Client}
    (inOrder : network.requested = network.started ++ [first] ++ rest)
    (requested : network'.requested = network.requested)
    (started : network'.started = network.started ++ [first]) :
    client ∈ network'.started ∨ Nearer network network' client 1 := by
  by_cases own : client = first
  · left
    rw [started, own]
    exact List.mem_append_right _ List.mem_cons_self
  · right
    refine ⟨⟨?_, ?_⟩, ?_⟩
    · rw [requested]
      exact waits.1
    · rw [started, List.mem_append, List.mem_singleton]
      exact fun taken => taken.elim waits.2 own
    · have before : network.ahead client = network'.ahead client + 1 := by
        unfold Network.ahead
        rw [requested, started, inOrder, List.drop_left, List.append_assoc, List.drop_left,
          List.singleton_append, List.idxOf_cons_ne _ (Ne.symm own)]
      have within := network'.stage_le
      unfold Network.distance
      omega

variable [DecidableEq Thread] {atomicity : Atomicity} {thread : Thread}

/-- A worker that was not idle leaves a request where it is. -/
theorem RequestsKept.worker_nearer
    (kept : RequestsKept clients capacity network queued held pending)
    (waits : network.Waits client) (step : WorkerStep clients atomicity thread network network') :
    client ∈ network'.started ∨ Nearer network network' client 1 ∨
      (network.broker.workers thread ≠ .idle ∧ Nearer network network' client 0) := by
  cases step with
  | dequeues _ first path _ =>
      obtain ⟨_, _, _, _, _, inOrder⟩ := kept.takes first path
      apply Or.imp_right Or.inl
      exact waits.taken inOrder rfl rfl
  | lists _ first path _ _ =>
      obtain ⟨_, _, _, _, _, inOrder⟩ := kept.takes first path
      apply Or.imp_right Or.inl
      exact waits.taken inOrder rfl rfl
  | handles _ busy _ _ => exact Or.inr (Or.inr ⟨busy, waits, Nat.le_refl _⟩)

end

end

/-! ### Runs -/

section
variable {Client : Type} [DecidableEq Client] {clients : Clients Client} {atomicity : Atomicity}
  {params : MbrokerParams} {client : Client}

/-- No step takes a request further away. -/
theorem step_nearer {actor : Actor Client (Fin params.maxSessions)}
    {network network' : Network Client (Fin params.maxSessions)}
    (reachable : (deploymentSystem clients atomicity params).Reachable network)
    (waits : network.Waits client)
    (step : (deploymentSystem clients atomicity params).step actor network network') :
    client ∈ network'.started ∨ Nearer network network' client 0 := by
  obtain ⟨_, _, _, kept⟩ := Network.reachable_requestsKept reachable
  cases actor with
  | client other => exact Or.inr (kept.client_nearer waits step)
  | listener =>
      obtain ⟨waits', closer⟩ := listener_nearer waits step
      exact Or.inr ⟨waits', by omega⟩
  | worker thread =>
      rcases kept.worker_nearer waits step with taken | ⟨waits', closer⟩ | ⟨_, near⟩
      · exact Or.inl taken
      · exact Or.inr ⟨waits', Nat.le_of_succ_le closer⟩
      · exact Or.inr near

/-- The client waits at the distance. -/
def WaitsAt (client : Client) (bound : Nat)
    (network : Network Client (Fin params.maxSessions)) : Prop :=
  network.Waits client ∧ network.distance client = bound

/-- The request was taken or has come nearer than the bound. -/
def Advanced (client : Client) (bound : Nat)
    (network : Network Client (Fin params.maxSessions)) : Prop :=
  (network.Waits client ∧ network.distance client < bound) ∨ client ∈ network.started

theorem Nearer.advanced {network network' : Network Client (Fin params.maxSessions)}
    {bound gain : Nat} (nearer : Nearer network network' client gain)
    (waits : WaitsAt client bound network) (positive : 0 < gain) :
    Advanced client bound network' := by
  obtain ⟨waits', closer⟩ := nearer
  have same := waits.2
  exact Or.inl ⟨waits', by omega⟩

theorem WaitsAt.step {bound : Nat} {actor : Actor Client (Fin params.maxSessions)}
    {network network' : Network Client (Fin params.maxSessions)}
    (reachable : (deploymentSystem clients atomicity params).Reachable network)
    (waits : WaitsAt client bound network)
    (step : (deploymentSystem clients atomicity params).step actor network network') :
    WaitsAt client bound network' ∨ Advanced client bound network' := by
  obtain ⟨waiting, same⟩ := waits
  rcases step_nearer reachable waiting step with taken | ⟨waits', near⟩
  · exact Or.inr (Or.inr taken)
  · by_cases closer : network'.distance client < bound
    · exact Or.inr (Or.inl ⟨waits', closer⟩)
    · exact Or.inl ⟨waits', by omega⟩

variable {run : (deploymentSystem clients atomicity params).Run}

/-- While the queue is empty the listener brings a request nearer. -/
theorem listener_advances (fair : run.Fair (Able clients atomicity params)) {bound : Nat}
    (empty : bound % 3 ≠ 0) : run.Leads (WaitsAt client bound) (Advanced client bound) := by
  have noQueue {network : Network Client (Fin params.maxSessions)}
      (waits : WaitsAt client bound network) : network.requestsQueue = [] := by
    by_contra filled
    exact empty ((Network.distance_stage waits.2).mp filled)
  apply fair.leads .listener
  · intro network reachable waits
    obtain ⟨_, _, _, kept⟩ := Network.reachable_requestsKept reachable
    refine ⟨Or.inl rfl, kept.listener_next params.positive (noQueue waits) ?_⟩
    intro same
    have asked := waits.1.1
    rw [same] at asked
    exact waits.1.2 asked
  · intro actor before after _ reachable waits step
    exact waits.step reachable step
  · intro before after reachable waits step
    have nearer := listener_nearer waits.1 step
    rw [if_pos (noQueue waits)] at nearer
    exact nearer.advanced waits (by decide)

/-- While the queue is filled a worker that is idle brings a request nearer. -/
theorem worker_advances (fair : run.Fair (Able clients atomicity params)) {bound : Nat}
    (filled : bound % 3 = 0) (worker : Fin params.maxSessions) :
    run.Leads
      (fun network => WaitsAt client bound network ∧ network.broker.workers worker = .idle)
      (Advanced client bound) := by
  apply fair.leads (.worker worker)
  · intro network reachable waits
    obtain ⟨waits, idle⟩ := waits
    obtain ⟨_, _, _, kept⟩ := Network.reachable_requestsKept reachable
    obtain ⟨_, _, can⟩ :=
      kept.worker_next atomicity ((Network.distance_stage waits.2).mpr filled)
    obtain ⟨network', taken, _⟩ := can worker idle
    exact ⟨Or.inr ⟨worker, rfl, idle⟩, network', taken⟩
  · intro actor before after other reachable waits step
    obtain ⟨waits, idle⟩ := waits
    have alone := leftAlone step other
    rcases waits.step reachable step with waits' | advanced
    · exact Or.inl ⟨waits', alone.point.trans idle⟩
    · exact Or.inr advanced
  · intro before after reachable waits step
    obtain ⟨waits, idle⟩ := waits
    obtain ⟨_, _, _, kept⟩ := Network.reachable_requestsKept reachable
    rcases kept.worker_nearer waits.1 step with taken | nearer | ⟨busy, _⟩
    · exact Or.inr taken
    · exact nearer.advanced waits (by decide)
    · exact (busy idle).elim

/-- A request is taken when again and again some worker is idle. -/
theorem waits_leads (fair : run.Fair (Able clients atomicity params))
    (recurs : ∀ time, ∃ later, time ≤ later ∧ (run.state later).SomeIdle) :
    run.Leads (fun network => network.Waits client) (fun network => client ∈ network.started) := by
  apply ThreadSystem.Run.Leads.descends (fun network => network.distance client)
  intro bound
  by_cases filled : bound % 3 = 0
  · have stays : run.Leads (WaitsAt client bound) (fun network =>
        (WaitsAt client bound network ∧ network.SomeIdle) ∨ Advanced client bound network) := by
      apply ThreadSystem.Run.leads_recurring Network.SomeIdle recurs
      intro actor before after reachable waits step
      exact waits.step reachable step
    apply stays.trans
    apply ThreadSystem.Run.Leads.cases _ (run.leads_self _)
    intro time holds
    obtain ⟨waits, worker, idle⟩ := holds
    exact worker_advances fair filled worker time ⟨waits, idle⟩
  · exact listener_advances fair filled

/-- A worker serves its client until it is idle. -/
theorem Network.Serves.keeps {actor : Actor Client (Fin params.maxSessions)}
    {network network' : Network Client (Fin params.maxSessions)}
    {worker : Fin params.maxSessions} {served : Client} (serves : network.Serves worker served)
    (step : (deploymentSystem clients atomicity params).step actor network network')
    (busy : network'.broker.workers worker ≠ .idle) : network'.Serves worker served := by
  refine ⟨?_, busy⟩
  by_cases own : actor = .worker worker
  · subst own
    cases step with
    | dequeues idle _ _ _ => exact (serves.2 idle).elim
    | lists idle _ _ _ _ => exact (serves.2 idle).elim
    | handles _ _ _ _ => exact serves.1
  · exact (leftAlone step own).serving.trans serves.1

/-- A worker that is never idle again serves one client for ever. -/
theorem serves_for_ever {time : Nat} {worker : Fin params.maxSessions}
    (busy : ∀ later, time ≤ later → (run.state later).broker.workers worker ≠ .idle) :
    ∃ served, ∀ later, time ≤ later → (run.state later).Serves worker served := by
  obtain ⟨_, _, _, kept⟩ := Network.reachable_requestsKept (run.reachable time)
  have busyNow := busy time (Nat.le_refl time)
  obtain ⟨served, _, serving, _⟩ := kept.serves worker busyNow
  refine ⟨served, run.holds_while (fun network => network.Serves worker served)
    (fun network => network.broker.workers worker ≠ .idle) busy ?_ ⟨serving, busyNow⟩⟩
  intro actor before after _ serves step stillBusy
  exact serves.keeps step stillBusy

/-- In every run in which the listener and the idle workers go on when they can, every request
is taken, or from some moment on every worker serves one client for ever. -/
theorem requests_taken (fair : run.Fair (Able clients atomicity params)) {time : Nat}
    (asked : client ∈ (run.state time).requested) :
    (∃ later, time ≤ later ∧ client ∈ (run.state later).started) ∨
      ∃ moment, time ≤ moment ∧ ∀ worker, ∃ served, ∀ later, moment ≤ later →
        (run.state later).Serves worker served := by
  by_cases recurs : ∀ moment, ∃ later, moment ≤ later ∧ (run.state later).SomeIdle
  · left
    by_cases taken : client ∈ (run.state time).started
    · exact ⟨time, Nat.le_refl time, taken⟩
    · exact waits_leads fair recurs time ⟨asked, taken⟩
  · right
    have ends : ∃ moment, ∀ later, moment ≤ later → ¬ (run.state later).SomeIdle := by
      by_contra never
      apply recurs
      intro moment
      by_contra none
      exact never ⟨moment, fun later inOrder idle => none ⟨later, inOrder, idle⟩⟩
    obtain ⟨moment, busy⟩ := ends
    refine ⟨max time moment, Nat.le_max_left _ _, fun worker => ?_⟩
    apply serves_for_ever
    intro later inOrder idle
    exact busy later (Nat.le_trans (Nat.le_max_right _ _) inOrder) ⟨worker, idle⟩

/-- Such a run starts in every reachable state: the listener and the workers take turns. -/
theorem exists_ableRun {network : Network Client (Fin params.maxSessions)}
    (reachable : (deploymentSystem clients atomicity params).Reachable network) :
    ∃ run : (deploymentSystem clients atomicity params).Run,
      run.state 0 = network ∧ run.Fair (Able clients atomicity params) := by
  apply reachable.exists_roundRobin .listener (workerActors params.maxSessions)
  · intro actor _ able
    rcases able.1 with same | ⟨worker, same, _⟩
    · rw [same]
      exact List.mem_cons_self
    · rw [same]
      exact List.mem_cons_of_mem _ (worker_mem worker)
  · intro actor state able
    exact able.2

end

/-! ### One request -/

/-- The request of the manager is taken by one of two workers, or both serve a client for
ever. -/
theorem requests_taken_create :
    ∃ run : (deploymentSystem Program.clients .sections twoSessions).Run,
      run.Fair (Able Program.clients .sections twoSessions) ∧
        Program.manager ∈ (run.state 0).requested ∧
        ((∃ later, 0 ≤ later ∧ Program.manager ∈ (run.state later).started) ∨
          ∃ moment, 0 ≤ moment ∧ ∀ worker, ∃ served, ∀ later, moment ≤ later →
            (run.state later).Serves worker served) := by
  obtain ⟨fs, _, started⟩ := exists_started (fun _ => ⟨boxA, 0, 0, 0⟩)
  have asks : (deploymentSystem Program.clients .sections twoSessions).step
      (.client .manager) (initialNetwork fs (fun _ => ⟨boxA, 0, 0, 0⟩)) _ :=
    ClientStep.requests rfl (clientRequestConnection_wire (Program.request .manager))
  obtain ⟨run, start, fair⟩ :=
    exists_ableRun ((initialNetwork_reachable .sections started).step asks)
  have requested : Program.manager ∈ (run.state 0).requested := by
    rw [start]
    exact List.mem_cons_self
  exact ⟨run, fair, requested, requests_taken fair requested⟩

end TecnicoFS.Deployment
