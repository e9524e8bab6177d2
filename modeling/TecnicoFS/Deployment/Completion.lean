/-
How the handlers of publishers and managers come to their end.

Every step of such a handler brings it nearer to its end, when the client has closed the session
pipe of a publisher.  Only the mutex of a box, left locked by another worker, keeps it from a
step.
-/

import TecnicoFS.Deployment.Dispatch

set_option autoImplicit false

namespace TecnicoFS.Deployment

open FileSystem Protocol Mbroker

/-- The handler comes to an end: it is that of a manager, or that of a publisher whose session
pipe is closed. -/
def Ends (closed : Prop) : Point → Prop
  | .publisher _ => closed
  | .create _ | .remove _ => True
  | .idle | .subscriber _ => False

/-- A bound on the steps to the end of a handler, with the bytes that are in the session pipe -/
def toEnd (pipe : List UInt8) : Point → Nat
  | .publisher (.openPipe _) => 8 * pipe.length + 10
  | .publisher (.findBox _) => 8 * pipe.length + 9
  | .publisher (.register _) => 8 * pipe.length + 8
  | .publisher (.checkBox _) => 8 * pipe.length + 7
  | .publisher (.readMessage _) => 8 * pipe.length + 6
  | .publisher (.writeMessage _ _) => 8 * pipe.length + 5
  | .publisher (.publish _) => 8 * pipe.length + 4
  | .publisher (.readCode _) => 8 * pipe.length + 3
  | .publisher (.unregister _) => 8 * pipe.length + 2
  | .publisher (.closeFile _) => 8 * pipe.length + 1
  | .create (.openExisting _) => 6
  | .create (.openNew _) => 5
  | .create (.takeBox _ _) => 4
  | .create (.fillBox _ _ _) => 3
  | .create (.closeFile _ _) => 2
  | .create (.answer _) => 1
  | .remove (.deleteBox _) => 3
  | .remove (.unlink _) => 2
  | .remove (.answer _) => 1
  | .idle | .subscriber _ => 0

theorem Ends.toEnd_eq {closed : Prop} {point : Point} {pipe pipe' : List UInt8}
    (ends : Ends closed point) (same : closed → pipe' = pipe) :
    toEnd pipe' point = toEnd pipe point := by
  cases point with
  | publisher point => rw [same ends]
  | create point => cases point <;> rfl
  | remove point => cases point <;> rfl
  | idle => exact ends.elim
  | subscriber point => exact ends.elim

/-- The handlers of a request that is no subscription -/
theorem Ends.of_handles {closed : Prop} {point : Point} {request : Mbroker.Request}
    (handles : point.Handles request) (publisher : ∀ name, request = .pubRegister name → closed)
    (other : ∀ name, request ≠ .subRegister name) : Ends closed point := by
  cases request with
  | pubRegister name =>
      cases point with
      | publisher _ => exact publisher name rfl
      | _ => exact handles.elim
  | subRegister name => exact (other name rfl).elim
  | createRequest _ =>
      cases point with
      | create _ => trivial
      | _ => exact handles.elim
  | removeRequest _ =>
      cases point with
      | remove _ => trivial
      | _ => exact handles.elim

theorem Ends.mono {closed closed' : Prop} {point : Point} (ends : Ends closed point)
    (later : closed → closed') : Ends closed' point := by
  cases point with
  | publisher _ => exact later ends
  | _ => exact ends

theorem Ends.busy {closed : Prop} {point : Point} (ends : Ends closed point) : point ≠ .idle := by
  intro idle
  rw [idle] at ends
  exact ends

/-! ### Pipes -/

theorem pipeRead_rest {pipe bytes rest : List UInt8} {bufLen : Nat} {bytesRead : Int}
    (read : pipeRead pipe bufLen = (bytesRead, bytes, rest)) :
    bytes = pipe.take bufLen ∧ rest = pipe.drop bufLen := by
  obtain ⟨_, parts⟩ := pipeRead_bytes pipe bufLen
  rw [parts, Prod.mk.injEq, Prod.mk.injEq] at read
  exact ⟨read.2.1.symm, read.2.2.symm⟩

theorem readArray_rest {pipe rest : List UInt8} {size : Nat} {array : CharArray size}
    (read : readArray pipe size = some (array, rest)) : rest = pipe.drop size := by
  obtain ⟨_, parts⟩ := pipeRead_bytes pipe size
  unfold readArray at read
  simp only [parts] at read
  split at read
  · cases read
  · split at read
    · exact (congrArg Prod.snd (Option.some.inj read)).symm
    · cases read

/-- A handler only takes bytes out of a session pipe. -/
theorem PipeStep.shrinks {closed : Prop} {point next : Point} {pipe rest written : List UInt8}
    (piped : PipeStep closed point next pipe rest written) : rest.length ≤ pipe.length := by
  cases piped with
  | codeArrives read =>
      rw [(pipeRead_rest read).2, List.length_drop]
      exact Nat.sub_le _ _
  | codeMissing read _ _ =>
      rw [(pipeRead_rest read).2, List.length_drop]
      exact Nat.sub_le _ _
  | messageArrives read =>
      rw [readArray_rest read, List.length_drop]
      exact Nat.sub_le _ _
  | messageMissing _ _ => exact Nat.zero_le _
  | sends _ => exact Nat.le_refl _
  | sendFails => exact Nat.le_refl _
  | answersCreate _ => exact Nat.le_refl _
  | answersRemove _ => exact Nat.le_refl _
  | answerFails _ => exact Nat.le_refl _
  | silent _ => exact Nat.le_refl _

/-- The code of a message is taken out of the session pipe. -/
theorem PipeStep.code_shrinks {closed : Prop} {session session' : Mbroker.Session}
    {pipe rest written : List UInt8}
    (piped : PipeStep closed (.publisher (.readCode session)) (.publisher (.checkBox session'))
      pipe rest written) : rest.length < pipe.length := by
  cases piped with
  | codeArrives read =>
      obtain ⟨code, left⟩ := pipeRead_rest read
      cases pipe with
      | nil => cases code
      | cons first others =>
          rw [left]
          exact Nat.lt_succ_self _
  | silent uses => exact (uses trivial).elim

/-! ### Steps -/

section
variable {Thread : Type} {server server' : Server Thread} {closed : Prop}
  {pipe rest written : List UInt8}

theorem publisher_nearer {point : PublisherPoint} {next : Option PublisherPoint}
    (step : PublisherStep server point server' next)
    (piped : PipeStep closed (.publisher point) (next.elim .idle .publisher) pipe rest written) :
    next = none ∨ ∃ point', next = some point' ∧
      toEnd rest (.publisher point') < toEnd pipe (.publisher point) := by
  have fewer := piped.shrinks
  cases step with
  | pipeFails | notFound _ | busy _ _ | openFails _ _ _ _ | closes _ => exact Or.inl rfl
  | codeArrives _ =>
      have taken := piped.code_shrinks
      refine Or.inr ⟨_, rfl, ?_⟩
      simp only [toEnd]
      omega
  | _ =>
      refine Or.inr ⟨_, rfl, ?_⟩
      simp only [toEnd]
      omega

theorem create_nearer {atomicity : Atomicity} {point : CreatePoint} {next : Option CreatePoint}
    (step : CreateStep atomicity server point server' next) :
    next = none ∨ ∃ point', next = some point' ∧
      toEnd rest (.create point') < toEnd pipe (.create point) := by
  cases step with
  | answers => exact Or.inl rfl
  | _ =>
      refine Or.inr ⟨_, rfl, ?_⟩
      simp only [toEnd]
      omega

theorem remove_nearer {point : RemovePoint} {next : Option RemovePoint}
    (step : RemoveStep server point server' next) :
    next = none ∨ ∃ point', next = some point' ∧
      toEnd rest (.remove point') < toEnd pipe (.remove point) := by
  cases step with
  | answers => exact Or.inl rfl
  | _ =>
      refine Or.inr ⟨_, rfl, ?_⟩
      simp only [toEnd]
      omega

/-- A step of a handler that ends ends it or brings it nearer to its end. -/
theorem ends_step [DecidableEq Thread] {atomicity : Atomicity} {thread : Thread}
    {broker broker' : Broker Thread} (step : broker.Step atomicity thread broker')
    (piped : PipeStep closed (broker.workers thread) (broker'.workers thread) pipe rest written)
    (ends : Ends closed (broker.workers thread)) :
    broker'.workers thread = .idle ∨ (Ends closed (broker'.workers thread) ∧
      toEnd rest (broker'.workers thread) < toEnd pipe (broker.workers thread)) := by
  cases step with
  | dequeue _ atIdle =>
      rw [atIdle] at ends
      exact ends.elim
  | publisher atPoint taken =>
      rw [atPoint] at ends piped ⊢
      rw [Broker.goto_self] at piped ⊢
      rcases publisher_nearer taken piped with returned | ⟨point', goes, nearer⟩
      · rw [returned]
        exact Or.inl rfl
      · rw [goes]
        exact Or.inr ⟨ends, nearer⟩
  | subscriber atPoint _ =>
      rw [atPoint] at ends
      exact ends.elim
  | create atPoint taken =>
      rw [atPoint, Broker.goto_self]
      rcases create_nearer taken with returned | ⟨point', goes, nearer⟩
      · rw [returned]
        exact Or.inl rfl
      · rw [goes]
        exact Or.inr ⟨trivial, nearer⟩
  | remove atPoint taken =>
      rw [atPoint, Broker.goto_self]
      rcases remove_nearer taken with returned | ⟨point', goes, nearer⟩
      · rw [returned]
        exact Or.inl rfl
      · rw [goes]
        exact Or.inr ⟨trivial, nearer⟩

end

/-! ### Handlers that can go on -/

section
variable {Thread : Type} {server : Server Thread} {params : MbrokerParams} {model : Model Nat}

/-- A publisher handler goes on when the session pipe is closed. -/
theorem publisher_goes (small : params.maxSessions < 2 ^ 31)
    (files : Files params server.fs model) (unlocked : ∀ boxI, server.Unlocked boxI)
    {closed : Prop} (ended : closed) (point : PublisherPoint) (pipe : List UInt8) :
    ∃ server' next rest, PublisherStep server point server' next ∧
      PipeStep closed (.publisher point) (next.elim .idle .publisher) pipe rest [] := by
  cases point with
  | openPipe boxName => exact ⟨_, _, _, .pipeFails, .silent not_false⟩
  | findBox boxName =>
      cases finds : server.boxFind boxName with
      | none => exact ⟨_, _, _, .notFound finds, .silent not_false⟩
      | some boxI => exact ⟨_, _, _, .found finds, .silent not_false⟩
  | register box =>
      by_cases others : 0 < (server.boxesTable box.boxI).nPublishers
      · exact ⟨_, _, _, .busy (unlocked _) others, .silent not_false⟩
      · obtain ⟨result, fs, returned⟩ := files.returns small (.opens box.boxName false true)
        by_cases failed : result.length < 0
        · exact ⟨_, _, _, .openFails (unlocked _) others returned failed, .silent not_false⟩
        · exact ⟨_, _, _, .registers (unlocked _) others returned (Int.not_lt.mp failed),
            .silent not_false⟩
  | readCode session =>
      cases pipe with
      | nil => exact ⟨_, _, _, @PublisherStep.codeMissing _ _ _ none (Option.some_ne_none _).symm,
          .codeMissing (pipeRead_nil 1) (fun _ => ended) (fun both => absurd both.1 (by decide))⟩
      | cons code rest =>
          have read : pipeRead (code :: rest) 1 = (1, [code], rest) :=
            @pipeRead_whole [code] rest 1 rfl
          by_cases receive : code = protocolCodeMessageReceive
          · rw [receive] at read ⊢
            exact ⟨_, _, _, .codeArrives rfl, .codeArrives read⟩
          · refine ⟨_, _, _, @PublisherStep.codeMissing _ _ _ (some code) ?_,
              .codeMissing read (fun _ => ended) ?_⟩
            · exact fun same => receive (Option.some.inj same)
            · exact fun both => receive (List.cons.inj both.2).1
  | checkBox session =>
      by_cases isTaken : server.IsTaken session.boxI
      · exact ⟨_, _, _, .boxThere isTaken, .silent not_false⟩
      · exact ⟨_, _, _, .boxGone isTaken, .silent not_false⟩
  | readMessage session =>
      cases read : readArray pipe msgMaxLen with
      | none => exact ⟨_, _, _, .messageMissing, .messageMissing read ended⟩
      | some parts =>
          obtain ⟨array, rest⟩ := parts
          exact ⟨_, _, _, @PublisherStep.messageArrives _ _ _ ⟨array.bytes, array.length_eq⟩,
            .messageArrives read⟩
  | writeMessage session message =>
      obtain ⟨result, fs, returned⟩ := files.returns small (.writes session.boxF message)
      by_cases full : result.length = msgMaxLen
      · exact ⟨_, _, _, .writes returned full, .silent not_false⟩
      · exact ⟨_, _, _, .writeFails returned full, .silent not_false⟩
  | publish session => exact ⟨_, _, _, .publishes (unlocked _), .silent not_false⟩
  | unregister session => exact ⟨_, _, _, .unregisters (unlocked _), .silent not_false⟩
  | closeFile session =>
      obtain ⟨result, fs, returned⟩ := files.returns small (.closes session.boxF)
      exact ⟨_, _, _, .closes returned, .silent not_false⟩

theorem create_goes (small : params.maxSessions < 2 ^ 31) (files : Files params server.fs model)
    (unlocked : ∀ boxI, server.Unlocked boxI) (atomicity : Atomicity) (closed : Prop)
    (point : CreatePoint) (pipe : List UInt8) :
    ∃ server' next, CreateStep atomicity server point server' next ∧
      PipeStep closed (.create point) (next.elim .idle .create) pipe pipe [] := by
  cases point with
  | openExisting boxName =>
      obtain ⟨result, fs, returned⟩ := files.returns small (.opens boxName false false)
      by_cases failed : result.length < 0
      · exact ⟨_, _, .absent returned failed, .silent not_false⟩
      · exact ⟨_, _, .exists returned (Int.not_lt.mp failed), .silent not_false⟩
  | openNew boxName =>
      obtain ⟨result, fs, returned⟩ := files.returns small (.opens boxName true false)
      by_cases failed : result.length < 0
      · exact ⟨_, _, .openFails returned failed, .silent not_false⟩
      · exact ⟨_, _, .opens returned (Int.not_lt.mp failed), .silent not_false⟩
  | takeBox boxName f =>
      cases frees : server.firstFreeBox with
      | none => exact ⟨_, _, .full frees, .silent not_false⟩
      | some boxI =>
          cases together : atomicity with
          | calls => exact ⟨_, _, .creates rfl frees (unlocked _), .silent not_false⟩
          | sections => exact ⟨_, _, .takes rfl frees, .silent not_false⟩
  | fillBox boxName f boxI => exact ⟨_, _, .fills (unlocked _), .silent not_false⟩
  | closeFile f returnCode =>
      obtain ⟨result, fs, returned⟩ := files.returns small (.closes f)
      exact ⟨_, _, .closes returned, .silent not_false⟩
  | answer returnCode => exact ⟨_, _, .answers, .answerFails ⟨_, Or.inl rfl⟩⟩

theorem remove_goes (small : params.maxSessions < 2 ^ 31) (files : Files params server.fs model)
    (unlocked : ∀ boxI, server.Unlocked boxI) (closed : Prop) (point : RemovePoint)
    (pipe : List UInt8) :
    ∃ server' next, RemoveStep server point server' next ∧
      PipeStep closed (.remove point) (next.elim .idle .remove) pipe pipe [] := by
  cases point with
  | deleteBox boxName =>
      cases finds : server.boxFind boxName with
      | none => exact ⟨_, _, .notFound finds, .silent not_false⟩
      | some boxI => exact ⟨_, _, .deletes finds (unlocked _), .silent not_false⟩
  | unlink boxName =>
      obtain ⟨result, fs, returned⟩ := files.returns small (.unlinks boxName)
      exact ⟨_, _, .unlinks returned, .silent not_false⟩
  | answer returnCode => exact ⟨_, _, .answers, .answerFails ⟨_, Or.inr rfl⟩⟩

/-- A handler that ends can go on while no mutex is locked. -/
theorem ends_goes [DecidableEq Thread] (small : params.maxSessions < 2 ^ 31)
    {broker : Broker Thread} (files : Files params broker.server.fs model)
    (unlocked : ∀ boxI, broker.server.Unlocked boxI) (atomicity : Atomicity) {thread : Thread}
    {closed : Prop} (ends : Ends closed (broker.workers thread)) (pipe : List UInt8) :
    ∃ broker' rest, broker.Step atomicity thread broker' ∧
      PipeStep closed (broker.workers thread) (broker'.workers thread) pipe rest [] := by
  cases atPoint : broker.workers thread with
  | publisher point =>
      rw [atPoint] at ends
      obtain ⟨_, _, rest, step, piped⟩ := publisher_goes small files unlocked ends point pipe
      refine ⟨_, rest, .publisher atPoint step, ?_⟩
      rw [Broker.goto_self]
      exact piped
  | create point =>
      obtain ⟨_, _, step, piped⟩ :=
        create_goes small files unlocked atomicity closed point pipe
      refine ⟨_, pipe, .create atPoint step, ?_⟩
      rw [Broker.goto_self]
      exact piped
  | remove point =>
      obtain ⟨_, _, step, piped⟩ := remove_goes small files unlocked closed point pipe
      refine ⟨_, pipe, .remove atPoint step, ?_⟩
      rw [Broker.goto_self]
      exact piped
  | idle =>
      rw [atPoint] at ends
      exact ends.elim
  | subscriber _ =>
      rw [atPoint] at ends
      exact ends.elim

end

/-! ### Runs -/

/-- The actor is a worker inside a handler and can go on.  A session pipe opens, or it does not,
as far as this is about the handler. -/
def Works {Client : Type} [DecidableEq Client] (clients : Clients Client) (atomicity : Atomicity)
    (params : MbrokerParams) (actor : Actor Client (Fin params.maxSessions))
    (network : Network Client (Fin params.maxSessions)) : Prop :=
  (∃ worker, actor = .worker worker ∧ network.broker.workers worker ≠ .idle) ∧
    ∃ network', (deploymentSystem clients atomicity params).step actor network network'

section
variable {Client : Type} [DecidableEq Client] {clients : Clients Client} {atomicity : Atomicity}
  {params : MbrokerParams} {network network' : Network Client (Fin params.maxSessions)}
  {worker : Fin params.maxSessions} {client : Client}

/-- A client that has closed its session pipe does not open it again. -/
theorem closed_step {actor : Actor Client (Fin params.maxSessions)}
    (step : (deploymentSystem clients atomicity params).step actor network network')
    (closed : network.points client = .closed) : network'.points client = .closed := by
  cases actor with
  | client other =>
      cases step with
      | requests starting _ =>
          have different : client ≠ other := by
            intro same
            rw [← same, closed] at starting
            cases starting
          exact (Function.update_of_ne different _ _).trans closed
      | sends _ _ _ _ => exact closed
      | closes _ =>
          change Function.update network.points other .closed client = .closed
          rw [Function.update_apply]
          split
          · rfl
          · exact closed
  | listener => cases step <;> exact closed
  | worker thread => cases step <;> exact closed

/-- Nobody else touches the session pipe of a client that has closed it. -/
theorem toBroker_step {actor : Actor Client (Fin params.maxSessions)} (alone : network.Exclusive)
    (serves : network.Serves worker client)
    (step : (deploymentSystem clients atomicity params).step actor network network')
    (other : actor ≠ .worker worker) (closed : network.points client = .closed) :
    network'.toBroker client = network.toBroker client := by
  cases actor with
  | client writing =>
      cases step with
      | requests _ _ => rfl
      | sends running _ _ _ =>
          have different : client ≠ writing := by
            intro same
            rw [← same, closed] at running
            cases running
          exact Function.update_of_ne different _ _
      | closes _ => rfl
  | listener => cases step <;> rfl
  | worker thread =>
      cases step with
      | dequeues _ _ _ _ => rfl
      | lists _ _ _ _ _ => rfl
      | @handles served _ _ _ serving busy _ _ =>
          have different : client ≠ served := by
            intro same
            rw [← same] at serving
            exact other (congrArg Actor.worker (alone thread worker client ⟨serving, busy⟩ serves))
          exact Function.update_of_ne different _ _

/-- The worker serves the client, its handler ends, and no mutex is locked. -/
structure Ending (worker : Fin params.maxSessions) (client : Client)
    (network : Network Client (Fin params.maxSessions)) : Prop where
  serves : network.Serves worker client
  ends : Ends (network.points client = .closed) (network.broker.workers worker)
  unlocked : ∀ boxI, network.broker.server.Unlocked boxI

/-- The worker is idle, or a mutex was left locked. -/
def Ended (worker : Fin params.maxSessions)
    (network : Network Client (Fin params.maxSessions)) : Prop :=
  network.broker.workers worker = .idle ∨ ∃ boxI, ¬ network.broker.server.Unlocked boxI

/-- The steps of the handler to its end -/
def Network.steps (network : Network Client (Fin params.maxSessions))
    (worker : Fin params.maxSessions) (client : Client) : Nat :=
  toEnd (network.toBroker client) (network.broker.workers worker)

/-- The handler has ended, or it has come nearer than the bound to its end. -/
def NearerEnd (worker : Fin params.maxSessions) (client : Client) (bound : Nat)
    (network : Network Client (Fin params.maxSessions)) : Prop :=
  (Ending worker client network ∧ network.steps worker client < bound) ∨ Ended worker network

omit [DecidableEq Client] in
theorem ended_or_unlocked (network : Network Client (Fin params.maxSessions))
    (worker : Fin params.maxSessions) :
    Ended worker network ∨ ∀ boxI, network.broker.server.Unlocked boxI := by
  by_cases unlocked : ∀ boxI, network.broker.server.Unlocked boxI
  · exact Or.inr unlocked
  · exact Or.inl (Or.inr (not_forall.mp unlocked))

/-- The others leave a handler where it is. -/
theorem Ending.others {actor : Actor Client (Fin params.maxSessions)} (alone : network.Exclusive)
    (ending : Ending worker client network)
    (step : (deploymentSystem clients atomicity params).step actor network network')
    (other : actor ≠ .worker worker) :
    (Ending worker client network' ∧
      network'.steps worker client = network.steps worker client) ∨ Ended worker network' := by
  rcases ended_or_unlocked network' worker with ended | unlocked
  · exact Or.inr ended
  · left
    obtain ⟨serving, point, _⟩ := leftAlone step other
    have serves : network'.Serves worker client := by
      constructor
      · exact serving.trans ending.serves.1
      · rw [point]
        exact ending.serves.2
    refine ⟨⟨serves, ?_, unlocked⟩, ?_⟩
    · rw [point]
      exact ending.ends.mono (closed_step step)
    · unfold Network.steps
      rw [point]
      exact ending.ends.toEnd_eq (toBroker_step alone ending.serves step other)

/-- The worker brings its handler nearer to its end. -/
theorem Ending.own (ending : Ending worker client network)
    (step : WorkerStep clients atomicity worker network network') :
    NearerEnd worker client (network.steps worker client) network' := by
  rcases ended_or_unlocked network' worker with ended | unlocked
  · exact Or.inr ended
  · obtain ⟨broker, rest, written, taken, piped, same⟩ := ending.serves.step step
    subst same
    rcases ends_step taken piped ending.ends with idle | ⟨ends, nearer⟩
    · exact Or.inr (Or.inl idle)
    · refine Or.inl ⟨⟨⟨ending.serves.1, ends.busy⟩, ends, unlocked⟩, ?_⟩
      have pipe : (network.handled worker client broker rest written).toBroker client = rest :=
        Function.update_self _ _ _
      unfold Network.steps
      rw [pipe]
      exact nearer

/-- While no mutex is locked, a handler that ends can go on. -/
theorem Ending.works (small : params.maxSessions < 2 ^ 31)
    (reachable : (deploymentSystem clients atomicity params).Reachable network)
    (ending : Ending worker client network) :
    Works clients atomicity params (.worker worker) network := by
  obtain ⟨_, held⟩ := Broker.reachable_filesHeld (deployment_refines.reachable reachable)
  obtain ⟨_, _, step, piped⟩ := ends_goes small held.files ending.unlocked atomicity ending.ends
    (network.toBroker client)
  exact ⟨⟨worker, rfl, ending.serves.2⟩, _,
    .handles ending.serves.1 ending.serves.2 step piped⟩

variable {run : (deploymentSystem clients atomicity params).Run}

/-- A handler that ends comes to its end. -/
theorem ending_leads (small : params.maxSessions < 2 ^ 31)
    (fair : run.Fair (Works clients atomicity params)) :
    run.Leads (Ending worker client) (Ended worker) := by
  apply ThreadSystem.Run.Leads.descends (fun network => network.steps worker client)
  intro bound
  apply fair.leads (.worker worker)
  · intro network reachable holds
    exact holds.1.works small reachable
  · intro actor before after other reachable holds step
    obtain ⟨ending, same⟩ := holds
    obtain ⟨_, _, _, kept⟩ := Network.reachable_requestsKept reachable
    rcases ending.others kept.alone step other with ⟨ending', stays⟩ | ended
    · exact Or.inl ⟨ending', stays.trans same⟩
    · exact Or.inr (Or.inr ended)
  · intro before after reachable holds step
    obtain ⟨ending, same⟩ := holds
    rw [← same]
    exact ending.own step

omit [DecidableEq Client] in
/-- The handler of a client that is no subscriber ends, once a publisher has closed its session
pipe. -/
theorem RequestsKept.ends {capacity : Nat} {queued held pending : List Client}
    (kept : RequestsKept clients capacity network queued held pending)
    (serves : network.Serves worker client)
    (other : (clients.request client).code ≠ .subRegister)
    (closed : (clients.request client).code = .pubRegister → network.points client = .closed) :
    Ends (network.points client = .closed) (network.broker.workers worker) := by
  obtain ⟨served, request, serving, _, asks, handles⟩ := kept.serves worker serves.2
  have same := Option.some.inj (serves.1.symm.trans serving)
  subst same
  apply Ends.of_handles handles
  · intro name registers
    rw [registers] at asks
    exact closed (serverRequest_registers.1 asks)
  · intro name registers
    rw [registers] at asks
    exact other (serverRequest_registers.2 asks)

/-- In every run in which the workers go on inside their handlers when they can, a worker that
serves a manager becomes idle again, and so does one that serves a publisher once the publisher
has closed its session pipe, unless the mutex of a box was left locked. -/
theorem handlers_end (small : params.maxSessions < 2 ^ 31)
    (fair : run.Fair (Works clients atomicity params)) {time : Nat}
    (serves : (run.state time).Serves worker client)
    (other : (clients.request client).code ≠ .subRegister) :
    (∃ later, time ≤ later ∧ ((run.state later).broker.workers worker = .idle ∨
        ∃ boxI, ¬ (run.state later).broker.server.Unlocked boxI)) ∨
      ((clients.request client).code = .pubRegister ∧
        ∀ later, time ≤ later → (run.state later).points client ≠ .closed) := by
  by_cases open' : (clients.request client).code = .pubRegister ∧
      ∀ later, time ≤ later → (run.state later).points client ≠ .closed
  · exact Or.inr open'
  · left
    have closes : ∃ moment, time ≤ moment ∧ ((clients.request client).code = .pubRegister →
        (run.state moment).points client = .closed) := by
      by_contra never
      apply open'
      constructor
      · by_contra manager
        exact never ⟨time, Nat.le_refl time, fun publisher => (manager publisher).elim⟩
      · intro later inOrder closed
        exact never ⟨later, inOrder, fun _ => closed⟩
    obtain ⟨moment, inOrder, closed⟩ := closes
    by_contra never
    have busy : ∀ later, time ≤ later → (run.state later).broker.workers worker ≠ .idle :=
      fun later after idle => never ⟨later, after, Or.inl idle⟩
    obtain ⟨_, _, _, kept⟩ := Network.reachable_requestsKept (run.reachable moment)
    have still : (run.state moment).Serves worker client := by
      apply run.holds_while (fun network => network.Serves worker client)
        (fun network => network.broker.workers worker ≠ .idle) busy _ serves moment inOrder
      intro actor before after _ serves step stillBusy
      exact serves.keeps step stillBusy
    rcases ended_or_unlocked (run.state moment) worker with ended | unlocked
    · exact never ⟨moment, inOrder, ended⟩
    · obtain ⟨later, after, ended⟩ := ending_leads small fair moment
        ⟨still, kept.ends still other closed, unlocked⟩
      exact never ⟨later, Nat.le_trans inOrder after, ended⟩

/-- Such a run starts in every reachable state: the workers take turns. -/
theorem exists_workingRun
    (reachable : (deploymentSystem clients atomicity params).Reachable network) :
    ∃ run : (deploymentSystem clients atomicity params).Run,
      run.state 0 = network ∧ run.Fair (Works clients atomicity params) := by
  apply reachable.exists_roundRobin .listener (workerActors params.maxSessions)
  · intro actor _ works
    obtain ⟨⟨worker, same, _⟩, _⟩ := works
    rw [same]
    exact List.mem_cons_of_mem _ (worker_mem worker)
  · intro actor state works
    exact works.2

end

/-- The worker that has taken the request of the manager becomes idle again, or a mutex was left
locked. -/
theorem handlers_end_create :
    ∃ run : (deploymentSystem Program.clients .sections twoSessions).Run,
      run.Fair (Works Program.clients .sections twoSessions) ∧
        (run.state 0).Serves workerA .manager ∧
        ((∃ later, 0 ≤ later ∧ ((run.state later).broker.workers workerA = .idle ∨
            ∃ boxI, ¬ (run.state later).broker.server.Unlocked boxI)) ∨
          ((Program.clients.request .manager).code = .pubRegister ∧
            ∀ later, 0 ≤ later → (run.state later).points .manager ≠ .closed)) := by
  obtain ⟨network, reachable, _, serves⟩ := exists_serving
  obtain ⟨run, start, fair⟩ := exists_workingRun reachable
  rw [← start] at serves
  exact ⟨run, fair, serves, handlers_end (by decide) fair serves (by decide)⟩

end TecnicoFS.Deployment
