/-
Runs of whole critical sections as runs lock by lock.

While nobody else moves, a worker locks, runs its section and unlocks, and every lock is
free again.  So each run whose critical sections are single steps is a run of the locked
handlers, as long as no exit skips the unlocking.
-/

import TecnicoFS.Mbroker.LockedHandlers

set_option autoImplicit false

namespace TecnicoFS.Mbroker

open FileSystem

/-! ### Points -/

def RemovePoint.locked : RemovePoint → LockedRemovePoint
  | .deleteBox boxName => .lockTable boxName
  | .unlink boxName => .outside (.unlink boxName)
  | .answer returnCode => .outside (.answer returnCode)

/-- The worker is about to take the lock of its point. -/
def Point.locked : Point → LockedPoint
  | .idle => .idle
  | .publisher point => .publisher (.enter PublisherPoint.lock? point)
  | .subscriber point => .subscriber (.enter SubscriberPoint.lock? point)
  | .create point => .create (.enter CreatePoint.lock? point)
  | .remove point => .remove point.locked

variable {Thread : Type} [DecidableEq Thread] {thread : Thread}

/-- The broker with every lock free -/
def Broker.locked (broker : Broker Thread) (counted : Nat → Nat) : LockedBroker Thread where
  server := broker.server
  locks := .empty
  workers worker := (broker.workers worker).locked
  counted := counted

theorem Broker.locked_goto (broker : Broker Thread) (thread : Thread) (server : Server Thread)
    (point : Point) (counted : Nat → Nat) :
    (broker.goto thread server point).locked counted =
      ⟨server, .empty, Function.update (broker.locked counted).workers thread point.locked,
        counted⟩ := by
  have workers : (fun worker => ((broker.goto thread server point).workers worker).locked) =
      Function.update (fun worker => (broker.workers worker).locked) thread point.locked := by
    funext worker
    rw [Function.update_apply]
    by_cases moved : worker = thread
    · rw [if_pos moved, moved, Broker.goto_self]
    · rw [if_neg moved, Broker.goto_other _ _ _ moved]
  unfold Broker.locked
  rw [workers]
  rfl

/-! ### A section from its lock to its end -/

variable {HandlerPoint : Type} {lock? : HandlerPoint → Option (BoxLock × LockMode)}
  {skipsUnlock : HandlerPoint → Option HandlerPoint → Prop}
  {moves : Server Thread → HandlerPoint → Server Thread → Option HandlerPoint → Prop}

/-- With all locks free the phases of a point make one move of the handler. -/
theorem reaches_move {system : ThreadSystem Thread (LockedBroker Thread)}
    {wrap : Phase HandlerPoint → LockedPoint}
    (steps : ∀ broker phase server locks next, broker.workers thread = wrap phase →
      PhaseStep lock? skipsUnlock moves thread broker.server broker.locks phase server locks next →
      ∃ counted, system.step thread broker
        ⟨server, locks, Function.update broker.workers thread (next.elim .idle wrap), counted⟩)
    {broker : LockedBroker Thread} {server' : Server Thread} {point : HandlerPoint}
    {next : Option HandlerPoint} (reachable : system.Reachable broker)
    (unlocked : broker.locks = .empty) (atPoint : broker.workers thread = wrap (.enter lock? point))
    (moved : moves broker.server point server' next) (unlocks : ¬ skipsUnlock point next) :
    ∃ counted, system.Reachable
      ⟨server', .empty,
        Function.update broker.workers thread ((next.map (Phase.enter lock?)).elim .idle wrap),
        counted⟩ := by
  unfold Phase.enter at atPoint
  cases taken : lock? point with
  | none =>
      rw [taken] at atPoint
      obtain ⟨counted, stepped⟩ := steps broker _ _ _ _ atPoint (.runs taken moved)
      rw [unlocked] at stepped
      exact ⟨counted, reachable.step stepped⟩
  | some entry =>
      obtain ⟨lock, mode⟩ := entry
      rw [taken] at atPoint
      have available : broker.locks.Available lock mode := by
        rw [unlocked]
        exact LockTable.empty_available lock mode
      obtain ⟨counted1, locking⟩ := steps broker _ _ _ _ atPoint (.locks taken available)
      have locked := reachable.step locking
      obtain ⟨counted2, leaving⟩ := steps
        ⟨broker.server, broker.locks.acquire thread lock mode,
          Function.update broker.workers thread (wrap (.inside point)), counted1⟩
        _ _ _ _ (Function.update_self _ _ _) (.leaves taken moved unlocks)
      have left := locked.step leaving
      obtain ⟨counted, unlocking⟩ := steps
        ⟨server', broker.locks.acquire thread lock mode, Function.update (Function.update
          broker.workers thread (wrap (.inside point))) thread (wrap (.unlocking lock mode next)),
          counted2⟩
        _ _ _ _ (Function.update_self _ _ _) .unlocks
      have finished := left.step unlocking
      dsimp only at finished
      rw [Function.update_idem, Function.update_idem, unlocked,
        LockTable.acquire_release rfl] at finished
      exact ⟨counted, finished⟩

/-! ### Steps -/

variable {params : MbrokerParams}

/-- A subscriber that registers while the file of its box is there opens it, so that no exit
skips the unlocking. -/
theorem SubscriberStep.unlocks {server server' : Server Thread} {point : SubscriberPoint}
    {next : Option SubscriberPoint} {model : Model Nat}
    (step : SubscriberStep thread server point server' next)
    (files : Files params server.fs model)
    (finds : ∀ box, point = .register box → server.HasFile box.boxName ∧
      ∃ handle, handle < params.maxSessions ∧ model.handles handle = none) :
    ¬ point.SkipsUnlock next := by
  cases step with
  | @openFails box result fs _ returned failed =>
      obtain ⟨there, room⟩ := finds box rfl
      obtain ⟨valid, bound⟩ := (files.hasFile box.boxName).mp there
      obtain ⟨id, named⟩ := Option.ne_none_iff_exists'.mp bound
      obtain ⟨contents, holds⟩ := files.name_file named
      obtain ⟨handle, opened, _⟩ := files.opensPresent valid named holds room returned
      omega
  | _ => exact fun impossible => impossible

/-- One step of `workers_handle_manager_remove` after another -/
theorem LockedBroker.reaches_remove {thread : Fin params.maxSessions}
    {server server' : Server (Fin params.maxSessions)}
    {locks locks' : LockTable (Fin params.maxSessions) BoxLock}
    {workers : Fin params.maxSessions → LockedPoint} {counted : Nat → Nat}
    {point : LockedRemovePoint} {next : Option LockedRemovePoint}
    (reachable : (lockedSystem params).Reachable
      ⟨server, locks, Function.update workers thread (.remove point), counted⟩)
    (step : LockedRemoveStep thread server locks point server' locks' next) :
    (lockedSystem params).Reachable
      ⟨server', locks', Function.update workers thread (next.elim .idle .remove), counted⟩ := by
  have taken := reachable.step
    (LockedBroker.Step.remove (Function.update_self thread (LockedPoint.remove point) workers) step)
  dsimp only at taken
  rwa [Function.update_idem] at taken

/-- A subscriber that registers finds the file of its box still there. -/
def Broker.FindsFile (broker : Broker Thread) (thread : Thread) : Prop :=
  ∀ box, broker.workers thread = .subscriber (.register box) →
    broker.server.HasFile box.boxName

/-- A step of a whole section is a run lock by lock. -/
theorem Broker.Step.locked {broker broker' : Broker (Fin params.maxSessions)}
    {thread : Fin params.maxSessions} {model : Model Nat}
    (step : broker.Step .sections thread broker') (held : FilesHeld params broker model)
    (finds : broker.FindsFile thread) {counted : Nat → Nat}
    (reachable : (lockedSystem params).Reachable (broker.locked counted)) :
    ∃ counted', (lockedSystem params).Reachable (broker'.locked counted') := by
  cases step with
  | dequeue request atIdle =>
      have idle : (broker.locked counted).workers thread = .idle := by
        change (broker.workers thread).locked = .idle
        rw [atIdle]
        rfl
      refine ⟨counted, ?_⟩
      rw [Broker.locked_goto]
      cases request with
      | pubRegister name => exact reachable.step (.dequeue (.pubRegister name) idle)
      | subRegister name => exact reachable.step (.dequeue (.subRegister name) idle)
      | createRequest name => exact reachable.step (.dequeue (.createRequest name) idle)
      | removeRequest name => exact reachable.step (.dequeue (.removeRequest name) idle)
  | @publisher point server next atPoint moved =>
      have here : (broker.locked counted).workers thread =
          .publisher (.enter PublisherPoint.lock? point) := by
        change (broker.workers thread).locked = _
        rw [atPoint]
        rfl
      obtain ⟨counted', reached⟩ := reaches_move
        (fun _ _ _ _ _ atPhase taken => ⟨_, LockedBroker.Step.publisher atPhase taken⟩)
        reachable rfl here moved (fun impossible => impossible)
      refine ⟨counted', ?_⟩
      rw [Broker.locked_goto]
      cases next <;> exact reached
  | @subscriber point server next atPoint moved =>
      have here : (broker.locked counted).workers thread =
          .subscriber (.enter SubscriberPoint.lock? point) := by
        change (broker.workers thread).locked = _
        rw [atPoint]
        rfl
      obtain ⟨counted', reached⟩ := reaches_move
        (fun _ _ _ _ _ atPhase taken => ⟨_, LockedBroker.Step.subscriber atPhase taken⟩)
        reachable rfl here moved (moved.unlocks held.files (fun box registers => by
          rw [registers] at atPoint
          have without : (broker.workers thread).file? = none := by
            rw [atPoint]
            rfl
          exact ⟨finds box atPoint, held.handle_free without⟩))
      refine ⟨counted', ?_⟩
      rw [Broker.locked_goto]
      cases next <;> exact reached
  | @create point server next atPoint moved =>
      have here : (broker.locked counted).workers thread =
          .create (.enter CreatePoint.lock? point) := by
        change (broker.workers thread).locked = _
        rw [atPoint]
        rfl
      obtain ⟨counted', reached⟩ := reaches_move
        (fun _ _ _ _ _ atPhase taken => ⟨_, LockedBroker.Step.create atPhase taken⟩)
        reachable rfl here moved (fun impossible => impossible)
      refine ⟨counted', ?_⟩
      rw [Broker.locked_goto]
      cases next <;> exact reached
  | @remove point server next atPoint moved =>
      have here : (broker.locked counted).workers thread = .remove point.locked := by
        change (broker.workers thread).locked = _
        rw [atPoint]
        rfl
      have start : (lockedSystem params).Reachable
          ⟨broker.server, .empty,
            Function.update (broker.locked counted).workers thread (.remove point.locked),
            counted⟩ := by
        rw [← here, Function.update_eq_self]
        exact reachable
      refine ⟨counted, ?_⟩
      rw [Broker.locked_goto]
      cases moved with
      | notFound found =>
          have locked := LockedBroker.reaches_remove start
            (.locksTable (LockTable.empty_available _ _))
          have looked := LockedBroker.reaches_remove locked (.notFound found)
          have unlocked := LockedBroker.reaches_remove looked .unlocksTable
          rwa [LockTable.acquire_release rfl] at unlocked
      | @deletes boxName boxI found _ =>
          have locked := LockedBroker.reaches_remove start
            (.locksTable (LockTable.empty_available _ _))
          have looked := LockedBroker.reaches_remove locked (.found found)
          have different : BoxLock.box boxI ≠ BoxLock.freeBoxes := by
            intro impossible
            cases impossible
          have lockedBox := LockedBroker.reaches_remove looked
            (.locksBox ((LockTable.empty_available _ _).acquire_other different))
          have deleted := LockedBroker.reaches_remove lockedBox .deletes
          have unlockedBox := LockedBroker.reaches_remove deleted .unlocksBox
          rw [LockTable.acquire_release ((LockTable.acquire_lock_other different).trans rfl)]
            at unlockedBox
          have unlocked := LockedBroker.reaches_remove unlockedBox .unlocksTable
          rwa [LockTable.acquire_release rfl] at unlocked
      | unlinks returned => exact LockedBroker.reaches_remove start (.unlinks returned)
      | answers => exact LockedBroker.reaches_remove start .answers

/-- Each run of whole sections in which registering subscribers find their files is a run
lock by lock. -/
theorem Broker.reachable_locked {broker : Broker (Fin params.maxSessions)}
    (reachable : ((brokerSystem .sections params).restrict
      (fun thread broker _ => broker.FindsFile thread)).Reachable broker) :
    ∃ counted, (lockedSystem params).Reachable (broker.locked counted) := by
  induction reachable with
  | @initial broker start =>
      obtain ⟨started, idle⟩ := start
      refine ⟨fun _ => 0, .initial ⟨started, rfl, ?_⟩⟩
      intro thread
      change (broker.workers thread).locked = .idle
      rw [idle thread]
      rfl
  | step before taken inductionHypothesis =>
      obtain ⟨counted, reached⟩ := inductionHypothesis
      obtain ⟨model, held⟩ := Broker.reachable_filesHeld before.of_restrict
      exact taken.1.locked held taken.2 reached

end TecnicoFS.Mbroker
