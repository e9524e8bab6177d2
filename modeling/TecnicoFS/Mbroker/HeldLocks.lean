/-
Which locks the workers hold.

What a worker holds is said by its point, as long as no subscriber returns past its
`mutex_unlock`.  A worker that waits for a box holds at most `free_boxes_lock`, so the
waits never close a circle.
-/

import TecnicoFS.Library.LockOrder
import TecnicoFS.Mbroker.FirstBox
import TecnicoFS.Mbroker.LockedRuns

set_option autoImplicit false

namespace TecnicoFS.Mbroker

open FileSystem

/-! ### Points -/

variable {HandlerPoint : Type} {lock? : HandlerPoint → Option (BoxLock × LockMode)}

def Phase.held (lock? : HandlerPoint → Option (BoxLock × LockMode)) :
    Phase HandlerPoint → List (BoxLock × LockMode)
  | .outside _ | .locking _ => []
  | .inside point => (lock? point).toList
  | .unlocking lock mode _ => [(lock, mode)]

/-- The lock a worker tries to take -/
def Phase.wants? (lock? : HandlerPoint → Option (BoxLock × LockMode)) :
    Phase HandlerPoint → Option (BoxLock × LockMode)
  | .locking point => lock? point
  | .outside _ | .inside _ | .unlocking _ _ _ => none

def LockedRemovePoint.held : LockedRemovePoint → List (BoxLock × LockMode)
  | .lockTable _ | .outside _ => []
  | .findBox _ | .lockBox _ _ | .unlockTable _ => [(.freeBoxes, .exclusive)]
  | .deleteBox _ boxI | .unlockBox _ boxI =>
      [(.box boxI, .exclusive), (.freeBoxes, .exclusive)]

def LockedRemovePoint.wants? : LockedRemovePoint → Option (BoxLock × LockMode)
  | .lockTable _ => some (.freeBoxes, .exclusive)
  | .lockBox _ boxI => some (.box boxI, .exclusive)
  | .findBox _ | .deleteBox _ _ | .unlockBox _ _ | .unlockTable _ | .outside _ => none

def ListPoint.held : ListPoint → List (BoxLock × LockMode)
  | .openPipe | .lockTable => []
  | .loop _ | .lockBox _ | .sendPacket _ _ | .unlockTable _ => [(.freeBoxes, .shared)]
  | .writePacket state | .unlockBox state _ =>
      [(.box state.i, .exclusive), (.freeBoxes, .shared)]

def ListPoint.wants? : ListPoint → Option (BoxLock × LockMode)
  | .lockTable => some (.freeBoxes, .shared)
  | .lockBox state => some (.box state.i, .exclusive)
  | .openPipe | .loop _ | .writePacket _ | .unlockBox _ _ | .sendPacket _ _ | .unlockTable _ =>
      none

/-- The locks a worker holds at its point -/
def LockedPoint.held : LockedPoint → List (BoxLock × LockMode)
  | .idle => []
  | .publisher phase => phase.held PublisherPoint.lock?
  | .subscriber phase => phase.held SubscriberPoint.lock?
  | .create phase => phase.held CreatePoint.lock?
  | .remove point => point.held
  | .list point => point.held

def LockedPoint.wants? : LockedPoint → Option (BoxLock × LockMode)
  | .idle => none
  | .publisher phase => phase.wants? PublisherPoint.lock?
  | .subscriber phase => phase.wants? SubscriberPoint.lock?
  | .create phase => phase.wants? CreatePoint.lock?
  | .remove point => point.wants?
  | .list point => point.wants?

/-- `free_boxes_lock` comes before the boxes. -/
def BoxLock.rank : BoxLock → Nat
  | .freeBoxes => 0
  | .box _ => 1

theorem Phase.climbs {phase : Phase HandlerPoint} {wanted : BoxLock × LockMode}
    (wants : phase.wants? lock? = some wanted) : phase.held lock? = [] := by
  cases phase with
  | locking point => rfl
  | _ => cases wants

/-- A worker that waits for a lock holds locks of lower ranks only. -/
theorem LockedPoint.climbs {point : LockedPoint} {held wanted : BoxLock × LockMode}
    (holds : held ∈ point.held) (wants : point.wants? = some wanted) :
    held.1.rank < wanted.1.rank := by
  have phase {P : Type} {lock? : P → Option (BoxLock × LockMode)} {phase : Phase P}
      (holds : held ∈ phase.held lock?) (wants : phase.wants? lock? = some wanted) : False := by
    rw [phase.climbs wants] at holds
    cases holds
  cases point with
  | idle => cases wants
  | publisher _ => exact (phase holds wants).elim
  | subscriber _ => exact (phase holds wants).elim
  | create _ => exact (phase holds wants).elim
  | remove point =>
      cases point with
      | lockTable _ => cases holds
      | lockBox _ _ =>
          cases wants
          rw [List.mem_singleton.mp holds]
          exact Nat.zero_lt_one
      | _ => cases wants
  | list point =>
      cases point with
      | lockTable => cases holds
      | lockBox _ =>
          cases wants
          rw [List.mem_singleton.mp holds]
          exact Nat.zero_lt_one
      | _ => cases wants

/-! ### Steps -/

variable {Thread : Type} [DecidableEq Thread] {thread : Thread} {server server' : Server Thread}
  {locks locks' : LockTable Thread BoxLock}

theorem Phase.held_enter (next : Option HandlerPoint) :
    (next.map (Phase.enter lock?)).elim [] (Phase.held lock?) = [] := by
  cases next with
  | none => rfl
  | some point =>
      change (Phase.enter lock? point).held lock? = []
      unfold Phase.enter
      split
      · rfl
      · rfl

/-- A phase changes the locks as its points say, unless its handler leaves past the
unlocking. -/
theorem PhaseStep.change {skipsUnlock : HandlerPoint → Option HandlerPoint → Prop}
    {moves : Server Thread → HandlerPoint → Server Thread → Option HandlerPoint → Prop}
    {phase : Phase HandlerPoint} {next : Option (Phase HandlerPoint)}
    (step : PhaseStep lock? skipsUnlock moves thread server locks phase server' locks' next) :
    locks.Change thread (phase.held lock?) locks' (next.elim [] (Phase.held lock?)) ∨
      ∃ point after, phase = .inside point ∧ moves server point server' after ∧
        skipsUnlock point after ∧ locks' = locks ∧ next.elim [] (Phase.held lock?) = [] := by
  cases step with
  | runs _ _ =>
      rw [Phase.held_enter]
      exact Or.inl (.same (fun _ => Iff.rfl))
  | @locks _ point lock mode taken available =>
      apply Or.inl
      apply LockTable.Change.acquire available
      intro entry
      change entry ∈ (lock? point).toList ↔ entry ∈ [] ∨ _
      rw [taken]
      simp
  | @leaves _ _ point _ lock mode taken _ _ =>
      apply Or.inl
      apply LockTable.Change.same
      intro entry
      change entry ∈ [(lock, mode)] ↔ entry ∈ (lock? point).toList
      rw [taken]
      simp
  | @skips _ _ point after moved skipped =>
      exact Or.inr ⟨point, after, rfl, moved, skipped, rfl, Phase.held_enter after⟩
  | @unlocks _ lock mode _ =>
      rw [Phase.held_enter]
      apply Or.inl
      apply LockTable.Change.release
      intro entry
      change entry ∈ [] ↔ entry ∈ [(lock, mode)] ∧ _
      rw [List.mem_singleton]
      constructor
      · intro impossible
        cases impossible
      · rintro ⟨same, different⟩
        exact (different (congrArg Prod.fst same)).elim

theorem LockedRemoveStep.change {point : LockedRemovePoint} {next : Option LockedRemovePoint}
    (step : LockedRemoveStep thread server locks point server' locks' next) :
    locks.Change thread point.held locks' (next.elim [] LockedRemovePoint.held) := by
  cases step with
  | locksTable available => exact .acquire available (by simp [LockedRemovePoint.held])
  | locksBox available => exact .acquire available (by simp [LockedRemovePoint.held, or_comm])
  | unlocksBox =>
      apply LockTable.Change.release
      rintro ⟨lock, mode⟩
      cases lock <;> simp +contextual [LockedRemovePoint.held]
  | unlocksTable =>
      apply LockTable.Change.release
      rintro ⟨lock, mode⟩
      cases lock <;> simp +contextual [LockedRemovePoint.held]
  | _ => exact .same (fun _ => Iff.rfl)

theorem ListStep.change {point : ListPoint} {next : Option ListPoint}
    (step : ListStep thread server locks point server' locks' next) :
    locks.Change thread point.held locks' (next.elim [] ListPoint.held) := by
  cases step with
  | locksTable available => exact .acquire available (by simp [ListPoint.held])
  | locksBox available => exact .acquire available (by simp [ListPoint.held, or_comm])
  | unlocksBox =>
      apply LockTable.Change.release
      rintro ⟨lock, mode⟩
      cases lock <;> simp +contextual [ListPoint.held]
  | unlocksTable =>
      apply LockTable.Change.release
      rintro ⟨lock, mode⟩
      cases lock <;> simp +contextual [ListPoint.held]
  | _ => exact .same (fun _ => Iff.rfl)

/-! ### Open files -/

variable {params : MbrokerParams} {model : Model Nat} {broker broker' : LockedBroker Thread}

/-- The point of the handler a phase is about, or the one that comes after it -/
def Phase.point? : Phase HandlerPoint → Option HandlerPoint
  | .outside point | .locking point | .inside point => some point
  | .unlocking _ _ next => next

theorem Phase.point_enter (next : Option HandlerPoint) :
    (next.map (Phase.enter lock?)).bind Phase.point? = next := by
  cases next with
  | none => rfl
  | some point =>
      change (Phase.enter lock? point).point? = some point
      unfold Phase.enter
      split
      · rfl
      · rfl

/-- The point with the file the worker has open -/
def LockedPoint.point : LockedPoint → Point
  | .publisher phase => phase.point?.elim .idle .publisher
  | .subscriber phase => phase.point?.elim .idle .subscriber
  | .create phase => phase.point?.elim .idle .create
  | .idle | .remove _ | .list _ => .idle

/-- The broker without its locks -/
def LockedBroker.sections (broker : LockedBroker Thread) : Broker Thread where
  server := broker.server
  workers thread := (broker.workers thread).point

/-- What the moves of a handler do to its file, its phases do to it. -/
theorem PhaseStep.openFiles {skipsUnlock : HandlerPoint → Option HandlerPoint → Prop}
    {moves : Server Thread → HandlerPoint → Server Thread → Option HandlerPoint → Prop}
    {wrap : HandlerPoint → Point} {phase : Phase HandlerPoint}
    {next : Option (Phase HandlerPoint)}
    (step : PhaseStep lock? skipsUnlock moves thread server locks phase server' locks' next)
    (files : Files params server.fs model)
    (moved : ∀ point after, phase.point? = some point → moves server point server' after →
      ∃ model', Files params server'.fs model' ∧
        OpenFilesStep model model' (wrap point).file? (after.elim .idle wrap).file?) :
    ∃ model', Files params server'.fs model' ∧
      OpenFilesStep model model' (phase.point?.elim .idle wrap).file?
        ((next.bind Phase.point?).elim .idle wrap).file? := by
  cases step with
  | runs _ taken =>
      rw [Phase.point_enter]
      exact moved _ _ rfl taken
  | locks _ _ => exact ⟨model, files, .refl _⟩
  | leaves _ taken _ => exact moved _ _ rfl taken
  | skips taken _ =>
      rw [Phase.point_enter]
      exact moved _ _ rfl taken
  | unlocks =>
      rw [Phase.point_enter]
      exact ⟨model, files, .refl _⟩

theorem LockedRemoveStep.openFiles {point : LockedRemovePoint} {next : Option LockedRemovePoint}
    (step : LockedRemoveStep thread server locks point server' locks' next)
    (files : Files params server.fs model) :
    ∃ model', Files params server'.fs model' ∧ model'.handles = model.handles := by
  cases step with
  | unlinks returned => exact files.unlinkStep returned
  | _ => exact ⟨model, files, rfl⟩

namespace LockedBroker

/-- A phase of a handler whose moves respect the open files -/
theorem phased_openFiles {lockedPoint : Phase HandlerPoint → LockedPoint}
    {wrap : HandlerPoint → Point}
    (wraps : ∀ phase, (lockedPoint phase).point = phase.point?.elim .idle wrap)
    {skipsUnlock : HandlerPoint → Option HandlerPoint → Prop}
    {moves : Server Thread → HandlerPoint → Server Thread → Option HandlerPoint → Prop}
    {phase : Phase HandlerPoint} {next : Option (Phase HandlerPoint)}
    (held : FilesHeld params broker.sections model)
    (atPoint : broker.workers thread = lockedPoint phase)
    (step : PhaseStep lock? skipsUnlock moves thread broker.server locks phase server' locks' next)
    (moved : ∀ point after, (∀ handle : Nat, (wrap point).file? = some (handle : Int) →
        model.handles handle ≠ none) → moves broker.server point server' after →
      ∃ model', Files params server'.fs model' ∧
        OpenFilesStep model model' (wrap point).file? (after.elim .idle wrap).file?) :
    ∃ model', Files params server'.fs model' ∧
      OpenFilesStep model model' (broker.workers thread).point.file?
        (next.elim .idle lockedPoint).point.file? := by
  have here := wraps phase
  rw [← atPoint] at here
  have there : (next.elim LockedPoint.idle lockedPoint).point =
      (next.bind Phase.point?).elim .idle wrap := by
    cases next with
    | none => rfl
    | some phase => exact wraps phase
  rw [here, there]
  apply step.openFiles held.files
  intro point after atThis moves
  apply moved point after _ moves
  intro handle file
  apply held.held thread handle
  change (broker.workers thread).point.file? = _
  rw [here, atThis]
  exact file

theorem Step.openFiles (step : broker.Step thread broker')
    (held : FilesHeld params broker.sections model) :
    ∃ model', Files params broker'.server.fs model' ∧
      OpenFilesStep model model' (broker.workers thread).point.file?
        (broker'.workers thread).point.file? := by
  have files : Files params broker.server.fs model := held.files
  cases step with
  | dequeue request atIdle =>
      refine ⟨model, files, ?_⟩
      dsimp only
      rw [atIdle, Function.update_self]
      cases request <;> exact .refl _
  | publisher atPoint taken =>
      dsimp only
      rw [Function.update_self]
      exact phased_openFiles (fun _ => rfl) held atPoint taken
        (fun _ _ holds moves => moves.openFiles files holds)
  | subscriber atPoint taken =>
      dsimp only
      rw [Function.update_self]
      exact phased_openFiles (fun _ => rfl) held atPoint taken
        (fun _ _ holds moves => moves.openFiles files holds)
  | create atPoint taken =>
      dsimp only
      rw [Function.update_self]
      exact phased_openFiles (fun _ => rfl) held atPoint taken
        (fun _ _ holds moves => moves.openFiles files holds)
  | @remove _ _ _ next atPoint taken =>
      obtain ⟨model', files', same⟩ := taken.openFiles files
      refine ⟨model', files', ?_⟩
      dsimp only
      rw [atPoint, Function.update_self]
      cases next <;> exact .same (fun _ => Iff.rfl) (fun _ => by rw [same])
  | @list _ server _ next atPoint taken =>
      have same : server = broker.server := by cases taken <;> rfl
      subst same
      refine ⟨model, files, ?_⟩
      dsimp only
      rw [atPoint, Function.update_self]
      cases next <;> exact .refl _

theorem reachable_filesHeld {broker : LockedBroker (Fin params.maxSessions)}
    (reachable : (lockedSystem params).Reachable broker) :
    ∃ model, FilesHeld params broker.sections model := by
  apply reachable.preserves
  · rintro start ⟨started, _, idle⟩
    refine ⟨_, started.filesHeld ?_ rfl⟩
    intro thread
    change (start.workers thread).point = .idle
    rw [idle thread]
    rfl
  · rintro thread before after ⟨model, held⟩ step
    obtain ⟨model', files', change⟩ := step.openFiles held
    refine ⟨model', held.change files' change ?_⟩
    intro other different
    change (after.workers other).point.file? = (before.workers other).point.file?
    rw [step.others different]

end LockedBroker

/-! ### Locks -/

/-- A subscriber that registers finds the file of its box still there. -/
def FindsFile (broker : LockedBroker Thread) (thread : Thread) : Prop :=
  ∀ box, broker.workers thread = .subscriber (.inside (.register box)) →
    broker.server.HasFile box.boxName

/-- The locks of a worker change as its points say, unless a subscriber leaves past the
unlocking. -/
theorem LockedBroker.Step.change (step : broker.Step thread broker') :
    broker.locks.Change thread (broker.workers thread).held broker'.locks
        (broker'.workers thread).held ∨
      ∃ point after, broker.workers thread = .subscriber (.inside point) ∧
        SubscriberStep thread broker.server point broker'.server after ∧
        point.SkipsUnlock after ∧ broker'.locks = broker.locks ∧
        (broker'.workers thread).held = [] := by
  have elim_held {P : Type} {lockedPoint : P → LockedPoint}
      {heldAt : P → List (BoxLock × LockMode)}
      (holds : ∀ point, (lockedPoint point).held = heldAt point) (next : Option P) :
      (next.elim LockedPoint.idle lockedPoint).held = next.elim [] heldAt := by
    cases next with
    | none => rfl
    | some point => exact holds point
  cases step with
  | dequeue request atIdle =>
      dsimp only
      rw [atIdle, Function.update_self]
      apply Or.inl
      cases request <;> exact .same (fun _ => Iff.rfl)
  | publisher atPoint taken =>
      dsimp only
      rw [atPoint, Function.update_self, elim_held (fun _ => rfl)]
      rcases taken.change with changed | ⟨_, _, _, _, impossible, _⟩
      · exact Or.inl changed
      · exact impossible.elim
  | subscriber atPoint taken =>
      dsimp only
      rw [atPoint, Function.update_self, elim_held (fun _ => rfl)]
      rcases taken.change with changed | ⟨point, after, inside, moves, skips, same, nothing⟩
      · exact Or.inl changed
      · exact Or.inr ⟨point, after, by rw [inside], moves, skips, same, nothing⟩
  | create atPoint taken =>
      dsimp only
      rw [atPoint, Function.update_self, elim_held (fun _ => rfl)]
      rcases taken.change with changed | ⟨_, _, _, _, impossible, _⟩
      · exact Or.inl changed
      · exact impossible.elim
  | remove atPoint taken =>
      dsimp only
      rw [atPoint, Function.update_self, elim_held (fun _ => rfl)]
      exact Or.inl taken.change
  | list atPoint taken =>
      dsimp only
      rw [atPoint, Function.update_self, elim_held (fun _ => rfl)]
      exact Or.inl taken.change

theorem FindsFile.change {broker broker' : LockedBroker (Fin params.maxSessions)}
    {thread : Fin params.maxSessions} (finds : FindsFile broker thread)
    (step : broker.Step thread broker') (held : FilesHeld params broker.sections model) :
    broker.locks.Change thread (broker.workers thread).held broker'.locks
      (broker'.workers thread).held := by
  rcases step.change with changed | ⟨point, after, atPoint, moves, skips, _⟩
  · exact changed
  · exfalso
    refine moves.unlocks held.files ?_ skips
    intro box registers
    subst registers
    have without : (broker.workers thread).point.file? = none := by
      rw [atPoint]
      rfl
    have room := @FilesHeld.handle_free _ _ _ held thread without
    exact ⟨finds box atPoint, room⟩

/-- The points of the workers say which locks they hold, and no lock is held twice. -/
structure LocksKept (broker : LockedBroker Thread) : Prop where
  holds : broker.locks.Matches (fun thread => (broker.workers thread).held)
  safe : broker.locks.Safe

/-- In every run the locks at the point of a worker are its own. -/
structure LocksBacked (broker : LockedBroker Thread) : Prop where
  backs : broker.locks.Backs (fun thread => (broker.workers thread).held)
  safe : broker.locks.Safe

theorem LocksBacked.step (backed : LocksBacked broker) (step : broker.Step thread broker') :
    LocksBacked broker' := by
  rcases step.change with changed | ⟨_, _, _, _, _, same, nothing⟩
  · constructor
    · apply backed.backs.change changed
      intro other different
      rw [step.others different]
    · exact backed.safe.change changed
  · constructor
    · intro other lock mode inside
      dsimp only at inside
      by_cases moved : other = thread
      · rw [moved, nothing] at inside
        cases inside
      · rw [step.others moved] at inside
        rw [same]
        exact backed.backs other lock mode inside
    · rw [same]
      exact backed.safe

theorem LockedBroker.reachable_locksBacked {broker : LockedBroker (Fin params.maxSessions)}
    (reachable : (lockedSystem params).Reachable broker) : LocksBacked broker := by
  apply reachable.preserves
  · rintro start ⟨_, unlocked, idle⟩
    constructor
    · rw [unlocked]
      apply LockTable.Backs.empty
      intro thread
      rw [idle thread]
      rfl
    · rw [unlocked]
      exact .empty
  · intro thread before after backed step
    exact backed.step step

/-- The broker whose subscribers find their files -/
def findsFileSystem (params : MbrokerParams) :
    ThreadSystem (Fin params.maxSessions) (LockedBroker (Fin params.maxSessions)) :=
  (lockedSystem params).restrict (fun thread broker _ => FindsFile broker thread)

theorem LockedBroker.reachable_locksKept {broker : LockedBroker (Fin params.maxSessions)}
    (reachable : (findsFileSystem params).Reachable broker) : LocksKept broker := by
  have files : ∀ broker, (findsFileSystem params).Reachable broker →
      ∃ model, FilesHeld params broker.sections model :=
    fun _ reachable => LockedBroker.reachable_filesHeld reachable.of_restrict
  refine reachable.preserves_with files ?_ ?_
  · rintro start ⟨_, unlocked, idle⟩
    constructor
    · rw [unlocked]
      apply LockTable.Matches.empty
      intro thread
      rw [idle thread]
      rfl
    · rw [unlocked]
      exact .empty
  · rintro thread before after ⟨model, held⟩ kept ⟨step, finds⟩
    have changed := finds.change step held
    constructor
    · apply kept.holds.change changed
      intro other different
      rw [step.others different]
    · exact kept.safe.change changed

/-! ### Waiting -/

def LockedBroker.Holds (broker : LockedBroker Thread) (thread : Thread) (lock : BoxLock) : Prop :=
  ∃ mode, broker.locks thread lock = some mode

/-- The worker is stopped at a lock that others hold. -/
def LockedBroker.Waits (broker : LockedBroker Thread) (thread : Thread) (lock : BoxLock) : Prop :=
  ∃ mode, (broker.workers thread).wants? = some (lock, mode) ∧ ¬ broker.locks.Available lock mode

/-- A worker in `pcq_dequeue` holds no lock, a lock that a worker waits for is held by one
that is still in its handler, and no workers wait for each other. -/
structure LeavesNoLock (broker : LockedBroker Thread) : Prop where
  idle : ∀ thread, broker.workers thread = .idle → ∀ lock, ¬ broker.Holds thread lock
  holder : ∀ thread lock, broker.Waits thread lock →
    ∃ holder, broker.Holds holder lock ∧ broker.workers holder ≠ .idle
  deadlockFree : ∀ threads, LockOrder.Deadlocked broker.Holds broker.Waits threads → threads = ∅

omit [DecidableEq Thread] in
theorem LocksKept.leavesNoLock (kept : LocksKept broker) : LeavesNoLock broker := by
  have idle : ∀ thread, broker.workers thread = .idle → ∀ lock, ¬ broker.Holds thread lock := by
    rintro thread atIdle lock ⟨mode, holds⟩
    have inside := (kept.holds thread lock mode).mp holds
    dsimp only at inside
    rw [atIdle] at inside
    cases inside
  refine ⟨idle, ?_, ?_⟩
  · rintro thread lock ⟨mode, _, unavailable⟩
    obtain ⟨holder, held, holds⟩ := LockTable.exists_holder unavailable
    exact ⟨holder, ⟨held, holds⟩, fun atIdle => idle holder atIdle lock ⟨held, holds⟩⟩
  · intro threads deadlocked
    have ordered : LockOrder.Climbs BoxLock.rank broker.Holds broker.Waits := by
      rintro thread held lock ⟨heldMode, holds⟩ ⟨mode, wants, _⟩
      exact LockedPoint.climbs ((kept.holds thread held heldMode).mp holds) wants
    refine deadlocked.empty ordered (show ∀ lock, BoxLock.rank lock ≤ 1 from ?_)
    intro lock
    cases lock with
    | freeBoxes => exact Nat.zero_le 1
    | box _ => exact Nat.le_refl 1

/-- In every run whose subscribers find their files, no worker leaves a request with a
lock. -/
theorem leaves_no_lock {broker : LockedBroker (Fin params.maxSessions)}
    (reachable : (findsFileSystem params).Reachable broker) : LeavesNoLock broker :=
  (LockedBroker.reachable_locksKept reachable).leavesNoLock

/-- A worker lists the boxes under the read lock. -/
theorem leaves_no_lock_listing :
    ∃ broker : LockedBroker (Fin twoSessions.maxSessions), broker.Holds workerA .freeBoxes ∧
      LeavesNoLock broker := by
  obtain ⟨fs, _, started⟩ := exists_started (fun _ => ⟨boxA, 0, 0, 0⟩)
  have start : (findsFileSystem twoSessions).Reachable
      ⟨initialServer fs (fun _ => ⟨boxA, 0, 0, 0⟩), .empty, fun _ => .idle, fun _ => 0⟩ :=
    .initial ⟨started, rfl, fun _ => rfl⟩
  have finds {broker : LockedBroker (Fin twoSessions.maxSessions)} (point : LockedPoint)
      (atPoint : broker.workers workerA = point)
      (other : ∀ box, point ≠ .subscriber (.inside (.register box))) :
      FindsFile broker workerA := by
    intro box registers
    rw [atPoint] at registers
    exact (other box registers).elim
  have requested := start.step ⟨.dequeue .listRequest rfl,
    finds .idle rfl (fun _ impossible => by cases impossible)⟩
  have opened := requested.step ⟨.list (Function.update_self _ _ _) .pipeOpens,
    finds (.list .openPipe) (by simp [LockedRequest.start])
      (fun _ impossible => by cases impossible)⟩
  have listing := opened.step
    ⟨.list (Function.update_self _ _ _) (.locksTable (LockTable.empty_available _ _)),
      finds (.list .lockTable) (by simp)
        (fun _ impossible => by cases impossible)⟩
  refine ⟨_, ⟨.shared, ?_⟩, leaves_no_lock listing⟩
  change LockTable.acquire LockTable.empty workerA BoxLock.freeBoxes .shared workerA .freeBoxes = _
  rw [LockTable.acquire, LockTable.set_self, Function.update_self]

/-- The box of a subscriber is removed before it registers; it returns with the mutex. -/
theorem leaves_no_lock_removed :
    ∃ broker, (lockedSystem twoSessions).Reachable broker ∧ ¬ LeavesNoLock broker := by
  have small : twoSessions.maxSessions < 2 ^ 31 := by decide
  have different : workerB ≠ workerA := by decide
  have allowed {broker : Broker (Fin twoSessions.maxSessions)}
      {thread : Fin twoSessions.maxSessions} {server : Server (Fin twoSessions.maxSessions)}
      {point : Point} (other : ∀ box, point ≠ .subscriber (.register box)) :
      (broker.goto thread server point).FindsFile thread := by
    intro box registers
    rw [Broker.goto_self] at registers
    exact (other box registers).elim
  obtain ⟨fs, id, files, created⟩ := exists_firstBox .sections (fun _ => ⟨boxA, 0, 0, 0⟩)
    boxA_short workerA (fun thread broker _ => broker.FindsFile thread) (by
      intro before after first box registers
      rcases first.creates with idle | ⟨_, creates⟩
      · rw [idle] at registers
        cases registers
      · rw [creates] at registers
        cases registers)
  generalize atCreated : (firstBoxServer fs (fun _ => ⟨boxA, 0, 0, 0⟩) (rootPath boxA) :
    Server (Fin twoSessions.maxSessions)) = server at created
  have found : server.boxFind (rootPath boxA) = some 0 := by
    rw [← atCreated]
    exact boxFind_first files (firstBoxServer_isTaken _ _ _) rfl
  -- The subscriber finds the box.
  have requested := Broker.reaches_request created (.subRegister boxA)
    (fun _ => allowed (fun _ impossible => by cases impossible))
  have connected := Broker.reaches_subscriber requested .pipeOpens
    (fun _ => allowed (fun _ impossible => by cases impossible))
  have registering := Broker.reaches_subscriber connected (.found found)
    (fun _ => allowed (fun _ impossible => by cases impossible))
  generalize atRegister : ((initialBroker fs (fun _ => ⟨boxA, 0, 0, 0⟩)).goto workerA server
    ((some (SubscriberPoint.register (server.foundBox (rootPath boxA) 0))).elim .idle
      .subscriber)) = broker at registering
  have pointA : broker.workers workerA =
      .subscriber (.register (server.foundBox (rootPath boxA) 0)) := by
    rw [← atRegister]
    exact Broker.goto_self _ _ _ _
  have idleB : broker.workers workerB = .idle := by
    rw [← atRegister]
    exact Broker.goto_other _ _ _ different
  have serverNow : broker.server = server := by
    rw [← atRegister]
    rfl
  have unlocked (boxI : Nat) : server.Unlocked boxI := by
    rw [← atCreated]
    rfl
  have filesNow : Files twoSessions server.fs (oneFile boxA id) := by
    rw [← atCreated]
    exact files
  -- The other worker removes it.
  rw [← broker.goto_same workerB idleB, serverNow] at registering
  obtain ⟨result1, fs1, returned1⟩ := filesNow.returns small (.unlinks (rootPath boxA))
  have removing := Broker.reaches_request registering (.removeRequest boxA)
    (fun _ => allowed (fun _ impossible => by cases impossible))
  have deleted := Broker.reaches_remove removing (.deletes found (unlocked 0))
    (fun _ => allowed (fun _ impossible => by cases impossible))
  have unlinked := Broker.reaches_remove deleted (.unlinks returned1)
    (fun _ => allowed (fun _ impossible => by cases impossible))
  have removed := Broker.reaches_remove unlinked .answers
    (fun _ => allowed (fun _ impossible => by cases impossible))
  obtain ⟨model, files1, missing⟩ : ∃ model, Files twoSessions fs1 model ∧
      model.names (rootPath boxA).tail = none := by
    rcases filesNow.unlinks returned1 with ⟨absent, _, files1⟩ | ⟨_, _, _, _, files1⟩
    · rcases absent with invalid | missing
      · exact (invalid (rootPath_valid boxA_short)).elim
      · exact ⟨_, files1, missing⟩
    · refine ⟨_, files1, ?_⟩
      rw [collect_names]
      exact Function.update_self boxA none (oneFile boxA id).names
  obtain ⟨result2, fs2, returned2⟩ := files1.returns small (.opens (rootPath boxA) false false)
  obtain ⟨failed, _⟩ := files1.opensAbsent (Or.inr missing) returned2
  -- The subscriber locks the mutex of the box and finds no file.
  obtain ⟨counted, reached⟩ := Broker.reachable_locked removed
  have lockingA (server' : Server (Fin twoSessions.maxSessions)) (point : Point) :
      ((broker.goto workerB server' point).locked counted).workers workerA =
        .subscriber (.locking (.register (server.foundBox (rootPath boxA) 0))) := by
    change ((broker.goto workerB server' point).workers workerA).locked = _
    rw [Broker.goto_other _ _ _ (Ne.symm different), pointA]
    rfl
  have locked := reached.step (.subscriber (lockingA _ _)
    (.locks rfl (LockTable.empty_available _ _)))
  have returned := locked.step (.subscriber (Function.update_self _ _ _)
    (.skips (.openFails (unlocked 0) returned2 (by omega)) trivial))
  refine ⟨_, returned, ?_⟩
  intro leaves
  apply leaves.idle workerA (by simp) (.box 0)
  refine ⟨.exclusive, ?_⟩
  change LockTable.acquire LockTable.empty workerA (BoxLock.box 0) .exclusive workerA (.box 0) = _
  rw [LockTable.acquire, LockTable.set_self, Function.update_self]

end TecnicoFS.Mbroker
