/-
No wake-up of the queue is lost and its threads do not deadlock.

A thread serves a condition variable when it is about to signal it, or is awake and about
to use what its waiters wait for.  While a thread waits, or has decided to, at least as many
threads serve its condition variable as there are elements, or free places, to be had.
-/

import TecnicoFS.Library.LockOrder
import TecnicoFS.Library.SlotCounters
import TecnicoFS.Queue.Linearizability

set_option autoImplicit false

namespace TecnicoFS.Queue

open CircularBuffer SlotCounters

/-! ### Tables of the points -/

def EnqueuePoint.serves : EnqueuePoint → Option Condvar
  | .lockPusherCondvar | .lockCurrentSize | .testFull | .woken | .lockTail | .store
  | .advanceTail | .unlockTail | .grow => some .pusherCondvar
  | .unlockCurrentSize | .unlockPusherCondvar | .lockPopperCondvar | .signal =>
      some .popperCondvar
  | .unlockFullSize | .wait | .asleep | .unlockPopperCondvar | .finish => none

def DequeuePoint.serves : DequeuePoint → Option Condvar
  | .lockPopperCondvar | .lockCurrentSize | .testEmpty | .woken | .lockHead | .load
  | .advanceHead | .unlockHead | .shrink => some .popperCondvar
  | .unlockCurrentSize | .unlockPopperCondvar | .lockPusherCondvar | .signal =>
      some .pusherCondvar
  | .unlockEmptySize | .wait | .asleep | .unlockPusherCondvar | .finish => none

/-- The condition variable a thread at the point serves -/
def Point.serves : Point → Option Condvar
  | .idle => none
  | .enqueue point => point.serves
  | .dequeue point => point.serves

/-- The condition variable a thread at the point waits for or is going to wait for -/
def Point.blocksOn : Point → Option Condvar
  | .enqueue .unlockFullSize | .enqueue .wait | .enqueue .asleep => some .pusherCondvar
  | .dequeue .unlockEmptySize | .dequeue .wait | .dequeue .asleep => some .popperCondvar
  | _ => none

/-- An operation on a mutex, or the start of a wait -/
theorem Point.code_serves {point next : Point} {instruction : Instruction}
    (code : point.code = some (instruction, next))
    (silent : ∀ condvar, instruction ≠ .signal condvar) :
    next.serves = point.serves ∧ next.blocksOn = point.blocksOn := by
  cases point with
  | idle => cases code
  | enqueue point =>
      cases point <;> simp [Point.code, EnqueuePoint.code] at code
      case signal => exact (silent _ code.1.symm).elim
      all_goals
        obtain ⟨_, rfl⟩ := code
        exact ⟨rfl, rfl⟩
  | dequeue point =>
      cases point <;> simp [Point.code, DequeuePoint.code] at code
      case signal => exact (silent _ code.1.symm).elim
      all_goals
        obtain ⟨_, rfl⟩ := code
        exact ⟨rfl, rfl⟩

/-- Where a signal is sent -/
theorem Point.signal_serves {point next : Point} {condvar : Condvar}
    (code : point.code = some (.signal condvar, next)) :
    point.serves = some condvar ∧ next.serves = none ∧ next.blocksOn = none ∧
      condvar.lock ∈ point.holds := by
  cases point with
  | idle => cases code
  | enqueue point =>
      cases point <;> simp [Point.code, EnqueuePoint.code] at code
      obtain ⟨rfl, rfl⟩ := code
      decide
  | dequeue point =>
      cases point <;> simp [Point.code, DequeuePoint.code] at code
      obtain ⟨rfl, rfl⟩ := code
      decide

theorem Condvar.asleep_serves (condvar : Condvar) :
    condvar.asleep.serves = none ∧ condvar.asleep.blocksOn = some condvar ∧
      condvar.woken.serves = some condvar ∧ condvar.woken.blocksOn = none := by
  cases condvar <;> decide

/-- A thread that is going to wait and does not sleep yet still holds the mutex. -/
theorem Point.blocksOn_holds {point : Point} {condvar : Condvar}
    (blocks : point.blocksOn = some condvar) :
    point = condvar.asleep ∨ condvar.lock ∈ point.holds := by
  cases point with
  | idle => cases blocks
  | enqueue point =>
      cases point <;> cases blocks <;> decide
  | dequeue point =>
      cases point <;> cases blocks <;> decide

def Mutex.rank : Mutex → Nat
  | .pusherCondvarLock | .popperCondvarLock => 0
  | .currentSizeLock => 1
  | .headLock | .tailLock => 2

/-- The mutexes are taken in the order of their ranks. -/
theorem Point.lock_climbs {point next : Point} {mutex : Mutex}
    (code : point.code = some (.lock mutex, next)) (held : Mutex) (holds : held ∈ point.holds) :
    held.rank < mutex.rank := by
  cases point with
  | idle => cases code
  | enqueue point =>
      cases point <;> simp [Point.code, EnqueuePoint.code] at code
      all_goals
        obtain ⟨rfl, _⟩ := code
        revert held
        decide
  | dequeue point =>
      cases point <;> simp [Point.code, DequeuePoint.code] at code
      all_goals
        obtain ⟨rfl, _⟩ := code
        revert held
        decide

/-! ### Waiting threads are served -/

variable {Thread α : Type} [DecidableEq Thread] {queue queue' : PcQueue Thread α}
  {thread : Thread}

/-- What the threads that wait for the condition variable could have -/
def PcQueue.available (queue : PcQueue Thread α) : Condvar → Nat
  | .pusherCondvar => queue.pcqCapacity - queue.pcqCurrentSize
  | .popperCondvar => queue.pcqCurrentSize

/-- The condition variable each thread serves -/
def PcQueue.serving (queue : PcQueue Thread α) (thread : Thread) : Option Condvar :=
  (queue.point thread).serves

/-- What one thread at the point counts for -/
def Point.share (point : Point) (condvar : Condvar) : Nat :=
  if point.serves = some condvar then 1 else 0

variable [Fintype Thread]

/-- While a thread waits for a condition variable, everything available is served. -/
def WaitersServed (queue : PcQueue Thread α) : Prop :=
  ∀ condvar thread, (queue.point thread).blocksOn = some condvar →
    queue.available condvar ≤ countAt queue.serving condvar

theorem PcQueue.serving_goto (queue : PcQueue Thread α) (thread : Thread) (next : Point)
    (condvar : Condvar) :
    countAt (queue.goto thread next).serving condvar + (queue.point thread).share condvar =
      countAt queue.serving condvar + next.share condvar := by
  have moved : (queue.goto thread next).serving =
      Function.update queue.serving thread next.serves := by
    funext other
    unfold PcQueue.serving
    rw [PcQueue.goto_point, Function.update_apply]
    split <;> rfl
  rw [moved]
  exact countAt_update thread next.serves condvar

/-- A thread moves on and what it takes or leaves is balanced by what it serves. -/
theorem WaitersServed.goto (served : WaitersServed queue) {next : Point}
    (points : ∀ other, queue'.point other = queue.point other)
    (balanced : ∀ condvar, queue'.available condvar = 0 ∨
      (next.blocksOn = some condvar → (queue.point thread).blocksOn = some condvar) ∧
      queue'.available condvar + (queue.point thread).share condvar ≤
        queue.available condvar + next.share condvar) :
    WaitersServed (queue'.goto thread next) := by
  intro condvar other blocks
  have counted := queue'.serving_goto thread next condvar
  have same : queue'.serving = queue.serving := by
    funext worker
    unfold PcQueue.serving
    rw [points]
  rw [same, points] at counted
  change queue'.available condvar ≤ _
  rcases balanced condvar with nothing | ⟨blocked, balance⟩
  · omega
  · have before : queue.available condvar ≤ countAt queue.serving condvar := by
      rw [PcQueue.goto_point] at blocks
      by_cases moved : other = thread
      · rw [if_pos moved] at blocks
        exact served condvar thread (blocked blocks)
      · rw [if_neg moved, points] at blocks
        exact served condvar other blocks
    omega

/-- A thread that serves and blocks as before -/
theorem WaitersServed.control (served : WaitersServed queue) {next : Point}
    (points : ∀ other, queue'.point other = queue.point other)
    (same : ∀ condvar, queue'.available condvar = queue.available condvar)
    (serves : next.serves = (queue.point thread).serves)
    (blocks : next.blocksOn = (queue.point thread).blocksOn) :
    WaitersServed (queue'.goto thread next) := by
  apply served.goto points
  intro condvar
  refine Or.inr ⟨fun blocked => blocks.symm.trans blocked, ?_⟩
  unfold Point.share
  rw [same, serves]

/-- A call that starts serves the condition variable it may wait for. -/
theorem WaitersServed.starts (served : WaitersServed queue) {next : Point}
    (points : ∀ other, queue'.point other = queue.point other)
    (same : ∀ condvar, queue'.available condvar = queue.available condvar)
    (atPoint : queue.point thread = .idle) (blocks : next.blocksOn = none) :
    WaitersServed (queue'.goto thread next) := by
  apply served.goto points
  intro condvar
  refine Or.inr ⟨fun blocked => ?_, ?_⟩
  · rw [blocks] at blocked
    cases blocked
  · have nothing : (queue.point thread).share condvar = 0 := by
      rw [atPoint]
      rfl
    rw [same, nothing]
    exact Nat.le_add_right _ _

/-- A sleeping thread is woken. -/
theorem WaitersServed.wakes (served : WaitersServed queue) {condvar : Condvar}
    (asleep : queue.point thread = condvar.asleep) :
    WaitersServed (queue.goto thread condvar.woken) := by
  obtain ⟨idle, _, _, awake⟩ := condvar.asleep_serves
  apply served.goto (fun _ => rfl)
  intro other
  refine Or.inr ⟨fun blocked => ?_, ?_⟩
  · rw [awake] at blocked
    cases blocked
  · have nothing : (queue.point thread).share other = 0 := by
      unfold Point.share
      rw [asleep, idle]
      rfl
    rw [nothing]
    exact Nat.le_add_right _ _

/-- A signal that wakes a thread: the woken thread serves in place of the one that sent it. -/
theorem WaitersServed.signals (served : WaitersServed queue) {condvar : Condvar} {next : Point}
    {sleeper : Thread} (code : (queue.point thread).code = some (.signal condvar, next))
    (asleep : queue.point sleeper = condvar.asleep) :
    WaitersServed ((queue.goto sleeper condvar.woken).goto thread next) := by
  obtain ⟨serves, rests, awake, _⟩ := Point.signal_serves code
  obtain ⟨idle, blockedOn, wokenServes, wokenAwake⟩ := condvar.asleep_serves
  have different : thread ≠ sleeper := by
    intro same
    rw [same, asleep, idle] at serves
    cases serves
  intro other waiter blocks
  have woken := queue.serving_goto sleeper condvar.woken other
  have sent := (queue.goto sleeper condvar.woken).serving_goto thread next other
  rw [PcQueue.goto_point, if_neg different] at sent
  have shares : (queue.point thread).share other = condvar.woken.share other ∧
      (queue.point sleeper).share other = 0 ∧ next.share other = 0 := by
    unfold Point.share
    rw [serves, wokenServes, asleep, idle, rests]
    exact ⟨rfl, rfl, rfl⟩
  have before : queue.available other ≤ countAt queue.serving other := by
    rw [PcQueue.goto_point] at blocks
    by_cases moved : waiter = thread
    · rw [if_pos moved, awake] at blocks
      cases blocks
    · rw [if_neg moved, PcQueue.goto_point] at blocks
      by_cases slept : waiter = sleeper
      · rw [if_pos slept, wokenAwake] at blocks
        cases blocks
      · rw [if_neg slept] at blocks
        exact served other waiter blocks
  change queue.available other ≤ _
  omega

/-- A signal nobody waits for: the mutex keeps out those that are going to wait. -/
theorem WaitersServed.signalLost (served : WaitersServed queue) (locks : LocksOk queue)
    {condvar : Condvar} {next : Point}
    (code : (queue.point thread).code = some (.signal condvar, next))
    (nobody : ∀ sleeper, queue.point sleeper ≠ condvar.asleep) :
    WaitersServed (queue.goto thread next) := by
  obtain ⟨serves, rests, awake, holds⟩ := Point.signal_serves code
  intro other waiter blocks
  have moved : waiter ≠ thread := by
    intro same
    rw [same, PcQueue.goto_point_self, awake] at blocks
    cases blocks
  rw [PcQueue.goto_point, if_neg moved] at blocks
  have different : other ≠ condvar := by
    intro same
    subst same
    rcases Point.blocksOn_holds blocks with asleep | waiting
    · exact nobody waiter asleep
    · have owners := ((locks _ waiter).mpr waiting).symm.trans ((locks _ thread).mpr holds)
      exact moved (Option.some.inj owners)
  have counted := queue.serving_goto thread next other
  have shares : (queue.point thread).share other = 0 := by
    unfold Point.share
    rw [serves, if_neg]
    intro impossible
    exact different (Option.some.inj impossible).symm
  have before := served other waiter blocks
  change queue.available other ≤ _
  omega

theorem WaitersServed.step (served : WaitersServed queue) (locks : LocksOk queue)
    (step : queue.Step thread queue') : WaitersServed queue' := by
  cases step with
  | callEnqueue elem atPoint =>
      refine served.starts (fun other => PcQueue.setElem_point _ _ _) (fun condvar => ?_)
        atPoint rfl
      cases condvar <;> rfl
  | callDequeue atPoint => exact served.starts (fun _ => rfl) (fun _ => rfl) atPoint rfl
  | lock code _ =>
      obtain ⟨serves, blocks⟩ := Point.code_serves code (fun _ other => by cases other)
      refine served.control (fun _ => rfl) (fun condvar => ?_) serves blocks
      cases condvar <;> rfl
  | unlock code =>
      obtain ⟨serves, blocks⟩ := Point.code_serves code (fun _ other => by cases other)
      refine served.control (fun _ => rfl) (fun condvar => ?_) serves blocks
      cases condvar <;> rfl
  | wait code =>
      obtain ⟨serves, blocks⟩ := Point.code_serves code (fun _ other => by cases other)
      refine served.control (fun _ => rfl) (fun condvar => ?_) serves blocks
      cases condvar <;> rfl
  | signal code asleep => exact served.signals code asleep
  | signalLost code nobody => exact served.signalLost locks code nobody
  | full atPoint full =>
      apply served.goto (fun _ => rfl)
      intro condvar
      rw [atPoint]
      cases condvar with
      | pusherCondvar =>
          refine Or.inl ?_
          change queue.pcqCapacity - queue.pcqCurrentSize = 0
          omega
      | popperCondvar => exact Or.inr ⟨(fun blocked => by cases blocked), Nat.le_refl _⟩
  | empty atPoint empty =>
      apply served.goto (fun _ => rfl)
      intro condvar
      rw [atPoint]
      cases condvar with
      | pusherCondvar => exact Or.inr ⟨(fun blocked => by cases blocked), Nat.le_refl _⟩
      | popperCondvar => exact Or.inl empty
  | grow atPoint =>
      refine served.goto (fun _ => rfl) ?_
      intro condvar
      rw [atPoint]
      cases condvar with
      | pusherCondvar =>
          change queue.pcqCapacity - (queue.pcqCurrentSize + 1) = 0 ∨ (_ ∧
            queue.pcqCapacity - (queue.pcqCurrentSize + 1) + 1 ≤
              queue.pcqCapacity - queue.pcqCurrentSize + 0)
          by_cases room : queue.pcqCurrentSize < queue.pcqCapacity
          · exact Or.inr ⟨(fun blocked => by cases blocked), by omega⟩
          · exact Or.inl (by omega)
      | popperCondvar => exact Or.inr ⟨(fun blocked => by cases blocked), Nat.le_refl _⟩
  | shrink atPoint =>
      refine served.goto (fun _ => rfl) ?_
      intro condvar
      rw [atPoint]
      cases condvar with
      | pusherCondvar =>
          refine Or.inr ⟨(fun blocked => by cases blocked), ?_⟩
          change queue.pcqCapacity - (queue.pcqCurrentSize - 1) + 0 ≤
            queue.pcqCapacity - queue.pcqCurrentSize + 1
          omega
      | popperCondvar =>
          change queue.pcqCurrentSize - 1 = 0 ∨ (_ ∧
            queue.pcqCurrentSize - 1 + 1 ≤ queue.pcqCurrentSize + 0)
          by_cases filled : 0 < queue.pcqCurrentSize
          · exact Or.inr ⟨(fun blocked => by cases blocked), by omega⟩
          · exact Or.inl (by omega)
  | notFull atPoint _ =>
      exact served.control (fun _ => rfl) (fun _ => rfl) (by rw [atPoint]; rfl)
        (by rw [atPoint]; rfl)
  | store atPoint =>
      refine served.control (fun _ => rfl) (fun condvar => ?_) (by rw [atPoint]; rfl)
        (by rw [atPoint]; rfl)
      cases condvar <;> rfl
  | advanceTail atPoint =>
      refine served.control (fun _ => rfl) (fun condvar => ?_) (by rw [atPoint]; rfl)
        (by rw [atPoint]; rfl)
      cases condvar <;> rfl
  | finishEnqueue atPoint =>
      refine served.control (fun _ => rfl) (fun condvar => ?_) (by rw [atPoint]; rfl)
        (by rw [atPoint]; rfl)
      cases condvar <;> rfl
  | notEmpty atPoint _ =>
      exact served.control (fun _ => rfl) (fun _ => rfl) (by rw [atPoint]; rfl)
        (by rw [atPoint]; rfl)
  | load atPoint =>
      refine served.control (fun other => PcQueue.setElem_point _ _ _) (fun condvar => ?_)
        (by rw [atPoint]; rfl) (by rw [atPoint]; rfl)
      cases condvar <;> rfl
  | advanceHead atPoint =>
      refine served.control (fun _ => rfl) (fun condvar => ?_) (by rw [atPoint]; rfl)
        (by rw [atPoint]; rfl)
      cases condvar <;> rfl
  | finishDequeue atPoint =>
      refine served.control (fun _ => rfl) (fun condvar => ?_) (by rw [atPoint]; rfl)
        (by rw [atPoint]; rfl)
      cases condvar <;> rfl

omit [Fintype Thread] in
/-- A thread inside a call that neither sleeps nor waits for a mutex can go on. -/
theorem PcQueue.exists_step (calling : queue.point thread ≠ .idle)
    (awake : ∀ condvar, queue.point thread ≠ Condvar.asleep condvar)
    (free : ∀ mutex next, (queue.point thread).code = some (.lock mutex, next) →
      queue.owner mutex = none) : ∃ queue', queue.Step thread queue' := by
  cases code : (queue.point thread).code with
  | some both =>
      obtain ⟨instruction, next⟩ := both
      cases instruction with
      | lock mutex => exact ⟨_, .lock code (free mutex next code)⟩
      | unlock mutex => exact ⟨_, .unlock code⟩
      | wait condvar => exact ⟨_, .wait code⟩
      | signal condvar =>
          by_cases waited : ∃ sleeper, queue.point sleeper = condvar.asleep
          · obtain ⟨sleeper, asleep⟩ := waited
            exact ⟨_, .signal code asleep⟩
          · exact ⟨_, .signalLost code (fun sleeper asleep => waited ⟨sleeper, asleep⟩)⟩
  | none =>
      cases atPoint : queue.point thread with
      | idle => exact (calling atPoint).elim
      | enqueue point =>
          rw [atPoint] at code
          cases point with
          | testFull =>
              by_cases full : queue.pcqCurrentSize = queue.pcqCapacity
              · exact ⟨_, .full atPoint full⟩
              · exact ⟨_, .notFull atPoint full⟩
          | asleep => exact (awake .pusherCondvar atPoint).elim
          | store => exact ⟨_, .store atPoint⟩
          | advanceTail => exact ⟨_, .advanceTail atPoint⟩
          | grow => exact ⟨_, .grow atPoint⟩
          | finish => exact ⟨_, .finishEnqueue atPoint⟩
          | _ => cases code
      | dequeue point =>
          rw [atPoint] at code
          cases point with
          | testEmpty =>
              by_cases empty : queue.pcqCurrentSize = 0
              · exact ⟨_, .empty atPoint empty⟩
              · exact ⟨_, .notEmpty atPoint empty⟩
          | asleep => exact (awake .popperCondvar atPoint).elim
          | load => exact ⟨_, .load atPoint⟩
          | advanceHead => exact ⟨_, .advanceHead atPoint⟩
          | shrink => exact ⟨_, .shrink atPoint⟩
          | finish => exact ⟨_, .finishDequeue atPoint⟩
          | _ => cases code

/-- No thread inside a call can take a step other than a spurious wake-up. -/
def PcQueue.Stuck (queue : PcQueue Thread α) : Prop :=
  ∀ thread, queue.point thread ≠ .idle → ∀ queue', ¬ queue.Step thread queue'

omit [Fintype Thread] in
/-- In a stuck queue a thread that holds a mutex waits for another one. -/
theorem PcQueue.Stuck.waits (stuck : queue.Stuck) {held : Mutex}
    (holds : held ∈ (queue.point thread).holds) :
    ∃ mutex next, (queue.point thread).code = some (.lock mutex, next) ∧
      ∃ owner, queue.owner mutex = some owner := by
  by_contra unblocked
  have calling : queue.point thread ≠ .idle := by
    intro idle
    rw [idle] at holds
    cases holds
  have awake (condvar : Condvar) : queue.point thread ≠ condvar.asleep := by
    intro asleep
    rw [asleep, condvar.asleep_facts.1] at holds
    cases holds
  obtain ⟨queue', step⟩ := queue.exists_step calling awake (by
    intro mutex next code
    cases owned : queue.owner mutex with
    | none => rfl
    | some owner => exact (unblocked ⟨mutex, next, code, owner, owned⟩).elim)
  exact stuck thread calling queue' step

/-- The thread is at a point that holds the mutex. -/
def PcQueue.Holds (queue : PcQueue Thread α) (thread : Thread) (mutex : Mutex) : Prop :=
  mutex ∈ (queue.point thread).holds

/-- The thread is about to lock the mutex. -/
def PcQueue.WaitsFor (queue : PcQueue Thread α) (thread : Thread) (mutex : Mutex) : Prop :=
  ∃ next, (queue.point thread).code = some (.lock mutex, next)

omit [DecidableEq Thread] [Fintype Thread] in
theorem PcQueue.climbs (queue : PcQueue Thread α) :
    LockOrder.Climbs Mutex.rank queue.Holds queue.WaitsFor := by
  intro thread held wanted holds waiting
  obtain ⟨next, code⟩ := waiting
  exact Point.lock_climbs code held holds

omit [Fintype Thread] in
/-- Nobody holds a mutex of a stuck queue. -/
theorem PcQueue.Stuck.unowned (stuck : queue.Stuck) (locks : LocksOk queue) (mutex : Mutex) :
    queue.owner mutex = none := by
  have deadlocked : LockOrder.Deadlocked queue.Holds queue.WaitsFor
      (fun thread => ∃ held, queue.Holds thread held) := by
    intro thread member
    obtain ⟨held, holds⟩ := member
    obtain ⟨wanted, next, code, owner, owned⟩ := stuck.waits holds
    have holder := (locks wanted owner).mp owned
    exact ⟨wanted, ⟨next, code⟩, owner, ⟨wanted, holder⟩, holder⟩
  have bounded (lock : Mutex) : lock.rank ≤ 2 := by
    cases lock <;> decide
  have nobody := deadlocked.empty queue.climbs bounded
  cases owned : queue.owner mutex with
  | none => rfl
  | some owner =>
      have member : ∃ held, queue.Holds owner held := ⟨mutex, (locks mutex owner).mp owned⟩
      exact (Set.eq_empty_iff_forall_notMem.mp nobody owner member).elim

omit [Fintype Thread] in
/-- Every thread of a stuck queue is idle or asleep. -/
theorem PcQueue.Stuck.asleep (stuck : queue.Stuck) (locks : LocksOk queue)
    (calling : queue.point thread ≠ .idle) :
    ∃ condvar, queue.point thread = Condvar.asleep condvar := by
  by_contra awake
  obtain ⟨queue', step⟩ := queue.exists_step calling
    (fun condvar asleep => awake ⟨condvar, asleep⟩) (fun mutex _ _ => stuck.unowned locks mutex)
  exact stuck thread calling queue' step

/-- Nothing is available to the threads that sleep in a stuck queue. -/
theorem PcQueue.Stuck.nothing (stuck : queue.Stuck) (locks : LocksOk queue)
    (served : WaitersServed queue) {condvar : Condvar}
    (asleep : queue.point thread = condvar.asleep) : queue.available condvar = 0 := by
  have nobody : countAt queue.serving condvar = 0 := by
    apply countAt_eq_zero
    intro worker serves
    unfold PcQueue.serving at serves
    by_cases calling : queue.point worker = .idle
    · rw [calling] at serves
      cases serves
    · obtain ⟨other, sleeps⟩ := stuck.asleep locks calling
      rw [sleeps, other.asleep_serves.1] at serves
      cases serves
  have enough := served condvar thread (by rw [asleep, condvar.asleep_serves.2.1])
  omega

end TecnicoFS.Queue
