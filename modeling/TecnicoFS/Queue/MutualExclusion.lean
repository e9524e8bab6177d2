/-
Tables of the points of the queue's threads, and mutual exclusion.

A mutex has the owner whose point holds it.  The phase of a point says how far the
critical section of `pcq_current_size_lock` has come.
-/

import TecnicoFS.Queue.PcQueue

set_option autoImplicit false

namespace TecnicoFS.Queue

open CircularBuffer

/-! ### Tables of the points -/

def EnqueuePoint.holds : EnqueuePoint → List Mutex
  | .lockPusherCondvar | .asleep | .woken | .lockPopperCondvar | .finish => []
  | .lockCurrentSize | .wait | .unlockPusherCondvar => [.pusherCondvarLock]
  | .testFull | .unlockFullSize | .lockTail | .grow | .unlockCurrentSize =>
      [.pusherCondvarLock, .currentSizeLock]
  | .store | .advanceTail | .unlockTail => [.pusherCondvarLock, .currentSizeLock, .tailLock]
  | .signal | .unlockPopperCondvar => [.popperCondvarLock]

def DequeuePoint.holds : DequeuePoint → List Mutex
  | .lockPopperCondvar | .asleep | .woken | .lockPusherCondvar | .finish => []
  | .lockCurrentSize | .wait | .unlockPopperCondvar => [.popperCondvarLock]
  | .testEmpty | .unlockEmptySize | .lockHead | .shrink | .unlockCurrentSize =>
      [.popperCondvarLock, .currentSizeLock]
  | .load | .advanceHead | .unlockHead => [.popperCondvarLock, .currentSizeLock, .headLock]
  | .signal | .unlockPusherCondvar => [.pusherCondvarLock]

/-- The mutexes a thread at the point holds -/
def Point.holds : Point → List Mutex
  | .idle => []
  | .enqueue point => point.holds
  | .dequeue point => point.holds

/-- How far a critical section has come -/
inductive Phase where
  | resting
  | room
  | stored
  | tailMoved
  | filled
  | loaded
  | headMoved
deriving DecidableEq

def Point.phase : Point → Phase
  | .enqueue .lockTail | .enqueue .store => .room
  | .enqueue .advanceTail => .stored
  | .enqueue .unlockTail | .enqueue .grow => .tailMoved
  | .dequeue .lockHead | .dequeue .load => .filled
  | .dequeue .advanceHead => .loaded
  | .dequeue .unlockHead | .dequeue .shrink => .headMoved
  | _ => .resting

/-- The operation a call has recorded but not returned -/
def Point.pending {α : Type} (elem : α) : Point → List (Operation α)
  | .enqueue .unlockCurrentSize | .enqueue .unlockPusherCondvar | .enqueue .lockPopperCondvar
  | .enqueue .signal | .enqueue .unlockPopperCondvar | .enqueue .finish => [.enqueue elem]
  | .dequeue .unlockCurrentSize | .dequeue .unlockPopperCondvar | .dequeue .lockPusherCondvar
  | .dequeue .signal | .dequeue .unlockPusherCondvar | .dequeue .finish => [.dequeue elem]
  | _ => []

theorem Point.phase_resting {point : Point} (outside : .currentSizeLock ∉ point.holds) :
    point.phase = .resting := by
  cases point with
  | idle => rfl
  | enqueue point =>
      cases point <;> simp [Point.holds, EnqueuePoint.holds, Point.phase] at outside ⊢
  | dequeue point =>
      cases point <;> simp [Point.holds, DequeuePoint.holds, Point.phase] at outside ⊢

/-- What an operation on a mutex or a condition variable leaves alone -/
theorem Point.code_keeps {point next : Point} {instruction : Instruction}
    (code : point.code = some (instruction, next)) :
    next.phase = point.phase ∧ ∀ {α : Type} (elem : α), next.pending elem = point.pending elem := by
  cases point with
  | idle => cases code
  | enqueue point =>
      cases point <;> simp [Point.code, EnqueuePoint.code] at code
      all_goals
        obtain ⟨_, rfl⟩ := code
        exact ⟨rfl, fun _ => rfl⟩
  | dequeue point =>
      cases point <;> simp [Point.code, DequeuePoint.code] at code
      all_goals
        obtain ⟨_, rfl⟩ := code
        exact ⟨rfl, fun _ => rfl⟩

theorem Point.lock_holds {point next : Point} {mutex : Mutex}
    (code : point.code = some (.lock mutex, next)) (other : Mutex) :
    other ∈ next.holds ↔ other = mutex ∨ other ∈ point.holds := by
  cases point with
  | idle => cases code
  | enqueue point =>
      cases point <;> simp [Point.code, EnqueuePoint.code] at code
      all_goals
        obtain ⟨rfl, rfl⟩ := code
        cases other <;> decide
  | dequeue point =>
      cases point <;> simp [Point.code, DequeuePoint.code] at code
      all_goals
        obtain ⟨rfl, rfl⟩ := code
        cases other <;> decide

theorem Point.unlock_holds {point next : Point} {mutex : Mutex}
    (code : point.code = some (.unlock mutex, next)) :
    mutex ∈ point.holds ∧
      ∀ other, other ∈ next.holds ↔ other ≠ mutex ∧ other ∈ point.holds := by
  cases point with
  | idle => cases code
  | enqueue point =>
      cases point <;> simp [Point.code, EnqueuePoint.code] at code
      all_goals
        obtain ⟨rfl, rfl⟩ := code
        refine ⟨by decide, fun other => ?_⟩
        cases other <;> decide
  | dequeue point =>
      cases point <;> simp [Point.code, DequeuePoint.code] at code
      all_goals
        obtain ⟨rfl, rfl⟩ := code
        refine ⟨by decide, fun other => ?_⟩
        cases other <;> decide

theorem Point.wait_holds {point next : Point} {condvar : Condvar}
    (code : point.code = some (.wait condvar, next)) :
    point.holds = [condvar.lock] ∧ next.holds = [] ∧ next = condvar.asleep := by
  cases point with
  | idle => cases code
  | enqueue point =>
      cases point <;> simp [Point.code, EnqueuePoint.code] at code
      all_goals
        obtain ⟨rfl, rfl⟩ := code
        exact ⟨rfl, rfl, rfl⟩
  | dequeue point =>
      cases point <;> simp [Point.code, DequeuePoint.code] at code
      all_goals
        obtain ⟨rfl, rfl⟩ := code
        exact ⟨rfl, rfl, rfl⟩

theorem Point.signal_holds {point next : Point} {condvar : Condvar}
    (code : point.code = some (.signal condvar, next)) : next.holds = point.holds := by
  cases point with
  | idle => cases code
  | enqueue point =>
      cases point <;> simp [Point.code, EnqueuePoint.code] at code
      all_goals
        obtain ⟨rfl, rfl⟩ := code
        rfl
  | dequeue point =>
      cases point <;> simp [Point.code, DequeuePoint.code] at code
      all_goals
        obtain ⟨rfl, rfl⟩ := code
        rfl

theorem Condvar.asleep_facts (condvar : Condvar) :
    condvar.asleep.holds = [] ∧ condvar.woken.holds = [] ∧
      condvar.asleep.phase = .resting ∧ condvar.woken.phase = .resting := by
  cases condvar <;> decide

theorem Condvar.asleep_pending (condvar : Condvar) {α : Type} (elem : α) :
    condvar.asleep.pending elem = [] ∧ condvar.woken.pending elem = [] := by
  cases condvar
  · exact ⟨rfl, rfl⟩
  · exact ⟨rfl, rfl⟩

/-! ### Reading an updated queue -/

namespace PcQueue

variable {Thread α : Type} [DecidableEq Thread] {queue : PcQueue Thread α}

theorem goto_point (thread other : Thread) (point : Point) :
    (queue.goto thread point).point other = if other = thread then point else queue.point other := by
  unfold PcQueue.point goto
  by_cases same : other = thread
  · subst other
    simp
  · simp [same]

@[simp] theorem goto_point_self (thread : Thread) (point : Point) :
    (queue.goto thread point).point thread = point := by
  simp [goto_point]

@[simp] theorem goto_elem (thread other : Thread) (point : Point) :
    (queue.goto thread point).elem other = queue.elem other := by
  unfold elem goto
  by_cases same : other = thread
  · subst other
    simp
  · simp [same]

@[simp] theorem setElem_point (thread other : Thread) (elem : α) :
    (queue.setElem thread elem).point other = queue.point other := by
  unfold PcQueue.point setElem
  by_cases same : other = thread
  · subst other
    simp
  · simp [same]

theorem setElem_elem (thread other : Thread) (elem : α) :
    (queue.setElem thread elem).elem other = if other = thread then elem else queue.elem other := by
  unfold PcQueue.elem setElem
  by_cases same : other = thread
  · subst other
    simp
  · simp [same]

omit [DecidableEq Thread] in
theorem setOwner_owner (mutex other : Mutex) (thread : Option Thread) :
    (queue.setOwner mutex thread).owner other =
      if other = mutex then thread else queue.owner other := by
  unfold setOwner
  simp [Function.update_apply]

omit [DecidableEq Thread] in
@[simp] theorem setOwner_point (mutex : Mutex) (holder : Option Thread) (thread : Thread) :
    (queue.setOwner mutex holder).point thread = queue.point thread := rfl

theorem complete_completed (thread other : Thread) (operation : Operation α) :
    (queue.complete thread operation).completed other =
      queue.completed other ++ if other = thread then [operation] else [] := by
  unfold complete
  by_cases same : other = thread
  · subst other
    simp
  · simp [same]

end PcQueue

/-! ### Mutual exclusion -/

variable {Thread α : Type} [DecidableEq Thread] {queue queue' : PcQueue Thread α}

/-- A mutex has the owner whose point holds it. -/
def LocksOk (queue : PcQueue Thread α) : Prop :=
  ∀ mutex thread, queue.owner mutex = some thread ↔ mutex ∈ (queue.point thread).holds

/-- A thread moves between points that hold the same mutexes. -/
theorem LocksOk.goto (ok : LocksOk queue) {thread : Thread} {next : Point}
    (same : next.holds = (queue.point thread).holds) : LocksOk (queue.goto thread next) := by
  intro mutex other
  rw [PcQueue.goto_point]
  by_cases equal : other = thread
  · subst other
    rw [if_pos rfl, same]
    exact ok mutex thread
  · rw [if_neg equal]
    exact ok mutex other

theorem LocksOk.lock (ok : LocksOk queue) {thread : Thread} {mutex : Mutex} {next : Point}
    (isFree : queue.owner mutex = none)
    (holds : ∀ other, other ∈ next.holds ↔ other = mutex ∨ other ∈ (queue.point thread).holds) :
    LocksOk ((queue.setOwner mutex (some thread)).goto thread next) := by
  intro other holder
  have unheld : mutex ∉ (queue.point holder).holds := by
    rw [← ok mutex holder, isFree]
    intro impossible
    cases impossible
  change (queue.setOwner mutex (some thread)).owner other = some holder ↔ _
  rw [PcQueue.setOwner_owner, PcQueue.goto_point]
  by_cases sameMutex : other = mutex
  · subst other
    rw [if_pos rfl, Option.some.injEq]
    by_cases sameThread : holder = thread
    · subst holder
      rw [if_pos rfl, holds]
      exact iff_of_true rfl (Or.inl rfl)
    · rw [if_neg sameThread]
      exact iff_of_false (Ne.symm sameThread) unheld
  · rw [if_neg sameMutex, ok other holder]
    by_cases sameThread : holder = thread
    · subst holder
      rw [if_pos rfl, holds, or_iff_right sameMutex]
    · rw [if_neg sameThread]
      exact Iff.rfl

theorem LocksOk.unlock (ok : LocksOk queue) {thread : Thread} {mutex : Mutex} {next : Point}
    (held : mutex ∈ (queue.point thread).holds)
    (holds : ∀ other, other ∈ next.holds ↔ other ≠ mutex ∧ other ∈ (queue.point thread).holds) :
    LocksOk ((queue.setOwner mutex none).goto thread next) := by
  intro other holder
  have owns := (ok mutex thread).mpr held
  change (queue.setOwner mutex none).owner other = some holder ↔ _
  rw [PcQueue.setOwner_owner, PcQueue.goto_point]
  by_cases sameMutex : other = mutex
  · subst other
    rw [if_pos rfl]
    apply iff_of_false (fun impossible => by cases impossible)
    by_cases sameThread : holder = thread
    · subst holder
      rw [if_pos rfl, holds]
      exact fun both => both.1 rfl
    · rw [if_neg sameThread, PcQueue.setOwner_point, ← ok mutex holder, owns, Option.some.injEq]
      exact Ne.symm sameThread
  · rw [if_neg sameMutex, ok other holder]
    by_cases sameThread : holder = thread
    · subst holder
      rw [if_pos rfl, holds, and_iff_right sameMutex]
    · rw [if_neg sameThread]
      exact Iff.rfl

theorem LocksOk.step {thread : Thread} (ok : LocksOk queue)
    (step : queue.Step thread queue') : LocksOk queue' := by
  cases step with
  | callEnqueue elem isIdle =>
      have renamed : LocksOk (queue.setElem thread elem) := by
        intro mutex other
        rw [PcQueue.setElem_point]
        exact ok mutex other
      apply renamed.goto
      rw [PcQueue.setElem_point, isIdle]
      rfl
  | callDequeue isIdle =>
      apply ok.goto
      rw [isIdle]
      rfl
  | lock code isFree => exact ok.lock isFree (Point.lock_holds code)
  | unlock code =>
      obtain ⟨held, holds⟩ := Point.unlock_holds code
      exact ok.unlock held holds
  | @wait condvar next code =>
      obtain ⟨held, none, _⟩ := Point.wait_holds code
      apply ok.unlock
      · rw [held]
        exact List.mem_singleton_self _
      · intro other
        rw [held, none, List.mem_singleton]
        exact iff_of_false List.not_mem_nil (fun both => both.1 both.2)
  | @signal condvar next sleeper code isAsleep =>
      obtain ⟨asleepHolds, wokenHolds, _⟩ := condvar.asleep_facts
      have woken : LocksOk (queue.goto sleeper condvar.woken) :=
        ok.goto (by rw [isAsleep, asleepHolds, wokenHolds])
      apply woken.goto
      have different : thread ≠ sleeper := by
        intro same
        subst same
        rw [isAsleep] at code
        cases condvar <;> cases code
      rw [PcQueue.goto_point, if_neg different]
      exact Point.signal_holds code
  | signalLost code _ => exact ok.goto (Point.signal_holds code)
  | full atPoint _ => exact ok.goto (by rw [atPoint]; rfl)
  | notFull atPoint _ => exact ok.goto (by rw [atPoint]; rfl)
  | store atPoint => exact LocksOk.goto ok (by rw [show _ = _ from atPoint]; rfl)
  | advanceTail atPoint => exact LocksOk.goto ok (by rw [show _ = _ from atPoint]; rfl)
  | grow atPoint => exact LocksOk.goto ok (by rw [show _ = _ from atPoint]; rfl)
  | finishEnqueue atPoint => exact LocksOk.goto ok (by rw [show _ = _ from atPoint]; rfl)
  | empty atPoint _ => exact ok.goto (by rw [atPoint]; rfl)
  | notEmpty atPoint _ => exact ok.goto (by rw [atPoint]; rfl)
  | load atPoint =>
      have renamed : LocksOk (queue.setElem thread (queue.pcqBuffer queue.pcqHead)) := by
        intro mutex other
        rw [PcQueue.setElem_point]
        exact ok mutex other
      apply renamed.goto
      rw [PcQueue.setElem_point, atPoint]
      rfl
  | advanceHead atPoint => exact LocksOk.goto ok (by rw [show _ = _ from atPoint]; rfl)
  | shrink atPoint => exact LocksOk.goto ok (by rw [show _ = _ from atPoint]; rfl)
  | finishDequeue atPoint => exact LocksOk.goto ok (by rw [show _ = _ from atPoint]; rfl)

end TecnicoFS.Queue
