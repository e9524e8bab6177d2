/-
The bounded queue is a linearizable first-in first-out queue.

The history of the critical sections of `pcq_current_size_lock` is a history of the
abstract queue, and each thread's calls stand in it in the order the thread made them.
-/

import TecnicoFS.Queue.RingInvariant

set_option autoImplicit false

namespace TecnicoFS.Queue

open CircularBuffer

variable {Thread α : Type} [DecidableEq Thread] {queue queue' : PcQueue Thread α}

/-! ### The calls of each thread -/

/-- The operations of the thread in the history -/
def PcQueue.operationsOf (queue : PcQueue Thread α) (thread : Thread) : List (Operation α) :=
  (queue.history.filter (fun entry => entry.1 = thread)).map Prod.snd

/-- A thread's operations are those of its completed calls and the one it is about to
complete. -/
def CallsOk (queue : PcQueue Thread α) : Prop :=
  ∀ thread, queue.operationsOf thread =
    queue.completed thread ++ (queue.point thread).pending (queue.elem thread)

/-- A step that records and completes nothing keeps the calls. -/
theorem CallsOk.control (ok : CallsOk queue) (history : queue'.history = queue.history)
    (completed : queue'.completed = queue.completed)
    (pending : ∀ thread, (queue'.point thread).pending (queue'.elem thread) =
      (queue.point thread).pending (queue.elem thread)) : CallsOk queue' := by
  intro thread
  unfold PcQueue.operationsOf
  rw [history, completed, pending]
  exact ok thread

theorem CallsOk.goto (ok : CallsOk queue) {thread : Thread} {next : Point}
    (history : queue'.history = queue.history) (completed : queue'.completed = queue.completed)
    (points : ∀ other, queue'.point other = queue.point other)
    (elems : ∀ other, queue'.elem other = queue.elem other)
    (same : next.pending (queue.elem thread) =
      (queue.point thread).pending (queue.elem thread)) : CallsOk (queue'.goto thread next) := by
  refine ok.control history completed (fun other => ?_)
  rw [PcQueue.goto_point, PcQueue.goto_elem, elems]
  by_cases equal : other = thread
  · subst other
    rw [if_pos rfl]
    exact same
  · rw [if_neg equal, points]

/-- `elem` is set while the thread has nothing pending. -/
theorem CallsOk.setElem (ok : CallsOk queue) {thread : Thread} {elem : α} {next : Point}
    (before : ∀ elem : α, (queue.point thread).pending elem = [])
    (after : ∀ elem : α, next.pending elem = []) :
    CallsOk ((queue.setElem thread elem).goto thread next) := by
  refine ok.control rfl rfl (fun other => ?_)
  rw [PcQueue.goto_point, PcQueue.goto_elem, PcQueue.setElem_point, PcQueue.setElem_elem]
  by_cases equal : other = thread
  · subst other
    rw [if_pos rfl, if_pos rfl, after, before]
  · rw [if_neg equal, if_neg equal]

/-- The thread records an operation and has it pending. -/
theorem CallsOk.record (ok : CallsOk queue) {thread : Thread} {operation : Operation α}
    {next : Point} (history : queue'.history = queue.history ++ [(thread, operation)])
    (completed : queue'.completed = queue.completed)
    (points : ∀ other, queue'.point other = queue.point other)
    (elems : ∀ other, queue'.elem other = queue.elem other)
    (before : (queue.point thread).pending (queue.elem thread) = [])
    (after : next.pending (queue.elem thread) = [operation]) :
    CallsOk (queue'.goto thread next) := by
  intro other
  have earlier := ok other
  unfold PcQueue.operationsOf at earlier ⊢
  rw [PcQueue.goto_point, PcQueue.goto_elem, elems]
  change (queue'.history.filter _).map _ = queue'.completed other ++ _
  rw [history, completed, List.filter_append, List.map_append, earlier]
  by_cases equal : other = thread
  · subst other
    rw [before, if_pos rfl, after]
    simp
  · have different : thread ≠ other := Ne.symm equal
    rw [if_neg equal, points]
    simp [different]

/-- The call of the thread returns. -/
theorem CallsOk.complete (ok : CallsOk queue) {thread : Thread} {operation : Operation α}
    (before : (queue.point thread).pending (queue.elem thread) = [operation]) :
    CallsOk ((queue.complete thread operation).goto thread .idle) := by
  intro other
  have earlier := ok other
  rw [PcQueue.goto_point, PcQueue.goto_elem]
  change queue.operationsOf other = (queue.complete thread operation).completed other ++ _
  rw [earlier, PcQueue.complete_completed]
  by_cases equal : other = thread
  · subst other
    rw [before, if_pos rfl, if_pos rfl]
    exact (List.append_nil _).symm
  · rw [if_neg equal, if_neg equal, List.append_nil]
    rfl

theorem CallsOk.step {thread : Thread} (ok : CallsOk queue) (step : queue.Step thread queue') :
    CallsOk queue' := by
  cases step with
  | callEnqueue elem isIdle =>
      apply ok.setElem
      · intro other
        rw [isIdle]
        rfl
      · intro other
        rfl
  | callDequeue isIdle =>
      apply ok.goto rfl rfl (fun _ => rfl) (fun _ => rfl)
      rw [isIdle]
      rfl
  | lock code _ =>
      exact ok.goto rfl rfl (fun _ => rfl) (fun _ => rfl) ((Point.code_keeps code).2 _)
  | unlock code =>
      exact ok.goto rfl rfl (fun _ => rfl) (fun _ => rfl) ((Point.code_keeps code).2 _)
  | wait code =>
      exact ok.goto rfl rfl (fun _ => rfl) (fun _ => rfl) ((Point.code_keeps code).2 _)
  | @signal condvar next sleeper code isAsleep =>
      have woken : CallsOk (queue.goto sleeper condvar.woken) := by
        apply ok.goto rfl rfl (fun _ => rfl) (fun _ => rfl)
        rw [isAsleep, (condvar.asleep_pending _).1, (condvar.asleep_pending _).2]
      have different : thread ≠ sleeper := by
        intro same
        subst same
        rw [isAsleep] at code
        cases condvar <;> cases code
      apply woken.goto rfl rfl (fun _ => rfl) (fun _ => rfl)
      rw [PcQueue.goto_point, if_neg different]
      exact (Point.code_keeps code).2 _
  | signalLost code _ =>
      exact ok.goto rfl rfl (fun _ => rfl) (fun _ => rfl) ((Point.code_keeps code).2 _)
  | full atPoint _ =>
      apply ok.goto rfl rfl (fun _ => rfl) (fun _ => rfl)
      rw [atPoint]
      rfl
  | notFull atPoint _ =>
      apply ok.goto rfl rfl (fun _ => rfl) (fun _ => rfl)
      rw [atPoint]
      rfl
  | store atPoint =>
      apply ok.goto rfl rfl (fun _ => rfl) (fun _ => rfl)
      rw [atPoint]
      rfl
  | advanceTail atPoint =>
      apply ok.goto rfl rfl (fun _ => rfl) (fun _ => rfl)
      rw [atPoint]
      rfl
  | grow atPoint =>
      refine ok.record rfl rfl (fun _ => rfl) (fun _ => rfl) ?_ rfl
      rw [atPoint]
      rfl
  | finishEnqueue atPoint =>
      apply ok.complete
      rw [atPoint]
      rfl
  | empty atPoint _ =>
      apply ok.goto rfl rfl (fun _ => rfl) (fun _ => rfl)
      rw [atPoint]
      rfl
  | notEmpty atPoint _ =>
      apply ok.goto rfl rfl (fun _ => rfl) (fun _ => rfl)
      rw [atPoint]
      rfl
  | load atPoint =>
      apply ok.setElem
      · intro other
        rw [atPoint]
        rfl
      · intro other
        rfl
  | advanceHead atPoint =>
      apply ok.goto rfl rfl (fun _ => rfl) (fun _ => rfl)
      rw [atPoint]
      rfl
  | shrink atPoint =>
      refine ok.record rfl rfl (fun _ => rfl) (fun _ => rfl) ?_ rfl
      rw [atPoint]
      rfl
  | finishDequeue atPoint =>
      apply ok.complete
      rw [atPoint]
      rfl

theorem PcQueue.Step.capacity {thread : Thread} (step : queue.Step thread queue') :
    queue'.pcqCapacity = queue.pcqCapacity := by
  cases step <;> rfl

end TecnicoFS.Queue
