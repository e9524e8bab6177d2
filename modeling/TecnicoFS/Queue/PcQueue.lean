/-
The bounded queue of `producer-consumer.c` with its threads.

A thread is at a point of `pcq_enqueue` or `pcq_dequeue` and takes one operation on a
mutex, a condition variable or a field at a time.  Sizes are natural numbers: none grows
beyond the capacity, which is a `size_t`, and none is lowered at zero.
-/

import TecnicoFS.Library.CircularBuffer
import TecnicoFS.Library.ThreadSystem

set_option autoImplicit false

namespace TecnicoFS.Queue

open CircularBuffer

/-! ### The code -/

inductive Mutex where
  | currentSizeLock
  | headLock
  | tailLock
  | pusherCondvarLock
  | popperCondvarLock
deriving DecidableEq

inductive Condvar where
  | pusherCondvar
  | popperCondvar
deriving DecidableEq

/-- The mutex `cond_wait` is called with -/
def Condvar.lock : Condvar → Mutex
  | .pusherCondvar => .pusherCondvarLock
  | .popperCondvar => .popperCondvarLock

/-- What a thread inside `pcq_enqueue` does next; `asleep` and `woken` are inside
`cond_wait`. -/
inductive EnqueuePoint where
  | lockPusherCondvar
  | lockCurrentSize
  | testFull
  | unlockFullSize
  | wait
  | asleep
  | woken
  | lockTail
  | store
  | advanceTail
  | unlockTail
  | grow
  | unlockCurrentSize
  | unlockPusherCondvar
  | lockPopperCondvar
  | signal
  | unlockPopperCondvar
  | finish
deriving DecidableEq

/-- What a thread inside `pcq_dequeue` does next -/
inductive DequeuePoint where
  | lockPopperCondvar
  | lockCurrentSize
  | testEmpty
  | unlockEmptySize
  | wait
  | asleep
  | woken
  | lockHead
  | load
  | advanceHead
  | unlockHead
  | shrink
  | unlockCurrentSize
  | unlockPopperCondvar
  | lockPusherCondvar
  | signal
  | unlockPusherCondvar
  | finish
deriving DecidableEq

inductive Point where
  | idle
  | enqueue (point : EnqueuePoint)
  | dequeue (point : DequeuePoint)
deriving DecidableEq

inductive Instruction where
  | lock (mutex : Mutex)
  | unlock (mutex : Mutex)
  | wait (condvar : Condvar)
  | signal (condvar : Condvar)
deriving DecidableEq

/-- The operations of `pcq_enqueue` on mutexes and condition variables, each with the point
after it -/
def EnqueuePoint.code : EnqueuePoint → Option (Instruction × EnqueuePoint)
  | .lockPusherCondvar => some (.lock .pusherCondvarLock, .lockCurrentSize)
  | .lockCurrentSize => some (.lock .currentSizeLock, .testFull)
  | .unlockFullSize => some (.unlock .currentSizeLock, .wait)
  | .wait => some (.wait .pusherCondvar, .asleep)
  | .woken => some (.lock .pusherCondvarLock, .lockCurrentSize)
  | .lockTail => some (.lock .tailLock, .store)
  | .unlockTail => some (.unlock .tailLock, .grow)
  | .unlockCurrentSize => some (.unlock .currentSizeLock, .unlockPusherCondvar)
  | .unlockPusherCondvar => some (.unlock .pusherCondvarLock, .lockPopperCondvar)
  | .lockPopperCondvar => some (.lock .popperCondvarLock, .signal)
  | .signal => some (.signal .popperCondvar, .unlockPopperCondvar)
  | .unlockPopperCondvar => some (.unlock .popperCondvarLock, .finish)
  | .testFull | .asleep | .store | .advanceTail | .grow | .finish => none

/-- The operations of `pcq_dequeue` on mutexes and condition variables -/
def DequeuePoint.code : DequeuePoint → Option (Instruction × DequeuePoint)
  | .lockPopperCondvar => some (.lock .popperCondvarLock, .lockCurrentSize)
  | .lockCurrentSize => some (.lock .currentSizeLock, .testEmpty)
  | .unlockEmptySize => some (.unlock .currentSizeLock, .wait)
  | .wait => some (.wait .popperCondvar, .asleep)
  | .woken => some (.lock .popperCondvarLock, .lockCurrentSize)
  | .lockHead => some (.lock .headLock, .load)
  | .unlockHead => some (.unlock .headLock, .shrink)
  | .unlockCurrentSize => some (.unlock .currentSizeLock, .unlockPopperCondvar)
  | .unlockPopperCondvar => some (.unlock .popperCondvarLock, .lockPusherCondvar)
  | .lockPusherCondvar => some (.lock .pusherCondvarLock, .signal)
  | .signal => some (.signal .pusherCondvar, .unlockPusherCondvar)
  | .unlockPusherCondvar => some (.unlock .pusherCondvarLock, .finish)
  | .testEmpty | .asleep | .load | .advanceHead | .shrink | .finish => none

def Point.code : Point → Option (Instruction × Point)
  | .idle => none
  | .enqueue point => point.code.map (fun step => (step.1, .enqueue step.2))
  | .dequeue point => point.code.map (fun step => (step.1, .dequeue step.2))

/-- Where the threads sleep that wait for the condition variable -/
def Condvar.asleep : Condvar → Point
  | .pusherCondvar => .enqueue .asleep
  | .popperCondvar => .dequeue .asleep

def Condvar.woken : Condvar → Point
  | .pusherCondvar => .enqueue .woken
  | .popperCondvar => .dequeue .woken

/-! ### States and steps -/

/-- A thread's point and its variable `elem` -/
structure Local (α : Type) where
  point : Point
  elem : α

/-- `pc_queue_t` with the owners of its mutexes and its threads.  `history` records every
change of `pcq_current_size` with the element moved, `completed` what the calls of each
thread took or returned. -/
structure PcQueue (Thread α : Type) where
  pcqBuffer : Nat → α
  pcqCapacity : Nat
  pcqCurrentSize : Nat
  pcqHead : Nat
  pcqTail : Nat
  owner : Mutex → Option Thread
  locals : Thread → Local α
  history : List (Thread × Operation α)
  completed : Thread → List (Operation α)

variable {Thread α : Type}

namespace PcQueue

variable [DecidableEq Thread] (queue : PcQueue Thread α)

def point (thread : Thread) : Point := (queue.locals thread).point

def elem (thread : Thread) : α := (queue.locals thread).elem

def goto (thread : Thread) (point : Point) : PcQueue Thread α :=
  { queue with
    locals := Function.update queue.locals thread { queue.locals thread with point := point } }

def setElem (thread : Thread) (elem : α) : PcQueue Thread α :=
  { queue with
    locals := Function.update queue.locals thread { queue.locals thread with elem := elem } }

def setOwner (mutex : Mutex) (thread : Option Thread) : PcQueue Thread α :=
  { queue with owner := Function.update queue.owner mutex thread }

/-- The call of the thread returns. -/
def complete (thread : Thread) (operation : Operation α) : PcQueue Thread α :=
  { queue with
    completed :=
      Function.update queue.completed thread (queue.completed thread ++ [operation]) }

/-- One step of a thread that is not asleep -/
inductive Step (thread : Thread) : PcQueue Thread α → PcQueue Thread α → Prop where
  | callEnqueue {queue : PcQueue Thread α} (elem : α) : queue.point thread = .idle →
      Step thread queue
        ((queue.setElem thread elem).goto thread (.enqueue .lockPusherCondvar))
  | callDequeue {queue : PcQueue Thread α} : queue.point thread = .idle →
      Step thread queue (queue.goto thread (.dequeue .lockPopperCondvar))
  | lock {queue : PcQueue Thread α} {mutex : Mutex} {next : Point} :
      (queue.point thread).code = some (.lock mutex, next) → queue.owner mutex = none →
      Step thread queue ((queue.setOwner mutex (some thread)).goto thread next)
  | unlock {queue : PcQueue Thread α} {mutex : Mutex} {next : Point} :
      (queue.point thread).code = some (.unlock mutex, next) →
      Step thread queue ((queue.setOwner mutex none).goto thread next)
  | wait {queue : PcQueue Thread α} {condvar : Condvar} {next : Point} :
      (queue.point thread).code = some (.wait condvar, next) →
      Step thread queue ((queue.setOwner condvar.lock none).goto thread next)
  /-- A signal wakes one sleeping thread. -/
  | signal {queue : PcQueue Thread α} {condvar : Condvar} {next : Point} {sleeper : Thread} :
      (queue.point thread).code = some (.signal condvar, next) →
      queue.point sleeper = condvar.asleep →
      Step thread queue ((queue.goto sleeper condvar.woken).goto thread next)
  /-- A signal that no thread waits for is lost. -/
  | signalLost {queue : PcQueue Thread α} {condvar : Condvar} {next : Point} :
      (queue.point thread).code = some (.signal condvar, next) →
      (∀ sleeper, queue.point sleeper ≠ condvar.asleep) →
      Step thread queue (queue.goto thread next)
  | full {queue : PcQueue Thread α} : queue.point thread = .enqueue .testFull →
      queue.pcqCurrentSize = queue.pcqCapacity →
      Step thread queue (queue.goto thread (.enqueue .unlockFullSize))
  | notFull {queue : PcQueue Thread α} : queue.point thread = .enqueue .testFull →
      queue.pcqCurrentSize ≠ queue.pcqCapacity →
      Step thread queue (queue.goto thread (.enqueue .lockTail))
  | store {queue : PcQueue Thread α} : queue.point thread = .enqueue .store →
      Step thread queue
        ({ queue with
            pcqBuffer := Function.update queue.pcqBuffer queue.pcqTail (queue.elem thread)
          }.goto thread (.enqueue .advanceTail))
  | advanceTail {queue : PcQueue Thread α} : queue.point thread = .enqueue .advanceTail →
      Step thread queue
        ({ queue with pcqTail := (queue.pcqTail + 1) % queue.pcqCapacity }.goto thread
          (.enqueue .unlockTail))
  | grow {queue : PcQueue Thread α} : queue.point thread = .enqueue .grow →
      Step thread queue
        ({ queue with
            pcqCurrentSize := queue.pcqCurrentSize + 1
            history := queue.history ++ [(thread, Operation.enqueue (queue.elem thread))]
          }.goto thread (.enqueue .unlockCurrentSize))
  | finishEnqueue {queue : PcQueue Thread α} : queue.point thread = .enqueue .finish →
      Step thread queue ((queue.complete thread (.enqueue (queue.elem thread))).goto thread .idle)
  | empty {queue : PcQueue Thread α} : queue.point thread = .dequeue .testEmpty →
      queue.pcqCurrentSize = 0 →
      Step thread queue (queue.goto thread (.dequeue .unlockEmptySize))
  | notEmpty {queue : PcQueue Thread α} : queue.point thread = .dequeue .testEmpty →
      queue.pcqCurrentSize ≠ 0 →
      Step thread queue (queue.goto thread (.dequeue .lockHead))
  | load {queue : PcQueue Thread α} : queue.point thread = .dequeue .load →
      Step thread queue
        ((queue.setElem thread (queue.pcqBuffer queue.pcqHead)).goto thread
          (.dequeue .advanceHead))
  | advanceHead {queue : PcQueue Thread α} : queue.point thread = .dequeue .advanceHead →
      Step thread queue
        ({ queue with pcqHead := (queue.pcqHead + 1) % queue.pcqCapacity }.goto thread
          (.dequeue .unlockHead))
  | shrink {queue : PcQueue Thread α} : queue.point thread = .dequeue .shrink →
      Step thread queue
        ({ queue with
            pcqCurrentSize := queue.pcqCurrentSize - 1
            history := queue.history ++ [(thread, Operation.dequeue (queue.elem thread))]
          }.goto thread (.dequeue .unlockCurrentSize))
  | finishDequeue {queue : PcQueue Thread α} : queue.point thread = .dequeue .finish →
      Step thread queue ((queue.complete thread (.dequeue (queue.elem thread))).goto thread .idle)

end PcQueue

end TecnicoFS.Queue
