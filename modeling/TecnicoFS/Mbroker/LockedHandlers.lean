/-
The handlers of `mbroker.c` lock by lock.

A worker locks, runs a critical section as one step of its handler and unlocks; in between
the others move on.  `box_delete` locks a box while it holds `free_boxes_lock`, and so does
the listing, which keeps the read lock from its first packet to its last one.
-/

import TecnicoFS.Library.LockTable
import TecnicoFS.Mbroker.Listing

set_option autoImplicit false

namespace TecnicoFS.Mbroker

open FileSystem

/-! ### Locks of critical sections -/

/-- `free_boxes_lock` and the mutexes of `boxes_table` -/
inductive BoxLock where
  | freeBoxes
  | box (boxI : Nat)
deriving DecidableEq

/-- The lock of the critical section at a point of `workers_handle_pub_register` -/
def PublisherPoint.lock? : PublisherPoint → Option (BoxLock × LockMode)
  | .findBox _ => some (.freeBoxes, .shared)
  | .register box => some (.box box.boxI, .exclusive)
  | .checkBox _ => some (.freeBoxes, .shared)
  | .publish session => some (.box session.boxI, .exclusive)
  | .unregister session => some (.box session.boxI, .exclusive)
  | .openPipe _ | .readCode _ | .readMessage _ | .writeMessage _ _ | .closeFile _ => none

/-- The lock of the critical section at a point of `workers_handle_sub_register`; a worker
in `cond_wait` has none. -/
def SubscriberPoint.lock? : SubscriberPoint → Option (BoxLock × LockMode)
  | .findBox _ => some (.freeBoxes, .shared)
  | .register box => some (.box box.boxI, .exclusive)
  | .awaitMessage session => some (.box session.boxI, .exclusive)
  | .checkBox _ => some (.freeBoxes, .shared)
  | .unregister session => some (.box session.boxI, .exclusive)
  | .openPipe _ | .blocked _ | .sendMessage _ | .readNext _ | .closeFile _ => none

/-- The lock of a section of `box_create` -/
def CreatePoint.lock? : CreatePoint → Option (BoxLock × LockMode)
  | .takeBox _ _ => some (.freeBoxes, .exclusive)
  | .fillBox _ _ boxI => some (.box boxI, .exclusive)
  | .openExisting _ | .openNew _ | .closeFile _ _ | .answer _ => none

/-- The return of `workers_handle_sub_register` after a failed `tfs_open` does not unlock the
mutex; every other way out of a critical section does. -/
def SubscriberPoint.SkipsUnlock : SubscriberPoint → Option SubscriberPoint → Prop
  | .register _, none => True
  | _, _ => False

instance : (point : SubscriberPoint) → (next : Option SubscriberPoint) →
    Decidable (point.SkipsUnlock next)
  | .register _, none => inferInstanceAs (Decidable True)
  | .register _, some _ | .openPipe _, _ | .findBox _, _ | .awaitMessage _, _ | .blocked _, _
  | .checkBox _, _ | .sendMessage _, _ | .readNext _, _ | .unregister _, _ | .closeFile _, _ =>
      inferInstanceAs (Decidable False)

/-! ### Phases of a handler -/

/-- Where a worker is at a point of its handler: outside of the critical sections, before
one, in one, or at its end -/
inductive Phase (HandlerPoint : Type) where
  | outside (point : HandlerPoint)
  | locking (point : HandlerPoint)
  | inside (point : HandlerPoint)
  | unlocking (lock : BoxLock) (mode : LockMode) (next : Option HandlerPoint)

/-- The worker arrives at the point. -/
def Phase.enter {HandlerPoint : Type} (lock? : HandlerPoint → Option (BoxLock × LockMode))
    (point : HandlerPoint) : Phase HandlerPoint :=
  if (lock? point).isSome then .locking point else .outside point

/-- One step of a handler whose points take the locks, given what it does at each point and
which ways out of a critical section skip the unlocking -/
inductive PhaseStep {Thread HandlerPoint : Type} [DecidableEq Thread]
    (lock? : HandlerPoint → Option (BoxLock × LockMode))
    (skipsUnlock : HandlerPoint → Option HandlerPoint → Prop)
    (moves : Server Thread → HandlerPoint → Server Thread → Option HandlerPoint → Prop)
    (thread : Thread) : Server Thread → LockTable Thread BoxLock → Phase HandlerPoint →
      Server Thread → LockTable Thread BoxLock → Option (Phase HandlerPoint) → Prop where
  | runs {server server' : Server Thread} {locks : LockTable Thread BoxLock}
      {point : HandlerPoint} {next : Option HandlerPoint} : lock? point = none →
      moves server point server' next →
      PhaseStep lock? skipsUnlock moves thread server locks (.outside point) server' locks
        (next.map (Phase.enter lock?))
  | locks {server : Server Thread} {locks : LockTable Thread BoxLock} {point : HandlerPoint}
      {lock : BoxLock} {mode : LockMode} : lock? point = some (lock, mode) →
      locks.Available lock mode →
      PhaseStep lock? skipsUnlock moves thread server locks (.locking point) server
        (locks.acquire thread lock mode) (some (.inside point))
  | leaves {server server' : Server Thread} {locks : LockTable Thread BoxLock}
      {point : HandlerPoint} {next : Option HandlerPoint} {lock : BoxLock} {mode : LockMode} :
      lock? point = some (lock, mode) → moves server point server' next →
      ¬ skipsUnlock point next →
      PhaseStep lock? skipsUnlock moves thread server locks (.inside point) server' locks
        (some (.unlocking lock mode next))
  | skips {server server' : Server Thread} {locks : LockTable Thread BoxLock}
      {point : HandlerPoint} {next : Option HandlerPoint} : moves server point server' next →
      skipsUnlock point next →
      PhaseStep lock? skipsUnlock moves thread server locks (.inside point) server' locks
        (next.map (Phase.enter lock?))
  | unlocks {server : Server Thread} {locks : LockTable Thread BoxLock} {lock : BoxLock}
      {mode : LockMode} {next : Option HandlerPoint} :
      PhaseStep lock? skipsUnlock moves thread server locks (.unlocking lock mode next) server
        (locks.release thread lock) (next.map (Phase.enter lock?))

/-! ### Removing a box and listing the boxes -/

/-- What `workers_handle_manager_remove` does next, `box_delete` lock by lock -/
inductive LockedRemovePoint where
  | lockTable (boxName : CString)
  | findBox (boxName : CString)
  | lockBox (boxName : CString) (boxI : Nat)
  | deleteBox (boxName : CString) (boxI : Nat)
  | unlockBox (boxName : CString) (boxI : Nat)
  | unlockTable (next : RemovePoint)
  | outside (point : RemovePoint)

/-- One step of `workers_handle_manager_remove`.  `n_boxes` is lowered with the entry, under
the write lock that covers both. -/
inductive LockedRemoveStep {Thread : Type} [DecidableEq Thread] (thread : Thread) :
    Server Thread → LockTable Thread BoxLock → LockedRemovePoint →
      Server Thread → LockTable Thread BoxLock → Option LockedRemovePoint → Prop where
  | locksTable {server : Server Thread} {locks : LockTable Thread BoxLock} {boxName : CString} :
      locks.Available .freeBoxes .exclusive →
      LockedRemoveStep thread server locks (.lockTable boxName) server
        (locks.acquire thread .freeBoxes .exclusive) (some (.findBox boxName))
  | notFound {server : Server Thread} {locks : LockTable Thread BoxLock} {boxName : CString} :
      server.boxFind boxName = none →
      LockedRemoveStep thread server locks (.findBox boxName) server locks
        (some (.unlockTable (.answer (-1))))
  | found {server : Server Thread} {locks : LockTable Thread BoxLock} {boxName : CString}
      {boxI : Nat} : server.boxFind boxName = some boxI →
      LockedRemoveStep thread server locks (.findBox boxName) server locks
        (some (.lockBox boxName boxI))
  | locksBox {server : Server Thread} {locks : LockTable Thread BoxLock} {boxName : CString}
      {boxI : Nat} : locks.Available (.box boxI) .exclusive →
      LockedRemoveStep thread server locks (.lockBox boxName boxI) server
        (locks.acquire thread (.box boxI) .exclusive) (some (.deleteBox boxName boxI))
  | deletes {server : Server Thread} {locks : LockTable Thread BoxLock} {boxName : CString}
      {boxI : Nat} :
      LockedRemoveStep thread server locks (.deleteBox boxName boxI)
        (server.deleteBox boxI boxName) locks (some (.unlockBox boxName boxI))
  | unlocksBox {server : Server Thread} {locks : LockTable Thread BoxLock} {boxName : CString}
      {boxI : Nat} :
      LockedRemoveStep thread server locks (.unlockBox boxName boxI) server
        (locks.release thread (.box boxI)) (some (.unlockTable (.unlink boxName)))
  | unlocksTable {server : Server Thread} {locks : LockTable Thread BoxLock}
      {next : RemovePoint} :
      LockedRemoveStep thread server locks (.unlockTable next) server
        (locks.release thread .freeBoxes) (some (.outside next))
  | unlinks {server : Server Thread} {locks : LockTable Thread BoxLock} {boxName : CString}
      {result : CallResult} {fs : FileSystem.State} :
      Call.run (.tfsUnlink (some boxName)) server.fs = .ok (result, fs) →
      LockedRemoveStep thread server locks (.outside (.unlink boxName)) (server.setFs fs) locks
        (some (.outside (.answer (if result.length = 0 then 0 else -1))))
  | answers {server : Server Thread} {locks : LockTable Thread BoxLock} {returnCode : Int} :
      LockedRemoveStep thread server locks (.outside (.answer returnCode)) server locks none

/-- `i`, `n_boxes_listed` and `last`, with the packets sent -/
structure ListState where
  i : Nat
  nBoxesListed : Int
  last : UInt8
  sent : List (List UInt8)

/-- What `workers_handle_manager_listing` does next -/
inductive ListPoint where
  | openPipe
  | lockTable
  | loop (state : ListState)
  | lockBox (state : ListState)
  | writePacket (state : ListState)
  | unlockBox (state : ListState) (packet : List UInt8)
  | sendPacket (state : ListState) (packet : List UInt8)
  | unlockTable (returnCode : Int)

/-- One step of `workers_handle_manager_listing` -/
inductive ListStep {Thread : Type} [DecidableEq Thread] (thread : Thread) :
    Server Thread → LockTable Thread BoxLock → ListPoint →
      Server Thread → LockTable Thread BoxLock → Option ListPoint → Prop where
  | pipeFails {server : Server Thread} {locks : LockTable Thread BoxLock} :
      ListStep thread server locks .openPipe server locks none
  | pipeOpens {server : Server Thread} {locks : LockTable Thread BoxLock} :
      ListStep thread server locks .openPipe server locks (some .lockTable)
  | locksTable {server : Server Thread} {locks : LockTable Thread BoxLock} :
      locks.Available .freeBoxes .shared →
      ListStep thread server locks .lockTable server (locks.acquire thread .freeBoxes .shared)
        (some (.loop ⟨0, 0, 0, []⟩))
  | ends {server : Server Thread} {locks : LockTable Thread BoxLock} {state : ListState} :
      ¬ (state.nBoxesListed ≤ server.nBoxes ∧ state.i < server.fs.inodeTableSize) →
      ListStep thread server locks (.loop state) server locks (some (.unlockTable 0))
  | passes {server : Server Thread} {locks : LockTable Thread BoxLock} {state : ListState} :
      state.nBoxesListed ≤ server.nBoxes → state.i < server.fs.inodeTableSize →
      server.nBoxes > 0 ∧ server.freeBoxes state.i = .free →
      ListStep thread server locks (.loop state) server locks
        (some (.loop { state with i := state.i + 1 }))
  | looks {server : Server Thread} {locks : LockTable Thread BoxLock} {state : ListState} :
      state.nBoxesListed ≤ server.nBoxes → state.i < server.fs.inodeTableSize →
      ¬ (server.nBoxes > 0 ∧ server.freeBoxes state.i = .free) →
      ListStep thread server locks (.loop state) server locks
        (some (.lockBox { state with
          last := if server.nBoxes = 0 ∨ state.nBoxesListed + 1 = server.nBoxes then 1
            else state.last }))
  | locksBox {server : Server Thread} {locks : LockTable Thread BoxLock} {state : ListState} :
      locks.Available (.box state.i) .exclusive →
      ListStep thread server locks (.lockBox state) server
        (locks.acquire thread (.box state.i) .exclusive) (some (.writePacket state))
  | writes {server : Server Thread} {locks : LockTable Thread BoxLock} {state : ListState}
      {packet : List UInt8} :
      listingPacket (if server.nBoxes > 0 then some (server.boxesTable state.i) else none)
        state.last = .ok packet →
      ListStep thread server locks (.writePacket state) server locks
        (some (.unlockBox state packet))
  | unlocksBox {server : Server Thread} {locks : LockTable Thread BoxLock} {state : ListState}
      {packet : List UInt8} :
      ListStep thread server locks (.unlockBox state packet) server
        (locks.release thread (.box state.i)) (some (.sendPacket state packet))
  | sends {server : Server Thread} {locks : LockTable Thread BoxLock} {state : ListState}
      {packet : List UInt8} :
      ListStep thread server locks (.sendPacket state packet) server locks
        (some (.loop { state with
          i := state.i + 1
          nBoxesListed := state.nBoxesListed + 1
          sent := state.sent ++ [packet] }))
  | sendFails {server : Server Thread} {locks : LockTable Thread BoxLock} {state : ListState}
      {packet : List UInt8} :
      ListStep thread server locks (.sendPacket state packet) server locks
        (some (.unlockTable (-1)))
  | unlocksTable {server : Server Thread} {locks : LockTable Thread BoxLock} {returnCode : Int} :
      ListStep thread server locks (.unlockTable returnCode) server
        (locks.release thread .freeBoxes) none

/-! ### Workers -/

/-- Where a worker is; an idle one is in `pcq_dequeue`. -/
inductive LockedPoint where
  | idle
  | publisher (phase : Phase PublisherPoint)
  | subscriber (phase : Phase SubscriberPoint)
  | create (phase : Phase CreatePoint)
  | remove (point : LockedRemovePoint)
  | list (point : ListPoint)

/-- A request with the box name read from the pipe -/
inductive LockedRequest where
  | pubRegister (name : CString)
  | subRegister (name : CString)
  | createRequest (name : CString)
  | removeRequest (name : CString)
  | listRequest

/-- The handler of the request; the listener has put a slash in front of the name. -/
def LockedRequest.start : LockedRequest → LockedPoint
  | .pubRegister name => .publisher (.outside (.openPipe (rootPath name)))
  | .subRegister name => .subscriber (.outside (.openPipe (rootPath name)))
  | .createRequest name => .create (.outside (.openExisting (rootPath name)))
  | .removeRequest name => .remove (.lockTable (rootPath name))
  | .listRequest => .list .openPipe

/-- The server with its locks and its workers.  `counted` are the bytes publishers added to
the size of a box since `box_create` reset it, which the code does not keep. -/
structure LockedBroker (Thread : Type) where
  server : Server Thread
  locks : LockTable Thread BoxLock
  workers : Thread → LockedPoint
  counted : Nat → Nat

/-- What a step of a publisher adds to a size -/
def Phase.published : Phase PublisherPoint → (Nat → Nat) → Nat → Nat
  | .inside (.publish session), counted =>
      Function.update counted session.boxI (counted session.boxI + msgMaxLen)
  | _, counted => counted

/-- `box_create` resets a size. -/
def Phase.filled : Phase CreatePoint → (Nat → Nat) → Nat → Nat
  | .inside (.fillBox _ _ boxI), counted => Function.update counted boxI 0
  | _, counted => counted

namespace LockedBroker

variable {Thread : Type} [DecidableEq Thread]

/-- One step of a worker -/
inductive Step (thread : Thread) (broker : LockedBroker Thread) : LockedBroker Thread → Prop where
  | dequeue (request : LockedRequest) : broker.workers thread = .idle →
      Step thread broker
        { broker with workers := Function.update broker.workers thread request.start }
  | publisher {phase : Phase PublisherPoint} {server : Server Thread}
      {locks : LockTable Thread BoxLock} {next : Option (Phase PublisherPoint)} :
      broker.workers thread = .publisher phase →
      PhaseStep PublisherPoint.lock? (fun _ _ => False) PublisherStep thread broker.server
        broker.locks phase server locks next →
      Step thread broker
        ⟨server, locks, Function.update broker.workers thread (next.elim .idle .publisher),
          phase.published broker.counted⟩
  | subscriber {phase : Phase SubscriberPoint} {server : Server Thread}
      {locks : LockTable Thread BoxLock} {next : Option (Phase SubscriberPoint)} :
      broker.workers thread = .subscriber phase →
      PhaseStep SubscriberPoint.lock? SubscriberPoint.SkipsUnlock (SubscriberStep thread) thread
        broker.server broker.locks phase server locks next →
      Step thread broker
        ⟨server, locks, Function.update broker.workers thread (next.elim .idle .subscriber),
          broker.counted⟩
  | create {phase : Phase CreatePoint} {server : Server Thread}
      {locks : LockTable Thread BoxLock} {next : Option (Phase CreatePoint)} :
      broker.workers thread = .create phase →
      PhaseStep CreatePoint.lock? (fun _ _ => False) (CreateStep .sections) thread broker.server
        broker.locks phase server locks next →
      Step thread broker
        ⟨server, locks, Function.update broker.workers thread (next.elim .idle .create),
          phase.filled broker.counted⟩
  | remove {point : LockedRemovePoint} {server : Server Thread}
      {locks : LockTable Thread BoxLock} {next : Option LockedRemovePoint} :
      broker.workers thread = .remove point →
      LockedRemoveStep thread broker.server broker.locks point server locks next →
      Step thread broker
        ⟨server, locks, Function.update broker.workers thread (next.elim .idle .remove),
          broker.counted⟩
  | list {point : ListPoint} {server : Server Thread} {locks : LockTable Thread BoxLock}
      {next : Option ListPoint} : broker.workers thread = .list point →
      ListStep thread broker.server broker.locks point server locks next →
      Step thread broker
        ⟨server, locks, Function.update broker.workers thread (next.elim .idle .list),
          broker.counted⟩

/-- A step moves its own worker only. -/
theorem Step.others {broker broker' : LockedBroker Thread} {thread other : Thread}
    (step : broker.Step thread broker') (different : other ≠ thread) :
    broker'.workers other = broker.workers other := by
  cases step <;> exact Function.update_of_ne different _ _

end LockedBroker

/-- The broker with its `max_sessions` workers, lock by lock -/
def lockedSystem (params : MbrokerParams) :
    ThreadSystem (Fin params.maxSessions) (LockedBroker (Fin params.maxSessions)) where
  initial broker := MbrokerInit params broker.server ∧ broker.locks = LockTable.empty ∧
    ∀ thread, broker.workers thread = .idle
  step thread broker broker' := broker.Step thread broker'

end TecnicoFS.Mbroker
