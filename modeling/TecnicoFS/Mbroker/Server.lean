/-
What the workers of `mbroker.c` share: the file system, the boxes and their locks.

A critical section of a box mutex is one step, so a mutex is seen locked only when a
handler returned without unlocking it.  A box name is the C string `strcmp` compares; the
counters and the size of a box are 64 bits wide.  `Server` also carries a record of what
happened that the code does not keep.
-/

import TecnicoFS.FileSystem.Namespace
import TecnicoFS.Library.ThreadSystem

set_option autoImplicit false

namespace TecnicoFS.Mbroker

open FileSystem TableSearch

/-! ### Messages and boxes -/

def msgMaxLen : Nat := 1024

/-- `char message[MSG_MAX_LEN]` -/
structure Message where
  bytes : List UInt8
  length_eq : bytes.length = msgMaxLen
deriving DecidableEq

namespace Message

/-- The buffer after a read put bytes at its front -/
def receive (message : Message) (bytes : List UInt8) : Message where
  bytes := (bytes ++ message.bytes.drop bytes.length).take msgMaxLen
  length_eq := by
    have whole := message.length_eq
    rw [List.length_take, List.length_append, List.length_drop]
    omega

theorem ext_bytes {left right : Message} (same : left.bytes = right.bytes) : left = right := by
  cases left
  cases right
  cases same
  rfl

/-- A full read replaces the whole buffer. -/
theorem receive_full (message other : Message) : message.receive other.bytes = other := by
  apply ext_bytes
  have short : message.bytes.length ≤ other.bytes.length := by
    rw [message.length_eq, other.length_eq]
  change (other.bytes ++ message.bytes.drop other.bytes.length).take msgMaxLen = other.bytes
  rw [List.drop_of_length_le short, List.append_nil]
  exact List.take_of_length_le (Nat.le_of_eq other.length_eq)

end Message

/-- `box_t` without its mutex and its condition variable -/
structure Box where
  name : CString
  size : UInt64
  nPublishers : UInt64
  nSubscribers : UInt64
deriving DecidableEq

/-- A box that was entered in the table or removed from it -/
inductive BoxEvent where
  | created (boxName : CString)
  | removed (boxName : CString)
deriving DecidableEq

/-- The globals of the server, with who waits for the condition variable of each box.
`occupants` counts the boxes that took a slot and `occupantName` is the name of the last
one; `stored` are the messages its publishers stored, and `events` the entries and removals
of boxes, the last one first. -/
structure Server (Thread : Type) where
  fs : FileSystem.State
  nBoxes : Int
  boxesTable : Nat → Box
  freeBoxes : Nat → AllocationState
  boxMutex : Nat → Option Thread
  waiting : Nat → Thread → Bool
  occupants : Nat → Nat
  occupantName : Nat → CString
  stored : Nat → List Message
  events : List BoxEvent

namespace Server

variable {Thread : Type} (server : Server Thread)

def setFs (fs : FileSystem.State) : Server Thread := { server with fs := fs }

def setBox (boxI : Nat) (box : Box) : Server Thread :=
  { server with boxesTable := Function.update server.boxesTable boxI box }

def IsTaken (boxI : Nat) : Prop := server.freeBoxes boxI = .taken

instance (boxI : Nat) : Decidable (server.IsTaken boxI) :=
  inferInstanceAs (Decidable (_ = _))

/-- Nobody left the mutex of the box locked. -/
def Unlocked (boxI : Nat) : Prop := server.boxMutex boxI = none

theorem setBox_self (boxI : Nat) (box : Box) :
    (server.setBox boxI box).boxesTable boxI = box := Function.update_self _ _ _

theorem setBox_other {boxI other : Nat} (box : Box)
    (different : other ≠ boxI) :
    (server.setBox boxI box).boxesTable other = server.boxesTable other :=
  Function.update_of_ne different _ _

/-! ### Critical sections of a session -/

def addPublisher (boxI : Nat) : Server Thread :=
  server.setBox boxI
    { server.boxesTable boxI with nPublishers := (server.boxesTable boxI).nPublishers + 1 }

def dropPublisher (boxI : Nat) : Server Thread :=
  server.setBox boxI
    { server.boxesTable boxI with nPublishers := (server.boxesTable boxI).nPublishers - 1 }

def addSubscriber (boxI : Nat) : Server Thread :=
  server.setBox boxI
    { server.boxesTable boxI with nSubscribers := (server.boxesTable boxI).nSubscribers + 1 }

def dropSubscriber (boxI : Nat) : Server Thread :=
  server.setBox boxI
    { server.boxesTable boxI with nSubscribers := (server.boxesTable boxI).nSubscribers - 1 }

def addSize (boxI : Nat) : Server Thread :=
  server.setBox boxI
    { server.boxesTable boxI with
      size := (server.boxesTable boxI).size + UInt64.ofNat msgMaxLen }

/-- `cond_broadcast` -/
def broadcast (boxI : Nat) : Server Thread :=
  { server with waiting := Function.update server.waiting boxI (fun _ => false) }

def setWaiting [DecidableEq Thread] (boxI : Nat) (thread : Thread) (waits : Bool) :
    Server Thread :=
  { server with
    waiting := Function.update server.waiting boxI
      (Function.update (server.waiting boxI) thread waits) }

/-- A return without `mutex_unlock` -/
def leaveLocked (boxI : Nat) (thread : Thread) : Server Thread :=
  { server with boxMutex := Function.update server.boxMutex boxI (some thread) }

def recordStored (boxI : Nat) (message : Message) : Server Thread :=
  { server with
    stored := Function.update server.stored boxI (server.stored boxI ++ [message]) }

def record (event : BoxEvent) : Server Thread :=
  { server with events := event :: server.events }

/-! ### The box table -/

/-- `box_find`, and the search of `box_delete` -/
def boxFind (boxName : CString) : Option Nat :=
  firstSlot server.fs.inodeTableSize (fun boxI =>
    server.freeBoxes boxI == .taken && (server.boxesTable boxI).name == boxName)

/-- The entry `box_create` takes -/
def firstFreeBox : Option Nat :=
  firstSlot server.fs.inodeTableSize (fun boxI => server.freeBoxes boxI == .free)

/-- The section of `box_create` under `free_boxes_lock` -/
def takeBox (boxI : Nat) (boxName : CString) : Server Thread :=
  { server with
    freeBoxes := Function.update server.freeBoxes boxI .taken
    nBoxes := server.nBoxes + 1
    occupants := Function.update server.occupants boxI (server.occupants boxI + 1)
    occupantName := Function.update server.occupantName boxI boxName
    stored := Function.update server.stored boxI [] }

/-- The section of `box_create` under the mutex of the box: `n_subscribers` is reset twice
and `n_publishers` is not. -/
def fillBox (boxI : Nat) (boxName : CString) : Server Thread :=
  (server.setBox boxI
    { server.boxesTable boxI with name := boxName, size := 0, nSubscribers := 0 }).record
      (.created boxName)

/-- The entry found by `box_delete` is given back. -/
def deleteBox (boxI : Nat) (boxName : CString) : Server Thread :=
  ({ server with
      freeBoxes := Function.update server.freeBoxes boxI .free
      nBoxes := server.nBoxes - 1 }.broadcast boxI).record (.removed boxName)

theorem takeBox_isTaken (boxI : Nat) (boxName : CString) :
    (server.takeBox boxI boxName).IsTaken boxI := by
  unfold IsTaken
  exact Function.update_self boxI AllocationState.taken server.freeBoxes

theorem deleteBox_free (boxI : Nat) (boxName : CString) :
    (server.deleteBox boxI boxName).freeBoxes boxI = .free := by
  change Function.update server.freeBoxes boxI AllocationState.free boxI = .free
  exact Function.update_self _ _ _

theorem takeBox_other (boxName : CString) {boxI other : Nat} (different : other ≠ boxI) :
    (server.takeBox boxI boxName).IsTaken other ↔ server.IsTaken other :=
  Eq.congr_left (Function.update_of_ne different _ _)

theorem deleteBox_other (boxName : CString) {boxI other : Nat} (different : other ≠ boxI) :
    (server.deleteBox boxI boxName).IsTaken other ↔ server.IsTaken other :=
  Eq.congr_left (Function.update_of_ne different _ _)

theorem deleteBox_notTaken (boxI : Nat) (boxName : CString) :
    ¬ (server.deleteBox boxI boxName).IsTaken boxI := by
  unfold IsTaken
  rw [deleteBox_free]
  intro impossible
  cases impossible

theorem fillBox_name (boxI : Nat) (boxName : CString) :
    ((server.fillBox boxI boxName).boxesTable boxI).name = boxName :=
  congrArg Box.name (server.setBox_self boxI _)

theorem fillBox_other (boxName : CString) {boxI other : Nat} (different : other ≠ boxI) :
    (server.fillBox boxI boxName).boxesTable other = server.boxesTable other :=
  server.setBox_other _ different

/-- The broadcast of `box_delete` wakes everybody who waits for the box. -/
theorem deleteBox_waiting (boxI : Nat) (boxName : CString) (thread : Thread) :
    (server.deleteBox boxI boxName).waiting boxI thread = false := by
  have woken : (server.deleteBox boxI boxName).waiting boxI = fun _ => false :=
    Function.update_self boxI _ server.waiting
  rw [woken]

theorem boxFind_eq_some {boxName : CString} {boxI : Nat}
    (found : server.boxFind boxName = some boxI) :
    boxI < server.fs.inodeTableSize ∧ server.IsTaken boxI ∧
      (server.boxesTable boxI).name = boxName := by
  obtain ⟨passes, inside, _⟩ := firstSlot_eq_some.mp found
  rw [Bool.and_eq_true, beq_iff_eq, beq_iff_eq] at passes
  exact ⟨inside, passes.1, passes.2⟩

theorem firstFreeBox_eq_some {boxI : Nat} (found : server.firstFreeBox = some boxI) :
    boxI < server.fs.inodeTableSize ∧ ¬ server.IsTaken boxI := by
  obtain ⟨passes, inside, _⟩ := firstSlot_eq_some.mp found
  rw [beq_iff_eq] at passes
  refine ⟨inside, ?_⟩
  intro taken
  rw [show server.freeBoxes boxI = .taken from taken] at passes
  cases passes

end Server

/-! ### Starting the server -/

/-- The argument `max_sessions`, which `main` reads as a positive `long` -/
structure MbrokerParams where
  maxSessions : Nat
  positive : 0 < maxSessions
  range : maxSessions < 2 ^ 63

/-- The parameters `mbroker_init` gives to `tfs_init` -/
def MbrokerParams.tfsParams (params : MbrokerParams) : TfsParams where
  maxInodeCount := tfsDefaultParams.maxInodeCount
  maxBlockCount := tfsDefaultParams.maxBlockCount
  maxOpenFilesCount := params.maxSessions
  blockSize := 1024 * 1024
  sizeRange := by
    have range := params.range
    refine ⟨by decide, by decide, by omega, by decide⟩

/-- The server when `mbroker_init` returned: every entry of the box table is free, and the
boxes hold whatever `malloc` left in them. -/
structure MbrokerInit {Thread : Type} (params : MbrokerParams) (server : Server Thread) :
    Prop where
  tfsStarted : ∃ succeeds garbage, tfsInit succeeds garbage params.tfsParams =
    .ok (0, some server.fs)
  nBoxes : server.nBoxes = 0
  freeBoxes : ∀ boxI, server.freeBoxes boxI = .free
  boxMutex : ∀ boxI, server.Unlocked boxI
  waiting : ∀ boxI thread, server.waiting boxI thread = false
  occupants : ∀ boxI, server.occupants boxI = 0
  events : server.events = []

end TecnicoFS.Mbroker
