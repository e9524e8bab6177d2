/-
What a thread in the middle of `tfs_write` or `tfs_read` relies on.

Next to the file system that the threads share stands a second one, on which every call takes
effect at once: a write when its block is known, a read when it is measured.  The two differ
only where a thread holds the lock, and each point of the code says how.
-/

import TecnicoFS.FileSystem.Transfers

set_option autoImplicit false

namespace TecnicoFS.FileSystem

/-! ### Locks -/

/-- The thread is in the critical section of `data_block_alloc`. -/
def WritePoint.InBlocks : WritePoint → Prop
  | .scanBlocks _ | .markBlock _ | .unlockBlocks _ => True
  | _ => False

instance (point : WritePoint) : Decidable point.InBlocks := by
  cases point <;> first | exact instDecidableTrue | exact instDecidableFalse

def TransferPoint.held : TransferPoint → List (TfsLock × LockMode)
  | .idle | .enter _ | .lockEntry _ _ | .returned _ => []
  | .lockInode _ file | .unlockEntry file _ => [(.openFile file, .exclusive)]
  | .clamp transfer file inumber =>
      [(.inode inumber.toNat, transfer.mode), (.openFile file, .exclusive)]
  | .write frame point =>
      (if point.InBlocks then [(.freeBlocksMutex, .exclusive)] else []) ++
        [(.inode frame.inode, .exclusive), (.openFile frame.file, .exclusive)]
  | .read frame _ => [(.inode frame.inode, .shared), (.openFile frame.file, .exclusive)]

theorem TransferPoint.lock?_held {state : State} {point next : TransferPoint} {lock : TfsLock}
    {mode : LockMode} (locks : point.lock? state = some (lock, mode, next)) :
    next.held = (lock, mode) :: point.held := by
  cases point with
  | lockEntry _ _ =>
      cases locks
      rfl
  | lockInode _ _ =>
      cases locks
      rfl
  | write _ point =>
      cases point with
      | lockBlocks =>
          cases locks
          rfl
      | _ => cases locks
  | _ => cases locks

theorem TransferPoint.unlock?_held {point next : TransferPoint} {lock : TfsLock}
    (unlocks : point.unlock? = some (lock, next)) :
    next.held = point.held.filter (fun entry => entry.1 ≠ lock) := by
  cases point with
  | unlockEntry _ _ =>
      cases unlocks
      simp [held]
  | write _ point =>
      cases point with
      | unlockBlocks _ =>
          cases unlocks
          simp [held, WritePoint.InBlocks]
      | unlockInode _ =>
          cases unlocks
          simp [held, WritePoint.InBlocks]
      | _ => cases unlocks
  | read _ point =>
      cases point with
      | unlockInode _ =>
          cases unlocks
          simp [held]
      | _ => cases unlocks
  | _ => cases unlocks

/-! ### Points -/

variable (serial fs : State)

/-- The bytes of the block that the file has -/
def State.InBlock (state : State) (inode address : Nat) : Prop :=
  0 < (state.inodeTable inode).iSize ∧ ∃ block : Nat,
    (state.inodeTable inode).iDataBlock = (block : Int) ∧ block * state.blockSize ≤ address ∧
      address < block * state.blockSize + state.blockSize

/-- The offset has been moved back to the end of the file, but no call has done so. -/
def Clamped (file inode : Nat) : Prop :=
  fs.openFileTable file =
    { serial.openFileTable file with ofOffset := serial.clampedOffset file inode }

/-- The write has been cut and has not taken effect. -/
structure WriteWaits (frame : WriteFrame) (status : CallStatus Transfer ReadResult) : Prop where
  status : ∃ toWrite, status = .pending (.write frame.file (some frame.data) toWrite) ∧
    toWrite ≤ frame.data.length ∧ toWrite + serial.blockSize < 2 ^ 64 ∧
    frame.toWrite = min toWrite (serial.blockSize - serial.clampedOffset frame.file frame.inode)
  nonempty : frame.toWrite ≠ 0
  offset : Clamped serial fs frame.file frame.inode
  inode : serial.inodeTable frame.inode = fs.inodeTable frame.inode

/-- The write has taken effect, and all but its first bytes are still to be copied. -/
structure WriteLeft (frame : WriteFrame) (block start copied : Nat)
    (status : CallStatus Transfer ReadResult) : Prop where
  status : status = .done ⟨frame.toWrite, []⟩
  inside : start + frame.toWrite ≤ serial.blockSize
  covered : frame.toWrite ≤ frame.data.length
  nonempty : frame.toWrite ≠ 0
  entry : serial.openFileTable frame.file =
    { fs.openFileTable frame.file with ofOffset := start + frame.toWrite }
  offset : (fs.openFileTable frame.file).ofOffset = start
  inode : serial.inodeTable frame.inode =
    { fs.inodeTable frame.inode with
      iSize := max (fs.inodeTable frame.inode).iSize (start + frame.toWrite)
      iDataBlock := block }
  bytes : ∀ position, copied ≤ position → position < frame.toWrite →
    frame.data[position]? =
      some (serial.fsData (block * serial.blockSize + (start + position)))

/-- The call has taken effect on entry and inode, and so has the thread. -/
structure WriteOver (frame : WriteFrame) (result : Int)
    (status : CallStatus Transfer ReadResult) : Prop where
  status : status = .done ⟨result, []⟩
  entry : serial.openFileTable frame.file = fs.openFileTable frame.file
  inode : serial.inodeTable frame.inode = fs.inodeTable frame.inode

def WritePoint.Correct (frame : WriteFrame) (status : CallStatus Transfer ReadResult) :
    WritePoint → Prop
  | .cut =>
      status = .pending (.write frame.file (some frame.data) frame.toWrite) ∧
        frame.toWrite ≤ frame.data.length ∧ frame.toWrite + serial.blockSize < 2 ^ 64 ∧
        Clamped serial fs frame.file frame.inode ∧
        serial.inodeTable frame.inode = fs.inodeTable frame.inode
  | .testSize => WriteWaits serial fs frame status
  | .lockBlocks =>
      WriteWaits serial fs frame status ∧ (serial.inodeTable frame.inode).iSize = 0
  | .scanBlocks slot =>
      WriteWaits serial fs frame status ∧ (serial.inodeTable frame.inode).iSize = 0 ∧
        ∀ earlier, earlier < slot → fs.freeBlocks earlier = .taken
  | .markBlock slot =>
      WriteWaits serial fs frame status ∧ (serial.inodeTable frame.inode).iSize = 0 ∧
        slot < serial.dataBlocks ∧ fs.freeBlocks slot = .free ∧
        ∀ earlier, earlier < slot → fs.freeBlocks earlier = .taken
  | .unlockBlocks bnum | .storeBlock bnum =>
      (bnum = -1 ∧ WriteOver serial fs frame (-1) status) ∨
        ∃ block start : Nat, bnum = (block : Int) ∧
          WriteLeft serial fs frame block start 0 status
  | .findBytes =>
      ∃ block start : Nat, WriteLeft serial fs frame block start 0 status ∧
        (fs.inodeTable frame.inode).iDataBlock = (block : Int)
  | .copyBytes address copied =>
      ∃ block start : Nat, WriteLeft serial fs frame block start copied status ∧
        (fs.inodeTable frame.inode).iDataBlock = (block : Int) ∧
        address = block * serial.blockSize + start ∧ copied ≤ frame.toWrite
  | .advance =>
      ∃ block start : Nat, WriteLeft serial fs frame block start frame.toWrite status ∧
        (fs.inodeTable frame.inode).iDataBlock = (block : Int)
  | .grow =>
      status = .done ⟨ssizeOfSize frame.toWrite, []⟩ ∧
        serial.openFileTable frame.file = fs.openFileTable frame.file ∧
        serial.inodeTable frame.inode =
          { fs.inodeTable frame.inode with
            iSize := max (fs.inodeTable frame.inode).iSize
              (fs.openFileTable frame.file).ofOffset }
  | .unlockInode result => WriteOver serial fs frame result status

/-- The read has taken effect. -/
structure ReadLeft (frame : ReadFrame) (toRead block start : Nat)
    (status : CallStatus Transfer ReadResult) : Prop where
  status : status =
    .done ⟨toRead, serial.fsData.readBytes (block * serial.blockSize + start) toRead⟩
  inside : start + toRead ≤ serial.blockSize
  entry : serial.openFileTable frame.file =
    { fs.openFileTable frame.file with ofOffset := start + toRead }
  offset : (fs.openFileTable frame.file).ofOffset = start
  nonempty : 0 < (serial.inodeTable frame.inode).iSize
  block : (serial.inodeTable frame.inode).iDataBlock = (block : Int)

def ReadPoint.Correct (frame : ReadFrame) (status : CallStatus Transfer ReadResult) :
    ReadPoint → Prop
  | .measure =>
      status = .pending (.read frame.file true frame.len) ∧
        Clamped serial fs frame.file frame.inode
  | .findBytes toRead => ∃ block start, ReadLeft serial fs frame toRead block start status
  | .copyBytes toRead address copied =>
      ∃ block start, ReadLeft serial fs frame toRead block start status ∧
        address = block * serial.blockSize + start ∧ copied.length ≤ toRead ∧
        copied = serial.fsData.readBytes address copied.length
  | .advance toRead copied =>
      ∃ block start, ReadLeft serial fs frame toRead block start status ∧
        copied = serial.fsData.readBytes (block * serial.blockSize + start) toRead
  | .unlockInode result =>
      status = .done result ∧ serial.openFileTable frame.file = fs.openFileTable frame.file

/-- The call of the thread waits for its effect. -/
def OpenTransfer.Waits (transfer : OpenTransfer) (file : Nat)
    (status : CallStatus Transfer ReadResult) : Prop :=
  status = .pending (transfer.transfer file) ∧
    (transfer.transfer file).call.Admissible serial.blockSize ∧ serial.HandleTaken file

def TransferPoint.Correct (status : CallStatus Transfer ReadResult) : TransferPoint → Prop
  | .idle => status = .outside
  | .enter transfer =>
      status = .pending transfer ∧ transfer.call.Admissible serial.blockSize
  | .lockEntry transfer file => transfer.Waits serial file status
  | .lockInode transfer file =>
      transfer.Waits serial file status ∧
        serial.openFileTable file = fs.openFileTable file
  | .clamp transfer file inumber =>
      transfer.Waits serial file status ∧
        serial.openFileTable file = fs.openFileTable file ∧
        (serial.openFileTable file).ofInumber = inumber ∧
        serial.inodeTable inumber.toNat = fs.inodeTable inumber.toNat
  | .write frame point =>
      serial.HandleTaken frame.file ∧
        (serial.openFileTable frame.file).ofInumber = (frame.inode : Int) ∧
        point.Correct serial fs frame status
  | .read frame point =>
      serial.HandleTaken frame.file ∧
        (serial.openFileTable frame.file).ofInumber = (frame.inode : Int) ∧
        point.Correct serial fs frame status
  | .unlockEntry file result =>
      status = .done result ∧ serial.openFileTable file = fs.openFileTable file
  | .returned result => status = .done result

/-! ### The two file systems -/

/-- How many bytes a write that took effect has copied -/
def WritePoint.copied? : WritePoint → Option Nat
  | .unlockBlocks bnum | .storeBlock bnum => if bnum = -1 then none else some 0
  | .findBytes => some 0
  | .copyBytes _ copied => some copied
  | _ => none

/-- A write that took effect has not copied this byte. -/
def TransferPoint.Unwritten (address : Nat) : TransferPoint → Prop
  | .write frame point =>
      ∃ block start copied : Nat, point.copied? = some copied ∧
        (serial.inodeTable frame.inode).iDataBlock = (block : Int) ∧
        (serial.openFileTable frame.file).ofOffset = start + frame.toWrite ∧
        block * serial.blockSize + (start + copied) ≤ address ∧
        address < block * serial.blockSize + (start + frame.toWrite)
  | _ => False

/-- The two file systems differ only in what some thread holds. -/
structure Settles {Thread : Type} (points : Thread → TransferPoint) : Prop where
  fsParams : serial.fsParams = fs.fsParams
  dataBytes : serial.dataBytes = fs.dataBytes
  freeinodeTs : serial.freeinodeTs = fs.freeinodeTs
  freeBlocks : serial.freeBlocks = fs.freeBlocks
  freeOpenFileEntries : serial.freeOpenFileEntries = fs.freeOpenFileEntries
  refers : ∀ file, (serial.openFileTable file).ofInumber = (fs.openFileTable file).ofInumber
  entries : ∀ file, (∀ thread, (.openFile file, .exclusive) ∉ (points thread).held) →
    serial.openFileTable file = fs.openFileTable file
  inodes : ∀ inode, (∀ thread, (.inode inode, .exclusive) ∉ (points thread).held) →
    serial.inodeTable inode = fs.inodeTable inode
  bytes : ∀ address, (∀ thread, ¬ (points thread).Unwritten serial address) →
    serial.fsData address = fs.fsData address

/-- A step changes nothing but what its thread holds. -/
structure Frame (held : List (TfsLock × LockMode)) (writable : Nat → Prop)
    (state state' : State) : Prop where
  fsParams : state'.fsParams = state.fsParams
  dataBytes : state'.dataBytes = state.dataBytes
  freeinodeTs : state'.freeinodeTs = state.freeinodeTs
  freeOpenFileEntries : state'.freeOpenFileEntries = state.freeOpenFileEntries
  refers : ∀ file, (state'.openFileTable file).ofInumber = (state.openFileTable file).ofInumber
  entries : ∀ file, (.openFile file, .exclusive) ∉ held →
    state'.openFileTable file = state.openFileTable file
  inodes : ∀ inode, (.inode inode, .exclusive) ∉ held →
    state'.inodeTable inode = state.inodeTable inode
  blocks : (.freeBlocksMutex, .exclusive) ∉ held → state'.freeBlocks = state.freeBlocks
  bytes : ∀ address, ¬ writable address → state'.fsData address = state.fsData address

namespace Frame

variable {held : List (TfsLock × LockMode)} {writable : Nat → Prop} {state : State}

theorem refl (state : State) : Frame held writable state state :=
  ⟨rfl, rfl, rfl, rfl, fun _ => rfl, fun _ _ => rfl, fun _ _ => rfl, fun _ => rfl, fun _ _ => rfl⟩

theorem trans {middle state' : State} (first : Frame held writable state middle)
    (second : Frame held writable middle state') : Frame held writable state state' where
  fsParams := second.fsParams.trans first.fsParams
  dataBytes := second.dataBytes.trans first.dataBytes
  freeinodeTs := second.freeinodeTs.trans first.freeinodeTs
  freeOpenFileEntries := second.freeOpenFileEntries.trans first.freeOpenFileEntries
  refers file := (second.refers file).trans (first.refers file)
  entries file other := (second.entries file other).trans (first.entries file other)
  inodes inode other := (second.inodes inode other).trans (first.inodes inode other)
  blocks other := (second.blocks other).trans (first.blocks other)
  bytes address other := (second.bytes address other).trans (first.bytes address other)

theorem setOffset {file : Nat} (holds : (.openFile file, .exclusive) ∈ held) (offset : Nat) :
    Frame held writable state (state.setOffset file offset) where
  fsParams := rfl
  dataBytes := rfl
  freeinodeTs := rfl
  freeOpenFileEntries := rfl
  refers other := by
    rw [State.setOffset_apply]
    split
    case isTrue same => rw [same]
    case isFalse => rfl
  entries other unheld := by
    apply Function.update_of_ne
    intro same
    rw [same] at unheld
    exact unheld holds
  inodes _ _ := rfl
  blocks _ := rfl
  bytes _ _ := rfl

theorem setInode {inode : Nat} (holds : (.inode inode, .exclusive) ∈ held) (node : Inode) :
    Frame held writable state (state.setInode inode node) where
  fsParams := rfl
  dataBytes := rfl
  freeinodeTs := rfl
  freeOpenFileEntries := rfl
  refers _ := rfl
  entries _ _ := rfl
  inodes other unheld := by
    apply Function.update_of_ne
    intro same
    rw [same] at unheld
    exact unheld holds
  blocks _ := rfl
  bytes _ _ := rfl

theorem setFreeBlock (holds : (.freeBlocksMutex, .exclusive) ∈ held) (slot : Nat)
    (mark : AllocationState) : Frame held writable state (state.setFreeBlock slot mark) where
  fsParams := rfl
  dataBytes := rfl
  freeinodeTs := rfl
  freeOpenFileEntries := rfl
  refers _ := rfl
  entries _ _ := rfl
  inodes _ _ := rfl
  blocks unheld := (unheld holds).elim
  bytes _ _ := rfl

theorem store {address : Nat} {bytes : List UInt8}
    (inside : ∀ position, position < bytes.length → writable (address + position)) :
    Frame held writable state (state.store address bytes) where
  fsParams := rfl
  dataBytes := rfl
  freeinodeTs := rfl
  freeOpenFileEntries := rfl
  refers _ := rfl
  entries _ _ := rfl
  inodes _ _ := rfl
  blocks _ := rfl
  bytes other unwritable := by
    apply ByteMemory.writeBytes_outside
    by_contra touched
    have lower : address ≤ other := by omega
    have upper : other - address < bytes.length := by omega
    have writes := inside (other - address) upper
    rw [Nat.add_sub_cancel' lower] at writes
    exact unwritable writes

end Frame

/-! ### Steps of other threads -/

/-- Nothing changes of what the thread holds. -/
structure Spared (own : List (TfsLock × LockMode)) (serial fs serial' fs' : State) : Prop where
  fsParams : serial'.fsParams = serial.fsParams
  freeOpenFileEntries : serial'.freeOpenFileEntries = serial.freeOpenFileEntries
  entries : ∀ file, (.openFile file, .exclusive) ∈ own →
    serial'.openFileTable file = serial.openFileTable file ∧
      fs'.openFileTable file = fs.openFileTable file
  inodes : ∀ inode mode, (.inode inode, mode) ∈ own →
    serial'.inodeTable inode = serial.inodeTable inode ∧
      fs'.inodeTable inode = fs.inodeTable inode
  blocks : (.freeBlocksMutex, .exclusive) ∈ own → fs'.freeBlocks = fs.freeBlocks
  bytes : ∀ inode mode, (.inode inode, mode) ∈ own → ∀ address, serial.InBlock inode address →
    serial'.fsData address = serial.fsData address

end TecnicoFS.FileSystem
