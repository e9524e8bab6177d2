/-
What one statement of `tfs_write` or `tfs_read` does to the two file systems.

A statement changes only what its thread holds, so that the points of the other threads stay
correct; and it takes its own thread from a correct point to a correct one, where the call takes
effect on the second file system at one of them.
-/

import TecnicoFS.FileSystem.TransferPoints

set_option autoImplicit false

namespace TecnicoFS.FileSystem

open FaultAction

variable {serial fs serial' fs' : State} {status : CallStatus Transfer ReadResult}

/-! ### Statements of other threads -/

section
variable {own : List (TfsLock × LockMode)} {frame : WriteFrame}

theorem Spared.blockSize (spared : Spared own serial fs serial' fs') :
    serial'.blockSize = serial.blockSize := congrArg TfsParams.blockSize spared.fsParams

theorem Spared.handleTaken (spared : Spared own serial fs serial' fs') {file : Nat}
    (taken : serial.HandleTaken file) : serial'.HandleTaken file := by
  unfold State.HandleTaken State.maxOpenFiles at taken ⊢
  rw [spared.fsParams, spared.freeOpenFileEntries]
  exact taken

theorem Spared.waits (spared : Spared own serial fs serial' fs') {transfer : OpenTransfer}
    {file : Nat} (waits : transfer.Waits serial file status) :
    transfer.Waits serial' file status := by
  obtain ⟨pending, admissible, taken⟩ := waits
  rw [← spared.blockSize] at admissible
  exact ⟨pending, admissible, spared.handleTaken taken⟩

theorem Spared.clampedOffset (spared : Spared own serial fs serial' fs') {file inode : Nat}
    {mode : LockMode} (entry : (.openFile file, .exclusive) ∈ own)
    (node : (.inode inode, mode) ∈ own) :
    serial'.clampedOffset file inode = serial.clampedOffset file inode := by
  unfold State.clampedOffset
  rw [(spared.entries file entry).1, (spared.inodes inode mode node).1]

theorem Clamped.kept {file inode : Nat} {mode : LockMode}
    (clamped : Clamped serial fs file inode) (spared : Spared own serial fs serial' fs')
    (entry : (.openFile file, .exclusive) ∈ own) (node : (.inode inode, mode) ∈ own) :
    Clamped serial' fs' file inode := by
  unfold Clamped
  rw [spared.clampedOffset entry node, (spared.entries file entry).1,
    (spared.entries file entry).2]
  exact clamped

variable (spared : Spared own serial fs serial' fs')
  (entry : (.openFile frame.file, .exclusive) ∈ own)
  (node : (.inode frame.inode, .exclusive) ∈ own)

include spared entry node

theorem WriteWaits.kept (waits : WriteWaits serial fs frame status) :
    WriteWaits serial' fs' frame status where
  status := by
    rw [spared.blockSize, spared.clampedOffset entry node]
    exact waits.status
  nonempty := waits.nonempty
  offset := Clamped.kept waits.offset spared entry node
  inode := by
    rw [(spared.inodes _ _ node).1, (spared.inodes _ _ node).2]
    exact waits.inode

theorem WriteLeft.kept {block start copied : Nat}
    (left : WriteLeft serial fs frame block start copied status) :
    WriteLeft serial' fs' frame block start copied status where
  status := left.status
  inside := by
    rw [spared.blockSize]
    exact left.inside
  covered := left.covered
  nonempty := left.nonempty
  entry := by
    rw [(spared.entries _ entry).1, (spared.entries _ entry).2]
    exact left.entry
  offset := by
    rw [(spared.entries _ entry).2]
    exact left.offset
  inode := by
    rw [(spared.inodes _ _ node).1, (spared.inodes _ _ node).2]
    exact left.inode
  bytes position low high := by
    have nonempty := left.nonempty
    have inside := left.inside
    rw [spared.blockSize, spared.bytes _ _ node, left.bytes position low high]
    unfold State.InBlock
    rw [left.inode]
    refine ⟨?_, block, rfl, ?_, ?_⟩
    · dsimp only
      omega
    · omega
    · omega

theorem WriteOver.kept {result : Int} (ended : WriteOver serial fs frame result status) :
    WriteOver serial' fs' frame result status where
  status := ended.status
  entry := by
    rw [(spared.entries _ entry).1, (spared.entries _ entry).2]
    exact ended.entry
  inode := by
    rw [(spared.inodes _ _ node).1, (spared.inodes _ _ node).2]
    exact ended.inode

theorem WritePoint.Correct.kept {point : WritePoint}
    (blocks : point.InBlocks → (.freeBlocksMutex, .exclusive) ∈ own)
    (correct : point.Correct serial fs frame status) :
    point.Correct serial' fs' frame status := by
  have entries := spared.entries _ entry
  have inodes := spared.inodes _ _ node
  have dataBlocks : serial'.dataBlocks = serial.dataBlocks :=
    congrArg TfsParams.maxBlockCount spared.fsParams
  cases point with
  | cut =>
      obtain ⟨pending, covered, short, clamped, same⟩ := correct
      rw [← spared.blockSize] at short
      rw [← inodes.1, ← inodes.2] at same
      exact ⟨pending, covered, short, clamped.kept spared entry node, same⟩
  | testSize => exact WriteWaits.kept spared entry node correct
  | lockBlocks =>
      obtain ⟨waits, empty⟩ := correct
      rw [← inodes.1] at empty
      exact ⟨waits.kept spared entry node, empty⟩
  | scanBlocks slot =>
      obtain ⟨waits, empty, earlier⟩ := correct
      rw [← inodes.1] at empty
      rw [← spared.blocks (blocks trivial)] at earlier
      exact ⟨waits.kept spared entry node, empty, earlier⟩
  | markBlock slot =>
      obtain ⟨waits, empty, inside, isFree, earlier⟩ := correct
      rw [← inodes.1] at empty
      rw [← dataBlocks] at inside
      rw [← spared.blocks (blocks trivial)] at isFree earlier
      exact ⟨waits.kept spared entry node, empty, inside, isFree, earlier⟩
  | unlockBlocks bnum =>
      rcases correct with ⟨same, ended⟩ | ⟨block, start, same, left⟩
      · exact Or.inl ⟨same, ended.kept spared entry node⟩
      · exact Or.inr ⟨block, start, same, left.kept spared entry node⟩
  | storeBlock bnum =>
      rcases correct with ⟨same, ended⟩ | ⟨block, start, same, left⟩
      · exact Or.inl ⟨same, ended.kept spared entry node⟩
      · exact Or.inr ⟨block, start, same, left.kept spared entry node⟩
  | findBytes =>
      obtain ⟨block, start, left, stored⟩ := correct
      rw [← inodes.2] at stored
      exact ⟨block, start, left.kept spared entry node, stored⟩
  | copyBytes address copied =>
      obtain ⟨block, start, left, stored, base, short⟩ := correct
      rw [← inodes.2] at stored
      rw [← spared.blockSize] at base
      exact ⟨block, start, left.kept spared entry node, stored, base, short⟩
  | advance =>
      obtain ⟨block, start, left, stored⟩ := correct
      rw [← inodes.2] at stored
      exact ⟨block, start, left.kept spared entry node, stored⟩
  | grow =>
      obtain ⟨done, sameEntry, grown⟩ := correct
      rw [← entries.1, ← entries.2] at sameEntry
      rw [← inodes.1, ← inodes.2, ← entries.2] at grown
      exact ⟨done, sameEntry, grown⟩
  | unlockInode result => exact WriteOver.kept spared entry node correct

end

section
variable {own : List (TfsLock × LockMode)} {frame : ReadFrame}
  (spared : Spared own serial fs serial' fs')
  (entry : (.openFile frame.file, .exclusive) ∈ own)
  (node : (.inode frame.inode, .shared) ∈ own)

include spared entry node

theorem ReadLeft.kept {toRead block start : Nat}
    (left : ReadLeft serial fs frame toRead block start status) :
    ReadLeft serial' fs' frame toRead block start status ∧
      ∀ length, length ≤ toRead →
        serial'.fsData.readBytes (block * serial'.blockSize + start) length =
          serial.fsData.readBytes (block * serial.blockSize + start) length := by
  have inside := left.inside
  have same (length : Nat) (short : length ≤ toRead) :
      serial'.fsData.readBytes (block * serial'.blockSize + start) length =
        serial.fsData.readBytes (block * serial.blockSize + start) length := by
    rw [spared.blockSize]
    apply ByteMemory.readBytes_congr
    intro position low high
    apply spared.bytes _ _ node
    exact ⟨left.nonempty, block, left.block, by omega, by omega⟩
  refine ⟨⟨?_, ?_, ?_, ?_, ?_, ?_⟩, same⟩
  · rw [same toRead (Nat.le_refl _)]
    exact left.status
  · rw [spared.blockSize]
    exact inside
  · rw [(spared.entries _ entry).1, (spared.entries _ entry).2]
    exact left.entry
  · rw [(spared.entries _ entry).2]
    exact left.offset
  · rw [(spared.inodes _ _ node).1]
    exact left.nonempty
  · rw [(spared.inodes _ _ node).1]
    exact left.block

theorem ReadPoint.Correct.kept {point : ReadPoint}
    (correct : point.Correct serial fs frame status) :
    point.Correct serial' fs' frame status := by
  cases point with
  | measure =>
      obtain ⟨pending, clamped⟩ := correct
      exact ⟨pending, clamped.kept spared entry node⟩
  | findBytes toRead =>
      obtain ⟨block, start, left⟩ := correct
      exact ⟨block, start, (left.kept spared entry node).1⟩
  | copyBytes toRead address copied =>
      obtain ⟨block, start, left, base, short, bytes⟩ := correct
      obtain ⟨left', same⟩ := left.kept spared entry node
      rw [base, ← same copied.length short] at bytes
      rw [spared.blockSize] at bytes
      refine ⟨block, start, left', ?_, short, ?_⟩
      · rw [spared.blockSize]
        exact base
      · rw [base]
        exact bytes
  | advance toRead copied =>
      obtain ⟨block, start, left, bytes⟩ := correct
      obtain ⟨left', same⟩ := left.kept spared entry node
      rw [← same toRead (Nat.le_refl _)] at bytes
      exact ⟨block, start, left', bytes⟩
  | unlockInode result =>
      obtain ⟨done, same⟩ := correct
      rw [← (spared.entries _ entry).1, ← (spared.entries _ entry).2] at same
      exact ⟨done, same⟩

end

/-- A thread whose locks are spared stays at a correct point. -/
theorem TransferPoint.Correct.kept {point : TransferPoint}
    (correct : point.Correct serial fs status) (spared : Spared point.held serial fs serial' fs') :
    point.Correct serial' fs' status := by
  cases point with
  | idle => exact correct
  | enter transfer =>
      obtain ⟨pending, admissible⟩ := correct
      rw [← spared.blockSize] at admissible
      exact ⟨pending, admissible⟩
  | lockEntry transfer file => exact spared.waits correct
  | lockInode transfer file =>
      obtain ⟨waits, same⟩ := correct
      have entries := spared.entries file List.mem_cons_self
      rw [← entries.1, ← entries.2] at same
      exact ⟨spared.waits waits, same⟩
  | clamp transfer file inumber =>
      obtain ⟨waits, same, refers, node⟩ := correct
      have entries := spared.entries file (List.mem_cons_of_mem _ List.mem_cons_self)
      have inodes := spared.inodes inumber.toNat _ List.mem_cons_self
      rw [← entries.1, ← entries.2] at same
      rw [← entries.1] at refers
      rw [← inodes.1, ← inodes.2] at node
      exact ⟨spared.waits waits, same, refers, node⟩
  | write frame point =>
      obtain ⟨taken, refers, correct⟩ := correct
      have entry : (.openFile frame.file, .exclusive) ∈ held (.write frame point) :=
        List.mem_append_right _ (List.mem_cons_of_mem _ List.mem_cons_self)
      have node : (.inode frame.inode, .exclusive) ∈ held (.write frame point) :=
        List.mem_append_right _ List.mem_cons_self
      rw [← (spared.entries _ entry).1] at refers
      refine ⟨spared.handleTaken taken, refers,
        WritePoint.Correct.kept spared entry node ?_ correct⟩
      intro inBlocks
      apply List.mem_append_left
      rw [if_pos inBlocks]
      exact List.mem_cons_self
  | read frame point =>
      obtain ⟨taken, refers, correct⟩ := correct
      have entry : (.openFile frame.file, .exclusive) ∈ held (.read frame point) :=
        List.mem_cons_of_mem _ List.mem_cons_self
      rw [← (spared.entries _ entry).1] at refers
      exact ⟨spared.handleTaken taken, refers,
        ReadPoint.Correct.kept spared entry List.mem_cons_self correct⟩
  | unlockEntry file result =>
      obtain ⟨done, same⟩ := correct
      have entries := spared.entries file List.mem_cons_self
      rw [← entries.1, ← entries.2] at same
      exact ⟨done, same⟩
  | returned result => exact correct

/-! ### Statements of the thread itself -/

/-- What a thread with these locks can rely on -/
structure Ground (own : List (TfsLock × LockMode)) (serial fs : State) : Prop where
  inv : Invariant serial none
  fits : serial.Fits
  fsParams : serial.fsParams = fs.fsParams
  dataBytes : serial.dataBytes = fs.dataBytes
  freeBlocks : serial.freeBlocks = fs.freeBlocks
  freeOpenFileEntries : serial.freeOpenFileEntries = fs.freeOpenFileEntries
  inodes : ∀ inode, (.inode inode, .shared) ∈ own →
    serial.inodeTable inode = fs.inodeTable inode
  bytes : ∀ inode, (.inode inode, .shared) ∈ own → ∀ address, serial.InBlock inode address →
    fs.fsData address = serial.fsData address

/-- The bytes of the files that the thread writes to -/
def Writable (own : List (TfsLock × LockMode)) (serial : State) (address : Nat) : Prop :=
  ∃ inode, (.inode inode, .exclusive) ∈ own ∧ serial.InBlock inode address

/-- The call of the thread takes effect, or nothing happens on the second file system. -/
inductive Effect (serial : State) (status : CallStatus Transfer ReadResult) :
    State → CallStatus Transfer ReadResult → Prop where
  | stays : Effect serial status serial status
  | takes {transfer : Transfer} {result : ReadResult} {serial' : State} :
      status = .pending transfer → transfer.call.run serial = .ok (result, serial') →
      Effect serial status serial' (.done result)

/-- A statement that keeps to what its thread holds and ends at a correct point -/
structure StatementOk (point : TransferPoint) (serial fs : State) (next : TransferPoint)
    (serial' fs' : State) (status' : CallStatus Transfer ReadResult) : Prop where
  held : next.held = point.held
  correct : next.Correct serial' fs' status'
  serialFrame : Frame point.held (Writable point.held serial') serial serial'
  frame : Frame point.held (Writable point.held serial') fs fs'
  freeBlocks : serial'.freeBlocks = fs'.freeBlocks
  inv : Invariant serial' none
  bytes : ∀ address, ¬ next.Unwritten serial' address →
    serial'.fsData address = fs'.fsData address ∨
      (¬ point.Unwritten serial address ∧ serial'.fsData address = serial.fsData address ∧
        fs'.fsData address = fs.fsData address)

/-- The statement runs, and the second file system keeps up with it. -/
def StatementRuns (point : TransferPoint) (serial fs : State) (status : CallStatus Transfer ReadResult)
    (action : TfsAction TransferPoint) : Prop :=
  ∃ next fs' serial' status', action fs = .ok (next, fs') ∧
    Effect serial status serial' status' ∧ StatementOk point serial fs next serial' fs' status'

variable {point next : TransferPoint} {action : TfsAction TransferPoint}

theorem Ground.blockSize (ground : Ground point.held serial fs) :
    serial.blockSize = fs.blockSize := congrArg TfsParams.blockSize ground.fsParams

theorem Ground.handleTaken (ground : Ground point.held serial fs) {file : Nat} :
    serial.HandleTaken file ↔ fs.HandleTaken file := by
  unfold State.HandleTaken State.maxOpenFiles
  rw [ground.fsParams, ground.freeOpenFileEntries]

/-- A statement that changes neither file system -/
theorem Ground.control (ground : Ground point.held serial fs)
    (correct : next.Correct serial fs status) (held : next.held = point.held)
    (ran : action fs = .ok (next, fs))
    (unwritten : ∀ address, point.Unwritten serial address → next.Unwritten serial address) :
    StatementRuns point serial fs status action :=
  ⟨next, fs, serial, status, ran, .stays, held, correct, .refl serial, .refl fs,
    ground.freeBlocks, ground.inv,
    fun _ written => Or.inr ⟨fun before => written (unwritten _ before), rfl, rfl⟩⟩

/-- A statement that changes the first file system, but none of its bytes -/
theorem Ground.local (ground : Ground point.held serial fs)
    (correct : next.Correct serial fs' status) (held : next.held = point.held)
    (ran : action fs = .ok (next, fs'))
    (frame : Frame point.held (Writable point.held serial) fs fs')
    (freeBlocks : fs'.freeBlocks = fs.freeBlocks) (bytes : fs'.fsData = fs.fsData)
    (unwritten : ∀ address, point.Unwritten serial address → next.Unwritten serial address) :
    StatementRuns point serial fs status action := by
  refine ⟨next, fs', serial, status, ran, .stays, held, correct, .refl serial, frame,
    ground.freeBlocks.trans freeBlocks.symm, ground.inv, ?_⟩
  intro address written
  exact Or.inr ⟨fun before => written (unwritten address before), rfl, by rw [bytes]⟩

/-- The call takes effect, and neither file system changes any byte. -/
theorem Ground.takes (ground : Ground point.held serial fs) {transfer : Transfer}
    {result : ReadResult} (pending : status = .pending transfer)
    (returned : transfer.call.run serial = .ok (result, serial'))
    (correct : next.Correct serial' fs (.done result)) (held : next.held = point.held)
    (ran : action fs = .ok (next, fs))
    (frame : Frame point.held (Writable point.held serial') serial serial')
    (freeBlocks : serial'.freeBlocks = serial.freeBlocks)
    (bytes : serial'.fsData = serial.fsData) (inv : Invariant serial' none)
    (unwritten : ∀ address, ¬ point.Unwritten serial address) :
    StatementRuns point serial fs status action := by
  refine ⟨next, fs, serial', .done result, ran, .takes pending returned, held, correct, frame,
    .refl fs, freeBlocks.trans ground.freeBlocks, inv, ?_⟩
  intro address _
  exact Or.inr ⟨unwritten address, by rw [bytes], rfl⟩

/-- A call that is admissible returns. -/
theorem exists_callEffect (inv : Invariant serial none) (fits : serial.Fits) {transfer : Transfer}
    (admissible : transfer.call.Admissible serial.blockSize) :
    ∃ result serial', transfer.call.run serial = .ok (result, serial') ∧
      CallEffect serial transfer.call result serial' := by
  cases transfer with
  | write fhandle buffer toWrite =>
      obtain ⟨result, serial', returned, effect⟩ := (@outcome_tfsWrite (fun _ => False) _ inv
        (Or.inr fits) fhandle buffer toWrite (by
          rintro data rfl
          exact Or.inr admissible)).returns
      refine ⟨⟨result, []⟩, serial', ?_, effect⟩
      change (tfsWrite fhandle buffer toWrite >>= _) serial = _
      rw [bind_of_ok returned]
      rfl
  | read fhandle buffered len =>
      obtain ⟨result, serial', returned, effect⟩ :=
        (@outcome_tfsRead (fun _ => False) _ inv (Or.inr fits) fhandle buffered len).returns
      exact ⟨result, serial', returned, effect⟩

end TecnicoFS.FileSystem
