/-
The statements of `write_to_open_file`.

The write takes effect when it is cut to nothing, when the file turns out to have a block, when
the scan of the block map ends without one, or when a block is marked.  What the thread has
left to do is then its own: the entry, the inode and the bytes of the block.
-/

import TecnicoFS.FileSystem.TransferSteps

set_option autoImplicit false

namespace TecnicoFS.FileSystem

open FaultAction

variable {serial fs : State} {status : CallStatus Transfer ReadResult} {frame : WriteFrame}

/-! ### Locks -/

theorem WriteFrame.holds_entry (frame : WriteFrame) (point : WritePoint) :
    (.openFile frame.file, .exclusive) ∈ (TransferPoint.write frame point).held :=
  List.mem_append_right _ (List.mem_cons_of_mem _ List.mem_cons_self)

theorem WriteFrame.holds_inode (frame : WriteFrame) (point : WritePoint) :
    (.inode frame.inode, .exclusive) ∈ (TransferPoint.write frame point).held :=
  List.mem_append_right _ List.mem_cons_self

/-- A point at which nothing is left to copy -/
theorem not_unwritten {point : WritePoint} (nothing : point.copied? = none) (address : Nat) :
    ¬ (TransferPoint.write frame point).Unwritten serial address := by
  rintro ⟨_, _, _, copied, _⟩
  rw [nothing] at copied
  cases copied

/-! ### The sizes -/

theorem Clamped.offset {file inode : Nat} (clamped : Clamped serial fs file inode) :
    (fs.openFileTable file).ofOffset = serial.clampedOffset file inode := by
  unfold Clamped at clamped
  rw [clamped]

/-- The entry of the second file system catches up. -/
theorem Clamped.setOffset {file inode : Nat} (clamped : Clamped serial fs file inode) :
    (serial.setOffset file (serial.clampedOffset file inode)).openFileTable file =
      fs.openFileTable file := by
  unfold Clamped at clamped
  rw [State.setOffset_apply, if_pos rfl, clamped]

/-- A block of a file that is not empty lies in the data area. -/
theorem Invariant.blockInside (inv : Invariant serial none) (fits : serial.Fits) {inode block : Nat}
    (taken : serial.InodeTaken inode) (nonzero : inode ≠ 0)
    (nonempty : 0 < (serial.inodeTable inode).iSize)
    (same : (serial.inodeTable inode).iDataBlock = (block : Int)) :
    block < serial.dataBlocks ∧ block * serial.blockSize + serial.blockSize ≤ serial.dataBytes := by
  obtain ⟨own, ownEq, _, ownTaken, _⟩ := inv.backed taken nonzero nonempty
  have equal : own = block := Int.ofNat_inj.mp (ownEq.symm.trans same)
  rw [equal] at ownTaken
  exact ⟨ownTaken.1, inv.geometry.blockEnd fits ownTaken.1⟩

/-- `data_block_get` -/
theorem Ground.block_get {own : List (TfsLock × LockMode)} (ground : Ground own serial fs)
    {inode block : Nat} (taken : serial.InodeTaken inode) (nonzero : inode ≠ 0)
    (nonempty : 0 < (serial.inodeTable inode).iSize)
    (same : (serial.inodeTable inode).iDataBlock = (block : Int)) :
    dataBlockGet (block : Int) fs = .ok (block * serial.blockSize, fs) := by
  obtain ⟨inside, blockEnd⟩ := ground.inv.blockInside ground.fits taken nonzero nonempty same
  have small := ground.inv.geometry.dataBytesLt
  have blocks : block < fs.dataBlocks := by
    have equal : serial.dataBlocks = fs.dataBlocks :=
      congrArg TfsParams.maxBlockCount ground.fsParams
    rw [← equal]
    exact inside
  obtain ⟨base, fs', returned, isBase, unchanged⟩ :=
    (@outcome_dataBlockGet (fun _ => False) fs block blocks).returns
  have blockSize : fs.blockSize = serial.blockSize :=
    (congrArg TfsParams.blockSize ground.fsParams).symm
  rw [blockSize, Nat.mod_eq_of_lt (by omega)] at isBase
  rw [returned, isBase, unchanged]

/-- The inode of an open file -/
theorem Invariant.openInode (inv : Invariant serial none) {file inode : Nat}
    (taken : serial.HandleTaken file)
    (refers : (serial.openFileTable file).ofInumber = (inode : Int)) :
    inode ≠ 0 ∧ serial.InodeTaken inode ∧ (serial.inodeTable inode).iNodeType = .tFile := by
  obtain ⟨held, heldEq, nonzero, inodeTaken, isFile⟩ := inv.holders.handleHolds file taken
  have same : held = inode := Int.ofNat_inj.mp (heldEq.symm.trans refers)
  rw [same] at nonzero inodeTaken isFile
  exact ⟨nonzero, inodeTaken, isFile⟩

/-! ### The effect -/

/-- What the call does -/
theorem WriteFrame.exists_effect (inv : Invariant serial none) (fits : serial.Fits)
    (taken : serial.HandleTaken frame.file)
    (refers : (serial.openFileTable frame.file).ofInumber = (frame.inode : Int)) {toWrite : Nat}
    (covered : toWrite ≤ frame.data.length) (short : toWrite + serial.blockSize < 2 ^ 64) :
    ∃ result serial',
      (Transfer.write frame.file (some frame.data) toWrite).call.run serial =
        .ok (⟨result, []⟩, serial') ∧
      WriteEffect serial frame.file frame.inode frame.data toWrite result serial' ∧
      Invariant serial' none := by
  obtain ⟨nonzero, inodeTaken, _⟩ := inv.openInode taken refers
  have safe := @Wide.writeSafe (fun _ => False) _ (Or.inr fits) inv _ _ toWrite frame.data taken
    inodeTaken nonzero (Or.inr ⟨covered, short⟩)
  obtain ⟨result, serial', returned, effect, _⟩ :=
    (outcome_tfsWrite_opened inv taken refers frame.data toWrite (fun _ => safe)).returns
  refine ⟨result, serial', ?_, effect, effect.invariant inv taken refers⟩
  change (tfsWrite frame.file (some frame.data) toWrite >>= _) serial = _
  rw [bind_of_ok returned]
  rfl

theorem WriteWaits.exists_effect (waits : WriteWaits serial fs frame status)
    (inv : Invariant serial none) (fits : serial.Fits) (taken : serial.HandleTaken frame.file)
    (refers : (serial.openFileTable frame.file).ofInumber = (frame.inode : Int)) :
    ∃ transfer toWrite result serial', status = .pending transfer ∧
      transfer.call.run serial = .ok (⟨result, []⟩, serial') ∧
      WriteEffect serial frame.file frame.inode frame.data toWrite result serial' ∧
      Invariant serial' none ∧ frame.toWrite =
        min toWrite (serial.blockSize - serial.clampedOffset frame.file frame.inode) := by
  obtain ⟨toWrite, pending, covered, short, cut⟩ := waits.status
  obtain ⟨result, serial', returned, effect, inv'⟩ :=
    frame.exists_effect inv fits taken refers covered short
  exact ⟨_, toWrite, result, serial', pending, returned, effect, inv', cut⟩

/-- The write of a file without a block fails when no block is free. -/
theorem WriteWaits.fails (waits : WriteWaits serial fs frame status) (inv : Invariant serial none)
    (fits : serial.Fits) (taken : serial.HandleTaken frame.file)
    (refers : (serial.openFileTable frame.file).ofInumber = (frame.inode : Int))
    (empty : (serial.inodeTable frame.inode).iSize = 0) (full : serial.NoFreeBlock) :
    ∃ transfer, status = .pending transfer ∧ transfer.call.run serial = .ok (⟨-1, []⟩,
      serial.setOffset frame.file (serial.clampedOffset frame.file frame.inode)) := by
  obtain ⟨transfer, toWrite, _, _, pending, returned, effect, _, cut⟩ :=
    waits.exists_effect inv fits taken refers
  have nonempty := waits.nonempty
  refine ⟨transfer, pending, ?_⟩
  cases effect with
  | nothing none => exact (nonempty (cut.trans none)).elim
  | noBlock _ _ _ => exact returned
  | grown _ _ _ _ first _ =>
      have isTaken := full _ first.2.1
      rw [first.2.2.1] at isTaken
      cases isTaken
  | overwritten _ _ _ positive _ => omega

/-- The write of a file without a block takes the first free one. -/
theorem WriteWaits.grows (waits : WriteWaits serial fs frame status) (inv : Invariant serial none)
    (fits : serial.Fits) (taken : serial.HandleTaken frame.file)
    (refers : (serial.openFileTable frame.file).ofInumber = (frame.inode : Int))
    (empty : (serial.inodeTable frame.inode).iSize = 0) {block : Nat}
    (inside : block < serial.dataBlocks) (isFree : serial.freeBlocks block = .free)
    (earlier : ∀ earlier, earlier < block → serial.freeBlocks earlier = .taken) :
    ∃ transfer serial', status = .pending transfer ∧
      transfer.call.run serial = .ok (⟨frame.toWrite, []⟩, serial') ∧ Invariant serial' none ∧
      serial' = (serial.setFreeBlock block .taken).written frame.file frame.inode block
        (serial.clampedOffset frame.file frame.inode) (frame.data.take frame.toWrite) := by
  obtain ⟨transfer, toWrite, _, serial', pending, returned, effect, inv', cut⟩ :=
    waits.exists_effect inv fits taken refers
  have nonempty := waits.nonempty
  cases effect with
  | nothing none => exact (nonempty (cut.trans none)).elim
  | noBlock _ _ full =>
      have isTaken := full _ inside
      rw [isFree] at isTaken
      cases isTaken
  | grown _ length _ _ first _ =>
      have same := first.eq isFree earlier
      rw [← cut] at length
      subst same
      subst length
      exact ⟨transfer, _, pending, returned, inv', rfl⟩
  | overwritten _ _ _ positive _ => omega

/-- The write of a file with a block goes there. -/
theorem WriteWaits.overwrites (waits : WriteWaits serial fs frame status)
    (inv : Invariant serial none) (fits : serial.Fits) (taken : serial.HandleTaken frame.file)
    (refers : (serial.openFileTable frame.file).ofInumber = (frame.inode : Int))
    (positive : 0 < (serial.inodeTable frame.inode).iSize) {block : Nat}
    (same : (serial.inodeTable frame.inode).iDataBlock = (block : Int)) :
    ∃ transfer serial', status = .pending transfer ∧
      transfer.call.run serial = .ok (⟨frame.toWrite, []⟩, serial') ∧ Invariant serial' none ∧
      serial' = serial.written frame.file frame.inode block
        (serial.clampedOffset frame.file frame.inode) (frame.data.take frame.toWrite) := by
  obtain ⟨transfer, toWrite, _, serial', pending, returned, effect, inv', cut⟩ :=
    waits.exists_effect inv fits taken refers
  have nonempty := waits.nonempty
  cases effect with
  | nothing none => exact (nonempty (cut.trans none)).elim
  | noBlock _ empty _ => omega
  | grown _ _ _ empty _ _ => omega
  | overwritten _ length _ _ blockEq =>
      have equal := Int.ofNat_inj.mp (blockEq.symm.trans same)
      rw [← cut] at length
      subst equal
      subst length
      exact ⟨transfer, _, pending, returned, inv', rfl⟩

/-! ### The file after the effect -/

section
variable (state : State) (handle inode block offset : Nat) (bytes : List UInt8)

theorem State.written_openFileTable :
    (state.written handle inode block offset bytes).openFileTable handle =
      { state.openFileTable handle with ofOffset := offset + bytes.length } :=
  Function.update_self _ _ _

theorem State.written_inodeTable :
    (state.written handle inode block offset bytes).inodeTable inode =
      { state.inodeTable inode with
        iSize := max (state.inodeTable inode).iSize (offset + bytes.length)
        iDataBlock := block } :=
  Function.update_self _ _ _

theorem State.written_inBlock_self {position : Nat} (inside : position < bytes.length)
    (fits : offset + bytes.length ≤ state.blockSize) :
    (state.written handle inode block offset bytes).InBlock inode
      (block * state.blockSize + offset + position) := by
  unfold State.InBlock
  rw [State.written_inodeTable]
  refine ⟨?_, block, rfl, ?_, ?_⟩
  · dsimp only
    omega
  · change block * state.blockSize ≤ _
    omega
  · change _ < block * state.blockSize + state.blockSize
    omega

/-- The write keeps to the entry, the inode and the block of its file. -/
theorem State.written_frame {held : List (TfsLock × LockMode)}
    (entry : (.openFile handle, .exclusive) ∈ held) (node : (.inode inode, .exclusive) ∈ held)
    (fits : offset + bytes.length ≤ state.blockSize) :
    Frame held (Writable held (state.written handle inode block offset bytes)) state
      (state.written handle inode block offset bytes) := by
  have stores : Frame held (Writable held (state.written handle inode block offset bytes)) state
      (state.store (block * state.blockSize + offset) bytes) :=
    .store (fun position inside =>
      ⟨inode, node, state.written_inBlock_self handle inode block offset bytes inside fits⟩)
  exact (stores.trans (.setInode node _)).trans (.setOffset entry _)

end

/-- What is left to do when the write has taken effect -/
theorem WriteWaits.left (waits : WriteWaits serial fs frame status) {start block : Nat}
    (offset : serial.clampedOffset frame.file frame.inode = start)
    (covered : frame.toWrite ≤ frame.data.length)
    (inside : start + frame.toWrite ≤ serial.blockSize) {serial' fs' : State}
    (blockSize : serial'.blockSize = serial.blockSize)
    (entry : serial'.openFileTable frame.file =
      { serial.openFileTable frame.file with ofOffset := start + frame.toWrite })
    (node : serial'.inodeTable frame.inode =
      { serial.inodeTable frame.inode with
        iSize := max (serial.inodeTable frame.inode).iSize (start + frame.toWrite)
        iDataBlock := block })
    (bytes : serial'.fsData = serial.fsData.writeBytes (block * serial.blockSize + start)
      (frame.data.take frame.toWrite))
    (entries : fs'.openFileTable = fs.openFileTable) (inodes : fs'.inodeTable = fs.inodeTable) :
    WriteLeft serial' fs' frame block start 0 (.done ⟨frame.toWrite, []⟩) where
  status := rfl
  inside := by
    rw [blockSize]
    exact inside
  covered := covered
  nonempty := waits.nonempty
  entry := by
    have clamped := waits.offset
    unfold Clamped at clamped
    rw [entry, entries, clamped]
  offset := by
    rw [entries, waits.offset.offset, offset]
  inode := by
    rw [node, inodes, waits.inode]
  bytes position _ high := by
    have taken : position < (frame.data.take frame.toWrite).length := by
      rw [List.length_take]
      omega
    rw [blockSize, bytes, ← Nat.add_assoc, ByteMemory.writeBytes_inside _ _ _ _ taken,
      List.getElem_take, List.getElem?_eq_getElem]

theorem WriteWaits.sizes (waits : WriteWaits serial fs frame status) (inv : Invariant serial none)
    (taken : serial.HandleTaken frame.file) :
    frame.toWrite ≤ frame.data.length ∧
      serial.clampedOffset frame.file frame.inode + frame.toWrite ≤ serial.blockSize := by
  obtain ⟨toWrite, _, covered, _, cut⟩ := waits.status
  have inside := @Invariant.clamped_le _ inv _ frame.inode taken
  omega

/-- A byte that is not left to copy has not changed. -/
theorem WriteLeft.outside {serial' : State} {block start : Nat} {point : WritePoint}
    (left : WriteLeft serial' fs frame block start 0 status) (copied : point.copied? = some 0)
    (bytes : serial'.fsData = serial.fsData.writeBytes (block * serial'.blockSize + start)
      (frame.data.take frame.toWrite)) {address : Nat}
    (written : ¬ (TransferPoint.write frame point).Unwritten serial' address) :
    serial'.fsData address = serial.fsData address := by
  rw [bytes]
  apply ByteMemory.writeBytes_outside
  by_contra touched
  rw [List.length_take] at touched
  apply written
  refine ⟨block, start, 0, copied, ?_, ?_, ?_, ?_⟩
  · rw [left.inode]
  · rw [left.entry]
  · omega
  · omega

/-! ### Statements -/

namespace WritePoint

variable {action : TfsAction TransferPoint}

/-- `if (to_write + file->of_offset > block_size)` -/
theorem runs_cut (ground : Ground (TransferPoint.write frame .cut).held serial fs)
    (taken : serial.HandleTaken frame.file)
    (refers : (serial.openFileTable frame.file).ofInumber = (frame.inode : Int))
    (correct : WritePoint.cut.Correct serial fs frame status)
    (code : WritePoint.cut.code frame = some action) :
    StatementRuns (.write frame .cut) serial fs status action := by
  obtain ⟨pending, covered, short, clamped, node⟩ := correct
  have inside := @Invariant.clamped_le _ ground.inv _ frame.inode taken
  have cut : writeLength fs.blockSize (fs.openFileTable frame.file).ofOffset frame.toWrite =
      min frame.toWrite (serial.blockSize - serial.clampedOffset frame.file frame.inode) := by
    rw [← ground.blockSize, clamped.offset]
    exact writeLength_eq_min inside short
  cases code
  by_cases nothing : min frame.toWrite
      (serial.blockSize - serial.clampedOffset frame.file frame.inode) = 0
  · obtain ⟨result, serial', returned, effect, inv⟩ :=
      frame.exists_effect ground.inv ground.fits taken refers covered short
    have done : result = 0 ∧ serial' =
        serial.setOffset frame.file (serial.clampedOffset frame.file frame.inode) := by
      cases effect with
      | nothing _ => exact ⟨rfl, rfl⟩
      | noBlock some _ _ =>
          rw [writeLength_eq_min inside short] at some
          exact (some nothing).elim
      | grown some length _ _ _ _ => exact (some (length.trans nothing)).elim
      | overwritten some length _ _ _ => exact (some (length.trans nothing)).elim
    obtain ⟨zero, same⟩ := done
    subst zero
    subst same
    have next : (TransferPoint.write frame (.unlockInode 0)).Correct
        (serial.setOffset frame.file (serial.clampedOffset frame.file frame.inode)) fs
        (.done ⟨0, []⟩) := by
      refine ⟨taken, ?_, rfl, clamped.setOffset, node⟩
      rw [State.setOffset_apply, if_pos rfl]
      exact refers
    apply ground.takes pending returned next rfl _
      (.setOffset (frame.holds_entry .cut) _) rfl rfl inv (not_unwritten rfl)
    change (if writeLength fs.blockSize (fs.openFileTable frame.file).ofOffset frame.toWrite = 0
      then _ else _ : TfsAction TransferPoint) fs = _
    rw [cut, if_pos nothing]
    rfl
  · generalize length : min frame.toWrite
      (serial.blockSize - serial.clampedOffset frame.file frame.inode) = toWrite at cut nothing
    have next : (TransferPoint.write { frame with toWrite := toWrite } .testSize).Correct serial
        fs status :=
      ⟨taken, refers, ⟨frame.toWrite, pending, covered, short, length.symm⟩, nothing, clamped, node⟩
    apply ground.control next rfl
    · change (if writeLength fs.blockSize (fs.openFileTable frame.file).ofOffset frame.toWrite = 0
        then _ else _ : TfsAction TransferPoint) fs = _
      rw [cut, if_neg nothing]
      rfl
    · intro address unwritten
      exact (not_unwritten rfl address unwritten).elim

/-- `if (inode->i_size == 0)` -/
theorem runs_testSize (ground : Ground (TransferPoint.write frame .testSize).held serial fs)
    (taken : serial.HandleTaken frame.file)
    (refers : (serial.openFileTable frame.file).ofInumber = (frame.inode : Int))
    (waits : WriteWaits serial fs frame status)
    (code : WritePoint.testSize.code frame = some action) :
    StatementRuns (.write frame .testSize) serial fs status action := by
  cases code
  by_cases empty : (serial.inodeTable frame.inode).iSize = 0
  · have next : (TransferPoint.write frame .lockBlocks).Correct serial fs status :=
      ⟨taken, refers, waits, empty⟩
    apply ground.control next rfl
    · change (if (fs.inodeTable frame.inode).iSize = 0 then _ else _ :
        TfsAction TransferPoint) fs = _
      rw [← waits.inode, if_pos empty]
      rfl
    · intro address unwritten
      exact (not_unwritten rfl address unwritten).elim
  · have positive := Nat.pos_of_ne_zero empty
    obtain ⟨nonzero, inodeTaken, _⟩ := ground.inv.openInode taken refers
    obtain ⟨block, same, _⟩ := ground.inv.backed inodeTaken nonzero positive
    obtain ⟨transfer, serial', pending, returned, inv, written⟩ :=
      waits.overwrites ground.inv ground.fits taken refers positive same
    obtain ⟨covered, inside⟩ := waits.sizes ground.inv taken
    have length : (frame.data.take frame.toWrite).length = frame.toWrite := by
      rw [List.length_take]
      omega
    subst written
    have entry := serial.written_openFileTable frame.file frame.inode block
      (serial.clampedOffset frame.file frame.inode) (frame.data.take frame.toWrite)
    have node := serial.written_inodeTable frame.file frame.inode block
      (serial.clampedOffset frame.file frame.inode) (frame.data.take frame.toWrite)
    rw [length] at entry node
    have left := @WriteWaits.left _ _ _ _ waits _ block rfl covered inside (serial.written
      frame.file frame.inode block (serial.clampedOffset frame.file frame.inode)
      (frame.data.take frame.toWrite)) fs rfl entry node rfl rfl rfl
    refine ⟨.write frame .findBytes, fs, _, _, ?_, .takes pending returned, rfl, ?_, ?_, .refl fs,
      ground.freeBlocks, inv, ?_⟩
    · change (if (fs.inodeTable frame.inode).iSize = 0 then _ else _ :
        TfsAction TransferPoint) fs = _
      rw [← waits.inode, if_neg empty]
      rfl
    · refine ⟨taken, ?_, block, _, left, ?_⟩
      · rw [entry]
        exact refers
      · rw [← waits.inode]
        exact same
    · apply serial.written_frame _ _ _ _ _ (frame.holds_entry _) (frame.holds_inode _)
      rw [length]
      exact inside
    · intro address written
      exact Or.inr ⟨not_unwritten rfl address, left.outside rfl rfl written, rfl⟩

/-- Where one turn of the scan goes -/
theorem scans {slot : Nat} {own : List (TfsLock × LockMode)} (ground : Ground own serial fs)
    (code : (WritePoint.scanBlocks slot).code frame = some action) :
    action fs =
      if slot < serial.dataBlocks then
        if fs.freeBlocks slot = .free then .ok (.write frame (.markBlock slot), fs)
        else .ok (.write frame (.scanBlocks (slot + 1)), fs)
      else .ok (.write frame (.unlockBlocks (-1)), fs) := by
  cases code
  have blocks : serial.dataBlocks = fs.dataBlocks :=
    congrArg TfsParams.maxBlockCount ground.fsParams
  have positive : fs.blockSize ≠ 0 := by
    have same : serial.blockSize = fs.blockSize := congrArg TfsParams.blockSize ground.fsParams
    rw [← same]
    exact Nat.pos_iff_ne_zero.mp ground.inv.geometry.blockSizePos
  rw [bind_apply, get_apply, blocks]
  dsimp only
  split
  case isTrue =>
      unfold require
      rw [if_pos positive]
      split <;> rfl
  case isFalse => rfl

/-- The loop of `data_block_alloc` -/
theorem runs_scanBlocks {slot : Nat}
    (ground : Ground (TransferPoint.write frame (.scanBlocks slot)).held serial fs)
    (taken : serial.HandleTaken frame.file)
    (refers : (serial.openFileTable frame.file).ofInumber = (frame.inode : Int))
    (correct : (WritePoint.scanBlocks slot).Correct serial fs frame status)
    (code : (WritePoint.scanBlocks slot).code frame = some action) :
    StatementRuns (.write frame (.scanBlocks slot)) serial fs status action := by
  obtain ⟨waits, empty, earlier⟩ := correct
  have enters := scans ground code
  cases code
  by_cases inside : slot < serial.dataBlocks
  · rw [if_pos inside] at enters
    by_cases isFree : fs.freeBlocks slot = .free
    · rw [if_pos isFree] at enters
      have next : (TransferPoint.write frame (.markBlock slot)).Correct serial fs status :=
        ⟨taken, refers, waits, empty, inside, isFree, earlier⟩
      exact ground.control next rfl enters
        (fun address unwritten => (not_unwritten rfl address unwritten).elim)
    · rw [if_neg isFree] at enters
      have next : (TransferPoint.write frame (.scanBlocks (slot + 1))).Correct serial fs status := by
        refine ⟨taken, refers, waits, empty, ?_⟩
        intro other before
        by_cases last : other = slot
        · rw [last]
          cases mark : fs.freeBlocks slot with
          | free => exact (isFree mark).elim
          | taken => rfl
        · exact earlier other (by omega)
      exact ground.control next rfl enters
        (fun address unwritten => (not_unwritten rfl address unwritten).elim)
  · rw [if_neg inside] at enters
    have full : serial.NoFreeBlock := by
      intro block low
      rw [ground.freeBlocks]
      exact earlier block (by omega)
    obtain ⟨transfer, pending, returned⟩ :=
      waits.fails ground.inv ground.fits taken refers empty full
    have next : (TransferPoint.write frame (.unlockBlocks (-1))).Correct
        (serial.setOffset frame.file (serial.clampedOffset frame.file frame.inode)) fs
        (.done ⟨-1, []⟩) := by
      refine ⟨taken, ?_, Or.inl ⟨rfl, rfl, waits.offset.setOffset, waits.inode⟩⟩
      rw [State.setOffset_apply, if_pos rfl]
      exact refers
    exact ground.takes pending returned next rfl enters
      (.setOffset (frame.holds_entry _) _) rfl rfl
      (ground.inv.setOffset (@Invariant.clamped_le _ ground.inv _ frame.inode taken))
      (not_unwritten rfl)

/-- `free_blocks[i] = TAKEN` -/
theorem runs_markBlock {slot : Nat}
    (ground : Ground (TransferPoint.write frame (.markBlock slot)).held serial fs)
    (taken : serial.HandleTaken frame.file)
    (refers : (serial.openFileTable frame.file).ofInumber = (frame.inode : Int))
    (correct : (WritePoint.markBlock slot).Correct serial fs frame status)
    (code : (WritePoint.markBlock slot).code frame = some action) :
    StatementRuns (.write frame (.markBlock slot)) serial fs status action := by
  obtain ⟨waits, empty, inside, isFree, earlier⟩ := correct
  rw [← ground.freeBlocks] at isFree earlier
  cases code
  obtain ⟨transfer, serial', pending, returned, inv, written⟩ :=
    waits.grows ground.inv ground.fits taken refers empty inside isFree earlier
  obtain ⟨covered, inBlock⟩ := waits.sizes ground.inv taken
  have length : (frame.data.take frame.toWrite).length = frame.toWrite := by
    rw [List.length_take]
    omega
  subst written
  have entry := (serial.setFreeBlock slot .taken).written_openFileTable frame.file frame.inode
    slot (serial.clampedOffset frame.file frame.inode) (frame.data.take frame.toWrite)
  have node := (serial.setFreeBlock slot .taken).written_inodeTable frame.file frame.inode
    slot (serial.clampedOffset frame.file frame.inode) (frame.data.take frame.toWrite)
  rw [length] at entry node
  have left := @WriteWaits.left _ _ _ _ waits _ slot rfl covered inBlock
    ((serial.setFreeBlock slot .taken).written frame.file frame.inode slot
      (serial.clampedOffset frame.file frame.inode) (frame.data.take frame.toWrite))
    (fs.setFreeBlock slot .taken) rfl entry node rfl rfl rfl
  have mutex : (.freeBlocksMutex, .exclusive) ∈
      (TransferPoint.write frame (.markBlock slot)).held := List.mem_cons_self
  have small : slot < 2 ^ 31 := Nat.lt_trans inside ground.fits.2.1
  have blocks : (serial.setFreeBlock slot .taken).freeBlocks =
      (fs.setFreeBlock slot .taken).freeBlocks := by
    unfold State.setFreeBlock
    rw [ground.freeBlocks]
  have copied : (WritePoint.unlockBlocks slot).copied? = some 0 := by
    change (if (slot : Int) = -1 then none else some 0) = some 0
    exact if_neg (by omega)
  refine ⟨.write frame (.unlockBlocks slot), fs.setFreeBlock slot .taken, _, _, ?_,
    .takes pending returned, rfl, ?_, ?_, .setFreeBlock mutex _ _, blocks, inv, ?_⟩
  · rw [bind_of_ok (modify_apply _ _)]
    unfold intOfSize
    rw [if_pos small]
    rfl
  · refine ⟨taken, ?_, Or.inr ⟨slot, _, rfl, left⟩⟩
    rw [entry]
    exact refers
  · refine .trans (.setFreeBlock mutex slot .taken) ?_
    apply State.written_frame _ _ _ _ _ _ (frame.holds_entry _) (frame.holds_inode _)
    rw [length]
    exact inBlock
  · intro address written
    exact Or.inr ⟨not_unwritten rfl address, left.outside copied rfl written, rfl⟩

/-- `inode->i_data_block = bnum`, or the return without a block -/
theorem runs_storeBlock {bnum : Int}
    (ground : Ground (TransferPoint.write frame (.storeBlock bnum)).held serial fs)
    (taken : serial.HandleTaken frame.file)
    (refers : (serial.openFileTable frame.file).ofInumber = (frame.inode : Int))
    (correct : (WritePoint.storeBlock bnum).Correct serial fs frame status)
    (code : (WritePoint.storeBlock bnum).code frame = some action) :
    StatementRuns (.write frame (.storeBlock bnum)) serial fs status action := by
  cases code
  rcases correct with ⟨same, ended⟩ | ⟨block, start, same, left⟩
  · subst same
    have next : (TransferPoint.write frame (.unlockInode (-1))).Correct serial fs status :=
      ⟨taken, refers, ended⟩
    exact ground.control next rfl rfl
      (fun address unwritten => (not_unwritten rfl address unwritten).elim)
  · subst same
    have copied : (WritePoint.storeBlock block).copied? = some 0 := by
      change (if (block : Int) = -1 then none else some 0) = some 0
      exact if_neg (by omega)
    have stored : (fs.setInode frame.inode { fs.inodeTable frame.inode with
        iDataBlock := block }).inodeTable frame.inode =
        { fs.inodeTable frame.inode with iDataBlock := block } := Function.update_self _ _ _
    have left' : WriteLeft serial (fs.setInode frame.inode { fs.inodeTable frame.inode with
        iDataBlock := block }) frame block start 0 status :=
      { left with
        inode := by
          rw [stored, left.inode] }
    have next : (TransferPoint.write frame .findBytes).Correct serial (fs.setInode frame.inode
        { fs.inodeTable frame.inode with iDataBlock := block }) status := by
      refine ⟨taken, refers, block, start, left', ?_⟩
      rw [stored]
    apply ground.local next rfl _ (.setInode (frame.holds_inode _) _) rfl rfl
    · rintro address ⟨block', start', copied', isCopied, rest⟩
      rw [copied] at isCopied
      exact ⟨block', start', copied', isCopied, rest⟩
    · rw [if_neg (by omega)]
      rfl

/-- `data_block_get` and the address of the first byte -/
theorem runs_findBytes (ground : Ground (TransferPoint.write frame .findBytes).held serial fs)
    (taken : serial.HandleTaken frame.file)
    (refers : (serial.openFileTable frame.file).ofInumber = (frame.inode : Int))
    (correct : WritePoint.findBytes.Correct serial fs frame status)
    (code : WritePoint.findBytes.code frame = some action) :
    StatementRuns (.write frame .findBytes) serial fs status action := by
  obtain ⟨block, start, left, stored⟩ := correct
  cases code
  have node := left.inode
  have nonempty := left.nonempty
  obtain ⟨nonzero, inodeTaken, _⟩ := ground.inv.openInode taken refers
  have positive : 0 < (serial.inodeTable frame.inode).iSize := by
    rw [node]
    dsimp only
    omega
  have returned := ground.block_get inodeTaken nonzero positive (by rw [node])
  have next : (TransferPoint.write frame (.copyBytes (block * serial.blockSize + start) 0)).Correct
      serial fs status :=
    ⟨taken, refers, block, start, left, stored, rfl, Nat.zero_le _⟩
  apply ground.control next rfl
  · rw [bind_apply, get_apply]
    dsimp only
    rw [stored, bind_of_ok returned, left.offset]
    rfl
  · rintro other ⟨block', start', copied', isCopied, rest⟩
    exact ⟨block', start', copied', isCopied, rest⟩

/-- One byte less is left to copy. -/
theorem unwritten_copied {address copied block start : Nat}
    (left : WriteLeft serial fs frame block start copied status)
    (base : address = block * serial.blockSize + start) {other : Nat}
    (different : other ≠ address + copied)
    (unwritten : (TransferPoint.write frame (.copyBytes address copied)).Unwritten serial other) :
    (TransferPoint.write frame (.copyBytes address (copied + 1))).Unwritten serial other := by
  obtain ⟨block', start', copied', isCopied, sameBlock, sameOffset, lower, upper⟩ := unwritten
  cases isCopied
  refine ⟨block', start', copied + 1, rfl, sameBlock, sameOffset, ?_, upper⟩
  rw [left.inode] at sameBlock
  rw [left.entry] at sameOffset
  dsimp only at sameBlock sameOffset
  have equal : block = block' := Int.ofNat_inj.mp sameBlock
  subst equal
  omega

/-- One byte of `memcpy` -/
theorem runs_copyBytes {address copied : Nat}
    (ground : Ground (TransferPoint.write frame (.copyBytes address copied)).held serial fs)
    (taken : serial.HandleTaken frame.file)
    (refers : (serial.openFileTable frame.file).ofInumber = (frame.inode : Int))
    (correct : (WritePoint.copyBytes address copied).Correct serial fs frame status)
    (code : (WritePoint.copyBytes address copied).code frame = some action) :
    StatementRuns (.write frame (.copyBytes address copied)) serial fs status action := by
  obtain ⟨block, start, left, stored, base, short⟩ := correct
  cases code
  by_cases more : copied < frame.toWrite
  · have byte := left.bytes copied (Nat.le_refl _) more
    have inside := left.inside
    have node := left.inode
    have nonempty := left.nonempty
    obtain ⟨nonzero, inodeTaken, _⟩ := ground.inv.openInode taken refers
    have positive : 0 < (serial.inodeTable frame.inode).iSize := by
      rw [node]
      dsimp only
      omega
    obtain ⟨_, blockEnd⟩ := ground.inv.blockInside ground.fits inodeTaken nonzero positive
      (by rw [node])
    have ran : storeBytes (address + copied)
        [serial.fsData (block * serial.blockSize + (start + copied))] fs = .ok ((),
          fs.store (address + copied)
            [serial.fsData (block * serial.blockSize + (start + copied))]) := by
      have within : address + copied + 1 ≤ fs.dataBytes := by
        rw [← ground.dataBytes]
        omega
      unfold storeBytes require
      rw [bind_apply, get_apply]
      dsimp only [List.length_cons, List.length_nil]
      rw [if_pos within]
      rfl
    have next : (TransferPoint.write frame (.copyBytes address (copied + 1))).Correct serial
        (fs.store (address + copied)
          [serial.fsData (block * serial.blockSize + (start + copied))]) status := by
      refine ⟨taken, refers, block, start, ?_, stored, base, more⟩
      exact { left with bytes := fun position low high => left.bytes position (by omega) high }
    refine ⟨.write frame (.copyBytes address (copied + 1)), _, serial, status, ?_, .stays, rfl,
      next, .refl serial, ?_, ground.freeBlocks, ground.inv, ?_⟩
    · rw [if_pos more, byte]
      exact bind_of_ok ran
    · apply Frame.store
      intro position single
      refine ⟨frame.inode, frame.holds_inode _, positive, block, by rw [node], ?_, ?_⟩
      · omega
      · rw [List.length_singleton] at single
        omega
    · intro other written
      by_cases here : other = address + copied
      · left
        subst here
        change _ = fs.fsData.writeBytes (address + copied) [_] (address + copied + 0)
        rw [ByteMemory.writeBytes_inside _ _ _ _ (Nat.zero_lt_one), base, Nat.add_assoc]
        rfl
      · right
        refine ⟨?_, rfl, ?_⟩
        · exact fun before => written (unwritten_copied left base here before)
        · apply ByteMemory.writeBytes_outside
          rw [List.length_singleton]
          omega
  · have all : copied = frame.toWrite := by omega
    subst all
    have next : (TransferPoint.write frame .advance).Correct serial fs status :=
      ⟨taken, refers, block, start, left, stored⟩
    apply ground.control next rfl
    · rw [if_neg more]
      rfl
    · rintro other ⟨block', start', copied', isCopied, _, _, lower, upper⟩
      cases isCopied
      omega

/-- `file->of_offset += to_write` -/
theorem runs_advance (ground : Ground (TransferPoint.write frame .advance).held serial fs)
    (taken : serial.HandleTaken frame.file)
    (refers : (serial.openFileTable frame.file).ofInumber = (frame.inode : Int))
    (correct : WritePoint.advance.Correct serial fs frame status)
    (code : WritePoint.advance.code frame = some action) :
    StatementRuns (.write frame .advance) serial fs status action := by
  obtain ⟨block, start, left, stored⟩ := correct
  cases code
  have inside := left.inside
  have node := left.inode
  have range : serial.blockSize < 2 ^ 63 :=
    ground.inv.geometry.blockSize_small ground.fits
      (Nat.lt_of_le_of_lt (Nat.zero_le _) ground.inv.root.blockTaken.1)
  have moved : sizeAdd (fs.openFileTable frame.file).ofOffset frame.toWrite =
      start + frame.toWrite := by
    rw [left.offset]
    exact sizeAdd_of_lt (by omega)
  have entry : (fs.setOffset frame.file (start + frame.toWrite)).openFileTable frame.file =
      { fs.openFileTable frame.file with ofOffset := start + frame.toWrite } :=
    Function.update_self _ _ _
  have next : (TransferPoint.write frame .grow).Correct serial
      (fs.setOffset frame.file (start + frame.toWrite)) status := by
    refine ⟨taken, refers, ?_, ?_, ?_⟩
    · unfold ssizeOfSize
      rw [left.status, if_pos (by omega)]
    · rw [entry, left.entry]
    · rw [entry, node]
      change _ = { fs.inodeTable frame.inode with
        iSize := max (fs.inodeTable frame.inode).iSize (start + frame.toWrite) }
      rw [← stored]
  apply ground.local next rfl _ (.setOffset (frame.holds_entry _) _) rfl rfl
  · rintro address ⟨_, _, _, isCopied, _⟩
    cases isCopied
  · rw [bind_of_ok (modify_apply _ _), moved]
    rfl

/-- `if (file->of_offset > inode->i_size)` -/
theorem runs_grow (ground : Ground (TransferPoint.write frame .grow).held serial fs)
    (taken : serial.HandleTaken frame.file)
    (refers : (serial.openFileTable frame.file).ofInumber = (frame.inode : Int))
    (correct : WritePoint.grow.Correct serial fs frame status)
    (code : WritePoint.grow.code frame = some action) :
    StatementRuns (.write frame .grow) serial fs status action := by
  obtain ⟨done, entry, node⟩ := correct
  cases code
  by_cases grows : (fs.inodeTable frame.inode).iSize < (fs.openFileTable frame.file).ofOffset
  · have stored : (fs.setInode frame.inode { fs.inodeTable frame.inode with
        iSize := (fs.openFileTable frame.file).ofOffset }).inodeTable frame.inode =
        { fs.inodeTable frame.inode with iSize := (fs.openFileTable frame.file).ofOffset } :=
      Function.update_self _ _ _
    have next : (TransferPoint.write frame (.unlockInode (ssizeOfSize frame.toWrite))).Correct
        serial (fs.setInode frame.inode { fs.inodeTable frame.inode with
          iSize := (fs.openFileTable frame.file).ofOffset }) status := by
      refine ⟨taken, refers, done, entry, ?_⟩
      rw [stored, node, Nat.max_eq_right (Nat.le_of_lt grows)]
    apply ground.local next rfl _ (.setInode (frame.holds_inode _) _) rfl rfl
    · intro address unwritten
      exact (not_unwritten rfl address unwritten).elim
    · rw [bind_apply, get_apply]
      dsimp only
      rw [if_pos grows]
      rfl
  · have next : (TransferPoint.write frame (.unlockInode (ssizeOfSize frame.toWrite))).Correct
        serial fs status := by
      refine ⟨taken, refers, done, entry, ?_⟩
      rw [node, Nat.max_eq_left (Nat.le_of_not_lt grows)]
    apply ground.control next rfl
    · rw [bind_apply, get_apply]
      dsimp only
      rw [if_neg grows]
      rfl
    · intro address unwritten
      exact (not_unwritten rfl address unwritten).elim

/-- Every statement of `write_to_open_file` under both locks -/
theorem runs {point : WritePoint} (ground : Ground (TransferPoint.write frame point).held serial fs)
    (correct : (TransferPoint.write frame point).Correct serial fs status)
    (code : point.code frame = some action) :
    StatementRuns (.write frame point) serial fs status action := by
  obtain ⟨taken, refers, correct⟩ := correct
  cases point with
  | cut => exact runs_cut ground taken refers correct code
  | testSize => exact runs_testSize ground taken refers correct code
  | lockBlocks => cases code
  | scanBlocks slot => exact runs_scanBlocks ground taken refers correct code
  | markBlock slot => exact runs_markBlock ground taken refers correct code
  | unlockBlocks bnum => cases code
  | storeBlock bnum => exact runs_storeBlock ground taken refers correct code
  | findBytes => exact runs_findBytes ground taken refers correct code
  | copyBytes address copied => exact runs_copyBytes ground taken refers correct code
  | advance => exact runs_advance ground taken refers correct code
  | grow => exact runs_grow ground taken refers correct code
  | unlockInode result => cases code

end WritePoint

end TecnicoFS.FileSystem
