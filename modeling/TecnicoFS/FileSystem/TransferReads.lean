/-
The statements before the locks, and those of `read_from_open_file`.

A read takes effect when it is measured.  From there on the offset of the entry is its own, and
the bytes it copies are those of a file that nobody writes to.
-/

import TecnicoFS.FileSystem.TransferWrites

set_option autoImplicit false

namespace TecnicoFS.FileSystem

open FaultAction

variable {serial fs : State} {status : CallStatus Transfer ReadResult}
  {action : TfsAction TransferPoint}

/-! ### Before the locks -/

/-- `get_open_file_entry` -/
theorem getOpenFileEntry_cases (fs : State) (fhandle : Int) :
    (∃ file : Nat, fhandle = (file : Int) ∧ fs.HandleTaken file ∧
      getOpenFileEntry fhandle fs = .ok (some file, fs)) ∨
    ((∀ handle : Nat, fhandle = (handle : Int) → ¬ fs.HandleTaken handle) ∧
      getOpenFileEntry fhandle fs = .ok (none, fs)) := by
  obtain ⟨found, fs', returned, same, facts⟩ :=
    (@outcome_getOpenFileEntry (fun _ => False) fs fhandle).returns
  rw [same] at returned
  cases found with
  | some file => exact Or.inl ⟨file, facts.1, facts.2, returned⟩
  | none => exact Or.inr ⟨facts, returned⟩

/-- A call on a handle that is not open -/
theorem refused_run (inv : Invariant serial none) (fits : serial.Fits) {transfer : Transfer}
    {fhandle : Int} (closed : ∀ handle : Nat, fhandle = (handle : Int) → ¬ serial.HandleTaken handle)
    (admissible : transfer.call.Admissible serial.blockSize)
    (names : (∃ buffer toWrite, transfer = .write fhandle buffer toWrite) ∨
      ∃ buffered len, transfer = .read fhandle buffered len) :
    transfer.call.run serial = .ok (⟨-1, []⟩, serial) := by
  obtain ⟨result, serial', returned, effect⟩ := exists_callEffect inv fits admissible
  rw [returned]
  rcases names with ⟨buffer, toWrite, same⟩ | ⟨buffered, len, same⟩
  · subst same
    generalize call : (Transfer.write fhandle buffer toWrite).call = made at effect
    cases effect with
    | writeRefused _ _ => rfl
    | writes opened _ _ =>
        cases call
        exact (closed _ rfl opened).elim
    | _ => cases call
  · subst same
    generalize call : (Transfer.read fhandle buffered len).call = made at effect
    cases effect with
    | readRefused _ _ => rfl
    | reads opened _ _ =>
        cases call
        exact (closed _ rfl opened).elim
    | _ => cases call

/-- The call is refused before the first lock. -/
theorem Ground.refuses {transfer : Transfer}
    (ground : Ground (TransferPoint.enter transfer).held serial fs)
    (pending : status = .pending transfer)
    (returned : transfer.call.run serial = .ok (⟨-1, []⟩, serial))
    (ran : transfer.enter fs = .ok (.returned ⟨-1, []⟩, fs)) :
    StatementRuns (.enter transfer) serial fs status transfer.enter := by
  have next : (TransferPoint.returned ⟨-1, []⟩).Correct serial fs (.done ⟨-1, []⟩) := rfl
  exact ground.takes pending returned next rfl ran (.refl serial) rfl rfl ground.inv
    (fun _ unwritten => unwritten)

/-- `buffer == NULL`, and `get_open_file_entry` -/
theorem runs_enter {transfer : Transfer}
    (ground : Ground (TransferPoint.enter transfer).held serial fs)
    (correct : (TransferPoint.enter transfer).Correct serial fs status) :
    StatementRuns (.enter transfer) serial fs status transfer.enter := by
  obtain ⟨pending, admissible⟩ := correct
  have closed {fhandle : Int}
      (closed : ∀ handle : Nat, fhandle = (handle : Int) → ¬ fs.HandleTaken handle) :
      ∀ handle : Nat, fhandle = (handle : Int) → ¬ serial.HandleTaken handle :=
    fun handle same opened => closed handle same (ground.handleTaken.mp opened)
  cases transfer with
  | write fhandle buffer toWrite =>
      cases buffer with
      | none => exact ground.refuses pending rfl rfl
      | some data =>
          rcases getOpenFileEntry_cases fs fhandle with ⟨file, same, opened, found⟩ | ⟨none, found⟩
          · subst same
            have next : (TransferPoint.lockEntry (.write data toWrite) file).Correct serial fs
                status := ⟨pending, admissible, ground.handleTaken.mpr opened⟩
            exact ground.control next rfl (bind_of_ok found) (fun _ unwritten => unwritten)
          · exact ground.refuses pending
              (refused_run ground.inv ground.fits (closed none) admissible
                (Or.inl ⟨_, _, rfl⟩)) (bind_of_ok found)
  | read fhandle buffered len =>
      cases buffered with
      | false => exact ground.refuses pending rfl rfl
      | true =>
          rcases getOpenFileEntry_cases fs fhandle with ⟨file, same, opened, found⟩ | ⟨none, found⟩
          · subst same
            have next : (TransferPoint.lockEntry (.read len) file).Correct serial fs status :=
              ⟨pending, admissible, ground.handleTaken.mpr opened⟩
            exact ground.control next rfl (bind_of_ok found) (fun _ unwritten => unwritten)
          · exact ground.refuses pending
              (refused_run ground.inv ground.fits (closed none) admissible
                (Or.inr ⟨_, _, rfl⟩)) (bind_of_ok found)

/-- `inode_get`, and the offset that is moved back to the end of the file -/
theorem runs_clamp {transfer : OpenTransfer} {file : Nat} {inumber : Int}
    (ground : Ground (TransferPoint.clamp transfer file inumber).held serial fs)
    (correct : (TransferPoint.clamp transfer file inumber).Correct serial fs status)
    (code : (TransferPoint.clamp transfer file inumber).code = some action) :
    StatementRuns (.clamp transfer file inumber) serial fs status action := by
  obtain ⟨⟨pending, admissible, taken⟩, entry, refers, node⟩ := correct
  obtain ⟨inode, held, nonzero, inodeTaken, _⟩ := ground.inv.holders.handleHolds file taken
  rw [refers] at held
  subst held
  rw [Int.toNat_natCast] at node
  cases code
  have offset : fs.clampedOffset file inode = serial.clampedOffset file inode := by
    unfold State.clampedOffset
    rw [entry, node]
  have inodes : inode < fs.inodeTableSize := by
    have same : serial.inodeTableSize = fs.inodeTableSize :=
      congrArg TfsParams.maxInodeCount ground.fsParams
    rw [← same]
    exact inodeTaken.1
  obtain ⟨_, _, got, isInode, same⟩ := (@outcome_inodeGet (fun _ => False) fs inode inodes).returns
  rw [isInode, same] at got
  obtain ⟨_, _, clamped, moved⟩ := (@outcome_clampOffset (fun _ => False) fs file inode).returns
  rw [moved, offset] at clamped
  have clamps : Clamped serial (fs.setOffset file (serial.clampedOffset file inode)) file inode := by
    unfold Clamped
    rw [State.setOffset_apply, if_pos rfl, entry]
  have next : (transfer.begin file inode).Correct serial
      (fs.setOffset file (serial.clampedOffset file inode)) status := by
    cases transfer with
    | write data toWrite =>
        exact ⟨taken, refers, pending, admissible.1, admissible.2, clamps, node⟩
    | read len => exact ⟨taken, refers, pending, clamps⟩
  have held : (transfer.begin file inode).held =
      (TransferPoint.clamp transfer file (inode : Int)).held := by
    cases transfer <;> rfl
  apply ground.local next held _
    (.setOffset (List.mem_cons_of_mem _ List.mem_cons_self) _) rfl rfl
  · intro _ unwritten
    exact unwritten.elim
  · rw [bind_of_ok got]
    exact bind_of_ok clamped

/-! ### Reading -/

variable {frame : ReadFrame}

theorem ReadFrame.holds_entry (frame : ReadFrame) (point : ReadPoint) :
    (.openFile frame.file, .exclusive) ∈ (TransferPoint.read frame point).held :=
  List.mem_cons_of_mem _ List.mem_cons_self

theorem ReadFrame.holds_inode (frame : ReadFrame) (point : ReadPoint) :
    (.inode frame.inode, .shared) ∈ (TransferPoint.read frame point).held :=
  List.mem_cons_self

/-- What the call does -/
theorem ReadFrame.exists_effect (inv : Invariant serial none) (fits : serial.Fits)
    (taken : serial.HandleTaken frame.file)
    (refers : (serial.openFileTable frame.file).ofInumber = (frame.inode : Int)) :
    ∃ result serial',
      (Transfer.read frame.file true frame.len).call.run serial = .ok (result, serial') ∧
      ReadEffect serial frame.file frame.inode frame.len result serial' ∧
      Invariant serial' none := by
  obtain ⟨result, serial', returned, effect⟩ := exists_callEffect inv fits
    (show (Transfer.read frame.file true frame.len).call.Admissible _ from trivial)
  have inv' := effect.invariant inv
  refine ⟨result, serial', returned, ?_, inv'⟩
  generalize call : (Transfer.read frame.file true frame.len).call = made at effect
  cases effect with
  | readRefused _ refused =>
      cases call
      rcases refused with impossible | closed
      · cases impossible
      · exact (closed frame.file rfl taken).elim
  | @reads _ inode _ _ _ _ refers' effect =>
      cases call
      have same : inode = frame.inode := Int.ofNat_inj.mp (refers'.symm.trans refers)
      rw [← same]
      exact effect
  | _ => cases call

namespace ReadPoint

/-- `size_t to_read = inode->i_size - file->of_offset` and its cut -/
theorem runs_measure (ground : Ground (TransferPoint.read frame .measure).held serial fs)
    (taken : serial.HandleTaken frame.file)
    (refers : (serial.openFileTable frame.file).ofInumber = (frame.inode : Int))
    (correct : ReadPoint.measure.Correct serial fs frame status)
    (code : ReadPoint.measure.code frame = some action) :
    StatementRuns (.read frame .measure) serial fs status action := by
  obtain ⟨pending, clamped⟩ := correct
  obtain ⟨nonzero, inodeTaken, isFile⟩ := ground.inv.openInode taken refers
  have node := ground.inodes _ (frame.holds_inode _)
  have inside : serial.clampedOffset frame.file frame.inode ≤
      (serial.inodeTable frame.inode).iSize := Nat.min_le_right _ _
  have sizeBound := ground.inv.inodes.fileSize _ inodeTaken isFile
  have range : serial.blockSize < 2 ^ 64 := serial.fsParams.sizeRange.2.2.2
  have cut : readLength (fs.inodeTable frame.inode).iSize (fs.openFileTable frame.file).ofOffset
      frame.len = min frame.len ((serial.inodeTable frame.inode).iSize -
        serial.clampedOffset frame.file frame.inode) := by
    rw [← node, clamped.offset]
    exact readLength_eq_min inside (Nat.lt_of_le_of_lt sizeBound range)
  cases code
  obtain ⟨result, serial', returned, effect, inv⟩ :=
    frame.exists_effect ground.inv ground.fits taken refers
  cases effect with
  | nothing nothing =>
      have next : (TransferPoint.read frame (.unlockInode ⟨0, []⟩)).Correct
          (serial.setOffset frame.file (serial.clampedOffset frame.file frame.inode)) fs
          (.done ⟨0, []⟩) := by
        refine ⟨taken, ?_, rfl, clamped.setOffset⟩
        rw [State.setOffset_apply, if_pos rfl]
        exact refers
      apply ground.takes pending returned next rfl _ (.setOffset (frame.holds_entry _) _) rfl rfl
        inv (fun _ unwritten => unwritten)
      rw [bind_apply, get_apply]
      dsimp only
      rw [cut, if_pos nothing]
      rfl
  | @bytes block length some isLength isBlock =>
      have entry : (serial.setOffset frame.file
          (serial.clampedOffset frame.file frame.inode + length)).openFileTable frame.file =
          { serial.openFileTable frame.file with
            ofOffset := serial.clampedOffset frame.file frame.inode + length } :=
        Function.update_self _ _ _
      have next : (TransferPoint.read frame (.findBytes length)).Correct
          (serial.setOffset frame.file (serial.clampedOffset frame.file frame.inode + length)) fs
          (.done ⟨length, serial.fsData.readBytes (block * serial.blockSize +
            serial.clampedOffset frame.file frame.inode) length⟩) := by
        refine ⟨taken, ?_, block, serial.clampedOffset frame.file frame.inode, rfl, ?_, ?_,
          clamped.offset, ?_, isBlock⟩
        · rw [entry]
          exact refers
        · change _ ≤ serial.blockSize
          omega
        · unfold Clamped at clamped
          rw [entry, clamped]
        · change 0 < (serial.inodeTable frame.inode).iSize
          omega
      apply ground.takes pending returned next rfl _ (.setOffset (frame.holds_entry _) _) rfl rfl
        inv (fun _ unwritten => unwritten)
      rw [← isLength] at cut
      rw [bind_apply, get_apply]
      dsimp only
      rw [cut, if_neg some]
      rfl

/-- `data_block_get` and the address of the first byte -/
theorem runs_findBytes {toRead : Nat}
    (ground : Ground (TransferPoint.read frame (.findBytes toRead)).held serial fs)
    (taken : serial.HandleTaken frame.file)
    (refers : (serial.openFileTable frame.file).ofInumber = (frame.inode : Int))
    (correct : (ReadPoint.findBytes toRead).Correct serial fs frame status)
    (code : (ReadPoint.findBytes toRead).code frame = some action) :
    StatementRuns (.read frame (.findBytes toRead)) serial fs status action := by
  obtain ⟨block, start, left⟩ := correct
  cases code
  obtain ⟨nonzero, inodeTaken, _⟩ := ground.inv.openInode taken refers
  have stored := left.block
  rw [ground.inodes _ (frame.holds_inode _)] at stored
  have returned := ground.block_get inodeTaken nonzero left.nonempty left.block
  have next : (TransferPoint.read frame
      (.copyBytes toRead (block * serial.blockSize + start) [])).Correct serial fs status :=
    ⟨taken, refers, block, start, left, rfl, Nat.zero_le _, rfl⟩
  apply ground.control next rfl
  · rw [bind_apply, get_apply]
    dsimp only
    rw [stored, bind_of_ok returned, left.offset]
    rfl
  · intro _ unwritten
    exact unwritten

/-- One byte of `memcpy` -/
theorem runs_copyBytes {toRead address : Nat} {copied : List UInt8}
    (ground : Ground (TransferPoint.read frame (.copyBytes toRead address copied)).held serial fs)
    (taken : serial.HandleTaken frame.file)
    (refers : (serial.openFileTable frame.file).ofInumber = (frame.inode : Int))
    (correct : (ReadPoint.copyBytes toRead address copied).Correct serial fs frame status)
    (code : (ReadPoint.copyBytes toRead address copied).code frame = some action) :
    StatementRuns (.read frame (.copyBytes toRead address copied)) serial fs status action := by
  obtain ⟨block, start, left, base, short, bytes⟩ := correct
  cases code
  by_cases more : copied.length < toRead
  · obtain ⟨nonzero, inodeTaken, _⟩ := ground.inv.openInode taken refers
    obtain ⟨_, blockEnd⟩ :=
      ground.inv.blockInside ground.fits inodeTaken nonzero left.nonempty left.block
    have inside := left.inside
    have within : address + copied.length < fs.dataBytes := by
      rw [← ground.dataBytes]
      omega
    have byte : fs.fsData (address + copied.length) = serial.fsData (address + copied.length) :=
      ground.bytes _ (frame.holds_inode _) _
        ⟨left.nonempty, block, left.block, by omega, by omega⟩
    have next : (TransferPoint.read frame (.copyBytes toRead address
        (copied ++ [fs.fsData (address + copied.length)]))).Correct serial fs status := by
      refine ⟨taken, refers, block, start, left, base, ?_, ?_⟩
      · rw [List.length_append]
        exact more
      · rw [List.length_append, List.length_singleton, ByteMemory.readBytes_append, ← bytes, byte]
        rfl
    apply ground.control next rfl
    · rw [if_pos more, bind_apply, get_apply]
      unfold require
      dsimp only
      rw [if_pos within]
      rfl
    · intro _ unwritten
      exact unwritten
  · have all : copied.length = toRead := by omega
    have next : (TransferPoint.read frame (.advance toRead copied)).Correct serial fs status := by
      refine ⟨taken, refers, block, start, left, ?_⟩
      rw [← base, ← all]
      exact bytes
    apply ground.control next rfl
    · rw [if_neg more]
      rfl
    · intro _ unwritten
      exact unwritten

/-- `file->of_offset += to_read` -/
theorem runs_advance {toRead : Nat} {copied : List UInt8}
    (ground : Ground (TransferPoint.read frame (.advance toRead copied)).held serial fs)
    (taken : serial.HandleTaken frame.file)
    (refers : (serial.openFileTable frame.file).ofInumber = (frame.inode : Int))
    (correct : (ReadPoint.advance toRead copied).Correct serial fs frame status)
    (code : (ReadPoint.advance toRead copied).code frame = some action) :
    StatementRuns (.read frame (.advance toRead copied)) serial fs status action := by
  obtain ⟨block, start, left, bytes⟩ := correct
  cases code
  have inside := left.inside
  have range : serial.blockSize < 2 ^ 63 :=
    ground.inv.geometry.blockSize_small ground.fits
      (Nat.lt_of_le_of_lt (Nat.zero_le _) ground.inv.root.blockTaken.1)
  have moved : sizeAdd (fs.openFileTable frame.file).ofOffset toRead = start + toRead := by
    rw [left.offset]
    exact sizeAdd_of_lt (by omega)
  have entry : (fs.setOffset frame.file (start + toRead)).openFileTable frame.file =
      { fs.openFileTable frame.file with ofOffset := start + toRead } :=
    Function.update_self _ _ _
  have next : (TransferPoint.read frame (.unlockInode ⟨ssizeOfSize toRead, copied⟩)).Correct
      serial (fs.setOffset frame.file (start + toRead)) status := by
    refine ⟨taken, refers, ?_, ?_⟩
    · unfold ssizeOfSize
      rw [left.status, bytes, if_pos (by omega)]
    · rw [entry, left.entry]
  apply ground.local next rfl _ (.setOffset (frame.holds_entry _) _) rfl rfl
  · intro _ unwritten
    exact unwritten
  · rw [bind_of_ok (modify_apply _ _), moved]
    rfl

/-- Every statement of `read_from_open_file` under both locks -/
theorem runs {point : ReadPoint} (ground : Ground (TransferPoint.read frame point).held serial fs)
    (correct : (TransferPoint.read frame point).Correct serial fs status)
    (code : point.code frame = some action) :
    StatementRuns (.read frame point) serial fs status action := by
  obtain ⟨taken, refers, correct⟩ := correct
  cases point with
  | measure => exact runs_measure ground taken refers correct code
  | findBytes toRead => exact runs_findBytes ground taken refers correct code
  | copyBytes toRead address copied => exact runs_copyBytes ground taken refers correct code
  | advance toRead copied => exact runs_advance ground taken refers correct code
  | unlockInode result => cases code

end ReadPoint

/-- Every statement runs, and the second file system keeps up with it. -/
theorem TransferPoint.runs {point : TransferPoint} (ground : Ground point.held serial fs)
    (correct : point.Correct serial fs status) (code : point.code = some action) :
    StatementRuns point serial fs status action := by
  cases point with
  | enter transfer =>
      cases code
      exact runs_enter ground correct
  | clamp transfer file inumber => exact runs_clamp ground correct code
  | write frame point => exact WritePoint.runs ground correct code
  | read frame point => exact ReadPoint.runs ground correct code
  | _ => cases code

end TecnicoFS.FileSystem
