/-
Reading and writing through a handle.

The request is cut to what fits behind the clamped offset.  A `size_t` overflow of
offset and length can only pass the cut when the copy itself leaves the data area.
-/

import TecnicoFS.FileSystem.OperationSpec

set_option autoImplicit false

namespace TecnicoFS.FileSystem

open FaultAction TableSearch

variable {faults : Fault → Prop} {state : State}

/-! ### Lengths -/

theorem sizeSub_of_le {left right : Nat} (ordered : right ≤ left) (range : left < 2 ^ 64) :
    sizeSub left right = left - right := by
  unfold sizeSub
  omega

theorem sizeAdd_of_lt {left right : Nat} (range : left + right < 2 ^ 64) :
    sizeAdd left right = left + right := Nat.mod_eq_of_lt range

/-- The cut is the intended one unless the offset wraps around. -/
theorem writeLength_eq_or_wraps {blockSize offset toWrite : Nat} (inside : offset ≤ blockSize)
    (range : blockSize < 2 ^ 64) :
    writeLength blockSize offset toWrite = min toWrite (blockSize - offset) ∨
      2 ^ 64 ≤ offset + writeLength blockSize offset toWrite := by
  unfold writeLength
  rw [sizeSub_of_le inside range]
  unfold sizeAdd
  split <;> omega

theorem writeLength_eq_min {blockSize offset toWrite : Nat} (inside : offset ≤ blockSize)
    (range : toWrite + blockSize < 2 ^ 64) :
    writeLength blockSize offset toWrite = min toWrite (blockSize - offset) := by
  rcases @writeLength_eq_or_wraps _ _ toWrite inside (by omega) with cut | wraps
  · exact cut
  · unfold writeLength at wraps ⊢
    rw [sizeAdd_of_lt (by omega)] at wraps ⊢
    split at wraps
    · rw [sizeSub_of_le inside (by omega)] at wraps
      omega
    · omega

theorem readLength_eq_min {size offset len : Nat} (inside : offset ≤ size)
    (range : size < 2 ^ 64) : readLength size offset len = min len (size - offset) := by
  unfold readLength
  rw [sizeSub_of_le inside range]
  split <;> omega

/-! ### The clamped offset -/

theorem State.setOffset_same (handle : Nat) :
    state.setOffset handle (state.openFileTable handle).ofOffset = state := by
  unfold State.setOffset State.setOpenFile
  rw [Function.update_eq_self]

theorem State.setOffset_setOffset (handle first second : Nat) :
    (state.setOffset handle first).setOffset handle second = state.setOffset handle second := by
  simp only [State.setOffset, State.setOpenFile, Function.update_self, Function.update_idem]

theorem outcome_clampOffset (handle inode : Nat) :
    Outcome faults (clampOffset handle inode state) (fun _ state' =>
      state' = state.setOffset handle (state.clampedOffset handle inode)) := by
  unfold clampOffset State.clampedOffset
  apply outcome_get_bind
  apply outcome_ite
  · intro past
    apply outcome_modify
    rw [Nat.min_eq_right (Nat.le_of_lt past)]
    rfl
  · intro before
    apply outcome_pure
    rw [Nat.min_eq_left (Nat.le_of_not_lt before), State.setOffset_same]

theorem State.setOffset_offset (handle offset : Nat) :
    ((state.setOffset handle offset).openFileTable handle).ofOffset = offset := by
  rw [State.setOffset_apply, if_pos rfl]

theorem Invariant.clamped_le (inv : Invariant state none) {handle inode : Nat}
    (opened : state.HandleTaken handle) :
    state.clampedOffset handle inode ≤ state.blockSize :=
  Nat.le_trans (Nat.min_le_left _ _) (inv.handles.offset handle opened)

/-- Where the data area did not wrap, every block lies inside it. -/
theorem GeometryOk.blockEnd (geometry : GeometryOk state) (fits : state.Fits) {block : Nat}
    (inside : block < state.dataBlocks) :
    block * state.blockSize + state.blockSize ≤ state.dataBytes := by
  rw [geometry.dataBytesEq, Nat.mod_eq_of_lt fits.2.2.2.2, ← Nat.succ_mul]
  exact Nat.mul_le_mul_right _ inside

/-! ### Reading -/

theorem outcome_tfsRead (inv : Invariant state none) (wide : Wide faults state)
    (fhandle : Int) (buffered : Bool) (len : Nat) :
    Outcome faults (tfsRead fhandle buffered len state)
      (CallEffect state (.tfsRead fhandle buffered len)) := by
  unfold tfsRead readFromOpenFile
  apply outcome_ite
  · intro unbuffered
    exact outcome_pure (.readRefused len (Or.inl unbuffered))
  intro isBuffered
  rw [Bool.not_eq_false] at isBuffered
  subst buffered
  apply outcome_bind outcome_getOpenFileEntry
  rintro found state' ⟨same, facts⟩
  subst state'
  cases found with
  | none => exact outcome_pure (.readRefused len (Or.inr facts))
  | some handle =>
      obtain ⟨rfl, opened⟩ := facts
      obtain ⟨inode, refers, nonzero, taken, isFile⟩ := inv.holders.handleHolds handle opened
      apply outcome_get_bind
      rw [refers]
      apply outcome_bind (outcome_inodeGet taken.1)
      rintro found state' ⟨sameInode, same⟩
      subst found
      subst state'
      apply outcome_bind (outcome_clampOffset handle inode)
      rintro _ _ rfl
      apply outcome_get_bind
      rw [State.setOffset_offset]
      have sizeBound := inv.inodes.fileSize inode taken isFile
      have range : state.blockSize < 2 ^ 64 := state.fsParams.sizeRange.2.2.2
      have length : readLength ((state.setOffset handle
          (state.clampedOffset handle inode)).inodeTable inode).iSize
          (state.clampedOffset handle inode) len = min len ((state.inodeTable inode).iSize - state.clampedOffset handle inode) :=
        readLength_eq_min (Nat.min_le_right _ _) (Nat.lt_of_le_of_lt sizeBound range)
      apply outcome_ite
      · intro empty
        exact outcome_pure (.reads opened refers (.nothing (length.symm.trans empty)))
      · intro nonempty
        have hasBytes : min len ((state.inodeTable inode).iSize -
            state.clampedOffset handle inode) ≠ 0 := fun zero => nonempty (length.trans zero)
        obtain ⟨block, blockEq, blockNonzero, blockTaken, _⟩ :=
          inv.backed taken nonzero (by omega)
        have address := inv.blockAddress blockTaken
        change Outcome faults ((dataBlockGet (state.inodeTable inode).iDataBlock >>= _) _) _
        rw [blockEq]
        apply outcome_bind (@outcome_dataBlockGet _ (state.setOffset handle (state.clampedOffset
          handle inode)) _ blockTaken.1)
        rintro base state' ⟨baseEq, same⟩
        replace baseEq : base = block * state.blockSize := baseEq.trans address
        subst base
        subst state'
        rw [length]
        apply outcome_require_bind
        · intro inside
          apply outcome_modify_bind
          apply outcome_pure
          have advanced : sizeAdd (state.clampedOffset handle inode) (min len
              ((state.inodeTable inode).iSize - state.clampedOffset handle inode)) =
              state.clampedOffset handle inode + min len
                ((state.inodeTable inode).iSize - state.clampedOffset handle inode) :=
            sizeAdd_of_lt (by omega)
          have narrow : ssizeOfSize (min len ((state.inodeTable inode).iSize -
              state.clampedOffset handle inode)) = ((min len ((state.inodeTable inode).iSize -
                state.clampedOffset handle inode) : Nat) : Int) := by
            have small := inv.geometry.dataBytesLt
            change _ ≤ state.dataBytes at inside
            unfold ssizeOfSize
            rw [if_pos (by omega)]
          have moved (offset : Nat) : (state.setOffset handle
              (state.clampedOffset handle inode)).setOpenFile handle
                { (state.setOffset handle (state.clampedOffset handle inode)).openFileTable
                  handle with ofOffset := offset } = state.setOffset handle offset :=
            State.setOffset_setOffset handle _ offset
          rw [advanced, narrow, moved]
          exact .reads opened refers (.bytes hasBytes rfl blockEq)
        · intro outside
          refine wide.of_not (fun fits => ?_) outside
          have blockEnd := inv.geometry.blockEnd fits blockTaken.1
          change _ ≤ state.dataBytes
          have clamped : state.clampedOffset handle inode ≤ (state.inodeTable inode).iSize :=
            Nat.min_le_right _ _
          omega

/-! ### Writing -/

/-- The block the write goes to: the one the file has, or the first FREE one. -/
inductive BlockEffect (state : State) (inode : Nat) : Bool → State → Prop where
  | full : (state.inodeTable inode).iSize = 0 → state.NoFreeBlock →
      BlockEffect state inode false state
  | taken {block : Nat} : (state.inodeTable inode).iSize = 0 → state.FirstFreeBlock block →
      BlockEffect state inode true
        ((state.setFreeBlock block .taken).resizeFile inode 0 block)
  | owned : 0 < (state.inodeTable inode).iSize → BlockEffect state inode true state

theorem outcome_ensureFileBlock (positive : 0 < state.blockSize) (inode : Nat)
    (reached : (state.inodeTable inode).iSize = 0 → BlocksReached faults state) :
    Outcome faults (ensureFileBlock inode state) (BlockEffect state inode) := by
  unfold ensureFileBlock
  apply outcome_get_bind
  apply outcome_ite
  · intro empty
    apply outcome_bind (outcome_dataBlockAlloc positive (reached empty))
    rintro result state' (⟨rfl, rfl, full⟩ | ⟨block, rfl, rfl, first⟩)
    · rw [if_pos rfl]
      exact outcome_pure (.full empty full)
    · rw [if_neg (by omega)]
      apply outcome_modify_bind
      apply outcome_pure
      have effect : BlockEffect state inode true
          ((state.setFreeBlock block .taken).resizeFile inode 0 block) := .taken empty first
      rw [← empty] at effect
      exact effect
  · intro nonempty
    exact outcome_pure (.owned (Nat.pos_of_ne_zero nonempty))

/-- The copy itself, into a file whose block is known. -/
theorem outcome_copyToFile {handle inode block : Nat} {bytes : List UInt8}
    (inside : block < state.dataBlocks)
    (address : block * state.blockSize % 2 ^ 64 = block * state.blockSize)
    (small : state.dataBytes < 2 ^ 63)
    (blockEq : (state.inodeTable inode).iDataBlock = (block : Int))
    (outside : ¬ block * state.blockSize + (state.openFileTable handle).ofOffset +
      bytes.length ≤ state.dataBytes → faults .undefined) :
    Outcome faults (copyToFile handle inode bytes state) (fun _ state' =>
      block * state.blockSize + (state.openFileTable handle).ofOffset + bytes.length ≤
        state.dataBytes ∧
      state' = state.written handle inode block (state.openFileTable handle).ofOffset bytes) := by
  unfold copyToFile
  apply outcome_get_bind
  rw [blockEq]
  apply outcome_bind (outcome_dataBlockGet inside)
  rintro base state' ⟨baseEq, same⟩
  rw [address] at baseEq
  subst base
  subst state'
  apply outcome_bind (@outcome_storeBytes _ _ _ _
    (fun _ state' => block * state.blockSize + (state.openFileTable handle).ofOffset + bytes.length
      ≤ state.dataBytes ∧ state' = state.store (block * state.blockSize + (state.openFileTable
        handle).ofOffset) bytes)
    (fun fits => ⟨fits, rfl⟩) outside)
  rintro _ state' ⟨fits, same⟩
  subst state'
  have advanced : sizeAdd (state.openFileTable handle).ofOffset bytes.length =
      (state.openFileTable handle).ofOffset + bytes.length := sizeAdd_of_lt (by omega)
  rw [advanced]
  apply outcome_modify_bind
  unfold State.written
  apply outcome_ite
  · intro grows
    apply outcome_modify
    refine ⟨fits, ?_⟩
    rw [Nat.max_eq_right (Nat.le_of_lt grows), ← blockEq]
    rfl
  · intro keeps
    apply outcome_pure
    refine ⟨fits, ?_⟩
    rw [Nat.max_eq_left (Nat.le_of_not_lt keeps), ← blockEq]
    unfold State.resizeFile
    have unchanged : (state.store (block * state.blockSize +
        (state.openFileTable handle).ofOffset) bytes).setInode inode
          (state.inodeTable inode) = state.store (block * state.blockSize +
            (state.openFileTable handle).ofOffset) bytes := by
      unfold State.setInode
      change { state.store _ bytes with
        inodeTable := Function.update state.inodeTable inode (state.inodeTable inode) } = _
      rw [Function.update_eq_self]
      rfl
    exact (congrArg (fun before : State => before.setOffset handle
      ((state.openFileTable handle).ofOffset + bytes.length)) unchanged).symm

/-- Blocks are taken in order, so the address of the next one has not wrapped. -/
theorem Invariant.freeBlock_address (inv : Invariant state none) {block : Nat}
    (first : state.FirstFreeBlock block) :
    block ≠ 0 ∧ block * state.blockSize % 2 ^ 64 = block * state.blockSize := by
  have nonzero : block ≠ 0 := by
    intro zero
    subst block
    have isFree := first.2.2.1
    rw [inv.root.blockTaken.2] at isFree
    cases isFree
  refine ⟨nonzero, Nat.mod_eq_of_lt ?_⟩
  have range : state.blockSize < 2 ^ 64 := state.fsParams.sizeRange.2.2.2
  by_cases one : block = 1
  · subst block
    rw [Nat.one_mul]
    exact range
  · have previous : state.BlockTaken (block - 1) :=
      ⟨Nat.lt_of_le_of_lt (Nat.sub_le _ _) first.2.1, first.2.2.2 (block - 1) (by omega)⟩
    have inside := inv.blocks.inside (block - 1) previous (by omega)
    have small := inv.geometry.dataBytesLt
    have atLeast : state.blockSize ≤ (block - 1) * state.blockSize :=
      Nat.le_mul_of_pos_left _ (by omega)
    have next : block * state.blockSize = (block - 1) * state.blockSize + state.blockSize := by
      rw [← Nat.succ_mul]
      congr 1
      omega
    omega

theorem State.written_setOffset (handle inode block offset first : Nat) (bytes : List UInt8) :
    (state.setOffset handle first).written handle inode block offset bytes =
      state.written handle inode block offset bytes := by
  unfold State.written
  exact @State.setOffset_setOffset
    ((state.store (block * state.blockSize + offset) bytes).resizeFile inode (max (state.inodeTable
      inode).iSize (offset + bytes.length)) block)
    handle first _

theorem State.written_resizeFile (handle inode block offset : Nat) (bytes : List UInt8)
    (empty : (state.inodeTable inode).iSize = 0) :
    (state.resizeFile inode 0 block).written handle inode block offset bytes =
      state.written handle inode block offset bytes := by
  have atInode : ((state.resizeFile inode 0 (block : Int)).inodeTable inode).iSize = 0 := by
    unfold State.resizeFile
    rw [State.setInode_apply_self]
  unfold State.written
  rw [atInode, empty]
  simp only [State.resizeFile, State.setInode, State.store, State.setOffset, State.setOpenFile,
    State.blockSize, Function.update_self, Function.update_idem]

/-- Where a write may leave the buffer or the data area -/
def Buffered (faults : Fault → Prop) (state : State) (data : List UInt8) (toWrite : Nat) :
    Prop :=
  faults .undefined ∨ (toWrite ≤ data.length ∧ toWrite + state.blockSize < 2 ^ 64)

theorem State.written_taken (handle inode block offset first : Nat) (bytes : List UInt8)
    (empty : (state.inodeTable inode).iSize = 0) :
    (((state.setOffset handle first).setFreeBlock block .taken).resizeFile inode 0
      block).written handle inode block offset bytes =
        (state.setFreeBlock block .taken).written handle inode block offset bytes := by
  change ((((state.setFreeBlock block .taken).setOffset handle first).resizeFile inode 0
    block).written handle inode block offset bytes) = _
  rw [@State.written_resizeFile ((state.setFreeBlock block .taken).setOffset handle first) _ _ _ _ _
    empty, State.written_setOffset]

theorem State.resizeFile_offset (handle inode block offset : Nat) :
    (((((state.setOffset handle offset).setFreeBlock block .taken).resizeFile inode 0
      block).openFileTable handle).ofOffset) = offset :=
  State.setOffset_offset handle offset

/-- The block a write through the handle goes to -/
def State.WritesTo (state : State) (inode block : Nat) : Prop :=
  ((state.inodeTable inode).iSize = 0 ∧ state.FirstFreeBlock block) ∨
    (0 < (state.inodeTable inode).iSize ∧ (state.inodeTable inode).iDataBlock = (block : Int))

/-- A write of so many bytes at the clamped offset stays within the data area. -/
def State.StaysInside (state : State) (handle inode length : Nat) : Prop :=
  length = 0 ∨ ∃ block, state.WritesTo inode block ∧
    block * state.blockSize + state.clampedOffset handle inode + length ≤ state.dataBytes

/-- Where a write of so many bytes at the clamped offset may stop -/
structure WriteSafe (faults : Fault → Prop) (state : State) (handle inode : Nat)
    (data : List UInt8) (length : Nat) : Prop where
  reached : (state.inodeTable inode).iSize = 0 → BlocksReached faults state
  inside : ∀ block, state.WritesTo inode block →
    ¬ block * state.blockSize + state.clampedOffset handle inode + length ≤ state.dataBytes →
      faults .undefined
  covered : ¬ length ≤ data.length → faults .undefined

theorem Wide.writeSafe (wide : Wide faults state) (inv : Invariant state none)
    {handle inode toWrite : Nat} {data : List UInt8} (opened : state.HandleTaken handle)
    (taken : state.InodeTaken inode) (nonzero : inode ≠ 0)
    (buffered : Buffered faults state data toWrite) :
    WriteSafe faults state handle inode data
      (writeLength state.blockSize (state.clampedOffset handle inode) toWrite) where
  reached _ := wide.blocksReached
  inside block writesTo leaves := by
    rcases buffered with admitted | ⟨_, short⟩
    · exact admitted
    · refine wide.of_not (fun fits => ?_) leaves
      have clamped := @Invariant.clamped_le _ inv _ inode opened
      have blockInside : block < state.dataBlocks := by
        rcases writesTo with ⟨_, first⟩ | ⟨nonempty, blockEq⟩
        · exact first.2.1
        · obtain ⟨own, ownEq, _, ownTaken, _⟩ := inv.backed taken nonzero nonempty
          have same : own = block := Int.ofNat_inj.mp (ownEq.symm.trans blockEq)
          exact same ▸ ownTaken.1
      have blockEnd := inv.geometry.blockEnd fits blockInside
      rw [writeLength_eq_min clamped short]
      omega
  covered short := by
    rcases buffered with admitted | ⟨long, bounded⟩
    · exact admitted
    · rw [writeLength_eq_min (@Invariant.clamped_le _ inv _ inode opened) bounded] at short
      omega

/-- The part of a write behind the clamped offset -/
theorem outcome_writeBlock (inv : Invariant state none) {handle inode toWrite : Nat}
    {data : List UInt8} (opened : state.HandleTaken handle) (taken : state.InodeTaken inode)
    (nonzero : inode ≠ 0)
    (something : writeLength state.blockSize (state.clampedOffset handle inode) toWrite ≠ 0)
    (safe : WriteSafe faults state handle inode data
      (writeLength state.blockSize (state.clampedOffset handle inode) toWrite)) :
    Outcome faults ((do
      let allocated ← ensureFileBlock inode
      if allocated = false then
        pure (-1)
      else
        require (writeLength state.blockSize (state.clampedOffset handle inode) toWrite ≤
          data.length) .undefined
        copyToFile handle inode (data.take
          (writeLength state.blockSize (state.clampedOffset handle inode) toWrite))
        pure (ssizeOfSize (writeLength state.blockSize (state.clampedOffset handle inode)
          toWrite)) : TfsAction Int) (state.setOffset handle (state.clampedOffset handle inode)))
      (fun result state' => WriteEffect state handle inode data toWrite result state' ∧
        (result = -1 ∨ state.StaysInside handle inode
          (writeLength state.blockSize (state.clampedOffset handle inode) toWrite))) := by
  have clamped := @Invariant.clamped_le _ inv _ inode opened
  have range : state.blockSize < 2 ^ 64 := state.fsParams.sizeRange.2.2.2
  have small := inv.geometry.dataBytesLt
  have bytesLength (inside : writeLength state.blockSize (state.clampedOffset handle inode)
      toWrite ≤ data.length) : (data.take (writeLength state.blockSize
        (state.clampedOffset handle inode) toWrite)).length =
          writeLength state.blockSize (state.clampedOffset handle inode) toWrite := by
    rw [List.length_take, Nat.min_eq_left inside]
  have cutInside : ∀ block : Nat, block * state.blockSize + state.clampedOffset handle inode +
      writeLength state.blockSize (state.clampedOffset handle inode) toWrite ≤ state.dataBytes →
      writeLength state.blockSize (state.clampedOffset handle inode) toWrite =
        min toWrite (state.blockSize - state.clampedOffset handle inode) ∧
      ssizeOfSize (writeLength state.blockSize (state.clampedOffset handle inode) toWrite) =
        ((writeLength state.blockSize (state.clampedOffset handle inode) toWrite : Nat) : Int) := by
    intro block inside
    constructor
    · exact (writeLength_eq_or_wraps clamped range).resolve_right (by omega)
    · unfold ssizeOfSize
      rw [if_pos (by omega)]
  apply outcome_bind (@outcome_ensureFileBlock _
    (state.setOffset handle (state.clampedOffset handle inode)) inv.geometry.blockSizePos inode
    safe.reached)
  intro allocated state' effect
  cases effect with
  | full empty full =>
      rw [if_pos rfl]
      exact outcome_pure ⟨.noBlock something empty full, Or.inl rfl⟩
  | @taken block empty first =>
      obtain ⟨blockNonzero, address⟩ := inv.freeBlock_address first
      rw [if_neg (by decide)]
      apply outcome_require_bind
      · intro covered
        apply outcome_bind (@outcome_copyToFile _
          (((state.setOffset handle (state.clampedOffset handle inode)).setFreeBlock block
            .taken).resizeFile inode 0 block)
          _ _ block _ first.2.1 address small (by rw [State.resizeFile, State.setInode_apply_self])
          ?_)
        · rintro _ state' ⟨inside, same⟩
          change block * state.blockSize + _ + _ ≤ state.dataBytes at inside
          rw [State.resizeFile_offset, bytesLength covered] at inside
          obtain ⟨cut, narrow⟩ := cutInside block inside
          subst state'
          rw [narrow, State.resizeFile_offset]
          apply outcome_pure
          rw [@State.written_taken state _ _ _ _ _ _ empty]
          exact ⟨.grown something cut covered empty first (by omega),
            Or.inr (Or.inr ⟨block, Or.inl ⟨empty, first⟩, inside⟩)⟩
        · intro leaves
          change ¬ block * state.blockSize + _ + _ ≤ state.dataBytes at leaves
          rw [State.resizeFile_offset, bytesLength covered] at leaves
          exact safe.inside block (Or.inl ⟨empty, first⟩) leaves
      · exact safe.covered
  | owned nonempty =>
      obtain ⟨block, blockEq, _, blockTaken, _⟩ := inv.backed taken nonzero nonempty
      rw [if_neg (by decide)]
      apply outcome_require_bind
      · intro covered
        apply outcome_bind (@outcome_copyToFile _
          (state.setOffset handle (state.clampedOffset handle inode)) _ _ _ _ blockTaken.1
          (inv.blockAddress blockTaken) small blockEq ?_)
        · rintro _ state' ⟨inside, same⟩
          change block * state.blockSize + _ + _ ≤ state.dataBytes at inside
          rw [State.setOffset_offset, bytesLength covered] at inside
          obtain ⟨cut, narrow⟩ := cutInside block inside
          subst state'
          rw [narrow, State.setOffset_offset, State.written_setOffset]
          exact outcome_pure ⟨.overwritten something cut covered nonempty blockEq,
            Or.inr (Or.inr ⟨block, Or.inr ⟨nonempty, blockEq⟩, inside⟩)⟩
        · intro leaves
          change ¬ block * state.blockSize + _ + _ ≤ state.dataBytes at leaves
          rw [State.setOffset_offset, bytesLength covered] at leaves
          exact safe.inside block (Or.inr ⟨nonempty, blockEq⟩) leaves
      · exact safe.covered

/-- A write through a TAKEN handle -/
theorem outcome_tfsWrite_opened (inv : Invariant state none) {handle inode : Nat}
    (opened : state.HandleTaken handle)
    (refers : (state.openFileTable handle).ofInumber = (inode : Int)) (data : List UInt8)
    (toWrite : Nat)
    (safe : writeLength state.blockSize (state.clampedOffset handle inode) toWrite ≠ 0 →
      WriteSafe faults state handle inode data
        (writeLength state.blockSize (state.clampedOffset handle inode) toWrite)) :
    Outcome faults (tfsWrite handle (some data) toWrite state)
      (fun result state' => WriteEffect state handle inode data toWrite result state' ∧
        (result = -1 ∨ state.StaysInside handle inode
          (writeLength state.blockSize (state.clampedOffset handle inode) toWrite))) := by
  obtain ⟨held, heldRefers, nonzero, taken, _⟩ := inv.holders.handleHolds handle opened
  have same : held = inode := Int.ofNat_inj.mp (heldRefers.symm.trans refers)
  subst held
  unfold tfsWrite writeToOpenFile
  apply outcome_bind outcome_getOpenFileEntry
  rintro found state' ⟨same, facts⟩
  subst state'
  cases found with
  | none => exact (facts handle rfl opened).elim
  | some slot =>
      obtain ⟨slotEq, _⟩ := facts
      have same : slot = handle := Int.ofNat_inj.mp slotEq.symm
      subst slot
      apply outcome_get_bind
      rw [refers]
      apply outcome_bind (outcome_inodeGet taken.1)
      rintro found state' ⟨sameInode, same⟩
      subst found
      subst state'
      apply outcome_bind (outcome_clampOffset handle inode)
      rintro _ _ rfl
      apply outcome_get_bind
      rw [State.setOffset_offset]
      have clamped := @Invariant.clamped_le _ inv _ inode opened
      have range : state.blockSize < 2 ^ 64 := state.fsParams.sizeRange.2.2.2
      apply outcome_ite
      · intro nothing
        change writeLength state.blockSize _ toWrite = 0 at nothing
        refine outcome_pure ⟨.nothing ?_, Or.inr (Or.inl nothing)⟩
        rcases @writeLength_eq_or_wraps _ _ toWrite clamped range with cut | wraps
        · exact cut.symm.trans nothing
        · omega
      · intro something
        exact outcome_writeBlock inv opened taken nonzero something (safe something)

theorem outcome_tfsWrite (inv : Invariant state none) (wide : Wide faults state)
    (fhandle : Int) (buffer : Option (List UInt8)) (toWrite : Nat)
    (buffered : ∀ data, buffer = some data → Buffered faults state data toWrite) :
    Outcome faults (tfsWrite fhandle buffer toWrite state)
      (fun result => CallEffect state (.tfsWrite fhandle buffer toWrite) ⟨result, []⟩) := by
  cases buffer with
  | none => exact outcome_pure (.writeRefused toWrite (Or.inl rfl))
  | some data =>
      by_cases valid : ∃ handle : Nat, fhandle = (handle : Int) ∧ state.HandleTaken handle
      · obtain ⟨handle, rfl, opened⟩ := valid
        obtain ⟨inode, refers, nonzero, taken, _⟩ := inv.holders.handleHolds handle opened
        exact (outcome_tfsWrite_opened inv opened refers data toWrite (fun _ =>
          wide.writeSafe inv opened taken nonzero (buffered data rfl))).mono
            (fun _ _ effect => .writes opened refers effect.1)
      · have refused : ∀ handle : Nat, fhandle = (handle : Int) → ¬ state.HandleTaken handle :=
          fun handle same opened => valid ⟨handle, same, opened⟩
        unfold tfsWrite writeToOpenFile
        apply outcome_bind outcome_getOpenFileEntry
        rintro found state' ⟨same, facts⟩
        subst state'
        cases found with
        | none => exact outcome_pure (.writeRefused toWrite (Or.inr facts))
        | some handle => exact (refused handle facts.1 facts.2).elim

end TecnicoFS.FileSystem
