/-
How much a write takes.

The request is cut by comparing `to_write + offset` with the block size on `size_t`.
Where the sum wraps around nothing is cut, and the copy of nearly 2 ^ 64 bytes leaves
every block and every buffer.  Without the wrap the write stays within its block.
-/

import TecnicoFS.FileSystem.RepresentsSteps

set_option autoImplicit false

namespace TecnicoFS.FileSystem

open FaultAction

variable {params : TfsParams} {state state' : State} {handle inode toWrite : Nat}
  {data bytes : List UInt8}

/-- What the block still takes of the request -/
def State.writable (state : State) (handle inode toWrite : Nat) : Nat :=
  min toWrite (state.blockSize - state.clampedOffset handle inode)

/-- The bytes went into the file's own block from the clamped offset on, and nothing else
was written. -/
structure State.WroteInBlock (state state' : State) (handle inode : Nat) (bytes : List UInt8) :
    Prop where
  inside : state.clampedOffset handle inode + bytes.length ≤ state.blockSize
  stored : (bytes = [] ∧ state'.fsData = state.fsData) ∨ ∃ block : Nat, block ≠ 0 ∧
    state'.OwnsBlock inode (block : Int) ∧
    (∀ other, state'.OwnsBlock other (block : Int) → other = inode) ∧
    state'.fsData = state.fsData.writeBytes
      (block * state.blockSize + state.clampedOffset handle inode) bytes
  moved : (state'.openFileTable handle).ofOffset =
    state.clampedOffset handle inode + bytes.length

/-- The write ends, with what the block takes or with -1 where a block is needed and none is
free, and the offset and the size are in order afterwards. -/
def State.WritesInBlock (state : State) (handle inode : Nat) (data : List UInt8)
    (toWrite : Nat) : Prop :=
  ∃ (result : Int) (state' : State), tfsWrite handle (some data) toWrite state =
      .ok (result, state') ∧
    ((result = -1 ∧ state.writable handle inode toWrite ≠ 0 ∧
        (state.inodeTable inode).iSize = 0 ∧ state.NoFreeBlock ∧ state'.fsData = state.fsData) ∨
      (result = (state.writable handle inode toWrite : Nat) ∧
        state.WroteInBlock state' handle inode
          (data.take (state.writable handle inode toWrite)))) ∧
    (state'.openFileTable handle).ofOffset ≤ (state'.inodeTable inode).iSize ∧
    (state'.inodeTable inode).iSize ≤ state'.blockSize

/-- The sum does not wrap around, and the bytes lie within the data area where the file has
a block or gets one. -/
def State.WriteFits (state : State) (handle inode toWrite : Nat) : Prop :=
  toWrite + state.clampedOffset handle inode < 2 ^ 64 ∧
    (((state.inodeTable inode).iSize = 0 ∧ state.NoFreeBlock) ∨
      state.StaysInside handle inode (state.writable handle inode toWrite))

/-! ### The cut -/

theorem writeLength_of_fits {blockSize offset : Nat} (inside : offset ≤ blockSize)
    (range : blockSize < 2 ^ 64) (fits : toWrite + offset < 2 ^ 64) :
    writeLength blockSize offset toWrite = min toWrite (blockSize - offset) := by
  unfold writeLength
  rw [sizeAdd_of_lt fits, sizeSub_of_le inside range]
  split <;> omega

/-- A sum that wraps around is below the offset, so that nothing is cut. -/
theorem writeLength_of_wraps {blockSize offset : Nat} (inside : offset ≤ blockSize)
    (size : toWrite < 2 ^ 64) (wraps : 2 ^ 64 ≤ toWrite + offset) (range : blockSize < 2 ^ 64) :
    writeLength blockSize offset toWrite = toWrite := by
  unfold writeLength sizeAdd
  rw [if_neg]
  omega

/-! ### What a write did -/

theorem State.written_inBlock {block : Nat} (nonzero : block ≠ 0) (nonempty : bytes ≠ [])
    (taken : state.InodeTaken inode)
    (clamped : state.clampedOffset handle inode + bytes.length ≤ state.blockSize)
    (bounded : (state.inodeTable inode).iSize ≤ state.blockSize)
    (inv : Invariant (state.written handle inode block (state.clampedOffset handle inode) bytes)
      none) :
    state.WroteInBlock
        (state.written handle inode block (state.clampedOffset handle inode) bytes) handle inode
        bytes ∧
      ((state.written handle inode block (state.clampedOffset handle inode)
        bytes).openFileTable handle).ofOffset ≤
          ((state.written handle inode block (state.clampedOffset handle inode)
            bytes).inodeTable inode).iSize ∧
      ((state.written handle inode block (state.clampedOffset handle inode)
        bytes).inodeTable inode).iSize ≤ state.blockSize := by
  have positive := List.length_pos_of_ne_nil nonempty
  have atInode : (state.written handle inode block (state.clampedOffset handle inode)
      bytes).inodeTable inode = { state.inodeTable inode with
        iSize := max (state.inodeTable inode).iSize
          (state.clampedOffset handle inode + bytes.length)
        iDataBlock := block } := State.setInode_apply_self _ _
  have moved : ((state.written handle inode block (state.clampedOffset handle inode)
      bytes).openFileTable handle).ofOffset =
        state.clampedOffset handle inode + bytes.length := State.setOffset_offset _ _
  have owns : (state.written handle inode block (state.clampedOffset handle inode)
      bytes).OwnsBlock inode (block : Int) := by
    refine ⟨taken, ?_, ?_⟩
    · rw [atInode]
    · intro _
      rw [atInode]
      dsimp only
      omega
  refine ⟨⟨clamped, Or.inr ⟨block, nonzero, owns, ?_, rfl⟩, moved⟩, ?_, ?_⟩
  · intro other otherOwns
    exact inv.blocks.exclusive other inode block otherOwns owns
  · rw [moved, atInode]
    exact Nat.le_max_right _ _
  · rw [atInode]
    exact Nat.max_le.mpr ⟨bounded, clamped⟩

/-- Each way a write ends, seen from the request. -/
theorem WriteEffect.inBlock {result : Int}
    (effect : WriteEffect state handle inode data toWrite result state')
    (inv : Invariant state none) (opened : state.HandleTaken handle)
    (refers : (state.openFileTable handle).ofInumber = (inode : Int)) (size : toWrite < 2 ^ 64) :
    ((result = -1 ∧ state.writable handle inode toWrite ≠ 0 ∧
        (state.inodeTable inode).iSize = 0 ∧ state.NoFreeBlock ∧ state'.fsData = state.fsData) ∨
      (result = (state.writable handle inode toWrite : Nat) ∧
        state.WroteInBlock state' handle inode
          (data.take (state.writable handle inode toWrite)))) ∧
    (state'.openFileTable handle).ofOffset ≤ (state'.inodeTable inode).iSize ∧
    (state'.inodeTable inode).iSize ≤ state'.blockSize := by
  obtain ⟨held, heldRefers, nonzero, taken, isFile⟩ := inv.holders.handleHolds handle opened
  have same : held = inode := Int.ofNat_inj.mp (heldRefers.symm.trans refers)
  subst held
  have bounded := inv.inodes.fileSize inode taken isFile
  have clamped := @Invariant.clamped_le _ inv _ inode opened
  have toEnd : state.clampedOffset handle inode ≤ (state.inodeTable inode).iSize :=
    Nat.min_le_right _ _
  have moved (offset : Nat) : ((state.setOffset handle offset).openFileTable handle).ofOffset =
      offset := State.setOffset_offset handle offset
  have after := (CallEffect.writes opened refers effect).invariant inv
  cases effect with
  | nothing none =>
      rw [moved]
      refine ⟨Or.inr ⟨?_, ?_, ?_, ?_⟩, toEnd, bounded⟩
      · rw [State.writable, none]
        rfl
      · rw [State.writable, none]
        exact clamped
      · rw [State.writable, none]
        exact Or.inl ⟨rfl, rfl⟩
      · rw [moved, State.writable, none]
        rfl
  | noBlock something empty full =>
      rw [moved]
      refine ⟨Or.inl ⟨rfl, ?_, empty, full, rfl⟩, toEnd, bounded⟩
      have start : state.clampedOffset handle inode = 0 := by omega
      rw [writeLength_of_fits clamped state.fsParams.sizeRange.2.2.2 (by omega)] at something
      exact something
  | @grown block length something cut covered empty first inside =>
      have count : state.writable handle inode toWrite = length := cut.symm
      have taking : (data.take length).length = length := by
        rw [List.length_take, Nat.min_eq_left covered]
      rw [count]
      obtain ⟨wrote, ordered, fits⟩ := @State.written_inBlock
        (state.setFreeBlock block .taken) handle inode (data.take length) block
        (inv.freeBlock_address first).1
        (List.ne_nil_of_length_pos (by rw [taking]; omega)) taken
        (by rw [taking]; change state.clampedOffset handle inode + _ ≤ state.blockSize; omega)
        bounded after
      exact ⟨Or.inr ⟨rfl, wrote.inside, wrote.stored, wrote.moved⟩, ordered, fits⟩
  | @overwritten block length something cut covered nonempty blockEq =>
      have count : state.writable handle inode toWrite = length := cut.symm
      have taking : (data.take length).length = length := by
        rw [List.length_take, Nat.min_eq_left covered]
      rw [count]
      obtain ⟨own, ownEq, blockNonzero, _⟩ := inv.backed taken nonzero nonempty
      have same : own = block := Int.ofNat_inj.mp (ownEq.symm.trans blockEq)
      subst own
      obtain ⟨wrote, ordered, fits⟩ := @State.written_inBlock state handle inode
        (data.take length) block blockNonzero
        (List.ne_nil_of_length_pos (by rw [taking]; omega)) taken (by rw [taking]; omega)
        bounded after
      exact ⟨Or.inr ⟨rfl, wrote⟩, ordered, fits⟩

/-! ### Every length -/

theorem State.FirstFreeBlock.reached {block : Nat} (first : state.FirstFreeBlock block) :
    BlocksReached (fun _ => False) state := by
  intro other _ isFree before large
  rw [← first.eq isFree before] at large
  exact large first.1

theorem State.WritesTo.unique {left right : Nat} (leftTo : state.WritesTo inode left)
    (rightTo : state.WritesTo inode right) : left = right := by
  rcases leftTo with ⟨empty, leftFirst⟩ | ⟨nonempty, leftEq⟩
  · rcases rightTo with ⟨_, rightFirst⟩ | ⟨nonempty, _⟩
    · exact leftFirst.eq rightFirst.2.2.1 rightFirst.2.2.2
    · omega
  · rcases rightTo with ⟨empty, _⟩ | ⟨_, rightEq⟩
    · omega
    · exact Int.ofNat_inj.mp (leftEq.symm.trans rightEq)

/-- A write that fits stops nowhere. -/
theorem State.WriteFits.safe (fits : state.WriteFits handle inode toWrite)
    (something : state.writable handle inode toWrite ≠ 0)
    (covered : state.writable handle inode toWrite ≤ data.length) :
    WriteSafe (fun _ => False) state handle inode data (state.writable handle inode toWrite) where
  reached empty := by
    intro other inTable isFree before large
    rcases fits.2 with ⟨_, full⟩ | nothing | ⟨block, ⟨_, first⟩ | ⟨nonempty, _⟩, _⟩
    · rw [full other inTable] at isFree
      cases isFree
    · exact something nothing
    · exact first.reached other inTable isFree before large
    · omega
  inside block writesTo leaves := by
    rcases fits.2 with ⟨empty, full⟩ | nothing | ⟨other, otherTo, inside⟩
    · rcases writesTo with ⟨_, first⟩ | ⟨nonempty, _⟩
      · have isFree := first.2.2.1
        rw [full block first.2.1] at isFree
        cases isFree
      · omega
    · exact something nothing
    · rw [otherTo.unique writesTo] at inside
      exact leaves inside
  covered short := short covered

/-- `tfs_write` takes what its block still takes exactly where the length and the offset do
not wrap around (and the data area holds the block). -/
theorem write_in_block (reachable : Reachable params (fun _ _ => True) state)
    (opened : state.HandleTaken handle)
    (refers : (state.openFileTable handle).ofInumber = (inode : Int)) (size : toWrite < 2 ^ 64)
    (covered : state.writable handle inode toWrite ≤ data.length) :
    state.WritesInBlock handle inode data toWrite ↔ state.WriteFits handle inode toWrite := by
  obtain ⟨inv, _⟩ := reachable.invariant
  have clamped := @Invariant.clamped_le _ inv _ inode opened
  have range : state.blockSize < 2 ^ 64 := state.fsParams.sizeRange.2.2.2
  have small := inv.geometry.dataBytesLt
  have toEnd : state.clampedOffset handle inode ≤ (state.inodeTable inode).iSize :=
    Nat.min_le_right _ _
  constructor
  · rintro ⟨result, state', returned, taken, _⟩
    obtain ⟨_, stays⟩ := (@outcome_tfsWrite_opened (fun _ => True) _ inv _ _ opened refers data
      toWrite (fun _ => ⟨fun _ _ _ _ _ _ => trivial, fun _ _ _ => trivial, fun _ => trivial⟩)).of_ok
        returned
    have fits : toWrite + state.clampedOffset handle inode < 2 ^ 64 := by
      by_contra wraps
      rw [writeLength_of_wraps clamped size (by omega) range] at stays
      rcases stays with failed | nothing | ⟨block, _, inside⟩
      · rcases taken with ⟨_, _, empty, _⟩ | ⟨success, _⟩
        · omega
        · omega
      · omega
      · omega
    refine ⟨fits, ?_⟩
    rcases taken with ⟨_, _, empty, full, _⟩ | ⟨success, _⟩
    · exact Or.inl ⟨empty, full⟩
    · rcases stays with failed | stays
      · omega
      · rw [writeLength_of_fits clamped range fits] at stays
        exact Or.inr stays
  · intro fits
    have cut : writeLength state.blockSize (state.clampedOffset handle inode) toWrite =
        state.writable handle inode toWrite := writeLength_of_fits clamped range fits.1
    obtain ⟨result, state', returned, effect, _⟩ := (@outcome_tfsWrite_opened (fun _ => False) _ inv
      _ _ opened refers data toWrite (fun something => by
        rw [cut] at something ⊢
        exact fits.safe something covered)).returns
    exact ⟨result, state', returned, effect.inBlock inv opened refers size⟩

/-- Where the tables fit their indices, only the sum matters. -/
theorem Invariant.writeFits (inv : Invariant state none) (fits : state.Fits)
    (taken : state.InodeTaken inode) (nonzero : inode ≠ 0) (opened : state.HandleTaken handle)
    (sum : toWrite + state.clampedOffset handle inode < 2 ^ 64) :
    state.WriteFits handle inode toWrite := by
  have clamped := @Invariant.clamped_le _ inv _ inode opened
  have inside {block : Nat} (inTable : block < state.dataBlocks) :
      block * state.blockSize + state.clampedOffset handle inode +
        state.writable handle inode toWrite ≤ state.dataBytes := by
    have blockEnd := inv.geometry.blockEnd fits inTable
    have cut : state.writable handle inode toWrite ≤
        state.blockSize - state.clampedOffset handle inode := Nat.min_le_right _ _
    omega
  refine ⟨sum, ?_⟩
  by_cases empty : (state.inodeTable inode).iSize = 0
  · rcases fits.firstFreeBlock with full | ⟨block, first⟩
    · exact Or.inl ⟨empty, full⟩
    · exact Or.inr (Or.inr ⟨block, Or.inl ⟨empty, first⟩, inside first.2.1⟩)
  · obtain ⟨block, blockEq, _, blockTaken, _⟩ :=
      inv.backed taken nonzero (Nat.pos_of_ne_zero empty)
    exact Or.inr (Or.inr ⟨block, Or.inr ⟨Nat.pos_of_ne_zero empty, blockEq⟩,
      inside blockTaken.1⟩)

theorem write_in_block_two :
    ∃ state, Reachable smallParams (fun _ _ => True) state ∧
      state.WritesInBlock 0 1 [1, 2] 2 := by
  obtain ⟨state, started, computed⟩ := afterCalls_any smallParams
    [.tfsOpen (some pathA) ⟨true, false, false⟩]
    (fun state => decide (state.HandleTaken 0 ∧ (state.openFileTable 0).ofInumber = (1 : Nat) ∧
      state.InodeTaken 1))
    (by decide +kernel)
  obtain ⟨opened, refers, taken⟩ := of_decide_eq_true computed
  have reachable : Reachable smallParams (fun _ _ => True) state :=
    .afterCalls (fun _ _ _ => trivial) started
  obtain ⟨inv, params⟩ := reachable.invariant
  have fits : state.Fits := by
    rw [State.fits_iff, params]
    unfold TfsParams.Fits
    decide
  have clamped := @Invariant.clamped_le _ inv 0 1 opened
  rw [State.blockSize, params] at clamped
  have sum : 2 + state.clampedOffset 0 1 < 2 ^ 64 := by
    change state.clampedOffset 0 1 ≤ 96 at clamped
    omega
  exact ⟨state, reachable, (write_in_block reachable opened refers (by decide)
    (Nat.min_le_left _ _)).mpr (inv.writeFits fits taken (by decide) opened sum)⟩

/-- One byte behind the start of `/a`, a request of `2 ^ 64 - 1` bytes is not cut. -/
theorem write_in_block_wraps :
    ¬ ∀ (params : TfsParams) (state : State), Reachable params (fun _ _ => True) state →
      ∀ (handle inode : Nat) (data : List UInt8) (toWrite : Nat), state.HandleTaken handle →
        (state.openFileTable handle).ofInumber = (inode : Int) → toWrite < 2 ^ 64 →
        state.writable handle inode toWrite ≤ data.length →
        state.WritesInBlock handle inode data toWrite := by
  intro claimed
  obtain ⟨state, started, computed⟩ := afterCalls_any smallParams
    [.tfsOpen (some pathA) ⟨true, false, false⟩, .tfsWrite 0 (some [7]) 1]
    (fun state => decide (state.HandleTaken 0 ∧ (state.openFileTable 0).ofInumber = (1 : Nat) ∧
      state.writable 0 1 (2 ^ 64 - 1) ≤ 95) &&
      match tfsWrite 0 (some (List.replicate 95 7)) (2 ^ 64 - 1) state with
      | .ok _ => false
      | .error _ => true)
    (by decide +kernel)
  rw [Bool.and_eq_true, decide_eq_true_eq] at computed
  obtain ⟨⟨opened, refers, covered⟩, stopped⟩ := computed
  obtain ⟨result, after, returned, _⟩ := claimed smallParams state
    (.afterCalls (fun _ _ _ => trivial) started) 0 1 (List.replicate 95 7) (2 ^ 64 - 1) opened
    refers (by decide) (by rw [List.length_replicate]; exact covered)
  rw [show ((0 : Nat) : Int) = 0 from rfl] at returned
  rw [returned] at stopped
  cases stopped

end TecnicoFS.FileSystem
