/-
One specification for each function of the state module.

`wide` says where a run may stop: either undefined behaviour is an admitted fault,
or the tables fit their `int` indices and the data area its address range.  No
specification admits a failed assertion.
-/

import TecnicoFS.FileSystem.InvariantEntries

set_option autoImplicit false

namespace TecnicoFS.FileSystem

open FaultAction TableSearch

/-- Every table has at most `2 ^ 31` slots, so that `int` indices reach all of them,
and the data area is as large as its blocks together. -/
def State.Fits (state : State) : Prop :=
  state.inodeTableSize < 2 ^ 31 ∧ state.dataBlocks < 2 ^ 31 ∧ state.maxOpenFiles < 2 ^ 31 ∧
    state.maxDirEntries < 2 ^ 31 ∧ state.dataBlocks * state.blockSize < 2 ^ 64

/-- The run may stop in undefined behaviour only where the tables do not fit. -/
def Wide (faults : Fault → Prop) (state : State) : Prop := faults .undefined ∨ state.Fits

/-- The `int` loop over the directory may overflow only where there are too many slots. -/
def Searchable (faults : Fault → Prop) (state : State) : Prop :=
  faults .undefined ∨ state.maxDirEntries < 2 ^ 31

/-- The first FREE inode may lie past the `int` range only where that is admitted. -/
def InodesReached (faults : Fault → Prop) (state : State) : Prop :=
  ∀ inode, inode < state.inodeTableSize → state.freeinodeTs inode = .free →
    (∀ earlier, earlier < inode → state.freeinodeTs earlier = .taken) → ¬ inode < 2 ^ 31 →
      faults .undefined

/-- The same for the first FREE block -/
def BlocksReached (faults : Fault → Prop) (state : State) : Prop :=
  ∀ block, block < state.dataBlocks → state.freeBlocks block = .free →
    (∀ earlier, earlier < block → state.freeBlocks earlier = .taken) → ¬ block < 2 ^ 31 →
      faults .undefined

variable {faults : Fault → Prop} {state : State} {slack : Slack}

theorem Wide.searchable (wide : Wide faults state) : Searchable faults state :=
  wide.imp id (fun fits => fits.2.2.2.1)

theorem Wide.of_not {condition : Prop} (wide : Wide faults state)
    (holds : state.Fits → condition) (fails : ¬ condition) : faults .undefined :=
  wide.resolve_right (fun fits => fails (holds fits))

theorem Wide.inodesReached (wide : Wide faults state) : InodesReached faults state :=
  fun _ inside _ _ large =>
    wide.of_not (fun fits => Nat.lt_trans inside fits.1) large

theorem Wide.blocksReached (wide : Wide faults state) : BlocksReached faults state :=
  fun _ inside _ _ large =>
    wide.of_not (fun fits => Nat.lt_trans inside fits.2.1) large

theorem Wide.handlesCounted (wide : Wide faults state) :
    faults .undefined ∨ state.maxOpenFiles < 2 ^ 31 :=
  wide.imp id (fun fits => fits.2.2.1)

/-! ### C building blocks -/

theorem outcome_intOfSize {index : Nat} {post : Int → State → Prop}
    (small : index < 2 ^ 31 → post (index : Int) state)
    (large : ¬ index < 2 ^ 31 → faults .undefined) :
    Outcome faults (intOfSize index state) post :=
  outcome_ite (fun fits => outcome_pure (small fits)) (fun fails => outcome_fail (large fails))

/-- An `int` loop finds the first slot, or none when it ran through all of them. -/
theorem outcome_intSearch {size : Nat} {test : Nat → Bool} {post : Option Nat → State → Prop}
    (found : ∀ slot, slot < size → slot < 2 ^ 31 → test slot = true →
      (∀ earlier, earlier < slot → test earlier = false) → post (some slot) state)
    (missed : (∀ slot, slot < size → test slot = false) → post none state)
    (long : ¬ size < 2 ^ 31 → faults .undefined) :
    Outcome faults (intSearch size test state) post := by
  unfold intSearch
  cases search : firstSlot (min size (2 ^ 31)) test with
  | some slot =>
      rw [firstSlot_eq_some] at search
      obtain ⟨passes, inside, before⟩ := search
      exact outcome_pure (found slot (by omega) (by omega) passes before)
  | none =>
      rw [firstSlot_eq_none] at search
      apply outcome_ite
      · intro short
        exact outcome_pure (missed (fun slot inside => search slot (by omega)))
      · intro tooLong
        exact outcome_fail (long tooLong)

theorem outcome_storeBytes {address : Nat} {bytes : List UInt8} {post : Unit → State → Prop}
    (inside : address + bytes.length ≤ state.dataBytes → post () (state.store address bytes))
    (outside : ¬ address + bytes.length ≤ state.dataBytes → faults .undefined) :
    Outcome faults (storeBytes address bytes state) post :=
  outcome_get_bind (outcome_require_bind (fun fits => outcome_modify (inside fits)) outside)

/-! ### Data blocks -/

/-- `data_block_alloc` takes the first FREE block. -/
theorem outcome_dataBlockAlloc (positive : 0 < state.blockSize)
    (reached : BlocksReached faults state) :
    Outcome faults (dataBlockAlloc state) (fun result state' =>
      (result = -1 ∧ state' = state ∧
        ∀ block, block < state.dataBlocks → state.freeBlocks block = .taken) ∨
      ∃ block : Nat, result = (block : Int) ∧ state' = state.setFreeBlock block .taken ∧
        block < 2 ^ 31 ∧ block < state.dataBlocks ∧ state.freeBlocks block = .free ∧
        ∀ earlier, earlier < block → state.freeBlocks earlier = .taken) := by
  unfold dataBlockAlloc
  apply outcome_get_bind
  apply outcome_require_bind
  · intro _
    cases search : firstSlot state.dataBlocks (fun slot => state.freeBlocks slot == .free) with
    | some block =>
        rw [firstSlot_eq_some] at search
        obtain ⟨isFree, inside, before⟩ := search
        rw [beq_iff_eq] at isFree
        have earlierTaken : ∀ earlier, earlier < block → state.freeBlocks earlier = .taken := by
          intro earlier lower
          have passed := before earlier lower
          cases mark : state.freeBlocks earlier with
          | free => simp [mark] at passed
          | taken => rfl
        apply outcome_modify_bind
        apply outcome_intOfSize
        · intro small
          exact Or.inr ⟨block, rfl, rfl, small, inside, isFree, earlierTaken⟩
        · intro large
          exact reached block inside isFree earlierTaken large
    | none =>
        rw [firstSlot_eq_none] at search
        refine outcome_pure (Or.inl ⟨rfl, rfl, ?_⟩)
        intro block inside
        have passed := search block inside
        cases mark : state.freeBlocks block with
        | free => simp [mark] at passed
        | taken => rfl
  · intro unmet
    exact (unmet (Or.inr (by omega))).elim

theorem outcome_dataBlockFree {block : Nat} {post : Unit → State → Prop}
    (inside : block < state.dataBlocks) (holds : post () (state.setFreeBlock block .free)) :
    Outcome faults (dataBlockFree (block : Int) state) post := by
  unfold dataBlockFree
  apply outcome_get_bind
  apply outcome_require_bind
  · intro _
    exact outcome_modify holds
  · intro invalid
    exact (invalid ⟨by omega, by simpa using inside⟩).elim

theorem outcome_dataBlockGet {block : Nat} (inside : block < state.dataBlocks) :
    Outcome faults (dataBlockGet (block : Int) state) (fun address state' =>
      address = block * state.blockSize % 2 ^ 64 ∧ state' = state) := by
  unfold dataBlockGet
  apply outcome_get_bind
  apply outcome_require_bind
  · intro _
    exact outcome_pure ⟨rfl, rfl⟩
  · intro invalid
    exact (invalid ⟨by omega, by simpa using inside⟩).elim

/-! ### Inodes -/

theorem outcome_inodeAlloc (positive : 0 < state.blockSize)
    (reached : InodesReached faults state) :
    Outcome faults (inodeAlloc state) (fun result state' =>
      (result = -1 ∧ state' = state ∧ ∀ inode, inode < state.inodeTableSize →
        state.freeinodeTs inode = .taken) ∨
      ∃ inode : Nat, result = (inode : Int) ∧ state' = state.setFreeinode inode .taken ∧
        inode < 2 ^ 31 ∧ inode < state.inodeTableSize ∧ state.freeinodeTs inode = .free ∧
        ∀ earlier, earlier < inode → state.freeinodeTs earlier = .taken) := by
  unfold inodeAlloc
  apply outcome_get_bind
  apply outcome_require_bind
  · intro _
    cases search : firstSlot state.inodeTableSize
        (fun slot => state.freeinodeTs slot == .free) with
    | some inode =>
        rw [firstSlot_eq_some] at search
        obtain ⟨isFree, inside, before⟩ := search
        rw [beq_iff_eq] at isFree
        have earlierTaken : ∀ earlier, earlier < inode → state.freeinodeTs earlier = .taken := by
          intro earlier lower
          have passed := before earlier lower
          cases mark : state.freeinodeTs earlier with
          | free => simp [mark] at passed
          | taken => rfl
        apply outcome_modify_bind
        apply outcome_intOfSize
        · intro small
          exact Or.inr ⟨inode, rfl, rfl, small, inside, isFree, earlierTaken⟩
        · intro large
          exact reached inode inside isFree earlierTaken large
    | none =>
        rw [firstSlot_eq_none] at search
        refine outcome_pure (Or.inl ⟨rfl, rfl, ?_⟩)
        intro inode inside
        have passed := search inode inside
        cases mark : state.freeinodeTs inode with
        | free => simp [mark] at passed
        | taken => rfl
  · intro unmet
    exact (unmet (Or.inr (by omega))).elim

theorem outcome_inodeGet {inode : Nat} (inside : inode < state.inodeTableSize) :
    Outcome faults (inodeGet (inode : Int) state)
      (fun found state' => found = inode ∧ state' = state) := by
  unfold inodeGet
  apply outcome_get_bind
  apply outcome_require_bind
  · intro _
    exact outcome_pure ⟨rfl, rfl⟩
  · intro invalid
    exact (invalid ⟨by omega, by simpa using inside⟩).elim

/-- A new inode that is not a directory: empty, without a block, with one link. -/
def newInode (iType : InodeType) : Inode :=
  { iNodeType := iType, iSize := 0, iDataBlock := -1, iHardLinks := 1 }

theorem State.takeInode_eq (slot : Nat) (first second third : Inode) :
    (((state.setFreeinode slot .taken).setInode slot first).setInode slot second).setInode slot
        third = state.takeInode slot third := by
  simp only [State.takeInode, State.setInode, State.setFreeinode, Function.update_idem]

theorem outcome_inodeCreate {iType : InodeType} (notDirectory : iType ≠ .tDirectory)
    (positive : 0 < state.blockSize) (reached : InodesReached faults state) :
    Outcome faults (inodeCreate iType state) (fun result state' =>
      (result = -1 ∧ state' = state ∧ ∀ inode, inode < state.inodeTableSize →
        state.freeinodeTs inode = .taken) ∨
      ∃ inode : Nat, result = (inode : Int) ∧ state' = state.takeInode inode (newInode iType) ∧
        inode < 2 ^ 31 ∧ inode < state.inodeTableSize ∧ state.freeinodeTs inode = .free ∧
        ∀ earlier, earlier < inode → state.freeinodeTs earlier = .taken) := by
  unfold inodeCreate
  apply outcome_bind (outcome_inodeAlloc positive reached)
  intro result state' allocated
  rcases allocated with ⟨rfl, rfl, full⟩ | ⟨inode, rfl, rfl, small, inside, isFree, before⟩
  · rw [if_pos rfl]
    exact outcome_pure (Or.inl ⟨rfl, rfl, full⟩)
  · have notFailed : ¬ (inode : Int) = -1 := by omega
    rw [if_neg notFailed]
    apply outcome_modify_bind
    cases iType with
    | tDirectory => exact (notDirectory rfl).elim
    | tFile =>
        refine outcome_modify_bind (outcome_modify_bind (outcome_pure (Or.inr ?_)))
        refine ⟨inode, rfl, ?_, small, inside, isFree, before⟩
        simp [newInode, State.takeInode, State.setInode, State.setFreeinode]
    | tSymLink =>
        refine outcome_modify_bind (outcome_modify_bind (outcome_pure (Or.inr ?_)))
        refine ⟨inode, rfl, ?_, small, inside, isFree, before⟩
        simp [newInode, State.takeInode, State.setInode, State.setFreeinode]

/-- The block of an inode that is not empty given back -/
def State.releaseBlock (state : State) (slot : Nat) : State :=
  if 0 < (state.inodeTable slot).iSize then
    state.setFreeBlock (state.inodeTable slot).iDataBlock.toNat .free
  else
    state

/-- The state after `inode_delete` -/
def State.deleteInode (state : State) (slot : Nat) : State :=
  (state.releaseBlock slot).dropInode slot
    { state.inodeTable slot with iSize := 0, iDataBlock := -1, iHardLinks := 1 }

theorem outcome_inodeDelete {inode : Nat} {post : Unit → State → Prop}
    (taken : state.InodeTaken inode)
    (backed : 0 < (state.inodeTable inode).iSize →
      ∃ block : Nat, (state.inodeTable inode).iDataBlock = (block : Int) ∧
        block < state.dataBlocks)
    (holds : post () (state.deleteInode inode)) :
    Outcome faults (inodeDelete (inode : Int) state) post := by
  unfold inodeDelete
  apply outcome_get_bind
  apply outcome_require_bind
  · intro _
    apply outcome_require_bind
    · intro _
      rw [Int.toNat_natCast]
      by_cases nonempty : 0 < (state.inodeTable inode).iSize
      · obtain ⟨block, blockEq, inside⟩ := backed nonempty
        rw [if_pos nonempty, blockEq]
        apply outcome_bind (@outcome_dataBlockFree _ _ _
          (fun _ state' => state' = state.setFreeBlock block .free) inside rfl)
        rintro _ _ rfl
        apply outcome_modify
        unfold State.deleteInode State.releaseBlock at holds
        rw [if_pos nonempty, blockEq, Int.toNat_natCast] at holds
        exact holds
      · rw [if_neg nonempty]
        change Outcome faults (modify _ state) post
        apply outcome_modify
        unfold State.deleteInode State.releaseBlock at holds
        rw [if_neg nonempty] at holds
        exact holds
    · intro unmet
      exact (unmet (by rw [Int.toNat_natCast]; exact taken.2)).elim
  · intro invalid
    exact (invalid ⟨by omega, by simpa using taken.1⟩).elim

end TecnicoFS.FileSystem
