/-
The state `tfs_init` leaves behind.

The root inode takes inode 0 and block 0, every directory slot is labelled empty,
and nothing else is allocated.
-/

import TecnicoFS.FileSystem.CallSpec

set_option autoImplicit false

namespace TecnicoFS.FileSystem

open FaultAction TableSearch

variable {faults : Fault → Prop} {state : State}

/-- Nothing is allocated. -/
structure Unallocated (state : State) : Prop where
  inodes : ∀ slot, state.freeinodeTs slot = .free
  blocks : ∀ slot, state.freeBlocks slot = .free
  handles : ∀ slot, state.freeOpenFileEntries slot = .free

/-- Only the root directory is allocated, and it is empty. -/
structure Initial (state : State) : Prop where
  geometry : GeometryOk state
  root : RootOk state
  rootOnly : ∀ inode, state.InodeTaken inode ↔ inode = 0
  firstBlockOnly : ∀ block, state.BlockTaken block ↔ block = 0
  noHandle : ∀ handle, ¬ state.HandleTaken handle
  noEntry : ∀ slot, ¬ state.EntryLive slot

theorem Initial.invariant (initial : Initial state) : Invariant state none := by
  have owner (inode : Nat) (block : Int) (owns : state.OwnsBlock inode block) : inode = 0 :=
    (initial.rootOnly inode).mp owns.1
  refine
    { geometry := initial.geometry
      root := initial.root
      directory := ⟨?_, ?_, ?_⟩
      holders := ⟨?_, ?_⟩
      counts := ⟨?_, ?_, ?_⟩
      inodes := ⟨?_, ?_, ?_, ?_⟩
      blocks := ⟨?_, ?_, ?_, ?_⟩
      handles := ⟨?_, ?_⟩ }
  · intro slot live
    exact (initial.noEntry slot live).elim
  · intro left _ _ live
    exact (initial.noEntry left live).elim
  · intro _ live _ _ _ isLive
    exact (initial.noEntry live isLive).elim
  · intro slot live
    exact (initial.noEntry slot live).elim
  · intro handle taken
    exact (initial.noHandle handle taken).elim
  · intro inode taken nonzero
    exact (nonzero ((initial.rootOnly inode).mp taken)).elim
  · intro inode taken nonzero
    exact (nonzero ((initial.rootOnly inode).mp taken)).elim
  · intro inode impossible
    exact impossible.elim
  · intro inode taken nonzero
    exact (nonzero ((initial.rootOnly inode).mp taken)).elim
  · intro inode taken
    rw [(initial.rootOnly inode).mp taken]
    exact Nat.pow_pos (by decide)
  · intro inode taken isFile
    rw [(initial.rootOnly inode).mp taken, initial.root.isDirectory] at isFile
    cases isFile
  · intro inode taken isSymLink
    rw [(initial.rootOnly inode).mp taken, initial.root.isDirectory] at isSymLink
    cases isSymLink
  · intro block taken
    rw [(initial.firstBlockOnly block).mp taken]
    exact Nat.pow_pos (by decide)
  · intro block taken nonzero
    exact (nonzero ((initial.firstBlockOnly block).mp taken)).elim
  · intro inode block owns nonzero
    exact (nonzero (owner inode block owns)).elim
  · intro left right block leftOwns rightOwns
    rw [owner left block leftOwns, owner right block rightOwns]
  · intro handle taken
    exact (initial.noHandle handle taken).elim
  · intro handle taken
    exact (initial.noHandle handle taken).elim

/-! ### Labelling the directory entries -/

/-- The loop of `inode_create` over the entries of the root's block -/
theorem outcome_clearDirBlock (count : Nat)
    (inside : faults .undefined ∨ dirEntrySize * count ≤ state.dataBytes) :
    Outcome faults (clearDirBlock 0 count state) (fun _ state' =>
      dirEntrySize * count ≤ state.dataBytes ∧ ∃ memory, state' = { state with fsData := memory } ∧
        ∀ slot, slot < count → ({ state with fsData := memory } : State).entryInumber slot = -1) := by
  induction count with
  | zero =>
      exact outcome_pure ⟨Nat.zero_le _, state.fsData, rfl,
        fun slot impossible => (Nat.not_lt_zero slot impossible).elim⟩
  | succ count inductionHypothesis =>
      unfold clearDirBlock
      apply outcome_bind (inductionHypothesis
        (inside.imp id (fun fits => by unfold dirEntrySize at *; omega)))
      rintro _ state' ⟨_, memory, same, cleared⟩
      subst state'
      apply outcome_storeBytes
      · intro fits
        rw [ByteMemory.encodeInt32_length] at fits
        change 0 + dirEntrySize * count + maxFileName + 4 ≤ state.dataBytes at fits
        refine ⟨by unfold dirEntrySize maxFileName at *; omega, _, rfl, ?_⟩
        intro slot below
        by_cases last : slot = count
        · subst slot
          exact ByteMemory.readInt32_writeBytes _ _ _ (by omega) (by omega)
        · have earlier := State.entryInumber_store { state with fsData := memory } slot
            (0 + dirEntrySize * count + maxFileName) (ByteMemory.encodeInt32 (-1))
            (Or.inl (by unfold dirEntrySize maxFileName; omega))
          exact earlier.trans (cleared slot (by omega))
      · intro outside
        refine inside.resolve_right (fun fits => outside ?_)
        rw [ByteMemory.encodeInt32_length]
        change 0 + dirEntrySize * count + maxFileName + 4 ≤ state.dataBytes
        unfold dirEntrySize maxFileName at *
        omega

/-! ### The root inode -/

/-- What is known about the tables `tfs_init` just allocated -/
structure Allocated (state : State) : Prop where
  unallocated : Unallocated state
  dataBytesEq : state.dataBytes = state.dataBlocks * state.blockSize % 2 ^ 64
  dataBytesLt : state.dataBytes < 2 ^ 63

/-- The state before the directory entries are labelled -/
def State.rootTaken (state : State) (inode : Inode) : State :=
  ((state.setFreeinode 0 .taken).setFreeBlock 0 .taken).setInode 0 inode

theorem State.rootTaken_initial (allocated : Allocated state) {memory : ByteMemory}
    (inodes : 0 < state.inodeTableSize) (blocks : 0 < state.dataBlocks)
    (positive : 0 < state.blockSize)
    (dirInside : dirEntrySize * state.maxDirEntries ≤ state.dataBytes)
    (cleared : ∀ slot, slot < state.maxDirEntries →
      ({ state with fsData := memory } : State).entryInumber slot = -1) (inode : Inode)
    (isDirectory : inode.iNodeType = .tDirectory) (firstBlock : inode.iDataBlock = 0) :
    Initial { state.rootTaken inode with fsData := memory } := by
  have atRoot : (state.rootTaken inode).inodeTable 0 = inode := State.setInode_apply_self 0 inode
  have mark (size : Nat) (table : Nat → AllocationState) (allFree : ∀ slot, table slot = .free)
      (nonempty : 0 < size) (slot : Nat) :
      (slot < size ∧ Function.update table 0 .taken slot = .taken) ↔ slot = 0 := by
    rw [Function.update_apply]
    by_cases root : slot = 0
    · subst slot
      simp [nonempty]
    · simp [root, allFree slot]
  refine
    { geometry := ⟨positive, allocated.dataBytesEq, allocated.dataBytesLt, dirInside⟩
      root := ⟨(mark _ _ allocated.unallocated.inodes inodes 0).mpr rfl, ?_, ?_,
        (mark _ _ allocated.unallocated.blocks blocks 0).mpr rfl⟩
      rootOnly := mark _ _ allocated.unallocated.inodes inodes
      firstBlockOnly := mark _ _ allocated.unallocated.blocks blocks
      noHandle := ?_
      noEntry := ?_ }
  · exact (congrArg Inode.iNodeType atRoot).trans isDirectory
  · exact (congrArg Inode.iDataBlock atRoot).trans firstBlock
  · rintro handle ⟨_, taken⟩
    have isFree := allocated.unallocated.handles handle
    rw [show state.freeOpenFileEntries handle = .taken from taken] at isFree
    cases isFree
  · rintro slot ⟨inside, live⟩
    exact live (cleared slot inside)

private theorem first_of_free {size slot : Nat} {table : Nat → AllocationState}
    (allFree : ∀ slot, table slot = .free) (_inside : slot < size)
    (before : ∀ earlier, earlier < slot → table earlier = .taken) : slot = 0 := by
  by_contra nonzero
  have taken := before 0 (Nat.pos_of_ne_zero nonzero)
  rw [allFree 0] at taken
  cases taken

private theorem empty_of_free {size : Nat} {table : Nat → AllocationState}
    (allFree : ∀ slot, table slot = .free)
    (full : ∀ slot, slot < size → table slot = .taken) : size = 0 := by
  by_contra nonzero
  have taken := full 0 (Nat.pos_of_ne_zero nonzero)
  rw [allFree 0] at taken
  cases taken

/-- `inode_create(T_DIRECTORY)` on new tables: the root, unless a table has no slot. -/
theorem outcome_inodeCreate_root (allocated : Allocated state) (positive : 0 < state.blockSize)
    (room : faults .undefined ∨ (0 < state.dataBlocks →
      dirEntrySize * state.maxDirEntries ≤ state.dataBytes)) :
    Outcome faults (inodeCreate .tDirectory state) (fun result state' =>
      (result = 0 → Initial state' ∧ state'.fsParams = state.fsParams ∧ ∃ memory, state' =
        { state.rootTaken ⟨.tDirectory, state.blockSize, 0, 1⟩ with fsData := memory }) ∧
        (result ≠ 0 → state.inodeTableSize = 0 ∨ state.dataBlocks = 0)) := by
  unfold inodeCreate
  have inodesReached : InodesReached faults state := by
    intro inode inside _ before large
    rw [first_of_free allocated.unallocated.inodes inside before] at large
    exact (large (Nat.pow_pos (by decide))).elim
  have blocksReached : BlocksReached faults state := by
    intro block inside _ before large
    rw [first_of_free allocated.unallocated.blocks inside before] at large
    exact (large (Nat.pow_pos (by decide))).elim
  apply outcome_bind (outcome_inodeAlloc positive inodesReached)
  rintro result state' (⟨rfl, same, full⟩ | ⟨inode, rfl, same, _, inodes, _, before⟩)
  · subst state'
    rw [if_pos rfl]
    refine outcome_pure ⟨fun impossible => by omega, fun _ => Or.inl ?_⟩
    exact empty_of_free allocated.unallocated.inodes full
  have root := first_of_free allocated.unallocated.inodes inodes before
  subst inode
  subst state'
  rw [if_neg (by decide)]
  apply outcome_modify_bind
  apply outcome_bind (@outcome_dataBlockAlloc _
    ((state.setFreeinode 0 .taken).setInode 0 { state.inodeTable 0 with iNodeType := .tDirectory })
    positive blocksReached)
  rintro result state' (⟨rfl, same, full⟩ | ⟨block, rfl, same, _, blocks, _, before⟩)
  · subst state'
    have none := empty_of_free allocated.unallocated.blocks full
    rw [if_pos rfl]
    apply outcome_modify_bind
    refine outcome_bind (@outcome_inodeDelete _ _ 0 (fun _ _ => True) ?_ ?_ trivial) ?_
    · exact ⟨inodes, rfl⟩
    · intro nonempty
      exact (Nat.lt_irrefl 0 nonempty).elim
    · intro _ _ _
      exact outcome_pure ⟨fun impossible => by omega, fun _ => Or.inr none⟩
  have first := first_of_free allocated.unallocated.blocks blocks before
  subst block
  subst state'
  rw [if_neg (by decide)]
  apply outcome_modify_bind
  refine outcome_bind (@outcome_dataBlockGet _ _ 0 ?_) ?_
  · exact blocks
  rintro base after ⟨baseEq, same⟩
  rw [Nat.zero_mul, Nat.zero_mod] at baseEq
  replace same : after = state.rootTaken
      ⟨.tDirectory, state.blockSize, 0, (state.inodeTable 0).iHardLinks⟩ := by
    rw [same]
    simp [State.rootTaken, State.setInode, State.setFreeBlock, State.setFreeinode,
      State.blockSize]
  subst base
  subst after
  apply outcome_get_bind
  apply outcome_bind (@outcome_clearDirBlock _ (state.rootTaken _) state.maxDirEntries ?_)
  · rintro _ after ⟨dirInside, memory, same, cleared⟩
    subst after
    apply outcome_modify_bind
    apply outcome_pure
    refine ⟨fun _ => ⟨?_, rfl, memory, by simp [State.rootTaken, State.setInode]⟩,
      fun impossible => (impossible rfl).elim⟩
    have initial := @State.rootTaken_initial _ allocated memory inodes blocks positive dirInside
      cleared ⟨.tDirectory, state.blockSize, 0, 1⟩ rfl rfl
    have final : ({ state.rootTaken ⟨.tDirectory, state.blockSize, 0, 1⟩ with
        fsData := memory } : State) = ({ state.rootTaken
          ⟨.tDirectory, state.blockSize, 0, (state.inodeTable 0).iHardLinks⟩ with
            fsData := memory } : State).setInode 0 ⟨.tDirectory, state.blockSize, 0, 1⟩ := by
      simp [State.rootTaken, State.setInode]
    rw [final] at initial
    exact initial
  · exact room.imp id (fun room => room (Nat.lt_of_le_of_lt (Nat.zero_le _) blocks))

/-! ### `tfs_init` -/

theorem mallocsSucceed_dataBytes {succeeds : Nat → Bool} {params : TfsParams}
    (succeed : mallocsSucceed succeeds params = true) :
    params.maxBlockCount * params.blockSize % 2 ^ 64 < 2 ^ 63 := by
  unfold mallocsSucceed mallocSizes at succeed
  simp only [List.zipIdx_cons, List.zipIdx_nil, List.all_cons, List.all_nil, Bool.and_eq_true,
    decide_eq_true_eq] at succeed
  exact succeed.2.2.2.1.2

/-- Without a block size the first allocation fails or divides by zero. -/
theorem outcome_inodeCreate_zero (zero : state.blockSize = 0) :
    Outcome (fun _ => True) (inodeCreate .tDirectory state) (fun result _ => result = -1) := by
  have allocated : Outcome (fun _ => True) (inodeAlloc state) (fun result _ => result = -1) := by
    unfold inodeAlloc
    apply outcome_get_bind
    apply outcome_require_bind
    · rintro (none | positive)
      · rw [none]
        exact outcome_pure rfl
      · exact (positive zero).elim
    · intro _
      trivial
  unfold inodeCreate
  apply outcome_bind allocated
  rintro _ _ rfl
  rw [if_pos rfl]
  exact outcome_pure rfl

theorem newTables_allocated {succeeds : Nat → Bool} (garbage : Garbage) {params : TfsParams}
    (succeed : mallocsSucceed succeeds params = true) : Allocated (newTables garbage params) where
  unallocated := ⟨fun _ => rfl, fun _ => rfl, fun _ => rfl⟩
  dataBytesEq := rfl
  dataBytesLt := mallocsSucceed_dataBytes succeed

/-- The tables left behind when `tfs_init` returned 0 -/
theorem tfsInit_tables {succeeds : Nat → Bool} {garbage : Garbage} {params : TfsParams}
    {state : State} (returned : tfsInit succeeds garbage params = .ok (0, some state)) :
    Initial state ∧ state.fsParams = params ∧ ∃ memory, state =
      { (newTables garbage params).rootTaken ⟨.tDirectory, params.blockSize, 0, 1⟩ with
        fsData := memory } := by
  unfold tfsInit stateInit at returned
  by_cases failed : mallocsSucceed succeeds params = false
  · rw [if_pos failed] at returned
    cases returned
  rw [if_neg failed] at returned
  rw [Bool.not_eq_false] at failed
  by_cases outside : ¬ initLoopsInside params
  · rw [if_pos outside] at returned
    cases returned
  rw [if_neg outside] at returned
  dsimp only at returned
  cases run : inodeCreate .tDirectory (newTables garbage params) with
  | error fault =>
      rw [run] at returned
      cases returned
  | ok pair =>
      obtain ⟨root, state'⟩ := pair
      rw [run] at returned
      dsimp only at returned
      by_cases isRoot : root = rootDirInum
      · rw [if_pos isRoot] at returned
        cases returned
        by_cases zero : (newTables garbage params).blockSize = 0
        · have failedRoot := (outcome_inodeCreate_zero zero).of_ok run
          rw [failedRoot] at isRoot
          exact absurd isRoot (by decide)
        · exact ((@outcome_inodeCreate_root (fun _ => True) _ (newTables_allocated garbage failed)
            (Nat.pos_of_ne_zero zero) (Or.inl trivial)).of_ok run).1 isRoot
      · rw [if_neg isRoot] at returned
        cases returned

theorem tfsInit_initial {succeeds : Nat → Bool} {garbage : Garbage} {params : TfsParams}
    {state : State} (returned : tfsInit succeeds garbage params = .ok (0, some state)) :
    Initial state ∧ state.fsParams = params :=
  ⟨(tfsInit_tables returned).1, (tfsInit_tables returned).2.1⟩

/-- The sizes that fit the `int` indices and the address range -/
def TfsParams.Fits (params : TfsParams) : Prop :=
  params.maxInodeCount < 2 ^ 31 ∧ params.maxBlockCount < 2 ^ 31 ∧
    params.maxOpenFilesCount < 2 ^ 31 ∧ params.blockSize / dirEntrySize < 2 ^ 31 ∧
    params.maxBlockCount * params.blockSize < 2 ^ 64

theorem State.fits_iff : state.Fits ↔ state.fsParams.Fits := Iff.rfl

/-- `tfs_init` returns 0 when its tables are allocated, none of them is empty and the data
area holds the directory. -/
theorem tfsInit_returns {succeeds : Nat → Bool} (garbage : Garbage) {params : TfsParams}
    (succeed : mallocsSucceed succeeds params = true) (inside : initLoopsInside params)
    (room : dirEntrySize * (params.blockSize / dirEntrySize) ≤
      params.maxBlockCount * params.blockSize % 2 ^ 64)
    (inodes : params.maxInodeCount ≠ 0) (blocks : params.maxBlockCount ≠ 0)
    (positive : 0 < params.blockSize) :
    ∃ state, tfsInit succeeds garbage params = .ok (0, some state) := by
  obtain ⟨root, state, run, _, failed⟩ := (outcome_inodeCreate_root
    (newTables_allocated garbage succeed) positive (Or.inr (fun _ => room))).returns
  have isRoot : root = rootDirInum := by
    by_contra nonzero
    exact (failed nonzero).elim inodes blocks
  refine ⟨state, ?_⟩
  unfold tfsInit stateInit
  rw [if_neg (by rw [succeed]; decide), if_neg (not_not.mpr inside)]
  dsimp only
  rw [run]
  dsimp only
  rw [if_pos isRoot]

theorem tfsInit_succeeds {succeeds : Nat → Bool} (garbage : Garbage) {params : TfsParams}
    (succeed : mallocsSucceed succeeds params = true) (inside : initLoopsInside params)
    (fits : params.Fits) (inodes : params.maxInodeCount ≠ 0) (blocks : params.maxBlockCount ≠ 0)
    (positive : 0 < params.blockSize) :
    ∃ state, tfsInit succeeds garbage params = .ok (0, some state) := by
  refine tfsInit_returns garbage succeed inside ?_ inodes blocks positive
  have entries : dirEntrySize * (params.blockSize / dirEntrySize) ≤ params.blockSize :=
    Nat.mul_div_le _ _
  have whole : params.blockSize ≤ params.maxBlockCount * params.blockSize :=
    Nat.le_mul_of_pos_left _ (Nat.pos_of_ne_zero blocks)
  rw [Nat.mod_eq_of_lt fits.2.2.2.2]
  omega

end TecnicoFS.FileSystem
