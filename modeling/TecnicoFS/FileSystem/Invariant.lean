/-
The invariant of the file system between two public calls.

The groups below couple the root directory, the inode table, the allocation maps
and the open file table.  `slack` names at most one inode that an operation in
progress still accounts for: its link count may exceed the number of its entries by
the given amount, and it needs neither an entry nor a handle to stay allocated.
-/

import TecnicoFS.FileSystem.Entries

set_option autoImplicit false

namespace TecnicoFS.FileSystem

open TableSearch

namespace State

def InodeTaken (state : State) (slot : Nat) : Prop :=
  slot < state.inodeTableSize ∧ state.freeinodeTs slot = .taken

def BlockTaken (state : State) (slot : Nat) : Prop :=
  slot < state.dataBlocks ∧ state.freeBlocks slot = .taken

def HandleTaken (state : State) (slot : Nat) : Prop :=
  slot < state.maxOpenFiles ∧ state.freeOpenFileEntries slot = .taken

/-- A TAKEN open file entry refers to the inode. -/
def IsOpen (state : State) (slot : Nat) : Prop :=
  ∃ handle, state.HandleTaken handle ∧ (state.openFileTable handle).ofInumber = (slot : Int)

/-- The block the allocated inode owns: a regular file owns one while it is not empty. -/
def OwnsBlock (state : State) (slot : Nat) (block : Int) : Prop :=
  state.InodeTaken slot ∧ (state.inodeTable slot).iDataBlock = block ∧
    ((state.inodeTable slot).iNodeType = .tFile → 0 < (state.inodeTable slot).iSize)

instance (state : State) (slot : Nat) : Decidable (state.InodeTaken slot) :=
  inferInstanceAs (Decidable (_ ∧ _))

instance (state : State) (slot : Nat) : Decidable (state.BlockTaken slot) :=
  inferInstanceAs (Decidable (_ ∧ _))

instance (state : State) (slot : Nat) : Decidable (state.HandleTaken slot) :=
  inferInstanceAs (Decidable (_ ∧ _))

end State

/-- An inode whose link count or use is not settled yet, with its uncounted links -/
abbrev Slack : Type := Option (Nat × Nat)

/-- The links of the inode that no entry accounts for -/
def Slack.extra (slack : Slack) (slot : Nat) : Nat :=
  match slack with
  | some (exempt, links) => if exempt = slot then links else 0
  | none => 0

/-- The inode is the unsettled one. -/
def Slack.Exempts (slack : Slack) (slot : Nat) : Prop :=
  match slack with
  | some (exempt, _) => exempt = slot
  | none => False

structure GeometryOk (state : State) : Prop where
  blockSizePos : 0 < state.blockSize
  dataBytesEq : state.dataBytes = state.dataBlocks * state.blockSize % 2 ^ 64
  dataBytesLt : state.dataBytes < 2 ^ 63
  dirInside : dirEntrySize * state.maxDirEntries ≤ state.dataBytes

structure RootOk (state : State) : Prop where
  inodeTaken : state.InodeTaken 0
  isDirectory : (state.inodeTable 0).iNodeType = .tDirectory
  inFirstBlock : (state.inodeTable 0).iDataBlock = 0
  blockTaken : state.BlockTaken 0

structure DirectoryOk (state : State) : Prop where
  named : ∀ slot, state.EntryLive slot → ∃ name, validSubName name ∧ state.EntryNamed slot name
  distinct : ∀ left right name, state.EntryLive left → state.EntryLive right →
    validSubName name → state.EntryNamed left name → state.EntryNamed right name → left = right
  /-- A dead slot below a live one was cleared, so its name field matches nothing. -/
  scrubbed : ∀ dead live name, dead < live → ¬ state.EntryLive dead → state.EntryLive live →
    validSubName name → ¬ state.EntryNamed dead name

structure HoldersOk (state : State) : Prop where
  entryHolds : ∀ slot, state.EntryLive slot →
    ∃ inode : Nat, state.entryInumber slot = (inode : Int) ∧ inode ≠ 0 ∧ state.InodeTaken inode
  handleHolds : ∀ handle, state.HandleTaken handle →
    ∃ inode : Nat, (state.openFileTable handle).ofInumber = (inode : Int) ∧ inode ≠ 0 ∧
      state.InodeTaken inode ∧ (state.inodeTable inode).iNodeType = .tFile

structure CountsOk (state : State) (slack : Slack) : Prop where
  linkCount : ∀ inode, state.InodeTaken inode → inode ≠ 0 →
    (state.inodeTable inode).iHardLinks = state.entryCount inode + slack.extra inode
  used : ∀ inode, state.InodeTaken inode → inode ≠ 0 → ¬ slack.Exempts inode →
    state.entryCount inode ≠ 0 ∨ state.IsOpen inode
  slackTaken : ∀ inode, slack.Exempts inode → state.InodeTaken inode ∧ inode ≠ 0

structure InodesOk (state : State) : Prop where
  onlyRoot : ∀ inode, state.InodeTaken inode → inode ≠ 0 →
    (state.inodeTable inode).iNodeType ≠ .tDirectory
  fits : ∀ inode, state.InodeTaken inode → inode < 2 ^ 31
  fileSize : ∀ inode, state.InodeTaken inode → (state.inodeTable inode).iNodeType = .tFile →
    (state.inodeTable inode).iSize ≤ state.blockSize
  symLinkSize : ∀ inode, state.InodeTaken inode →
    (state.inodeTable inode).iNodeType = .tSymLink → (state.inodeTable inode).iSize = 0

structure BlocksOk (state : State) : Prop where
  fits : ∀ block, state.BlockTaken block → block < 2 ^ 31
  inside : ∀ block, state.BlockTaken block → block ≠ 0 →
    block * state.blockSize < state.dataBytes
  owned : ∀ inode block, state.OwnsBlock inode block → inode ≠ 0 →
    ∃ slot : Nat, block = (slot : Int) ∧ slot ≠ 0 ∧ state.BlockTaken slot
  exclusive : ∀ left right block, state.OwnsBlock left block → state.OwnsBlock right block →
    left = right

structure HandlesOk (state : State) : Prop where
  fits : ∀ handle, state.HandleTaken handle → handle < 2 ^ 31
  offset : ∀ handle, state.HandleTaken handle →
    (state.openFileTable handle).ofOffset ≤ state.blockSize

/-- Everything the public calls rely on and restore -/
structure Invariant (state : State) (slack : Slack) : Prop where
  geometry : GeometryOk state
  root : RootOk state
  directory : DirectoryOk state
  holders : HoldersOk state
  counts : CountsOk state slack
  inodes : InodesOk state
  blocks : BlocksOk state
  handles : HandlesOk state

/-! ### Consequences -/

theorem State.entryCount_le (state : State) (inode : Nat) :
    state.entryCount inode ≤ state.maxDirEntries := Nat.count_le _

theorem State.entryCount_lt (state : State) (inode : Nat) :
    state.entryCount inode + 1 < 2 ^ 64 := by
  have counted := state.entryCount_le inode
  have range := state.fsParams.sizeRange.2.2.2
  unfold State.maxDirEntries State.blockSize dirEntrySize at counted
  omega

theorem State.entryCount_ne_zero_iff (state : State) (inode : Nat) :
    state.entryCount inode ≠ 0 ↔
      ∃ slot, slot < state.maxDirEntries ∧ state.entryInumber slot = (inode : Int) := by
  unfold State.entryCount
  rw [Nat.count_ne_iff_exists]

theorem Invariant.blockAddress {state : State} {slack : Slack} (inv : Invariant state slack)
    {block : Nat} (taken : state.BlockTaken block) :
    block * state.blockSize % 2 ^ 64 = block * state.blockSize := by
  by_cases root : block = 0
  · subst block
    rw [Nat.zero_mul, Nat.zero_mod]
  · have inside := inv.blocks.inside block taken root
    have small := inv.geometry.dataBytesLt
    exact Nat.mod_eq_of_lt (by omega)

/-- A block other than the root's starts past the directory entries. -/
theorem State.dirEnd_le_blockAddress (state : State) {block : Nat} (nonzero : block ≠ 0) :
    dirEntrySize * state.maxDirEntries ≤ block * state.blockSize := by
  have one : state.blockSize ≤ block * state.blockSize :=
    Nat.le_mul_of_pos_left _ (Nat.pos_of_ne_zero nonzero)
  have entries : dirEntrySize * state.maxDirEntries ≤ state.blockSize := by
    unfold State.maxDirEntries
    exact Nat.mul_div_le _ _
  omega

end TecnicoFS.FileSystem
