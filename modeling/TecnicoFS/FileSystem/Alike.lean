/-
States that differ in uninitialized memory only.

Two states are alike when they agree on every byte some call has written and still
needs: the allocation maps, the TAKEN inodes and open file entries, the directory
slots up to the last live one, the bytes of every file below its size and the stored
target of every symbolic link.  The lemmas below carry the relation over each kind of
write; both states receive the same write.
-/

import TecnicoFS.FileSystem.CallSpec

set_option autoImplicit false

namespace TecnicoFS.FileSystem

open TableSearch

/-- The bytes that belong to an inode are the same in both states. -/
structure State.InodeAlike (left right : State) (inode : Inode) : Prop where
  file : inode.iNodeType = .tFile → ∀ block : Nat, inode.iDataBlock = (block : Int) →
    ∀ offset, offset < inode.iSize →
      right.fsData (block * left.blockSize + offset) =
        left.fsData (block * left.blockSize + offset)
  symLink : inode.iNodeType = .tSymLink → ∀ block : Nat, inode.iDataBlock = (block : Int) →
    ∃ target : CString, target.strlen < left.blockSize ∧
      block * left.blockSize + target.strlen < left.dataBytes ∧
      left.fsData.readBytes (block * left.blockSize) (target.strlen + 1) = target.bytes ++ [0] ∧
      right.fsData.readBytes (block * left.blockSize) (target.strlen + 1) = target.bytes ++ [0]

/-- The directory slots hold the same inumbers, and the same names up to the last live slot. -/
structure State.SlotsAlike (left right : State) : Prop where
  inumber : ∀ slot, slot < left.maxDirEntries →
    right.entryInumber slot = left.entryInumber slot
  named : ∀ slot live name, slot ≤ live → left.EntryLive live → validSubName name →
    (right.EntryNamed slot name ↔ left.EntryNamed slot name)

/-- The sizes and the allocation maps, which `tfs_init` fills in itself -/
structure SameTables (left right : State) : Prop where
  fsParams : right.fsParams = left.fsParams
  dataBytes : right.dataBytes = left.dataBytes
  freeinodeTs : right.freeinodeTs = left.freeinodeTs
  freeBlocks : right.freeBlocks = left.freeBlocks
  freeOpenFileEntries : right.freeOpenFileEntries = left.freeOpenFileEntries

structure Alike (left right : State) : Prop extends SameTables left right where
  inodes : ∀ slot, left.InodeTaken slot → right.inodeTable slot = left.inodeTable slot
  bytes : ∀ slot, left.InodeTaken slot → left.InodeAlike right (left.inodeTable slot)
  openFiles : ∀ handle, left.HandleTaken handle →
    right.openFileTable handle = left.openFileTable handle
  slots : left.SlotsAlike right

variable {left right : State} {slack : Slack}

/-! ### What both states have in common -/

namespace SameTables

theorem inodeTableSize (same : SameTables left right) :
    right.inodeTableSize = left.inodeTableSize := congrArg TfsParams.maxInodeCount same.fsParams

theorem dataBlocks (same : SameTables left right) : right.dataBlocks = left.dataBlocks :=
  congrArg TfsParams.maxBlockCount same.fsParams

theorem maxOpenFiles (same : SameTables left right) : right.maxOpenFiles = left.maxOpenFiles :=
  congrArg TfsParams.maxOpenFilesCount same.fsParams

theorem blockSize (same : SameTables left right) : right.blockSize = left.blockSize :=
  congrArg TfsParams.blockSize same.fsParams

theorem maxDirEntries (same : SameTables left right) : right.maxDirEntries = left.maxDirEntries := by
  unfold State.maxDirEntries
  rw [same.blockSize]

theorem validInumber (same : SameTables left right) (inumber : Int) :
    right.ValidInumber inumber ↔ left.ValidInumber inumber := by
  unfold State.ValidInumber
  rw [same.inodeTableSize]

theorem validBlockNumber (same : SameTables left right) (block : Int) :
    right.ValidBlockNumber block ↔ left.ValidBlockNumber block := by
  unfold State.ValidBlockNumber
  rw [same.dataBlocks]

theorem validFileHandle (same : SameTables left right) (fhandle : Int) :
    right.ValidFileHandle fhandle ↔ left.ValidFileHandle fhandle := by
  unfold State.ValidFileHandle
  rw [same.maxOpenFiles]

theorem inodeTaken (same : SameTables left right) (slot : Nat) :
    right.InodeTaken slot ↔ left.InodeTaken slot := by
  unfold State.InodeTaken
  rw [same.inodeTableSize, same.freeinodeTs]

theorem handleTaken (same : SameTables left right) (handle : Nat) :
    right.HandleTaken handle ↔ left.HandleTaken handle := by
  unfold State.HandleTaken
  rw [same.maxOpenFiles, same.freeOpenFileEntries]

end SameTables

namespace Alike

theorem entryLive (alike : Alike left right) (slot : Nat) :
    right.EntryLive slot ↔ left.EntryLive slot := by
  constructor
  · rintro ⟨inside, holds⟩
    rw [alike.maxDirEntries] at inside
    rw [alike.slots.inumber slot inside] at holds
    exact ⟨inside, holds⟩
  · rintro ⟨inside, holds⟩
    rw [← alike.slots.inumber slot inside] at holds
    rw [← alike.maxDirEntries] at inside
    exact ⟨inside, holds⟩

/-! ### Tables -/

theorem setFreeBlock (alike : Alike left right) (block : Nat) (mark : AllocationState) :
    Alike (left.setFreeBlock block mark) (right.setFreeBlock block mark) where
  fsParams := alike.fsParams
  dataBytes := alike.dataBytes
  freeinodeTs := alike.freeinodeTs
  freeBlocks := by
    unfold State.setFreeBlock
    rw [alike.freeBlocks]
  freeOpenFileEntries := alike.freeOpenFileEntries
  inodes := alike.inodes
  bytes := fun slot taken => { alike.bytes slot taken with }
  openFiles := alike.openFiles
  slots := { alike.slots with }

/-- An inode table slot with its mark -/
theorem markInode (alike : Alike left right) (slot : Nat) (mark : AllocationState)
    (inode : Inode) (agrees : mark = .taken → left.InodeAlike right inode) :
    Alike ((left.setFreeinode slot mark).setInode slot inode)
      ((right.setFreeinode slot mark).setInode slot inode) where
  fsParams := alike.fsParams
  dataBytes := alike.dataBytes
  freeinodeTs := by
    unfold State.setInode State.setFreeinode
    rw [alike.freeinodeTs]
  freeBlocks := alike.freeBlocks
  freeOpenFileEntries := alike.freeOpenFileEntries
  inodes := by
    rintro other ⟨inside, taken⟩
    by_cases same : other = slot
    · subst other
      rw [State.setInode_apply_self, State.setInode_apply_self]
    · rw [State.setInode_apply_of_ne _ same, State.setInode_apply_of_ne _ same]
      change Function.update left.freeinodeTs slot mark other = .taken at taken
      rw [Function.update_of_ne same] at taken
      exact alike.inodes other ⟨inside, taken⟩
  bytes := by
    rintro other ⟨inside, taken⟩
    change Function.update left.freeinodeTs slot mark other = .taken at taken
    by_cases same : other = slot
    · subst other
      rw [Function.update_self] at taken
      rw [State.setInode_apply_self]
      exact { agrees taken with }
    · rw [Function.update_of_ne same] at taken
      rw [State.setInode_apply_of_ne _ same]
      exact { alike.bytes other ⟨inside, taken⟩ with }
  openFiles := alike.openFiles
  slots := { alike.slots with }

theorem takeInode (alike : Alike left right) (slot : Nat) {inode : Inode}
    (agrees : left.InodeAlike right inode) :
    Alike (left.takeInode slot inode) (right.takeInode slot inode) :=
  alike.markInode slot .taken inode (fun _ => agrees)

theorem dropInode (alike : Alike left right) (slot : Nat) (inode : Inode) :
    Alike (left.dropInode slot inode) (right.dropInode slot inode) :=
  alike.markInode slot .free inode (fun impossible => by cases impossible)

theorem setInode (alike : Alike left right) (slot : Nat) {inode : Inode}
    (agrees : left.InodeTaken slot → left.InodeAlike right inode) :
    Alike (left.setInode slot inode) (right.setInode slot inode) where
  fsParams := alike.fsParams
  dataBytes := alike.dataBytes
  freeinodeTs := alike.freeinodeTs
  freeBlocks := alike.freeBlocks
  freeOpenFileEntries := alike.freeOpenFileEntries
  inodes := by
    intro other taken
    by_cases same : other = slot
    · subst other
      rw [State.setInode_apply_self, State.setInode_apply_self]
    · rw [State.setInode_apply_of_ne _ same, State.setInode_apply_of_ne _ same]
      exact alike.inodes other taken
  bytes := by
    intro other taken
    by_cases same : other = slot
    · subst other
      rw [State.setInode_apply_self]
      exact { agrees taken with }
    · rw [State.setInode_apply_of_ne _ same]
      exact { alike.bytes other taken with }
  openFiles := alike.openFiles
  slots := { alike.slots with }

theorem openHandle (alike : Alike left right) (handle : Nat) (entry : OpenFileEntry) :
    Alike (left.openHandle handle entry) (right.openHandle handle entry) where
  fsParams := alike.fsParams
  dataBytes := alike.dataBytes
  freeinodeTs := alike.freeinodeTs
  freeBlocks := alike.freeBlocks
  freeOpenFileEntries := by
    unfold State.openHandle State.setOpenFile State.setFreeOpenFile
    rw [alike.freeOpenFileEntries]
  inodes := alike.inodes
  bytes := fun slot taken => { alike.bytes slot taken with }
  openFiles := by
    rintro other ⟨inside, taken⟩
    change Function.update left.freeOpenFileEntries handle .taken other = .taken at taken
    rw [State.openHandle_apply, State.openHandle_apply]
    by_cases same : other = handle
    · rw [if_pos same, if_pos same]
    · rw [if_neg same, if_neg same]
      rw [Function.update_of_ne same] at taken
      exact alike.openFiles other ⟨inside, taken⟩
  slots := { alike.slots with }

theorem closeHandle (alike : Alike left right) (handle : Nat) :
    Alike (left.closeHandle handle) (right.closeHandle handle) where
  fsParams := alike.fsParams
  dataBytes := alike.dataBytes
  freeinodeTs := alike.freeinodeTs
  freeBlocks := alike.freeBlocks
  freeOpenFileEntries := by
    unfold State.closeHandle State.setFreeOpenFile
    rw [alike.freeOpenFileEntries]
  inodes := alike.inodes
  bytes := fun slot taken => { alike.bytes slot taken with }
  openFiles := by
    intro other taken
    exact alike.openFiles other (State.closeHandle_taken.mp taken).2
  slots := { alike.slots with }

theorem setOpenFile (alike : Alike left right) (handle : Nat) (entry : OpenFileEntry) :
    Alike (left.setOpenFile handle entry) (right.setOpenFile handle entry) where
  fsParams := alike.fsParams
  dataBytes := alike.dataBytes
  freeinodeTs := alike.freeinodeTs
  freeBlocks := alike.freeBlocks
  freeOpenFileEntries := alike.freeOpenFileEntries
  inodes := alike.inodes
  bytes := fun slot taken => { alike.bytes slot taken with }
  openFiles := by
    intro other taken
    change Function.update right.openFileTable handle entry other =
      Function.update left.openFileTable handle entry other
    rw [Function.update_apply, Function.update_apply]
    by_cases same : other = handle
    · rw [if_pos same, if_pos same]
    · rw [if_neg same, if_neg same]
      exact alike.openFiles other taken
  slots := { alike.slots with }

end Alike

/-! ### The data area -/

/-- The range misses the block of every symbolic link. -/
def State.MissesLinks (state : State) (address length : Nat) : Prop :=
  ∀ slot, state.InodeTaken slot → (state.inodeTable slot).iNodeType = .tSymLink →
    ∀ block : Nat, (state.inodeTable slot).iDataBlock = (block : Int) →
      address + length ≤ block * state.blockSize ∨
        block * state.blockSize + state.blockSize ≤ address

/-- The same bytes stored in both data areas -/
theorem State.InodeAlike.store {inode : Inode} {address : Nat} {bytes : List UInt8}
    (agrees : left.InodeAlike right inode)
    (missed : inode.iNodeType = .tSymLink → ∀ block : Nat, inode.iDataBlock = (block : Int) →
      address + bytes.length ≤ block * left.blockSize ∨
        block * left.blockSize + left.blockSize ≤ address) :
    (left.store address bytes).InodeAlike (right.store address bytes) inode where
  file := by
    intro isFile block blockEq offset inside
    have same := agrees.file isFile block blockEq offset inside
    change right.fsData.writeBytes address bytes (block * left.blockSize + offset) =
      left.fsData.writeBytes address bytes (block * left.blockSize + offset)
    unfold ByteMemory.writeBytes
    rw [same]
  symLink := by
    intro isSymLink block blockEq
    obtain ⟨target, short, inside, leftRead, rightRead⟩ := agrees.symLink isSymLink block blockEq
    have apart := missed isSymLink block blockEq
    have disjoint : block * left.blockSize + (target.strlen + 1) ≤ address ∨
        address + bytes.length ≤ block * left.blockSize := by omega
    refine ⟨target, short, inside, ?_, ?_⟩
    · exact (ByteMemory.readBytes_writeBytes_disjoint _ _ _ _ _ disjoint).trans leftRead
    · exact (ByteMemory.readBytes_writeBytes_disjoint _ _ _ _ _ disjoint).trans rightRead

/-- A store into both data areas that leaves both directories alike -/
theorem Alike.storeWith {address : Nat} {bytes : List UInt8} (alike : Alike left right)
    (missed : left.MissesLinks address bytes.length)
    (slots : (left.store address bytes).SlotsAlike (right.store address bytes)) :
    Alike (left.store address bytes) (right.store address bytes) where
  fsParams := alike.fsParams
  dataBytes := alike.dataBytes
  freeinodeTs := alike.freeinodeTs
  freeBlocks := alike.freeBlocks
  freeOpenFileEntries := alike.freeOpenFileEntries
  inodes := alike.inodes
  bytes := fun slot taken => (alike.bytes slot taken).store (missed slot taken)
  openFiles := alike.openFiles
  slots := slots

theorem Alike.store {address : Nat} {bytes : List UInt8} (alike : Alike left right)
    (past : dirEntrySize * left.maxDirEntries ≤ address)
    (missed : left.MissesLinks address bytes.length) :
    Alike (left.store address bytes) (right.store address bytes) := by
  have leftSame := @State.sameEntries_store left address bytes past
  have rightSame := @State.sameEntries_store right address bytes
    (by rw [alike.maxDirEntries]; exact past)
  have rightInside {slot : Nat} (inside : slot < left.maxDirEntries) :
      slot < right.maxDirEntries := by rw [alike.maxDirEntries]; exact inside
  refine alike.storeWith missed ⟨?_, ?_⟩
  · intro slot inside
    rw [(leftSame slot inside).1, (rightSame slot (rightInside inside)).1]
    exact alike.slots.inumber slot inside
  · intro slot live name below isLive short
    have inside : slot < left.maxDirEntries := Nat.lt_of_le_of_lt below isLive.1
    rw [(leftSame slot inside).2 name short, (rightSame slot (rightInside inside)).2 name short]
    exact alike.slots.named slot live name below ((leftSame.live live).mp isLive) short

/-- A block that is owned lies past the directory. -/
theorem Invariant.linkBlock (inv : Invariant left slack) {slot block : Nat}
    (taken : left.InodeTaken slot) (isSymLink : (left.inodeTable slot).iNodeType = .tSymLink)
    (blockEq : (left.inodeTable slot).iDataBlock = (block : Int)) :
    block ≠ 0 ∧ left.BlockTaken block ∧ left.OwnsBlock slot block := by
  have owns : left.OwnsBlock slot block := by
    refine ⟨taken, blockEq, ?_⟩
    intro isFile
    rw [isSymLink] at isFile
    cases isFile
  have nonzero : slot ≠ 0 := by
    intro zero
    subst slot
    rw [inv.root.isDirectory] at isSymLink
    cases isSymLink
  obtain ⟨own, same, ownNonzero, ownTaken⟩ := inv.blocks.owned slot block owns nonzero
  have equal : own = block := by omega
  subst own
  exact ⟨ownNonzero, ownTaken, owns⟩

/-- No symbolic link has its target among the directory slots. -/
def State.LinksPastDirectory (state : State) : Prop :=
  ∀ address length, address + length ≤ dirEntrySize * state.maxDirEntries →
    state.MissesLinks address length

theorem Invariant.linksPastDirectory (inv : Invariant left slack) : left.LinksPastDirectory := by
  intro address length inside slot taken isSymLink block blockEq
  have past := left.dirEnd_le_blockAddress (inv.linkBlock taken isSymLink blockEq).1
  exact Or.inl (by omega)

/-- A range inside a block that no symbolic link owns -/
theorem Invariant.missesLinks_block (inv : Invariant left slack) {own offset length : Nat}
    (foreign : ∀ slot, (left.inodeTable slot).iNodeType = .tSymLink →
      ¬ left.OwnsBlock slot (own : Int))
    (inside : offset + length ≤ left.blockSize) :
    left.MissesLinks (own * left.blockSize + offset) length := by
  intro slot taken isSymLink block blockEq
  have owns := (inv.linkBlock taken isSymLink blockEq).2.2
  rcases Nat.lt_trichotomy own block with lower | same | upper
  · have next : (own + 1) * left.blockSize ≤ block * left.blockSize :=
      Nat.mul_le_mul_right _ lower
    rw [Nat.succ_mul] at next
    exact Or.inl (by omega)
  · subst block
    exact (foreign slot isSymLink owns).elim
  · have next : (block + 1) * left.blockSize ≤ own * left.blockSize :=
      Nat.mul_le_mul_right _ upper
    rw [Nat.succ_mul] at next
    exact Or.inr (by omega)

/-! ### Directory slots -/

theorem State.entry_inside {slot : Nat} (inside : slot < left.maxDirEntries) :
    dirEntrySize * slot + maxFileName + 4 ≤ dirEntrySize * left.maxDirEntries := by
  have next : dirEntrySize * (slot + 1) ≤ dirEntrySize * left.maxDirEntries :=
    Nat.mul_le_mul_left _ inside
  unfold dirEntrySize maxFileName at *
  omega

/-- Both fields of one directory slot stored in both data areas -/
theorem Alike.storeEntry {slot : Nat} {inumber name : List UInt8} (alike : Alike left right)
    (past : left.LinksPastDirectory) (inside : slot < left.maxDirEntries)
    (inumberLength : inumber.length = 4) (nameLength : name.length = maxFileName)
    (slots : ((left.store (0 + dirEntrySize * slot + maxFileName) inumber).store
      (dNameAddress 0 slot) name).SlotsAlike
        ((right.store (0 + dirEntrySize * slot + maxFileName) inumber).store
          (dNameAddress 0 slot) name)) :
    Alike ((left.store (0 + dirEntrySize * slot + maxFileName) inumber).store
        (dNameAddress 0 slot) name)
      ((right.store (0 + dirEntrySize * slot + maxFileName) inumber).store
        (dNameAddress 0 slot) name) where
  fsParams := alike.fsParams
  dataBytes := alike.dataBytes
  freeinodeTs := alike.freeinodeTs
  freeBlocks := alike.freeBlocks
  freeOpenFileEntries := alike.freeOpenFileEntries
  inodes := alike.inodes
  bytes := by
    intro other taken
    have ends := State.entry_inside inside
    have first : left.MissesLinks (0 + dirEntrySize * slot + maxFileName) inumber.length :=
      past _ _ (by rw [inumberLength, Nat.zero_add]; exact ends)
    have second : left.MissesLinks (dNameAddress 0 slot) name.length :=
      past _ _ (by rw [nameLength]; unfold dNameAddress; omega)
    exact ((alike.bytes other taken).store (first other taken)).store (second other taken)
  openFiles := alike.openFiles
  slots := slots

theorem Alike.bindEntry {slot inode : Nat} {name : CString} (alike : Alike left right)
    (past : left.LinksPastDirectory) (short : validSubName name) (fits : inode < 2 ^ 31)
    (dead : left.FirstDead slot) :
    Alike (left.bindEntry slot name inode) (right.bindEntry slot name inode) := by
  refine alike.storeEntry past dead.1 rfl (dNameBytes_length name short) ⟨?_, ?_⟩
  · intro other inside
    exact ((right.bindEntry_entryInumber slot other name inode short (by omega) (by omega)).trans
      (by rw [alike.slots.inumber other inside])).trans
        (left.bindEntry_entryInumber slot other name inode short (by omega) (by omega)).symm
  · intro other live query below isLive queryShort
    refine (right.bindEntry_entryNamed slot other name query inode short queryShort).trans
      (Iff.trans ?_ (left.bindEntry_entryNamed slot other name query inode short queryShort).symm)
    by_cases same : other = slot
    · rw [if_pos same, if_pos same]
    rw [if_neg same, if_neg same]
    rcases (State.bindEntry_live short fits dead.1).mp isLive with last | before
    · exact alike.slots.named other other query (Nat.le_refl _)
        (dead.2.2 other (by omega)) queryShort
    · exact alike.slots.named other live query below before queryShort

theorem Alike.scrubEntry {slot : Nat} (alike : Alike left right) (past : left.LinksPastDirectory)
    (inside : slot < left.maxDirEntries) :
    Alike (left.scrubEntry slot) (right.scrubEntry slot) := by
  refine alike.storeEntry past inside rfl List.length_replicate ⟨?_, ?_⟩
  · intro other otherInside
    exact ((right.scrubEntry_entryInumber slot other).trans
      (by rw [alike.slots.inumber other otherInside])).trans
        (left.scrubEntry_entryInumber slot other).symm
  · intro other live query below isLive queryShort
    refine (right.scrubEntry_entryNamed slot other query queryShort).trans
      (Iff.trans ?_ (left.scrubEntry_entryNamed slot other query queryShort).symm)
    rw [alike.slots.named other live query below (State.scrubEntry_live.mp isLive).2 queryShort]

/-! ### Whole operations -/

theorem Alike.releaseBlock (alike : Alike left right) {slot : Nat}
    (taken : left.InodeTaken slot) : Alike (left.releaseBlock slot) (right.releaseBlock slot) := by
  unfold State.releaseBlock
  rw [alike.inodes slot taken]
  split
  · exact alike.setFreeBlock _ _
  · exact alike

theorem Alike.deleteInode (alike : Alike left right) {slot : Nat}
    (taken : left.InodeTaken slot) : Alike (left.deleteInode slot) (right.deleteInode slot) := by
  unfold State.deleteInode
  rw [alike.inodes slot taken]
  exact (alike.releaseBlock taken).dropInode slot _

/-- An inode without a block, or an empty file -/
theorem State.InodeAlike.of_empty {inode : Inode} (isFile : inode.iNodeType = .tFile)
    (empty : inode.iSize = 0) : left.InodeAlike right inode where
  file := by
    intro _ _ _ offset inside
    omega
  symLink := by
    intro isSymLink
    rw [isFile] at isSymLink
    cases isSymLink

theorem State.InodeAlike.newInode (iType : InodeType) :
    left.InodeAlike right (newInode iType) where
  file := by
    intro _ block blockEq
    change (-1 : Int) = (block : Int) at blockEq
    omega
  symLink := by
    intro _ block blockEq
    change (-1 : Int) = (block : Int) at blockEq
    omega

theorem State.InodeAlike.setLinks {inode : Inode} (agrees : left.InodeAlike right inode)
    (links : Nat) : left.InodeAlike right { inode with iHardLinks := links } where
  file := agrees.file
  symLink := agrees.symLink

end TecnicoFS.FileSystem
