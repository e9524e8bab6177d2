/-
What `tfs_sym_link` writes.

The target is copied into the new block as a C string and its length is compared with
nothing, so a target that reaches past the end of the block goes on into the block of
another file, or leaves the data area behind the last block.
-/

import TecnicoFS.FileSystem.Refinement

set_option autoImplicit false

namespace TecnicoFS.FileSystem

open FaultAction

variable {params : TfsParams} {state state' : State} {target link : CString}
  {inode block slot : Option Nat}

/-- Nothing changed but one inode, the bytes of one block, one directory entry and the
marks of the inode and the block, which were all unused before. -/
structure SymLinkWrites (state state' : State) (inode block slot : Option Nat) : Prop where
  inodeFree : ∀ used, inode = some used →
    used < state.inodeTableSize ∧ state.freeinodeTs used = .free
  blockFree : ∀ used, block = some used →
    used < state.dataBlocks ∧ state.freeBlocks used = .free
  slotDead : ∀ used, slot = some used →
    used < state.maxDirEntries ∧ state.entryInumber used = -1
  area : state.SameArea state'
  inodes : ∀ other, inode ≠ some other → state'.inodeTable other = state.inodeTable other ∧
    state'.freeinodeTs other = state.freeinodeTs other
  blocks : ∀ other, block ≠ some other → state'.freeBlocks other = state.freeBlocks other
  handles : state'.openFileTable = state.openFileTable ∧
    state'.freeOpenFileEntries = state.freeOpenFileEntries
  bytes : ∀ position,
    (∀ used, block = some used → position < used * state.blockSize ∨
      used * state.blockSize + state.blockSize ≤ position) →
    (∀ used, slot = some used → position < dirEntrySize * used ∨
      dirEntrySize * used + dirEntrySize ≤ position) →
    state'.fsData position = state.fsData position
  outside : ∀ position, state.dataBytes ≤ position →
    state'.fsData position = state.fsData position

/-- The files and the links of the other inodes are untouched as well. -/
structure SymLinkFrame (state state' : State) (inode block slot : Option Nat) : Prop
    extends SymLinkWrites state state' inode block slot where
  files : ∀ other contents, state.HoldsFile other contents → state'.HoldsFile other contents
  links : ∀ other stored, state.InodeTaken other →
    (state.inodeTable other).iNodeType = .tSymLink → state.targetOf other = some stored →
    stored.strlen < state.blockSize → state'.targetOf other = some stored

/-- What the target writes past the end of the block stands there already. -/
def State.TargetKept (state : State) (target : CString) (block : Nat) : Prop :=
  target.strlen < state.blockSize ∨
    state.fsData.readBytes (block * state.blockSize + state.blockSize)
      (target.strlen + 1 - state.blockSize) = (target.bytes ++ [0]).drop state.blockSize

/-- Where the link gets an inode and a block, the target ends within the data area and
writes nothing new past the end of the block. -/
def State.TargetFits (state : State) (target link : CString) : Prop :=
  state.NewTarget target link (fun block =>
    block * state.blockSize + target.strlen < state.dataBytes ∧ state.TargetKept target block)

/-! ### From the bytes to the files -/

theorem SymLinkWrites.refl : SymLinkWrites state state none none none where
  inodeFree _ impossible := by cases impossible
  blockFree _ impossible := by cases impossible
  slotDead _ impossible := by cases impossible
  area := ⟨rfl, rfl⟩
  inodes _ _ := ⟨rfl, rfl⟩
  blocks _ _ := rfl
  handles := ⟨rfl, rfl⟩
  bytes _ _ _ := rfl
  outside _ _ := rfl

theorem SymLinkWrites.past (writes : SymLinkWrites state state' inode block slot)
    {position : Nat} (past : state.blockSize ≤ position)
    (apart : ∀ used, block = some used → position < used * state.blockSize ∨
      used * state.blockSize + state.blockSize ≤ position) :
    state'.fsData position = state.fsData position := by
  refine writes.bytes position apart (fun used same => Or.inr ?_)
  exact Nat.le_trans (State.slot_inside (writes.slotDead used same).1) past

/-- An allocated inode is not the new one and its block is not the new one. -/
theorem SymLinkWrites.sameInode (writes : SymLinkWrites state state' inode block slot)
    (inv : Invariant state none) {other : Nat} (taken : state.InodeTaken other) :
    state.SameInode state' other := by
  have different : inode ≠ some other := by
    intro same
    have isFree := (writes.inodeFree other same).2
    rw [taken.2] at isFree
    cases isFree
  obtain ⟨sameInode, sameMark⟩ := writes.inodes other different
  have tableSize : state'.inodeTableSize = state.inodeTableSize :=
    congrArg TfsParams.maxInodeCount writes.area.1
  refine ⟨?_, fun _ => by rw [sameInode], fun _ => by rw [sameInode],
    fun _ => by rw [sameInode], ?_⟩
  · unfold State.InodeTaken
    rw [tableSize, sameMark]
  · intro notDirectory owns offset inside
    obtain ⟨own, nonzero, blockTaken, _, address⟩ := inv.owned_address notDirectory owns
    rw [address]
    have whole : state.blockSize ≤ own * state.blockSize :=
      Nat.le_mul_of_pos_left _ (Nat.pos_of_ne_zero nonzero)
    apply writes.past (by omega)
    intro used same
    have isFree := (writes.blockFree used same).2
    by_contra overlaps
    rw [not_or, Nat.not_lt, Nat.not_le] at overlaps
    have sameBlock : own = used := by
      by_contra apart
      exact @blocks_apart _ _ state.blockSize offset
        (own * state.blockSize + offset - used * state.blockSize) apart inside (by omega)
        (by omega)
    subst used
    rw [blockTaken.2] at isFree
    cases isFree

theorem Invariant.holdsLink (inv : Invariant state none) {other : Nat} {stored : CString}
    (taken : state.InodeTaken other) (isSymLink : (state.inodeTable other).iNodeType = .tSymLink)
    (found : state.targetOf other = some stored) (short : stored.strlen < state.blockSize) :
    state.HoldsLink other stored := by
  obtain ⟨own, _, blockTaken, _, address⟩ := inv.owned_address
    (by rw [isSymLink]; decide) ⟨taken, rfl, fun isFile => by rw [isSymLink] at isFile; cases isFile⟩
  have small := inv.blockAddress blockTaken
  rw [← address] at small
  unfold State.targetOf at found
  rw [show (state.inodeTable other).iDataBlock.toNat * state.blockSize =
    state.blockAddress other from rfl, small] at found
  obtain ⟨inside, holds⟩ := CString.stored_of_ofMemory found
  exact ⟨taken, isSymLink, short, by omega, holds⟩

theorem SymLinkWrites.frame (writes : SymLinkWrites state state' inode block slot)
    (inv : Invariant state none) : SymLinkFrame state state' inode block slot where
  toSymLinkWrites := writes
  files other contents holds :=
    ((writes.sameInode inv holds.1).holdsFile writes.area inv.inodes contents).mpr holds
  links other stored taken isSymLink found short := by
    have holds := ((writes.sameInode inv taken).holdsLink writes.area stored).mpr
      (inv.holdsLink taken isSymLink found short)
    obtain ⟨_, _, _, inside, bytes⟩ := holds
    have small := inv.geometry.dataBytesLt
    have area := writes.area.2
    unfold State.targetOf
    rw [show (state'.inodeTable other).iDataBlock.toNat * state'.blockSize =
      state'.blockAddress other from rfl, Nat.mod_eq_of_lt (by omega)]
    exact CString.ofMemory_eq_of_readBytes _ _ _ _ (by omega) bytes

/-! ### The overflow -/

theorem targetStored_inside (state : State) (target : CString) (block offset : Nat)
    (inside : offset < (target.bytes ++ [0]).length) :
    (state.targetStored block target).fsData (block * state.blockSize + offset) =
      (target.bytes ++ [0])[offset] :=
  ByteMemory.writeBytes_inside _ _ _ _ inside

theorem targetStored_outside (state : State) (target : CString) (block position : Nat)
    (outside : position < block * state.blockSize ∨
      block * state.blockSize + target.strlen < position) :
    (state.targetStored block target).fsData position = state.fsData position := by
  apply ByteMemory.writeBytes_outside
  rw [List.length_append]
  exact outside

theorem State.targetKept_iff {block : Nat} :
    state.TargetKept target block ↔
      ∀ position, block * state.blockSize + state.blockSize ≤ position →
        (state.targetStored block target).fsData position = state.fsData position := by
  have length : (target.bytes ++ [0]).length = target.strlen + 1 := by
    rw [List.length_append]
    rfl
  constructor
  · rintro (short | stored) position past
    · exact targetStored_outside state target block position (by omega)
    · by_cases written : block * state.blockSize + target.strlen < position
      · exact targetStored_outside state target block position (Or.inr written)
      · obtain ⟨offset, rfl⟩ := Nat.exists_eq_add_of_le past
        have inside : offset < (state.fsData.readBytes
            (block * state.blockSize + state.blockSize)
            (target.strlen + 1 - state.blockSize)).length := by
          rw [ByteMemory.readBytes_length]
          omega
        have read := ByteMemory.readBytes_getElem state.fsData _ _ _ inside
        rw [← read, List.getElem_of_eq stored, List.getElem_drop, Nat.add_assoc]
        exact targetStored_inside state target block _ (by omega)
  · intro kept
    by_cases short : target.strlen < state.blockSize
    · exact Or.inl short
    · right
      apply List.ext_getElem
      · rw [ByteMemory.readBytes_length, List.length_drop, length]
      · intro offset left right
        rw [ByteMemory.readBytes_getElem, ← kept _ (by omega), List.getElem_drop, Nat.add_assoc]
        exact targetStored_inside state target block _ _

/-! ### The three ways a link writes -/

theorem SymLinkWrites.inodeOnly {used : Nat} (first : state.FirstFreeInode used) (data : Inode) :
    SymLinkWrites state (state.setInode used data) (some used) none none :=
  { (SymLinkWrites.refl : SymLinkWrites state state none none none) with
    inodeFree := by
      intro other same
      cases same
      exact ⟨first.2.1, first.2.2.1⟩
    inodes := fun other different =>
      ⟨Function.update_of_ne (fun same => different (by rw [same])) _ _, rfl⟩ }

theorem SymLinkWrites.storesTarget {used place : Nat} {inodeTable : Nat → Inode}
    {freeinodeTs : Nat → AllocationState} (firstInode : state.FirstFreeInode used)
    (firstBlock : state.FirstFreeBlock place)
    (inside : place * state.blockSize + target.strlen < state.dataBytes)
    (kept : state.TargetKept target place)
    (inodes : ∀ other, used ≠ other → inodeTable other = state.inodeTable other ∧
      freeinodeTs other = state.freeinodeTs other) :
    SymLinkWrites state { state.targetStored place target with
      inodeTable := inodeTable, freeinodeTs := freeinodeTs } (some used) (some place) none :=
  { (SymLinkWrites.refl : SymLinkWrites state state none none none) with
    inodeFree := by
      intro other same
      cases same
      exact ⟨firstInode.2.1, firstInode.2.2.1⟩
    blockFree := by
      intro other same
      cases same
      exact ⟨firstBlock.2.1, firstBlock.2.2.1⟩
    inodes := fun other different => inodes other (fun same => different (by rw [same]))
    blocks := fun other different =>
      Function.update_of_ne (fun same => different (by rw [same])) _ _
    bytes := by
      intro position apart _
      rcases apart place rfl with before | past
      · exact targetStored_outside state target place position (Or.inl before)
      · exact State.targetKept_iff.mp kept position past
    outside := by
      intro position past
      exact targetStored_outside state target place position (Or.inr (by omega)) }

theorem SymLinkWrites.bindEntry {used place entry number : Nat} {name : CString}
    (writes : SymLinkWrites state state' (some used) (some place) none)
    (geometry : GeometryOk state) (valid : validSubName name) (dead : state.FirstDead entry) :
    SymLinkWrites state (state'.bindEntry entry name number) (some used) (some place)
      (some entry) :=
  { writes with
    slotDead := by
      intro other same
      cases same
      exact ⟨dead.1, dead.2.1⟩
    bytes := by
      intro position blockApart slotApart
      rw [State.bindEntry_outside valid (slotApart entry rfl)]
      exact writes.bytes position blockApart (fun _ impossible => by cases impossible)
    outside := by
      intro position past
      have entries := Nat.mul_le_mul_left dirEntrySize dead.1
      rw [Nat.mul_succ] at entries
      have dirInside := geometry.dirInside
      rw [State.bindEntry_outside valid (Or.inr (by omega))]
      exact writes.outside position past }

theorem SymLinkEffect.writes {result : Int} (effect : SymLinkEffect state target link result state')
    (inv : Invariant state none) (fits : state.TargetFits target link) :
    ∃ inode block slot, SymLinkWrites state state' inode block slot := by
  cases effect with
  | same _ => exact ⟨none, none, none, .refl⟩
  | noInode _ => exact ⟨none, none, none, .refl⟩
  | noBlock firstInode _ => exact ⟨_, none, none, .inodeOnly firstInode _⟩
  | refused different firstInode firstBlock _ _ =>
      obtain ⟨inside, kept⟩ := fits.accepted different firstInode firstBlock
      exact ⟨_, _, none, .storesTarget firstInode firstBlock inside kept (fun other apart =>
        ⟨Function.update_of_ne apart.symm _ _, rfl⟩)⟩
  | linked different firstInode firstBlock _ valid _ dead =>
      obtain ⟨inside, kept⟩ := fits.accepted different firstInode firstBlock
      exact ⟨_, _, _, SymLinkWrites.bindEntry (.storesTarget firstInode firstBlock inside kept
        (fun other apart => ⟨Function.update_of_ne apart.symm _ _,
          Function.update_of_ne apart.symm _ _⟩)) inv.geometry valid dead⟩

theorem CallEffect.symLink {result : Int}
    (effect : CallEffect state (.tfsSymLink (some target) (some link)) ⟨result, []⟩ state')
    (targetValid : ValidPathname target) (linkValid : ValidPathname link) :
    SymLinkEffect state target link result state' := by
  cases effect with
  | symLinkInvalid invalid =>
      rw [validPathname_of_valid targetValid, validPathname_of_valid linkValid] at invalid
      rcases invalid with impossible | impossible <;> cases impossible
  | symLinks _ _ effect => exact effect

end TecnicoFS.FileSystem
