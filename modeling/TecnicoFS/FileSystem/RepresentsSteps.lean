/-
Which step of the abstract file system each write to the tables is.
-/

import TecnicoFS.FileSystem.Represents

set_option autoImplicit false

namespace TecnicoFS.FileSystem

variable {state : State} {slack : Slack} {model : Model Nat}

/-! ### The data area -/

theorem Invariant.owned_address (inv : Invariant state slack) {inode : Nat}
    (notDirectory : (state.inodeTable inode).iNodeType ≠ .tDirectory)
    (owns : state.OwnsBlock inode (state.inodeTable inode).iDataBlock) :
    ∃ block : Nat, block ≠ 0 ∧ state.BlockTaken block ∧ state.OwnsBlock inode (block : Int) ∧
      state.blockAddress inode = block * state.blockSize := by
  have nonzero : inode ≠ 0 := by
    intro zero
    subst zero
    exact notDirectory inv.root.isDirectory
  obtain ⟨block, same, blockNonzero, taken⟩ := inv.blocks.owned inode _ owns nonzero
  rw [same] at owns
  refine ⟨block, blockNonzero, taken, owns, ?_⟩
  unfold State.blockAddress
  rw [same, Int.toNat_natCast]

/-- A new memory that keeps the block of an inode keeps the inode. -/
theorem Invariant.sameInode_memory (inv : Invariant state slack) {memory : ByteMemory}
    {inode : Nat}
    (kept : ∀ block : Nat, block ≠ 0 → state.OwnsBlock inode (block : Int) → ∀ offset,
      offset < state.blockSize →
        memory (block * state.blockSize + offset) =
          state.fsData (block * state.blockSize + offset)) :
    state.SameInode { state with fsData := memory } inode where
  taken := Iff.rfl
  kind := fun _ => rfl
  size := fun _ => rfl
  block := fun _ => rfl
  bytes := by
    intro notDirectory owns offset inside
    obtain ⟨block, nonzero, _, owns', address⟩ := inv.owned_address notDirectory owns
    rw [address]
    exact kept block nonzero owns' offset inside

/-- Two blocks do not overlap. -/
theorem blocks_apart {left right size first second : Nat} (different : left ≠ right)
    (firstInside : first < size) (secondInside : second < size) :
    left * size + first ≠ right * size + second := by
  intro equal
  rcases Nat.lt_or_gt_of_ne different with below | above
  · have next := Nat.mul_le_mul_right size (Nat.succ_le_of_lt below)
    rw [Nat.succ_mul] at next
    omega
  · have next := Nat.mul_le_mul_right size (Nat.succ_le_of_lt above)
    rw [Nat.succ_mul] at next
    omega

theorem State.SameEntries.sameNames {memory : ByteMemory}
    (same : state.SameEntries { state with fsData := memory }) :
    state.SameNames { state with fsData := memory } := by
  intro name inode
  constructor
  · rintro ⟨short, slot, live, named, holds⟩
    have inside := live.1
    exact ⟨short, slot, (same.live slot).mp live, ((same slot inside).2 name short).mp named,
      (same slot inside).1.symm.trans holds⟩
  · rintro ⟨short, slot, live, named, holds⟩
    have inside := live.1
    exact ⟨short, slot, (same.live slot).mpr live, ((same slot inside).2 name short).mpr named,
      (same slot inside).1.trans holds⟩

/-- A store into one block keeps the bytes of the others. -/
theorem ByteMemory.writeBytes_otherBlock (memory : ByteMemory)
    {written block size start offset : Nat} {bytes : List UInt8} (different : block ≠ written)
    (fits : start + bytes.length ≤ size) (inside : offset < size) :
    memory.writeBytes (written * size + start) bytes (block * size + offset) =
      memory (block * size + offset) := by
  apply ByteMemory.writeBytes_outside
  by_contra overlaps
  rw [not_or, Nat.not_lt, Nat.not_le] at overlaps
  exact @blocks_apart _ _ size offset (block * size + offset - written * size) different inside
    (by omega) (by omega)

theorem Invariant.sameInode_store (inv : Invariant state slack) {written start : Nat}
    {bytes : List UInt8} {inode : Nat} (unowned : ¬ state.OwnsBlock inode (written : Int))
    (fits : start + bytes.length ≤ state.blockSize) :
    state.SameInode (state.store (written * state.blockSize + start) bytes) inode := by
  apply inv.sameInode_memory
  intro block _ owns offset inside
  have different : block ≠ written := by
    intro same
    subst same
    exact unowned owns
  exact ByteMemory.writeBytes_otherBlock state.fsData different fits inside

/-! ### Directory slots -/

theorem State.slot_inside {slot : Nat} (inside : slot < state.maxDirEntries) :
    dirEntrySize * slot + dirEntrySize ≤ state.blockSize := by
  have whole : dirEntrySize * (slot + 1) ≤ dirEntrySize * state.maxDirEntries :=
    Nat.mul_le_mul_left _ inside
  have entries : dirEntrySize * state.maxDirEntries ≤ state.blockSize := Nat.mul_div_le _ _
  rw [Nat.mul_add, Nat.mul_one] at whole
  omega

private theorem past_root {block offset : Nat} (nonzero : block ≠ 0) :
    state.blockSize ≤ block * state.blockSize + offset :=
  Nat.le_trans (Nat.le_mul_of_pos_left _ (Nat.pos_of_ne_zero nonzero)) (Nat.le_add_right _ _)

/-- Filling a slot writes nothing but the slot. -/
theorem State.bindEntry_outside {slot position : Nat} {name : CString} {inumber : Int}
    (short : validSubName name)
    (outside : position < dirEntrySize * slot ∨ dirEntrySize * slot + dirEntrySize ≤ position) :
    (state.bindEntry slot name inumber).fsData position = state.fsData position := by
  have nameLength := dNameBytes_length name short
  refine (ByteMemory.writeBytes_outside _ _ _ _ ?_).trans
    (ByteMemory.writeBytes_outside _ _ _ _ ?_)
  · rw [nameLength]
    unfold dNameAddress dirEntrySize maxFileName at *
    omega
  · rw [ByteMemory.encodeInt32_length]
    unfold dirEntrySize maxFileName at *
    omega

theorem State.bindEntry_past {slot position : Nat} {name : CString} {inumber : Int}
    (short : validSubName name) (inside : slot < state.maxDirEntries)
    (past : state.blockSize ≤ position) :
    (state.bindEntry slot name inumber).fsData position = state.fsData position :=
  State.bindEntry_outside short (Or.inr (Nat.le_trans (State.slot_inside inside) past))

theorem State.scrubEntry_past {slot position : Nat} (inside : slot < state.maxDirEntries)
    (past : state.blockSize ≤ position) :
    (state.scrubEntry slot).fsData position = state.fsData position := by
  have before := State.slot_inside inside
  refine (ByteMemory.writeBytes_outside _ _ _ _ (Or.inr ?_)).trans
    (ByteMemory.writeBytes_outside _ _ _ _ (Or.inr ?_))
  · rw [List.length_replicate]
    unfold dNameAddress dirEntrySize maxFileName at *
    omega
  · rw [ByteMemory.encodeInt32_length]
    unfold dirEntrySize maxFileName at *
    omega

/-- A new memory that differs in the root's block only keeps every inode. -/
theorem Invariant.sameInode_root (inv : Invariant state slack) {memory : ByteMemory}
    (kept : ∀ position, state.blockSize ≤ position → memory position = state.fsData position)
    (inode : Nat) : state.SameInode { state with fsData := memory } inode :=
  inv.sameInode_memory (fun _ nonzero _ _ _ => kept _ (past_root nonzero))

theorem State.bindEntry_binds {slot inode : Nat} {name : CString} (short : validSubName name)
    (fits : inode < 2 ^ 31) (dead : state.FirstDead slot) (unbound : state.Unbound name)
    (other : CString) (held : Nat) :
    (state.bindEntry slot name inode).Binds other held ↔
      if other = name then held = inode else state.Binds other held := by
  have inumber (place : Nat) := State.bindEntry_entryInumber state slot place name inode short
    (by omega) (by omega)
  have live (place : Nat) := @State.bindEntry_live state _ place _ _ short fits dead.1
  by_cases same : other = name
  · subst other
    rw [if_pos rfl]
    constructor
    · rintro ⟨_, place, isLive, named, holds⟩
      rw [State.bindEntry_entryNamed state slot place name name inode short short] at named
      rw [inumber] at holds
      by_cases atSlot : place = slot
      · rw [if_pos atSlot] at holds
        omega
      · rw [if_neg atSlot] at named
        exact (unbound place (((live place).mp isLive).resolve_left atSlot) named).elim
    · rintro rfl
      refine ⟨short, slot, (live slot).mpr (Or.inl rfl), ?_, ?_⟩
      · rw [State.bindEntry_entryNamed state slot slot name name held short short, if_pos rfl]
      · rw [inumber, if_pos rfl]
  · rw [if_neg same]
    constructor
    · rintro ⟨valid, place, isLive, named, holds⟩
      rw [State.bindEntry_entryNamed state slot place name other inode short valid] at named
      rw [inumber] at holds
      by_cases atSlot : place = slot
      · rw [if_pos atSlot] at named
        exact (same named).elim
      · rw [if_neg atSlot] at named holds
        exact ⟨valid, place, ((live place).mp isLive).resolve_left atSlot, named, holds⟩
    · rintro ⟨valid, place, isLive, named, holds⟩
      have notSlot : place ≠ slot := by
        intro atSlot
        subst place
        exact isLive.2 dead.2.1
      refine ⟨valid, place, (live place).mpr (Or.inr isLive), ?_, ?_⟩
      · rw [State.bindEntry_entryNamed state slot place name other inode short valid,
          if_neg notSlot]
        exact named
      · rw [inumber, if_neg notSlot]
        exact holds

theorem State.scrubEntry_binds {slot : Nat} {name : CString} (ok : DirectoryOk state)
    (short : validSubName name) (live : state.EntryLive slot) (named : state.EntryNamed slot name)
    (other : CString) (held : Nat) :
    (state.scrubEntry slot).Binds other held ↔ other ≠ name ∧ state.Binds other held := by
  constructor
  · rintro ⟨valid, place, isLive, isNamed, holds⟩
    rw [State.scrubEntry_live] at isLive
    rw [State.scrubEntry_entryNamed state slot place other valid] at isNamed
    rw [State.scrubEntry_entryInumber, if_neg isLive.1] at holds
    refine ⟨?_, valid, place, isLive.2, isNamed.2, holds⟩
    rintro rfl
    exact isLive.1 (ok.distinct place slot other isLive.2 live short isNamed.2 named)
  · rintro ⟨different, valid, place, isLive, isNamed, holds⟩
    have notSlot : place ≠ slot := by
      intro atSlot
      subst place
      exact different (isNamed.unique named)
    refine ⟨valid, place, State.scrubEntry_live.mpr ⟨notSlot, isLive⟩, ?_, ?_⟩
    · exact (State.scrubEntry_entryNamed state slot place other valid).mpr ⟨notSlot, isNamed⟩
    · rw [State.scrubEntry_entryInumber, if_neg notSlot]
      exact holds

theorem State.scrubEntry_sameNames {slot : Nat} (dead : state.entryInumber slot = -1) :
    state.SameNames (state.scrubEntry slot) := by
  intro name inode
  constructor
  · rintro ⟨valid, place, isLive, isNamed, holds⟩
    rw [State.scrubEntry_live] at isLive
    rw [State.scrubEntry_entryNamed state slot place name valid] at isNamed
    rw [State.scrubEntry_entryInumber, if_neg isLive.1] at holds
    exact ⟨valid, place, isLive.2, isNamed.2, holds⟩
  · rintro ⟨valid, place, isLive, isNamed, holds⟩
    have notSlot : place ≠ slot := by
      intro atSlot
      subst place
      exact isLive.2 dead
    refine ⟨valid, place, State.scrubEntry_live.mpr ⟨notSlot, isLive⟩, ?_, ?_⟩
    · exact (State.scrubEntry_entryNamed state slot place name valid).mpr ⟨notSlot, isNamed⟩
    · rw [State.scrubEntry_entryInumber, if_neg notSlot]
      exact holds

theorem State.scrub_bind_past {slot position : Nat} {name : CString} {inumber : Int}
    (short : validSubName name) (inside : slot < state.maxDirEntries)
    (past : state.blockSize ≤ position) :
    ((state.bindEntry slot name inumber).scrubEntry slot).fsData position =
      state.fsData position :=
  (@State.scrubEntry_past (state.bindEntry slot name inumber) _ _ inside past).trans
    (State.bindEntry_past short inside past)

theorem State.scrub_bind_sameNames {slot inode : Nat} {name : CString} (short : validSubName name)
    (fits : inode < 2 ^ 31) (dead : state.entryInumber slot = -1) :
    state.SameNames ((state.bindEntry slot name inode).scrubEntry slot) := by
  intro query held
  have same := @State.SameEntries.sameNames (state.scrubEntry slot)
    ((state.bindEntry slot name inode).scrubEntry slot).fsData
    (State.sameEntries_scrub_bind short fits)
  exact (same query held).trans (State.scrubEntry_sameNames dead query held)

/-- An entry made and cleared again leaves no trace. -/
theorem Represents.scrub_bind (represents : Represents state model)
    (inv : Invariant state slack) {slot inode : Nat} {name : CString}
    (short : validSubName name) (fits : inode < 2 ^ 31) (dead : state.FirstDead slot) :
    Represents ((state.bindEntry slot name inode).scrubEntry slot) model :=
  @Represents.unchanged _ _ ((state.bindEntry slot name inode).scrubEntry slot) represents
    inv.inodes ⟨rfl, rfl⟩
    (inv.sameInode_root (fun _ past => State.scrub_bind_past short dead.1 past))
    (State.scrub_bind_sameNames short fits dead.2.1) (fun _ _ _ => Iff.rfl)

theorem Represents.bindEntry (represents : Represents state model)
    (inv : Invariant state slack) {slot inode : Nat} {name : CString}
    (short : validSubName name) (fits : inode < 2 ^ 31) (dead : state.FirstDead slot)
    (unbound : state.Unbound name) :
    Represents (state.bindEntry slot name inode) (model.bind name inode) :=
  @Represents.bind _ _ (state.bindEntry slot name inode) represents inv.inodes ⟨rfl, rfl⟩
    (inv.sameInode_root (fun _ => State.bindEntry_past short dead.1)) (fun _ _ _ => Iff.rfl) _ _
    (State.bindEntry_binds short fits dead unbound)

theorem Represents.scrubEntry (represents : Represents state model)
    (inv : Invariant state slack) {slot : Nat} {name : CString}
    (short : validSubName name) (live : state.EntryLive slot)
    (named : state.EntryNamed slot name) :
    Represents (state.scrubEntry slot) (model.unbind name) :=
  @Represents.unbind _ _ (state.scrubEntry slot) represents inv.inodes ⟨rfl, rfl⟩
    (inv.sameInode_root (fun _ => State.scrubEntry_past live.1)) (fun _ _ _ => Iff.rfl) _
    (State.scrubEntry_binds inv.directory short live named)

/-! ### Inodes -/

theorem Represents.setFreeBlock (represents : Represents state model) (block : Nat)
    (mark : AllocationState) : Represents (state.setFreeBlock block mark) model :=
  { represents with }

theorem State.sameInode_setInode {slot other : Nat} (inode : Inode) (different : other ≠ slot) :
    state.SameInode (state.setInode slot inode) other := by
  have unchanged := @State.setInode_apply_of_ne state _ _ inode different
  refine ⟨Iff.rfl, ?_, ?_, ?_, fun _ _ _ _ => rfl⟩
  · intro _
    rw [unchanged]
  · intro _
    rw [unchanged]
  · intro _
    rw [unchanged]

/-- The link count is no part of the abstract file. -/
theorem Represents.setLinks (represents : Represents state model) (inodes : InodesOk state)
    (slot links : Nat) : Represents (state.setLinks slot links) model := by
  apply @Represents.unchanged _ _ (state.setLinks slot links) represents inodes ⟨rfl, rfl⟩ _
    (fun _ _ => Iff.rfl) (fun _ _ _ => Iff.rfl)
  intro inode
  by_cases same : inode = slot
  · subst inode
    refine ⟨Iff.rfl, ?_, ?_, ?_, fun _ _ _ _ => rfl⟩
    · intro _
      rw [State.setLinks_apply, if_pos rfl]
    · intro _
      rw [State.setLinks_apply, if_pos rfl]
    · intro _
      rw [State.setLinks_apply, if_pos rfl]
  · exact State.sameInode_setInode _ same

theorem Represents.setInode_of_free (represents : Represents state model)
    (inodes : InodesOk state) {slot : Nat} {inode : Inode} (unused : ¬ state.InodeTaken slot) :
    Represents (state.setInode slot inode) model := by
  apply @Represents.unchanged _ _ (state.setInode slot inode) represents inodes ⟨rfl, rfl⟩ _
    (fun _ _ => Iff.rfl) (fun _ _ _ => Iff.rfl)
  intro other
  by_cases same : other = slot
  · subst other
    exact ⟨Iff.rfl, fun taken => (unused taken).elim, fun taken => (unused taken).elim,
      fun taken => (unused taken).elim, fun _ owns => (unused owns.1).elim⟩
  · exact State.sameInode_setInode inode same

theorem State.sameInode_takeInode {slot other : Nat} (inode : Inode)
    (inside : slot < state.inodeTableSize) (different : other ≠ slot) :
    state.SameInode (state.takeInode slot inode) other := by
  have kept := @State.sameInode_setInode state _ _ inode different
  refine ⟨?_, kept.kind, kept.size, kept.block, kept.bytes⟩
  rw [State.takeInode_taken inside, or_iff_right different]

theorem Represents.takeFile (represents : Represents state model) (inodes : InodesOk state)
    {slot : Nat} (inside : slot < state.inodeTableSize) (unused : ¬ state.InodeTaken slot) :
    Represents (state.takeInode slot (newInode .tFile)) (model.setFile slot []) := by
  have atSlot : (state.takeInode slot (newInode .tFile)).inodeTable slot = newInode .tFile :=
    State.setInode_apply_self _ _
  refine @Represents.setFile _ _ (state.takeInode slot (newInode .tFile)) represents inodes
    ⟨rfl, rfl⟩ _ _ (fun _ different => State.sameInode_takeInode _ inside different) ⟨?_, ?_, ?_⟩
    (fun taken => (unused taken).elim) (fun _ _ => Iff.rfl) (fun _ _ _ => Iff.rfl)
  · exact (State.takeInode_taken inside).mpr (Or.inl rfl)
  · rw [atSlot]
    rfl
  · unfold State.contents
    rw [atSlot]
    rfl

theorem Represents.takeLink (represents : Represents state model) (inodes : InodesOk state)
    {slot block : Nat} {target : CString} (inside : slot < state.inodeTableSize)
    (unused : ¬ state.InodeTaken slot) (short : target.strlen < state.blockSize)
    (fits : block * state.blockSize + target.strlen < state.dataBytes)
    (stored : state.fsData.readBytes (block * state.blockSize) (target.strlen + 1) =
      target.bytes ++ [0]) :
    Represents (state.takeInode slot { newInode .tSymLink with iDataBlock := block })
      (model.setLink slot target) := by
  have atSlot : (state.takeInode slot { newInode .tSymLink with
      iDataBlock := block }).inodeTable slot = { newInode .tSymLink with iDataBlock := block } :=
    State.setInode_apply_self _ _
  have address : (state.takeInode slot { newInode .tSymLink with
      iDataBlock := block }).blockAddress slot = block * state.blockSize := by
    unfold State.blockAddress
    rw [atSlot]
    rfl
  refine @Represents.setLink _ _
    (state.takeInode slot { newInode .tSymLink with iDataBlock := block }) represents inodes
    ⟨rfl, rfl⟩ _ _ (fun _ different => State.sameInode_takeInode _ inside different)
    ⟨?_, ?_, short, ?_, ?_⟩ unused (fun _ _ => Iff.rfl) (fun _ _ _ => Iff.rfl)
  · exact (State.takeInode_taken inside).mpr (Or.inl rfl)
  · rw [atSlot]
    rfl
  · rw [address]
    exact fits
  · rw [address]
    exact stored

theorem Represents.deleteInode (represents : Represents state model) (inodes : InodesOk state)
    (slot : Nat) : Represents (state.deleteInode slot) (model.remove slot) := by
  have released : Represents (state.releaseBlock slot) model ∧ InodesOk (state.releaseBlock slot) := by
    unfold State.releaseBlock
    split
    · exact ⟨represents.setFreeBlock _ _, { inodes with }⟩
    · exact ⟨represents, inodes⟩
  unfold State.deleteInode
  generalize { state.inodeTable slot with iSize := 0, iDataBlock := -1, iHardLinks := 1 } = last
  refine @Represents.remove _ _ ((state.releaseBlock slot).dropInode slot last) released.1
    released.2 ⟨rfl, rfl⟩ _ ?_ ?_ (fun _ _ => Iff.rfl) (fun _ _ _ => Iff.rfl)
  · intro other different
    have kept := @State.sameInode_setInode (state.releaseBlock slot) _ _ last different
    refine ⟨?_, kept.kind, kept.size, kept.block, kept.bytes⟩
    rw [State.dropInode_taken, and_iff_right different]
  · rw [State.dropInode_taken]
    exact fun taken => taken.1 rfl

/-! ### Contents -/

theorem Model.setFile_same {inode : Nat} {contents : List UInt8}
    (holds : model.files inode = some contents) : model.setFile inode contents = model := by
  unfold Model.setFile
  rw [← holds, Function.update_eq_self]

theorem Represents.truncated (represents : Represents state model) (inodes : InodesOk state)
    {inode : Nat} {contents : List UInt8} (holds : model.files inode = some contents)
    (mode : TfsFileMode) :
    Represents (state.truncated inode mode)
      (model.setFile inode (if mode.tfsOTrunc = true then [] else contents)) := by
  obtain ⟨taken, isFile, sameContents⟩ := (represents.files inode contents).mp holds
  unfold State.truncated
  by_cases truncates : mode.tfsOTrunc = true ∧ 0 < (state.inodeTable inode).iSize
  · rw [if_pos truncates, if_pos truncates.1]
    have released : Represents (state.releaseBlock inode) model ∧
        InodesOk (state.releaseBlock inode) ∧
        (state.releaseBlock inode).inodeTable = state.inodeTable ∧
        (state.releaseBlock inode).InodeTaken inode := by
      unfold State.releaseBlock
      rw [if_pos truncates.2]
      exact ⟨represents.setFreeBlock _ _, { inodes with }, rfl, taken⟩
    obtain ⟨releasedRepresents, releasedInodes, sameTable, releasedTaken⟩ := released
    refine @Represents.setFile _ _
      ((state.releaseBlock inode).resizeFile inode 0 (state.inodeTable inode).iDataBlock)
      releasedRepresents releasedInodes ⟨rfl, rfl⟩ _ _
      (fun _ different => State.sameInode_setInode _ different) ⟨releasedTaken, ?_, ?_⟩ ?_
      (fun _ _ => Iff.rfl) (fun _ _ _ => Iff.rfl)
    · rw [State.resizeFile, State.setInode_apply_self, sameTable]
      exact isFile
    · unfold State.contents
      rw [State.resizeFile, State.setInode_apply_self]
      rfl
    · intro _
      rw [sameTable, isFile]
      decide
  · rw [if_neg truncates]
    by_cases trunc : mode.tfsOTrunc = true
    · have empty : (state.inodeTable inode).iSize = 0 := by
        by_contra nonzero
        exact truncates ⟨trunc, Nat.pos_of_ne_zero nonzero⟩
      have none : contents = [] := by
        rw [← sameContents, State.contents, empty]
        rfl
      rw [if_pos trunc, Model.setFile_same (by rw [holds, none])]
      exact represents
    · rw [if_neg trunc, Model.setFile_same holds]
      exact represents

/-- The bytes a write puts into its file -/
theorem State.contents_written {handle inode block offset : Nat} {bytes : List UInt8}
    (inside : offset ≤ (state.inodeTable inode).iSize)
    (own : (state.inodeTable inode).iSize = 0 ∨
      (state.inodeTable inode).iDataBlock = (block : Int)) :
    (state.written handle inode block offset bytes).contents inode =
      overwrite (state.contents inode) offset bytes := by
  have before : state.contents inode =
      state.fsData.readBytes (block * state.blockSize) (state.inodeTable inode).iSize := by
    unfold State.contents
    rcases own with empty | same
    · rw [empty]
      rfl
    · rw [State.blockAddress, same, Int.toNat_natCast]
  have atInode : (state.written handle inode block offset bytes).inodeTable inode =
      { state.inodeTable inode with
        iSize := max (state.inodeTable inode).iSize (offset + bytes.length)
        iDataBlock := block } := State.setInode_apply_self _ _
  unfold overwrite
  rw [before, ← ByteMemory.readBytes_writeBytes_splice _ _ _ _ _ inside]
  unfold State.contents State.blockAddress
  rw [atInode]
  rfl

theorem Represents.written (represents : Represents state model) (inv : Invariant state none)
    {handle inode block offset : Nat} {contents bytes : List UInt8}
    (opened : state.HandleTaken handle)
    (refers : (state.openFileTable handle).ofInumber = (inode : Int))
    (holds : model.files inode = some contents)
    (inside : offset ≤ (state.inodeTable inode).iSize)
    (own : (state.inodeTable inode).iSize = 0 ∨
      (state.inodeTable inode).iDataBlock = (block : Int))
    (only : ∀ owner, state.OwnsBlock owner (block : Int) → owner = inode)
    (nonzero : block ≠ 0) (fits : offset + bytes.length ≤ state.blockSize) :
    Represents (state.written handle inode block offset bytes)
      ((model.setFile inode (overwrite contents offset bytes)).setHandle handle inode
        (offset + bytes.length)) := by
  obtain ⟨taken, isFile, sameContents⟩ := (represents.files inode contents).mp holds
  unfold State.written
  refine Represents.setOffset ?_ opened refers
  refine @Represents.setFile _ _
    ((state.store (block * state.blockSize + offset) bytes).resizeFile inode (max (state.inodeTable
      inode).iSize (offset + bytes.length)) block)
    represents inv.inodes ⟨rfl, rfl⟩ _ _ ?_ ⟨taken, ?_, ?_⟩ ?_ ?_ (fun _ _ _ => Iff.rfl)
  · intro other different
    have kept := @State.sameInode_setInode state _ _ { state.inodeTable inode with
      iSize := max (state.inodeTable inode).iSize (offset + bytes.length)
      iDataBlock := block } different
    have stored := @Invariant.sameInode_store _ _ inv block offset bytes other
      (fun owns => different (only other owns)) fits
    exact ⟨kept.taken, kept.kind, kept.size, kept.block, stored.bytes⟩
  · rw [State.resizeFile, State.setInode_apply_self]
    exact isFile
  · rw [← sameContents]
    exact @State.contents_written _ handle _ _ _ _ inside own
  · intro _
    rw [isFile]
    decide
  · have past := state.dirEnd_le_blockAddress nonzero
    exact (@State.sameEntries_store _ _ bytes
      (Nat.le_trans past (Nat.le_add_right _ offset))).sameNames

end TecnicoFS.FileSystem
