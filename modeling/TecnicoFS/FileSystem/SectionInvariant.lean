/-
What every section keeps: the directory, the blocks and the inodes a thread may hold.

The links of an inode are not looked at here; only the allocation of inodes, the name
fields and the data area are.
-/

import TecnicoFS.FileSystem.SectionEffects

set_option autoImplicit false

namespace TecnicoFS.FileSystem

open TableSearch

variable {state : State}

/-! ### Single writes -/

theorem NodeOk.setInode {slot other : Nat} {inode : Inode}
    (notDirectory : inode.iNodeType ≠ .tDirectory)
    (backed : 0 < inode.iSize → ∃ block : Nat, inode.iDataBlock = (block : Int) ∧ block ≠ 0 ∧
      block < state.dataBlocks) (node : NodeOk state other) :
    NodeOk (state.setInode slot inode) other := by
  by_cases same : other = slot
  · subst other
    have atSlot := @State.setInode_apply_self state slot inode
    exact
      { nonRoot := node.nonRoot
        inside := node.inside
        notDirectory := by rw [atSlot]; exact notDirectory
        backed := by rw [atSlot]; exact backed }
  · have unchanged := @State.setInode_apply_of_ne state slot other inode same
    exact
      { nonRoot := node.nonRoot
        inside := node.inside
        notDirectory := by rw [unchanged]; exact node.notDirectory
        backed := by rw [unchanged]; exact node.backed }

theorem StoreOk.setInode {slot : Nat} {inode : Inode} (ok : StoreOk state) (nonRoot : slot ≠ 0)
    (notDirectory : inode.iNodeType ≠ .tDirectory)
    (backed : 0 < inode.iSize → ∃ block : Nat, inode.iDataBlock = (block : Int) ∧ block ≠ 0 ∧
      block < state.dataBlocks) : StoreOk (state.setInode slot inode) := by
  have rootSame := @State.setInode_apply_of_ne state slot 0 inode (Ne.symm nonRoot)
  exact
    { geometry := { ok.geometry with }
      root :=
        { ok.root with
          isDirectory := by rw [rootSame]; exact ok.root.isDirectory
          inFirstBlock := by rw [rootSame]; exact ok.root.inFirstBlock }
      directory := { ok.directory with }
      nodes := fun other taken nonzero =>
        (ok.nodes other taken nonzero).setInode notDirectory backed
      fits := ok.fits
      blocks := ok.blocks
      handles := by
        intro handle taken
        obtain ⟨held, refers, node⟩ := ok.handles handle taken
        exact ⟨held, refers, node.setInode notDirectory backed⟩ }

theorem State.setFreeinode_taken {slot other : Nat} {mark : AllocationState} :
    (state.setFreeinode slot mark).InodeTaken other ↔ other < state.inodeTableSize ∧
      if other = slot then mark = .taken else state.freeinodeTs other = .taken := by
  change (other < state.inodeTableSize ∧
    Function.update state.freeinodeTs slot mark other = .taken) ↔ _
  rw [Function.update_apply]
  split <;> exact Iff.rfl

theorem StoreOk.setFreeinode {slot : Nat} {mark : AllocationState} (ok : StoreOk state)
    (node : NodeOk state slot) (fits : mark = .taken → slot < 2 ^ 31) :
    StoreOk (state.setFreeinode slot mark) where
  geometry := { ok.geometry with }
  root :=
    { ok.root with
      inodeTaken := by
        rw [State.setFreeinode_taken, if_neg (Ne.symm node.nonRoot)]
        exact ok.root.inodeTaken }
  directory := { ok.directory with }
  nodes other taken nonzero := by
    rw [State.setFreeinode_taken] at taken
    by_cases same : other = slot
    · subst other
      exact { node with }
    · rw [if_neg same] at taken
      exact { ok.nodes other taken nonzero with }
  fits other taken := by
    rw [State.setFreeinode_taken] at taken
    by_cases same : other = slot
    · rw [if_pos same] at taken
      exact same ▸ fits taken.2
    · rw [if_neg same] at taken
      exact ok.fits other taken
  blocks := ok.blocks
  handles := by
    intro handle taken
    obtain ⟨held, refers, heldNode⟩ := ok.handles handle taken
    exact ⟨held, refers, { heldNode with }⟩

theorem State.setFreeBlock_taken {slot other : Nat} {mark : AllocationState} :
    (state.setFreeBlock slot mark).BlockTaken other ↔ other < state.dataBlocks ∧
      if other = slot then mark = .taken else state.freeBlocks other = .taken := by
  change (other < state.dataBlocks ∧
    Function.update state.freeBlocks slot mark other = .taken) ↔ _
  rw [Function.update_apply]
  split <;> exact Iff.rfl

theorem StoreOk.setFreeBlock {slot : Nat} {mark : AllocationState} (ok : StoreOk state)
    (nonzero : slot ≠ 0)
    (inside : mark = .taken → slot * state.blockSize < state.dataBytes) :
    StoreOk (state.setFreeBlock slot mark) where
  geometry := { ok.geometry with }
  root :=
    { ok.root with
      blockTaken := by
        rw [State.setFreeBlock_taken, if_neg (Ne.symm nonzero)]
        exact ok.root.blockTaken }
  directory := { ok.directory with }
  nodes other taken otherNonzero := { ok.nodes other taken otherNonzero with }
  fits := ok.fits
  blocks other taken otherNonzero := by
    rw [State.setFreeBlock_taken] at taken
    by_cases same : other = slot
    · rw [if_pos same] at taken
      exact same ▸ inside taken.2
    · rw [if_neg same] at taken
      exact ok.blocks other taken otherNonzero
  handles := by
    intro handle taken
    obtain ⟨held, refers, heldNode⟩ := ok.handles handle taken
    exact ⟨held, refers, { heldNode with }⟩

/-- A directory change leaves everything else alone. -/
theorem StoreOk.ofDirectory {memory : ByteMemory} (ok : StoreOk state)
    (directory : DirectoryOk { state with fsData := memory }) :
    StoreOk { state with fsData := memory } where
  geometry := { ok.geometry with }
  root := { ok.root with }
  directory := directory
  nodes other taken nonzero := { ok.nodes other taken nonzero with }
  fits := ok.fits
  blocks := ok.blocks
  handles := by
    intro handle taken
    obtain ⟨held, refers, node⟩ := ok.handles handle taken
    exact ⟨held, refers, { node with }⟩

theorem StoreOk.openHandle {handle inode offset : Nat} (ok : StoreOk state)
    (inside : handle < state.maxOpenFiles) (node : NodeOk state inode) :
    StoreOk (state.openHandle handle { ofInumber := inode, ofOffset := offset }) where
  geometry := { ok.geometry with }
  root := { ok.root with }
  directory := { ok.directory with }
  nodes other taken nonzero := { ok.nodes other taken nonzero with }
  fits := ok.fits
  blocks := ok.blocks
  handles := by
    intro other taken
    rw [State.openHandle_apply]
    by_cases same : other = handle
    · rw [if_pos same]
      exact ⟨inode, rfl, { node with }⟩
    · rw [if_neg same]
      obtain ⟨held, refers, heldNode⟩ :=
        ok.handles other (((State.openHandle_taken inside).mp taken).resolve_left same)
      exact ⟨held, refers, { heldNode with }⟩

theorem StoreOk.closeHandle {handle : Nat} (ok : StoreOk state) :
    StoreOk (state.closeHandle handle) where
  geometry := { ok.geometry with }
  root := { ok.root with }
  directory := { ok.directory with }
  nodes other taken nonzero := { ok.nodes other taken nonzero with }
  fits := ok.fits
  blocks := ok.blocks
  handles := by
    intro other taken
    obtain ⟨held, refers, heldNode⟩ := ok.handles other (State.closeHandle_taken.mp taken).2
    exact ⟨held, refers, { heldNode with }⟩

/-! ### Effects of sections -/

/-- The state after a section, as far as every thread relies on it -/
structure Kept (before after : State) : Prop where
  store : StoreOk after
  nodes : ∀ inode, NodeOk before inode → NodeOk after inode

theorem Kept.trans {first second third : State} (left : Kept first second)
    (right : Kept second third) : Kept first third where
  store := right.store
  nodes inode node := right.nodes inode (left.nodes inode node)

theorem Kept.setInode {slot : Nat} {inode : Inode} (ok : StoreOk state) (nonRoot : slot ≠ 0)
    (notDirectory : inode.iNodeType ≠ .tDirectory)
    (backed : 0 < inode.iSize → ∃ block : Nat, inode.iDataBlock = (block : Int) ∧ block ≠ 0 ∧
      block < state.dataBlocks) : Kept state (state.setInode slot inode) :=
  ⟨ok.setInode nonRoot notDirectory backed, fun _ node => node.setInode notDirectory backed⟩

theorem Kept.releaseBlock {slot : Nat} (ok : StoreOk state) (node : NodeOk state slot) :
    Kept state (state.releaseBlock slot) := by
  unfold State.releaseBlock
  split
  · rename_i nonempty
    obtain ⟨block, same, nonzero, _⟩ := node.backed nonempty
    rw [same, Int.toNat_natCast]
    exact ⟨ok.setFreeBlock nonzero (fun impossible => by cases impossible),
      fun _ other => { other with }⟩
  · exact ⟨ok, fun _ other => other⟩

theorem State.releaseBlock_inodeTable (slot : Nat) :
    (state.releaseBlock slot).inodeTable = state.inodeTable := by
  unfold State.releaseBlock
  split <;> rfl

theorem Kept.truncated {inode : Nat} (ok : StoreOk state) (node : NodeOk state inode)
    (mode : TfsFileMode) : Kept state (state.truncated inode mode) := by
  unfold State.truncated
  split
  · have released := Kept.releaseBlock ok node
    refine released.trans (.setInode released.store node.nonRoot ?_ ?_)
    · rw [State.releaseBlock_inodeTable]
      exact node.notDirectory
    · intro nonempty
      exact (Nat.lt_irrefl 0 nonempty).elim
  · exact ⟨ok, fun _ other => other⟩

theorem StoreOk.free_nonRoot (ok : StoreOk state) {inode : Nat}
    (first : state.FirstFreeInode inode) : inode ≠ 0 := by
  intro zero
  subst inode
  have free := first.2.2.1
  rw [ok.root.inodeTaken.2] at free
  cases free

theorem newInode_nodeOk {iType : InodeType} (notDirectory : iType ≠ .tDirectory) {inode : Nat}
    (nonRoot : inode ≠ 0) (inside : inode < state.inodeTableSize) :
    NodeOk (state.takeInode inode (newInode iType)) inode := by
  have atInode : (state.takeInode inode (newInode iType)).inodeTable inode = newInode iType :=
    Function.update_self _ _ _
  refine ⟨nonRoot, inside, ?_, ?_⟩
  · rw [atInode]
    exact notDirectory
  · rw [atInode]
    intro nonempty
    exact (Nat.lt_irrefl 0 nonempty).elim

theorem Kept.takeInode {inode : Nat} (ok : StoreOk state) (first : state.FirstFreeInode inode)
    {iType : InodeType} (notDirectory : iType ≠ .tDirectory) :
    Kept state (state.takeInode inode (newInode iType)) := by
  have nonRoot := ok.free_nonRoot first
  have fresh := @newInode_nodeOk state _ notDirectory _ nonRoot first.2.1
  have set := @Kept.setInode state inode (newInode iType) ok nonRoot notDirectory
    (fun nonempty => (Nat.lt_irrefl 0 nonempty).elim)
  exact ⟨set.store.setFreeinode { fresh with } (fun _ => first.1),
    fun other node => { set.nodes other node with }⟩

theorem Kept.deleteInode {inode : Nat} (ok : StoreOk state) (node : NodeOk state inode) :
    Kept state (state.deleteInode inode) := by
  have released := Kept.releaseBlock ok node
  have set := @Kept.setInode (state.releaseBlock inode) inode
    { state.inodeTable inode with iSize := 0, iDataBlock := -1, iHardLinks := 1 } released.store
    node.nonRoot node.notDirectory (fun nonempty => (Nat.lt_irrefl 0 nonempty).elim)
  have both := released.trans set
  exact ⟨both.store.setFreeinode (both.nodes inode node) (fun impossible => by cases impossible),
    fun other otherNode => { both.nodes other otherNode with }⟩

theorem Kept.setLinks {inode links : Nat} (ok : StoreOk state) (node : NodeOk state inode) :
    Kept state (state.setLinks inode links) :=
  .setInode ok node.nonRoot node.notDirectory node.backed

/-- Blocks are taken in order, so the address of the next one has not wrapped. -/
theorem StoreOk.freeBlock_address (ok : StoreOk state) {block : Nat}
    (first : state.FirstFreeBlock block) :
    block ≠ 0 ∧ block * state.blockSize % 2 ^ 64 = block * state.blockSize := by
  have nonzero : block ≠ 0 := by
    intro zero
    subst block
    have free := first.2.2.1
    rw [ok.root.blockTaken.2] at free
    cases free
  refine ⟨nonzero, Nat.mod_eq_of_lt ?_⟩
  have range : state.blockSize < 2 ^ 64 := state.fsParams.sizeRange.2.2.2
  by_cases one : block = 1
  · subst block
    rw [Nat.one_mul]
    exact range
  · have previous : state.BlockTaken (block - 1) :=
      ⟨Nat.lt_of_le_of_lt (Nat.sub_le _ _) first.2.1, first.2.2.2 (block - 1) (by omega)⟩
    have inside := ok.blocks (block - 1) previous (by omega)
    have small := ok.geometry.dataBytesLt
    have atLeast : state.blockSize ≤ (block - 1) * state.blockSize :=
      Nat.le_mul_of_pos_left _ (by omega)
    have next : block * state.blockSize = (block - 1) * state.blockSize + state.blockSize := by
      rw [← Nat.succ_mul]
      congr 1
      omega
    omega

theorem StoreOk.linkStored_past (ok : StoreOk state) {block : Nat}
    (first : state.FirstFreeBlock block) :
    dirEntrySize * state.maxDirEntries ≤ block * state.blockSize % 2 ^ 64 := by
  obtain ⟨nonzero, address⟩ := ok.freeBlock_address first
  rw [address]
  exact State.dirEnd_le_blockAddress state nonzero

theorem Kept.linkStored {inode block : Nat} {target : CString} (ok : StoreOk state)
    (node : NodeOk state inode) (first : state.FirstFreeBlock block)
    (fits : block * state.blockSize % 2 ^ 64 + (target.strlen + 1) ≤ state.dataBytes) :
    Kept state (state.linkStored inode block target) := by
  obtain ⟨nonzero, address⟩ := ok.freeBlock_address first
  have taken : Kept state (state.setFreeBlock block .taken) :=
    ⟨ok.setFreeBlock nonzero (fun _ => by omega), fun _ other => { other with }⟩
  have set := @Kept.setInode (state.setFreeBlock block .taken) inode
    { state.inodeTable inode with iDataBlock := block } taken.store node.nonRoot node.notDirectory
    (fun _ => ⟨block, rfl, nonzero, first.2.1⟩)
  have both := taken.trans set
  exact ⟨both.store.ofDirectory (both.store.directory.of_sameEntries
    (State.sameEntries_store (ok.linkStored_past first))),
    fun other otherNode => { both.nodes other otherNode with }⟩

theorem Kept.bindEntry {inode slot : Nat} {name : CString} (ok : StoreOk state)
    (fits : inode < 2 ^ 31) (accepts : state.Accepts slot name) :
    Kept state (state.bindEntry slot name inode) :=
  ⟨ok.ofDirectory (ok.directory.bindEntry accepts.1 fits accepts.2.2.1 accepts.2.2.2.2 accepts.2.1),
    fun _ other => { other with }⟩

theorem Kept.closeHandle (ok : StoreOk state) (handle : Nat) :
    Kept state (state.closeHandle handle) :=
  ⟨ok.closeHandle, fun _ other => { other with }⟩

theorem Kept.scrubEntry {slot : Nat} (ok : StoreOk state) : Kept state (state.scrubEntry slot) :=
  ⟨ok.ofDirectory ok.directory.scrubEntry, fun _ other => { other with }⟩

/-- Every section keeps what the threads rely on. -/
theorem SectionEffect.kept {point next : TfsPoint} {after : State}
    (effect : SectionEffect state point next after) (ok : StoreOk state)
    (sound : point.Sound state) : Kept state after := by
  have same : Kept state state := ⟨ok, fun _ node => node⟩
  cases effect with
  | openFinds _ | openAbsent _ _ | openMissing _ _ | openFollows _ _ | openNoInode _
  | openDeclined _ | openGone _ | openChecks _ | openNoHandle _ | closeInvalid _ | closeFinds _
  | symNoInode _ | symNoBlock _ | symDeclined _ | linkFinds _ | linkMissing _ | linkDeclined _
  | unlinkFinds _ | unlinkMissing _ => exact same
  | openTruncates _ =>
      obtain ⟨inode, sameInode, node⟩ := sound
      cases Int.ofNat_inj.mp sameInode
      exact .truncated ok node _
  | openCreates first => exact .takeInode ok first (by decide)
  | symCreates first => exact .takeInode ok first (by decide)
  | openEnters accepts | symEnters accepts | linkPublishes accepts _ | linkRetracts accepts _ =>
      obtain ⟨inode, sameInode, _, taken⟩ := sound
      cases Int.ofNat_inj.mp sameInode
      exact .bindEntry ok (ok.fits _ taken) accepts
  | openDeletes | symDeletes =>
      obtain ⟨inode, sameInode, node, _⟩ := sound
      cases Int.ofNat_inj.mp sameInode
      exact .deleteInode ok node
  | openReturns first =>
      obtain ⟨inode, sameInode, node⟩ := sound
      cases Int.ofNat_inj.mp sameInode
      exact ⟨ok.openHandle first.2.1 node, fun _ other => { other with }⟩
  | closes _ _ _ _ => exact .closeHandle ok _
  | @closesLast handle _ opened refers _ _ _ =>
      obtain ⟨held, refers', node⟩ := ok.handles _ opened
      cases Int.ofNat_inj.mp (refers.symm.trans refers')
      have closed := Kept.closeHandle ok handle
      exact closed.trans (.deleteInode closed.store (closed.nodes _ node))
  | symStores first fits =>
      obtain ⟨inode, sameInode, node, _⟩ := sound
      cases Int.ofNat_inj.mp sameInode
      exact .linkStored ok node first fits
  | linkClears _ | unlinkClears _ => exact .scrubEntry ok
  | linkCounts =>
      obtain ⟨inode, _, sameInode, node, _⟩ := sound
      cases Int.ofNat_inj.mp sameInode
      exact .setLinks ok node
  | unlinkDrops _ =>
      obtain ⟨inode, sameInode, node, _⟩ := sound
      cases Int.ofNat_inj.mp sameInode
      exact .setLinks ok node
  | @unlinkDeletes inode _ _ =>
      obtain ⟨_, sameInode, node, _⟩ := sound
      cases Int.ofNat_inj.mp sameInode
      have dropped : Kept state (state.linkDropped inode) := .setLinks ok node
      exact dropped.trans (.deleteInode dropped.store (dropped.nodes inode node))

end TecnicoFS.FileSystem
