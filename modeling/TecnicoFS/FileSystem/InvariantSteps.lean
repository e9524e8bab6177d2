/-
What each kind of write to the state does to the invariant.

An operation of the file system is a composition of the writes below, so every
proof about a public call cites these lemmas and looks at no table itself.
-/

import TecnicoFS.FileSystem.Invariant

set_option autoImplicit false

namespace TecnicoFS.FileSystem

open TableSearch

variable {state : State} {slack : Slack}

/-! ### The data area -/

/-- The two memories hold the same directory slots. -/
def State.SameEntries (state state' : State) : Prop :=
  ∀ slot, slot < state.maxDirEntries →
    state'.entryInumber slot = state.entryInumber slot ∧
      ∀ name, validSubName name → (state'.EntryNamed slot name ↔ state.EntryNamed slot name)

theorem State.SameEntries.live {memory : ByteMemory}
    (same : state.SameEntries { state with fsData := memory }) (slot : Nat) :
    ({ state with fsData := memory } : State).EntryLive slot ↔ state.EntryLive slot := by
  constructor
  · rintro ⟨inside, holds⟩
    exact ⟨inside, (same slot inside).1 ▸ holds⟩
  · rintro ⟨inside, holds⟩
    exact ⟨inside, (same slot inside).1.symm ▸ holds⟩

theorem State.SameEntries.count {memory : ByteMemory}
    (same : state.SameEntries { state with fsData := memory }) (inode : Nat) :
    ({ state with fsData := memory } : State).entryCount inode = state.entryCount inode :=
  count_congr (fun slot inside => by rw [(same slot inside).1])

/-- The directory slots moved to another memory -/
theorem DirectoryOk.of_sameEntries {memory : ByteMemory} (ok : DirectoryOk state)
    (same : state.SameEntries { state with fsData := memory }) :
    DirectoryOk { state with fsData := memory } where
  named slot live := by
    obtain ⟨name, short, named⟩ := ok.named slot ((same.live slot).mp live)
    exact ⟨name, short, ((same slot live.1).2 name short).mpr named⟩
  distinct left right name leftLive rightLive short leftNamed rightNamed :=
    ok.distinct left right name ((same.live left).mp leftLive) ((same.live right).mp rightLive)
      short (((same left leftLive.1).2 name short).mp leftNamed)
      (((same right rightLive.1).2 name short).mp rightNamed)
  scrubbed dead live name below isDead isLive short named :=
    ok.scrubbed dead live name below (fun live' => isDead ((same.live dead).mpr live'))
      ((same.live live).mp isLive) short
      (((same dead (Nat.lt_trans below isLive.1)).2 name short).mp named)

/-- Memory outside the directory slots is not looked at. -/
theorem Invariant.of_sameEntries {memory : ByteMemory} (inv : Invariant state slack)
    (same : state.SameEntries { state with fsData := memory }) :
    Invariant { state with fsData := memory } slack where
  geometry := { inv.geometry with }
  root := { inv.root with }
  directory := inv.directory.of_sameEntries same
  holders :=
    { inv.holders with
      entryHolds := by
        intro slot live
        obtain ⟨inode, holds, rest⟩ := inv.holders.entryHolds slot ((same.live slot).mp live)
        exact ⟨inode, (same slot live.1).1.trans holds, rest⟩ }
  counts :=
    { inv.counts with
      linkCount := by
        intro inode taken nonzero
        rw [same.count]
        exact inv.counts.linkCount inode taken nonzero
      used := by
        intro inode taken nonzero settled
        rw [same.count]
        exact inv.counts.used inode taken nonzero settled }
  inodes := { inv.inodes with }
  blocks := { inv.blocks with }
  handles := { inv.handles with }

theorem State.sameEntries_store {address : Nat} {bytes : List UInt8}
    (past : dirEntrySize * state.maxDirEntries ≤ address) :
    state.SameEntries (state.store address bytes) := by
  intro slot inside
  have before : dirEntrySize * (slot + 1) ≤ address :=
    Nat.le_trans (Nat.mul_le_mul_left _ inside) past
  constructor
  · exact State.entryInumber_store state slot address bytes (Or.inl before)
  · intro name short
    apply State.entryNamed_store state slot address bytes name short (Or.inl _)
    unfold dirEntrySize maxFileName at *
    omega

/-- A store past the directory entries keeps the invariant. -/
theorem Invariant.store {address : Nat} {bytes : List UInt8} (inv : Invariant state slack)
    (past : dirEntrySize * state.maxDirEntries ≤ address) :
    Invariant (state.store address bytes) slack :=
  inv.of_sameEntries (State.sameEntries_store past)

theorem Invariant.takeBlock {block : Nat} (inv : Invariant state slack)
    (fits : block < 2 ^ 31) (inside : block * state.blockSize < state.dataBytes) :
    Invariant (state.setFreeBlock block .taken) slack where
  geometry := { inv.geometry with }
  root :=
    { inv.root with
      blockTaken := by
        refine ⟨inv.root.blockTaken.1, ?_⟩
        change Function.update state.freeBlocks block .taken 0 = .taken
        rw [Function.update_apply]
        split
        · rfl
        · exact inv.root.blockTaken.2 }
  directory := { inv.directory with }
  holders := { inv.holders with }
  counts := { inv.counts with }
  inodes := { inv.inodes with }
  blocks :=
    { exclusive := inv.blocks.exclusive
      fits := by
        rintro other ⟨within, taken⟩
        change Function.update state.freeBlocks block .taken other = .taken at taken
        by_cases same : other = block
        · subst other
          exact fits
        · rw [Function.update_of_ne same] at taken
          exact inv.blocks.fits other ⟨within, taken⟩
      inside := by
        rintro other ⟨within, taken⟩ nonzero
        change Function.update state.freeBlocks block .taken other = .taken at taken
        by_cases same : other = block
        · subst other
          exact inside
        · rw [Function.update_of_ne same] at taken
          exact inv.blocks.inside other ⟨within, taken⟩ nonzero
      owned := by
        intro inode owned owns nonzero
        obtain ⟨slot, same, slotNonzero, within, taken⟩ :=
          inv.blocks.owned inode owned owns nonzero
        refine ⟨slot, same, slotNonzero, within, ?_⟩
        change Function.update state.freeBlocks block .taken slot = .taken
        rw [Function.update_apply]
        split
        · rfl
        · exact taken }
  handles := { inv.handles with }

/-- A block nobody owns may be given back. -/
theorem Invariant.freeBlock {block : Nat} (inv : Invariant state slack) (nonzero : block ≠ 0)
    (unowned : ∀ inode, ¬ state.OwnsBlock inode (block : Int)) :
    Invariant (state.setFreeBlock block .free) slack where
  geometry := { inv.geometry with }
  root :=
    { inv.root with
      blockTaken := by
        refine ⟨inv.root.blockTaken.1, ?_⟩
        change Function.update state.freeBlocks block .free 0 = .taken
        rw [Function.update_of_ne (fun same => nonzero same.symm)]
        exact inv.root.blockTaken.2 }
  directory := { inv.directory with }
  holders := { inv.holders with }
  counts := { inv.counts with }
  inodes := { inv.inodes with }
  blocks :=
    { exclusive := inv.blocks.exclusive
      fits := by
        rintro other ⟨within, taken⟩
        change Function.update state.freeBlocks block .free other = .taken at taken
        by_cases same : other = block
        · subst other
          rw [Function.update_self] at taken
          cases taken
        · rw [Function.update_of_ne same] at taken
          exact inv.blocks.fits other ⟨within, taken⟩
      inside := by
        rintro other ⟨within, taken⟩ otherNonzero
        change Function.update state.freeBlocks block .free other = .taken at taken
        by_cases same : other = block
        · subst other
          rw [Function.update_self] at taken
          cases taken
        · rw [Function.update_of_ne same] at taken
          exact inv.blocks.inside other ⟨within, taken⟩ otherNonzero
      owned := by
        intro inode owned owns inodeNonzero
        obtain ⟨slot, same, slotNonzero, within, taken⟩ :=
          inv.blocks.owned inode owned owns inodeNonzero
        subst owned
        refine ⟨slot, rfl, slotNonzero, within, ?_⟩
        change Function.update state.freeBlocks block .free slot = .taken
        have different : slot ≠ block := by
          intro equal
          subst slot
          exact unowned inode owns
        rw [Function.update_of_ne different]
        exact taken }
  handles := { inv.handles with }

/-! ### Inodes -/

theorem State.setInode_apply_self (slot : Nat) (inode : Inode) :
    (state.setInode slot inode).inodeTable slot = inode := Function.update_self _ _ _

theorem State.setInode_apply_of_ne {slot other : Nat} (inode : Inode) (different : other ≠ slot) :
    (state.setInode slot inode).inodeTable other = state.inodeTable other :=
  Function.update_of_ne different _ _

/-- The contents of a FREE inode are not looked at. -/
theorem Invariant.setInode_of_free {slot : Nat} {inode : Inode} (inv : Invariant state slack)
    (unused : ¬ state.InodeTaken slot) : Invariant (state.setInode slot inode) slack := by
  have unchanged (other : Nat) (taken : state.InodeTaken other) :
      (state.setInode slot inode).inodeTable other = state.inodeTable other :=
    State.setInode_apply_of_ne inode (fun same => unused (same ▸ taken))
  have ownsBefore (other : Nat) (block : Int)
      (owns : (state.setInode slot inode).OwnsBlock other block) : state.OwnsBlock other block := by
    obtain ⟨taken, rest⟩ := owns
    rw [unchanged other taken] at rest
    exact ⟨taken, rest⟩
  refine
    { geometry := { inv.geometry with }
      root := ?_
      directory := { inv.directory with }
      holders := { inv.holders with handleHolds := ?_ }
      counts := { inv.counts with linkCount := ?_ }
      inodes := ⟨?_, inv.inodes.fits, ?_, ?_⟩
      blocks := { inv.blocks with owned := ?_, exclusive := ?_ }
      handles := { inv.handles with } }
  · have same := unchanged 0 inv.root.inodeTaken
    exact
      { inv.root with
        isDirectory := by rw [same]; exact inv.root.isDirectory
        inFirstBlock := by rw [same]; exact inv.root.inFirstBlock }
  · intro handle taken
    obtain ⟨held, refers, nonzero, heldTaken, isFile⟩ := inv.holders.handleHolds handle taken
    exact ⟨held, refers, nonzero, heldTaken, by rw [unchanged held heldTaken]; exact isFile⟩
  · intro other taken nonzero
    rw [unchanged other taken]
    exact inv.counts.linkCount other taken nonzero
  · intro other taken nonzero
    rw [unchanged other taken]
    exact inv.inodes.onlyRoot other taken nonzero
  · intro other taken isFile
    rw [unchanged other taken] at isFile ⊢
    exact inv.inodes.fileSize other taken isFile
  · intro other taken isSymLink
    rw [unchanged other taken] at isSymLink ⊢
    exact inv.inodes.symLinkSize other taken isSymLink
  · intro other block owns nonzero
    exact inv.blocks.owned other block (ownsBefore other block owns) nonzero
  · intro left right block leftOwns rightOwns
    exact inv.blocks.exclusive left right block (ownsBefore left block leftOwns)
      (ownsBefore right block rightOwns)

/-- The inode allocated and initialized -/
def State.takeInode (state : State) (slot : Nat) (inode : Inode) : State :=
  (state.setFreeinode slot .taken).setInode slot inode

theorem State.takeInode_taken {slot other : Nat} {inode : Inode}
    (inside : slot < state.inodeTableSize) :
    (state.takeInode slot inode).InodeTaken other ↔ other = slot ∨ state.InodeTaken other := by
  change (other < state.inodeTableSize ∧
    Function.update state.freeinodeTs slot .taken other = .taken) ↔ _
  rw [Function.update_apply]
  by_cases same : other = slot
  · subst other
    simp [inside]
  · simp only [same, false_or]
    exact Iff.rfl

/-- A new inode enters with one link that its future entry will account for. -/
theorem Invariant.takeInode {slot : Nat} {inode : Inode} (inv : Invariant state none)
    (inside : slot < state.inodeTableSize) (unused : ¬ state.InodeTaken slot)
    (fits : slot < 2 ^ 31) (notDirectory : inode.iNodeType ≠ .tDirectory)
    (empty : inode.iSize = 0) (oneLink : inode.iHardLinks = 1)
    (block : inode.iNodeType = .tSymLink → ∃ own : Nat, inode.iDataBlock = (own : Int) ∧
      own ≠ 0 ∧ state.BlockTaken own ∧ ∀ owner, ¬ state.OwnsBlock owner (own : Int)) :
    Invariant (state.takeInode slot inode) (some (slot, 1)) := by
  have taken (other : Nat) : (state.takeInode slot inode).InodeTaken other ↔
      other = slot ∨ state.InodeTaken other := State.takeInode_taken inside
  have unchanged (other : Nat) (otherTaken : state.InodeTaken other) :
      (state.takeInode slot inode).inodeTable other = state.inodeTable other :=
    Function.update_of_ne (fun same : other = slot => unused (same ▸ otherTaken)) _ _
  have atSlot : (state.takeInode slot inode).inodeTable slot = inode := Function.update_self _ _ _
  have slotNonzero : slot ≠ 0 := fun zero => unused (zero ▸ inv.root.inodeTaken)
  have uncounted : state.entryCount slot = 0 := by
    by_contra counted
    obtain ⟨entry, entryInside, holds⟩ := (state.entryCount_ne_zero_iff slot).mp counted
    obtain ⟨held, holds', _, heldTaken⟩ :=
      inv.holders.entryHolds entry ⟨entryInside, by rw [holds]; omega⟩
    have same : held = slot := by
      rw [holds] at holds'
      omega
    exact unused (same ▸ heldTaken)
  have owns (other : Nat) (held : Int)
      (otherOwns : (state.takeInode slot inode).OwnsBlock other held) :
      (other = slot ∧ inode.iNodeType = .tSymLink ∧ inode.iDataBlock = held) ∨
        state.OwnsBlock other held := by
    obtain ⟨otherTaken, isBlock, nonempty⟩ := otherOwns
    rcases (taken other).mp otherTaken with same | before
    · subst other
      rw [atSlot] at isBlock nonempty
      left
      refine ⟨rfl, ?_, isBlock⟩
      cases kind : inode.iNodeType with
      | tFile =>
          have positive := nonempty kind
          omega
      | tDirectory => exact (notDirectory kind).elim
      | tSymLink => rfl
    · rw [unchanged other before] at isBlock nonempty
      exact Or.inr ⟨before, isBlock, nonempty⟩
  refine
    { geometry := { inv.geometry with }
      root := ?_
      directory := { inv.directory with }
      holders := ⟨?_, ?_⟩
      counts := ⟨?_, ?_, ?_⟩
      inodes := ⟨?_, ?_, ?_, ?_⟩
      blocks := { fits := inv.blocks.fits, inside := inv.blocks.inside, owned := ?_, exclusive := ?_ }
      handles := { inv.handles with } }
  · have same := unchanged 0 inv.root.inodeTaken
    exact
      { blockTaken := inv.root.blockTaken
        inodeTaken := (taken 0).mpr (Or.inr inv.root.inodeTaken)
        isDirectory := by rw [same]; exact inv.root.isDirectory
        inFirstBlock := by rw [same]; exact inv.root.inFirstBlock }
  · intro entry live
    obtain ⟨held, holds, nonzero, heldTaken⟩ := inv.holders.entryHolds entry live
    exact ⟨held, holds, nonzero, (taken held).mpr (Or.inr heldTaken)⟩
  · intro handle handleTaken
    obtain ⟨held, refers, nonzero, heldTaken, isFile⟩ :=
      inv.holders.handleHolds handle handleTaken
    exact ⟨held, refers, nonzero, (taken held).mpr (Or.inr heldTaken),
      by rw [unchanged held heldTaken]; exact isFile⟩
  · intro other otherTaken nonzero
    change _ = state.entryCount other + _
    rcases (taken other).mp otherTaken with same | before
    · subst other
      rw [atSlot, oneLink, uncounted]
      simp [Slack.extra]
    · have different : slot ≠ other := fun same => unused (same ▸ before)
      rw [unchanged other before, inv.counts.linkCount other before nonzero]
      simp [Slack.extra, different]
  · intro other otherTaken nonzero settled
    rcases (taken other).mp otherTaken with same | before
    · exact (settled same.symm).elim
    · exact inv.counts.used other before nonzero id
  · intro other exempt
    cases exempt
    exact ⟨(taken slot).mpr (Or.inl rfl), slotNonzero⟩
  · intro other otherTaken nonzero
    rcases (taken other).mp otherTaken with same | before
    · subst other
      rw [atSlot]
      exact notDirectory
    · rw [unchanged other before]
      exact inv.inodes.onlyRoot other before nonzero
  · intro other otherTaken
    rcases (taken other).mp otherTaken with same | before
    · subst other
      exact fits
    · exact inv.inodes.fits other before
  · intro other otherTaken isFile
    rcases (taken other).mp otherTaken with same | before
    · subst other
      rw [atSlot, empty]
      exact Nat.zero_le _
    · rw [unchanged other before] at isFile ⊢
      exact inv.inodes.fileSize other before isFile
  · intro other otherTaken isSymLink
    rcases (taken other).mp otherTaken with same | before
    · subst other
      rw [atSlot, empty]
    · rw [unchanged other before] at isSymLink ⊢
      exact inv.inodes.symLinkSize other before isSymLink
  · intro other held otherOwns nonzero
    rcases owns other held otherOwns with ⟨same, isSymLink, isBlock⟩ | before
    · obtain ⟨own, ownEq, ownNonzero, ownTaken, _⟩ := block isSymLink
      exact ⟨own, by rw [← isBlock, ownEq], ownNonzero, ownTaken⟩
    · exact inv.blocks.owned other held before nonzero
  · intro left right held leftOwns rightOwns
    rcases owns left held leftOwns with ⟨leftSame, leftLink, leftBlock⟩ | leftBefore <;>
      rcases owns right held rightOwns with ⟨rightSame, rightLink, rightBlock⟩ | rightBefore
    · rw [leftSame, rightSame]
    · obtain ⟨own, ownEq, _, _, unowned⟩ := block leftLink
      rw [← leftBlock, ownEq] at rightBefore
      exact (unowned right rightBefore).elim
    · obtain ⟨own, ownEq, _, _, unowned⟩ := block rightLink
      rw [← rightBlock, ownEq] at leftBefore
      exact (unowned left leftBefore).elim
    · exact inv.blocks.exclusive left right held leftBefore rightBefore

/-- Taking the last reference of an inode away lets its slot go. -/
def State.dropInode (state : State) (slot : Nat) (inode : Inode) : State :=
  (state.setInode slot inode).setFreeinode slot .free

theorem State.dropInode_taken {slot other : Nat} {inode : Inode} :
    (state.dropInode slot inode).InodeTaken other ↔ other ≠ slot ∧ state.InodeTaken other := by
  change (other < state.inodeTableSize ∧
    Function.update state.freeinodeTs slot .free other = .taken) ↔ _
  rw [Function.update_apply]
  by_cases same : other = slot
  · subst other
    simp
  · simp only [ne_eq, same, not_false_eq_true, true_and]
    exact Iff.rfl

theorem Invariant.dropInode {slot links : Nat} {inode : Inode}
    (inv : Invariant state (some (slot, links))) (uncounted : state.entryCount slot = 0)
    (unopened : ¬ state.IsOpen slot) : Invariant (state.dropInode slot inode) none := by
  have taken (other : Nat) : (state.dropInode slot inode).InodeTaken other ↔
      other ≠ slot ∧ state.InodeTaken other := State.dropInode_taken
  have unchanged (other : Nat) (different : other ≠ slot) :
      (state.dropInode slot inode).inodeTable other = state.inodeTable other :=
    Function.update_of_ne different _ _
  have slotNonzero : slot ≠ 0 := (inv.counts.slackTaken slot rfl).2
  have owns (other : Nat) (held : Int)
      (otherOwns : (state.dropInode slot inode).OwnsBlock other held) :
      state.OwnsBlock other held := by
    obtain ⟨otherTaken, rest⟩ := otherOwns
    obtain ⟨different, before⟩ := (taken other).mp otherTaken
    rw [unchanged other different] at rest
    exact ⟨before, rest⟩
  refine
    { geometry := { inv.geometry with }
      root := ?_
      directory := { inv.directory with }
      holders := ⟨?_, ?_⟩
      counts := ⟨?_, ?_, ?_⟩
      inodes := ⟨?_, ?_, ?_, ?_⟩
      blocks := { fits := inv.blocks.fits, inside := inv.blocks.inside, owned := ?_, exclusive := ?_ }
      handles := { inv.handles with } }
  · have same := unchanged 0 (fun equal => slotNonzero equal.symm)
    exact
      { blockTaken := inv.root.blockTaken
        inodeTaken := (taken 0).mpr ⟨fun equal => slotNonzero equal.symm, inv.root.inodeTaken⟩
        isDirectory := by rw [same]; exact inv.root.isDirectory
        inFirstBlock := by rw [same]; exact inv.root.inFirstBlock }
  · intro entry live
    obtain ⟨held, holds, nonzero, heldTaken⟩ := inv.holders.entryHolds entry live
    refine ⟨held, holds, nonzero, (taken held).mpr ⟨?_, heldTaken⟩⟩
    intro same
    subst held
    exact (state.entryCount_ne_zero_iff slot).mpr ⟨entry, live.1, holds⟩ uncounted
  · intro handle handleTaken
    obtain ⟨held, refers, nonzero, heldTaken, isFile⟩ :=
      inv.holders.handleHolds handle handleTaken
    have different : held ≠ slot := by
      intro same
      subst held
      exact unopened ⟨handle, handleTaken, refers⟩
    exact ⟨held, refers, nonzero, (taken held).mpr ⟨different, heldTaken⟩,
      by rw [unchanged held different]; exact isFile⟩
  · intro other otherTaken nonzero
    obtain ⟨different, before⟩ := (taken other).mp otherTaken
    change _ = state.entryCount other + _
    rw [unchanged other different, inv.counts.linkCount other before nonzero]
    simp [Slack.extra, Ne.symm different]
  · intro other otherTaken nonzero _
    obtain ⟨different, before⟩ := (taken other).mp otherTaken
    exact inv.counts.used other before nonzero (fun exempt => different exempt.symm)
  · intro other exempt
    cases exempt
  · intro other otherTaken nonzero
    obtain ⟨different, before⟩ := (taken other).mp otherTaken
    rw [unchanged other different]
    exact inv.inodes.onlyRoot other before nonzero
  · intro other otherTaken
    exact inv.inodes.fits other ((taken other).mp otherTaken).2
  · intro other otherTaken isFile
    obtain ⟨different, before⟩ := (taken other).mp otherTaken
    rw [unchanged other different] at isFile ⊢
    exact inv.inodes.fileSize other before isFile
  · intro other otherTaken isSymLink
    obtain ⟨different, before⟩ := (taken other).mp otherTaken
    rw [unchanged other different] at isSymLink ⊢
    exact inv.inodes.symLinkSize other before isSymLink
  · intro other held otherOwns nonzero
    exact inv.blocks.owned other held (owns other held otherOwns) nonzero
  · intro left right held leftOwns rightOwns
    exact inv.blocks.exclusive left right held (owns left held leftOwns)
      (owns right held rightOwns)

/-- The size and the block of a regular file -/
def State.resizeFile (state : State) (slot size : Nat) (block : Int) : State :=
  state.setInode slot { state.inodeTable slot with iSize := size, iDataBlock := block }

theorem Invariant.resizeFile {slot size : Nat} {block : Int} (inv : Invariant state slack)
    (isFile : (state.inodeTable slot).iNodeType = .tFile)
    (bounded : size ≤ state.blockSize)
    (backed : 0 < size → ∃ own : Nat, block = (own : Int) ∧ own ≠ 0 ∧ state.BlockTaken own ∧
      ∀ owner, state.OwnsBlock owner (own : Int) → owner = slot) :
    Invariant (state.resizeFile slot size block) slack := by
  have slotNonzero : slot ≠ 0 := by
    intro zero
    rw [zero, inv.root.isDirectory] at isFile
    cases isFile
  have unchanged (other : Nat) (different : other ≠ slot) :
      (state.resizeFile slot size block).inodeTable other = state.inodeTable other :=
    State.setInode_apply_of_ne _ different
  have atSlot : (state.resizeFile slot size block).inodeTable slot =
      { state.inodeTable slot with iSize := size, iDataBlock := block } :=
    State.setInode_apply_self _ _
  have kind (other : Nat) : ((state.resizeFile slot size block).inodeTable other).iNodeType =
      (state.inodeTable other).iNodeType := by
    by_cases same : other = slot
    · rw [same, atSlot]
    · rw [unchanged other same]
  have owns (other : Nat) (held : Int)
      (otherOwns : (state.resizeFile slot size block).OwnsBlock other held) :
      (other = slot ∧ 0 < size ∧ block = held) ∨ (other ≠ slot ∧ state.OwnsBlock other held) := by
    obtain ⟨otherTaken, rest⟩ := otherOwns
    by_cases same : other = slot
    · subst other
      rw [atSlot] at rest
      exact Or.inl ⟨rfl, rest.2 isFile, rest.1⟩
    · rw [unchanged other same] at rest
      exact Or.inr ⟨same, otherTaken, rest⟩
  refine
    { geometry := { inv.geometry with }
      root := ?_
      directory := { inv.directory with }
      holders := { inv.holders with handleHolds := ?_ }
      counts := { inv.counts with linkCount := ?_ }
      inodes := ⟨?_, inv.inodes.fits, ?_, ?_⟩
      blocks := { inv.blocks with owned := ?_, exclusive := ?_ }
      handles := { inv.handles with } }
  · have same := unchanged 0 (fun equal => slotNonzero equal.symm)
    exact
      { inv.root with
        isDirectory := by rw [same]; exact inv.root.isDirectory
        inFirstBlock := by rw [same]; exact inv.root.inFirstBlock }
  · intro handle handleTaken
    obtain ⟨held, refers, nonzero, heldTaken, heldFile⟩ :=
      inv.holders.handleHolds handle handleTaken
    exact ⟨held, refers, nonzero, heldTaken, by rw [kind]; exact heldFile⟩
  · intro other otherTaken nonzero
    refine Eq.trans ?_ (inv.counts.linkCount other otherTaken nonzero)
    by_cases same : other = slot
    · rw [same, atSlot]
    · rw [unchanged other same]
  · intro other otherTaken nonzero
    rw [kind]
    exact inv.inodes.onlyRoot other otherTaken nonzero
  · intro other otherTaken otherFile
    by_cases same : other = slot
    · rw [same, atSlot]
      exact bounded
    · rw [unchanged other same] at otherFile ⊢
      exact inv.inodes.fileSize other otherTaken otherFile
  · intro other otherTaken isSymLink
    by_cases same : other = slot
    · rw [kind, same, isFile] at isSymLink
      cases isSymLink
    · rw [unchanged other same] at isSymLink ⊢
      exact inv.inodes.symLinkSize other otherTaken isSymLink
  · intro other held otherOwns nonzero
    rcases owns other held otherOwns with ⟨_, positive, isBlock⟩ | ⟨_, before⟩
    · obtain ⟨own, ownEq, ownNonzero, ownTaken, _⟩ := backed positive
      exact ⟨own, by rw [← isBlock, ownEq], ownNonzero, ownTaken⟩
    · exact inv.blocks.owned other held before nonzero
  · intro left right held leftOwns rightOwns
    rcases owns left held leftOwns with ⟨leftSame, positive, isBlock⟩ | ⟨leftDifferent, leftBefore⟩ <;>
      rcases owns right held rightOwns with ⟨rightSame, positive', isBlock'⟩ |
        ⟨rightDifferent, rightBefore⟩
    · rw [leftSame, rightSame]
    · obtain ⟨own, ownEq, _, _, sole⟩ := backed positive
      rw [← isBlock, ownEq] at rightBefore
      exact (rightDifferent (sole right rightBefore)).elim
    · obtain ⟨own, ownEq, _, _, sole⟩ := backed positive'
      rw [← isBlock', ownEq] at leftBefore
      exact (leftDifferent (sole left leftBefore)).elim
    · exact inv.blocks.exclusive left right held leftBefore rightBefore

/-- The link counter of an inode -/
def State.setLinks (state : State) (slot links : Nat) : State :=
  state.setInode slot { state.inodeTable slot with iHardLinks := links }

theorem State.setLinks_apply (slot links other : Nat) :
    (state.setLinks slot links).inodeTable other =
      if other = slot then { state.inodeTable slot with iHardLinks := links }
      else state.inodeTable other := by
  by_cases same : other = slot
  · rw [if_pos same, same]
    exact State.setInode_apply_self _ _
  · rw [if_neg same]
    exact State.setInode_apply_of_ne _ same

/-- The counter of the one unsettled inode may be set to any value. -/
theorem Invariant.setLinks {slot extra : Nat} (inv : Invariant state slack)
    (only : ∀ other, slack.Exempts other → other = slot) (taken : state.InodeTaken slot)
    (nonzero : slot ≠ 0) :
    Invariant (state.setLinks slot (state.entryCount slot + extra)) (some (slot, extra)) := by
  have owns (other : Nat) (held : Int)
      (otherOwns : (state.setLinks slot (state.entryCount slot + extra)).OwnsBlock other held) :
      state.OwnsBlock other held := by
    obtain ⟨otherTaken, rest⟩ := otherOwns
    rw [State.setLinks_apply] at rest
    by_cases same : other = slot
    · subst other
      rw [if_pos rfl] at rest
      exact ⟨otherTaken, rest⟩
    · rw [if_neg same] at rest
      exact ⟨otherTaken, rest⟩
  have kind (other : Nat) :
      ((state.setLinks slot (state.entryCount slot + extra)).inodeTable other).iNodeType =
        (state.inodeTable other).iNodeType := by
    rw [State.setLinks_apply]
    split
    · rename_i same
      rw [same]
    · rfl
  have size (other : Nat) :
      ((state.setLinks slot (state.entryCount slot + extra)).inodeTable other).iSize =
        (state.inodeTable other).iSize := by
    rw [State.setLinks_apply]
    split
    · rename_i same
      rw [same]
    · rfl
  refine
    { geometry := { inv.geometry with }
      root :=
        { inv.root with
          isDirectory := by rw [kind]; exact inv.root.isDirectory
          inFirstBlock := ?_ }
      directory := { inv.directory with }
      holders := { inv.holders with handleHolds := ?_ }
      counts := ⟨?_, ?_, ?_⟩
      inodes :=
        { inv.inodes with
          onlyRoot := fun other otherTaken otherNonzero => by
            rw [kind]; exact inv.inodes.onlyRoot other otherTaken otherNonzero
          fileSize := fun other otherTaken isFile => by
            rw [kind] at isFile; rw [size]; exact inv.inodes.fileSize other otherTaken isFile
          symLinkSize := fun other otherTaken isSymLink => by
            rw [kind] at isSymLink
            rw [size]
            exact inv.inodes.symLinkSize other otherTaken isSymLink }
      blocks :=
        { inv.blocks with
          owned := fun other held otherOwns => inv.blocks.owned other held (owns other held otherOwns)
          exclusive := fun left right held leftOwns rightOwns =>
            inv.blocks.exclusive left right held (owns left held leftOwns)
              (owns right held rightOwns) }
      handles := { inv.handles with } }
  · rw [State.setLinks_apply, if_neg (fun equal => nonzero equal.symm)]
    exact inv.root.inFirstBlock
  · intro handle handleTaken
    obtain ⟨held, refers, heldNonzero, heldTaken, isFile⟩ :=
      inv.holders.handleHolds handle handleTaken
    exact ⟨held, refers, heldNonzero, heldTaken, by rw [kind]; exact isFile⟩
  · intro other otherTaken otherNonzero
    change _ = state.entryCount other + _
    rw [State.setLinks_apply]
    by_cases same : other = slot
    · subst other
      rw [if_pos rfl]
      simp [Slack.extra]
    · rw [if_neg same, inv.counts.linkCount other otherTaken otherNonzero]
      have settled : slack.extra other = 0 := by
        cases slack with
        | none => rfl
        | some pair =>
            have first : pair.1 = slot := only pair.1 rfl
            simp only [Slack.extra]
            rw [if_neg (fun equal => same (equal.symm.trans first))]
      rw [settled]
      simp [Slack.extra, Ne.symm same]
  · intro other otherTaken otherNonzero settled
    exact inv.counts.used other otherTaken otherNonzero
      (fun exempt => settled (only other exempt).symm)
  · intro other exempt
    cases exempt
    exact ⟨taken, nonzero⟩

/-- An inode whose links are all counted and that is in use is settled. -/
theorem Invariant.settle {slot : Nat} (inv : Invariant state (some (slot, 0)))
    (inUse : state.entryCount slot ≠ 0 ∨ state.IsOpen slot) : Invariant state none :=
  { inv with
    counts :=
      { linkCount := by
          intro other taken nonzero
          rw [inv.counts.linkCount other taken nonzero]
          simp [Slack.extra]
        used := by
          intro other taken nonzero _
          by_cases same : slot = other
          · exact same ▸ inUse
          · exact inv.counts.used other taken nonzero same
        slackTaken := by
          intro other exempt
          cases exempt } }

end TecnicoFS.FileSystem
