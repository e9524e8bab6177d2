/-
Blocks that nobody owns.

`inode_delete` gives the block of an inode back only when `i_size` is positive, and the
size of a symbolic link stays 0.  Its block is therefore lost when the link is unlinked
and when `tfs_sym_link` gives up after it stored the target.  No other call loses a
block.
-/

import TecnicoFS.FileSystem.Safety

set_option autoImplicit false

namespace TecnicoFS.FileSystem

variable {state state' : State}

/-- Every TAKEN block is owned by an allocated inode. -/
def NoLeak (state : State) : Prop :=
  ∀ block, state.BlockTaken block → ∃ inode, state.OwnsBlock inode (block : Int)

/-- The call neither unlinks a symbolic link nor makes one whose entry is refused. -/
def LeakFree (state : State) : Call → Prop
  | .tfsUnlink (some target) => ValidPathname target →
      ∀ inode, state.Binds target.tail inode → (state.inodeTable inode).iNodeType ≠ .tSymLink
  | .tfsSymLink (some target) (some link) =>
      ValidPathname target → ValidPathname link → target ≠ link →
        state.resources.inodeFree → state.resources.blockFree →
          validSubName link.tail ∧ state.Unbound link.tail ∧ state.resources.entryFree
  | _ => True

/-! ### What one write does to owners -/

theorem NoLeak.step (noLeak : NoLeak state)
    (kept : ∀ block, state'.BlockTaken block → (∃ inode, state'.OwnsBlock inode (block : Int)) ∨
      (state.BlockTaken block ∧ ∀ inode, state.OwnsBlock inode (block : Int) →
        state'.OwnsBlock inode (block : Int))) : NoLeak state' := by
  intro block taken
  rcases kept block taken with owned | ⟨before, owners⟩
  · exact owned
  · obtain ⟨inode, owns⟩ := noLeak block before
    exact ⟨inode, owners inode owns⟩

/-- The entry of an owner that is left alone -/
theorem State.OwnsBlock.of_same {inode : Nat} {block : Int} (owns : state.OwnsBlock inode block)
    (taken : state'.InodeTaken inode)
    (same : state'.inodeTable inode = state.inodeTable inode) : state'.OwnsBlock inode block := by
  obtain ⟨_, isBlock, nonempty⟩ := owns
  rw [← same] at isBlock nonempty
  exact ⟨taken, isBlock, nonempty⟩

theorem NoLeak.setInode_of_free (noLeak : NoLeak state) {slot : Nat} {inode : Inode}
    (unused : ¬ state.InodeTaken slot) : NoLeak (state.setInode slot inode) := by
  refine noLeak.step (fun block taken => Or.inr ⟨taken, fun owner owns => ?_⟩)
  have different : owner ≠ slot := fun same => unused (same ▸ owns.1)
  exact owns.of_same owns.1 (State.setInode_apply_of_ne inode different)

theorem NoLeak.takeInode (noLeak : NoLeak state) {slot : Nat} {inode : Inode}
    (inside : slot < state.inodeTableSize) (unused : ¬ state.InodeTaken slot) :
    NoLeak (state.takeInode slot inode) := by
  refine noLeak.step (fun block taken => Or.inr ⟨taken, fun owner owns => ?_⟩)
  have different : owner ≠ slot := fun same => unused (same ▸ owns.1)
  exact owns.of_same ((State.takeInode_taken inside).mpr (Or.inr owns.1))
    (State.setInode_apply_of_ne inode different)

theorem NoLeak.setLinks (noLeak : NoLeak state) (slot links : Nat) :
    NoLeak (state.setLinks slot links) := by
  refine noLeak.step (fun block taken => Or.inr ⟨taken, fun owner owns => ?_⟩)
  obtain ⟨ownerTaken, isBlock, nonempty⟩ := owns
  by_cases same : owner = slot
  · subst owner
    refine ⟨ownerTaken, ?_, ?_⟩
    · rw [State.setLinks_apply, if_pos rfl]
      exact isBlock
    · rw [State.setLinks_apply, if_pos rfl]
      exact nonempty
  · refine State.OwnsBlock.of_same ⟨ownerTaken, isBlock, nonempty⟩ ownerTaken ?_
    rw [State.setLinks_apply, if_neg same]

/-- A block given back by the inode that loses it -/
private theorem taken_after_release {inode block other : Nat}
    (nonempty : 0 < (state.inodeTable inode).iSize)
    (blockEq : (state.inodeTable inode).iDataBlock = (block : Int))
    (taken : (state.releaseBlock inode).BlockTaken other) :
    other ≠ block ∧ state.BlockTaken other := by
  rw [State.releaseBlock_nonempty nonempty blockEq] at taken
  obtain ⟨inside, isTaken⟩ := taken
  change Function.update state.freeBlocks block .free other = .taken at isTaken
  by_cases same : other = block
  · subst other
    rw [Function.update_self] at isTaken
    cases isTaken
  · rw [Function.update_of_ne same] at isTaken
    exact ⟨same, inside, isTaken⟩

theorem NoLeak.deleteInode {slack : Slack} (noLeak : NoLeak state) (inv : Invariant state slack)
    {inode : Nat} (taken : state.InodeTaken inode) (nonzero : inode ≠ 0)
    (isFile : (state.inodeTable inode).iNodeType = .tFile) :
    NoLeak (state.deleteInode inode) := by
  have keeps {last : Inode} {owner block : Nat} (different : owner ≠ inode)
      (owns : state.OwnsBlock owner (block : Int)) :
      ((state.releaseBlock inode).dropInode inode last).OwnsBlock owner (block : Int) := by
    have sameTable : (state.releaseBlock inode).inodeTable = state.inodeTable := by
      unfold State.releaseBlock
      split <;> rfl
    have stillTaken : (state.releaseBlock inode).InodeTaken owner := by
      unfold State.releaseBlock
      split <;> exact owns.1
    refine owns.of_same (State.dropInode_taken.mpr ⟨different, stillTaken⟩) ?_
    change Function.update (state.releaseBlock inode).inodeTable inode last owner = _
    rw [Function.update_of_ne different, sameTable]
  refine noLeak.step (fun other otherTaken => Or.inr ?_)
  by_cases nonempty : 0 < (state.inodeTable inode).iSize
  · obtain ⟨block, blockEq, _, _, _⟩ := inv.backed taken nonzero nonempty
    obtain ⟨different, before⟩ := taken_after_release nonempty blockEq otherTaken
    refine ⟨before, fun owner owns => keeps ?_ owns⟩
    intro same
    subst same
    have equal := owns.2.1.symm.trans blockEq
    exact different (Int.ofNat_inj.mp equal)
  · have before : state.BlockTaken other := by
      have released := @State.releaseBlock_empty state inode (by omega)
      change (state.releaseBlock inode).BlockTaken other at otherTaken
      rwa [released] at otherTaken
    refine ⟨before, fun owner owns => keeps ?_ owns⟩
    intro same
    subst same
    exact nonempty (owns.2.2 isFile)

theorem NoLeak.truncated (noLeak : NoLeak state) (inv : Invariant state none) {inode : Nat}
    (taken : state.InodeTaken inode) (nonzero : inode ≠ 0) (mode : TfsFileMode) :
    NoLeak (state.truncated inode mode) := by
  unfold State.truncated
  by_cases truncates : mode.tfsOTrunc = true ∧ 0 < (state.inodeTable inode).iSize
  · rw [if_pos truncates]
    obtain ⟨block, blockEq, _, _, _⟩ := inv.backed taken nonzero truncates.2
    refine noLeak.step (fun other otherTaken => Or.inr ?_)
    obtain ⟨different, before⟩ := taken_after_release truncates.2 blockEq otherTaken
    refine ⟨before, fun owner owns => ?_⟩
    have notInode : owner ≠ inode := by
      intro same
      subst same
      exact different (Int.ofNat_inj.mp (owns.2.1.symm.trans blockEq))
    rw [State.releaseBlock_nonempty truncates.2 blockEq]
    exact owns.of_same owns.1 (State.setInode_apply_of_ne _ notInode)
  · rw [if_neg truncates]
    exact noLeak

/-- A new block becomes the block of the inode that is given it; a file that has one keeps it. -/
theorem NoLeak.written (noLeak : NoLeak state) {handle inode block offset : Nat}
    {bytes : List UInt8} (taken : state.InodeTaken inode) (something : bytes ≠ [])
    (own : ∀ other : Nat, state.OwnsBlock inode (other : Int) → other = block) :
    NoLeak (state.written handle inode block offset bytes) := by
  have positive : 0 < bytes.length := List.length_pos_iff.mpr something
  have atInode : (state.written handle inode block offset bytes).inodeTable inode =
      { state.inodeTable inode with
        iSize := max (state.inodeTable inode).iSize (offset + bytes.length)
        iDataBlock := block } := State.setInode_apply_self _ _
  have owns : (state.written handle inode block offset bytes).OwnsBlock inode (block : Int) := by
    refine ⟨taken, by rw [atInode], ?_⟩
    intro _
    rw [atInode]
    exact Nat.lt_of_lt_of_le (by omega) (Nat.le_max_right _ _)
  intro other otherTaken
  by_cases same : other = block
  · subst other
    exact ⟨inode, owns⟩
  · obtain ⟨owner, ownerOwns⟩ := noLeak other otherTaken
    have different : owner ≠ inode := by
      intro equal
      subst equal
      exact same (own other ownerOwns)
    exact ⟨owner, ownerOwns.of_same ownerOwns.1 (State.setInode_apply_of_ne _ different)⟩

/-- Every other block is owned, and the new one has an owner at hand. -/
private theorem NoLeak.adopt (noLeak : NoLeak state) {block inode : Nat} {next : State}
    (marks : next.freeBlocks = Function.update state.freeBlocks block .taken)
    (size : next.dataBlocks = state.dataBlocks)
    (owns : next.OwnsBlock inode (block : Int))
    (kept : ∀ owner other, state.OwnsBlock owner other → next.OwnsBlock owner other) :
    NoLeak next := by
  rintro other ⟨inside, taken⟩
  rw [marks] at taken
  rw [size] at inside
  by_cases same : other = block
  · subst other
    exact ⟨inode, owns⟩
  · rw [Function.update_of_ne same] at taken
    obtain ⟨owner, ownerOwns⟩ := noLeak other ⟨inside, taken⟩
    exact ⟨owner, kept owner _ ownerOwns⟩

/-! ### Effects -/

theorem HandleEffect.noLeak {inode offset : Nat} {result : Int}
    (effect : HandleEffect state inode offset result state') (noLeak : NoLeak state) :
    NoLeak state' := by
  cases effect with
  | full _ => exact noLeak
  | opened _ => exact noLeak

theorem OpenEffect.noLeak {path : CString} {mode : TfsFileMode} {result : Int}
    (effect : OpenEffect state path mode result state') (noLeak : NoLeak state)
    (inv : Invariant state none) : NoLeak state' := by
  cases effect with
  | invalid _ => exact noLeak
  | missing _ _ _ => exact noLeak
  | noInode _ _ _ _ => exact noLeak
  | refused _ _ _ first _ => exact noLeak.setInode_of_free first.unused
  | existing _ binds _ handle =>
      obtain ⟨nonzero, taken⟩ := inv.binds_taken binds
      exact handle.noLeak (noLeak.truncated inv taken nonzero mode)
  | created _ _ _ first _ _ handle =>
      have taken := @NoLeak.takeInode _ noLeak _ (newInode .tFile) first.2.1 first.unused
      exact handle.noLeak taken

theorem CloseEffect.noLeak {fhandle result : Int}
    (effect : CloseEffect state fhandle result state') (noLeak : NoLeak state)
    (inv : Invariant state none) : NoLeak state' := by
  cases effect with
  | invalid _ => exact noLeak
  | @deleted handle inode _ opened refers _ _ =>
      obtain ⟨held, holds, nonzero, taken, isFile⟩ := inv.holders.handleHolds handle opened
      have same : held = inode := by omega
      subst held
      exact @NoLeak.deleteInode (state.closeHandle handle) _ noLeak (inv.closeHandle opened refers)
        _ taken nonzero isFile
  | kept _ _ _ _ => exact noLeak

theorem WriteEffect.noLeak {handle inode toWrite : Nat} {data : List UInt8} {result : Int}
    (effect : WriteEffect state handle inode data toWrite result state') (noLeak : NoLeak state)
    (inv : Invariant state none) (opened : state.HandleTaken handle)
    (refers : (state.openFileTable handle).ofInumber = (inode : Int)) : NoLeak state' := by
  obtain ⟨held, holds, nonzero, taken, isFile⟩ := inv.holders.handleHolds handle opened
  have same : held = inode := by omega
  subst held
  have stored {length : Nat} (something : length ≠ 0) (within : length ≤ data.length) :
      data.take length ≠ [] := by
    intro none
    have counted := congrArg List.length none
    rw [List.length_take, List.length_nil] at counted
    omega
  cases effect with
  | nothing _ => exact noLeak
  | noBlock _ _ _ => exact noLeak
  | @grown block length something _ within empty first _ =>
      have blockNonzero := (inv.freeBlock_address first).1
      have atInode : ((state.setFreeBlock block .taken).written handle inode block
          (state.clampedOffset handle inode) (data.take length)).inodeTable inode =
          { state.inodeTable inode with
            iSize := max (state.inodeTable inode).iSize
              (state.clampedOffset handle inode + (data.take length).length)
            iDataBlock := block } := State.setInode_apply_self _ _
      have positive := List.length_pos_iff.mpr (stored something within)
      refine @NoLeak.adopt _ noLeak block inode _ rfl rfl ⟨taken, ?_, ?_⟩ ?_
      · rw [atInode]
      · intro _
        rw [atInode]
        exact Nat.lt_of_lt_of_le (by omega) (Nat.le_max_right _ _)
      · intro owner other owns
        have different : owner ≠ inode := by
          intro equal
          subst equal
          have nonempty := owns.2.2 isFile
          omega
        exact owns.of_same owns.1 (State.setInode_apply_of_ne _ different)
  | @overwritten block length something _ within _ blockEq =>
      refine noLeak.written taken (stored something within) ?_
      intro other owns
      have same := owns.2.1
      omega

theorem SymLinkEffect.noLeak {target link : CString} {result : Int}
    (effect : SymLinkEffect state target link result state') (noLeak : NoLeak state)
    (targetValid : ValidPathname target) (linkValid : ValidPathname link)
    (leakFree : LeakFree state (.tfsSymLink (some target) (some link))) : NoLeak state' := by
  cases effect with
  | same _ => exact noLeak
  | noInode _ => exact noLeak
  | noBlock first _ => exact noLeak.setInode_of_free first.unused
  | refused different firstInode firstBlock _ refuses =>
      obtain ⟨short, unbound, room⟩ := leakFree targetValid linkValid different firstInode.some
        firstBlock.some
      rcases refuses with invalid | bound | full
      · exact (invalid short).elim
      · exact (bound unbound).elim
      · exact (State.DirectoryFull.none full room).elim
  | @linked inode block slot _ firstInode firstBlock _ _ _ _ =>
      have atInode : ((state.targetStored block target).takeInode inode
          { newInode .tSymLink with iDataBlock := block }).inodeTable inode =
            { newInode .tSymLink with iDataBlock := block } := State.setInode_apply_self _ _
      refine @NoLeak.adopt state noLeak block inode _ rfl rfl ⟨?_, ?_, ?_⟩ ?_
      · exact (@State.takeInode_taken (state.targetStored block target) _ _
          { newInode .tSymLink with iDataBlock := block } firstInode.2.1).mpr
            (Or.inl rfl)
      · exact congrArg Inode.iDataBlock atInode
      · intro isFile
        have isSymLink := congrArg Inode.iNodeType atInode
        cases isFile.symm.trans isSymLink
      · intro owner other owns
        have different : owner ≠ inode := fun same => firstInode.unused (same ▸ owns.1)
        refine owns.of_same ?_ (State.setInode_apply_of_ne _ different)
        exact (@State.takeInode_taken (state.targetStored block target) _ _
          { newInode .tSymLink with iDataBlock := block } firstInode.2.1).mpr
            (Or.inr owns.1)

theorem LinkEffect.noLeak {target link : CString} {result : Int}
    (effect : LinkEffect state target link result state') (noLeak : NoLeak state) :
    NoLeak state' := by
  cases effect with
  | missing _ => exact noLeak
  | refused _ _ => exact noLeak
  | symLink _ _ _ _ _ => exact noLeak
  | linked _ _ _ _ _ => exact @NoLeak.setLinks (state.bindEntry _ _ _) noLeak _ _

theorem UnlinkEffect.noLeak {target : CString} {result : Int}
    (effect : UnlinkEffect state target result state') (noLeak : NoLeak state)
    (inv : Invariant state none) (valid : ValidPathname target)
    (leakFree : LeakFree state (.tfsUnlink (some target))) : NoLeak state' := by
  cases effect with
  | missing _ => exact noLeak
  | @deleted inode slot short live named holds _ _ =>
      have binds : state.Binds target.tail inode := ⟨short, slot, live, named, holds⟩
      obtain ⟨nonzero, taken⟩ := inv.binds_taken binds
      have isFile : (state.inodeTable inode).iNodeType = .tFile := by
        cases kind : (state.inodeTable inode).iNodeType with
        | tFile => rfl
        | tDirectory => exact (inv.inodes.onlyRoot inode taken nonzero kind).elim
        | tSymLink => exact (leakFree valid inode binds kind).elim
      obtain ⟨dropped, _⟩ := inv.linkDropped live holds
      have unlinked := @NoLeak.setLinks (state.scrubEntry slot) noLeak inode
        (sizeSub (state.inodeTable inode).iHardLinks 1)
      refine @NoLeak.deleteInode ((state.scrubEntry slot).linkDropped inode) _ unlinked dropped _
        taken nonzero ?_
      rw [State.linkDropped, State.setLinks_apply, if_pos rfl]
      exact isFile
  | @kept inode slot _ _ _ _ _ =>
      exact @NoLeak.setLinks (state.scrubEntry slot) noLeak inode _

theorem CallEffect.noLeak {call : Call} {result : CallResult}
    (effect : CallEffect state call result state') (noLeak : NoLeak state)
    (inv : Invariant state none) (leakFree : LeakFree state call) : NoLeak state' := by
  cases effect with
  | openNull _ => exact noLeak
  | opens _ opened => exact opened.noLeak noLeak inv
  | closes closed => exact closed.noLeak noLeak inv
  | writeRefused _ _ => exact noLeak
  | writes opened refers written => exact written.noLeak noLeak inv opened refers
  | readRefused _ _ => exact noLeak
  | reads _ _ read => cases read <;> exact noLeak
  | symLinkInvalid _ => exact noLeak
  | symLinks targetValid linkValid linked =>
      exact linked.noLeak noLeak targetValid linkValid leakFree
  | linkInvalid _ => exact noLeak
  | links _ _ linked => exact linked.noLeak noLeak
  | unlinkInvalid _ => exact noLeak
  | unlinks valid unlinked => exact unlinked.noLeak noLeak inv valid leakFree

theorem Initial.noLeak (initial : Initial state) : NoLeak state := by
  intro block taken
  rw [(initial.firstBlockOnly block).mp taken]
  refine ⟨0, initial.root.inodeTaken, initial.root.inFirstBlock, ?_⟩
  intro isFile
  rw [initial.root.isDirectory] at isFile
  cases isFile

/-! ### Runs -/

/-- In a run that unlinks no symbolic link and in which no entry of a new symbolic link is
refused, every TAKEN block is owned; once every name is unlinked and every handle closed
only the root's block is TAKEN. -/
theorem no_block_leak {params : TfsParams} (reachable : Reachable params LeakFree state) :
    (∀ block, block < params.maxBlockCount → state.freeBlocks block = .taken →
      ∃ inode, state.OwnsBlock inode (block : Int)) ∧
    ((∀ slot, ¬ state.EntryLive slot) → (∀ handle, ¬ state.HandleTaken handle) →
      ∀ block, block < params.maxBlockCount →
        (state.freeBlocks block = .taken ↔ block = 0)) := by
  have noLeak : NoLeak state := by
    refine reachable.preserves (fun _ initial => initial.noLeak) ?_ ?_
    · intro before call result after inv _ leakFree effect noLeak
      exact effect.noLeak noLeak inv leakFree
    · intro before call result after inv isData effect noLeak
      refine effect.noLeak noLeak inv ?_
      cases call with
      | tfsUnlink target => exact isData.elim
      | tfsSymLink target link => exact isData.elim
      | _ => trivial
  obtain ⟨inv, same⟩ := reachable.invariant
  subst same
  refine ⟨fun block inside taken => noLeak block ⟨inside, taken⟩, ?_⟩
  intro noEntry noHandle block inside
  constructor
  · intro taken
    obtain ⟨inode, owns⟩ := noLeak block ⟨inside, taken⟩
    rcases inv.taken_iff.mp owns.1 with root | ⟨slot, slotInside, holds⟩ | ⟨handle, opened, _⟩
    · subst inode
      have first := owns.2.1.symm.trans inv.root.inFirstBlock
      omega
    · exact (noEntry slot ⟨slotInside, by rw [holds]; omega⟩).elim
    · exact (noHandle handle opened).elim
  · rintro rfl
    exact inv.root.blockTaken.2

/-- A file written, closed and opened again with `TFS_O_TRUNC` leaves no block behind. -/
theorem no_block_leak_truncated :
    ∃ state, afterCalls smallParams
      [.tfsOpen (some pathA) ⟨true, false, false⟩, .tfsWrite 0 (some [1, 2]) 2, .tfsClose 0,
        .tfsOpen (some pathA) ⟨false, true, false⟩] = some state ∧
      ∀ block, block < smallParams.maxBlockCount → state.freeBlocks block = .taken →
        ∃ inode, state.OwnsBlock inode (block : Int) := by
  obtain ⟨state, returned, _⟩ := afterCalls_any smallParams
    [.tfsOpen (some pathA) ⟨true, false, false⟩, .tfsWrite 0 (some [1, 2]) 2, .tfsClose 0,
      .tfsOpen (some pathA) ⟨false, true, false⟩]
    (fun _ => true) (by decide +kernel)
  have noLeak := no_block_leak (.afterCalls (fun call member state => by
    simp only [List.mem_cons, List.not_mem_nil, or_false] at member
    rcases member with rfl | rfl | rfl | rfl <;> trivial) returned)
  exact ⟨state, returned, noLeak.1⟩

/-- The block of the link `/b` stays TAKEN after `/b` was made and unlinked again. -/
theorem block_leak_unlinked :
    ¬ ∀ state, Reachable smallParams (fun _ _ => True) state →
      ∀ block, block < smallParams.maxBlockCount → state.freeBlocks block = .taken →
        ∃ inode, state.OwnsBlock inode (block : Int) := by
  intro claimed
  obtain ⟨state, returned, facts⟩ := afterCalls_any smallParams
    [.tfsSymLink (some pathA) (some pathB), .tfsUnlink (some pathB)]
    (fun state => decide (state.freeBlocks 1 = .taken ∧ state.freeinodeTs 1 = .free ∧
      state.freeinodeTs 2 = .free))
    (by decide +kernel)
  obtain ⟨blockTaken, firstFree, secondFree⟩ := of_decide_eq_true facts
  have reachable : Reachable smallParams (fun _ _ => True) state :=
    .afterCalls (fun _ _ _ => trivial) returned
  obtain ⟨inode, ⟨inside, taken⟩, isBlock, _⟩ := claimed state reachable 1 (by decide) blockTaken
  obtain ⟨inv, same⟩ := reachable.invariant
  have small : inode < 3 := by
    change inode < state.fsParams.maxInodeCount at inside
    rw [same] at inside
    exact inside
  have root : inode = 0 := by
    by_contra nonzero
    have cases : inode = 1 ∨ inode = 2 := by omega
    rcases cases with rfl | rfl
    · rw [firstFree] at taken
      cases taken
    · rw [secondFree] at taken
      cases taken
  subst inode
  have first := isBlock.symm.trans inv.root.inFirstBlock
  omega

end TecnicoFS.FileSystem
