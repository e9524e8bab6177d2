/-
What holds of the tables in every state the public calls reach: the life of inodes,
their link counts and the ownership of blocks.
-/

import TecnicoFS.FileSystem.Refinement

set_option autoImplicit false

namespace TecnicoFS.FileSystem

variable {params : TfsParams} {state : State}

/-- An inode is allocated exactly as long as something refers to it. -/
theorem Invariant.taken_iff (inv : Invariant state none) {inode : Nat} :
    state.InodeTaken inode ↔ inode = 0 ∨
      (∃ slot, slot < state.maxDirEntries ∧ state.entryInumber slot = (inode : Int)) ∨
      state.IsOpen inode := by
  constructor
  · intro taken
    by_cases root : inode = 0
    · exact Or.inl root
    · right
      rw [← state.entryCount_ne_zero_iff]
      exact inv.counts.used inode taken root id
  · rintro (root | ⟨slot, inside, holds⟩ | ⟨handle, taken, refers⟩)
    · subst inode
      exact inv.root.inodeTaken
    · obtain ⟨held, holds', _, taken⟩ :=
        inv.holders.entryHolds slot ⟨inside, by rw [holds]; omega⟩
      have same : held = inode := by omega
      subst held
      exact taken
    · obtain ⟨held, refers', _, heldTaken, _⟩ := inv.holders.handleHolds handle taken
      have same : held = inode := by omega
      subst held
      exact heldTaken

/-- The life of inodes over runs: allocated means used, link counts count entries, entries
and handles refer to allocated inodes of the right type, and no assertion fails.  Where
the tables fit, every admissible call returns unless it follows a cycle of links. -/
theorem inode_lifetime (reachable : Reachable params (AdmissibleIn params) state) :
    (∀ inode, inode < params.maxInodeCount → (state.freeinodeTs inode = .taken ↔
      inode = 0 ∨
      (∃ slot, slot < params.blockSize / dirEntrySize ∧
        state.entryInumber slot = (inode : Int)) ∨
      ∃ handle, handle < params.maxOpenFilesCount ∧
        state.freeOpenFileEntries handle = .taken ∧
        (state.openFileTable handle).ofInumber = (inode : Int))) ∧
    (∀ inode, inode < params.maxInodeCount → state.freeinodeTs inode = .taken → inode ≠ 0 →
      (state.inodeTable inode).iHardLinks = state.entryCount inode) ∧
    (∀ slot, slot < params.blockSize / dirEntrySize → state.entryInumber slot ≠ -1 →
      ∃ inode : Nat, state.entryInumber slot = (inode : Int) ∧ inode ≠ 0 ∧
        inode < params.maxInodeCount ∧ state.freeinodeTs inode = .taken) ∧
    (∀ handle, handle < params.maxOpenFilesCount → state.freeOpenFileEntries handle = .taken →
      ∃ inode : Nat, (state.openFileTable handle).ofInumber = (inode : Int) ∧
        inode < params.maxInodeCount ∧ state.freeinodeTs inode = .taken ∧
        (state.inodeTable inode).iNodeType = .tFile) ∧
    (∀ call message, Call.run call state ≠ .error (.panic message)) ∧
    (params.Fits → ∀ call, Call.Admissible params.blockSize call →
      ¬ call.FollowsCycle state → ∃ result state', call.run state = .ok (result, state')) := by
  obtain ⟨inv, same⟩ := reachable.invariant
  obtain ⟨model, represents, _⟩ := reachable.represents
  subst same
  refine ⟨?_, ?_, ?_, ?_, reachable.noPanic, ?_⟩
  · intro inode inside
    have used := @Invariant.taken_iff _ inv inode
    constructor
    · intro taken
      refine (used.mp ⟨inside, taken⟩).imp id (Or.imp id ?_)
      rintro ⟨handle, ⟨handleInside, handleTaken⟩, refers⟩
      exact ⟨handle, handleInside, handleTaken, refers⟩
    · intro inUse
      refine (used.mpr (inUse.imp id (Or.imp id ?_))).2
      rintro ⟨handle, handleInside, handleTaken, refers⟩
      exact ⟨handle, ⟨handleInside, handleTaken⟩, refers⟩
  · intro inode inside taken nonzero
    exact inv.counts.linkCount inode ⟨inside, taken⟩ nonzero
  · intro slot inside live
    obtain ⟨inode, holds, nonzero, taken⟩ := inv.holders.entryHolds slot ⟨inside, live⟩
    exact ⟨inode, holds, nonzero, taken.1, taken.2⟩
  · intro handle inside handleTaken
    obtain ⟨inode, refers, _, taken, isFile⟩ :=
      inv.holders.handleHolds handle ⟨inside, handleTaken⟩
    exact ⟨inode, refers, taken.1, taken.2, isFile⟩
  · intro fits call admissible acyclic
    rcases call_returns represents inv fits admissible with returned | ⟨_, cycle⟩
    · exact returned
    · exact (acyclic cycle).elim

/-- A file that was linked, opened and unlinked keeps its link count exact. -/
theorem inode_lifetime_linked :
    ∃ state, afterCalls smallParams
      [.tfsOpen (some pathA) ⟨true, false, false⟩, .tfsLink (some pathA) (some pathB),
        .tfsUnlink (some pathA)] = some state ∧
      (state.inodeTable 1).iHardLinks = state.entryCount 1 := by
  obtain ⟨state, returned, taken⟩ := afterCalls_any smallParams
    [.tfsOpen (some pathA) ⟨true, false, false⟩, .tfsLink (some pathA) (some pathB),
      .tfsUnlink (some pathA)]
    (fun state => decide (state.freeinodeTs 1 = .taken)) (by decide +kernel)
  have lifetime := inode_lifetime (.afterCalls (fun call member state => by
    simp only [List.mem_cons, List.not_mem_nil, or_false] at member
    rcases member with rfl | rfl | rfl <;> trivial) returned)
  exact ⟨state, returned, lifetime.2.1 1 (by decide) (of_decide_eq_true taken) (by decide)⟩

/-- Two allocated inodes never own one block, an owned block is a TAKEN one, and
`data_block_alloc` hands out a block nobody owns. -/
theorem block_exclusivity (reachable : Reachable params (AdmissibleIn params) state) :
    (∀ inode block, state.OwnsBlock inode block → ∃ slot : Nat, block = (slot : Int) ∧
      slot < params.maxBlockCount ∧ state.freeBlocks slot = .taken) ∧
    (∀ left right block, state.OwnsBlock left block → state.OwnsBlock right block →
      left = right) ∧
    (∀ block state', dataBlockAlloc state = .ok (block, state') → block ≠ -1 →
      ∀ inode, ¬ state.OwnsBlock inode block) ∧
    (∀ call message, Call.run call state ≠ .error (.panic message)) := by
  obtain ⟨inv, same⟩ := reachable.invariant
  subst same
  refine ⟨?_, inv.blocks.exclusive, ?_, reachable.noPanic⟩
  · intro inode block owns
    by_cases root : inode = 0
    · subst inode
      exact ⟨0, owns.2.1.symm.trans inv.root.inFirstBlock, inv.root.blockTaken.1,
        inv.root.blockTaken.2⟩
    · obtain ⟨slot, blockEq, _, taken⟩ := inv.blocks.owned inode block owns root
      exact ⟨slot, blockEq, taken.1, taken.2⟩
  · intro block state' returned found inode owns
    rcases (@outcome_dataBlockAlloc NoPanic _ inv.geometry.blockSizePos
      (fun _ _ _ _ _ => Or.inl rfl)).of_ok returned with ⟨failed, _⟩ | ⟨slot, blockEq, _, first⟩
    · exact found failed
    · subst blockEq
      exact inv.free_unowned first.2.2.1 (inv.freeBlock_address first).1 inode owns

/-- After a file was written and truncated through a second handle, its block is free
again, and the blocks of the remaining inodes are their own. -/
theorem block_exclusivity_truncated :
    ∃ state, afterCalls smallParams
      [.tfsOpen (some pathA) ⟨true, false, false⟩, .tfsWrite 0 (some [1, 2]) 2,
        .tfsOpen (some pathA) ⟨false, true, false⟩, .tfsSymLink (some pathA) (some pathB)] =
          some state ∧
      ∀ left right block, state.OwnsBlock left block → state.OwnsBlock right block →
        left = right := by
  obtain ⟨state, returned, _⟩ := afterCalls_any smallParams
    [.tfsOpen (some pathA) ⟨true, false, false⟩, .tfsWrite 0 (some [1, 2]) 2,
      .tfsOpen (some pathA) ⟨false, true, false⟩, .tfsSymLink (some pathA) (some pathB)]
    (fun _ => true) (by decide +kernel)
  have exclusive := block_exclusivity (.afterCalls (fun call member state => by
    simp only [List.mem_cons, List.not_mem_nil, or_false] at member
    rcases member with rfl | rfl | rfl | rfl
    · trivial
    · exact ⟨by decide, by decide⟩
    · trivial
    · exact (by decide : pathA.strlen < smallParams.blockSize)) returned)
  exact ⟨state, returned, exclusive.2.1⟩

end TecnicoFS.FileSystem
