/-
The public operations have the effects listed before and no others.

Each theorem starts in a state that satisfies the invariant.  No theorem admits a
failed assertion; undefined behaviour is admitted only where a caller asks for it.
-/

import TecnicoFS.FileSystem.Effects

set_option autoImplicit false

namespace TecnicoFS.FileSystem

open FaultAction TableSearch

variable {faults : Fault → Prop} {state : State} {slack : Slack}

/-- Where the run of `tfs_open` may follow a symbolic link without a terminated target. -/
def Readable (faults : Fault → Prop) (state : State) : Prop :=
  faults .undefined ∨ ∀ inode, state.InodeTaken inode →
    (state.inodeTable inode).iNodeType = .tSymLink → ∃ target, state.targetOf inode = some target

theorem Invariant.binds_taken (inv : Invariant state slack) {name : CString} {inode : Nat}
    (binds : state.Binds name inode) : inode ≠ 0 ∧ state.InodeTaken inode := by
  obtain ⟨_, slot, live, _, holds⟩ := binds
  obtain ⟨held, holds', nonzero, taken⟩ := inv.holders.entryHolds slot live
  have same : held = inode := by omega
  subst held
  exact ⟨nonzero, taken⟩

/-- A file that is not empty has a block to give back. -/
theorem Invariant.backed (inv : Invariant state slack) {inode : Nat}
    (taken : state.InodeTaken inode) (nonzero : inode ≠ 0)
    (nonempty : 0 < (state.inodeTable inode).iSize) :
    ∃ block : Nat, (state.inodeTable inode).iDataBlock = (block : Int) ∧ block ≠ 0 ∧
      state.BlockTaken block ∧ state.OwnsBlock inode block := by
  have owns : state.OwnsBlock inode (state.inodeTable inode).iDataBlock :=
    ⟨taken, rfl, fun _ => nonempty⟩
  obtain ⟨block, same, blockNonzero, blockTaken⟩ := inv.blocks.owned inode _ owns nonzero
  rw [same] at owns
  exact ⟨block, same, blockNonzero, blockTaken, owns⟩

theorem outcome_tfsLookup (inv : Invariant state slack) (searchable : Searchable faults state)
    (name : CString) :
    Outcome faults (tfsLookup name 0 state) (fun result state' => state' = state ∧
      ((result = -1 ∧ (¬ ValidPathname name ∨ state.NotFound name.tail)) ∨
        ∃ inode : Nat, result = (inode : Int) ∧ state.Binds name.tail inode)) := by
  unfold tfsLookup
  apply outcome_get_bind
  apply outcome_ite
  · intro elsewhere
    exact (elsewhere inv.root.inFirstBlock).elim
  intro _
  apply outcome_ite
  · intro invalid
    exact outcome_pure ⟨rfl, Or.inl ⟨rfl, Or.inl invalid⟩⟩
  intro _
  apply (outcome_findInDir inv.root inv.geometry inv.holders searchable).mono
  rintro result state' ⟨same, ⟨failed, missing⟩ | found⟩
  · exact ⟨same, Or.inl ⟨failed, Or.inr missing⟩⟩
  · exact ⟨same, Or.inr found⟩

/-- `valid_pathname` passes a name on unchanged. -/
theorem validPathname_some {name : Option CString} {path : CString}
    (valid : validPathname name = some path) : name = some path ∧ ValidPathname path := by
  unfold validPathname at valid
  rw [Option.filter_eq_some_iff] at valid
  exact ⟨valid.1, of_decide_eq_true valid.2⟩

theorem validPathname_none {path : CString} (invalid : validPathname (some path) = none) :
    ¬ ValidPathname path := by
  unfold validPathname at invalid
  rw [Option.filter_eq_none_iff] at invalid
  intro valid
  exact invalid path rfl (decide_eq_true valid)

/-! ### Opening -/

theorem outcome_openHandle (wide : Wide faults state) {inode offset : Nat}
    (taken : state.InodeTaken inode) :
    Outcome faults (addToOpenFileTable (inode : Int) offset state)
      (HandleEffect state inode offset) := by
  apply (outcome_addToOpenFileTable wide.handlesCounted taken).mono
  rintro result state' (⟨rfl, rfl, full⟩ | ⟨handle, rfl, rfl, first⟩)
  · exact .full full
  · exact .opened first

/-- Truncating gives the block of a file back that is not empty. -/
theorem outcome_truncateBacked {inode : Nat}
    (backed : 0 < (state.inodeTable inode).iSize → ∃ block : Nat,
      (state.inodeTable inode).iDataBlock = (block : Int) ∧ block < state.dataBlocks)
    (mode : TfsFileMode) :
    Outcome faults (truncateFile inode mode state)
      (fun _ state' => state' = state.truncated inode mode) := by
  unfold truncateFile State.truncated
  apply outcome_get_bind
  by_cases truncates : mode.tfsOTrunc = true ∧ 0 < (state.inodeTable inode).iSize
  · rw [if_pos truncates, if_pos truncates]
    obtain ⟨block, same, inside⟩ := backed truncates.2
    have released : state.releaseBlock inode = state.setFreeBlock block .free := by
      unfold State.releaseBlock
      rw [if_pos truncates.2, same, Int.toNat_natCast]
    rw [released, same]
    apply outcome_bind (@outcome_dataBlockFree _ _ _
      (fun _ state' => state' = state.setFreeBlock block .free) inside rfl)
    rintro _ _ rfl
    apply outcome_modify
    unfold State.resizeFile
    rw [← same]
    rfl
  · rw [if_neg truncates, if_neg truncates]
    exact outcome_pure rfl

theorem outcome_truncateFile (inv : Invariant state none) {inode : Nat}
    (taken : state.InodeTaken inode) (nonzero : inode ≠ 0) (mode : TfsFileMode) :
    Outcome faults (truncateFile inode mode state)
      (fun _ state' => state' = state.truncated inode mode) := by
  apply outcome_truncateBacked
  intro nonempty
  obtain ⟨block, same, _, blockTaken, _⟩ := inv.backed taken nonzero nonempty
  exact ⟨block, same, blockTaken.1⟩

theorem State.truncated_taken {inode other : Nat} {mode : TfsFileMode} :
    (state.truncated inode mode).InodeTaken other ↔ state.InodeTaken other := by
  unfold State.truncated State.releaseBlock
  split
  · split <;> exact Iff.rfl
  · exact Iff.rfl

theorem State.truncated_fits {inode : Nat} {mode : TfsFileMode} :
    (state.truncated inode mode).Fits ↔ state.Fits := by
  unfold State.truncated State.releaseBlock
  split
  · split <;> exact Iff.rfl
  · exact Iff.rfl

theorem outcome_openExisting (inv : Invariant state none) (wide : Wide faults state)
    {inode : Nat} (taken : state.InodeTaken inode) (nonzero : inode ≠ 0) (mode : TfsFileMode) :
    Outcome faults (openExisting (inode : Int) inode mode state)
      (HandleEffect (state.truncated inode mode) inode (state.initialOffset inode mode)) := by
  unfold openExisting
  apply outcome_bind (outcome_truncateFile inv taken nonzero mode)
  rintro _ _ rfl
  apply outcome_get_bind
  apply outcome_openHandle
  · exact wide.imp id State.truncated_fits.mpr
  · exact State.truncated_taken.mpr taken

/-- Taking a free inode and deleting it at once only sets the fields of the free inode. -/
theorem State.deleteInode_takeInode {slot : Nat} {inode : Inode}
    (isFree : state.freeinodeTs slot = .free) (empty : inode.iSize = 0) :
    (state.takeInode slot inode).deleteInode slot =
      state.setInode slot { inode with iSize := 0, iDataBlock := -1, iHardLinks := 1 } := by
  have atSlot : (state.takeInode slot inode).inodeTable slot = inode := Function.update_self _ _ _
  have kept : Function.update state.freeinodeTs slot .free = state.freeinodeTs := by
    rw [← isFree, Function.update_eq_self]
  unfold State.deleteInode State.releaseBlock
  rw [atSlot, empty, if_neg (Nat.lt_irrefl 0)]
  simp only [State.takeInode, State.dropInode, State.setInode, State.setFreeinode,
    Function.update_idem, kept]

theorem State.notFound_of_refused {name : CString}
    (notFound : state.NotFound name)
    (refused : ¬ validSubName name ∨ ¬ state.Unbound name ∨ state.DirectoryFull) :
    state.Refuses name := by
  rcases refused with invalid | bound | full
  · exact Or.inl invalid
  · exact Or.inl (notFound.resolve_right bound)
  · exact Or.inr full

/-- What the creating branch of `tfs_open` does before the open file table is reached -/
inductive CreateEffect (state : State) (name : CString) : Int → State → Prop where
  | noInode : state.NoFreeInode → CreateEffect state name (-1) state
  | refused {inode : Nat} : state.FirstFreeInode inode → state.Refuses name →
      CreateEffect state name (-1) (state.setInode inode (newInode .tFile))
  | created {inode slot : Nat} : state.Unbound name → state.FirstFreeInode inode →
      validSubName name → state.FirstDead slot →
      CreateEffect state name inode (state.created inode slot name)

theorem State.created_taken {inode slot : Nat} {name : CString}
    (inside : inode < state.inodeTableSize) :
    (state.created inode slot name).InodeTaken inode :=
  (@State.takeInode_taken _ _ _ (newInode .tFile) inside).mpr (Or.inl rfl)

theorem outcome_createFile (inv : Invariant state none) (wide : Wide faults state)
    {path : CString} (notFound : state.NotFound path.tail) :
    Outcome faults (createFile 0 path state) (CreateEffect state path.tail) := by
  unfold createFile
  apply outcome_bind (outcome_inodeCreate (by decide) inv.geometry.blockSizePos wide.inodesReached)
  rintro result state' (⟨rfl, rfl, full⟩ | ⟨inode, rfl, rfl, first⟩)
  · rw [if_pos rfl]
    exact outcome_pure (.noInode full)
  · have notFailed : ¬ (inode : Int) = -1 := by omega
    rw [if_neg notFailed]
    have unused : ¬ state.InodeTaken inode := by
      rintro ⟨_, taken⟩
      rw [first.2.2.1] at taken
      cases taken
    have takenInv := @Invariant.takeInode _ _ (newInode .tFile) inv first.2.1 unused first.1
      (by decide) rfl rfl (fun impossible => by cases impossible)
    apply outcome_bind (outcome_addDirEntry takenInv.root takenInv.geometry first.2.1)
    rintro added state' (⟨rfl, rfl, refused⟩ | ⟨slot, rfl, rfl, short, unbound, dead⟩)
    · rw [if_pos rfl]
      apply outcome_bind (@outcome_inodeDelete _ _ _
        (fun _ state' => state' = state.setInode inode (newInode .tFile)) _ _ _)
      · rintro _ _ rfl
        exact outcome_pure (.refused first (State.notFound_of_refused notFound refused))
      · exact (State.takeInode_taken first.2.1).mpr (Or.inl rfl)
      · intro nonempty
        rw [State.takeInode, State.setInode_apply_self] at nonempty
        exact (Nat.lt_irrefl 0 nonempty).elim
      · exact State.deleteInode_takeInode first.2.2.1 rfl
    · rw [if_neg (by decide)]
      exact outcome_pure (.created unbound first short dead)

/-- The target is read where the inode's block lies. -/
theorem outcome_targetOf {inode : Nat}
    (guarded : (∀ fault, faults fault) ∨
      ∃ block : Nat, (state.inodeTable inode).iDataBlock = (block : Int) ∧
        block < state.dataBlocks)
    (unended : state.targetOf inode = none → faults .undefined) :
    Outcome faults (symLinkTarget inode state)
      (fun target after => after = state ∧ state.targetOf inode = some target) := by
  unfold symLinkTarget dataBlockGet
  apply outcome_get_bind
  apply @outcome_bind _ _ _ _ _ _ _ _ (fun address after => after = state ∧
    address = (state.inodeTable inode).iDataBlock.toNat * state.blockSize % 2 ^ 64)
  · apply outcome_get_bind
    apply outcome_require_bind
    · intro _
      exact outcome_pure ⟨rfl, rfl⟩
    · intro invalid
      rcases guarded with all | ⟨block, same, inside⟩
      · exact all _
      · exact (invalid (by rw [same]; exact ⟨by omega, by simpa using inside⟩)).elim
  · rintro address after ⟨same, rfl⟩
    subst after
    have target : CString.ofMemory state.fsData
        ((state.inodeTable inode).iDataBlock.toNat * state.blockSize % 2 ^ 64)
        (state.dataBytes - (state.inodeTable inode).iDataBlock.toNat * state.blockSize % 2 ^ 64) =
          state.targetOf inode := rfl
    rw [target]
    cases stored : state.targetOf inode with
    | some text => exact outcome_pure ⟨rfl, rfl⟩
    | none => exact outcome_fail (unended stored)

theorem outcome_symLinkTarget (inv : Invariant state none) (readable : Readable faults state)
    {inode : Nat} (taken : state.InodeTaken inode) (nonzero : inode ≠ 0)
    (isSymLink : (state.inodeTable inode).iNodeType = .tSymLink) :
    Outcome faults (symLinkTarget inode state) (fun target state' => state' = state ∧
      state.targetOf inode = some target) := by
  have owns : state.OwnsBlock inode (state.inodeTable inode).iDataBlock := by
    refine ⟨taken, rfl, ?_⟩
    intro isFile
    rw [isSymLink] at isFile
    cases isFile
  obtain ⟨block, same, _, blockTaken⟩ := inv.blocks.owned inode _ owns nonzero
  apply outcome_targetOf (Or.inr ⟨block, same, blockTaken.1⟩)
  intro unended
  refine readable.resolve_right ?_
  intro terminated
  obtain ⟨text, found⟩ := terminated inode taken isSymLink
  rw [unended] at found
  cases found

/-- `tfs_open` follows symbolic links without touching the state and then opens the
final name. -/
theorem outcome_tfsOpenFuel (inv : Invariant state none) (wide : Wide faults state)
    (readable : Readable faults state) (mode : TfsFileMode) (fuel : Nat) (path : CString)
    (cyclic : Chains.Chain state.LinksTo fuel path → faults .diverges) :
    Outcome faults (tfsOpenFuel fuel (some path) mode state) (fun result state' =>
      ∃ final, state.Resolves path final ∧ OpenEffect state final mode result state') := by
  induction fuel generalizing path with
  | zero => exact outcome_fail (cyclic trivial)
  | succ fuel inductionHypothesis =>
      unfold tfsOpenFuel
      cases validity : validPathname (some path) with
      | none =>
          exact outcome_pure ⟨path, .refl, .invalid (validPathname_none validity)⟩
      | some accepted =>
          obtain ⟨same, valid⟩ := validPathname_some validity
          cases same
          apply outcome_bind (@outcome_inodeGet _ _ 0 inv.root.inodeTaken.1)
          rintro _ state' ⟨rfl, same⟩
          subst state'
          apply outcome_bind (outcome_tfsLookup inv wide.searchable path)
          rintro inum state' ⟨same, ⟨rfl, missing⟩ | ⟨inode, rfl, binds⟩⟩
          · subst state'
            have notFound := missing.resolve_left (fun invalid => invalid valid)
            rw [if_neg (by decide)]
            apply outcome_ite
            · intro creates
              apply outcome_bind (outcome_createFile inv wide notFound)
              intro result state' effect
              cases effect with
              | noInode full =>
                  rw [if_pos rfl]
                  exact outcome_pure ⟨path, .refl, .noInode valid notFound creates full⟩
              | refused first refuses =>
                  rw [if_pos rfl]
                  exact outcome_pure
                    ⟨path, .refl, .refused valid notFound creates first refuses⟩
              | created unbound first short dead =>
                  rw [if_neg (by omega)]
                  apply (@outcome_openHandle _ (state.created _ _ path.tail) wide _ _
                    (State.created_taken first.2.1)).mono
                  intro result state' effect
                  exact ⟨path, .refl,
                    .created valid unbound creates first short dead effect⟩
            · intro creates
              rw [Bool.not_eq_true] at creates
              exact outcome_pure ⟨path, .refl, .missing valid notFound creates⟩
          · subst state'
            obtain ⟨nonzero, taken⟩ := inv.binds_taken binds
            rw [if_pos (by omega)]
            apply outcome_bind (outcome_inodeGet taken.1)
            rintro found state' ⟨foundEq, same⟩
            subst found
            subst state'
            apply outcome_get_bind
            apply outcome_require_bind
            · intro notDirectory
              apply outcome_ite
              · intro isSymLink
                apply outcome_bind (outcome_symLinkTarget inv readable taken nonzero isSymLink)
                rintro target state' ⟨same, stored⟩
                subst state'
                have follows : state.LinksTo path target :=
                  ⟨valid, inode, binds, isSymLink, stored⟩
                apply (inductionHypothesis target
                  (fun chain => cyclic ⟨target, follows, chain⟩)).mono
                rintro result state' ⟨final, resolves, effect⟩
                exact ⟨final, .head follows resolves, effect⟩
              · intro notSymLink
                have isFile : (state.inodeTable inode).iNodeType = .tFile := by
                  cases kind : (state.inodeTable inode).iNodeType with
                  | tFile => rfl
                  | tDirectory => exact (notDirectory kind).elim
                  | tSymLink => exact (notSymLink kind).elim
                apply (outcome_openExisting inv wide taken nonzero mode).mono
                intro result state' effect
                exact ⟨path, .refl, .existing valid binds isFile effect⟩
            · intro isDirectory
              rw [not_not] at isDirectory
              exact (inv.inodes.onlyRoot inode taken nonzero isDirectory).elim

/-! ### Closing -/

/-- The block of a file that `inode_delete` is about to give back is a valid one. -/
theorem Invariant.deletable (inv : Invariant state slack) {inode : Nat}
    (taken : state.InodeTaken inode) (nonzero : inode ≠ 0)
    (nonempty : 0 < (state.inodeTable inode).iSize) :
    ∃ block : Nat, (state.inodeTable inode).iDataBlock = (block : Int) ∧
      block < state.dataBlocks := by
  obtain ⟨block, same, _, blockTaken, _⟩ := inv.backed taken nonzero nonempty
  exact ⟨block, same, blockTaken.1⟩

theorem outcome_tfsClose (inv : Invariant state none) (wide : Wide faults state)
    (fhandle : Int) : Outcome faults (tfsClose fhandle state) (CloseEffect state fhandle) := by
  unfold tfsClose removeFromOpenFileTable
  apply outcome_bind outcome_getOpenFileEntry
  rintro found state' ⟨same, facts⟩
  subst state'
  cases found with
  | none => exact outcome_pure (.invalid facts)
  | some handle =>
      obtain ⟨rfl, opened⟩ := facts
      obtain ⟨inode, refers, nonzero, taken, _⟩ := inv.holders.handleHolds handle opened
      apply outcome_get_bind
      rw [refers]
      apply outcome_require_bind
      · intro _
        apply outcome_require_bind
        · intro _
          apply outcome_require_bind
          · intro _
            apply outcome_modify_bind
            rw [Int.toNat_natCast]
            apply outcome_bind (@outcome_inodeGet _ (state.closeHandle handle) _ taken.1)
            rintro found state' ⟨sameInode, same⟩
            subst found
            subst state'
            apply outcome_bind (@outcome_isFileOpen _ (state.closeHandle handle) wide _ taken.1
              (fun stillOpen state' => state' = state.closeHandle handle ∧
                (stillOpen = false ↔ ¬ (state.closeHandle handle).IsOpen inode))
              (fun isOpen => ⟨rfl, by simp [isOpen]⟩) (fun notOpen => ⟨rfl, by simp [notOpen]⟩))
            rintro stillOpen state' ⟨same, openness⟩
            subst state'
            by_cases last : (state.inodeTable inode).iHardLinks = 0 ∧ stillOpen = false
            · rw [if_pos last]
              apply outcome_bind (@outcome_inodeDelete _ (state.closeHandle handle) _
                (fun _ state' => state' = (state.closeHandle handle).deleteInode inode) taken
                (inv.deletable taken nonzero) rfl)
              rintro _ _ rfl
              exact outcome_pure (.deleted rfl opened refers last.1 (openness.mp last.2))
            · rw [if_neg last]
              refine outcome_pure (.kept rfl opened refers ?_)
              rw [Classical.not_and_iff_not_or_not, openness, not_not] at last
              exact last
          · intro notTaken
            exact (notTaken (by rw [Int.toNat_natCast]; exact opened.2)).elim
        · intro invalid
          exact (invalid ⟨by omega, by simpa using opened.1⟩).elim
      · intro deleted
        refine (deleted ⟨⟨by omega, ?_⟩, ?_⟩).elim
        · rw [Int.toNat_natCast]
          exact taken.1
        · rw [Int.toNat_natCast]
          exact taken.2

end TecnicoFS.FileSystem
