/-
Everything a section can do to the state and where it leaves its thread.

Between two sections the links of an inode may be uncounted and an open file entry may
refer to a FREE inode, so the sections rely on less than the public calls: on the
directory, on the blocks, and on what a thread knows about the inode it works on.
-/

import TecnicoFS.FileSystem.Sections

set_option autoImplicit false

namespace TecnicoFS.FileSystem

open FaultAction TableSearch

/-! ### What the sections rely on -/

/-- An inode that is or was allocated for a file or a symbolic link -/
structure NodeOk (state : State) (inode : Nat) : Prop where
  nonRoot : inode ≠ 0
  inside : inode < state.inodeTableSize
  notDirectory : (state.inodeTable inode).iNodeType ≠ .tDirectory
  backed : 0 < (state.inodeTable inode).iSize →
    ∃ block : Nat, (state.inodeTable inode).iDataBlock = (block : Int) ∧ block ≠ 0 ∧
      block < state.dataBlocks

structure StoreOk (state : State) : Prop where
  geometry : GeometryOk state
  root : RootOk state
  directory : DirectoryOk state
  nodes : ∀ inode, state.InodeTaken inode → inode ≠ 0 → NodeOk state inode
  fits : ∀ inode, state.InodeTaken inode → inode < 2 ^ 31
  blocks : ∀ block, state.BlockTaken block → block ≠ 0 →
    block * state.blockSize < state.dataBytes
  handles : ∀ handle, state.HandleTaken handle →
    ∃ inode : Nat, (state.openFileTable handle).ofInumber = (inode : Int) ∧ NodeOk state inode

/-- Live slots hold inumbers of allocated inodes. -/
def State.EntriesHeld (state : State) : Prop :=
  ∀ slot, state.EntryLive slot →
    ∃ inode : Nat, state.entryInumber slot = (inode : Int) ∧ inode ≠ 0 ∧ state.InodeTaken inode

/-- A live slot carries the name and holds the inode. -/
def State.EntryBinds (state : State) (slot : Nat) (name : CString) (inode : Nat) : Prop :=
  validSubName name ∧ state.EntryLive slot ∧ state.EntryNamed slot name ∧
    state.entryInumber slot = (inode : Int)

/-- What a thread knows about the inode it works on -/
def TfsPoint.Sound (state : State) : TfsPoint → Prop
  | .openFound _ _ inum | .openReady inum _ | .openChecked inum _ =>
      ∃ inode : Nat, inum = (inode : Int) ∧ NodeOk state inode
  | .openCreated _ inum | .openFailed inum | .symCreated _ _ inum | .symStored _ inum
  | .symFailed inum | .linkFound _ inum | .unlinkCleared inum =>
      ∃ inode : Nat, inum = (inode : Int) ∧ NodeOk state inode ∧ state.InodeTaken inode
  | .linkWithdraw name inum | .linkCount name inum | .unlinkFound name inum =>
      ∃ inode slot : Nat, inum = (inode : Int) ∧ NodeOk state inode ∧ state.InodeTaken inode ∧
        state.EntryBinds slot name.tail inode
  | _ => True

/-- The assertions of the section hold that a concurrent thread could break. -/
def TfsPoint.Guarded (state : State) : TfsPoint → Prop
  | .openFound _ _ inum => (state.inodeTable inum.toNat).iNodeType = .tSymLink →
      ∃ block : Nat, (state.inodeTable inum.toNat).iDataBlock = (block : Int) ∧
        block < state.dataBlocks
  | .closeFound fhandle => ∃ handle inode : Nat, fhandle = (handle : Int) ∧
      state.HandleTaken handle ∧ (state.openFileTable handle).ofInumber = (inode : Int) ∧
      state.InodeTaken inode
  | _ => True

/-! ### Effects -/

/-- The path is no name the directory holds. -/
def State.Missing (state : State) (path : CString) : Prop :=
  ¬ ValidPathname path ∨ state.NotFound path.tail

/-- `add_dir_entry` fails for this name. -/
def State.Declines (state : State) (name : CString) : Prop :=
  ¬ validSubName name ∨ ¬ state.Unbound name ∨ state.DirectoryFull

/-- `add_dir_entry` fills this slot with the name. -/
def State.Accepts (state : State) (slot : Nat) (name : CString) : Prop :=
  validSubName name ∧ state.Unbound name ∧ state.FirstDead slot

/-- The inode with the target of a symbolic link in a new block -/
def State.linkStored (state : State) (inode block : Nat) (target : CString) : State :=
  ((state.setFreeBlock block .taken).setInode inode
    { state.inodeTable inode with iDataBlock := block }).store
      (block * state.blockSize % 2 ^ 64) (target.bytes ++ [0])

inductive SectionEffect (state : State) : TfsPoint → TfsPoint → State → Prop where
  | openFinds {path : CString} {mode : TfsFileMode} {inode : Nat} :
      state.Binds path.tail inode →
      SectionEffect state (.openEnter path mode) (.openFound path mode inode) state
  | openAbsent {path : CString} {mode : TfsFileMode} : state.Missing path →
      mode.tfsOCreat = true → SectionEffect state (.openEnter path mode) (.openAbsent path) state
  | openMissing {path : CString} {mode : TfsFileMode} : state.Missing path →
      mode.tfsOCreat = false →
      SectionEffect state (.openEnter path mode) (.returned (-1)) state
  | openFollows {path target : CString} {mode : TfsFileMode} {inode : Nat} :
      (state.inodeTable inode).iNodeType = .tSymLink → state.targetOf inode = some target →
      SectionEffect state (.openFound path mode inode) (enterOpen (some target) mode) state
  | openTruncates {path : CString} {mode : TfsFileMode} {inode : Nat} :
      (state.inodeTable inode).iNodeType = .tFile →
      SectionEffect state (.openFound path mode inode)
        (.openReady inode (state.initialOffset inode mode)) (state.truncated inode mode)
  | openNoInode {path : CString} : state.NoFreeInode →
      SectionEffect state (.openAbsent path) (.returned (-1)) state
  | openCreates {path : CString} {inode : Nat} : state.FirstFreeInode inode →
      SectionEffect state (.openAbsent path) (.openCreated path inode)
        (state.takeInode inode (newInode .tFile))
  | openEnters {path : CString} {inode slot : Nat} : state.Accepts slot path.tail →
      SectionEffect state (.openCreated path inode) (.openReady inode 0)
        (state.bindEntry slot path.tail inode)
  | openDeclined {path : CString} {inode : Nat} : state.Declines path.tail →
      SectionEffect state (.openCreated path inode) (.openFailed inode) state
  | openDeletes {inode : Nat} :
      SectionEffect state (.openFailed inode) (.returned (-1)) (state.deleteInode inode)
  | openGone {inode offset : Nat} : ¬ state.InodeTaken inode →
      SectionEffect state (.openReady inode offset) (.returned (-1)) state
  | openChecks {inode offset : Nat} : state.InodeTaken inode →
      SectionEffect state (.openReady inode offset) (.openChecked inode offset) state
  | openNoHandle {inode offset : Nat} : state.NoFreeHandle →
      SectionEffect state (.openChecked inode offset) (.returned (-1)) state
  | openReturns {inode offset handle : Nat} : state.FirstFreeHandle handle →
      SectionEffect state (.openChecked inode offset) (.returned handle)
        (state.openHandle handle { ofInumber := inode, ofOffset := offset })
  | closeInvalid {fhandle : Int} :
      (∀ handle : Nat, fhandle = (handle : Int) → ¬ state.HandleTaken handle) →
      SectionEffect state (.closeEnter fhandle) (.returned (-1)) state
  | closeFinds {handle : Nat} : state.HandleTaken handle →
      SectionEffect state (.closeEnter handle) (.closeFound handle) state
  | closes {handle inode : Nat} : state.HandleTaken handle →
      (state.openFileTable handle).ofInumber = (inode : Int) → state.InodeTaken inode →
      ((state.inodeTable inode).iHardLinks ≠ 0 ∨ (state.closeHandle handle).IsOpen inode) →
      SectionEffect state (.closeFound handle) (.returned 0) (state.closeHandle handle)
  | closesLast {handle inode : Nat} : state.HandleTaken handle →
      (state.openFileTable handle).ofInumber = (inode : Int) → state.InodeTaken inode →
      (state.inodeTable inode).iHardLinks = 0 → ¬ (state.closeHandle handle).IsOpen inode →
      SectionEffect state (.closeFound handle) (.returned 0)
        ((state.closeHandle handle).deleteInode inode)
  | symNoInode {target link : CString} : state.NoFreeInode →
      SectionEffect state (.symEnter target link) (.returned (-1)) state
  | symCreates {target link : CString} {inode : Nat} : state.FirstFreeInode inode →
      SectionEffect state (.symEnter target link) (.symCreated target link inode)
        (state.takeInode inode (newInode .tSymLink))
  | symNoBlock {target link : CString} {inode : Nat} : state.NoFreeBlock →
      SectionEffect state (.symCreated target link inode) (.symFailed inode) state
  | symStores {target link : CString} {inode block : Nat} : state.FirstFreeBlock block →
      block * state.blockSize % 2 ^ 64 + (target.strlen + 1) ≤ state.dataBytes →
      SectionEffect state (.symCreated target link inode) (.symStored link inode)
        (state.linkStored inode block target)
  | symEnters {link : CString} {inode slot : Nat} : state.Accepts slot link.tail →
      SectionEffect state (.symStored link inode) (.returned 0)
        (state.bindEntry slot link.tail inode)
  | symDeclined {link : CString} {inode : Nat} : state.Declines link.tail →
      SectionEffect state (.symStored link inode) (.symFailed inode) state
  | symDeletes {inode : Nat} :
      SectionEffect state (.symFailed inode) (.returned (-1)) (state.deleteInode inode)
  | linkFinds {target link : CString} {inode : Nat} : state.Binds target.tail inode →
      SectionEffect state (.linkEnter target link) (.linkFound link inode) state
  | linkMissing {target link : CString} : state.Missing target →
      SectionEffect state (.linkEnter target link) (.returned (-1)) state
  | linkDeclined {link : CString} {inode : Nat} : state.Declines link.tail →
      SectionEffect state (.linkFound link inode) (.returned (-1)) state
  | linkPublishes {link : CString} {inode slot : Nat} : state.Accepts slot link.tail →
      (state.inodeTable inode).iNodeType ≠ .tSymLink →
      SectionEffect state (.linkFound link inode) (.linkCount link inode)
        (state.bindEntry slot link.tail inode)
  | linkRetracts {link : CString} {inode slot : Nat} : state.Accepts slot link.tail →
      (state.inodeTable inode).iNodeType = .tSymLink →
      SectionEffect state (.linkFound link inode) (.linkWithdraw link inode)
        (state.bindEntry slot link.tail inode)
  | linkClears {link : CString} {inode slot : Nat} : state.EntryBinds slot link.tail inode →
      SectionEffect state (.linkWithdraw link inode) (.returned (-1)) (state.scrubEntry slot)
  | linkCounts {link : CString} {inode : Nat} :
      SectionEffect state (.linkCount link inode) (.returned 0)
        (state.setLinks inode (sizeAdd (state.inodeTable inode).iHardLinks 1))
  | unlinkFinds {target : CString} {inode : Nat} : state.Binds target.tail inode →
      SectionEffect state (.unlinkEnter target) (.unlinkFound target inode) state
  | unlinkMissing {target : CString} : state.Missing target →
      SectionEffect state (.unlinkEnter target) (.returned (-1)) state
  | unlinkClears {target : CString} {inode slot : Nat} : state.EntryBinds slot target.tail inode →
      SectionEffect state (.unlinkFound target inode) (.unlinkCleared inode)
        (state.scrubEntry slot)
  | unlinkDrops {inode : Nat} :
      (sizeSub (state.inodeTable inode).iHardLinks 1 ≠ 0 ∨ state.IsOpen inode) →
      SectionEffect state (.unlinkCleared inode) (.returned 0) (state.linkDropped inode)
  | unlinkDeletes {inode : Nat} : sizeSub (state.inodeTable inode).iHardLinks 1 = 0 →
      ¬ state.IsOpen inode →
      SectionEffect state (.unlinkCleared inode) (.returned 0)
        ((state.linkDropped inode).deleteInode inode)

/-! ### Sections -/

section

variable {faults : Fault → Prop} {state : State}

theorem outcome_rootLookup (undef : faults .undefined) (ok : StoreOk state)
    (held : state.EntriesHeld) (path : CString) :
    Outcome faults (tfsLookup path 0 state) (fun result after => after = state ∧
      ((result = -1 ∧ state.Missing path) ∨
        ∃ inode : Nat, result = (inode : Int) ∧ state.Binds path.tail inode)) := by
  unfold tfsLookup
  apply outcome_get_bind
  apply outcome_ite
  · intro elsewhere
    exact (elsewhere ok.root.inFirstBlock).elim
  intro _
  apply outcome_ite
  · intro invalid
    exact outcome_pure ⟨rfl, Or.inl ⟨rfl, Or.inl invalid⟩⟩
  intro _
  apply (outcome_findInDir_slot ok.root ok.geometry (Or.inl undef)).mono
  rintro result after ⟨same, ⟨failed, missing⟩ | ⟨slot, found, valid, live, named⟩⟩
  · exact ⟨same, Or.inl ⟨failed, Or.inr missing⟩⟩
  · obtain ⟨inode, holds, _⟩ := held slot live
    exact ⟨same, Or.inr ⟨inode, found.trans holds, valid, slot, live, named, holds⟩⟩

theorem outcome_openLookup (undef : faults .undefined) (ok : StoreOk state)
    (held : state.EntriesHeld) (path : CString) (mode : TfsFileMode) :
    Outcome faults (openLookup path mode state) (SectionEffect state (.openEnter path mode)) := by
  unfold openLookup
  apply outcome_bind (@outcome_inodeGet _ _ 0 ok.root.inodeTaken.1)
  rintro _ after ⟨rfl, same⟩
  subst after
  apply outcome_bind (outcome_rootLookup undef ok held path)
  rintro inum after ⟨same, ⟨rfl, missing⟩ | ⟨inode, rfl, binds⟩⟩
  · subst after
    rw [if_neg (by decide)]
    apply outcome_ite
    · intro creates
      exact outcome_pure (.openAbsent missing creates)
    · intro creates
      rw [Bool.not_eq_true] at creates
      exact outcome_pure (.openMissing missing creates)
  · subst after
    rw [if_pos (by omega)]
    exact outcome_pure (.openFinds binds)

theorem outcome_truncateNode {inode : Nat} (node : NodeOk state inode) (mode : TfsFileMode) :
    Outcome faults (truncateFile inode mode state)
      (fun _ after => after = state.truncated inode mode) := by
  apply outcome_truncateBacked
  intro nonempty
  obtain ⟨block, same, _, inside⟩ := node.backed nonempty
  exact ⟨block, same, inside⟩

theorem outcome_openInode (undef : faults .undefined) {path : CString} {mode : TfsFileMode}
    {inode : Nat} (node : NodeOk state inode)
    (guarded : (∀ fault, faults fault) ∨ (TfsPoint.openFound path mode inode).Guarded state) :
    Outcome faults (openInode mode inode state)
      (SectionEffect state (.openFound path mode inode)) := by
  unfold openInode
  apply outcome_bind (outcome_inodeGet node.inside)
  rintro found after ⟨foundEq, same⟩
  subst found
  subst after
  apply outcome_get_bind
  apply outcome_require_bind
  · intro notDirectory
    apply outcome_ite
    · intro isSymLink
      apply outcome_bind (outcome_targetOf (guarded.imp id (fun guard => guard isSymLink))
        (fun _ => undef))
      rintro target after ⟨same, stored⟩
      subst after
      exact outcome_pure (.openFollows isSymLink stored)
    · intro notSymLink
      have isFile : (state.inodeTable inode).iNodeType = .tFile := by
        cases kind : (state.inodeTable inode).iNodeType with
        | tFile => rfl
        | tDirectory => exact (notDirectory kind).elim
        | tSymLink => exact (notSymLink kind).elim
      apply outcome_bind (outcome_truncateNode node mode)
      rintro _ _ rfl
      exact outcome_get_bind (outcome_pure (.openTruncates isFile))
  · intro isDirectory
    exact (isDirectory node.notDirectory).elim

/-- `inode_create` finds a FREE inode or finds none. -/
theorem outcome_createInode (undef : faults .undefined) (ok : StoreOk state) {iType : InodeType}
    (notDirectory : iType ≠ .tDirectory) {created : Int → TfsPoint} :
    Outcome faults (createInode iType created state) (fun next after =>
      (next = .returned (-1) ∧ after = state ∧ state.NoFreeInode) ∨
      ∃ inode : Nat, next = created inode ∧ after = state.takeInode inode (newInode iType) ∧
        state.FirstFreeInode inode) := by
  unfold createInode
  apply outcome_bind (outcome_inodeCreate notDirectory ok.geometry.blockSizePos
    (fun _ _ _ _ _ => undef))
  rintro inum after (⟨rfl, rfl, full⟩ | ⟨inode, rfl, rfl, first⟩)
  · rw [if_pos rfl]
    exact outcome_pure (Or.inl ⟨rfl, rfl, full⟩)
  · rw [if_neg (by omega)]
    exact outcome_pure (Or.inr ⟨inode, rfl, rfl, first⟩)

/-- `add_dir_entry` on the root fills the first dead slot or leaves the directory alone. -/
theorem outcome_rootEntry (ok : StoreOk state) {link : CString} {inode : Nat}
    (inside : inode < state.inodeTableSize) :
    Outcome faults (addDirEntry 0 link.tail inode state) (fun result after =>
      (result = -1 ∧ after = state ∧ state.Declines link.tail) ∨
      ∃ slot, result = 0 ∧ after = state.bindEntry slot link.tail inode ∧
        state.Accepts slot link.tail) :=
  outcome_addDirEntry ok.root ok.geometry inside

theorem outcome_enterRoot (ok : StoreOk state) {link : CString} {inode : Nat}
    {added failed : TfsPoint} (inside : inode < state.inodeTableSize) :
    Outcome faults (enterRoot link inode added failed state) (fun next after =>
      (next = failed ∧ after = state ∧ state.Declines link.tail) ∨
      ∃ slot, next = added ∧ after = state.bindEntry slot link.tail inode ∧
        state.Accepts slot link.tail) := by
  unfold enterRoot
  apply outcome_bind (@outcome_inodeGet _ _ 0 ok.root.inodeTaken.1)
  rintro _ after ⟨rfl, same⟩
  subst after
  apply outcome_bind (outcome_rootEntry ok inside)
  rintro result after (⟨rfl, rfl, declines⟩ | ⟨slot, rfl, rfl, accepts⟩)
  · rw [if_pos rfl]
    exact outcome_pure (Or.inl ⟨rfl, rfl, declines⟩)
  · rw [if_neg (by decide)]
    exact outcome_pure (Or.inr ⟨slot, rfl, rfl, accepts⟩)

theorem NodeOk.deletable {inode : Nat} (node : NodeOk state inode)
    (nonempty : 0 < (state.inodeTable inode).iSize) :
    ∃ block : Nat, (state.inodeTable inode).iDataBlock = (block : Int) ∧
      block < state.dataBlocks := by
  obtain ⟨block, same, _, inside⟩ := node.backed nonempty
  exact ⟨block, same, inside⟩

theorem outcome_deleteFailed {inode : Nat} (node : NodeOk state inode)
    (taken : state.InodeTaken inode) :
    Outcome faults (deleteFailed inode state)
      (fun next after => next = .returned (-1) ∧ after = state.deleteInode inode) := by
  unfold deleteFailed
  apply outcome_bind (@outcome_inodeDelete _ _ _
    (fun _ after => after = state.deleteInode inode) taken node.deletable rfl)
  rintro _ _ rfl
  exact outcome_pure ⟨rfl, rfl⟩

theorem outcome_recheck {inode offset : Nat} (node : NodeOk state inode) :
    Outcome faults (recheck inode offset state) (SectionEffect state (.openReady inode offset)) := by
  unfold recheck
  apply outcome_get_bind
  apply outcome_ite
  · intro invalid
    exact (invalid ⟨by omega, by simpa using node.inside⟩).elim
  intro _
  rw [Int.toNat_natCast]
  apply outcome_ite
  · intro notTaken
    exact outcome_pure (.openGone (fun taken => notTaken taken.2))
  · intro taken
    rw [not_not] at taken
    exact outcome_pure (.openChecks ⟨node.inside, taken⟩)

theorem outcome_takeOpenFileEntry (undef : faults .undefined) {inode offset : Nat} :
    Outcome faults (takeOpenFileEntry inode offset state)
      (SectionEffect state (.openChecked inode offset)) := by
  unfold takeOpenFileEntry
  apply outcome_get_bind
  have marked (handle : Nat) (unfree : (state.freeOpenFileEntries handle == .free) = false) :
      state.freeOpenFileEntries handle = .taken := by
    cases mark : state.freeOpenFileEntries handle with
    | free => simp [mark] at unfree
    | taken => rfl
  apply outcome_bind (@outcome_intSearch _ _ _ _
    (fun found after => after = state ∧
      Found state.FirstFreeHandle state.NoFreeHandle found) ?_ ?_ ?_)
  · rintro found after ⟨same, facts⟩
    subst after
    cases found with
    | none => exact outcome_pure (.openNoHandle facts)
    | some handle =>
        exact outcome_modify_bind (outcome_modify_bind (outcome_pure (.openReturns facts)))
  · intro handle inside small passes before
    exact ⟨rfl, small, inside, by simpa using passes,
      fun earlier lower => marked earlier (before earlier lower)⟩
  · intro absent
    exact ⟨rfl, fun handle inside => marked handle (absent handle inside)⟩
  · intro _
    exact undef

theorem outcome_closeLookup (fhandle : Int) :
    Outcome faults (closeLookup fhandle state) (SectionEffect state (.closeEnter fhandle)) := by
  unfold closeLookup
  apply outcome_bind outcome_getOpenFileEntry
  rintro found after ⟨same, facts⟩
  subst after
  cases found with
  | none => exact outcome_pure (.closeInvalid facts)
  | some handle =>
      obtain ⟨rfl, taken⟩ := facts
      exact outcome_pure (.closeFinds taken)

/-- What the assertions of `remove_from_open_file_table` check -/
theorem TfsPoint.guarded_closeFound {fhandle : Int} :
    (TfsPoint.closeFound fhandle).Guarded state ↔
      state.ValidFileContent (state.openFileTable fhandle.toNat).ofInumber ∧
        state.ValidFileHandle fhandle ∧ state.freeOpenFileEntries fhandle.toNat = .taken := by
  constructor
  · rintro ⟨handle, inode, rfl, ⟨inside, marked⟩, refers, taken⟩
    rw [Int.toNat_natCast, refers]
    exact ⟨⟨⟨by omega, by simpa using taken.1⟩, by simpa using taken.2⟩,
      ⟨by omega, by simpa using inside⟩, marked⟩
  · rintro ⟨⟨⟨natural, inside⟩, taken⟩, ⟨positive, within⟩, marked⟩
    exact ⟨fhandle.toNat, _, (Int.toNat_of_nonneg positive).symm, ⟨within, marked⟩,
      (Int.toNat_of_nonneg natural).symm, inside, taken⟩

theorem outcome_closeEntry (undef : faults .undefined) (ok : StoreOk state) {fhandle : Int}
    (guarded : (∀ fault, faults fault) ∨ (TfsPoint.closeFound fhandle).Guarded state) :
    Outcome faults (closeEntry fhandle state) (SectionEffect state (.closeFound fhandle)) := by
  have checks := guarded.imp id TfsPoint.guarded_closeFound.mp
  unfold closeEntry
  apply outcome_get_bind
  apply outcome_require_bind _ (fun unmet => checks.elim (fun all => all _)
    (fun met => (unmet met.1).elim))
  intro content
  apply outcome_require_bind _ (fun unmet => checks.elim (fun all => all _)
    (fun met => (unmet met.2.1).elim))
  intro valid
  apply outcome_require_bind _ (fun unmet => checks.elim (fun all => all _)
    (fun met => (unmet met.2.2).elim))
  intro marked
  obtain ⟨handle, inode, rfl, opened, refers, taken⟩ :=
    TfsPoint.guarded_closeFound.mpr ⟨content, valid, marked⟩
  have node : NodeOk state inode := by
    obtain ⟨held, refers', node⟩ := ok.handles handle opened
    have same : held = inode := by omega
    exact same ▸ node
  rw [Int.toNat_natCast, refers]
  apply outcome_modify_bind
  apply outcome_bind (@outcome_inodeGet _ (state.closeHandle handle) _ taken.1)
  rintro found after ⟨sameInode, same⟩
  subst found
  subst after
  apply outcome_bind (@outcome_isFileOpen _ (state.closeHandle handle) (Or.inl undef) _ taken.1
    (fun stillOpen after => after = state.closeHandle handle ∧
      (stillOpen = false ↔ ¬ (state.closeHandle handle).IsOpen inode))
    (fun isOpen => ⟨rfl, by simp [isOpen]⟩) (fun notOpen => ⟨rfl, by simp [notOpen]⟩))
  rintro stillOpen after ⟨same, openness⟩
  subst after
  apply outcome_ite
  · intro last
    apply outcome_bind (@outcome_inodeDelete _ (state.closeHandle handle) _
      (fun _ after => after = (state.closeHandle handle).deleteInode inode) taken
      node.deletable rfl)
    rintro _ _ rfl
    exact outcome_pure (.closesLast opened refers taken last.1 (openness.mp last.2))
  · intro used
    rw [Classical.not_and_iff_not_or_not, openness, not_not] at used
    exact outcome_pure (.closes opened refers taken used)

theorem outcome_symStore (undef : faults .undefined) (ok : StoreOk state)
    (target link : CString) {inode : Nat} (inside : inode < state.inodeTableSize) :
    Outcome faults (symStore target link inode state)
      (SectionEffect state (.symCreated target link inode)) := by
  unfold symStore
  apply outcome_bind (outcome_inodeGet inside)
  rintro found after ⟨foundEq, same⟩
  subst found
  subst after
  apply outcome_bind (outcome_dataBlockAlloc ok.geometry.blockSizePos (fun _ _ _ _ _ => undef))
  rintro bnum after (⟨rfl, rfl, full⟩ | ⟨block, rfl, rfl, first⟩)
  · rw [if_pos rfl]
    exact outcome_pure (.symNoBlock full)
  · rw [if_neg (by omega)]
    apply outcome_modify_bind
    apply outcome_bind (@outcome_dataBlockGet _ ((state.setFreeBlock block .taken).setInode inode
      { state.inodeTable inode with iDataBlock := block }) _ first.2.1)
    rintro _ after ⟨rfl, same⟩
    subst after
    apply outcome_bind (@outcome_storeBytes _ _ _ _ (fun _ after =>
      after = state.linkStored inode block target ∧
        block * state.blockSize % 2 ^ 64 + (target.strlen + 1) ≤ state.dataBytes)
      (fun fits => ⟨rfl, by
        rw [List.length_append] at fits
        exact fits⟩) (fun _ => undef))
    rintro _ after ⟨rfl, fits⟩
    exact outcome_pure (.symStores first fits)

theorem outcome_linkLookup (undef : faults .undefined) (ok : StoreOk state)
    (held : state.EntriesHeld) (target link : CString) :
    Outcome faults (linkLookup target link state)
      (SectionEffect state (.linkEnter target link)) := by
  unfold linkLookup
  apply outcome_bind (@outcome_inodeGet _ _ 0 ok.root.inodeTaken.1)
  rintro _ after ⟨rfl, same⟩
  subst after
  apply outcome_bind (outcome_rootLookup undef ok held target)
  rintro inum after ⟨same, ⟨rfl, missing⟩ | ⟨inode, rfl, binds⟩⟩
  · subst after
    rw [if_pos rfl]
    exact outcome_pure (.linkMissing missing)
  · subst after
    rw [if_neg (by omega)]
    exact outcome_pure (.linkFinds binds)

theorem outcome_linkPublish (ok : StoreOk state) (link : CString) {inode : Nat}
    (inside : inode < state.inodeTableSize) :
    Outcome faults (linkPublish link inode state) (SectionEffect state (.linkFound link inode)) := by
  unfold linkPublish
  apply outcome_bind (@outcome_inodeGet _ _ 0 ok.root.inodeTaken.1)
  rintro _ after ⟨rfl, same⟩
  subst after
  apply outcome_bind (outcome_rootEntry ok inside)
  rintro result after (⟨rfl, rfl, declines⟩ | ⟨slot, rfl, rfl, accepts⟩)
  · rw [if_pos rfl]
    exact outcome_pure (.linkDeclined declines)
  · rw [if_neg (by decide)]
    apply outcome_bind (@outcome_inodeGet _ (state.bindEntry slot link.tail inode) _ inside)
    rintro found after ⟨foundEq, same⟩
    subst found
    subst after
    apply outcome_get_bind
    apply outcome_ite
    · intro isSymLink
      exact outcome_pure (.linkRetracts accepts isSymLink)
    · intro notSymLink
      exact outcome_pure (.linkPublishes accepts notSymLink)

/-- `clear_dir_entry` on the root clears the live slot with the name. -/
theorem outcome_rootClear (ok : StoreOk state) {name : CString} {inode slot : Nat}
    (binds : state.EntryBinds slot name inode) {post : Int → State → Prop}
    (holds : post 0 (state.scrubEntry slot)) : Outcome faults (clearDirEntry 0 name state) post := by
  obtain ⟨short, live, named, _⟩ := binds
  exact outcome_clearDirEntry ok.root ok.geometry short live.1 named
    (ok.directory.named_before short live named) holds

theorem outcome_linkClear (ok : StoreOk state) {link : CString} {inode slot : Nat}
    (binds : state.EntryBinds slot link.tail inode) :
    Outcome faults (linkClear link state) (SectionEffect state (.linkWithdraw link inode)) := by
  unfold linkClear
  apply outcome_bind (@outcome_inodeGet _ _ 0 ok.root.inodeTaken.1)
  rintro _ after ⟨rfl, same⟩
  subst after
  apply outcome_bind (@outcome_rootClear _ _ ok _ _ _ binds
    (fun _ after => after = state.scrubEntry slot) rfl)
  rintro _ _ rfl
  exact outcome_pure (.linkClears binds)

theorem outcome_unlinkLookup (undef : faults .undefined) (ok : StoreOk state)
    (held : state.EntriesHeld) (target : CString) :
    Outcome faults (unlinkLookup target state) (SectionEffect state (.unlinkEnter target)) := by
  unfold unlinkLookup
  apply outcome_bind (@outcome_inodeGet _ _ 0 ok.root.inodeTaken.1)
  rintro _ after ⟨rfl, same⟩
  subst after
  apply outcome_bind (outcome_rootLookup undef ok held target)
  rintro inum after ⟨same, ⟨rfl, missing⟩ | ⟨inode, rfl, binds⟩⟩
  · subst after
    rw [if_pos rfl]
    exact outcome_pure (.unlinkMissing missing)
  · subst after
    rw [if_neg (by omega)]
    obtain ⟨_, slot, live, _, holds⟩ := id binds
    obtain ⟨entered, holds', nonzero, taken⟩ := held slot live
    have same : entered = inode := by omega
    subst entered
    apply outcome_bind (outcome_inodeGet taken.1)
    rintro found after ⟨foundEq, same⟩
    subst found
    subst after
    apply outcome_get_bind
    apply outcome_require_bind
    · intro _
      exact outcome_pure (.unlinkFinds binds)
    · intro isDirectory
      exact (isDirectory (ok.nodes inode taken nonzero).notDirectory).elim

theorem outcome_unlinkClear (ok : StoreOk state) {target : CString} {inode slot : Nat}
    (binds : state.EntryBinds slot target.tail inode) :
    Outcome faults (unlinkClear target inode state)
      (SectionEffect state (.unlinkFound target inode)) := by
  unfold unlinkClear
  apply outcome_bind (@outcome_inodeGet _ _ 0 ok.root.inodeTaken.1)
  rintro _ after ⟨rfl, same⟩
  subst after
  apply outcome_bind (@outcome_rootClear _ _ ok _ _ _ binds
    (fun cleared after => cleared = 0 ∧ after = state.scrubEntry slot) ⟨rfl, rfl⟩)
  rintro _ _ ⟨rfl, rfl⟩
  rw [if_neg (by decide)]
  exact outcome_pure (.unlinkClears binds)

theorem outcome_unlinkDrop (undef : faults .undefined) {inode : Nat} (node : NodeOk state inode)
    (taken : state.InodeTaken inode) :
    Outcome faults (unlinkDrop inode state) (SectionEffect state (.unlinkCleared inode)) := by
  have atInode : (state.linkDropped inode).inodeTable inode = { state.inodeTable inode with
      iHardLinks := sizeSub (state.inodeTable inode).iHardLinks 1 } :=
    State.setInode_apply_self _ _
  unfold unlinkDrop dropHardLink
  rw [Int.toNat_natCast]
  apply @outcome_bind _ _ _ _ _ _ _ _ (fun _ after =>
    SectionEffect state (.unlinkCleared inode) (.returned 0) after)
  · apply outcome_modify_bind
    apply outcome_get_bind
    apply outcome_bind (@outcome_isFileOpen _ (state.linkDropped inode) (Or.inl undef) _ taken.1
      (fun stillOpen after => after = state.linkDropped inode ∧
        (stillOpen = false ↔ ¬ state.IsOpen inode))
      (fun isOpen => ⟨rfl, iff_of_false (by decide) (fun closed => closed isOpen)⟩)
      (fun notOpen => ⟨rfl, iff_of_true rfl notOpen⟩))
    rintro stillOpen after ⟨same, openness⟩
    subst after
    apply outcome_ite
    · intro last
      change ((state.linkDropped inode).inodeTable inode).iHardLinks = 0 ∧ _ at last
      rw [atInode] at last
      apply @outcome_inodeDelete _ (state.linkDropped inode) _ _ taken
      · rw [atInode]
        exact node.deletable
      · exact .unlinkDeletes last.1 (openness.mp last.2)
    · intro used
      change ¬ (((state.linkDropped inode).inodeTable inode).iHardLinks = 0 ∧ _) at used
      rw [atInode, Classical.not_and_iff_not_or_not, openness, not_not] at used
      exact outcome_pure (.unlinkDrops used)
  · intro _ after effect
    exact outcome_pure effect

/-! ### All sections -/

/-- A section has the effects listed above and no others.  It stops only where it is
undefined, or in an assertion that a concurrent thread could break. -/
theorem outcome_section (undef : faults .undefined) (ok : StoreOk state)
    (held : state.EntriesHeld) {point : TfsPoint} (sound : point.Sound state)
    (guarded : (∀ fault, faults fault) ∨ point.Guarded state) {body : TfsAction TfsPoint}
    (next : point.nextSection = some body) :
    Outcome faults (body state) (SectionEffect state point) := by
  cases point with
  | idle => cases next
  | returned => cases next
  | openEnter path mode =>
      cases next
      exact outcome_openLookup undef ok held path mode
  | openFound path mode inum =>
      cases next
      obtain ⟨inode, rfl, node⟩ := sound
      exact outcome_openInode undef node guarded
  | openAbsent path =>
      cases next
      apply (outcome_createInode undef ok (by decide)).mono
      rintro next after (⟨rfl, rfl, full⟩ | ⟨inode, rfl, rfl, first⟩)
      · exact .openNoInode full
      · exact .openCreates first
  | openCreated path inum =>
      cases next
      obtain ⟨inode, rfl, node, _⟩ := sound
      apply (outcome_enterRoot ok node.inside).mono
      rintro next after (⟨rfl, rfl, declines⟩ | ⟨slot, rfl, rfl, accepts⟩)
      · exact .openDeclined declines
      · exact .openEnters accepts
  | openFailed inum =>
      cases next
      obtain ⟨inode, rfl, node, taken⟩ := sound
      apply (outcome_deleteFailed node taken).mono
      rintro next after ⟨rfl, rfl⟩
      exact .openDeletes
  | openReady inum offset =>
      cases next
      obtain ⟨inode, rfl, node⟩ := sound
      exact outcome_recheck node
  | openChecked inum offset =>
      cases next
      obtain ⟨inode, rfl, _⟩ := sound
      exact outcome_takeOpenFileEntry undef
  | closeEnter fhandle =>
      cases next
      exact outcome_closeLookup fhandle
  | closeFound fhandle =>
      cases next
      exact outcome_closeEntry undef ok guarded
  | symEnter target link =>
      cases next
      apply (outcome_createInode undef ok (by decide)).mono
      rintro next after (⟨rfl, rfl, full⟩ | ⟨inode, rfl, rfl, first⟩)
      · exact .symNoInode full
      · exact .symCreates first
  | symCreated target link inum =>
      cases next
      obtain ⟨inode, rfl, node, _⟩ := sound
      exact outcome_symStore undef ok target link node.inside
  | symStored link inum =>
      cases next
      obtain ⟨inode, rfl, node, _⟩ := sound
      apply (outcome_enterRoot ok node.inside).mono
      rintro next after (⟨rfl, rfl, declines⟩ | ⟨slot, rfl, rfl, accepts⟩)
      · exact .symDeclined declines
      · exact .symEnters accepts
  | symFailed inum =>
      cases next
      obtain ⟨inode, rfl, node, taken⟩ := sound
      apply (outcome_deleteFailed node taken).mono
      rintro next after ⟨rfl, rfl⟩
      exact .symDeletes
  | linkEnter target link =>
      cases next
      exact outcome_linkLookup undef ok held target link
  | linkFound link inum =>
      cases next
      obtain ⟨inode, rfl, node, _⟩ := sound
      exact outcome_linkPublish ok link node.inside
  | linkWithdraw link inum =>
      cases next
      obtain ⟨inode, slot, rfl, _, _, binds⟩ := sound
      exact outcome_linkClear ok binds
  | linkCount link inum =>
      cases next
      obtain ⟨inode, slot, rfl, _, _, _⟩ := sound
      unfold linkIncrement
      rw [Int.toNat_natCast]
      exact outcome_modify_bind (outcome_pure .linkCounts)
  | unlinkEnter target =>
      cases next
      exact outcome_unlinkLookup undef ok held target
  | unlinkFound target inum =>
      cases next
      obtain ⟨inode, slot, rfl, _, _, binds⟩ := sound
      exact outcome_unlinkClear ok binds
  | unlinkCleared inum =>
      cases next
      obtain ⟨inode, rfl, node, taken⟩ := sound
      exact outcome_unlinkDrop undef node taken

end

end TecnicoFS.FileSystem
