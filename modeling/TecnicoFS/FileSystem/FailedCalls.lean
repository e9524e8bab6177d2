/-
What calls that return -1 leave behind.

Looked at through its calls, the file system is its names, the files, links and counts of
the inodes in use, the open files, and how many inodes and blocks are free.  The bytes of
a slot of any table that is not in use are no part of that.
-/

import TecnicoFS.FileSystem.Leaks
import TecnicoFS.FileSystem.Namespace

set_option autoImplicit false

namespace TecnicoFS.FileSystem

open FaultAction TableSearch

variable {params : TfsParams} {state state' : State}

namespace State

def freeInodeCount (state : State) : Nat :=
  Nat.count (fun inode => state.freeinodeTs inode = .free) state.inodeTableSize

def freeBlockCount (state : State) : Nat :=
  Nat.count (fun block => state.freeBlocks block = .free) state.dataBlocks

/-- Everything in use is as it was. -/
structure KeepsFiles (state state' : State) : Prop where
  taken : ∀ inode, state.InodeTaken inode → state'.InodeTaken inode
  links : ∀ inode, state.InodeTaken inode →
    (state'.inodeTable inode).iHardLinks = (state.inodeTable inode).iHardLinks
  files : ∀ inode contents, state.HoldsFile inode contents → state'.HoldsFile inode contents
  targets : ∀ inode, state.InodeTaken inode → (state.inodeTable inode).iNodeType = .tSymLink →
    (state'.inodeTable inode).iNodeType = .tSymLink ∧
      state'.targetOf inode = state.targetOf inode
  handles : state.SameHandles state'
  freeBlocks : state'.freeBlockCount = state.freeBlockCount

/-- No call tells the two states apart. -/
structure Unobserved (state state' : State) : Prop extends KeepsFiles state state' where
  onlyTaken : ∀ inode, state'.InodeTaken inode → state.InodeTaken inode
  names : state.SameNames state'
  freeInodes : state'.freeInodeCount = state.freeInodeCount

/-- The new empty file is the only difference. -/
structure LeavesFile (state state' : State) (name : CString) (inode : Nat) : Prop
    extends KeepsFiles state state' where
  onlyTaken : ∀ other, state'.InodeTaken other → other = inode ∨ state.InodeTaken other
  names : ∀ other held, state'.Binds other held ↔
    if other = name then held = inode else state.Binds other held
  empty : state'.HoldsFile inode []
  linkedOnce : (state'.inodeTable inode).iHardLinks = 1
  freeInodes : state'.freeInodeCount + 1 = state.freeInodeCount

end State

/-! ### The ways a call fails -/

theorem State.KeepsFiles.of_sameInodes (inv : Invariant state none)
    (area : state.SameArea state')
    (same : ∀ inode, state.InodeTaken inode → state.SameInode state' inode)
    (links : ∀ inode, state.InodeTaken inode →
      (state'.inodeTable inode).iHardLinks = (state.inodeTable inode).iHardLinks)
    (past : ∀ position, state.blockSize ≤ position →
      state'.fsData position = state.fsData position)
    (handles : state.SameHandles state') (marks : state'.freeBlocks = state.freeBlocks) :
    state.KeepsFiles state' where
  taken inode taken := (same inode taken).taken.mpr taken
  links := links
  files inode contents holds :=
    ((same inode holds.1).holdsFile area inv.inodes contents).mpr holds
  targets inode taken isSymLink := by
    have kept := same inode taken
    refine ⟨(kept.kind taken).trans isSymLink, ?_⟩
    obtain ⟨own, nonzero, blockTaken, _, address⟩ := inv.owned_address
      (by rw [isSymLink]; decide)
      ⟨taken, rfl, fun isFile => by rw [isSymLink] at isFile; cases isFile⟩
    have sizes : state'.blockSize = state.blockSize := congrArg TfsParams.blockSize area.1
    have small := inv.blockAddress blockTaken
    rw [← address] at small
    have whole : state.blockSize ≤ own * state.blockSize :=
      Nat.le_mul_of_pos_left _ (Nat.pos_of_ne_zero nonzero)
    unfold State.targetOf
    rw [kept.block taken, sizes, area.2]
    apply CString.ofMemory_congr
    intro position behind
    apply past
    rw [show (state.inodeTable inode).iDataBlock.toNat * state.blockSize =
      state.blockAddress inode from rfl, small, address] at behind
    omega
  handles := handles
  freeBlocks := by
    unfold State.freeBlockCount State.dataBlocks
    rw [marks, area.1]

theorem State.Unobserved.refl : state.Unobserved state where
  taken _ taken := taken
  links _ _ := rfl
  files _ _ holds := holds
  targets _ _ isSymLink := ⟨isSymLink, rfl⟩
  handles _ _ _ := Iff.rfl
  freeBlocks := rfl
  onlyTaken _ taken := taken
  names _ _ := Iff.rfl
  freeInodes := rfl

/-- The inode was given back. -/
theorem State.Unobserved.setInode (inv : Invariant state none) {slot : Nat}
    (unused : ¬ state.InodeTaken slot) (inode : Inode) :
    state.Unobserved (state.setInode slot inode) := by
  have different {other : Nat} (taken : state.InodeTaken other) : other ≠ slot :=
    fun same => unused (same ▸ taken)
  have kept : state.KeepsFiles (state.setInode slot inode) :=
    State.KeepsFiles.of_sameInodes inv ⟨rfl, rfl⟩
      (fun _ taken => State.sameInode_setInode inode (different taken))
      (fun _ taken => by rw [State.setInode_apply_of_ne inode (different taken)])
      (fun _ _ => rfl) (fun _ _ _ => Iff.rfl) rfl
  exact { kept with
    onlyTaken := fun _ taken => taken
    names := fun _ _ => Iff.rfl
    freeInodes := rfl }

/-- The entry was withdrawn. -/
theorem State.Unobserved.scrub_bind (inv : Invariant state none) {slot inode : Nat}
    {name : CString} (short : validSubName name) (fits : inode < 2 ^ 31)
    (dead : state.FirstDead slot) :
    state.Unobserved ((state.bindEntry slot name inode).scrubEntry slot) := by
  have past (position : Nat) (past : state.blockSize ≤ position) :
      ((state.bindEntry slot name inode).scrubEntry slot).fsData position =
        state.fsData position := State.scrub_bind_past short dead.1 past
  have kept : state.KeepsFiles ((state.bindEntry slot name inode).scrubEntry slot) :=
    State.KeepsFiles.of_sameInodes inv ⟨rfl, rfl⟩ (fun other _ => inv.sameInode_root past other)
      (fun _ _ => rfl) past (fun _ _ _ => Iff.rfl) rfl
  exact { kept with
    onlyTaken := fun _ taken => taken
    names := State.scrub_bind_sameNames short fits dead.2.1
    freeInodes := rfl }

/-- The file was created and could not be opened. -/
theorem State.LeavesFile.created (inv : Invariant state none) {inode slot : Nat} {name : CString}
    (first : state.FirstFreeInode inode) (short : validSubName name)
    (unbound : state.Unbound name) (dead : state.FirstDead slot) :
    state.LeavesFile (state.created inode slot name) name inode := by
  have different {other : Nat} (taken : state.InodeTaken other) : other ≠ inode :=
    fun same => first.unused (same ▸ taken)
  have past (position : Nat) (past : state.blockSize ≤ position) :
      (state.created inode slot name).fsData position = state.fsData position :=
    State.bindEntry_past short dead.1 past
  have atInode : (state.created inode slot name).inodeTable inode = newInode .tFile :=
    Function.update_self _ _ _
  have inUse (other : Nat) : (state.created inode slot name).InodeTaken other ↔
      other = inode ∨ state.InodeTaken other :=
    @State.takeInode_taken state inode other (newInode .tFile) first.2.1
  have kept : state.KeepsFiles (state.created inode slot name) := by
    refine State.KeepsFiles.of_sameInodes inv ⟨rfl, rfl⟩ (fun other taken => ?_)
      (fun other taken => ?_) past (fun _ _ _ => Iff.rfl) rfl
    · have same := State.sameInode_takeInode (newInode .tFile) first.2.1 (different taken)
      exact ⟨same.taken, same.kind, same.size, same.block, (inv.sameInode_root past other).bytes⟩
    · exact congrArg Inode.iHardLinks (Function.update_of_ne (different taken) _ _)
  exact { kept with
    onlyTaken := fun other taken => (inUse other).mp taken
    names := @State.bindEntry_binds (state.takeInode inode (newInode .tFile)) _ _ _ short first.1
      dead unbound
    empty := by
      refine ⟨(inUse inode).mpr (Or.inl rfl), ?_, ?_⟩
      · rw [atInode]
        rfl
      · unfold State.contents
        rw [atInode]
        rfl
    linkedOnce := by
      rw [atInode]
      rfl
    freeInodes := by
      refine (count_insert first.2.1 ?_ first.2.2.1 ?_).symm
      · intro isFree
        have taken := ((inUse inode).mpr (Or.inl rfl)).2
        rw [isFree] at taken
        cases taken
      · intro other _ apart
        change _ ↔ Function.update state.freeinodeTs inode .taken other = .free
        rw [Function.update_of_ne apart] }

/-- A refused link has taken a block. -/
theorem State.FirstFreeBlock.count {block : Nat} (first : state.FirstFreeBlock block)
    (sizes : state'.dataBlocks = state.dataBlocks)
    (marks : state'.freeBlocks = Function.update state.freeBlocks block .taken) :
    state'.freeBlockCount + 1 = state.freeBlockCount := by
  unfold State.freeBlockCount
  rw [sizes, marks]
  refine (count_insert first.2.1 ?_ first.2.2.1 ?_).symm
  · rw [Function.update_self]
    intro impossible
    cases impossible
  · intro other _ apart
    rw [Function.update_of_ne apart]

/-! ### Atomicity -/

/-- The call left no trace, or it is a `tfs_open` that created its file and then found the
open file table full. -/
def FailsAtomically (call : Call) (state state' : State) : Prop :=
  state.Unobserved state' ∨ ∃ path mode name inode, call = .tfsOpen (some path) mode ∧
    Creates state path mode name inode ∧ state.NoFreeHandle ∧ state.LeavesFile state' name inode

/-- The call is no `tfs_sym_link` whose entry is refused after it got an inode and a block. -/
def EntryAccepted (state : State) : Call → Prop
  | .tfsSymLink target link => LeakFree state (.tfsSymLink target link)
  | _ => True

theorem OpenEffect.fails {path final : CString} {mode : TfsFileMode}
    (effect : OpenEffect state final mode (-1) state') (inv : Invariant state none)
    (resolves : state.Resolves path final) (keeps : mode.tfsOTrunc = false) :
    FailsAtomically (.tfsOpen (some path) mode) state state' := by
  generalize failed : (-1 : Int) = result at effect
  cases effect with
  | invalid _ => exact Or.inl .refl
  | missing _ _ _ => exact Or.inl .refl
  | noInode _ _ _ _ => exact Or.inl .refl
  | refused _ _ _ first _ => exact Or.inl (.setInode inv first.unused _)
  | @existing inode _ _ _ _ _ handle =>
      have same : state.truncated inode mode = state := by
        unfold State.truncated
        rw [if_neg (fun truncates => by rw [keeps] at truncates; cases truncates.1)]
      rw [same] at handle
      cases handle with
      | full _ => exact Or.inl .refl
      | opened _ => omega
  | @created inode slot _ _ valid unbound creates first short dead handle =>
      cases handle with
      | full full =>
          exact Or.inr ⟨path, mode, final.tail, inode, rfl, ⟨final, resolves, valid, rfl, short,
            unbound, creates, first, slot, dead⟩, full, .created inv first short unbound dead⟩
      | opened _ => omega

theorem LinkEffect.fails {target link : CString} (effect : LinkEffect state target link (-1) state')
    (inv : Invariant state none) : state.Unobserved state' := by
  generalize failed : (-1 : Int) = result at effect
  cases effect with
  | missing _ => exact .refl
  | refused _ _ => exact .refl
  | symLink binds _ short _ dead =>
      exact .scrub_bind inv short (inv.inodes.fits _ (inv.binds_taken binds).2) dead
  | linked _ _ _ _ _ => cases failed

theorem UnlinkEffect.fails {target : CString} (effect : UnlinkEffect state target (-1) state') :
    state.Unobserved state' := by
  generalize failed : (-1 : Int) = result at effect
  cases effect with
  | missing _ => exact .refl
  | deleted _ _ _ _ _ _ => cases failed
  | kept _ _ _ _ _ => cases failed

theorem SymLinkEffect.fails {target link : CString}
    (effect : SymLinkEffect state target link (-1) state') (inv : Invariant state none)
    (targetValid : ValidPathname target) (linkValid : ValidPathname link) :
    state.Unobserved state' ↔ LeakFree state (.tfsSymLink (some target) (some link)) := by
  generalize failed : (-1 : Int) = result at effect
  cases effect with
  | same same =>
      exact iff_of_true .refl (fun _ _ different => (different same).elim)
  | noInode full =>
      exact iff_of_true .refl (fun _ _ _ free => (full.none free).elim)
  | noBlock first full =>
      exact iff_of_true (.setInode inv first.unused _) (fun _ _ _ _ free => (full.none free).elim)
  | @refused inode block different firstInode firstBlock _ refuses =>
      refine iff_of_false (fun unobserved => ?_) (fun leakFree => ?_)
      · have lost : (((state.targetStored block target).setInode inode
            (newInode .tSymLink)).freeBlockCount) + 1 = state.freeBlockCount :=
          firstBlock.count rfl rfl
        have same := unobserved.freeBlocks
        omega
      · obtain ⟨short, unbound, room⟩ := leakFree targetValid linkValid different firstInode.some
          firstBlock.some
        rcases refuses with invalid | bound | full
        · exact invalid short
        · exact bound unbound
        · exact full.none room
  | linked _ _ _ _ _ _ _ => cases failed

/-- A naming call that returns -1 leaves no trace, but for the new file of a `tfs_open` that
ran out of handles, exactly unless it is a `tfs_sym_link` whose entry is refused: such a call
keeps its block. -/
theorem failed_atomic (reachable : Reachable params (fun _ _ => True) state) {call : Call}
    {result : CallResult} (naming : call.IsNaming)
    (keeps : ∀ name mode, call = .tfsOpen name mode → mode.tfsOTrunc = false)
    (returned : call.run state = .ok (result, state')) (failed : result.length = -1) :
    FailsAtomically call state state' ↔ EntryAccepted state call := by
  obtain ⟨inv, _⟩ := reachable.invariant
  have effect := call_effect inv returned
    (fun _ _ _ same => by rw [same] at naming; exact naming.elim)
  cases effect with
  | openNull _ => exact iff_of_true (Or.inl .refl) trivial
  | opens resolves opened =>
      subst failed
      exact iff_of_true (opened.fails inv resolves (keeps _ _ rfl)) trivial
  | @symLinkInvalid target link invalid =>
      refine iff_of_true (Or.inl .refl) ?_
      cases target with
      | none => trivial
      | some target =>
      cases link with
      | none => trivial
      | some link =>
      intro targetValid linkValid
      rcases invalid with invalid | invalid
      · exact (validPathname_none invalid targetValid).elim
      · exact (validPathname_none invalid linkValid).elim
  | symLinks targetValid linkValid linked =>
      subst failed
      refine Iff.trans ?_ (linked.fails inv targetValid linkValid)
      constructor
      · rintro (unobserved | ⟨_, _, _, _, impossible, _⟩)
        · exact unobserved
        · cases impossible
      · exact Or.inl
  | linkInvalid _ => exact iff_of_true (Or.inl .refl) trivial
  | links _ _ linked =>
      subst failed
      exact iff_of_true (Or.inl (linked.fails inv)) trivial
  | unlinkInvalid _ => exact iff_of_true (Or.inl .refl) trivial
  | unlinks _ unlinked =>
      subst failed
      exact iff_of_true (Or.inl unlinked.fails) trivial
  | _ => exact naming.elim

/-- Unlinking `/a` on a new file system fails and leaves no trace. -/
theorem failed_atomic_unlink :
    ∃ state result state', Reachable smallParams (fun _ _ => True) state ∧
      Call.run (.tfsUnlink (some pathA)) state = .ok (result, state') ∧ result.length = -1 ∧
      FailsAtomically (.tfsUnlink (some pathA)) state state' := by
  obtain ⟨state, started, computed⟩ := afterCalls_any smallParams []
    (fun state => returnsWith (Call.run (.tfsUnlink (some pathA)) state)
      (fun result _ => result.length == -1))
    (by decide +kernel)
  have reachable : Reachable smallParams (fun _ _ => True) state :=
    .afterCalls (fun _ _ _ => trivial) started
  obtain ⟨result, state', returned, passed⟩ := of_returnsWith computed
  have failed := eq_of_beq passed
  have naming : Call.IsNaming (.tfsUnlink (some pathA)) := trivial
  exact ⟨state, result, state', reachable, returned, failed,
    (failed_atomic reachable naming (by rintro _ _ ⟨⟩) returned failed).mpr trivial⟩

/-- The link to be named `/a` is refused, and its block stays TAKEN. -/
theorem failed_atomic_refused :
    ¬ ∀ (params : TfsParams) (state : State), Reachable params (fun _ _ => True) state →
      ∀ (call : Call) (result : CallResult) (state' : State), call.IsNaming →
        (∀ name mode, call = .tfsOpen name mode → mode.tfsOTrunc = false) →
        call.run state = .ok (result, state') → result.length = -1 →
        FailsAtomically call state state' := by
  intro claimed
  obtain ⟨state, started, computed⟩ := afterCalls_any smallParams
    [.tfsOpen (some pathA) ⟨true, false, false⟩]
    (fun state => returnsWith (Call.run (.tfsSymLink (some pathB) (some pathA)) state)
      (fun result after => result.length == -1 && after.freeBlockCount != state.freeBlockCount))
    (by decide +kernel)
  obtain ⟨result, after, returned, passed⟩ := of_returnsWith computed
  rw [Bool.and_eq_true, beq_iff_eq, bne_iff_ne] at passed
  obtain ⟨failed, lost⟩ := passed
  rcases claimed smallParams state (.afterCalls (fun _ _ _ => trivial) started)
    (.tfsSymLink (some pathB) (some pathA)) result after trivial (by rintro _ _ ⟨⟩) returned
    failed with unobserved | ⟨_, _, _, _, impossible, _⟩
  · exact lost unobserved.freeBlocks
  · cases impossible

/-! ### The data behind a failed open -/

/-- Every file that existed has its contents, under its names and behind its handles. -/
structure State.KeepsData (state state' : State) : Prop where
  files : ∀ inode contents, state.HoldsFile inode contents → state'.HoldsFile inode contents
  sizes : ∀ inode contents, state.HoldsFile inode contents →
    (state'.inodeTable inode).iSize = (state.inodeTable inode).iSize
  names : ∀ name inode, state.Binds name inode → state'.Binds name inode
  handles : state.SameHandles state'

/-- The path leads to a file that is not empty, `TFS_O_TRUNC` is given and no handle is
left. -/
def State.TruncatesInVain (state : State) (name : Option CString) (mode : TfsFileMode) : Prop :=
  mode.tfsOTrunc = true ∧ state.NoFreeHandle ∧ ∃ path final inode, name = some path ∧
    state.Resolves path final ∧ ValidPathname final ∧ state.Binds final.tail inode ∧
    (state.inodeTable inode).iNodeType = .tFile ∧ 0 < (state.inodeTable inode).iSize

theorem State.HoldsFile.size {inode : Nat} {contents : List UInt8}
    (holds : state.HoldsFile inode contents) :
    (state.inodeTable inode).iSize = contents.length := by
  rw [← holds.2.2, State.contents, ByteMemory.readBytes_length]

theorem State.KeepsFiles.keepsData (kept : state.KeepsFiles state')
    (names : ∀ name inode, state.Binds name inode → state'.Binds name inode) :
    state.KeepsData state' where
  files := kept.files
  sizes inode contents holds := (kept.files inode contents holds).size.trans holds.size.symm
  names := names
  handles := kept.handles

theorem State.truncated_noFreeHandle {inode : Nat} {mode : TfsFileMode} :
    (state.truncated inode mode).NoFreeHandle ↔ state.NoFreeHandle := by
  unfold State.truncated State.releaseBlock
  split
  · split <;> exact Iff.rfl
  · exact Iff.rfl

theorem OpenEffect.keepsData {path final : CString} {mode : TfsFileMode}
    (effect : OpenEffect state final mode (-1) state') (inv : Invariant state none)
    (resolves : state.Resolves path final) :
    state.KeepsData state' ↔ ¬ state.TruncatesInVain (some path) mode := by
  have only := effect.final inv
  -- The file in the condition is the one the open came to.
  have found (vain : state.TruncatesInVain (some path) mode) : mode.tfsOTrunc = true ∧
      ValidPathname final ∧ ∃ inode, state.Binds final.tail inode ∧
        0 < (state.inodeTable inode).iSize := by
    obtain ⟨truncates, _, _, other, inode, pathEq, reached, valid, binds, isFile, nonempty⟩ := vain
    cases pathEq
    have same : other = final := by
      refine inv.final_unique reached resolves ?_ only
      rintro next ⟨_, held, heldBinds, isSymLink, _⟩
      rw [inv.binds_unique heldBinds binds, isFile] at isSymLink
      cases isSymLink
    subst same
    exact ⟨truncates, valid, inode, binds, nonempty⟩
  have unbound (notFound : state.NotFound final.tail) :
      ¬ state.TruncatesInVain (some path) mode := by
    intro vain
    obtain ⟨_, _, inode, binds, _⟩ := found vain
    exact inv.notFound_iff.mp notFound inode binds
  have refl : state.KeepsData state :=
    State.Unobserved.refl.keepsData (fun _ _ binds => binds)
  generalize failed : (-1 : Int) = result at effect
  cases effect with
  | invalid invalid => exact iff_of_true refl (fun vain => invalid (found vain).2.1)
  | missing _ notFound _ => exact iff_of_true refl (unbound notFound)
  | noInode _ notFound _ _ => exact iff_of_true refl (unbound notFound)
  | refused _ notFound _ first _ =>
      have kept := State.Unobserved.setInode inv first.unused (newInode .tFile)
      exact iff_of_true (kept.keepsData (fun _ _ binds => binds)) (unbound notFound)
  | created _ free _ first short dead handle =>
      have kept := State.LeavesFile.created inv first short free dead
      refine iff_of_true ?_ (unbound (Or.inr free))
      cases handle with
      | full _ =>
          refine kept.keepsData (fun name inode binds => (kept.names name inode).mpr ?_)
          have different : name ≠ final.tail := by
            rintro rfl
            exact inv.notFound_iff.mp (Or.inr free) inode binds
          rw [if_neg different]
          exact binds
      | opened _ => omega
  | @existing inode _ _ valid binds isFile handle =>
      cases handle with
      | opened _ => omega
      | full full =>
      by_cases truncates : mode.tfsOTrunc = true ∧ 0 < (state.inodeTable inode).iSize
      · refine iff_of_false (fun kept => ?_) (fun unmet => unmet ?_)
        · have taken := (inv.binds_taken binds).2
          have size := kept.sizes inode _ ⟨taken, isFile, rfl⟩
          unfold State.truncated at size
          rw [if_pos truncates, State.resizeFile, State.setInode_apply_self] at size
          dsimp only at size
          omega
        · exact ⟨truncates.1, State.truncated_noFreeHandle.mp full, path, final, inode, rfl, resolves,
            valid, binds, isFile, truncates.2⟩
      · have same : state.truncated inode mode = state := by
          unfold State.truncated
          rw [if_neg truncates]
        rw [same]
        refine iff_of_true refl (fun vain => truncates ?_)
        obtain ⟨trunc, _, held, heldBinds, nonempty⟩ := found vain
        rw [inv.binds_unique heldBinds binds] at nonempty
        exact ⟨trunc, nonempty⟩

/-- A failed `tfs_open` keeps every file exactly unless it truncated one before it found the
open file table full. -/
theorem failed_open_keepsData (reachable : Reachable params (fun _ _ => True) state)
    {name : Option CString} {mode : TfsFileMode}
    (returned : tfsOpen name mode state = .ok (-1, state')) :
    state.KeepsData state' ↔ ¬ state.TruncatesInVain name mode := by
  obtain ⟨inv, _⟩ := reachable.invariant
  have effect := (@outcome_tfsOpen (fun _ => True) _ inv (Or.inl trivial) (Or.inl trivial) name
    mode (fun _ _ _ => trivial)).of_ok returned
  cases effect with
  | openNull _ =>
      refine iff_of_true (State.Unobserved.refl.keepsData (fun _ _ binds => binds)) ?_
      rintro ⟨_, _, _, _, _, impossible, _⟩
      cases impossible
  | opens resolves opened => exact opened.keepsData inv resolves

/-- On a new file system nothing is lost by opening a file that is not there. -/
theorem failed_open_keepsData_missing :
    ∃ state state', Reachable smallParams (fun _ _ => True) state ∧
      tfsOpen (some pathA) ⟨false, true, false⟩ state = .ok (-1, state') ∧
      (state.KeepsData state' ↔ ¬ state.TruncatesInVain (some pathA) ⟨false, true, false⟩) := by
  obtain ⟨state, started, computed⟩ := afterCalls_any smallParams []
    (fun state => returnsWith (tfsOpen (some pathA) ⟨false, true, false⟩ state)
      (fun handle _ => handle == -1))
    (by decide +kernel)
  have reachable : Reachable smallParams (fun _ _ => True) state :=
    .afterCalls (fun _ _ _ => trivial) started
  obtain ⟨handle, state', returned, passed⟩ := of_returnsWith computed
  rw [eq_of_beq passed] at returned
  exact ⟨state, state', reachable, returned, failed_open_keepsData reachable returned⟩

/-- With both handles of `/a` open, a third open with `TFS_O_TRUNC` fails and empties it. -/
theorem failed_open_truncates :
    ¬ ∀ (params : TfsParams) (state : State), Reachable params (fun _ _ => True) state →
      ∀ (name : Option CString) (mode : TfsFileMode) (state' : State),
        tfsOpen name mode state = .ok (-1, state') → state.KeepsData state' := by
  intro claimed
  obtain ⟨state, started, computed⟩ := afterCalls_any smallParams
    [.tfsOpen (some pathA) ⟨true, false, false⟩, .tfsWrite 0 (some [7]) 1,
      .tfsOpen (some pathA) ⟨false, false, false⟩]
    (fun state => decide (state.InodeTaken 1 ∧ (state.inodeTable 1).iNodeType = .tFile) &&
      returnsWith (tfsOpen (some pathA) ⟨false, true, false⟩ state) (fun handle after =>
        handle == -1 && (after.inodeTable 1).iSize != (state.inodeTable 1).iSize))
    (by decide +kernel)
  rw [Bool.and_eq_true, decide_eq_true_eq] at computed
  obtain ⟨⟨taken, isFile⟩, computed⟩ := computed
  obtain ⟨handle, after, returned, passed⟩ := of_returnsWith computed
  rw [Bool.and_eq_true, beq_iff_eq, bne_iff_ne] at passed
  rw [passed.1] at returned
  have kept := claimed smallParams state (.afterCalls (fun _ _ _ => trivial) started) _ _ _
    returned
  exact passed.2 (kept.sizes 1 _ ⟨taken, isFile, rfl⟩)

end TecnicoFS.FileSystem
