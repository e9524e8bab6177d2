/-
Several threads inside the public operations of `fs/operations.c`.

Each step of a thread is one lock-protected section together with what the thread does
after it up to the next one.  Two unprotected reads are steps of their own: the recheck
of `freeinode_ts` in `add_to_open_file_table` and the test in `get_open_file_entry`.
`open_mutex` and `link_lock` span several sections: the step that runs the first section
under such a lock takes it, and the step that runs the last one gives it back.  Every
other lock covers a single section.

The target of a symbolic link is read in the section that reads its inode; its block
is written once and never given back.  `tfs_open` calls itself last, so a followed link
starts over with the target.
-/

import TecnicoFS.FileSystem.Runs
import TecnicoFS.Library.ThreadSystem

set_option autoImplicit false

namespace TecnicoFS.FileSystem

open FaultAction

/-- Where a thread stands between two sections -/
inductive TfsPoint where
  | idle
  | returned (result : Int)
  | openEnter (path : CString) (mode : TfsFileMode)
  | openFound (path : CString) (mode : TfsFileMode) (inum : Int)
  | openAbsent (path : CString)
  | openCreated (path : CString) (inum : Int)
  | openFailed (inum : Int)
  | openReady (inum : Int) (offset : Nat)
  | openChecked (inum : Int) (offset : Nat)
  | closeEnter (fhandle : Int)
  | closeFound (fhandle : Int)
  | symEnter (target link : CString)
  | symCreated (target link : CString) (linkInum : Int)
  | symStored (link : CString) (linkInum : Int)
  | symFailed (linkInum : Int)
  | linkEnter (target link : CString)
  | linkFound (link : CString) (targetInum : Int)
  | linkWithdraw (link : CString) (targetInum : Int)
  | linkCount (link : CString) (targetInum : Int)
  | unlinkEnter (target : CString)
  | unlinkFound (target : CString) (targetInum : Int)
  | unlinkCleared (targetInum : Int)

/-- No call is in progress. -/
def TfsPoint.Quiet : TfsPoint → Prop
  | .idle | .returned _ => True
  | _ => False

/-! ### Calls -/

/-- `tfs_open` up to `open_mutex` -/
def enterOpen (name : Option CString) (mode : TfsFileMode) : TfsPoint :=
  match validPathname name with
  | none => .returned (-1)
  | some path => .openEnter path mode

/-- The operation up to its first section; reading, writing and importing are left out. -/
def Call.enter : Call → Option TfsPoint
  | .tfsOpen name mode => some (enterOpen name mode)
  | .tfsClose fhandle => some (.closeEnter fhandle)
  | .tfsSymLink target link =>
      match validPathname target, validPathname link with
      | some target, some link =>
          some (if target = link then .returned (-1) else .symEnter target link)
      | _, _ => some (.returned (-1))
  | .tfsLink target link =>
      match validPathname target, validPathname link with
      | some target, some link => some (.linkEnter target link)
      | _, _ => some (.returned (-1))
  | .tfsUnlink target =>
      match validPathname target with
      | none => some (.returned (-1))
      | some target => some (.unlinkEnter target)
  | .tfsWrite _ _ _ | .tfsRead _ _ _ | .tfsCopyFromExternalFs _ _ _ => none

/-- Where a call starts: it is refused, or it gets to its first section. -/
inductive CallStart : Call → TfsPoint → Prop where
  | refused {request : Call} : (∀ fhandle, request ≠ .tfsClose fhandle) →
      CallStart request (.returned (-1))
  | opens {path : CString} {mode : TfsFileMode} : ValidPathname path →
      CallStart (.tfsOpen (some path) mode) (.openEnter path mode)
  | closes {fhandle : Int} : CallStart (.tfsClose fhandle) (.closeEnter fhandle)
  | symLinks {target link : Option CString} {source entry : CString} :
      CallStart (.tfsSymLink target link) (.symEnter source entry)
  | links {target link : Option CString} {source entry : CString} :
      CallStart (.tfsLink target link) (.linkEnter source entry)
  | unlinks {target : Option CString} {entry : CString} :
      CallStart (.tfsUnlink target) (.unlinkEnter entry)

theorem enterOpen_valid {path : CString} (valid : ValidPathname path) (mode : TfsFileMode) :
    enterOpen (some path) mode = .openEnter path mode := by
  have found : validPathname (some path) = some path := by
    unfold validPathname
    rw [Option.filter_some, if_pos (decide_eq_true valid)]
  unfold enterOpen
  rw [found]

theorem enterOpen_cases (path : Option CString) (mode : TfsFileMode) :
    enterOpen path mode = .returned (-1) ∨
      ∃ found, path = some found ∧ ValidPathname found ∧
        enterOpen path mode = .openEnter found mode := by
  cases path with
  | none => exact Or.inl rfl
  | some found =>
      by_cases valid : ValidPathname found
      · exact Or.inr ⟨found, rfl, valid, enterOpen_valid valid mode⟩
      · left
        have refused : validPathname (some found) = none := by
          unfold validPathname
          rw [Option.filter_some, if_neg (fun accepted => valid (of_decide_eq_true accepted))]
        unfold enterOpen
        rw [refused]

theorem Call.enter_start {request : Call} {point : TfsPoint} (enters : request.enter = some point) :
    CallStart request point := by
  cases request with
  | tfsOpen name mode =>
      cases enters
      rcases enterOpen_cases name mode with failed | ⟨path, rfl, valid, entered⟩
      · rw [failed]
        exact .refused (fun _ impossible => by cases impossible)
      · rw [entered]
        exact .opens valid
  | tfsClose fhandle =>
      cases enters
      exact .closes
  | tfsSymLink target link =>
      simp only [Call.enter] at enters
      split at enters
      · cases enters
        split
        · exact .refused (fun _ impossible => by cases impossible)
        · exact .symLinks
      · cases enters
        exact .refused (fun _ impossible => by cases impossible)
  | tfsLink target link =>
      simp only [Call.enter] at enters
      split at enters
      · cases enters
        exact .links
      · cases enters
        exact .refused (fun _ impossible => by cases impossible)
  | tfsUnlink target =>
      simp only [Call.enter] at enters
      split at enters
      · cases enters
        exact .refused (fun _ impossible => by cases impossible)
      · cases enters
        exact .unlinks
  | tfsWrite _ _ _ | tfsRead _ _ _ | tfsCopyFromExternalFs _ _ _ => cases enters

/-! ### Sections of `tfs_open` -/

/-- `tfs_lookup` under `open_mutex` -/
def openLookup (path : CString) (mode : TfsFileMode) : TfsAction TfsPoint := do
  let rootDirInode ← inodeGet rootDirInum
  let inum ← tfsLookup path rootDirInode
  if 0 ≤ inum then
    pure (.openFound path mode inum)
  else if mode.tfsOCreat = true then
    pure (.openAbsent path)
  else
    pure (.returned (-1))

/-- The section under `inode_locks[inum]` -/
def openInode (mode : TfsFileMode) (inum : Int) : TfsAction TfsPoint := do
  let inode ← inodeGet inum
  let state ← get
  require ((state.inodeTable inode).iNodeType ≠ .tDirectory)
    (.panic "tfs_open: directories cannot be opened this way")
  if (state.inodeTable inode).iNodeType = .tSymLink then
    let target ← symLinkTarget inode
    pure (enterOpen (some target) mode)
  else
    truncateFile inode mode
    let state ← get
    pure (.openReady inum (if mode.tfsOAppend = true then (state.inodeTable inode).iSize else 0))

/-- `inode_create` for a file or a symbolic link -/
def createInode (iType : InodeType) (created : Int → TfsPoint) : TfsAction TfsPoint := do
  let inum ← inodeCreate iType
  if inum = -1 then pure (.returned (-1)) else pure (created inum)

/-- `add_dir_entry` of a new inode -/
def enterRoot (link : CString) (inum : Int) (added failed : TfsPoint) : TfsAction TfsPoint := do
  let rootDirInode ← inodeGet rootDirInum
  let result ← addDirEntry rootDirInode link.tail inum
  if result = -1 then pure failed else pure added

/-- `inode_delete` of a new inode whose entry could not be added -/
def deleteFailed (inum : Int) : TfsAction TfsPoint := do
  inodeDelete inum
  pure (.returned (-1))

/-- The unprotected part of `add_to_open_file_table` -/
def recheck (inum : Int) (offset : Nat) : TfsAction TfsPoint := do
  let state ← get
  if ¬ state.ValidInumber inum then
    pure (.returned (-1))
  else if state.freeinodeTs inum.toNat ≠ .taken then
    pure (.returned (-1))
  else
    pure (.openChecked inum offset)

/-- The section of `add_to_open_file_table` under `free_open_file_entries_mutex` -/
def takeOpenFileEntry (inum : Int) (offset : Nat) : TfsAction TfsPoint := do
  let state ← get
  match ← intSearch state.maxOpenFiles (fun slot => state.freeOpenFileEntries slot == .free) with
  | some slot => do
      modify (fun state => state.setFreeOpenFile slot .taken)
      modify (fun state => state.setOpenFile slot { ofInumber := inum, ofOffset := offset })
      pure (.returned (slot : Int))
  | none => pure (.returned (-1))

/-! ### Sections of the other operations -/

/-- `get_open_file_entry` -/
def closeLookup (fhandle : Int) : TfsAction TfsPoint := do
  match ← getOpenFileEntry fhandle with
  | none => pure (.returned (-1))
  | some _ => pure (.closeFound fhandle)

/-- The section of `remove_from_open_file_table` under `free_open_file_entries_mutex` -/
def closeEntry (fhandle : Int) : TfsAction TfsPoint := do
  let state ← get
  let inumber := (state.openFileTable fhandle.toNat).ofInumber
  require (state.ValidFileContent inumber)
    (.panic "remove_from_open_file_table: file content deleted before closing")
  require (state.ValidFileHandle fhandle)
    (.panic "remove_from_open_file_table: file handle must be valid")
  require (state.freeOpenFileEntries fhandle.toNat = .taken)
    (.panic "remove_from_open_file_table: file handle must be taken")
  modify (fun state => state.setFreeOpenFile fhandle.toNat .free)
  let inode ← inodeGet inumber
  let stillOpen ← isFileOpen inumber
  if (state.inodeTable inode).iHardLinks = 0 ∧ stillOpen = false then
    inodeDelete inumber
    pure (.returned 0)
  else
    pure (.returned 0)

/-- `data_block_alloc` in `tfs_sym_link` and the two writes that follow it -/
def symStore (target link : CString) (linkInum : Int) : TfsAction TfsPoint := do
  let linkInode ← inodeGet linkInum
  let bnum ← dataBlockAlloc
  if bnum = -1 then
    pure (.symFailed linkInum)
  else
    modify (fun state => state.setInode linkInode
      { state.inodeTable linkInode with iDataBlock := bnum })
    let block ← dataBlockGet bnum
    storeBytes block (target.bytes ++ [0])
    pure (.symStored link linkInum)

/-- `tfs_lookup` under `link_lock` in `tfs_link` -/
def linkLookup (target link : CString) : TfsAction TfsPoint := do
  let rootDirInode ← inodeGet rootDirInum
  let targetInum ← tfsLookup target rootDirInode
  if targetInum = -1 then pure (.returned (-1)) else pure (.linkFound link targetInum)

/-- `add_dir_entry` in `tfs_link` and the type test that follows it -/
def linkPublish (link : CString) (targetInum : Int) : TfsAction TfsPoint := do
  let rootDirInode ← inodeGet rootDirInum
  let added ← addDirEntry rootDirInode link.tail targetInum
  if added = -1 then
    pure (.returned (-1))
  else
    let targetInode ← inodeGet targetInum
    let state ← get
    if (state.inodeTable targetInode).iNodeType = .tSymLink then
      pure (.linkWithdraw link targetInum)
    else
      pure (.linkCount link targetInum)

/-- `clear_dir_entry` in `tfs_link` -/
def linkClear (link : CString) : TfsAction TfsPoint := do
  let rootDirInode ← inodeGet rootDirInum
  let _ ← clearDirEntry rootDirInode link.tail
  pure (.returned (-1))

def linkIncrement (targetInum : Int) : TfsAction TfsPoint := do
  modify (fun state => state.setInode targetInum.toNat
    { state.inodeTable targetInum.toNat with
      iHardLinks := sizeAdd (state.inodeTable targetInum.toNat).iHardLinks 1 })
  pure (.returned 0)

/-- `tfs_lookup` under `link_lock` in `tfs_unlink` and the type test that follows it -/
def unlinkLookup (target : CString) : TfsAction TfsPoint := do
  let rootDirInode ← inodeGet rootDirInum
  let targetInum ← tfsLookup target rootDirInode
  if targetInum = -1 then
    pure (.returned (-1))
  else
    let targetInode ← inodeGet targetInum
    let state ← get
    require ((state.inodeTable targetInode).iNodeType ≠ .tDirectory)
      (.panic "tfs_unlink: directories cannot be unlinked")
    pure (.unlinkFound target targetInum)

/-- `clear_dir_entry` in `tfs_unlink` -/
def unlinkClear (target : CString) (targetInum : Int) : TfsAction TfsPoint := do
  let rootDirInode ← inodeGet rootDirInum
  let cleared ← clearDirEntry rootDirInode target.tail
  if cleared = -1 then pure (.returned (-1)) else pure (.unlinkCleared targetInum)

/-- The section of `tfs_unlink` under `free_open_file_entries_mutex` -/
def unlinkDrop (targetInum : Int) : TfsAction TfsPoint := do
  dropHardLink targetInum targetInum.toNat
  pure (.returned 0)

/-! ### Steps -/

/-- The section that a thread runs next, and where it stands afterwards -/
def TfsPoint.nextSection : TfsPoint → Option (TfsAction TfsPoint)
  | .idle | .returned _ => none
  | .openEnter path mode => some (openLookup path mode)
  | .openFound _ mode inum => some (openInode mode inum)
  | .openAbsent path => some (createInode .tFile (.openCreated path))
  | .openCreated path inum =>
      some (enterRoot path inum (.openReady inum 0) (.openFailed inum))
  | .openFailed inum => some (deleteFailed inum)
  | .openReady inum offset => some (recheck inum offset)
  | .openChecked inum offset => some (takeOpenFileEntry inum offset)
  | .closeEnter fhandle => some (closeLookup fhandle)
  | .closeFound fhandle => some (closeEntry fhandle)
  | .symEnter target link => some (createInode .tSymLink (.symCreated target link))
  | .symCreated target link linkInum => some (symStore target link linkInum)
  | .symStored link linkInum =>
      some (enterRoot link linkInum (.returned 0) (.symFailed linkInum))
  | .symFailed linkInum => some (deleteFailed linkInum)
  | .linkEnter target link => some (linkLookup target link)
  | .linkFound link targetInum => some (linkPublish link targetInum)
  | .linkWithdraw link _ => some (linkClear link)
  | .linkCount _ targetInum => some (linkIncrement targetInum)
  | .unlinkEnter target => some (unlinkLookup target)
  | .unlinkFound target targetInum => some (unlinkClear target targetInum)
  | .unlinkCleared targetInum => some (unlinkDrop targetInum)

/-- Between two sections under `open_mutex` -/
def TfsPoint.HoldsOpenMutex : TfsPoint → Prop
  | .openAbsent _ | .openCreated _ _ => True
  | _ => False

/-- Between two sections under `link_lock`, held for reading -/
def TfsPoint.ReadsLinkLock : TfsPoint → Prop
  | .symCreated _ _ _ | .symStored _ _ | .symFailed _ | .linkFound _ _ | .linkWithdraw _ _
  | .linkCount _ _ => True
  | _ => False

/-- Between two sections under `link_lock`, held for writing -/
def TfsPoint.WritesLinkLock : TfsPoint → Prop
  | .unlinkFound _ _ | .unlinkCleared _ => True
  | _ => False

variable {Thread : Type}

/-- The lock that the next section starts with is free. -/
def LockFree (points : Thread → TfsPoint) : TfsPoint → Prop
  | .openEnter _ _ => ∀ other, ¬ (points other).HoldsOpenMutex
  | .symEnter _ _ | .linkEnter _ _ => ∀ other, ¬ (points other).WritesLinkLock
  | .unlinkEnter _ =>
      ∀ other, ¬ (points other).WritesLinkLock ∧ ¬ (points other).ReadsLinkLock
  | _ => True

/-- The file system at one moment; `generation` counts how often each inode was allocated,
so that an inumber and a generation stand for one file. -/
structure Moment where
  fs : State
  generation : Nat → Nat

/-- The last call of a thread and the moments from that call on.  No section looks at this. -/
structure Session where
  request : Option Call
  moments : Set Moment

/-- The file system shared by the threads; `owners` tells which thread obtained a handle
and has not passed it to `tfs_close`, and `created` lists the paths for which `tfs_open`
created an inode. -/
structure SharedFs (Thread : Type) where
  now : Moment
  points : Thread → TfsPoint
  owners : Nat → Option Thread
  sessions : Thread → Session
  created : List (CString × Int)

namespace SharedFs

/-- The inodes that are TAKEN now and were FREE before have one more generation. -/
def nextMoment (moment : Moment) (fs : State) : Moment where
  fs := fs
  generation inode :=
    if moment.fs.freeinodeTs inode = .free ∧ fs.freeinodeTs inode = .taken then
      moment.generation inode + 1
    else
      moment.generation inode

/-- A handle passed to `tfs_close` has no owner any more. -/
def ownersAfterCall (owners : Nat → Option Thread) : Call → Nat → Option Thread
  | .tfsClose fhandle => fun handle => if fhandle = (handle : Int) then none else owners handle
  | _ => owners

/-- The handle that `tfs_open` returned belongs to the thread. -/
def ownersAfterSection (owners : Nat → Option Thread) (thread : Thread) :
    TfsPoint → TfsPoint → Nat → Option Thread
  | .openChecked _ _, .returned result =>
      fun handle => if result = (handle : Int) then some thread else owners handle
  | _, _ => owners

/-- The inode that `tfs_open` created in this section -/
def createdBy : TfsPoint → TfsPoint → List (CString × Int)
  | .openAbsent _, .openCreated path inum => [(path, inum)]
  | _, _ => []

variable [DecidableEq Thread]

def call (shared : SharedFs Thread) (thread : Thread) (request : Call) (point : TfsPoint) :
    SharedFs Thread where
  now := shared.now
  points := Function.update shared.points thread point
  owners := ownersAfterCall shared.owners request
  sessions := Function.update shared.sessions thread ⟨some request, {shared.now}⟩
  created := shared.created

def advance (shared : SharedFs Thread) (thread : Thread) (next : TfsPoint) (fs : State) :
    SharedFs Thread where
  now := nextMoment shared.now fs
  points := Function.update shared.points thread next
  owners := ownersAfterSection shared.owners thread (shared.points thread) next
  sessions other :=
    { shared.sessions other with
      moments := insert (nextMoment shared.now fs) (shared.sessions other).moments }
  created := createdBy (shared.points thread) next ++ shared.created

end SharedFs

variable [DecidableEq Thread]

/-- One step of a thread: a new call, or the next section. -/
inductive SharedStep (thread : Thread) : SharedFs Thread → SharedFs Thread → Prop where
  | calls {shared : SharedFs Thread} {request : Call} {point : TfsPoint} :
      (shared.points thread).Quiet → request.enter = some point →
      SharedStep thread shared (shared.call thread request point)
  | runs {shared : SharedFs Thread} {body : TfsAction TfsPoint} {next : TfsPoint} {fs : State} :
      (shared.points thread).nextSection = some body →
      LockFree shared.points (shared.points thread) →
      body shared.now.fs = .ok (next, fs) →
      SharedStep thread shared (shared.advance thread next fs)

/-- All threads idle in a file system that a single caller left behind, with the open
handles shared out -/
structure SharedFs.Initial (params : TfsParams) (shared : SharedFs Thread) : Prop where
  reached : Reachable params (fun _ _ => True) shared.now.fs
  idle : ∀ thread, shared.points thread = .idle
  owned : ∀ handle thread, shared.owners handle = some thread →
    shared.now.fs.HandleTaken handle
  unused : ∀ thread, (shared.sessions thread).request = none
  uncreated : shared.created = []

/-- The threads on one file system, in any order of their steps -/
def sharedSystem (Thread : Type) [DecidableEq Thread] (params : TfsParams) :
    ThreadSystem Thread (SharedFs Thread) where
  initial := SharedFs.Initial params
  step := SharedStep

/-! ### Computed interleavings -/

instance : DecidablePred TfsPoint.Quiet := by
  intro point
  cases point <;> first | exact .isTrue trivial | exact .isFalse id

instance : DecidablePred TfsPoint.HoldsOpenMutex := by
  intro point
  cases point <;> first | exact .isTrue trivial | exact .isFalse id

instance : DecidablePred TfsPoint.ReadsLinkLock := by
  intro point
  cases point <;> first | exact .isTrue trivial | exact .isFalse id

instance : DecidablePred TfsPoint.WritesLinkLock := by
  intro point
  cases point <;> first | exact .isTrue trivial | exact .isFalse id

instance (points : Bool → TfsPoint) : DecidablePred (LockFree points) := by
  intro point
  cases point with
  | openEnter =>
      exact inferInstanceAs (Decidable (∀ other, ¬ (points other).HoldsOpenMutex))
  | symEnter | linkEnter =>
      exact inferInstanceAs (Decidable (∀ other, ¬ (points other).WritesLinkLock))
  | unlinkEnter =>
      exact inferInstanceAs (Decidable (∀ other,
        ¬ (points other).WritesLinkLock ∧ ¬ (points other).ReadsLinkLock))
  | _ => exact .isTrue trivial

/-- What one of two threads does next: it calls an operation or runs its next section. -/
inductive Turn where
  | calls (request : Call)
  | runs

def takeTurn (thread : Bool) (turn : Turn) (shared : SharedFs Bool) : Option (SharedFs Bool) :=
  match turn with
  | .calls request =>
      if (shared.points thread).Quiet then
        request.enter.map (shared.call thread request)
      else
        none
  | .runs =>
      if LockFree shared.points (shared.points thread) then
        (shared.points thread).nextSection.bind (fun body =>
          match body shared.now.fs with
          | .ok (next, fs) => some (shared.advance thread next fs)
          | .error _ => none)
      else
        none

theorem SharedStep.of_takeTurn {thread : Bool} {turn : Turn} {before after : SharedFs Bool}
    (taken : takeTurn thread turn before = some after) : SharedStep thread before after := by
  unfold takeTurn at taken
  cases turn with
  | calls request =>
      dsimp only at taken
      split at taken
      · rename_i quiet
        obtain ⟨point, enters, same⟩ := Option.map_eq_some_iff.mp taken
        subst after
        exact .calls quiet enters
      · cases taken
  | runs =>
      dsimp only at taken
      split at taken
      · rename_i free
        obtain ⟨body, section_, ran⟩ := Option.bind_eq_some_iff.mp taken
        split at ran
        · rename_i next fs returned
          cases ran
          exact .runs section_ free returned
        · cases ran
      · cases taken

/-- Two idle threads in a file system that a single caller left behind -/
def SharedFs.idleAt (state : State) : SharedFs Bool where
  now := ⟨state, fun _ => 0⟩
  points := fun _ => .idle
  owners := fun _ => none
  sessions := fun _ => ⟨none, ∅⟩
  created := []

theorem SharedFs.idleAt_initial {params : TfsParams} {state : State}
    (reached : Reachable params (fun _ _ => True) state) :
    SharedFs.Initial params (SharedFs.idleAt state) where
  reached := reached
  idle _ := rfl
  owned := by
    intro handle thread owned
    cases owned
  unused _ := rfl
  uncreated := rfl

end TecnicoFS.FileSystem
