/-
The open file table as an account of the workers.

Every TAKEN entry belongs to one worker inside a handler that opens files, so with as many
entries as workers no `tfs_open` of a handler finds the table full.  A worker that lists
boxes makes no call on the file system; it counts as an idle one.
-/

import TecnicoFS.Mbroker.FileCalls
import TecnicoFS.Mbroker.FirstBox
import TecnicoFS.Mbroker.OpenFiles

set_option autoImplicit false

namespace TecnicoFS.Mbroker

open FileSystem

/-- The worker is inside a publisher, subscriber or create handler. -/
def Point.InFileHandler : Point → Prop
  | .publisher _ | .subscriber _ | .create _ => True
  | .idle | .remove _ => False

instance (point : Point) : Decidable point.InFileHandler := by
  cases point with
  | publisher _ => exact instDecidableTrue
  | subscriber _ => exact instDecidableTrue
  | create _ => exact instDecidableTrue
  | idle => exact instDecidableFalse
  | remove _ => exact instDecidableFalse

/-- The path and the mode of the `tfs_open` the worker is about to make -/
def Point.opens? : Point → Option (CString × TfsFileMode)
  | .publisher (.register box) => some (box.boxName, ⟨false, false, true⟩)
  | .subscriber (.register box) => some (box.boxName, ⟨false, false, false⟩)
  | .create (.openExisting boxName) => some (boxName, ⟨false, false, false⟩)
  | .create (.openNew boxName) => some (boxName, ⟨true, false, false⟩)
  | _ => none

/-- What the worker is about to give to `tfs_close` -/
def Point.closes? : Point → Option Int
  | .publisher (.closeFile session) => some session.boxF
  | .subscriber (.closeFile session) => some session.boxF
  | .create (.closeFile f _) => some f
  | _ => none

theorem Point.file_inFileHandler {point : Point} {f : Int} (holds : point.file? = some f) :
    point.InFileHandler := by
  cases point with
  | publisher _ => trivial
  | subscriber _ => trivial
  | create _ => trivial
  | idle => cases holds
  | remove _ => cases holds

/-- No handler opens a file while it has one. -/
theorem Point.opens_file {point : Point} {path : CString} {mode : TfsFileMode}
    (opens : point.opens? = some (path, mode)) :
    point.file? = none ∧ mode.tfsOTrunc = false := by
  cases point with
  | publisher point =>
      cases point with
      | register _ =>
          cases opens
          exact ⟨rfl, rfl⟩
      | _ => cases opens
  | subscriber point =>
      cases point with
      | register _ =>
          cases opens
          exact ⟨rfl, rfl⟩
      | _ => cases opens
  | create point =>
      cases point with
      | openExisting _ =>
          cases opens
          exact ⟨rfl, rfl⟩
      | openNew _ =>
          cases opens
          exact ⟨rfl, rfl⟩
      | _ => cases opens
  | idle => cases opens
  | remove _ => cases opens

theorem Point.closes_file {point : Point} {f : Int} (closes : point.closes? = some f) :
    point.file? = some f := by
  cases point with
  | publisher point =>
      cases point with
      | closeFile _ => exact closes
      | _ => cases closes
  | subscriber point =>
      cases point with
      | closeFile _ => exact closes
      | _ => cases closes
  | create point =>
      cases point with
      | closeFile _ _ => exact closes
      | _ => cases closes
  | idle => cases closes
  | remove _ => cases closes

/-- The TAKEN entries of the open file table -/
def takenEntries (fs : FileSystem.State) (maxSessions : Nat) : Finset Nat :=
  (Finset.range maxSessions).filter (fun handle => fs.freeOpenFileEntries handle = .taken)

/-- The workers inside handlers that open files -/
def fileHandlers {maxSessions : Nat} (workers : Fin maxSessions → Point) :
    Finset (Fin maxSessions) :=
  Finset.univ.filter (fun worker => (workers worker).InFileHandler)

/-- Who answers for which entry of the open file table, and what follows for the calls of
the handlers -/
structure HandlesAccounted (params : MbrokerParams) (broker : Broker (Fin params.maxSessions)) :
    Prop where
  /-- Each TAKEN entry is the file of exactly one worker, which is inside a handler. -/
  owned : ∀ handle, handle ∈ takenEntries broker.server.fs params.maxSessions →
    ∃ worker, (broker.workers worker).file? = some (handle : Int) ∧
      (broker.workers worker).InFileHandler ∧
      ∀ other, (broker.workers other).file? = some (handle : Int) → other = worker
  bounded : (takenEntries broker.server.fs params.maxSessions).card ≤
    (fileHandlers broker.workers).card
  idle : ∀ worker, broker.workers worker = .idle → (broker.workers worker).file? = none
  /-- There is an entry for each `tfs_open`, so a failed one neither found nor made a file. -/
  opens : ∀ worker path mode, (broker.workers worker).opens? = some (path, mode) →
    (∃ handle, handle < params.maxSessions ∧
      broker.server.fs.freeOpenFileEntries handle = .free) ∧
    ∀ result fs', Call.run (.tfsOpen (some path) mode) broker.server.fs = .ok (result, fs') →
      result.length < 0 → ValidPathname path → ∀ inode,
        ¬ broker.server.fs.Binds path.tail inode ∧ ¬ fs'.Binds path.tail inode
  closes : ∀ worker (handle : Nat), (broker.workers worker).closes? = some (handle : Int) →
    (∀ result fs', Call.run (.tfsClose handle) broker.server.fs = .ok (result, fs') →
      result.length = 0) ∧
    (params.maxSessions < 2 ^ 31 →
      ∃ result fs', Call.run (.tfsClose handle) broker.server.fs = .ok (result, fs'))

variable {params : MbrokerParams} {fs fs' : FileSystem.State} {model : Model Nat}

theorem Files.taken_open (files : Files params fs model) {handle : Nat}
    (inside : handle < params.maxSessions) :
    fs.freeOpenFileEntries handle = .taken ↔ model.handles handle ≠ none := by
  rw [Ne, files.represents.handles_none files.invariant.1, not_not, State.HandleTaken,
    files.maxOpenFiles, and_iff_right inside]

/-- A `tfs_open` that fails with an entry to spare leaves the name without a file. -/
theorem Files.openFails_unbound {path : CString} {mode : TfsFileMode} {result : CallResult}
    (files : Files params fs model) (noTrunc : mode.tfsOTrunc = false)
    (room : ∃ handle, handle < params.maxSessions ∧ model.handles handle = none)
    (returned : Call.run (.tfsOpen (some path) mode) fs = .ok (result, fs'))
    (failed : result.length < 0) (valid : ValidPathname path) (inode : Nat) :
    ¬ fs.Binds path.tail inode ∧ ¬ fs'.Binds path.tail inode := by
  obtain ⟨creat, trunc, append⟩ := mode
  replace noTrunc : trunc = false := noTrunc
  subst noTrunc
  obtain ⟨handle, inside, closed⟩ := room
  obtain ⟨model', opened, files'⟩ := files.opens returned
  generalize result.length = length at opened failed
  cases opened with
  | refused _ present =>
      have missing : model.names path.tail = none := by
        by_contra names
        exact present valid names handle inside closed
      exact ⟨files.represents.names_none.mp missing inode,
        files'.represents.names_none.mp missing inode⟩
  | stranded _ _ _ _ full => exact (full handle inside closed).elim
  | existing _ _ _ _ => omega
  | created _ _ _ _ _ => omega

variable {broker : Broker (Fin params.maxSessions)}

namespace FilesHeld

theorem owned (held : FilesHeld params broker model) {handle : Nat}
    (taken : handle ∈ takenEntries broker.server.fs params.maxSessions) :
    ∃ worker, (broker.workers worker).file? = some (handle : Int) ∧
      (broker.workers worker).InFileHandler ∧
      ∀ other, (broker.workers other).file? = some (handle : Int) → other = worker := by
  obtain ⟨inside, marked⟩ := Finset.mem_filter.mp taken
  obtain ⟨worker, holds⟩ := held.covered handle
    ((held.files.taken_open (Finset.mem_range.mp inside)).mp marked)
  exact ⟨worker, holds, Point.file_inFileHandler holds,
    fun other others => held.owner other worker handle others holds⟩

/-- Different entries have different workers. -/
theorem bounded (held : FilesHeld params broker model) :
    (takenEntries broker.server.fs params.maxSessions).card ≤
      (fileHandlers broker.workers).card := by
  have owner (entry : takenEntries broker.server.fs params.maxSessions) :
      ∃ worker, (broker.workers worker).file? = some ((entry : Nat) : Int) ∧
        (broker.workers worker).InFileHandler := by
    obtain ⟨worker, holds, inside, _⟩ := held.owned entry.2
    exact ⟨worker, holds, inside⟩
  choose worker holds inside using owner
  apply Finset.card_le_card_of_injOn
    (fun handle => if taken : handle ∈ takenEntries broker.server.fs params.maxSessions then
      worker ⟨handle, taken⟩ else ⟨0, params.positive⟩)
  · intro handle taken
    simp only [dif_pos (Finset.mem_coe.mp taken), fileHandlers, Finset.coe_filter,
      Finset.mem_univ, true_and, Set.mem_ofPred_eq]
    exact inside _
  · intro left leftTaken right rightTaken same
    simp only [dif_pos (Finset.mem_coe.mp leftTaken), dif_pos (Finset.mem_coe.mp rightTaken)]
      at same
    have leftHolds := holds ⟨left, leftTaken⟩
    rw [same, holds ⟨right, rightTaken⟩, Option.some.injEq] at leftHolds
    exact (Int.ofNat_inj.mp leftHolds).symm

theorem opens (held : FilesHeld params broker model) {worker : Fin params.maxSessions}
    {path : CString} {mode : TfsFileMode}
    (calls : (broker.workers worker).opens? = some (path, mode)) :
    (∃ handle, handle < params.maxSessions ∧
      broker.server.fs.freeOpenFileEntries handle = .free) ∧
    ∀ result fs', Call.run (.tfsOpen (some path) mode) broker.server.fs = .ok (result, fs') →
      result.length < 0 → ValidPathname path → ∀ inode,
        ¬ broker.server.fs.Binds path.tail inode ∧ ¬ fs'.Binds path.tail inode := by
  obtain ⟨without, noTrunc⟩ := Point.opens_file calls
  obtain ⟨handle, inside, closed⟩ := held.handle_free without
  constructor
  · refine ⟨handle, inside, ?_⟩
    cases mark : broker.server.fs.freeOpenFileEntries handle with
    | free => rfl
    | taken => exact ((held.files.taken_open inside).mp mark closed).elim
  · intro result fs' returned failed valid inode
    exact held.files.openFails_unbound noTrunc ⟨handle, inside, closed⟩ returned failed valid
      inode

theorem closes (held : FilesHeld params broker model) {worker : Fin params.maxSessions}
    {handle : Nat} (calls : (broker.workers worker).closes? = some (handle : Int)) :
    (∀ result fs', Call.run (.tfsClose handle) broker.server.fs = .ok (result, fs') →
      result.length = 0) ∧
    (params.maxSessions < 2 ^ 31 →
      ∃ result fs', Call.run (.tfsClose handle) broker.server.fs = .ok (result, fs')) := by
  have opened := held.held worker handle (Point.closes_file calls)
  constructor
  · intro result fs' returned
    obtain ⟨model', step, _⟩ := held.files.step (.closes handle) returned
    generalize same : (handle : Int) = fhandle at step
    cases step with
    | closeInvalid closed => exact (opened (closed handle same.symm)).elim
    | closes _ => rfl
  · intro small
    exact held.files.returns small (.closes handle)

end FilesHeld

/-- The TAKEN entries of the open file table are the files of different workers inside
publisher, subscriber and create handlers; no `tfs_open` of a handler lacks an entry, and
`tfs_close` of an obtained handle returns 0. -/
theorem handles_accounted {atomicity : Atomicity}
    (reachable : (brokerSystem atomicity params).Reachable broker) :
    HandlesAccounted params broker := by
  obtain ⟨model, held⟩ := Broker.reachable_filesHeld reachable
  constructor
  · intro handle taken
    exact held.owned taken
  · exact held.bounded
  · intro worker atIdle
    rw [atIdle]
    rfl
  · intro worker path mode calls
    exact held.opens calls
  · intro worker handle calls
    exact held.closes calls

/-- After a box was created no entry is TAKEN for the workers that wait. -/
theorem handles_accounted_created :
    ∃ broker : Broker (Fin twoSessions.maxSessions),
      broker.server.IsTaken 0 ∧ HandlesAccounted twoSessions broker := by
  obtain ⟨fs, id, _, reachable⟩ := exists_firstBox .sections (fun _ => ⟨boxA, 0, 0, 0⟩)
    boxA_short workerA (fun _ _ _ => True) (fun _ _ _ => trivial)
  exact ⟨_, firstBoxServer_isTaken _ _ _, handles_accounted reachable.of_restrict⟩

end TecnicoFS.Mbroker
