/-
Every open file of the broker belongs to one worker.

A worker opens a file only while it has none and closes it before its handler returns, so
with as many entries in the open file table as workers an open never finds the table full.
-/

import Mathlib.Data.Fintype.Card
import TecnicoFS.Mbroker.Files
import TecnicoFS.Mbroker.Sessions

set_option autoImplicit false

namespace TecnicoFS.Mbroker

open FileSystem

/-- What a step does to the open files, with the file of its worker before and after -/
inductive OpenFilesStep (model model' : Model Nat) : Option Int → Option Int → Prop where
  | same {file file' : Option Int} :
      (∀ handle : Nat, file' = some (handle : Int) ↔ file = some (handle : Int)) →
      (∀ handle, model'.handles handle = none ↔ model.handles handle = none) →
      OpenFilesStep model model' file file'
  | opens {handle : Nat} : model.handles handle = none → model'.handles handle ≠ none →
      (∀ other, other ≠ handle → (model'.handles other = none ↔ model.handles other = none)) →
      OpenFilesStep model model' none (some handle)
  | closes {handle : Nat} : model'.handles handle = none →
      (∀ other, other ≠ handle → (model'.handles other = none ↔ model.handles other = none)) →
      OpenFilesStep model model' (some handle) none

variable {params : MbrokerParams} {fs fs' : FileSystem.State} {model model' : Model Nat}

theorem OpenFilesStep.refl (file : Option Int) : OpenFilesStep model model file file :=
  .same (fun _ => Iff.rfl) (fun _ => Iff.rfl)

theorem setHandle_none {handle id offset other : Nat} (different : other ≠ handle) :
    (model.setHandle handle id offset).handles other = none ↔ model.handles other = none := by
  have kept : (model.setHandle handle id offset).handles other = model.handles other :=
    Function.update_of_ne different _ _
  rw [kept]

theorem setHandle_open {handle id offset : Nat} :
    (model.setHandle handle id offset).handles handle ≠ none := by
  have opened : (model.setHandle handle id offset).handles handle = some (id, offset) :=
    Function.update_self _ _ _
  rw [opened]
  exact Option.some_ne_none _

namespace Files

/-- A failed `tfs_open` opens nothing. -/
theorem openFails {boxName : CString} {creat append : Bool} {result : CallResult}
    (files : Files params fs model)
    (returned : Call.run (.tfsOpen (some boxName) ⟨creat, false, append⟩) fs =
      .ok (result, fs')) (failed : result.length < 0) :
    ∃ model', Files params fs' model' ∧ model'.handles = model.handles := by
  obtain ⟨model', effect, files'⟩ := files.opens returned
  refine ⟨model', files', ?_⟩
  generalize result.length = outcome at effect failed
  cases effect with
  | refused _ _ => rfl
  | stranded _ _ _ _ _ => rfl
  | existing _ _ _ _ => omega
  | created _ _ _ _ _ => omega

theorem openSucceeds {boxName : CString} {creat append : Bool} {result : CallResult}
    (files : Files params fs model)
    (returned : Call.run (.tfsOpen (some boxName) ⟨creat, false, append⟩) fs =
      .ok (result, fs')) (opened : 0 ≤ result.length) :
    ∃ model', Files params fs' model' ∧
      OpenFilesStep model model' none (some result.length) := by
  obtain ⟨model', effect, files'⟩ := files.opens returned
  refine ⟨model', files', ?_⟩
  generalize result.length = handle at effect opened ⊢
  cases effect with
  | refused _ _ => omega
  | stranded _ _ _ _ _ => omega
  | existing _ _ _ closed =>
      exact .opens closed setHandle_open (fun other different => setHandle_none different)
  | created _ _ _ _ closed =>
      exact .opens closed setHandle_open (fun other different => setHandle_none different)

/-- `tfs_close` of the file of a worker -/
theorem closeStep {f : Int} {result : CallResult} (files : Files params fs model)
    (held : ∀ handle : Nat, f = handle → model.handles handle ≠ none)
    (returned : Call.run (.tfsClose f) fs = .ok (result, fs')) :
    ∃ model', Files params fs' model' ∧ OpenFilesStep model model' (some f) none := by
  rcases files.closes returned with ⟨closed, files'⟩ | ⟨handle, id, offset, same, holds, files'⟩
  · refine ⟨model, files', .same (fun handle => ?_) (fun _ => Iff.rfl)⟩
    constructor
    · intro impossible
      cases impossible
    · intro same
      rw [Option.some.injEq] at same
      exact (held handle same (closed handle same)).elim
  · subst same
    refine ⟨_, files', .closes ?_ (fun other different => ?_)⟩
    · rw [collect_handles]
      exact Function.update_self _ _ _
    · have kept : (model.closeHandle handle).handles other = model.handles other :=
        Function.update_of_ne different _ _
      rw [collect_handles, kept]

theorem unlinkStep {boxName : CString} {result : CallResult} (files : Files params fs model)
    (returned : Call.run (.tfsUnlink (some boxName)) fs = .ok (result, fs')) :
    ∃ model', Files params fs' model' ∧ model'.handles = model.handles := by
  rcases files.unlinks returned with ⟨_, _, files'⟩ | ⟨id, _, _, _, files'⟩
  · exact ⟨model, files', rfl⟩
  · exact ⟨_, files', collect_handles _ _⟩

theorem transferStep {call : Call} {result : CallResult} (files : Files params fs model)
    (transfer : (∃ f message, call = writeCall f message) ∨ ∃ f, call = readCall f)
    (returned : call.run fs = .ok (result, fs')) :
    ∃ model', Files params fs' model' ∧
      ∀ handle, model'.handles handle = none ↔ model.handles handle = none := by
  obtain ⟨model', _, files', _, moved⟩ := files.transfers transfer returned
  refine ⟨model', files', fun handle => ?_⟩
  rw [← Option.map_eq_none_iff (f := Prod.fst), moved handle, Option.map_eq_none_iff]

end Files

/-! ### Workers -/

variable {Thread : Type} {atomicity : Atomicity} {broker broker' : Broker Thread}

/-- The open files and the workers they belong to -/
structure FilesHeld (params : MbrokerParams) (broker : Broker Thread) (model : Model Nat) :
    Prop where
  files : Files params broker.server.fs model
  held : ∀ thread (handle : Nat), (broker.workers thread).file? = some (handle : Int) →
    model.handles handle ≠ none
  owner : ∀ left right (handle : Nat), (broker.workers left).file? = some (handle : Int) →
    (broker.workers right).file? = some (handle : Int) → left = right
  covered : ∀ handle, model.handles handle ≠ none →
    ∃ thread, (broker.workers thread).file? = some (handle : Int)

theorem PublisherStep.openFiles {server server' : Server Thread} {point : PublisherPoint}
    {next : Option PublisherPoint} (step : PublisherStep server point server' next)
    (files : Files params server.fs model)
    (held : ∀ handle : Nat, (Point.publisher point).file? = some (handle : Int) →
      model.handles handle ≠ none) :
    ∃ model', Files params server'.fs model' ∧ OpenFilesStep model model'
      (Point.publisher point).file? (next.elim Point.idle Point.publisher).file? := by
  cases step with
  | openFails _ _ returned failed =>
      obtain ⟨model', files', same⟩ := files.openFails returned failed
      exact ⟨model', files', .same (fun _ => Iff.rfl) (fun _ => by rw [same])⟩
  | registers _ _ returned opened => exact files.openSucceeds returned opened
  | writes returned _ =>
      obtain ⟨model', files', same⟩ := files.transferStep (Or.inl ⟨_, _, rfl⟩) returned
      exact ⟨model', files', .same (fun _ => Iff.rfl) same⟩
  | writeFails returned _ =>
      obtain ⟨model', files', same⟩ := files.transferStep (Or.inl ⟨_, _, rfl⟩) returned
      exact ⟨model', files', .same (fun _ => Iff.rfl) same⟩
  | closes returned =>
      exact files.closeStep (fun handle same => held handle (congrArg some same)) returned
  | _ => exact ⟨model, files, .refl _⟩

theorem SubscriberStep.openFiles [DecidableEq Thread] {thread : Thread} {server server' : Server Thread}
    {point : SubscriberPoint} {next : Option SubscriberPoint}
    (step : SubscriberStep thread server point server' next)
    (files : Files params server.fs model)
    (held : ∀ handle : Nat, (Point.subscriber point).file? = some (handle : Int) →
      model.handles handle ≠ none) :
    ∃ model', Files params server'.fs model' ∧ OpenFilesStep model model'
      (Point.subscriber point).file? (next.elim Point.idle Point.subscriber).file? := by
  cases step with
  | openFails _ returned failed =>
      obtain ⟨model', files', same⟩ := files.openFails returned failed
      exact ⟨model', files', .same (fun _ => Iff.rfl) (fun _ => by rw [same])⟩
  | registers _ returned opened => exact files.openSucceeds returned opened
  | reads _ _ returned _ =>
      obtain ⟨model', files', same⟩ := files.transferStep (Or.inr ⟨_, rfl⟩) returned
      exact ⟨model', files', .same (fun _ => Iff.rfl) same⟩
  | blocks _ _ returned _ =>
      obtain ⟨model', files', same⟩ := files.transferStep (Or.inr ⟨_, rfl⟩) returned
      exact ⟨model', files', .same (fun _ => Iff.rfl) same⟩
  | readsNext returned _ =>
      obtain ⟨model', files', same⟩ := files.transferStep (Or.inr ⟨_, rfl⟩) returned
      exact ⟨model', files', .same (fun _ => Iff.rfl) same⟩
  | readsLast returned _ =>
      obtain ⟨model', files', same⟩ := files.transferStep (Or.inr ⟨_, rfl⟩) returned
      exact ⟨model', files', .same (fun _ => Iff.rfl) same⟩
  | closes returned =>
      exact files.closeStep (fun handle same => held handle (congrArg some same)) returned
  | _ => exact ⟨model, files, .refl _⟩

theorem CreateStep.openFiles {server server' : Server Thread} {point : CreatePoint}
    {next : Option CreatePoint} (step : CreateStep atomicity server point server' next)
    (files : Files params server.fs model)
    (held : ∀ handle : Nat, (Point.create point).file? = some (handle : Int) →
      model.handles handle ≠ none) :
    ∃ model', Files params server'.fs model' ∧ OpenFilesStep model model'
      (Point.create point).file? (next.elim Point.idle Point.create).file? := by
  -- A failed open leaves a negative number in `f`.
  have failure {result : Int} (failed : result < 0) (handle : Nat) :
      some result = some (handle : Int) ↔ (none : Option Int) = some (handle : Int) := by
    constructor
    · intro same
      rw [Option.some.injEq] at same
      omega
    · intro impossible
      cases impossible
  cases step with
  | «exists» returned opened => exact files.openSucceeds returned opened
  | absent returned failed =>
      obtain ⟨model', files', same⟩ := files.openFails returned failed
      exact ⟨model', files', .same (fun _ => Iff.rfl) (fun _ => by rw [same])⟩
  | openFails returned failed =>
      obtain ⟨model', files', same⟩ := files.openFails returned failed
      exact ⟨model', files', .same (failure failed) (fun _ => by rw [same])⟩
  | opens returned opened => exact files.openSucceeds returned opened
  | closes returned =>
      exact files.closeStep (fun handle same => held handle (congrArg some same)) returned
  | _ => exact ⟨model, files, .refl _⟩

theorem RemoveStep.openFiles {server server' : Server Thread} {point : RemovePoint}
    {next : Option RemovePoint} (step : RemoveStep server point server' next)
    (files : Files params server.fs model) :
    ∃ model', Files params server'.fs model' ∧ OpenFilesStep model model'
      (Point.remove point).file? (next.elim Point.idle Point.remove).file? := by
  have none (point : Option RemovePoint) :
      (point.elim Point.idle Point.remove).file? = Option.none := by
    cases point <;> rfl
  cases step with
  | unlinks returned =>
      obtain ⟨model', files', same⟩ := files.unlinkStep returned
      exact ⟨model', files', .same (fun _ => Iff.rfl) (fun _ => by rw [same])⟩
  | _ => exact ⟨model, files, .same (fun _ => by rw [none]; exact Iff.rfl) (fun _ => Iff.rfl)⟩

namespace Broker

variable [DecidableEq Thread] {thread : Thread}

theorem Step.openFiles (step : broker.Step atomicity thread broker')
    (files : Files params broker.server.fs model)
    (held : ∀ handle : Nat, (broker.workers thread).file? = some (handle : Int) →
      model.handles handle ≠ none) :
    ∃ model', Files params broker'.server.fs model' ∧ OpenFilesStep model model'
      (broker.workers thread).file? (broker'.workers thread).file? := by
  cases step with
  | dequeue request atIdle =>
      refine ⟨model, files, ?_⟩
      rw [goto_self, atIdle]
      cases request <;> exact .refl _
  | publisher atPoint taken =>
      rw [atPoint] at held
      rw [goto_self, atPoint]
      exact taken.openFiles files held
  | subscriber atPoint taken =>
      rw [atPoint] at held
      rw [goto_self, atPoint]
      exact taken.openFiles files held
  | create atPoint taken =>
      rw [atPoint] at held
      rw [goto_self, atPoint]
      exact taken.openFiles files held
  | remove atPoint taken =>
      rw [goto_self, atPoint]
      exact taken.openFiles files

end Broker

/-- One worker changes its file with the file system, and the others keep theirs. -/
theorem FilesHeld.change {thread : Thread} (held : FilesHeld params broker model)
    (files' : Files params broker'.server.fs model')
    (change : OpenFilesStep model model' (broker.workers thread).file?
      (broker'.workers thread).file?)
    (others : ∀ {other : Thread}, other ≠ thread →
      (broker'.workers other).file? = (broker.workers other).file?) :
    FilesHeld params broker' model' := by
  generalize before : (broker.workers thread).file? = file at change
  generalize after : (broker'.workers thread).file? = file' at change
  cases change with
  | same files handles =>
      have held' (worker : Thread) (handle : Nat) :
          (broker'.workers worker).file? = some (handle : Int) ↔
            (broker.workers worker).file? = some (handle : Int) := by
        by_cases moved : worker = thread
        · rw [moved, before, after]
          exact files handle
        · rw [others moved]
      constructor
      · exact files'
      · intro worker handle holds
        rw [Ne, handles]
        exact held.held worker handle ((held' worker handle).mp holds)
      · intro left right handle leftHolds rightHolds
        exact held.owner left right handle ((held' left handle).mp leftHolds)
          ((held' right handle).mp rightHolds)
      · intro handle opened
        rw [Ne, handles] at opened
        obtain ⟨worker, holds⟩ := held.covered handle opened
        exact ⟨worker, (held' worker handle).mpr holds⟩
  | @opens handle closed opened handles =>
      -- The worker is the only one with the new handle, which nobody had before.
      have old {worker : Thread} {other : Nat} (moved : worker ≠ thread)
          (holds : (broker'.workers worker).file? = some (other : Int)) : other ≠ handle := by
        intro same
        rw [others moved, same] at holds
        exact held.held worker handle holds closed
      have new {other : Nat} (holds : (broker'.workers thread).file? = some (other : Int)) :
          other = handle := by
        rw [after, Option.some.injEq] at holds
        omega
      constructor
      · exact files'
      · intro worker other holds
        by_cases moved : worker = thread
        · subst moved
          rw [new holds]
          exact opened
        · rw [Ne, handles other (old moved holds)]
          rw [others moved] at holds
          exact held.held worker other holds
      · intro left right other leftHolds rightHolds
        by_cases leftMoved : left = thread
        · by_cases rightMoved : right = thread
          · rw [leftMoved, rightMoved]
          · rw [leftMoved] at leftHolds
            exact (old rightMoved rightHolds (new leftHolds)).elim
        · by_cases rightMoved : right = thread
          · rw [rightMoved] at rightHolds
            exact (old leftMoved leftHolds (new rightHolds)).elim
          · rw [others leftMoved] at leftHolds
            rw [others rightMoved] at rightHolds
            exact held.owner left right other leftHolds rightHolds
      · intro other isOpen
        by_cases same : other = handle
        · rw [same]
          exact ⟨thread, after⟩
        · rw [Ne, handles other same] at isOpen
          obtain ⟨worker, holds⟩ := held.covered other isOpen
          have moved : worker ≠ thread := by
            intro same
            rw [same, before] at holds
            cases holds
          exact ⟨worker, (others moved).trans holds⟩
  | @closes handle closed handles =>
      have kept {worker : Thread} {other : Nat}
          (holds : (broker'.workers worker).file? = some (other : Int)) :
          worker ≠ thread ∧ (broker.workers worker).file? = some (other : Int) := by
        have moved : worker ≠ thread := by
          intro same
          rw [same, after] at holds
          cases holds
        exact ⟨moved, (others moved).symm.trans holds⟩
      constructor
      · exact files'
      · intro worker other holds
        obtain ⟨moved, holds⟩ := kept holds
        have different : other ≠ handle := by
          intro same
          rw [same] at holds
          exact moved (held.owner worker thread handle holds before)
        rw [Ne, handles other different]
        exact held.held worker other holds
      · intro left right other leftHolds rightHolds
        exact held.owner left right other (kept leftHolds).2 (kept rightHolds).2
      · intro other isOpen
        have different : other ≠ handle := by
          intro same
          rw [same] at isOpen
          exact isOpen closed
        rw [Ne, handles other different] at isOpen
        obtain ⟨worker, holds⟩ := held.covered other isOpen
        have moved : worker ≠ thread := by
          intro same
          rw [same, before, Option.some.injEq] at holds
          omega
        exact ⟨worker, (others moved).trans holds⟩

theorem FilesHeld.step [DecidableEq Thread] {thread : Thread}
    (held : FilesHeld params broker model) (step : broker.Step atomicity thread broker') :
    ∃ model', FilesHeld params broker' model' := by
  obtain ⟨model', files', change⟩ := step.openFiles held.files (held.held thread)
  refine ⟨model', held.change files' change ?_⟩
  intro other different
  rw [step.others different]

/-- The tables determine the abstract file system. -/
theorem Files.unique (left : Files params fs model) (right : Files params fs model') :
    model = model' := by
  obtain ⟨leftNames, leftFiles, leftLinks, leftHandles, _⟩ := left.represents
  obtain ⟨rightNames, rightFiles, rightLinks, rightHandles, _⟩ := right.represents
  cases model
  cases model'
  congr
  · funext name
    exact Option.ext (fun id => (leftNames name id).trans (rightNames name id).symm)
  · funext id
    exact Option.ext (fun contents =>
      (leftFiles id contents).trans (rightFiles id contents).symm)
  · funext id
    exact Option.ext (fun target => (leftLinks id target).trans (rightLinks id target).symm)
  · funext handle
    exact Option.ext (fun place =>
      (leftHandles handle place.1 place.2).trans (rightHandles handle place.1 place.2).symm)

theorem MbrokerInit.filesHeld [DecidableEq Thread] {server : Server Thread}
    (started : MbrokerInit params server) (idle : ∀ thread, broker.workers thread = .idle)
    (same : broker.server = server) : FilesHeld params broker Model.empty := by
  subst same
  obtain ⟨_, _, returned⟩ := started.tfsStarted
  have none (thread : Thread) : (broker.workers thread).file? = Option.none := by
    rw [idle thread]
    rfl
  constructor
  · exact Files.init returned
  · intro thread handle holds
    rw [none] at holds
    cases holds
  · intro left right handle leftHolds
    rw [none] at leftHolds
    cases leftHolds
  · intro handle opened
    exact (opened rfl).elim

theorem Broker.reachable_filesHeld {broker : Broker (Fin params.maxSessions)}
    (reachable : (brokerSystem atomicity params).Reachable broker) :
    ∃ model, FilesHeld params broker model := by
  apply reachable.preserves
  · rintro start ⟨started, idle⟩
    exact ⟨_, started.filesHeld idle rfl⟩
  · rintro thread before after ⟨model, held⟩ step
    exact held.step step

/-- A worker without a file finds an entry of the open file table free. -/
theorem FilesHeld.handle_free {broker : Broker (Fin params.maxSessions)}
    (held : FilesHeld params broker model) {thread : Fin params.maxSessions}
    (without : (broker.workers thread).file? = none) :
    ∃ handle, handle < params.maxSessions ∧ model.handles handle = none := by
  by_contra allOpen
  push Not at allOpen
  -- The workers with a file would be as many as all workers.
  choose holder holds using fun handle : Fin params.maxSessions =>
    held.covered handle (allOpen handle handle.isLt)
  have injective : Function.Injective holder := by
    intro left right same
    have leftHolds := holds left
    rw [same, holds right, Option.some.injEq] at leftHolds
    exact Fin.ext (by omega)
  obtain ⟨handle, same⟩ := (Finite.injective_iff_surjective.mp injective) thread
  have opened := holds handle
  rw [same, without] at opened
  cases opened

end TecnicoFS.Mbroker
