/-
Runs of the broker up to its first box.
-/

import TecnicoFS.Mbroker.FileCalls
import TecnicoFS.Mbroker.Sessions

set_option autoImplicit false

namespace TecnicoFS.Mbroker

open FileSystem

variable {params : MbrokerParams} {atomicity : Atomicity}
  {broker : Broker (Fin params.maxSessions)} {thread : Fin params.maxSessions}
  {server server' : Server (Fin params.maxSessions)} {model : Model Nat}
  {permitted : Fin params.maxSessions → Broker (Fin params.maxSessions) →
    Broker (Fin params.maxSessions) → Prop}

/-! ### Steps of one worker -/

namespace Broker

theorem goto_goto {Thread : Type} [DecidableEq Thread] (broker : Broker Thread)
    (thread : Thread) (server server' : Server Thread) (point point' : Point) :
    (broker.goto thread server point).goto thread server' point' =
      broker.goto thread server' point' := by
  unfold goto
  rw [Function.update_idem]

theorem goto_same {Thread : Type} [DecidableEq Thread] (broker : Broker Thread)
    (thread : Thread) {point : Point} (atPoint : broker.workers thread = point) :
    broker.goto thread broker.server point = broker := by
  unfold goto
  rw [← atPoint, Function.update_eq_self]

theorem reaches_request
    (reachable : ((brokerSystem atomicity params).restrict permitted).Reachable
      (broker.goto thread server .idle)) (request : Request)
    (allowed : ∀ after, permitted thread (broker.goto thread server .idle) after) :
    ((brokerSystem atomicity params).restrict permitted).Reachable
      (broker.goto thread server request.start) := by
  have taken := reachable.step
    ⟨Step.dequeue request (goto_self broker thread server .idle), allowed _⟩
  rw [goto_goto] at taken
  exact taken

theorem reaches_subscriber {point : SubscriberPoint} {next : Option SubscriberPoint}
    (reachable : ((brokerSystem atomicity params).restrict permitted).Reachable
      (broker.goto thread server (.subscriber point)))
    (step : SubscriberStep thread server point server' next)
    (allowed : ∀ after, permitted thread (broker.goto thread server (.subscriber point)) after) :
    ((brokerSystem atomicity params).restrict permitted).Reachable
      (broker.goto thread server' (next.elim .idle .subscriber)) := by
  have taken := reachable.step
    ⟨Step.subscriber (goto_self broker thread server _) step, allowed _⟩
  rw [goto_goto] at taken
  exact taken

theorem reaches_create {point : CreatePoint} {next : Option CreatePoint}
    (reachable : ((brokerSystem atomicity params).restrict permitted).Reachable
      (broker.goto thread server (.create point)))
    (step : CreateStep atomicity server point server' next)
    (allowed : ∀ after, permitted thread (broker.goto thread server (.create point)) after) :
    ((brokerSystem atomicity params).restrict permitted).Reachable
      (broker.goto thread server' (next.elim .idle .create)) := by
  have taken := reachable.step
    ⟨Step.create (goto_self broker thread server _) step, allowed _⟩
  rw [goto_goto] at taken
  exact taken

theorem reaches_remove {point : RemovePoint} {next : Option RemovePoint}
    (reachable : ((brokerSystem atomicity params).restrict permitted).Reachable
      (broker.goto thread server (.remove point)))
    (step : RemoveStep server point server' next)
    (allowed : ∀ after, permitted thread (broker.goto thread server (.remove point)) after) :
    ((brokerSystem atomicity params).restrict permitted).Reachable
      (broker.goto thread server' (next.elim .idle .remove)) := by
  have taken := reachable.step
    ⟨Step.remove (goto_self broker thread server _) step, allowed _⟩
  rw [goto_goto] at taken
  exact taken

end Broker

/-! ### The start -/

/-- The server after `mbroker_init`, with the boxes `malloc` left -/
def initialServer {Thread : Type} (fs : FileSystem.State) (boxes : Nat → Box) :
    Server Thread where
  fs := fs
  nBoxes := 0
  boxesTable := boxes
  freeBoxes := fun _ => .free
  boxMutex := fun _ => none
  waiting := fun _ _ => false
  occupants := fun _ => 0
  occupantName := fun boxI => (boxes boxI).name
  stored := fun _ => []
  events := []

def initialBroker {Thread : Type} (fs : FileSystem.State) (boxes : Nat → Box) :
    Broker Thread where
  server := initialServer fs boxes
  workers := fun _ => .idle

/-- A server with two workers -/
def twoSessions : MbrokerParams where
  maxSessions := 2
  positive := by decide
  range := by decide

/-- Some memory lets `mbroker_init` succeed. -/
theorem exists_started (boxes : Nat → Box) :
    ∃ fs, Files twoSessions fs Model.empty ∧
      MbrokerInit twoSessions (initialServer fs boxes : Server (Fin twoSessions.maxSessions)) := by
  have succeed : mallocsSucceed (fun _ => true) twoSessions.tfsParams = true := by decide
  have inside : initLoopsInside twoSessions.tfsParams := by decide
  have fits : twoSessions.tfsParams.Fits := by
    refine ⟨by decide, by decide, by decide, by decide, by decide⟩
  obtain ⟨fs, returned⟩ := tfsInit_succeeds Garbage.zeros succeed inside fits (by decide)
    (by decide) (by decide)
  refine ⟨fs, Files.init returned, ?_⟩
  constructor
  · exact ⟨_, _, returned⟩
  · rfl
  · intro boxI
    rfl
  · intro boxI
    rfl
  · intro boxI worker
    rfl
  · intro boxI
    rfl
  · rfl

/-! ### The first box -/

/-- The abstract file system with one empty file that no handle leads to -/
def oneFile (name : CString) (id : Nat) : Model Nat :=
  (Model.empty.setFile id []).bind name id

theorem oneFile_names (name : CString) (id : Nat) : (oneFile name id).names name = some id :=
  Function.update_self _ _ _

theorem oneFile_files (name : CString) (id : Nat) : (oneFile name id).files id = some [] :=
  Function.update_self _ _ _

/-- Closing the handle a file was created with -/
theorem oneFile_close (name : CString) (id handle : Nat) :
    (((oneFile name id).setHandle handle id 0).closeHandle handle).collect id =
      oneFile name id :=
  closeHandle_setHandle rfl (oneFile_names name id)

/-- The server with a box in its first slot -/
def firstBoxServer {Thread : Type} (fs : FileSystem.State) (boxes : Nat → Box)
    (boxName : CString) : Server Thread :=
  ((initialServer fs boxes).takeBox 0 boxName).fillBox 0 boxName

theorem firstBoxServer_isTaken {Thread : Type} (fs : FileSystem.State) (boxes : Nat → Box)
    (boxName : CString) : (firstBoxServer fs boxes boxName : Server Thread).IsTaken 0 := by
  unfold Server.IsTaken
  exact Function.update_self 0 AllocationState.taken (fun _ => AllocationState.free)

/-- A box in the first slot is found there. -/
theorem boxFind_first (files : Files params server.fs model) {boxName : CString}
    (taken : server.IsTaken 0) (named : (server.boxesTable 0).name = boxName) :
    server.boxFind boxName = some 0 := by
  apply TableSearch.firstSlot_eq_some.mpr
  refine ⟨?_, ?_, fun earlier impossible => (Nat.not_lt_zero earlier impossible).elim⟩
  · rw [Bool.and_eq_true, beq_iff_eq, beq_iff_eq]
    exact ⟨taken, named⟩
  · rw [files.inodeTableSize]
    decide

theorem firstFreeBox_first (files : Files params server.fs model)
    (free : server.freeBoxes 0 = .free) : server.firstFreeBox = some 0 := by
  apply TableSearch.firstSlot_eq_some.mpr
  refine ⟨?_, ?_, fun earlier impossible => (Nat.not_lt_zero earlier impossible).elim⟩
  · rw [beq_iff_eq]
    exact free
  · rw [files.inodeTableSize]
    decide

/-- The only worker that is not idle handles the first create request. -/
structure CreatesFirst (boxes : Nat → Box) (thread : Fin params.maxSessions)
    (broker : Broker (Fin params.maxSessions)) : Prop where
  others : ∀ other, other ≠ thread → broker.workers other = .idle
  creates : broker.workers thread = .idle ∨ ∃ point, broker.workers thread = .create point
  publishers : ∀ boxI, (broker.server.boxesTable boxI).nPublishers = (boxes boxI).nPublishers
  subscribers : ∀ boxI, (broker.server.boxesTable boxI).nSubscribers =
      (boxes boxI).nSubscribers ∨ (broker.server.boxesTable boxI).nSubscribers = 0
  unbound : ∀ boxName, broker.workers thread = .create (.openNew boxName) →
    Files params broker.server.fs Model.empty

/-- The first create request, from its arrival until it has its answer -/
theorem exists_firstBox (atomicity : Atomicity) (boxes : Nat → Box) {name : CString}
    (short : validSubName name) (thread : Fin twoSessions.maxSessions)
    (permitted : Fin twoSessions.maxSessions → Broker (Fin twoSessions.maxSessions) →
      Broker (Fin twoSessions.maxSessions) → Prop)
    (allowed : ∀ before after, CreatesFirst boxes thread before → permitted thread before after) :
    ∃ fs id, Files twoSessions fs (oneFile name id) ∧
      ((brokerSystem atomicity twoSessions).restrict permitted).Reachable
        ((initialBroker fs boxes).goto thread (firstBoxServer fs boxes (rootPath name)) .idle) := by
  obtain ⟨fs, files, started⟩ := exists_started boxes
  have small : twoSessions.maxSessions < 2 ^ 31 := by decide
  -- Both opens, the second of which makes the file
  obtain ⟨first, fs1, returned1⟩ := files.returns small (.opens (rootPath name) false false)
  obtain ⟨absent, files1⟩ := files.opensAbsent (Or.inr rfl) returned1
  obtain ⟨second, fs2, returned2⟩ := files1.returns small (.opens (rootPath name) true false)
  obtain ⟨id, handle, opened, _, _, files2⟩ := files1.opensNew (rootPath_valid short) short rfl
    ⟨1, by decide, by decide, by
      rintro (⟨_, impossible⟩ | ⟨_, _, impossible⟩) <;> cases impossible⟩
    ⟨0, by decide, rfl⟩ returned2
  obtain ⟨third, fs3, returned3⟩ := files2.returns small (.closes handle)
  have files3 : Files twoSessions fs3 (oneFile name id) := by
    rw [← oneFile_close name id handle]
    exact files2.closesHandle (Function.update_self _ _ _) returned3
  refine ⟨fs3, id, files3, ?_⟩
  have idle : (initialBroker fs boxes).goto thread (initialServer fs boxes) .idle =
      initialBroker fs boxes := Broker.goto_same _ thread rfl
  -- Every step of the request is allowed.
  have step {server : Server (Fin twoSessions.maxSessions)} {point : Point}
      (creates : point = .idle ∨ ∃ create, point = .create create)
      (publishers : ∀ boxI, (server.boxesTable boxI).nPublishers = (boxes boxI).nPublishers)
      (subscribers : ∀ boxI, (server.boxesTable boxI).nSubscribers = (boxes boxI).nSubscribers ∨
        (server.boxesTable boxI).nSubscribers = 0)
      (unbound : ∀ boxName, point = .create (.openNew boxName) →
        Files twoSessions server.fs Model.empty) (after : Broker (Fin twoSessions.maxSessions)) :
      permitted thread ((initialBroker fs boxes).goto thread server point) after := by
    apply allowed
    constructor
    · intro other different
      exact Broker.goto_other _ _ _ different
    · rw [Broker.goto_self]
      exact creates
    · exact publishers
    · exact subscribers
    · intro boxName atPoint
      rw [Broker.goto_self] at atPoint
      exact unbound boxName atPoint
  have filled {fs' : FileSystem.State} :
      (∀ boxI, ((firstBoxServer fs' boxes (rootPath name) :
        Server (Fin twoSessions.maxSessions)).boxesTable boxI).nPublishers =
          (boxes boxI).nPublishers) ∧
      ∀ boxI, ((firstBoxServer fs' boxes (rootPath name) :
        Server (Fin twoSessions.maxSessions)).boxesTable boxI).nSubscribers =
          (boxes boxI).nSubscribers ∨ ((firstBoxServer fs' boxes (rootPath name) :
        Server (Fin twoSessions.maxSessions)).boxesTable boxI).nSubscribers = 0 := by
    constructor
    · intro boxI
      by_cases first : boxI = 0
      · subst boxI
        rfl
      · exact congrArg Box.nPublishers (Function.update_of_ne first _ _)
    · intro boxI
      by_cases first : boxI = 0
      · subst boxI
        exact Or.inr rfl
      · exact Or.inl (congrArg Box.nSubscribers (Function.update_of_ne first _ _))
  have started : ((brokerSystem atomicity twoSessions).restrict permitted).Reachable
      ((initialBroker fs boxes).goto thread (initialServer fs boxes) .idle) := by
    rw [idle]
    exact .initial ⟨started, fun _ => rfl⟩
  have requested := Broker.reaches_request started (.createRequest name)
    (step (Or.inl rfl) (fun _ => rfl) (fun _ => Or.inl rfl) (fun _ impossible => by
      cases impossible))
  have checked := Broker.reaches_create requested (.absent returned1 (by omega))
    (step (Or.inr ⟨_, rfl⟩) (fun _ => rfl) (fun _ => Or.inl rfl) (fun _ impossible => by
      cases impossible))
  have created := Broker.reaches_create checked (.opens returned2 (by omega))
    (step (Or.inr ⟨_, rfl⟩) (fun _ => rfl) (fun _ => Or.inl rfl) (fun _ _ => files1))
  have free : ((initialServer fs boxes : Server (Fin twoSessions.maxSessions)).setFs
      fs2).firstFreeBox = some 0 := firstFreeBox_first files2 rfl
  have entered : ((brokerSystem atomicity twoSessions).restrict permitted).Reachable
      ((initialBroker fs boxes).goto thread (firstBoxServer fs2 boxes (rootPath name))
        (.create (.closeFile second.length 0))) := by
    cases atomicity with
    | calls =>
        exact Broker.reaches_create created (.creates rfl free rfl)
          (step (Or.inr ⟨_, rfl⟩) (fun _ => rfl) (fun _ => Or.inl rfl) (fun _ impossible => by
            cases impossible))
    | sections =>
        have taken := Broker.reaches_create created (.takes rfl free)
          (step (Or.inr ⟨_, rfl⟩) (fun _ => rfl) (fun _ => Or.inl rfl) (fun _ impossible => by
            cases impossible))
        exact Broker.reaches_create taken (.fills rfl)
          (step (Or.inr ⟨_, rfl⟩) (fun _ => rfl) (fun _ => Or.inl rfl) (fun _ impossible => by
            cases impossible))
  rw [opened] at entered
  have closed := Broker.reaches_create entered (.closes returned3)
    (step (Or.inr ⟨_, rfl⟩) filled.1 filled.2 (fun _ impossible => by cases impossible))
  exact Broker.reaches_create closed .answers
    (step (Or.inr ⟨_, rfl⟩) filled.1 filled.2 (fun _ impossible => by cases impossible))

def workerA : Fin twoSessions.maxSessions := ⟨0, by decide⟩

def workerB : Fin twoSessions.maxSessions := ⟨1, by decide⟩

/-- A box name -/
def boxA : CString where
  bytes := [97]
  noNul := by decide

theorem boxA_short : validSubName boxA := by decide

/-- Another box name -/
def boxB : CString where
  bytes := [98]
  noNul := by decide

end TecnicoFS.Mbroker
