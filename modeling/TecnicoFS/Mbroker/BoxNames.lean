/-
Boxes and files of one name, created and removed by any number of workers.

A name is in the hands of one holder at a time: the slot of its box, the worker that made
its file and has yet to enter the box, or the worker that removed the box and has yet to
unlink the file.  Only `tfs_open` with `TFS_O_CREAT` on a name that is already there breaks
this, since it hands the same name out twice.
-/

import TecnicoFS.Library.Ownership
import TecnicoFS.Mbroker.FirstBox
import TecnicoFS.Mbroker.OpenFiles

set_option autoImplicit false

namespace TecnicoFS.Mbroker

open FileSystem TableSearch Ownership

variable {Thread : Type}

/-! ### Names and their holders -/

inductive NameHolder (Thread : Type) where
  | slot (boxI : Nat)
  | worker (thread : Thread)
deriving DecidableEq

/-- The box a worker has yet to enter for the file it made, or the file it has yet to
unlink for the box it removed -/
def Point.owes? : Point → Option CString
  | .create (.takeBox boxName _) => some boxName
  | .remove (.unlink boxName) => some boxName
  | _ => none

def Broker.HoldsName (broker : Broker Thread) : NameHolder Thread → CString → Prop
  | .slot boxI, boxName =>
      broker.server.IsTaken boxI ∧ (broker.server.boxesTable boxI).name = boxName
  | .worker thread, boxName => (broker.workers thread).owes? = some boxName

/-- The worker is not about to create a file that is there already. -/
def CreatesAbsent (broker : Broker Thread) (thread : Thread) : Prop :=
  ∀ boxName, broker.workers thread = .create (.openNew boxName) → ¬ broker.server.HasFile boxName

def BoxEvent.boxName : BoxEvent → CString
  | .created boxName => boxName
  | .removed boxName => boxName

/-- Whether the box was last entered or removed -/
def Server.lastEvent (server : Server Thread) (boxName : CString) : Option BoxEvent :=
  server.events.find? (fun event => event.boxName == boxName)

/-- Every file has one holder, and a box that was entered last is in its slot. -/
structure NamesKept (broker : Broker Thread) : Prop where
  owned : Owned broker.HoldsName broker.server.HasFile
  entered : ∀ boxName, broker.server.lastEvent boxName = some (.created boxName) →
    ∃ boxI, broker.HoldsName (.slot boxI) boxName

/-! ### Calls that leave the directory alone -/

/-- Neither `tfs_open` with `TFS_O_CREAT` nor `tfs_unlink` -/
inductive KeepsDirectory : Call → Prop where
  | opens (boxName : CString) (append : Bool) :
      KeepsDirectory (.tfsOpen (some boxName) ⟨false, false, append⟩)
  | closes (f : Int) : KeepsDirectory (.tfsClose f)
  | writes (f : Int) (message : Message) : KeepsDirectory (writeCall f message)
  | reads (f : Int) : KeepsDirectory (readCall f)

variable {params : MbrokerParams} {model model' : Model Nat} {server server' : Server Thread}

theorem KeepsDirectory.names {call : Call} {result : CallResult} {fs fs' : FileSystem.State}
    (keeps : KeepsDirectory call) (files : Files params fs model)
    (returned : call.run fs = .ok (result, fs')) :
    ∃ model', Files params fs' model' ∧ model'.names = model.names := by
  cases keeps with
  | opens boxName append =>
      obtain ⟨model', opened, files'⟩ := files.opens returned
      refine ⟨model', files', ?_⟩
      generalize result.length = length at opened
      cases opened with
      | refused _ _ => rfl
      | stranded impossible _ _ _ _ => cases impossible
      | existing _ _ _ _ => rfl
      | created impossible _ _ _ _ => cases impossible
  | closes f =>
      rcases files.closes returned with ⟨_, files'⟩ | ⟨_, _, _, _, _, files'⟩
      · exact ⟨model, files', rfl⟩
      · exact ⟨_, files', collect_names _ _⟩
  | writes f message =>
      obtain ⟨model', _, files', names, _⟩ := files.transfers (Or.inl ⟨f, message, rfl⟩) returned
      exact ⟨model', files', names⟩
  | reads f =>
      obtain ⟨model', _, files', names, _⟩ := files.transfers (Or.inr ⟨f, rfl⟩) returned
      exact ⟨model', files', names⟩

theorem Files.hasFile_same (files : Files params server.fs model)
    (files' : Files params server'.fs model') (names : model'.names = model.names)
    (boxName : CString) : server'.HasFile boxName ↔ server.HasFile boxName := by
  rw [files.hasFile, files'.hasFile, names]

/-! ### Steps that leave the names alone -/

structure SameNames (server server' : Server Thread) : Prop where
  taken : ∀ boxI, server'.IsTaken boxI ↔ server.IsTaken boxI
  names : ∀ boxI, (server'.boxesTable boxI).name = (server.boxesTable boxI).name
  events : server'.events = server.events
  files : ∀ boxName, server'.HasFile boxName ↔ server.HasFile boxName

theorem Server.setBox_name (server : Server Thread) {boxI : Nat} {box : Box}
    (same : box.name = (server.boxesTable boxI).name) (other : Nat) :
    ((server.setBox boxI box).boxesTable other).name = (server.boxesTable other).name := by
  by_cases here : other = boxI
  · rw [here, server.setBox_self, same]
  · rw [server.setBox_other box here]

theorem Server.addPublisher_name (server : Server Thread) (boxI other : Nat) :
    ((server.addPublisher boxI).boxesTable other).name = (server.boxesTable other).name := by
  apply Server.setBox_name
  rfl

theorem Server.dropPublisher_name (server : Server Thread) (boxI other : Nat) :
    ((server.dropPublisher boxI).boxesTable other).name = (server.boxesTable other).name := by
  apply Server.setBox_name
  rfl

theorem Server.addSubscriber_name (server : Server Thread) (boxI other : Nat) :
    ((server.addSubscriber boxI).boxesTable other).name = (server.boxesTable other).name := by
  apply Server.setBox_name
  rfl

theorem Server.dropSubscriber_name (server : Server Thread) (boxI other : Nat) :
    ((server.dropSubscriber boxI).boxesTable other).name = (server.boxesTable other).name := by
  apply Server.setBox_name
  rfl

theorem Server.addSize_name (server : Server Thread) (boxI other : Nat) :
    ((server.addSize boxI).boxesTable other).name = (server.boxesTable other).name := by
  apply Server.setBox_name
  rfl

theorem KeepsDirectory.sameFiles {call : Call} {result : CallResult}
    (keeps : KeepsDirectory call) (files : Files params server.fs model)
    (returned : call.run server.fs = .ok (result, server'.fs)) (boxName : CString) :
    server'.HasFile boxName ↔ server.HasFile boxName := by
  obtain ⟨model', files', names⟩ := keeps.names files returned
  exact files.hasFile_same files' names boxName

theorem SameNames.refl (server : Server Thread) : SameNames server server :=
  ⟨fun _ => Iff.rfl, fun _ => rfl, rfl, fun _ => Iff.rfl⟩

theorem SameNames.setFs {call : Call} {result : CallResult} {fs : FileSystem.State}
    (keeps : KeepsDirectory call) (files : Files params server.fs model)
    (returned : call.run server.fs = .ok (result, fs)) : SameNames server (server.setFs fs) :=
  ⟨fun _ => Iff.rfl, fun _ => rfl, rfl, keeps.sameFiles files returned⟩

theorem PublisherStep.sameNames {point : PublisherPoint} {next : Option PublisherPoint}
    (step : PublisherStep server point server' next) (files : Files params server.fs model) :
    SameNames server server' := by
  cases step with
  | @openFails box _ fs _ _ returned _ =>
      refine ⟨fun _ => Iff.rfl, fun boxI => ?_, rfl,
        (KeepsDirectory.opens _ _).sameFiles files returned⟩
      exact (((server.addPublisher box.boxI).setFs fs).dropPublisher_name box.boxI boxI).trans
        (server.addPublisher_name box.boxI boxI)
  | registers _ _ returned _ =>
      exact ⟨fun _ => Iff.rfl, server.addPublisher_name _, rfl,
        (KeepsDirectory.opens _ _).sameFiles files returned⟩
  | writes returned _ =>
      exact ⟨fun _ => Iff.rfl, fun _ => rfl, rfl,
        (KeepsDirectory.writes _ _).sameFiles files returned⟩
  | writeFails returned _ =>
      exact ⟨fun _ => Iff.rfl, fun _ => rfl, rfl,
        (KeepsDirectory.writes _ _).sameFiles files returned⟩
  | publishes _ => exact ⟨fun _ => Iff.rfl, server.addSize_name _, rfl, fun _ => Iff.rfl⟩
  | unregisters _ => exact ⟨fun _ => Iff.rfl, server.dropPublisher_name _, rfl, fun _ => Iff.rfl⟩
  | closes returned =>
      exact ⟨fun _ => Iff.rfl, fun _ => rfl, rfl,
        (KeepsDirectory.closes _).sameFiles files returned⟩
  | _ => exact .refl server

theorem SubscriberStep.sameNames [DecidableEq Thread] {thread : Thread}
    {point : SubscriberPoint} {next : Option SubscriberPoint}
    (step : SubscriberStep thread server point server' next)
    (files : Files params server.fs model) : SameNames server server' := by
  have reads {f : Int} {result : CallResult} {after : Server Thread}
      (returned : (readCall f).run server.fs = .ok (result, after.fs)) (boxName : CString) :
      after.HasFile boxName ↔ server.HasFile boxName :=
    (KeepsDirectory.reads f).sameFiles files returned boxName
  cases step with
  | @openFails box _ fs _ returned _ =>
      refine ⟨fun _ => Iff.rfl, fun boxI => ?_, rfl,
        (KeepsDirectory.opens _ _).sameFiles files returned⟩
      exact (((server.addSubscriber box.boxI).setFs fs).dropSubscriber_name box.boxI boxI).trans
        (server.addSubscriber_name box.boxI boxI)
  | registers _ returned _ =>
      exact ⟨fun _ => Iff.rfl, server.addSubscriber_name _, rfl,
        (KeepsDirectory.opens _ _).sameFiles files returned⟩
  | reads _ _ returned _ => exact ⟨fun _ => Iff.rfl, fun _ => rfl, rfl, reads returned⟩
  | blocks _ _ returned _ => exact ⟨fun _ => Iff.rfl, fun _ => rfl, rfl, reads returned⟩
  | readsNext returned _ => exact ⟨fun _ => Iff.rfl, fun _ => rfl, rfl, reads returned⟩
  | readsLast returned _ => exact ⟨fun _ => Iff.rfl, fun _ => rfl, rfl, reads returned⟩
  | wakesSpuriously _ => exact ⟨fun _ => Iff.rfl, fun _ => rfl, rfl, fun _ => Iff.rfl⟩
  | unregisters _ =>
      exact ⟨fun _ => Iff.rfl, server.dropSubscriber_name _, rfl, fun _ => Iff.rfl⟩
  | closes returned =>
      exact ⟨fun _ => Iff.rfl, fun _ => rfl, rfl,
        (KeepsDirectory.closes _).sameFiles files returned⟩
  | _ => exact .refl server

variable [DecidableEq Thread] {broker broker' : Broker Thread} {thread : Thread}

/-- A step that leaves the names and what its worker owes alone -/
theorem NamesKept.same (kept : NamesKept broker) (same : SameNames broker.server server)
    {point : Point} (owes : point.owes? = (broker.workers thread).owes?) :
    NamesKept (broker.goto thread server point) := by
  have holders (holder : NameHolder Thread) (boxName : CString) :
      (broker.goto thread server point).HoldsName holder boxName ↔
        broker.HoldsName holder boxName := by
    cases holder with
    | slot boxI =>
        change server.IsTaken boxI ∧ (server.boxesTable boxI).name = boxName ↔ _
        rw [same.taken, same.names]
        exact Iff.rfl
    | worker worker =>
        change ((broker.goto thread server point).workers worker).owes? = some boxName ↔
          (broker.workers worker).owes? = some boxName
        by_cases moved : worker = thread
        · rw [moved, Broker.goto_self, owes]
        · rw [Broker.goto_other _ _ _ moved]
  constructor
  · exact kept.owned.move (.same holders same.files)
  · intro boxName last
    unfold Server.lastEvent at last
    rw [Broker.goto_server, same.events] at last
    obtain ⟨boxI, holds⟩ := kept.entered boxName last
    exact ⟨boxI, (holders _ _).mpr holds⟩

/-! ### Steps of a request -/

theorem Broker.holdsName_worker {point : Point} {worker : Thread} {boxName : CString} :
    (broker.goto thread server point).HoldsName (.worker worker) boxName ↔
      (worker = thread ∧ point.owes? = some boxName) ∨
        (worker ≠ thread ∧ broker.HoldsName (.worker worker) boxName) := by
  change ((broker.goto thread server point).workers worker).owes? = some boxName ↔ _
  by_cases moved : worker = thread
  · rw [moved, Broker.goto_self]
    simp
  · rw [Broker.goto_other _ _ _ moved]
    simp [moved, Broker.HoldsName]

/-- A new file is in the hands of the worker that made it. -/
theorem NamesKept.gain (kept : NamesKept broker) (files : Files params broker.server.fs model)
    {fs : FileSystem.State} {boxName : CString} {f : Int} {id : Nat}
    (atPoint : broker.workers thread = .create (.openNew boxName)) (valid : ValidPathname boxName)
    (missing : model.names boxName.tail = none)
    (files' : Files params fs model')
    (names : model'.names = Function.update model.names boxName.tail (some id)) :
    NamesKept (broker.goto thread (broker.server.setFs fs) (.create (.takeBox boxName f))) := by
  have owed : (broker.workers thread).owes? = none := by
    rw [atPoint]
    rfl
  constructor
  · apply kept.owned.move
    refine .gain (.worker thread) boxName ?_ ?_ ?_
    · rw [files.hasFile]
      exact fun present => present.2 missing
    · intro holder other
      cases holder with
      | slot boxI => simp [Broker.HoldsName, Server.setFs, Server.IsTaken]
      | worker worker =>
          rw [Broker.holdsName_worker]
          by_cases moved : worker = thread
          · subst moved
            rw [show (Point.create (.takeBox boxName f)).owes? = some boxName from rfl]
            simp [Broker.HoldsName, owed, eq_comm]
          · simp [moved]
    · intro other
      rw [files.hasFile]
      rw [Broker.goto_server, @Files.hasFile _ _ _ (broker.server.setFs fs) files', names,
        Function.update_apply]
      by_cases same : other.tail = boxName.tail
      · rw [if_pos same, same, missing]
        constructor
        · rintro ⟨otherValid, _⟩
          exact Or.inr (otherValid.eq_of_tail valid same)
        · rintro (⟨_, impossible⟩ | same)
          · exact (impossible rfl).elim
          · rw [same]
            exact ⟨valid, Option.some_ne_none id⟩
      · rw [if_neg same]
        constructor
        · exact Or.inl
        · rintro (before | equal)
          · exact before
          · exact (same (congrArg CString.tail equal)).elim
  · intro other last
    obtain ⟨boxI, taken, named⟩ := kept.entered other last
    exact ⟨boxI, taken, named⟩

omit [DecidableEq Thread] in
/-- There are more slots than files, so the box of a new file finds a free one. -/
theorem NamesKept.slotFree (kept : NamesKept broker) (files : Files params broker.server.fs model) :
    broker.server.firstFreeBox ≠ none := by
  intro full
  have taken (boxI : Fin 64) : broker.server.IsTaken boxI := by
    have inside : (boxI : Nat) < broker.server.fs.inodeTableSize := by
      rw [files.inodeTableSize]
      exact boxI.isLt
    have fails := firstSlot_eq_none.mp full boxI inside
    rw [beq_eq_false_iff_ne] at fails
    cases mark : broker.server.freeBoxes boxI with
    | free => exact (fails mark).elim
    | taken => exact mark
  have present (boxI : Fin 64) :
      broker.server.HasFile (broker.server.boxesTable boxI).name :=
    (kept.owned.held _).mpr ⟨.slot boxI, taken boxI, rfl⟩
  have injective :
      Function.Injective (fun boxI : Fin 64 => (broker.server.boxesTable boxI).name.tail) := by
    intro left right same
    have names := (present left).1.eq_of_tail (present right).1 same
    have holders := kept.owned.unique _ (.slot left) (.slot right) ⟨taken left, rfl⟩
      ⟨taken right, names.symm⟩
    exact Fin.ext (NameHolder.slot.inj holders)
  have many := Finset.card_image_of_injective Finset.univ injective
  rw [Finset.card_univ, Fintype.card_fin] at many
  have few : (Finset.univ.image
      (fun boxI : Fin 64 => (broker.server.boxesTable boxI).name.tail)).card ≤ 63 := by
    apply files.few_names
    intro name member
    obtain ⟨boxI, _, same⟩ := Finset.mem_image.mp member
    rw [← same]
    exact ((files.hasFile _).mp (present boxI)).2
  omega

/-- The worker enters the box of its file. -/
theorem NamesKept.enters (kept : NamesKept broker) {boxName : CString} {f : Int} {boxI : Nat}
    (atPoint : broker.workers thread = .create (.takeBox boxName f))
    (found : broker.server.firstFreeBox = some boxI) :
    NamesKept (broker.goto thread
      ((broker.server.takeBox boxI boxName).fillBox boxI boxName)
      (.create (.closeFile f 0))) := by
  obtain ⟨_, free⟩ := broker.server.firstFreeBox_eq_some found
  generalize after : (broker.server.takeBox boxI boxName).fillBox boxI boxName = server
  have takenNew : server.IsTaken boxI := by
    rw [← after]
    exact broker.server.takeBox_isTaken boxI boxName
  have namedNew : (server.boxesTable boxI).name = boxName := by
    rw [← after]
    exact Server.fillBox_name _ boxI boxName
  have takenOther {other : Nat} (different : other ≠ boxI) :
      server.IsTaken other ↔ broker.server.IsTaken other := by
    rw [← after]
    exact broker.server.takeBox_other boxName different
  have namedOther {other : Nat} (different : other ≠ boxI) :
      (server.boxesTable other).name = (broker.server.boxesTable other).name := by
    rw [← after]
    exact congrArg Box.name (Server.fillBox_other _ boxName different)
  have owes : (broker.workers thread).owes? = some boxName := by
    rw [atPoint]
    rfl
  constructor
  · apply kept.owned.move
    refine .pass (.worker thread) (.slot boxI) boxName ?_ ?_ ?_
    · intro other
      change (broker.workers thread).owes? = some other ↔ _
      rw [owes, Option.some.injEq, eq_comm]
    · intro holder other
      cases holder with
      | slot place =>
          change server.IsTaken place ∧ (server.boxesTable place).name = other ↔
            ((broker.server.IsTaken place ∧ (broker.server.boxesTable place).name = other) ∧ _) ∨ _
          by_cases same : place = boxI
          · subst same
            simp [takenNew, namedNew, free, eq_comm]
          · rw [takenOther same, namedOther same]
            simp [same]
      | worker worker =>
          rw [Broker.holdsName_worker]
          by_cases moved : worker = thread
          · subst moved
            simp [Point.owes?]
          · simp [moved]
    · intro other
      rw [Broker.goto_server, ← after]
      exact Iff.rfl
  · intro other last
    rw [Broker.goto_server, ← after] at last
    by_cases same : boxName = other
    · exact ⟨boxI, takenNew, namedNew.trans same⟩
    · have earlier : broker.server.lastEvent other = some (.created other) := by
        rw [← last]
        unfold Server.lastEvent
        exact (List.find?_cons_of_neg (by simpa [BoxEvent.boxName] using same)).symm
      obtain ⟨place, taken, named⟩ := kept.entered other earlier
      have different : place ≠ boxI := by
        intro same
        subst same
        exact free taken
      exact ⟨place, (takenOther different).mpr taken, (namedOther different).trans named⟩

/-- The worker removes the box and has its file to unlink. -/
theorem NamesKept.deletes (kept : NamesKept broker) {boxName : CString} {boxI : Nat}
    (atPoint : broker.workers thread = .remove (.deleteBox boxName))
    (found : broker.server.boxFind boxName = some boxI) :
    NamesKept (broker.goto thread (broker.server.deleteBox boxI boxName)
      (.remove (.unlink boxName))) := by
  obtain ⟨_, taken, named⟩ := broker.server.boxFind_eq_some found
  have freed := broker.server.deleteBox_notTaken boxI boxName
  have takenOther {other : Nat} (different : other ≠ boxI) :=
    broker.server.deleteBox_other boxName different
  have owes : (broker.workers thread).owes? = none := by
    rw [atPoint]
    rfl
  constructor
  · apply kept.owned.move
    refine .pass (.slot boxI) (.worker thread) boxName ?_ ?_ ?_
    · intro other
      change broker.server.IsTaken boxI ∧ (broker.server.boxesTable boxI).name = other ↔ _
      rw [named]
      simp [taken, eq_comm]
    · intro holder other
      cases holder with
      | slot place =>
          change (broker.server.deleteBox boxI boxName).IsTaken place ∧
              (broker.server.boxesTable place).name = other ↔
            ((broker.server.IsTaken place ∧ (broker.server.boxesTable place).name = other) ∧ _) ∨ _
          by_cases same : place = boxI
          · subst same
            simp [freed]
          · rw [takenOther same]
            simp [same]
      | worker worker =>
          rw [Broker.holdsName_worker,
            show (Point.remove (.unlink boxName)).owes? = some boxName from rfl]
          by_cases moved : worker = thread
          · subst moved
            simp [Broker.HoldsName, owes, eq_comm]
          · simp [moved]
    · exact fun _ => Iff.rfl
  · intro other last
    rw [Broker.goto_server] at last
    have different : boxName ≠ other := by
      intro same
      subst same
      have first : (broker.server.deleteBox boxI boxName).lastEvent boxName =
          some (.removed boxName) := List.find?_cons_of_pos (by simp [BoxEvent.boxName])
      rw [first, Option.some.injEq] at last
      cases last
    have earlier : broker.server.lastEvent other = some (.created other) := by
      rw [← last]
      unfold Server.lastEvent
      exact (List.find?_cons_of_neg (by simpa [BoxEvent.boxName] using different)).symm
    obtain ⟨place, placeTaken, placeNamed⟩ := kept.entered other earlier
    have moved : place ≠ boxI := by
      intro same
      rw [same, named] at placeNamed
      exact different placeNamed
    exact ⟨place, (takenOther moved).mpr placeTaken, placeNamed⟩

/-- The worker unlinks the file of the box it removed. -/
theorem NamesKept.unlinks (kept : NamesKept broker) (files : Files params broker.server.fs model)
    {fs : FileSystem.State} {boxName : CString} {result : CallResult} {code : Int}
    (atPoint : broker.workers thread = .remove (.unlink boxName))
    (returned : Call.run (.tfsUnlink (some boxName)) broker.server.fs = .ok (result, fs)) :
    NamesKept (broker.goto thread (broker.server.setFs fs) (.remove (.answer code))) := by
  have owes : (broker.workers thread).owes? = some boxName := by
    rw [atPoint]
    rfl
  have there := (kept.owned.held boxName).mpr ⟨.worker thread, owes⟩
  obtain ⟨valid, bound⟩ := (files.hasFile boxName).mp there
  rcases files.unlinks returned with ⟨absent, _, _⟩ | ⟨id, _, _, _, files'⟩
  · rcases absent with invalid | missing
    · exact (invalid valid).elim
    · exact (bound missing).elim
  constructor
  · apply kept.owned.move
    refine .drop (.worker thread) boxName ?_ ?_ ?_
    · intro other
      change (broker.workers thread).owes? = some other ↔ _
      rw [owes, Option.some.injEq, eq_comm]
    · intro holder other
      cases holder with
      | slot place => simp [Broker.HoldsName, Server.setFs, Server.IsTaken]
      | worker worker =>
          rw [Broker.holdsName_worker]
          by_cases moved : worker = thread
          · subst moved
            simp [Point.owes?]
          · simp [moved]
    · intro other
      have names : ((model.unbind boxName.tail).collect id).names =
          Function.update model.names boxName.tail none := collect_names _ _
      rw [Broker.goto_server, @Files.hasFile _ _ _ (broker.server.setFs fs) files',
        files.hasFile, names, Function.update_apply]
      by_cases same : other.tail = boxName.tail
      · rw [if_pos same]
        constructor
        · rintro ⟨_, impossible⟩
          exact (impossible rfl).elim
        · rintro ⟨⟨otherValid, _⟩, different⟩
          exact (different (otherValid.eq_of_tail valid same)).elim
      · rw [if_neg same]
        constructor
        · intro before
          exact ⟨before, fun equal => same (congrArg CString.tail equal)⟩
        · exact And.left
  · intro other last
    obtain ⟨boxI, taken, named⟩ := kept.entered other last
    exact ⟨boxI, taken, named⟩

/-! ### Every step -/

/-- With `box_create` in one step nobody is between its sections. -/
def Broker.Unfilled (broker : Broker Thread) : Prop :=
  ∀ thread boxName f boxI, broker.workers thread ≠ .create (.fillBox boxName f boxI)

theorem Broker.Step.unfilled (step : broker.Step .calls thread broker')
    (unfilled : broker.Unfilled) : broker'.Unfilled := by
  intro worker boxName f boxI filling
  by_cases moved : worker = thread
  · subst moved
    cases step with
    | dequeue request _ =>
        rw [Broker.goto_self] at filling
        cases request <;> cases filling
    | @publisher _ _ next _ _ =>
        rw [Broker.goto_self] at filling
        cases next <;> cases filling
    | @subscriber _ _ next _ _ =>
        rw [Broker.goto_self] at filling
        cases next <;> cases filling
    | create _ taken =>
        rw [Broker.goto_self] at filling
        cases taken with
        | takes impossible _ => cases impossible
        | _ => cases filling
    | @remove _ _ next _ _ =>
        rw [Broker.goto_self] at filling
        cases next <;> cases filling
  · rw [step.others moved] at filling
    exact unfilled worker boxName f boxI filling

theorem CreateStep.namesKept {broker : Broker (Fin params.maxSessions)}
    {thread : Fin params.maxSessions} {server' : Server (Fin params.maxSessions)}
    {point : CreatePoint} {next : Option CreatePoint}
    (step : CreateStep .calls broker.server point server' next)
    (atPoint : broker.workers thread = .create point) (held : FilesHeld params broker model)
    (kept : NamesKept broker) (unfilled : broker.Unfilled) (absent : CreatesAbsent broker thread) :
    NamesKept (broker.goto thread server' (next.elim .idle .create)) := by
  have files := held.files
  cases step with
  | «exists» returned _ =>
      apply kept.same (.setFs (.opens _ _) files returned)
      rw [atPoint]
      rfl
  | absent returned _ =>
      apply kept.same (.setFs (.opens _ _) files returned)
      rw [atPoint]
      rfl
  | @openFails boxName result fs returned failed =>
      -- There is a handle, so a refused open made no file.
      have without : (broker.workers thread).file? = none := by
        rw [atPoint]
        rfl
      obtain ⟨handle, inside, closed⟩ := held.handle_free without
      obtain ⟨model', opened, files'⟩ := files.opens returned
      have names : model'.names = model.names := by
        generalize result.length = length at opened failed
        cases opened with
        | refused _ _ => rfl
        | stranded _ _ _ _ full => exact (full handle inside closed).elim
        | existing _ _ _ _ => omega
        | created _ _ _ _ _ => omega
      have same : SameNames broker.server (broker.server.setFs fs) :=
        ⟨fun _ => Iff.rfl, fun _ => rfl, rfl, files.hasFile_same files' names⟩
      apply kept.same same
      rw [atPoint]
      rfl
  | @opens boxName result fs returned success =>
      obtain ⟨model', opened, files'⟩ := files.opens returned
      generalize result.length = f at opened success
      cases opened with
      | refused _ _ => omega
      | stranded _ _ _ _ _ => omega
      | existing valid names _ _ =>
          apply (absent boxName atPoint _).elim
          rw [files.hasFile, names]
          exact ⟨valid, Option.some_ne_none _⟩
      | created _ valid missing _ _ => exact kept.gain files atPoint valid missing files' rfl
  | full full => exact (kept.slotFree files full).elim
  | takes impossible _ => cases impossible
  | fills _ => exact (unfilled thread _ _ _ atPoint).elim
  | creates _ found _ => exact kept.enters atPoint found
  | closes returned =>
      apply kept.same (.setFs (.closes _) files returned)
      rw [atPoint]
      rfl
  | answers =>
      apply kept.same (.refl _)
      rw [atPoint]
      rfl

theorem Broker.Step.namesKept {broker broker' : Broker (Fin params.maxSessions)}
    {thread : Fin params.maxSessions} (step : broker.Step .calls thread broker')
    (held : FilesHeld params broker model) (kept : NamesKept broker)
    (unfilled : broker.Unfilled) (absent : CreatesAbsent broker thread) : NamesKept broker' := by
  cases step with
  | dequeue request atIdle =>
      apply kept.same (.refl _)
      rw [atIdle]
      cases request <;> rfl
  | @publisher point _ next atPoint taken =>
      apply kept.same (taken.sameNames held.files)
      rw [atPoint]
      cases next <;> rfl
  | @subscriber point _ next atPoint taken =>
      apply kept.same (taken.sameNames held.files)
      rw [atPoint]
      cases next <;> rfl
  | create atPoint taken => exact taken.namesKept atPoint held kept unfilled absent
  | remove atPoint taken =>
      cases taken with
      | notFound _ =>
          apply kept.same (.refl _)
          rw [atPoint]
          rfl
      | deletes found _ => exact kept.deletes atPoint found
      | unlinks returned => exact kept.unlinks held.files atPoint returned
      | answers =>
          apply kept.same (.refl _)
          rw [atPoint]
          rfl

omit [DecidableEq Thread] in
theorem MbrokerInit.namesKept {broker : Broker Thread} (started : MbrokerInit params broker.server)
    (idle : ∀ thread, broker.workers thread = .idle) : NamesKept broker := by
  obtain ⟨_, _, returned⟩ := started.tfsStarted
  have files := Files.init returned
  have nobody (holder : NameHolder Thread) (boxName : CString) :
      ¬ broker.HoldsName holder boxName := by
    cases holder with
    | slot boxI =>
        rintro ⟨taken, _⟩
        rw [show broker.server.IsTaken boxI ↔ broker.server.freeBoxes boxI = .taken from Iff.rfl,
          started.freeBoxes] at taken
        cases taken
    | worker worker =>
        intro owes
        rw [show broker.HoldsName (.worker worker) boxName ↔
          (broker.workers worker).owes? = some boxName from Iff.rfl, idle worker] at owes
        cases owes
  constructor
  · constructor
    · intro boxName
      rw [files.hasFile]
      constructor
      · rintro ⟨_, bound⟩
        exact (bound rfl).elim
      · rintro ⟨holder, holds⟩
        exact (nobody holder boxName holds).elim
    · intro boxName left right holds
      exact (nobody left boxName holds).elim
  · intro boxName last
    unfold Server.lastEvent at last
    rw [started.events] at last
    cases last

/-- The broker whose create requests make absent files only -/
def createsAbsentSystem (params : MbrokerParams) :
    ThreadSystem (Fin params.maxSessions) (Broker (Fin params.maxSessions)) :=
  (brokerSystem .calls params).restrict (fun thread broker _ => CreatesAbsent broker thread)

theorem Broker.reachable_unfilled {broker : Broker (Fin params.maxSessions)}
    (reachable : (brokerSystem .calls params).Reachable broker) : broker.Unfilled := by
  apply reachable.preserves
  · rintro start ⟨_, idle⟩ thread _ _ _ filling
    rw [idle thread] at filling
    cases filling
  · intro thread before after unfilled step
    exact step.unfilled unfilled

theorem Broker.reachable_namesKept {broker : Broker (Fin params.maxSessions)}
    (reachable : (createsAbsentSystem params).Reachable broker) : NamesKept broker := by
  have known : ∀ broker, (createsAbsentSystem params).Reachable broker →
      broker.Unfilled ∧ ∃ model, FilesHeld params broker model :=
    fun _ reachable => ⟨Broker.reachable_unfilled reachable.of_restrict,
      Broker.reachable_filesHeld reachable.of_restrict⟩
  refine reachable.preserves_with known ?_ ?_
  · rintro start ⟨started, idle⟩
    exact started.namesKept idle
  · rintro thread before after ⟨unfilled, model, held⟩ kept ⟨step, absent⟩
    exact step.namesKept held kept unfilled absent

/-! ### One box for one file -/

/-- The worker handles a create or a remove request. -/
def Point.Manages : Point → Prop
  | .create _ => True
  | .remove _ => True
  | _ => False

/-- No name is on two boxes, a create request that goes on to the answer 0 is the first for
its name since the last removal, and the boxes have the names of the files when no request
is being handled. -/
structure BoxesAreFiles (broker : Broker Thread) : Prop where
  distinct : ∀ left right, broker.server.IsTaken left → broker.server.IsTaken right →
    (broker.server.boxesTable left).name = (broker.server.boxesTable right).name → left = right
  once : ∀ thread boxName f server', broker.workers thread = .create (.takeBox boxName f) →
    CreateStep .calls broker.server (.takeBox boxName f) server' (some (.closeFile f 0)) →
    broker.server.lastEvent boxName ≠ some (.created boxName) ∧
      server'.lastEvent boxName = some (.created boxName)
  quiet : (∀ thread, ¬ (broker.workers thread).Manages) → ∀ name,
    (∃ boxI, broker.server.IsTaken boxI ∧ (broker.server.boxesTable boxI).name = rootPath name) ↔
      ∃ inode, broker.server.fs.Binds name inode

omit [DecidableEq Thread] in
theorem NamesKept.boxesAreFiles (kept : NamesKept broker)
    (files : Files params broker.server.fs model) : BoxesAreFiles broker where
  distinct left right leftTaken rightTaken same := by
    have holders := kept.owned.unique _ (.slot left) (.slot right) ⟨leftTaken, rfl⟩
      ⟨rightTaken, same.symm⟩
    exact NameHolder.slot.inj holders
  once thread boxName f server' atPoint step := by
    constructor
    · intro last
      obtain ⟨boxI, holds⟩ := kept.entered boxName last
      have owes : broker.HoldsName (.worker thread) boxName := by
        change (broker.workers thread).owes? = some boxName
        rw [atPoint]
        rfl
      have impossible := kept.owned.unique boxName (.slot boxI) (.worker thread) holds owes
      cases impossible
    · cases step with
      | creates _ _ _ => exact List.find?_cons_of_pos (by simp [BoxEvent.boxName])
  quiet idle name := by
    constructor
    · rintro ⟨boxI, taken, named⟩
      exact ((kept.owned.held (rootPath name)).mpr ⟨.slot boxI, taken, named⟩).2
    · rintro ⟨inode, binds⟩
      have short := files.name_short ((files.represents.names name inode).mpr binds)
      obtain ⟨holder, holds⟩ := (kept.owned.held (rootPath name)).mp
        ⟨rootPath_valid short, inode, binds⟩
      cases holder with
      | slot boxI => exact ⟨boxI, holds⟩
      | worker worker =>
          have owes : (broker.workers worker).owes? = some (rootPath name) := holds
          have noRequest := idle worker
          cases atPoint : broker.workers worker with
          | create _ => exact (noRequest (by rw [atPoint]; trivial)).elim
          | remove _ => exact (noRequest (by rw [atPoint]; trivial)).elim
          | _ =>
              rw [atPoint] at owes
              cases owes

/-- In every run whose create requests make absent files only, boxes and files correspond. -/
theorem boxes_are_files {broker : Broker (Fin params.maxSessions)}
    (reachable : (createsAbsentSystem params).Reachable broker) : BoxesAreFiles broker := by
  obtain ⟨model, held⟩ := Broker.reachable_filesHeld reachable.of_restrict
  exact (Broker.reachable_namesKept reachable).boxesAreFiles held.files

theorem boxes_are_files_first :
    ∃ broker : Broker (Fin twoSessions.maxSessions), broker.server.IsTaken 0 ∧
      BoxesAreFiles broker := by
  obtain ⟨fs, id, _, reachable⟩ := exists_firstBox .calls (fun _ => ⟨boxA, 0, 0, 0⟩)
    boxA_short workerA (fun thread broker _ => CreatesAbsent broker thread) (by
      intro before after creates boxName atPoint there
      have files := creates.unbound boxName atPoint
      exact ((files.hasFile boxName).mp there).2 rfl)
  exact ⟨_, firstBoxServer_isTaken _ _ _, boxes_are_files reachable⟩

/-- Two workers find the name absent; the second one opens the file of the first one and
enters a second box. -/
theorem boxes_are_files_twice :
    ∃ broker, (brokerSystem .calls twoSessions).Reachable broker ∧ ¬ BoxesAreFiles broker := by
  have small : twoSessions.maxSessions < 2 ^ 31 := by decide
  have different : workerB ≠ workerA := by decide
  obtain ⟨fs, files, started⟩ := exists_started (fun _ => ⟨boxA, 0, 0, 0⟩)
  generalize fresh : initialServer fs (fun _ => ⟨boxA, 0, 0, 0⟩) = server at started
  have sameFs : server.fs = fs := by
    rw [← fresh]
    rfl
  have free (boxI : Nat) : server.freeBoxes boxI = .free := started.freeBoxes boxI
  have start : ((brokerSystem .calls twoSessions).restrict (fun _ _ _ => True)).Reachable
      ⟨server, fun _ => .idle⟩ := .initial ⟨started, fun _ => rfl⟩
  rw [← sameFs] at files
  -- The second worker looks first and finds nothing.
  obtain ⟨result1, fs1, returned1⟩ := files.returns small (.opens (rootPath boxA) false false)
  obtain ⟨absent1, files1⟩ := files.opensAbsent (Or.inr rfl) returned1
  rw [← Broker.goto_same ⟨server, fun _ => .idle⟩ workerB rfl] at start
  have looking := Broker.reaches_request start (.createRequest boxA) (fun _ => trivial)
  have looked := Broker.reaches_create looking (.absent returned1 (by omega)) (fun _ => trivial)
  -- The first worker makes the box from beginning to end.
  generalize atLooked : Broker.goto ⟨server, fun _ => .idle⟩ workerB (server.setFs fs1)
    ((some (CreatePoint.openNew (rootPath boxA))).elim .idle .create) = between at looked
  have idleA : between.workers workerA = .idle := by
    rw [← atLooked]
    exact Broker.goto_other _ _ _ (Ne.symm different)
  have serverBetween : between.server = server.setFs fs1 := by
    rw [← atLooked]
    rfl
  rw [← Broker.goto_same between workerA idleA, serverBetween] at looked
  obtain ⟨result2, fs2, returned2⟩ := files1.returns small (.opens (rootPath boxA) false false)
  obtain ⟨absent2, files2⟩ := files1.opensAbsent (Or.inr rfl) returned2
  obtain ⟨result3, fs3, returned3⟩ := files2.returns small (.opens (rootPath boxA) true false)
  obtain ⟨id, handle, opened, _, _, files3⟩ := files2.opensNew (rootPath_valid boxA_short)
    boxA_short rfl ⟨1, by decide, by decide, by
      rintro (⟨_, impossible⟩ | ⟨_, _, impossible⟩) <;> cases impossible⟩
    ⟨0, by decide, rfl⟩ returned3
  obtain ⟨result4, fs4, returned4⟩ := files3.returns small (.closes handle)
  have files4 : Files twoSessions fs4 (oneFile boxA id) := by
    rw [← oneFile_close boxA id handle]
    exact files3.closesHandle (Function.update_self _ _ _) returned4
  rw [← opened] at returned4
  have requesting := Broker.reaches_request looked (.createRequest boxA) (fun _ => trivial)
  have checked := Broker.reaches_create requesting (.absent returned2 (by omega))
    (fun _ => trivial)
  have created := Broker.reaches_create checked (.opens returned3 (by omega)) (fun _ => trivial)
  have entered := Broker.reaches_create created
    (.creates rfl (firstFreeBox_first files3 (free 0)) (started.boxMutex 0)) (fun _ => trivial)
  have closing := Broker.reaches_create entered (.closes returned4) (fun _ => trivial)
  have answered := Broker.reaches_create closing .answers (fun _ => trivial)
  -- The second worker still believes that there is no file.
  generalize afterFirst : (((((server.setFs fs1).setFs fs2).setFs fs3).takeBox 0
    (rootPath boxA)).fillBox 0 (rootPath boxA)).setFs fs4 = full at answered
  have takenFirst : full.IsTaken 0 := by
    rw [← afterFirst]
    exact (((server.setFs fs1).setFs fs2).setFs fs3).takeBox_isTaken 0 (rootPath boxA)
  have namedFirst : (full.boxesTable 0).name = rootPath boxA := by
    rw [← afterFirst]
    exact ((((server.setFs fs1).setFs fs2).setFs fs3).takeBox 0 (rootPath boxA)).fillBox_name 0
      (rootPath boxA)
  have filesFull : Files twoSessions full.fs (oneFile boxA id) := by
    rw [← afterFirst]
    exact files4
  have freeSecond : full.freeBoxes 1 = .free := by
    rw [← afterFirst]
    have second : (1 : Nat) ≠ 0 := by decide
    have kept : Function.update server.freeBoxes 0 .taken 1 = server.freeBoxes 1 :=
      Function.update_of_ne second _ _
    exact kept.trans (free 1)
  have unlocked : full.Unlocked 1 := by
    rw [← afterFirst]
    exact started.boxMutex 1
  generalize atAnswered : between.goto workerA full
    ((none : Option CreatePoint).elim .idle .create) = second at answered
  have pointB : second.workers workerB = .create (.openNew (rootPath boxA)) := by
    rw [← atAnswered, Broker.goto_other _ _ _ different, ← atLooked]
    exact Broker.goto_self _ _ _ _
  have serverSecond : second.server = full := by
    rw [← atAnswered]
    rfl
  rw [← Broker.goto_same second workerB pointB, serverSecond] at answered
  obtain ⟨result5, fs5, returned5⟩ :=
    filesFull.returns small (.opens (rootPath boxA) true false)
  obtain ⟨handle5, opened5, _, files5⟩ := filesFull.opensPresent (rootPath_valid boxA_short)
    (oneFile_names boxA id) (oneFile_files boxA id) ⟨0, by decide, rfl⟩ returned5
  have reopened := Broker.reaches_create answered (.opens returned5 (by omega)) (fun _ => trivial)
  have found : (full.setFs fs5).firstFreeBox = some 1 := by
    apply firstSlot_eq_some.mpr
    refine ⟨?_, ?_, ?_⟩
    · rw [beq_iff_eq]
      exact freeSecond
    · rw [show (full.setFs fs5).fs = fs5 from rfl, files5.inodeTableSize]
      decide
    · intro earlier lower
      rw [show earlier = 0 by omega, beq_eq_false_iff_ne]
      intro isFree
      rw [show (full.setFs fs5).freeBoxes 0 = .taken from takenFirst] at isFree
      cases isFree
  have doubled := Broker.reaches_create reopened (.creates rfl found unlocked) (fun _ => trivial)
  refine ⟨_, doubled.of_restrict, ?_⟩
  intro files
  have other : (0 : Nat) ≠ 1 := by decide
  generalize atEnd : (full.setFs fs5).takeBox 1 (rootPath boxA) = last at files
  have takenBoth : (last.fillBox 1 (rootPath boxA)).IsTaken 0 ∧
      (last.fillBox 1 (rootPath boxA)).IsTaken 1 := by
    rw [← atEnd]
    exact ⟨((full.setFs fs5).takeBox_other (rootPath boxA) other).mpr takenFirst,
      (full.setFs fs5).takeBox_isTaken 1 (rootPath boxA)⟩
  have sameName : ((last.fillBox 1 (rootPath boxA)).boxesTable 0).name =
      ((last.fillBox 1 (rootPath boxA)).boxesTable 1).name := by
    rw [last.fillBox_other _ other, last.fillBox_name, ← atEnd]
    exact namedFirst
  have same := files.distinct 0 1 takenBoth.1 takenBoth.2 sameName
  cases same

end TecnicoFS.Mbroker
