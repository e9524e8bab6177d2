/-
The message stream of a box.

The box was created and is not removed.  Its file holds the accepted messages in order, every
subscriber has sent the first ones of them, and nobody sleeps over a message that was
announced.  The run is made of the steps of all workers, whatever boxes they work for.
-/

import TecnicoFS.Mbroker.Counters
import TecnicoFS.Mbroker.Occupants
import TecnicoFS.Mbroker.StreamPoints

set_option autoImplicit false

namespace TecnicoFS.Mbroker

open FileSystem

/-! ### The stream -/

/-- The slot whose publisher stored a message and has yet to announce it -/
def Point.pending? : Point → Option Nat
  | .publisher (.publish session) => some session.boxI
  | _ => none

section
variable {Thread : Type} (broker : Broker Thread) (boxName : CString) (boxI : Nat)

/-- No publisher of the box is between its write and its broadcast. -/
def Broker.Settled : Prop := ∀ worker, (broker.workers worker).pending? ≠ some boxI

/-- What the file, the size and the sessions of the box have to do with the messages its
publishers stored -/
structure MessageStream : Prop where
  file : ∃ id, broker.server.fs.Binds boxName.tail id ∧
    broker.server.fs.HoldsFile id (messageBytes (broker.server.stored boxI))
  fits : msgMaxLen * (broker.server.stored boxI).length ≤ 1024 * 1024
  sent : ∀ worker point session, broker.workers worker = .subscriber point →
    point.session? = some session → session.boxI = boxI →
    session.sent <+: broker.server.stored boxI
  single : ∀ left right, (broker.workers left).pending? = some boxI →
    (broker.workers right).pending? = some boxI → left = right
  settled : broker.Settled boxI → (broker.server.boxesTable boxI).size.toNat =
    msgMaxLen * (broker.server.stored boxI).length
  unsettled : ¬ broker.Settled boxI → (broker.server.boxesTable boxI).size.toNat + msgMaxLen =
    msgMaxLen * (broker.server.stored boxI).length
  asleep : broker.Settled boxI → ∀ worker session,
    broker.workers worker = .subscriber (.blocked session) → session.boxI = boxI →
    broker.server.waiting boxI worker = true → session.sent = broker.server.stored boxI

/-- A message is stored by the write that its publisher then announces, and it is refused
when the block of the file is full. -/
structure AcceptsMessages (worker : Thread) (broker' : Broker Thread) : Prop where
  accepted : ∀ session message,
    broker.workers worker = .publisher (.writeMessage session message) →
    broker'.workers worker = .publisher (.publish session) → session.boxI = boxI →
    broker'.server.stored boxI = broker.server.stored boxI ++ [message]
  otherwise : broker'.server.stored boxI ≠ broker.server.stored boxI →
    ∃ session message, broker.workers worker = .publisher (.writeMessage session message) ∧
      broker'.workers worker = .publisher (.publish session) ∧ session.boxI = boxI
  refused : ∀ session message,
    broker.workers worker = .publisher (.writeMessage session message) →
    broker'.workers worker = .publisher (.unregister session) → session.boxI = boxI →
    1024 * 1024 < msgMaxLen * ((broker.server.stored boxI).length + 1)

end

/-- The box has just been entered in its slot, its file is empty, and no session has found
it or holds a handle of the file. -/
structure FreshBox (atomicity : Atomicity) (params : MbrokerParams) (name : CString) (boxI : Nat)
    (broker : Broker (Fin params.maxSessions)) : Prop where
  reachable : (brokerSystem atomicity params).Reachable broker
  isTaken : broker.server.IsTaken boxI
  entry : ∀ other, broker.server.IsTaken other →
    ((broker.server.boxesTable other).name = rootPath name ↔ other = boxI)
  size : (broker.server.boxesTable boxI).size = 0
  stored : broker.server.stored boxI = []
  file : ∃ id, broker.server.fs.Binds name id ∧ broker.server.fs.HoldsFile id [] ∧
    ∀ worker session (handle offset : Nat), (broker.workers worker).session? = some session →
      session.boxF = handle → ¬ broker.server.fs.HoldsHandle handle id offset
  found : ∀ worker box, (broker.workers worker).box? = some box →
    box.boxI ≠ boxI ∧ box.boxName ≠ rootPath name
  sessions : ∀ worker session, (broker.workers worker).session? = some session →
    session.boxI ≠ boxI
  managers : ∀ worker, ¬ (broker.workers worker).Changes (rootPath name) boxI

/-- The step does not remove the box, and no other box is entered in a slot whose leftover
name would make it the box until it is filled. -/
structure KeepsBox {Thread : Type} (atomicity : Atomicity) (broker : Broker Thread)
    (boxName : CString) (thread : Thread) : Prop where
  removing : broker.workers thread ≠ .remove (.deleteBox boxName)
  taking : atomicity = .sections → ∀ other f boxI,
    broker.workers thread = .create (.takeBox other f) →
    broker.server.firstFreeBox = some boxI →
    (broker.server.boxesTable boxI).name ≠ boxName

/-- The runs that start when the box was created and do not remove it -/
def streamSystem (atomicity : Atomicity) (params : MbrokerParams) (name : CString) (boxI : Nat) :
    ThreadSystem (Fin params.maxSessions) (Broker (Fin params.maxSessions)) where
  initial := FreshBox atomicity params name boxI
  step thread broker broker' := broker.Step atomicity thread broker' ∧
    KeepsBox atomicity broker (rootPath name) thread

/-! ### Storing and announcing -/

section
variable {Thread : Type} {atomicity : Atomicity} {broker broker' : Broker Thread}
  {thread : Thread} {boxName : CString} {boxI : Nat}

theorem Point.pending_publishes {point : Point} (pending : point.pending? = some boxI) :
    point.publishes? = some boxI := by
  cases point with
  | publisher point =>
      cases point with
      | publish session => exact pending
      | _ => cases pending
  | _ => cases pending

/-- While a worker publishes, no other one has a message to announce. -/
theorem OnePublisher.settled (one : OnePublisher broker boxI)
    (publishes : (broker.workers thread).publishes? = some boxI)
    (silent : (broker.workers thread).pending? = none) : broker.Settled boxI := by
  intro worker pending
  have same := one.single worker thread (Point.pending_publishes pending) publishes
  rw [same, silent] at pending
  cases pending

variable [DecidableEq Thread]

/-- What a step does to the messages and the size of the box -/
inductive StreamEffect (broker : Broker Thread) (boxI : Nat) (thread : Thread)
    (broker' : Broker Thread) : Prop where
  | quiet : broker'.server.stored boxI = broker.server.stored boxI →
      (broker'.server.boxesTable boxI).size = (broker.server.boxesTable boxI).size →
      ((broker'.workers thread).pending? = some boxI ↔
        (broker.workers thread).pending? = some boxI) → StreamEffect broker boxI thread broker'
  | stores {session : Session} {message : Message} : session.boxI = boxI →
      broker.workers thread = .publisher (.writeMessage session message) →
      broker'.workers thread = .publisher (.publish session) →
      broker'.server.stored boxI = broker.server.stored boxI ++ [message] →
      (broker'.server.boxesTable boxI).size = (broker.server.boxesTable boxI).size →
      StreamEffect broker boxI thread broker'
  | announces {session : Session} : session.boxI = boxI →
      broker.workers thread = .publisher (.publish session) →
      broker'.workers thread = .publisher (.readCode session) →
      broker'.server.stored boxI = broker.server.stored boxI →
      (broker'.server.boxesTable boxI).size =
        (broker.server.boxesTable boxI).size + UInt64.ofNat msgMaxLen →
      (∀ worker, broker'.server.waiting boxI worker = false) →
      StreamEffect broker boxI thread broker'

theorem PublisherStep.streamEffect {server' : Server Thread} {point : PublisherPoint}
    {next : Option PublisherPoint} (step : PublisherStep broker.server point server' next)
    (atPoint : broker.workers thread = .publisher point) :
    StreamEffect broker boxI thread
      (broker.goto thread server' (next.elim .idle .publisher)) := by
  have goes := broker.goto_self thread server' (next.elim .idle .publisher)
  rcases step.table with ⟨same, silent⟩ | ⟨session, isPublish, announced⟩
  · cases step with
    | @writes session message _ fs _ _ =>
        have stored : ((broker.server.setFs fs).recordStored session.boxI message).stored boxI =
            _ := broker.server.recordStored_stored fs session.boxI message
        by_cases here : session.boxI = boxI
        · rw [if_pos here] at stored
          exact .stores here atPoint goes stored rfl
        · rw [if_neg here] at stored
          refine .quiet stored rfl ?_
          rw [goes, atPoint]
          constructor
          · intro pending
            exact (here (Option.some.inj pending)).elim
          · intro impossible
            cases impossible
    | publishes _ => exact (silent _ rfl).elim
    | _ =>
        refine .quiet rfl (same.size boxI) ?_
        rw [goes, atPoint]
        exact Iff.rfl
  · subst isPublish
    cases step with
    | publishes _ =>
        by_cases here : session.boxI = boxI
        · subst here
          refine .announces rfl atPoint goes rfl ?_ ?_
          · exact broker.server.addSize_size session.boxI
          · intro worker
            exact congrFun (Function.update_self session.boxI _ broker.server.waiting) worker
        · refine .quiet rfl ?_ ?_
          · exact congrArg Box.size (broker.server.setBox_other _ (Ne.symm here))
          · rw [goes, atPoint]
            constructor
            · intro impossible
              cases impossible
            · intro pending
              exact (here (Option.some.inj pending)).elim

theorem Broker.Step.streamEffect (step : broker.Step atomicity thread broker')
    (entry : broker.server.HasEntry boxName boxI)
    (manages : ¬ (broker.workers thread).Changes boxName boxI) :
    StreamEffect broker boxI thread broker' := by
  cases step with
  | dequeue request atIdle =>
      refine .quiet rfl rfl ?_
      rw [goto_self, atIdle]
      cases request <;> exact Iff.rfl
  | publisher atPoint taken => exact taken.streamEffect atPoint
  | @subscriber _ _ next atPoint taken =>
      refine .quiet ?_ (taken.table.size boxI) ?_
      · cases taken <;> rfl
      · rw [goto_self, atPoint]
        cases next <;> exact Iff.rfl
  | @create _ _ next atPoint taken =>
      rw [atPoint] at manages
      have silent : (next.elim Point.idle Point.create).pending? = none := by
        cases next <;> rfl
      have pending {server : Server Thread} :
          ((broker.goto thread server (next.elim .idle .create)).workers thread).pending? =
            some boxI ↔ (broker.workers thread).pending? = some boxI := by
        rw [goto_self, atPoint, silent]
        exact Iff.rfl
      cases taken with
      | takes _ free => exact .quiet (broker.server.takeBox_stored _ (entry.free_ne free)) rfl pending
      | @fills other _ place _ =>
          refine .quiet rfl (congrArg Box.size (broker.server.fillBox_other other ?_)) pending
          intro same
          exact manages (Or.inr same.symm)
      | @creates other _ place _ free _ =>
          have different := entry.free_ne free
          refine .quiet (broker.server.takeBox_stored other different) ?_ pending
          exact congrArg Box.size
            ((broker.server.takeBox place other).fillBox_other other (Ne.symm different))
      | _ => exact .quiet rfl rfl pending
  | @remove _ _ next atPoint taken =>
      refine .quiet ?_ ?_ ?_
      · cases taken <;> rfl
      · cases taken <;> rfl
      · rw [goto_self, atPoint]
        cases next <;> exact Iff.rfl

end

/-! ### Every step -/

section
variable {atomicity : Atomicity} {params : MbrokerParams}
  {broker broker' : Broker (Fin params.maxSessions)} {thread : Fin params.maxSessions}
  {boxName : CString} {boxI id : Nat} {model model' : Model Nat}

/-- The size and the sleepers follow the messages that were announced. -/
structure Announced {Thread : Type} (broker : Broker Thread) (boxI : Nat) : Prop where
  settled : broker.Settled boxI → (broker.server.boxesTable boxI).size.toNat =
    msgMaxLen * (broker.server.stored boxI).length
  unsettled : ¬ broker.Settled boxI → (broker.server.boxesTable boxI).size.toNat + msgMaxLen =
    msgMaxLen * (broker.server.stored boxI).length
  asleep : broker.Settled boxI → ∀ worker session,
    broker.workers worker = .subscriber (.blocked session) → session.boxI = boxI →
    broker.server.waiting boxI worker = true → session.sent = broker.server.stored boxI

/-- The invariant of the stream -/
structure StreamKept (params : MbrokerParams) (boxName : CString) (boxI id : Nat)
    (broker : Broker (Fin params.maxSessions)) (model : Model Nat) : Prop where
  held : FilesHeld params broker model
  entry : broker.server.HasEntry boxName boxI
  stream : StreamFiles params boxName id broker.server.fs (broker.server.stored boxI) model
  points : ∀ worker,
    (broker.workers worker).InStream model boxName boxI id (broker.server.stored boxI)
  managers : ∀ worker, ¬ (broker.workers worker).Changes boxName boxI
  publishers : OnePublisher broker boxI
  announced : Announced broker boxI

namespace StreamKept

/-- The worker that takes the step -/
theorem own (kept : StreamKept params boxName boxI id broker model)
    (step : broker.Step atomicity thread broker')
    (keeps : KeepsBox atomicity broker boxName thread) :
    broker'.server.HasEntry boxName boxI ∧
      ¬ (broker'.workers thread).Changes boxName boxI ∧
      ∃ model', StreamFiles params boxName id broker'.server.fs (broker'.server.stored boxI)
          model' ∧ HandlesKept model model' (broker.workers thread).file? ∧
        (broker'.workers thread).InStream model' boxName boxI id (broker'.server.stored boxI) ∧
        ∀ session, broker'.workers thread = .subscriber (.blocked session) →
          session.boxI = boxI → session.sent = broker'.server.stored boxI := by
  have inStream := kept.points thread
  have manages := kept.managers thread
  have removing := keeps.removing
  have taking := keeps.taking
  have room := @FilesHeld.handle_free params model broker kept.held thread
  cases step with
  | dequeue request atIdle =>
      rw [Broker.goto_self]
      refine ⟨kept.entry, ?_, model, kept.stream, .refl _ _, ?_, ?_⟩
      · cases request <;> exact not_false
      · cases request <;> trivial
      · intro _ impossible
        cases request <;> cases impossible
  | @publisher _ _ next atPoint taken =>
      rw [atPoint] at inStream
      obtain ⟨model', stream', handles, inStream'⟩ :=
        taken.inStream kept.entry kept.stream inStream
      rw [Broker.goto_self, atPoint]
      refine ⟨kept.entry.same (taken.sameNames kept.held.files), ?_, model', stream', handles,
        inStream', ?_⟩
      · cases next <;> exact not_false
      · intro _ impossible
        cases next <;> cases impossible
  | @subscriber _ _ next atPoint taken =>
      rw [atPoint] at inStream
      obtain ⟨model', stream', handles, inStream'⟩ :=
        taken.inStream kept.entry kept.stream inStream
      rw [Broker.goto_self, atPoint]
      refine ⟨kept.entry.same (taken.sameNames kept.held.files), ?_, model', stream', handles,
        inStream', ?_⟩
      · cases next <;> exact not_false
      · intro session blocked here
        cases next with
        | none => cases blocked
        | some point =>
            cases blocked
            exact taken.blocked kept.stream inStream here
  | @create _ _ next atPoint taken =>
      rw [atPoint] at manages taking room
      obtain ⟨model', stream', handles⟩ := taken.inStream kept.entry kept.stream
      rw [Broker.goto_self, atPoint]
      refine ⟨taken.hasEntry kept.entry manages ?_,
        taken.manages kept.entry manages kept.stream room, model', stream', handles, ?_, ?_⟩
      · intro sections other f place same free
        exact taking sections other f place (congrArg _ same) free
      · cases next <;> trivial
      · intro _ impossible
        cases next <;> cases impossible
  | @remove point _ next atPoint taken =>
      rw [atPoint] at manages removing
      have other : point ≠ .deleteBox boxName := fun same => removing (congrArg _ same)
      obtain ⟨model', stream', handles⟩ := taken.inStream manages kept.stream
      rw [Broker.goto_self, atPoint]
      refine ⟨taken.hasEntry kept.entry other, taken.manages other, model', stream', handles,
        ?_, ?_⟩
      · cases next <;> trivial
      · intro _ impossible
        cases next <;> cases impossible

/-- The other workers: their handles do not move, and the messages only grow by a write of
the only publisher. -/
theorem others (kept : StreamKept params boxName boxI id broker model)
    (step : broker.Step atomicity thread broker')
    (handles : HandlesKept model model' (broker.workers thread).file?)
    (effect : StreamEffect broker boxI thread broker') {worker : Fin params.maxSessions}
    (different : worker ≠ thread) :
    (broker'.workers worker).InStream model' boxName boxI id (broker'.server.stored boxI) := by
  rw [step.others different]
  apply (kept.points worker).kept
  · intro handle file
    obtain ⟨place, holds⟩ := Option.ne_none_iff_exists'.mp (kept.held.held worker handle file)
    rw [holds]
    apply handles handle place ?_ holds
    intro same
    exact different (kept.held.owner worker thread handle file same)
  · cases effect with
    | quiet same _ _ => rw [same]
    | stores _ _ _ same _ =>
        rw [same]
        exact List.prefix_append _ _
    | announces _ _ _ same _ _ => rw [same]
  · intro publishes
    cases effect with
    | quiet same _ _ => exact same
    | @stores session _ here before _ _ _ =>
        have stores : (broker.workers thread).publishes? = some boxI := by
          rw [before, ← here]
          rfl
        exact (different (kept.publishers.single worker thread publishes stores)).elim
    | announces _ _ _ same _ _ => exact same

theorem announces (kept : StreamKept params boxName boxI id broker model)
    (step : broker.Step atomicity thread broker')
    (effect : StreamEffect broker boxI thread broker')
    (publishers : OnePublisher broker' boxI)
    (blocked : ∀ session, broker'.workers thread = .subscriber (.blocked session) →
      session.boxI = boxI → session.sent = broker'.server.stored boxI) :
    Announced broker' boxI := by
  cases effect with
  | quiet stored size pending =>
      have settled : broker'.Settled boxI ↔ broker.Settled boxI := by
        apply forall_congr'
        intro worker
        by_cases moved : worker = thread
        · rw [moved]
          exact not_congr pending
        · rw [step.others moved]
      constructor
      · rw [settled, size, stored]
        exact kept.announced.settled
      · rw [settled, size, stored]
        exact kept.announced.unsettled
      · intro quiet worker session atPoint here waits
        by_cases moved : worker = thread
        · rw [moved] at atPoint
          exact blocked session atPoint here
        · rw [step.others moved] at atPoint
          rw [stored]
          exact kept.announced.asleep (settled.mp quiet) worker session atPoint here
            (step.waiting moved waits)
  | @stores session message here before afterwards stored size =>
      have publishes : (broker.workers thread).publishes? = some boxI := by
        rw [before, ← here]
        rfl
      have silent : (broker.workers thread).pending? = none := by
        rw [before]
        rfl
      have unsettled : ¬ broker'.Settled boxI := by
        intro settled
        apply settled thread
        rw [afterwards, ← here]
        rfl
      constructor
      · intro settled
        exact (unsettled settled).elim
      · intro _
        rw [size, stored, kept.announced.settled (kept.publishers.settled publishes silent),
          List.length_append, Nat.mul_add]
        rfl
      · intro settled
        exact (unsettled settled).elim
  | @announces session here before afterwards stored size woken =>
      have unsettled : ¬ broker.Settled boxI := by
        intro settled
        apply settled thread
        rw [before, ← here]
        rfl
      have settled : broker'.Settled boxI := by
        have publishes : (broker'.workers thread).publishes? = some boxI := by
          rw [afterwards, ← here]
          rfl
        apply publishers.settled publishes
        rw [afterwards]
        rfl
      constructor
      · intro _
        have counted := kept.announced.unsettled unsettled
        have fits := kept.stream.fits
        have full : (UInt64.ofNat msgMaxLen).toNat = msgMaxLen := by decide
        rw [size, stored, UInt64.toNat_add, full, counted]
        exact Nat.mod_eq_of_lt (by omega)
      · intro impossible
        exact (impossible settled).elim
      · intro _ worker _ _ _ waits
        rw [woken worker] at waits
        cases waits

theorem step (kept : StreamKept params boxName boxI id broker model)
    (step : broker.Step atomicity thread broker')
    (keeps : KeepsBox atomicity broker boxName thread) :
    ∃ model', StreamKept params boxName boxI id broker' model' := by
  have effect := step.streamEffect kept.entry (kept.managers thread)
  obtain ⟨entry, manages, model', stream, handles, inStream, blocked⟩ := kept.own step keeps
  obtain ⟨after, held⟩ := kept.held.step step
  have same := held.files.unique stream.files
  subst same
  have publishers := kept.publishers.step step
  refine ⟨after, ?_⟩
  constructor
  · exact held
  · exact entry
  · exact stream
  · intro worker
    by_cases moved : worker = thread
    · rw [moved]
      exact inStream
    · exact kept.others step handles effect moved
  · intro worker
    by_cases moved : worker = thread
    · rw [moved]
      exact manages
    · rw [step.others moved]
      exact kept.managers worker
  · exact publishers
  · exact kept.announces step effect publishers blocked

theorem acceptsMessages (kept : StreamKept params boxName boxI id broker model)
    (step : broker.Step atomicity thread broker') :
    AcceptsMessages broker boxI thread broker' := by
  have effect := step.streamEffect kept.entry (kept.managers thread)
  constructor
  · intro session message before afterwards here
    cases effect with
    | quiet _ _ pending =>
        rw [before, afterwards] at pending
        cases pending.mp (congrArg some here)
    | stores _ atWrite _ stored _ =>
        rw [before] at atWrite
        cases atWrite
        exact stored
    | announces _ atPublish _ _ _ _ =>
        rw [before] at atPublish
        cases atPublish
  · intro changed
    cases effect with
    | quiet stored _ _ => exact (changed stored).elim
    | stores here before afterwards _ _ => exact ⟨_, _, before, afterwards, here⟩
    | announces _ _ _ stored _ _ => exact (changed stored).elim
  · intro session message before afterwards here
    obtain ⟨server, next, taken, same⟩ := step.ofPublisher before
    subst same
    rw [Broker.goto_self] at afterwards
    have appends := kept.points thread
    rw [before] at appends
    cases taken with
    | writes _ _ => cases afterwards
    | writeFails returned refused =>
        obtain ⟨_, _, _, _, _, _, refuses, _⟩ := kept.stream.writes appends returned
        exact (refuses here refused).2

theorem messageStream (kept : StreamKept params boxName boxI id broker model) :
    MessageStream broker boxName boxI := by
  constructor
  · exact ⟨id, (kept.stream.files.represents.names _ _).mp kept.stream.names,
      (kept.stream.files.represents.files _ _).mp kept.stream.contents⟩
  · exact kept.stream.fits
  · intro worker point session atPoint own here
    have inStream := kept.points worker
    rw [atPoint] at inStream
    cases point with
    | openPipe _ => cases own
    | findBox _ => cases own
    | register _ => cases own
    | checkBox _ =>
        cases own
        exact (List.prefix_append _ _).trans (inStream here).1
    | sendMessage _ =>
        cases own
        exact (List.prefix_append _ _).trans (inStream here).1
    | unregister _ =>
        cases own
        exact inStream here
    | closeFile _ =>
        cases own
        exact inStream here
    | _ =>
        cases own
        exact (inStream here).1
  · intro left right leftPending rightPending
    exact kept.publishers.single left right (Point.pending_publishes leftPending)
      (Point.pending_publishes rightPending)
  · exact kept.announced.settled
  · exact kept.announced.unsettled
  · exact kept.announced.asleep

end StreamKept

end

/-! ### Runs -/

section
variable {atomicity : Atomicity} {params : MbrokerParams} {name : CString} {boxI : Nat}
  {broker : Broker (Fin params.maxSessions)}

/-- Nobody is in the stream of a fresh box. -/
theorem FreshBox.kept (fresh : FreshBox atomicity params name boxI broker) :
    ∃ id model, StreamKept params (rootPath name) boxI id broker model := by
  obtain ⟨model, held⟩ := Broker.reachable_filesHeld fresh.reachable
  obtain ⟨id, binds, empty, unheld⟩ := fresh.file
  have represents := held.files.represents
  have nobody (worker : Fin params.maxSessions) :
      (broker.workers worker).publishes? ≠ some boxI := by
    intro publishes
    obtain ⟨box, refers, same⟩ := Point.publishes_box publishes
    exact (fresh.found worker box refers).1 same
  have settled : broker.Settled boxI := by
    intro worker pending
    exact nobody worker (Point.pending_publishes pending)
  refine ⟨id, model, ?_⟩
  constructor
  · exact held
  · exact ⟨fresh.isTaken, fresh.entry⟩
  · constructor
    · exact held.files
    · exact rootPath_valid binds.1
    · exact (represents.names _ _).mpr binds
    · rw [fresh.stored]
      exact (represents.files _ _).mpr empty
    · rw [fresh.stored]
      exact Nat.zero_le _
  · intro worker
    have found := fresh.found worker
    have sessions := fresh.sessions worker
    have handles := unheld worker
    cases atPoint : broker.workers worker with
    | publisher point =>
        rw [atPoint] at found sessions handles
        have appends {session : Session}
            (own : (Point.publisher point).session? = some session) :
            session.Appends model boxI id (broker.server.stored boxI) := by
          constructor
          · intro here
            exact (sessions session own here).elim
          · rintro _ offset ⟨handle, same, holds⟩
            exact handles session handle offset own same ((represents.handles _ _ _).mp holds)
        cases point with
        | openPipe _ => trivial
        | findBox _ => trivial
        | closeFile _ => trivial
        | register box =>
            obtain ⟨otherSlot, otherName⟩ := found box rfl
            exact ⟨fun same => (otherSlot same).elim, fun same => (otherName same).elim⟩
        | _ => exact appends rfl
    | subscriber point =>
        rw [atPoint] at found sessions
        cases point with
        | openPipe _ => trivial
        | findBox _ => trivial
        | register box =>
            obtain ⟨otherSlot, otherName⟩ := found box rfl
            exact ⟨fun same => (otherSlot same).elim, fun same => (otherName same).elim⟩
        | _ => exact fun here => (sessions _ rfl here).elim
    | _ => trivial
  · exact fresh.managers
  · constructor
    · intro left _ publishes
      exact (nobody left publishes).elim
    · intro worker publishes
      exact (nobody worker publishes).elim
  · constructor
    · intro _
      rw [fresh.size, fresh.stored]
      rfl
    · intro unsettled
      exact (unsettled settled).elim
    · intro _ worker session atPoint here
      have own : (broker.workers worker).session? = some session.toSession := by
        rw [atPoint]
        rfl
      exact (fresh.sessions worker _ own here).elim

theorem Broker.reachable_streamKept
    (reachable : (streamSystem atomicity params name boxI).Reachable broker) :
    ∃ id model, StreamKept params (rootPath name) boxI id broker model := by
  apply reachable.preserves
  · intro start fresh
    exact fresh.kept
  · rintro thread before after ⟨id, model, kept⟩ ⟨step, keeps⟩
    exact ⟨id, kept.step step keeps⟩

/-- In every run after the box was created and while it is not removed, its file holds the
accepted messages in order, every subscriber has sent the first ones of them, the size counts
those that were announced, and who sleeps has sent them all. -/
theorem message_stream (reachable : (streamSystem atomicity params name boxI).Reachable broker) :
    MessageStream broker (rootPath name) boxI ∧
      ∀ worker broker', broker.Step atomicity worker broker' →
        AcceptsMessages broker boxI worker broker' := by
  obtain ⟨id, model, kept⟩ := Broker.reachable_streamKept reachable
  constructor
  · exact kept.messageStream
  · intro worker broker' step
    exact kept.acceptsMessages step

end

/-! ### One message -/

/-- The broker right after the first box was created -/
def firstBoxBroker (fs : FileSystem.State) (boxes : Nat → Box) :
    Broker (Fin twoSessions.maxSessions) :=
  (initialBroker fs boxes).goto workerA (firstBoxServer fs boxes (rootPath boxA)) .idle

theorem firstBox_idle (fs : FileSystem.State) (boxes : Nat → Box)
    (worker : Fin twoSessions.maxSessions) :
    (firstBoxBroker fs boxes).workers worker = .idle := by
  unfold firstBoxBroker
  by_cases moved : worker = workerA
  · rw [moved, Broker.goto_self]
  · rw [Broker.goto_other _ _ _ moved]
    rfl

theorem firstBox_fresh {atomicity : Atomicity} {fs : FileSystem.State} {boxes : Nat → Box}
    {id : Nat} (files : Files twoSessions fs (oneFile boxA id))
    (reachable : (brokerSystem atomicity twoSessions).Reachable (firstBoxBroker fs boxes)) :
    FreshBox atomicity twoSessions boxA 0 (firstBoxBroker fs boxes) := by
  have idle := firstBox_idle fs boxes
  constructor
  · exact reachable
  · exact firstBoxServer_isTaken _ _ _
  · intro other taken
    constructor
    · intro _
      by_contra elsewhere
      have free : Function.update (fun _ => AllocationState.free) 0 AllocationState.taken other =
          .free := Function.update_of_ne elsewhere _ _
      have impossible : AllocationState.free = .taken := free.symm.trans taken
      cases impossible
    · intro first
      subst first
      exact Server.fillBox_name _ _ _
  · rfl
  · rfl
  · refine ⟨id, (files.represents.names _ _).mp (oneFile_names boxA id),
      (files.represents.files _ _).mp (oneFile_files boxA id), ?_⟩
    intro worker session _ _ own
    rw [idle] at own
    cases own
  · intro worker box own
    rw [idle] at own
    cases own
  · intro worker session own
    rw [idle] at own
    cases own
  · intro worker
    rw [idle]
    exact not_false

section
variable {atomicity : Atomicity} {params : MbrokerParams} {name : CString} {boxI : Nat}
  {broker : Broker (Fin params.maxSessions)} {thread : Fin params.maxSessions}
  {server server' : Server (Fin params.maxSessions)}

/-- A worker that neither creates nor removes a box takes a step of the run. -/
theorem streams_goto {point next : Point}
    (reachable : (streamSystem atomicity params name boxI).Reachable
      (broker.goto thread server point))
    (creates : ∀ create, point ≠ .create create) (removes : ∀ remove, point ≠ .remove remove)
    (step : (broker.goto thread server point).Step atomicity thread
      ((broker.goto thread server point).goto thread server' next)) :
    (streamSystem atomicity params name boxI).Reachable (broker.goto thread server' next) := by
  have keeps : KeepsBox atomicity (broker.goto thread server point) (rootPath name) thread := by
    constructor
    · rw [Broker.goto_self]
      exact removes _
    · intro _ _ _ _ atPoint
      rw [Broker.goto_self] at atPoint
      exact (creates _ atPoint).elim
  have taken := reachable.step (⟨step, keeps⟩ :
    (streamSystem atomicity params name boxI).step thread _ _)
  rw [Broker.goto_goto] at taken
  exact taken

theorem streams_request
    (reachable : (streamSystem atomicity params name boxI).Reachable
      (broker.goto thread server .idle)) (request : Request) :
    (streamSystem atomicity params name boxI).Reachable
      (broker.goto thread server request.start) :=
  streams_goto reachable (fun _ other => by cases other) (fun _ other => by cases other)
    (.dequeue request (broker.goto_self thread server _))

theorem streams_publisher {point : PublisherPoint} {next : Option PublisherPoint}
    (reachable : (streamSystem atomicity params name boxI).Reachable
      (broker.goto thread server (.publisher point)))
    (step : PublisherStep server point server' next) :
    (streamSystem atomicity params name boxI).Reachable
      (broker.goto thread server' (next.elim .idle .publisher)) :=
  streams_goto reachable (fun _ other => by cases other) (fun _ other => by cases other)
    (.publisher (broker.goto_self thread server _) step)

theorem streams_subscriber {point : SubscriberPoint} {next : Option SubscriberPoint}
    (reachable : (streamSystem atomicity params name boxI).Reachable
      (broker.goto thread server (.subscriber point)))
    (step : SubscriberStep thread server point server' next) :
    (streamSystem atomicity params name boxI).Reachable
      (broker.goto thread server' (next.elim .idle .subscriber)) :=
  streams_goto reachable (fun _ other => by cases other) (fun _ other => by cases other)
    (.subscriber (broker.goto_self thread server _) step)

end

/-- One worker has stored a message that it has yet to announce, and the other is idle. -/
structure OneStored (broker : Broker (Fin twoSessions.maxSessions)) (message : Message) :
    Prop where
  reachable : (streamSystem .sections twoSessions boxA 0).Reachable broker
  stored : broker.server.stored 0 = [message]
  idle : broker.workers workerB = .idle
  isTaken : broker.server.IsTaken 0
  named : (broker.server.boxesTable 0).name = rootPath boxA
  unlocked : broker.server.Unlocked 0

theorem exists_oneStored (message : Message) : ∃ broker, OneStored broker message := by
  obtain ⟨fs, id, files, reachable⟩ := exists_firstBox .sections (fun _ => ⟨boxA, 0, 0, 0⟩)
    boxA_short workerA (fun _ _ _ => True) (fun _ _ _ => trivial)
  have small : twoSessions.maxSessions < 2 ^ 31 := by decide
  have fresh := firstBox_fresh files reachable.of_restrict
  have start : (streamSystem .sections twoSessions boxA 0).Reachable
      (firstBoxBroker fs (fun _ => ⟨boxA, 0, 0, 0⟩)) := .initial fresh
  have isTaken : (firstBoxServer fs (fun _ => ⟨boxA, 0, 0, 0⟩) (rootPath boxA) :
      Server (Fin twoSessions.maxSessions)).IsTaken 0 := firstBoxServer_isTaken _ _ _
  have stream : StreamFiles twoSessions (rootPath boxA) id fs [] (oneFile boxA id) :=
    ⟨files, rootPath_valid boxA_short, oneFile_names boxA id, oneFile_files boxA id, by decide⟩
  obtain ⟨result1, fs1, returned1⟩ := files.returns small (.opens (rootPath boxA) false true)
  obtain ⟨_, opened, _⟩ := files.opensPresent stream.valid stream.names stream.contents
    ⟨0, by decide, rfl⟩ returned1
  obtain ⟨model1, stream1, _, place⟩ := stream.opens returned1
  obtain ⟨result2, fs2, returned2⟩ := stream1.files.returns small (.writes result1.length message)
  obtain ⟨_, _, _, refuses⟩ := stream1.appends ((place (by omega)).1 rfl) returned2
  have written : result2.length = msgMaxLen := by
    by_contra refused
    exact absurd (refuses refused).2.2 (by decide)
  have vacant : ¬ (0 : UInt64) < 0 := by decide
  have requested := streams_request start (.pubRegister boxA)
  have connected := streams_publisher requested .pipeOpens
  have found := streams_publisher connected (.found (boxFind_first files isTaken rfl))
  have registered := streams_publisher found (.registers rfl vacant returned1 (by omega))
  have arrived := streams_publisher registered (.codeArrives rfl)
  have checked := streams_publisher arrived (.boxThere isTaken)
  have given := streams_publisher checked (@PublisherStep.messageArrives _ _ _ message)
  have stored := streams_publisher given (.writes returned2 written)
  refine ⟨_, stored, rfl, ?_, isTaken, rfl, rfl⟩
  have different : workerB ≠ workerA := by decide
  rw [Broker.goto_other _ _ _ different]
  rfl

/-- The other worker serves a subscriber, which reads the message and sends it before it is
announced. -/
theorem message_stream_one :
    ∃ (broker : Broker (Fin twoSessions.maxSessions)) (message : Message)
      (session : SubscriberSession), broker.server.stored 0 = [message] ∧
        broker.workers workerB = .subscriber (.readNext session) ∧ session.sent = [message] ∧
        MessageStream broker (rootPath boxA) 0 ∧
        ∀ worker broker', broker.Step .sections worker broker' →
          AcceptsMessages broker 0 worker broker' := by
  let message : Message := ⟨List.replicate msgMaxLen 0, List.length_replicate⟩
  obtain ⟨broker, one⟩ := exists_oneStored message
  have small : twoSessions.maxSessions < 2 ^ 31 := by decide
  have start := one.reachable
  rw [← Broker.goto_same _ workerB one.idle] at start
  obtain ⟨id, model, kept⟩ := Broker.reachable_streamKept one.reachable
  have without : (broker.workers workerB).file? = none := congrArg Point.file? one.idle
  obtain ⟨result1, fs1, returned1⟩ :=
    kept.stream.files.returns small (.opens (rootPath boxA) false false)
  obtain ⟨_, opened, _⟩ := kept.stream.files.opensPresent kept.stream.valid
    kept.stream.names kept.stream.contents (kept.held.handle_free without) returned1
  have requested := streams_request start (.subRegister boxA)
  have connected := streams_subscriber requested .pipeOpens
  have found := streams_subscriber connected
    (.found (boxFind_first kept.stream.files one.isTaken one.named))
  have registered := streams_subscriber found
    (@SubscriberStep.registers _ _ _ _ _ _ _ message one.unlocked returned1 (by omega))
  obtain ⟨_, model1, kept1⟩ := Broker.reachable_streamKept registered
  obtain ⟨result2, fs2, returned2⟩ := kept1.stream.files.returns small (.reads result1.length)
  have inStream := kept1.points workerB
  rw [Broker.goto_self] at inStream
  obtain ⟨_, _, _, full, short⟩ := kept1.stream.readsNext inStream returned2
  have read : result2.length = msgMaxLen := by
    by_contra nothing
    have all := ((short nothing).2 rfl).trans one.stored
    cases all
  have arrived := streams_subscriber registered (.reads one.unlocked one.isTaken returned2 read)
  have checked := streams_subscriber arrived (.boxThere one.isTaken)
  have sent := streams_subscriber checked .sends
  have grows := (full read rfl).1
  have same := grows.eq_of_length (congrArg List.length one.stored).symm
  refine ⟨_, message, _, ?_, Broker.goto_self _ _ _ _, ?_, message_stream sent⟩
  · exact one.stored
  · exact same.trans one.stored

end TecnicoFS.Mbroker
