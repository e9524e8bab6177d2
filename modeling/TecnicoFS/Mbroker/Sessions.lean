/-
What a worker refers to at each point of its handler, and how a step changes it.
-/

import TecnicoFS.Mbroker.Handlers

set_option autoImplicit false

namespace TecnicoFS.Mbroker

open FileSystem

/-! ### Points -/

def PublisherPoint.session? : PublisherPoint → Option Session
  | .openPipe _ | .findBox _ | .register _ => none
  | .readCode session | .checkBox session | .readMessage session | .writeMessage session _
  | .publish session | .unregister session | .closeFile session => some session

def SubscriberPoint.session? : SubscriberPoint → Option SubscriberSession
  | .openPipe _ | .findBox _ | .register _ => none
  | .awaitMessage session | .blocked session | .checkBox session | .sendMessage session
  | .readNext session | .unregister session | .closeFile session => some session

def CreatePoint.file? : CreatePoint → Option Int
  | .openExisting _ | .openNew _ | .answer _ => none
  | .takeBox _ f | .fillBox _ f _ | .closeFile f _ => some f

/-- The session of a worker from its registration until its file is closed -/
def Point.session? : Point → Option Session
  | .publisher point => point.session?
  | .subscriber point => point.session?.map SubscriberSession.toSession
  | .idle | .create _ | .remove _ => none

/-- The variable of the worker that holds the result of `tfs_open` -/
def Point.file? : Point → Option Int
  | .create point => point.file?
  | point => point.session?.map Session.boxF

/-- The slot whose `n_publishers` the worker raised and still has to lower -/
def PublisherPoint.slot? : PublisherPoint → Option Nat
  | .openPipe _ | .findBox _ | .register _ | .closeFile _ => none
  | .readCode session | .checkBox session | .readMessage session | .writeMessage session _
  | .publish session | .unregister session => some session.boxI

/-- The slot whose `n_subscribers` the worker raised and still has to lower -/
def SubscriberPoint.slot? : SubscriberPoint → Option Nat
  | .openPipe _ | .findBox _ | .register _ | .closeFile _ => none
  | .awaitMessage session | .blocked session | .checkBox session | .sendMessage session
  | .readNext session | .unregister session => some session.boxI

def Point.publishes? : Point → Option Nat
  | .publisher point => point.slot?
  | .idle | .subscriber _ | .create _ | .remove _ => none

def Point.subscribes? : Point → Option Nat
  | .subscriber point => point.slot?
  | .idle | .publisher _ | .create _ | .remove _ => none

def PublisherPoint.box? : PublisherPoint → Option FoundBox
  | .openPipe _ | .findBox _ | .closeFile _ => none
  | .register box => some box
  | .readCode session | .checkBox session | .readMessage session | .writeMessage session _
  | .publish session | .unregister session => some session.toFoundBox

def SubscriberPoint.box? : SubscriberPoint → Option FoundBox
  | .openPipe _ | .findBox _ | .closeFile _ => none
  | .register box => some box
  | .awaitMessage session | .blocked session | .checkBox session | .sendMessage session
  | .readNext session | .unregister session => some session.toFoundBox

/-- The box a worker found and may still access -/
def Point.box? : Point → Option FoundBox
  | .publisher point => point.box?
  | .subscriber point => point.box?
  | .idle | .create _ | .remove _ => none

theorem Point.publishes_box {point : Point} {slot : Nat}
    (publishes : point.publishes? = some slot) :
    ∃ box, point.box? = some box ∧ box.boxI = slot := by
  cases point with
  | publisher point =>
      cases point with
      | openPipe _ => cases publishes
      | findBox _ => cases publishes
      | register _ => cases publishes
      | closeFile _ => cases publishes
      | _ => exact ⟨_, rfl, Option.some.inj publishes⟩
  | _ => cases publishes

theorem Point.subscribes_box {point : Point} {slot : Nat}
    (subscribes : point.subscribes? = some slot) :
    ∃ box, point.box? = some box ∧ box.boxI = slot := by
  cases point with
  | subscriber point =>
      cases point with
      | openPipe _ => cases subscribes
      | findBox _ => cases subscribes
      | register _ => cases subscribes
      | closeFile _ => cases subscribes
      | _ => exact ⟨_, rfl, Option.some.inj subscribes⟩
  | _ => cases subscribes

/-! ### Steps -/

variable {Thread : Type} {atomicity : Atomicity}

/-- The worker is about to call `box_find`. -/
def Point.Finds (point : Point) (boxName : CString) : Prop :=
  point = .publisher (.findBox boxName) ∨ point = .subscriber (.findBox boxName)

theorem PublisherStep.box {server server' : Server Thread} {point : PublisherPoint}
    {next : Option PublisherPoint} {box : FoundBox}
    (step : PublisherStep server point server' next)
    (refers : (next.elim Point.idle Point.publisher).box? = some box) :
    point.box? = some box ∨ ∃ boxName boxI, point = .findBox boxName ∧
      server.boxFind boxName = some boxI ∧ box = server.foundBox boxName boxI := by
  cases step with
  | found found => exact Or.inr ⟨_, _, rfl, found, (Option.some.inj refers).symm⟩
  | pipeFails => cases refers
  | pipeOpens => cases refers
  | notFound _ => cases refers
  | busy _ _ => cases refers
  | openFails _ _ _ _ => cases refers
  | unregisters _ => cases refers
  | closes _ => cases refers
  | _ => exact Or.inl refers

theorem SubscriberStep.box [DecidableEq Thread] {thread : Thread}
    {server server' : Server Thread} {point : SubscriberPoint} {next : Option SubscriberPoint}
    {box : FoundBox} (step : SubscriberStep thread server point server' next)
    (refers : (next.elim Point.idle Point.subscriber).box? = some box) :
    point.box? = some box ∨ ∃ boxName boxI, point = .findBox boxName ∧
      server.boxFind boxName = some boxI ∧ box = server.foundBox boxName boxI := by
  cases step with
  | found found => exact Or.inr ⟨_, _, rfl, found, (Option.some.inj refers).symm⟩
  | pipeFails => cases refers
  | pipeOpens => cases refers
  | notFound _ => cases refers
  | openFails _ _ _ => cases refers
  | unregisters _ => cases refers
  | closes _ => cases refers
  | _ => exact Or.inl refers

/-! ### The box table -/

/-- Some box was entered in the slot at some time. -/
def Server.WasTaken (server : Server Thread) (boxI : Nat) : Prop := 0 < server.occupants boxI

/-- What a step does to the slots of the box table, with the point of its worker -/
inductive SlotEffect (server : Server Thread) (point : Point) (server' : Server Thread) :
    Prop where
  | same : server'.freeBoxes = server.freeBoxes → server'.occupants = server.occupants →
      server'.occupantName = server.occupantName → SlotEffect server point server'
  | takes {boxName : CString} {f : Int} {boxI : Nat} :
      point = .create (.takeBox boxName f) → server.firstFreeBox = some boxI →
      server'.freeBoxes = Function.update server.freeBoxes boxI .taken →
      server'.occupants = Function.update server.occupants boxI (server.occupants boxI + 1) →
      server'.occupantName = Function.update server.occupantName boxI boxName →
      SlotEffect server point server'
  | deletes {boxName : CString} {boxI : Nat} : point = .remove (.deleteBox boxName) →
      server.boxFind boxName = some boxI →
      server'.freeBoxes = Function.update server.freeBoxes boxI .free →
      server'.occupants = server.occupants → server'.occupantName = server.occupantName →
      (∀ worker, server'.waiting boxI worker = false) → SlotEffect server point server'

/-! ### The entries of the boxes -/

/-- The part of a box that a listing copies and that no counter changes -/
def Box.label (box : Box) : CString × UInt64 := (box.name, box.size)

structure SameTable (server server' : Server Thread) : Prop where
  freeBoxes : server'.freeBoxes = server.freeBoxes
  nBoxes : server'.nBoxes = server.nBoxes
  occupantName : server'.occupantName = server.occupantName
  labels : ∀ boxI, (server'.boxesTable boxI).label = (server.boxesTable boxI).label

theorem SameTable.refl (server : Server Thread) : SameTable server server :=
  ⟨rfl, rfl, rfl, fun _ => rfl⟩

theorem Server.addSize_size (server : Server Thread) (boxI : Nat) :
    ((server.addSize boxI).boxesTable boxI).size =
      (server.boxesTable boxI).size + UInt64.ofNat msgMaxLen := by
  unfold addSize
  rw [server.setBox_self]

theorem SameTable.size {server server' : Server Thread} (same : SameTable server server')
    (boxI : Nat) : (server'.boxesTable boxI).size = (server.boxesTable boxI).size :=
  congrArg Prod.snd (same.labels boxI)

theorem Server.setBox_label (server : Server Thread) {boxI : Nat} {box : Box}
    (same : box.label = (server.boxesTable boxI).label) (other : Nat) :
    ((server.setBox boxI box).boxesTable other).label = (server.boxesTable other).label := by
  by_cases here : other = boxI
  · rw [here, server.setBox_self, same]
  · rw [server.setBox_other box here]

theorem PublisherStep.table {server server' : Server Thread} {point : PublisherPoint}
    {next : Option PublisherPoint} (step : PublisherStep server point server' next) :
    (SameTable server server' ∧ ∀ session, point ≠ .publish session) ∨
      ∃ session, point = .publish session ∧
        server' = (server.addSize session.boxI).broadcast session.boxI := by
  have counter {place : Server Thread} {boxI : Nat} {box : Box}
      (same : box.label = (place.boxesTable boxI).label) (other : Nat) :=
    place.setBox_label same other
  cases step with
  | @openFails box _ fs _ _ _ _ =>
      refine Or.inl ⟨⟨rfl, rfl, rfl, ?_⟩, fun _ impossible => by cases impossible⟩
      intro other
      have added : ((server.addPublisher box.boxI).boxesTable other).label =
          (server.boxesTable other).label := by
        apply counter
        rfl
      rw [← added]
      apply Server.setBox_label ((server.addPublisher box.boxI).setFs fs)
      rfl
  | registers _ _ _ _ =>
      refine Or.inl ⟨⟨rfl, rfl, rfl, ?_⟩, fun _ impossible => by cases impossible⟩
      apply counter
      rfl
  | publishes _ => exact Or.inr ⟨_, rfl, rfl⟩
  | unregisters _ =>
      refine Or.inl ⟨⟨rfl, rfl, rfl, ?_⟩, fun _ impossible => by cases impossible⟩
      apply counter
      rfl
  | _ => exact Or.inl ⟨⟨rfl, rfl, rfl, fun _ => rfl⟩, fun _ impossible => by cases impossible⟩

theorem SubscriberStep.table [DecidableEq Thread] {thread : Thread}
    {server server' : Server Thread} {point : SubscriberPoint} {next : Option SubscriberPoint}
    (step : SubscriberStep thread server point server' next) : SameTable server server' := by
  cases step with
  | @openFails box _ fs _ _ _ =>
      refine ⟨rfl, rfl, rfl, ?_⟩
      intro other
      have added : ((server.addSubscriber box.boxI).boxesTable other).label =
          (server.boxesTable other).label := by
        apply Server.setBox_label
        rfl
      rw [← added]
      apply Server.setBox_label ((server.addSubscriber box.boxI).setFs fs)
      rfl
  | registers _ _ _ =>
      refine ⟨rfl, rfl, rfl, ?_⟩
      apply Server.setBox_label
      rfl
  | unregisters _ =>
      refine ⟨rfl, rfl, rfl, ?_⟩
      apply Server.setBox_label
      rfl
  | _ => exact ⟨rfl, rfl, rfl, fun _ => rfl⟩

/-! ### Workers -/

namespace Broker

variable [DecidableEq Thread] {broker broker' : Broker Thread} {thread : Thread}

@[simp] theorem goto_server (broker : Broker Thread) (thread : Thread) (server : Server Thread)
    (point : Point) : (broker.goto thread server point).server = server := rfl

@[simp] theorem goto_self (broker : Broker Thread) (thread : Thread) (server : Server Thread)
    (point : Point) : (broker.goto thread server point).workers thread = point :=
  Function.update_self _ _ _

theorem goto_other (broker : Broker Thread) {thread other : Thread} (server : Server Thread)
    (point : Point) (different : other ≠ thread) :
    (broker.goto thread server point).workers other = broker.workers other :=
  Function.update_of_ne different _ _

/-- A step moves its own worker only. -/
theorem Step.others (step : broker.Step atomicity thread broker') {other : Thread}
    (different : other ≠ thread) : broker'.workers other = broker.workers other := by
  cases step <;> exact goto_other _ _ _ different

/-- What is observed of the workers changes at one of them. -/
theorem Step.observe {α : Type} (step : broker.Step atomicity thread broker')
    (observe : Point → α) :
    (fun worker => observe (broker'.workers worker)) =
      Function.update (fun worker => observe (broker.workers worker)) thread
        (observe (broker'.workers thread)) := by
  funext worker
  rw [Function.update_apply]
  by_cases moved : worker = thread
  · rw [if_pos moved, moved]
  · rw [if_neg moved, step.others moved]

/-- A worker refers to the box it referred to before, or to the one it has just found. -/
theorem Step.box {box : FoundBox} (step : broker.Step atomicity thread broker')
    (refers : (broker'.workers thread).box? = some box) :
    (broker.workers thread).box? = some box ∨
      ∃ boxName boxI, (broker.workers thread).Finds boxName ∧
        broker.server.boxFind boxName = some boxI ∧
        box = broker.server.foundBox boxName boxI := by
  cases step with
  | dequeue request _ =>
      rw [goto_self] at refers
      cases request <;> cases refers
  | publisher atPoint taken =>
      rw [goto_self] at refers
      rw [atPoint]
      rcases taken.box refers with same | ⟨boxName, boxI, finds, found, same⟩
      · exact Or.inl same
      · exact Or.inr ⟨boxName, boxI, Or.inl (congrArg _ finds), found, same⟩
  | subscriber atPoint taken =>
      rw [goto_self] at refers
      rw [atPoint]
      rcases taken.box refers with same | ⟨boxName, boxI, finds, found, same⟩
      · exact Or.inl same
      · exact Or.inr ⟨boxName, boxI, Or.inr (congrArg _ finds), found, same⟩
  | @create _ _ next _ _ =>
      rw [goto_self] at refers
      cases next <;> cases refers
  | @remove _ _ next _ _ =>
      rw [goto_self] at refers
      cases next <;> cases refers

theorem Step.slots (step : broker.Step atomicity thread broker') :
    SlotEffect broker.server (broker.workers thread) broker'.server := by
  cases step with
  | dequeue _ _ => exact .same rfl rfl rfl
  | publisher _ taken => cases taken <;> exact .same rfl rfl rfl
  | subscriber _ taken => cases taken <;> exact .same rfl rfl rfl
  | create atPoint taken =>
      cases taken with
      | takes _ found => exact .takes atPoint found rfl rfl rfl
      | creates _ found _ => exact .takes atPoint found rfl rfl rfl
      | _ => exact .same rfl rfl rfl
  | remove atPoint taken =>
      cases taken with
      | deletes found _ =>
          exact .deletes atPoint found rfl rfl rfl (broker.server.deleteBox_waiting _ _)
      | _ => exact .same rfl rfl rfl

end Broker

end TecnicoFS.Mbroker
