/-
Sessions and the boxes that occupy the slots of the box table.

A session remembers the slot of its box and not the box.  It keeps to its box as long as
`box_create` does not take a slot that a session still refers to, `box_delete` does not
come between a check and the write or send it was made for, and `box_find` does not return
a slot under the name of an earlier box.
-/

import TecnicoFS.Mbroker.FirstBox

set_option autoImplicit false

namespace TecnicoFS.Mbroker

open FileSystem

variable {Thread : Type} {atomicity : Atomicity} {broker broker' : Broker Thread}
  {thread : Thread}

/-! ### Sessions and their boxes -/

/-- The box that was found is the last one that took its slot. -/
structure FoundBox.Last (box : FoundBox) (server : Server Thread) : Prop where
  occupant : server.occupants box.boxI = box.occupant
  name : server.occupantName box.boxI = box.boxName

/-- The slot a session has checked for the write or the send it is about to make -/
def Point.checked? : Point → Option Nat
  | .publisher (.readMessage session) => some session.boxI
  | .publisher (.writeMessage session _) => some session.boxI
  | .subscriber (.sendMessage session) => some session.boxI
  | .subscriber (.readNext session) => some session.boxI
  | _ => none

/-- The worker sleeps in `cond_wait` on the slot. -/
def Broker.AsleepOn (broker : Broker Thread) (worker : Thread) (boxI : Nat) : Prop :=
  (∃ session : SubscriberSession, broker.workers worker = .subscriber (.blocked session) ∧
    session.boxI = boxI) ∧ broker.server.waiting boxI worker = true

/-- The step does not take a slot in use, remove a box under a session that has checked it,
or find a box under the name of another one. -/
structure KeepsToBoxes (broker : Broker Thread) (thread : Thread) : Prop where
  taking : ∀ boxName f boxI, broker.workers thread = .create (.takeBox boxName f) →
    broker.server.firstFreeBox = some boxI →
    ∀ worker box, (broker.workers worker).box? = some box → box.boxI ≠ boxI
  deleting : ∀ boxName boxI, broker.workers thread = .remove (.deleteBox boxName) →
    broker.server.boxFind boxName = some boxI →
    ∀ worker, (broker.workers worker).checked? ≠ some boxI
  finding : ∀ boxName boxI, (broker.workers thread).Finds boxName →
    broker.server.boxFind boxName = some boxI → broker.server.occupantName boxI = boxName

/-- What holds of every session in every state -/
structure SessionsKept (broker : Broker Thread) : Prop where
  /-- Every worker refers to the last box of its slot. -/
  last : ∀ worker box, (broker.workers worker).box? = some box → box.Last broker.server
  /-- A box that was checked is still there. -/
  checked : ∀ worker boxI, (broker.workers worker).checked? = some boxI →
    broker.server.IsTaken boxI
  /-- Nobody sleeps on a box that was removed. -/
  asleep : ∀ worker boxI, broker.AsleepOn worker boxI → broker.server.IsTaken boxI

/-- A session that has just checked its slot found it TAKEN. -/
theorem PublisherStep.checked {server server' : Server Thread} {point : PublisherPoint}
    {next : Option PublisherPoint} {boxI : Nat} (step : PublisherStep server point server' next)
    (checked : (next.elim Point.idle Point.publisher).checked? = some boxI) :
    (Point.publisher point).checked? = some boxI ∨
      (∃ box, (Point.publisher point).box? = some box ∧ box.boxI = boxI) ∧
        server.IsTaken boxI := by
  cases step with
  | boxThere there =>
      cases checked
      exact Or.inr ⟨⟨_, rfl, rfl⟩, there⟩
  | messageArrives => exact Or.inl checked
  | _ => cases checked

theorem SubscriberStep.checked [DecidableEq Thread] {server server' : Server Thread}
    {point : SubscriberPoint} {next : Option SubscriberPoint} {boxI : Nat}
    (step : SubscriberStep thread server point server' next)
    (checked : (next.elim Point.idle Point.subscriber).checked? = some boxI) :
    (Point.subscriber point).checked? = some boxI ∨
      (∃ box, (Point.subscriber point).box? = some box ∧ box.boxI = boxI) ∧
        server.IsTaken boxI := by
  cases step with
  | boxThere there =>
      cases checked
      exact Or.inr ⟨⟨_, rfl, rfl⟩, there⟩
  | sends => exact Or.inl checked
  | readsNext _ _ => exact Or.inl checked
  | _ => cases checked

/-- A subscriber goes to sleep on a slot that is TAKEN. -/
theorem SubscriberStep.asleep [DecidableEq Thread] {server server' : Server Thread}
    {point : SubscriberPoint} {next : Option SubscriberPoint} {session : SubscriberSession}
    (step : SubscriberStep thread server point server' next)
    (blocked : next.elim Point.idle Point.subscriber = .subscriber (.blocked session)) :
    server.IsTaken session.boxI := by
  cases step with
  | blocks _ there _ _ =>
      cases blocked
      exact there
  | _ => cases blocked

namespace Broker

variable [DecidableEq Thread]

theorem Step.checked {boxI : Nat} (step : broker.Step atomicity thread broker')
    (checked : (broker'.workers thread).checked? = some boxI) :
    (broker.workers thread).checked? = some boxI ∨
      (∃ box, (broker.workers thread).box? = some box ∧ box.boxI = boxI) ∧
        broker.server.IsTaken boxI := by
  cases step with
  | dequeue request _ =>
      rw [goto_self] at checked
      cases request <;> cases checked
  | publisher atPoint taken =>
      rw [goto_self] at checked
      rw [atPoint]
      exact taken.checked checked
  | subscriber atPoint taken =>
      rw [goto_self] at checked
      rw [atPoint]
      exact taken.checked checked
  | @create _ _ next _ _ =>
      rw [goto_self] at checked
      cases next <;> cases checked
  | @remove _ _ next _ _ =>
      rw [goto_self] at checked
      cases next <;> cases checked

theorem Step.asleep {session : SubscriberSession} (step : broker.Step atomicity thread broker')
    (blocked : broker'.workers thread = .subscriber (.blocked session)) :
    broker.server.IsTaken session.boxI := by
  cases step with
  | dequeue request _ =>
      rw [goto_self] at blocked
      cases request <;> cases blocked
  | @publisher _ _ next _ _ =>
      rw [goto_self] at blocked
      cases next <;> cases blocked
  | subscriber _ taken =>
      rw [goto_self] at blocked
      exact taken.asleep blocked
  | @create _ _ next _ _ =>
      rw [goto_self] at blocked
      cases next <;> cases blocked
  | @remove _ _ next _ _ =>
      rw [goto_self] at blocked
      cases next <;> cases blocked

/-- Only a worker itself goes to sleep. -/
theorem Step.waiting {worker : Thread} {boxI : Nat}
    (step : broker.Step atomicity thread broker') (different : worker ≠ thread)
    (waits : broker'.server.waiting boxI worker = true) :
    broker.server.waiting boxI worker = true := by
  have broadcast {waiting : Nat → Thread → Bool} {place : Nat}
      (waits : Function.update waiting place (fun _ => false) boxI worker = true) :
      waiting boxI worker = true := by
    rw [Function.update_apply] at waits
    by_cases here : boxI = place
    · rw [if_pos here] at waits
      cases waits
    · rwa [if_neg here] at waits
  have own {waiting : Nat → Thread → Bool} {place : Nat} {value : Bool}
      (waits : Function.update waiting place (Function.update (waiting place) thread value)
        boxI worker = true) : waiting boxI worker = true := by
    rw [Function.update_apply] at waits
    by_cases here : boxI = place
    · rw [if_pos here, Function.update_of_ne different] at waits
      rw [here]
      exact waits
    · rwa [if_neg here] at waits
  cases step with
  | dequeue _ _ => exact waits
  | publisher _ taken =>
      cases taken with
      | publishes _ => exact broadcast waits
      | _ => exact waits
  | subscriber _ taken =>
      cases taken with
      | blocks _ _ _ _ => exact own waits
      | wakesSpuriously _ => exact own waits
      | _ => exact waits
  | create _ taken => cases taken <;> exact waits
  | remove _ taken =>
      cases taken with
      | deletes _ _ => exact broadcast waits
      | _ => exact waits

end Broker

theorem SessionsKept.step [DecidableEq Thread] (kept : SessionsKept broker)
    (step : broker.Step atomicity thread broker') (keeps : KeepsToBoxes broker thread) :
    SessionsKept broker' := by
  -- What a worker refers to after the step was the last box of its slot before it.
  have last (worker : Thread) (box : FoundBox)
      (refers : (broker'.workers worker).box? = some box) : box.Last broker.server := by
    by_cases moved : worker = thread
    · subst worker
      rcases step.box refers with same | ⟨boxName, boxI, finds, found, same⟩
      · exact kept.last thread box same
      · subst same
        exact ⟨rfl, keeps.finding boxName boxI finds found⟩
    · rw [step.others moved] at refers
      exact kept.last worker box refers
  have checked (worker : Thread) (boxI : Nat)
      (checked : (broker'.workers worker).checked? = some boxI) :
      broker.server.IsTaken boxI := by
    by_cases moved : worker = thread
    · subst worker
      rcases step.checked checked with before | ⟨_, there⟩
      · exact kept.checked thread boxI before
      · exact there
    · rw [step.others moved] at checked
      exact kept.checked worker boxI checked
  have asleep (worker : Thread) (boxI : Nat) (sleeps : broker'.AsleepOn worker boxI) :
      broker.server.IsTaken boxI := by
    obtain ⟨⟨session, blocked, same⟩, waits⟩ := sleeps
    by_cases moved : worker = thread
    · subst worker
      rw [← same]
      exact step.asleep blocked
    · rw [step.others moved] at blocked
      exact kept.asleep worker boxI ⟨⟨session, blocked, same⟩, step.waiting moved waits⟩
  cases step.slots with
  | same free occupants names =>
      constructor
      · intro worker box refers
        obtain ⟨occupant, name⟩ := last worker box refers
        constructor
        · rw [occupants, occupant]
        · rw [names, name]
      · intro worker boxI isChecked
        rw [Server.IsTaken, free]
        exact checked worker boxI isChecked
      · intro worker boxI sleeps
        rw [Server.IsTaken, free]
        exact asleep worker boxI sleeps
  | @takes boxName f boxI atPoint found free occupants names =>
      -- No session refers to the slot that is taken.
      have elsewhere (worker : Thread) (box : FoundBox)
          (refers : (broker'.workers worker).box? = some box) : box.boxI ≠ boxI := by
        by_cases moved : worker = thread
        · subst worker
          rcases step.box refers with before | ⟨_, _, finds, _, _⟩
          · rw [atPoint] at before
            cases before
          · rw [atPoint] at finds
            rcases finds with impossible | impossible <;> cases impossible
        · rw [step.others moved] at refers
          exact keeps.taking boxName f boxI atPoint found worker box refers
      have taken (other : Nat) (isTaken : broker.server.IsTaken other) :
          broker'.server.IsTaken other := by
        rw [Server.IsTaken, free, Function.update_apply]
        by_cases here : other = boxI
        · rw [if_pos here]
        · rw [if_neg here]
          exact isTaken
      constructor
      · intro worker box refers
        obtain ⟨occupant, name⟩ := last worker box refers
        have different := elsewhere worker box refers
        constructor
        · rw [occupants, Function.update_of_ne different, occupant]
        · rw [names, Function.update_of_ne different, name]
      · intro worker other isChecked
        exact taken other (checked worker other isChecked)
      · intro worker other sleeps
        exact taken other (asleep worker other sleeps)
  | @deletes boxName boxI atPoint found free occupants names woken =>
      have elsewhere (other : Nat) (different : other ≠ boxI)
          (isTaken : broker.server.IsTaken other) : broker'.server.IsTaken other := by
        rw [Server.IsTaken, free, Function.update_of_ne different]
        exact isTaken
      constructor
      · intro worker box refers
        obtain ⟨occupant, name⟩ := last worker box refers
        constructor
        · rw [occupants, occupant]
        · rw [names, name]
      · intro worker other isChecked
        refine elsewhere other ?_ (checked worker other isChecked)
        intro same
        subst same
        by_cases moved : worker = thread
        · subst worker
          rcases step.checked isChecked with before | ⟨⟨box, refers, _⟩, _⟩
          · rw [atPoint] at before
            cases before
          · rw [atPoint] at refers
            cases refers
        · rw [step.others moved] at isChecked
          exact keeps.deleting boxName other atPoint found worker isChecked
      · intro worker other sleeps
        refine elsewhere other ?_ (asleep worker other sleeps)
        intro same
        obtain ⟨_, waits⟩ := sleeps
        rw [same, woken worker] at waits
        cases waits

/-! ### What a step of a session does to its box -/

/-- A publisher writes to the entry of its own box only. -/
theorem PublisherStep.boxesTable {server server' : Server Thread} {point : PublisherPoint}
    {next : Option PublisherPoint} (step : PublisherStep server point server' next) {boxI : Nat}
    (changed : server'.boxesTable boxI ≠ server.boxesTable boxI) :
    ∃ box, (Point.publisher point).box? = some box ∧ box.boxI = boxI := by
  have here {place : Nat} {box : Box}
      (changed : (server.setBox place box).boxesTable boxI ≠ server.boxesTable boxI) :
      place = boxI := by
    by_contra different
    exact changed (server.setBox_other box (Ne.symm different))
  cases step with
  | @openFails box _ _ _ _ _ _ =>
      refine ⟨box, rfl, ?_⟩
      by_contra different
      apply changed
      exact (Server.setBox_other _ _ (Ne.symm different)).trans
        (server.setBox_other _ (Ne.symm different))
  | registers _ _ _ _ => exact ⟨_, rfl, here changed⟩
  | publishes _ => exact ⟨_, rfl, here changed⟩
  | unregisters _ => exact ⟨_, rfl, here changed⟩
  | _ => exact (changed rfl).elim

theorem SubscriberStep.boxesTable [DecidableEq Thread] {server server' : Server Thread}
    {point : SubscriberPoint} {next : Option SubscriberPoint}
    (step : SubscriberStep thread server point server' next) {boxI : Nat}
    (changed : server'.boxesTable boxI ≠ server.boxesTable boxI) :
    ∃ box, (Point.subscriber point).box? = some box ∧ box.boxI = boxI := by
  have here {place : Nat} {box : Box}
      (changed : (server.setBox place box).boxesTable boxI ≠ server.boxesTable boxI) :
      place = boxI := by
    by_contra different
    exact changed (server.setBox_other box (Ne.symm different))
  cases step with
  | @openFails box _ _ _ _ _ =>
      refine ⟨box, rfl, ?_⟩
      by_contra different
      apply changed
      exact (Server.setBox_other _ _ (Ne.symm different)).trans
        (server.setBox_other _ (Ne.symm different))
  | registers _ _ _ => exact ⟨_, rfl, here changed⟩
  | unregisters _ => exact ⟨_, rfl, here changed⟩
  | _ => exact (changed rfl).elim

/-- An update that is not made by `box_create` is made by a session, to its own entry. -/
theorem Broker.Step.boxesTable [DecidableEq Thread]
    (step : broker.Step atomicity thread broker') {boxI : Nat}
    (changed : broker'.server.boxesTable boxI ≠ broker.server.boxesTable boxI)
    (notCreate : ∀ point, broker.workers thread ≠ .create point) :
    ∃ box, (broker.workers thread).box? = some box ∧ box.boxI = boxI := by
  cases step with
  | dequeue _ _ => exact (changed rfl).elim
  | publisher atPoint taken =>
      rw [atPoint]
      exact taken.boxesTable changed
  | subscriber atPoint taken =>
      rw [atPoint]
      exact taken.boxesTable changed
  | create atPoint _ => exact (notCreate _ atPoint).elim
  | remove _ taken => cases taken <;> exact (changed rfl).elim

/-- A step of a publisher that is known to be at a point -/
theorem Broker.Step.ofPublisher [DecidableEq Thread] {point : PublisherPoint}
    (step : broker.Step atomicity thread broker')
    (atPoint : broker.workers thread = .publisher point) :
    ∃ server next, PublisherStep broker.server point server next ∧
      broker' = broker.goto thread server (next.elim .idle .publisher) := by
  cases step with
  | publisher atPoint' taken =>
      rw [atPoint] at atPoint'
      cases atPoint'
      exact ⟨_, _, taken, rfl⟩
  | dequeue _ atPoint' => rw [atPoint] at atPoint'; cases atPoint'
  | subscriber atPoint' _ => rw [atPoint] at atPoint'; cases atPoint'
  | create atPoint' _ => rw [atPoint] at atPoint'; cases atPoint'
  | remove atPoint' _ => rw [atPoint] at atPoint'; cases atPoint'

theorem Broker.Step.ofSubscriber [DecidableEq Thread] {point : SubscriberPoint}
    (step : broker.Step atomicity thread broker')
    (atPoint : broker.workers thread = .subscriber point) :
    ∃ server next, SubscriberStep thread broker.server point server next ∧
      broker' = broker.goto thread server (next.elim .idle .subscriber) := by
  cases step with
  | subscriber atPoint' taken =>
      rw [atPoint] at atPoint'
      cases atPoint'
      exact ⟨_, _, taken, rfl⟩
  | dequeue _ atPoint' => rw [atPoint] at atPoint'; cases atPoint'
  | publisher atPoint' _ => rw [atPoint] at atPoint'; cases atPoint'
  | create atPoint' _ => rw [atPoint] at atPoint'; cases atPoint'
  | remove atPoint' _ => rw [atPoint] at atPoint'; cases atPoint'

end TecnicoFS.Mbroker
