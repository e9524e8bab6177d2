/-
The session counters of the boxes.

`box_create` takes over the counters its slot was left with: `n_publishers` is never reset
and `n_subscribers` is reset in the second section only.  As long as it resets and takes
over zeros, both counters of every box count its registered sessions.
-/

import TecnicoFS.Library.SlotCounters
import TecnicoFS.Mbroker.FirstBox

set_option autoImplicit false

namespace TecnicoFS.Mbroker

open FileSystem SlotCounters

variable {Thread : Type} {atomicity : Atomicity} {server server' : Server Thread}

/-! ### Counters under the sections -/

namespace Server

def publisherCounts (server : Server Thread) (boxI : Nat) : UInt64 :=
  (server.boxesTable boxI).nPublishers

def subscriberCounts (server : Server Thread) (boxI : Nat) : UInt64 :=
  (server.boxesTable boxI).nSubscribers

/-- A write that leaves a field of the box alone leaves that field of every box alone. -/
theorem setBox_field {α : Type} (field : Box → α) (server : Server Thread) {boxI : Nat}
    {box : Box} (same : field box = field (server.boxesTable boxI)) (other : Nat) :
    field ((server.setBox boxI box).boxesTable other) = field (server.boxesTable other) := by
  by_cases here : other = boxI
  · rw [here, setBox_self, same]
  · rw [setBox_other server box here]

/-- Two writes to a box that restore a field of it -/
theorem setBox_restores {α : Type} (field : Box → α) (server : Server Thread)
    (fs : FileSystem.State) {boxI : Nat} {box last : Box}
    (same : field last = field (server.boxesTable boxI)) (other : Nat) :
    field ((((server.setBox boxI box).setFs fs).setBox boxI last).boxesTable other) =
      field (server.boxesTable other) := by
  by_cases here : other = boxI
  · rw [here, setBox_self, same]
  · rw [setBox_other _ last here]
    exact congrArg field (setBox_other server box here)

theorem setBox_enters (field : Box → UInt64) (server : Server Thread) {boxI : Nat} {box : Box}
    (raised : field box = field (server.boxesTable boxI) + 1) :
    SlotCounters.Step (fun other => field (server.boxesTable other))
      (fun other => field ((server.setBox boxI box).boxesTable other)) none (some boxI) := by
  apply SlotCounters.Step.enters
  · rw [setBox_self, raised]
  · intro other different
    rw [setBox_other server box different]

theorem setBox_leaves (field : Box → UInt64) (server : Server Thread) {boxI : Nat} {box : Box}
    (lowered : field box = field (server.boxesTable boxI) - 1) :
    SlotCounters.Step (fun other => field (server.boxesTable other))
      (fun other => field ((server.setBox boxI box).boxesTable other)) (some boxI) none := by
  apply SlotCounters.Step.leaves
  · rw [setBox_self, lowered]
  · intro other different
    rw [setBox_other server box different]

theorem addPublisher_dropPublisher (server : Server Thread) (fs : FileSystem.State)
    (boxI other : Nat) :
    (((server.addPublisher boxI).setFs fs).dropPublisher boxI).publisherCounts other =
        server.publisherCounts other ∧
      (((server.addPublisher boxI).setFs fs).dropPublisher boxI).subscriberCounts other =
        server.subscriberCounts other := by
  have raised : (server.addPublisher boxI).boxesTable boxI = _ := server.setBox_self boxI _
  constructor
  · refine setBox_restores Box.nPublishers server fs ?_ other
    change ((server.addPublisher boxI).boxesTable boxI).nPublishers - 1 = _
    rw [raised]
    exact UInt64.add_sub_cancel _ _
  · refine setBox_restores Box.nSubscribers server fs ?_ other
    change ((server.addPublisher boxI).boxesTable boxI).nSubscribers = _
    rw [raised]

theorem addSubscriber_dropSubscriber (server : Server Thread) (fs : FileSystem.State)
    (boxI other : Nat) :
    (((server.addSubscriber boxI).setFs fs).dropSubscriber boxI).publisherCounts other =
        server.publisherCounts other ∧
      (((server.addSubscriber boxI).setFs fs).dropSubscriber boxI).subscriberCounts other =
        server.subscriberCounts other := by
  have raised : (server.addSubscriber boxI).boxesTable boxI = _ := server.setBox_self boxI _
  constructor
  · refine setBox_restores Box.nPublishers server fs ?_ other
    change ((server.addSubscriber boxI).boxesTable boxI).nPublishers = _
    rw [raised]
  · refine setBox_restores Box.nSubscribers server fs ?_ other
    change ((server.addSubscriber boxI).boxesTable boxI).nSubscribers - 1 = _
    rw [raised]
    exact UInt64.add_sub_cancel _ _

end Server

/-! ### Steps -/

/-- What a step does to the counters, with the point of its worker before and after -/
structure CounterEffect (server server' : Server Thread) (point point' : Point) : Prop where
  publishers : SlotCounters.Step server.publisherCounts server'.publisherCounts
    point.publishes? point'.publishes?
  subscribers : SlotCounters.Step server.subscriberCounts server'.subscriberCounts
    point.subscribes? point'.subscribes?
  /-- A publisher is let in only where there is none. -/
  exclusive : ∀ slot, point.publishes? = none → point'.publishes? = some slot →
    server.publisherCounts slot = 0

/-- `box_create` takes an entry, and resets it, only while there is nothing to reset. -/
def ResetsNothing (server : Server Thread) (point : Point) : Prop :=
  (∀ boxName f boxI, point = .create (.takeBox boxName f) → server.firstFreeBox = some boxI →
    server.publisherCounts boxI = 0 ∧ server.subscriberCounts boxI = 0) ∧
  ∀ boxName f boxI, point = .create (.fillBox boxName f boxI) →
    server.subscriberCounts boxI = 0

/-- The counters are left alone. -/
theorem CounterEffect.quiet {point point' : Point}
    (publishes : point'.publishes? = point.publishes?)
    (subscribes : point'.subscribes? = point.subscribes?)
    (publishers : ∀ boxI, server'.publisherCounts boxI = server.publisherCounts boxI)
    (subscribers : ∀ boxI, server'.subscriberCounts boxI = server.subscriberCounts boxI) :
    CounterEffect server server' point point' := by
  constructor
  · rw [publishes]
    exact .same publishers
  · rw [subscribes]
    exact .same subscribers
  · intro slot outside inside
    rw [publishes, outside] at inside
    cases inside

theorem PublisherStep.counters {point : PublisherPoint} {next : Option PublisherPoint}
    (step : PublisherStep server point server' next) :
    CounterEffect server server' (.publisher point) (next.elim .idle .publisher) := by
  cases step with
  | openFails _ _ _ _ =>
      refine .quiet rfl rfl ?_ ?_
      · intro boxI
        exact (server.addPublisher_dropPublisher _ _ boxI).1
      · intro boxI
        exact (server.addPublisher_dropPublisher _ _ boxI).2
  | registers _ vacant _ _ =>
      constructor
      · exact server.setBox_enters Box.nPublishers rfl
      · refine .same (server.setBox_field Box.nSubscribers ?_)
        rfl
      · intro slot _ inside
        cases inside
        exact UInt64.le_zero_iff.mp (UInt64.not_lt.mp vacant)
  | publishes _ =>
      refine .quiet rfl rfl (server.setBox_field Box.nPublishers ?_)
        (server.setBox_field Box.nSubscribers ?_)
      · rfl
      · rfl
  | unregisters _ =>
      constructor
      · exact server.setBox_leaves Box.nPublishers rfl
      · refine .same (server.setBox_field Box.nSubscribers ?_)
        rfl
      · intro slot impossible
        cases impossible
  | _ => exact .quiet rfl rfl (fun _ => rfl) (fun _ => rfl)

theorem SubscriberStep.counters [DecidableEq Thread] {thread : Thread} {point : SubscriberPoint}
    {next : Option SubscriberPoint} (step : SubscriberStep thread server point server' next) :
    CounterEffect server server' (.subscriber point) (next.elim .idle .subscriber) := by
  cases step with
  | openFails _ _ _ =>
      refine .quiet rfl rfl ?_ ?_
      · intro boxI
        exact (server.addSubscriber_dropSubscriber _ _ boxI).1
      · intro boxI
        exact (server.addSubscriber_dropSubscriber _ _ boxI).2
  | registers _ _ _ =>
      constructor
      · refine .same (server.setBox_field Box.nPublishers ?_)
        rfl
      · exact server.setBox_enters Box.nSubscribers rfl
      · intro slot _ impossible
        cases impossible
  | unregisters _ =>
      constructor
      · refine .same (server.setBox_field Box.nPublishers ?_)
        rfl
      · exact server.setBox_leaves Box.nSubscribers rfl
      · intro slot _ impossible
        cases impossible
  | _ => exact .quiet rfl rfl (fun _ => rfl) (fun _ => rfl)

/-- `box_create` never resets `n_publishers`. -/
theorem CreateStep.publisherCounts {point : CreatePoint} {next : Option CreatePoint}
    (step : CreateStep atomicity server point server' next) (boxI : Nat) :
    server'.publisherCounts boxI = server.publisherCounts boxI := by
  cases step with
  | fills _ =>
      refine server.setBox_field Box.nPublishers ?_ boxI
      rfl
  | creates _ _ _ =>
      refine server.setBox_field Box.nPublishers ?_ boxI
      rfl
  | _ => rfl

/-- The entry taken starts with the counters it was left with. -/
theorem CreateStep.counters {point : CreatePoint} {next : Option CreatePoint}
    (step : CreateStep atomicity server point server' next)
    (nothing : ResetsNothing server (.create point)) :
    CounterEffect server server' (.create point) (next.elim .idle .create) := by
  have silent (next : Option CreatePoint) :
      (next.elim Point.idle Point.create).publishes? = none ∧
        (next.elim Point.idle Point.create).subscribes? = none := by
    cases next <;> exact ⟨rfl, rfl⟩
  refine .quiet (silent next).1 (silent next).2 step.publisherCounts ?_
  · intro boxI
    cases step with
    | fills _ =>
        refine server.setBox_field Box.nSubscribers ?_ boxI
        exact (nothing.2 _ _ _ rfl).symm
    | creates _ found _ =>
        refine server.setBox_field Box.nSubscribers ?_ boxI
        exact (nothing.1 _ _ _ rfl found).2.symm
    | _ => rfl

theorem RemoveStep.counters {point : RemovePoint} {next : Option RemovePoint}
    (step : RemoveStep server point server' next) :
    CounterEffect server server' (.remove point) (next.elim .idle .remove) := by
  have silent (next : Option RemovePoint) :
      (next.elim Point.idle Point.remove).publishes? = none ∧
        (next.elim Point.idle Point.remove).subscribes? = none := by
    cases next <;> exact ⟨rfl, rfl⟩
  refine .quiet (silent next).1 (silent next).2 ?_ ?_
  · intro boxI
    cases step <;> rfl
  · intro boxI
    cases step <;> rfl

variable {broker broker' : Broker Thread} {thread : Thread}

theorem Broker.Step.counters [DecidableEq Thread] (step : broker.Step atomicity thread broker')
    (nothing : ResetsNothing broker.server (broker.workers thread)) :
    CounterEffect broker.server broker'.server (broker.workers thread)
      (broker'.workers thread) := by
  cases step with
  | dequeue request atIdle =>
      rw [goto_self, atIdle]
      refine .quiet ?_ ?_ (fun _ => rfl) (fun _ => rfl)
      · cases request <;> rfl
      · cases request <;> rfl
  | publisher atPoint taken =>
      rw [goto_self, atPoint]
      exact taken.counters
  | subscriber atPoint taken =>
      rw [goto_self, atPoint]
      exact taken.counters
  | create atPoint taken =>
      rw [atPoint] at nothing
      rw [goto_self, atPoint]
      exact taken.counters nothing
  | remove atPoint taken =>
      rw [goto_self, atPoint]
      exact taken.counters

/-! ### The only publisher -/

/-- The box has one publisher at most, and then its counter says so. -/
structure OnePublisher (broker : Broker Thread) (boxI : Nat) : Prop where
  single : ∀ left right, (broker.workers left).publishes? = some boxI →
    (broker.workers right).publishes? = some boxI → left = right
  counted : ∀ worker, (broker.workers worker).publishes? = some boxI →
    broker.server.publisherCounts boxI = 1

theorem Broker.Step.publishers [DecidableEq Thread] (step : broker.Step atomicity thread broker') :
    SlotCounters.Step broker.server.publisherCounts broker'.server.publisherCounts
        (broker.workers thread).publishes? (broker'.workers thread).publishes? ∧
      ∀ slot, (broker.workers thread).publishes? = none →
        (broker'.workers thread).publishes? = some slot →
        broker.server.publisherCounts slot = 0 := by
  cases step with
  | dequeue request atIdle =>
      rw [goto_self, atIdle]
      have silent : request.start.publishes? = none := by
        cases request <;> rfl
      rw [silent]
      exact ⟨.same (fun _ => rfl), fun _ _ impossible => by cases impossible⟩
  | publisher atPoint taken =>
      rw [goto_self, atPoint]
      exact ⟨taken.counters.publishers, taken.counters.exclusive⟩
  | subscriber atPoint taken =>
      rw [goto_self, atPoint]
      exact ⟨taken.counters.publishers, taken.counters.exclusive⟩
  | @create _ _ next atPoint taken =>
      rw [goto_self, atPoint]
      have silent : (next.elim Point.idle Point.create).publishes? = none := by
        cases next <;> rfl
      rw [silent]
      exact ⟨.same taken.publisherCounts, fun _ _ impossible => by cases impossible⟩
  | remove atPoint taken =>
      rw [goto_self, atPoint]
      exact ⟨taken.counters.publishers, taken.counters.exclusive⟩

theorem OnePublisher.step [DecidableEq Thread] {boxI : Nat} (one : OnePublisher broker boxI)
    (step : broker.Step atomicity thread broker') : OnePublisher broker' boxI := by
  obtain ⟨effect, exclusive⟩ := step.publishers
  have stays {worker : Thread} (different : worker ≠ thread)
      (publishes : (broker'.workers worker).publishes? = some boxI) :
      (broker.workers worker).publishes? = some boxI := by
    rwa [step.others different] at publishes
  -- Whoever publishes did so before, or has just been let in alone.
  have either : (∀ worker, (broker'.workers worker).publishes? = some boxI →
      (broker.workers worker).publishes? = some boxI ∧
        broker'.server.publisherCounts boxI = broker.server.publisherCounts boxI) ∨
      (∀ worker, (broker'.workers worker).publishes? = some boxI → worker = thread) ∧
        broker'.server.publisherCounts boxI = 1 := by
    generalize before : (broker.workers thread).publishes? = slot at effect exclusive
    generalize after : (broker'.workers thread).publishes? = slot' at effect exclusive
    cases effect with
    | same counts =>
        refine Or.inl (fun worker publishes => ⟨?_, counts boxI⟩)
        by_cases moved : worker = thread
        · rw [moved, before, ← after, ← moved]
          exact publishes
        · exact stays moved publishes
    | @enters place raised counts =>
        by_cases here : place = boxI
        · subst here
          have zero := exclusive place rfl rfl
          refine Or.inr ⟨?_, ?_⟩
          · intro worker publishes
            by_contra different
            have counted := one.counted worker (stays different publishes)
            rw [zero] at counted
            cases counted
          · rw [raised, zero]
            rfl
        · refine Or.inl (fun worker publishes => ⟨?_, counts boxI (Ne.symm here)⟩)
          by_cases moved : worker = thread
          · rw [moved, after, Option.some.injEq] at publishes
            exact (here publishes).elim
          · exact stays moved publishes
    | @leaves place _ counts =>
        refine Or.inl (fun worker publishes => ?_)
        have different : worker ≠ thread := by
          intro same
          rw [same, after] at publishes
          cases publishes
        have published := stays different publishes
        refine ⟨published, counts boxI ?_⟩
        intro same
        rw [← same] at before
        exact different (one.single worker thread published before)
  rcases either with same | ⟨alone, counted⟩
  · constructor
    · intro left right leftPublishes rightPublishes
      exact one.single left right (same left leftPublishes).1 (same right rightPublishes).1
    · intro worker publishes
      rw [(same worker publishes).2]
      exact one.counted worker (same worker publishes).1
  · constructor
    · intro left right leftPublishes rightPublishes
      rw [alone left leftPublishes, alone right rightPublishes]
    · intro worker _
      exact counted

/-! ### Runs -/

/-- Every slot that was ever taken counts its sessions, and no session is elsewhere. -/
structure Counted [Fintype Thread] (broker : Broker Thread) : Prop where
  publishers : Exact broker.server.publisherCounts
    (fun worker => (broker.workers worker).publishes?) broker.server.WasTaken
  subscribers : Exact broker.server.subscriberCounts
    (fun worker => (broker.workers worker).subscribes?) broker.server.WasTaken
  single : ∀ boxI, countAt (fun worker => (broker.workers worker).publishes?) boxI ≤ 1
  found : ∀ worker box, (broker.workers worker).box? = some box →
    broker.server.WasTaken box.boxI
  taken : ∀ boxI, broker.server.IsTaken boxI → broker.server.WasTaken boxI

theorem Counted.step [Fintype Thread] [DecidableEq Thread] (few : Fintype.card Thread < 2 ^ 63)
    (counted : Counted broker) (step : broker.Step atomicity thread broker')
    (nothing : ResetsNothing broker.server (broker.workers thread)) : Counted broker' := by
  have effect := step.counters nothing
  -- A slot taken for the first time joins the counted ones with its counters at zero.
  obtain ⟨publishers, subscribers, later, taken⟩ :
      Exact broker.server.publisherCounts (fun worker => (broker.workers worker).publishes?)
          broker'.server.WasTaken ∧
        Exact broker.server.subscriberCounts
          (fun worker => (broker.workers worker).subscribes?) broker'.server.WasTaken ∧
        (∀ boxI, broker.server.WasTaken boxI → broker'.server.WasTaken boxI) ∧
        ∀ boxI, broker'.server.IsTaken boxI → broker'.server.WasTaken boxI := by
    cases step.slots with
    | same free occupants _ =>
        have same : broker'.server.WasTaken = broker.server.WasTaken := by
          unfold Server.WasTaken
          rw [occupants]
        unfold Server.IsTaken
        rw [same, free]
        exact ⟨counted.publishers, counted.subscribers, fun _ was => was, counted.taken⟩
    | @takes _ _ boxI atPoint found free occupants _ =>
        obtain ⟨publishersZero, subscribersZero⟩ := nothing.1 _ _ _ atPoint found
        have atBox : broker'.server.WasTaken boxI := by
          unfold Server.WasTaken
          rw [occupants, Function.update_self]
          exact Nat.succ_pos _
        have elsewhere (other : Nat) (different : other ≠ boxI) :
            broker'.server.WasTaken other ↔ broker.server.WasTaken other := by
          unfold Server.WasTaken
          rw [occupants, Function.update_of_ne different]
        refine ⟨counted.publishers.use publishersZero elsewhere atBox,
          counted.subscribers.use subscribersZero elsewhere atBox, ?_, ?_⟩
        · intro other was
          by_cases here : other = boxI
          · rw [here]
            exact atBox
          · exact (elsewhere other here).mpr was
        · intro other isTaken
          by_cases here : other = boxI
          · rw [here]
            exact atBox
          · unfold Server.IsTaken at isTaken
            rw [free, Function.update_of_ne here] at isTaken
            exact (elsewhere other here).mpr (counted.taken other isTaken)
    | @deletes _ boxI _ _ free occupants _ _ =>
        have same : broker'.server.WasTaken = broker.server.WasTaken := by
          unfold Server.WasTaken
          rw [occupants]
        rw [same]
        refine ⟨counted.publishers, counted.subscribers, fun _ was => was, ?_⟩
        intro other isTaken
        unfold Server.IsTaken at isTaken
        by_cases here : other = boxI
        · rw [free, here, Function.update_self] at isTaken
          cases isTaken
        · rw [free, Function.update_of_ne here] at isTaken
          exact counted.taken other isTaken
  have found (worker : Thread) (box : FoundBox)
      (refers : (broker'.workers worker).box? = some box) :
      broker'.server.WasTaken box.boxI := by
    apply later
    by_cases moved : worker = thread
    · subst worker
      rcases step.box refers with same | ⟨boxName, boxI, _, found, same⟩
      · exact counted.found thread box same
      · subst same
        exact counted.taken boxI (broker.server.boxFind_eq_some found).2.1
    · rw [step.others moved] at refers
      exact counted.found worker box refers
  constructor
  · rw [step.observe Point.publishes?]
    refine publishers.step few rfl effect.publishers ?_
    intro slot publishes
    obtain ⟨box, refers, same⟩ := Point.publishes_box publishes
    rw [← same]
    exact found thread box refers
  · rw [step.observe Point.subscribes?]
    refine subscribers.step few rfl effect.subscribers ?_
    intro slot subscribes
    obtain ⟨box, refers, same⟩ := Point.subscribes_box subscribes
    rw [← same]
    exact found thread box refers
  · intro boxI
    rw [step.observe Point.publishes?]
    exact publishers.step_single rfl effect.publishers effect.exclusive (fun slot publishes => by
      obtain ⟨box, refers, same⟩ := Point.publishes_box publishes
      rw [← same]
      exact found thread box refers) counted.single boxI
  · exact found
  · exact taken

theorem MbrokerInit.counted [Fintype Thread] {params : MbrokerParams}
    (started : MbrokerInit params broker.server) (idle : ∀ worker, broker.workers worker = .idle) :
    Counted broker := by
  have unused (boxI : Nat) : ¬ broker.server.WasTaken boxI := by
    unfold Server.WasTaken
    rw [started.occupants]
    exact Nat.lt_irrefl 0
  have nobody {worker : Thread} {slot : Nat} {observe : Point → Option Nat}
      (none : observe .idle = Option.none)
      (registered : observe (broker.workers worker) = some slot) :
      False := by
    rw [idle, none] at registered
    cases registered
  constructor
  · constructor
    · intro slot used
      exact (unused slot used).elim
    · intro worker slot registered
      exact (nobody rfl registered).elim
  · constructor
    · intro slot used
      exact (unused slot used).elim
    · intro worker slot registered
      exact (nobody rfl registered).elim
  · intro boxI
    rw [countAt_eq_zero (fun worker registered => nobody rfl registered)]
    exact Nat.zero_le 1
  · intro worker box refers
    rw [idle] at refers
    cases refers
  · intro boxI isTaken
    rw [Server.IsTaken, started.freeBoxes] at isTaken
    cases isTaken

/-- The counters of every TAKEN box count its sessions, at most one of them publishes, and
what is about to be lowered is positive. -/
structure CountersExact [Fintype Thread] (broker : Broker Thread) : Prop where
  publishers : ∀ boxI, broker.server.IsTaken boxI →
    (broker.server.boxesTable boxI).nPublishers.toNat =
      countAt (fun worker => (broker.workers worker).publishes?) boxI
  single : ∀ boxI, broker.server.IsTaken boxI →
    (broker.server.boxesTable boxI).nPublishers.toNat ≤ 1
  subscribers : ∀ boxI, broker.server.IsTaken boxI →
    (broker.server.boxesTable boxI).nSubscribers.toNat =
      countAt (fun worker => (broker.workers worker).subscribes?) boxI
  publisherLeaves : ∀ worker session,
    broker.workers worker = .publisher (.unregister session) →
      0 < (broker.server.boxesTable session.boxI).nPublishers
  subscriberLeaves : ∀ worker session,
    broker.workers worker = .subscriber (.unregister session) →
      0 < (broker.server.boxesTable session.boxI).nSubscribers
  /-- A registration that `tfs_open` refuses lowers a counter it has just raised. -/
  subscriberUndone : ∀ worker box, broker.workers worker = .subscriber (.register box) →
    0 < (broker.server.boxesTable box.boxI).nSubscribers + 1

theorem Counted.exact [Fintype Thread] (few : Fintype.card Thread < 2 ^ 63)
    (counted : Counted broker) : CountersExact broker := by
  have counts (boxI : Nat) (isTaken : broker.server.IsTaken boxI) :
      (broker.server.boxesTable boxI).nPublishers.toNat =
        countAt (fun worker => (broker.workers worker).publishes?) boxI :=
    counted.publishers.exact boxI (counted.taken boxI isTaken)
  constructor
  · exact counts
  · intro boxI isTaken
    rw [counts boxI isTaken]
    exact counted.single boxI
  · intro boxI isTaken
    exact counted.subscribers.exact boxI (counted.taken boxI isTaken)
  · intro worker session atPoint
    have publishes : (broker.workers worker).publishes? = some session.boxI := by
      rw [atPoint]
      rfl
    exact counted.publishers.pos publishes
  · intro worker session atPoint
    have subscribes : (broker.workers worker).subscribes? = some session.boxI := by
      rw [atPoint]
      rfl
    exact counted.subscribers.pos subscribes
  · intro worker box atPoint
    have refers : (broker.workers worker).box? = some box := by
      rw [atPoint]
      rfl
    have counts := counted.subscribers.exact box.boxI (counted.found worker box refers)
    have bounded := countAt_le (fun worker => (broker.workers worker).subscribes?) box.boxI
    rw [← counts] at bounded
    change (broker.server.boxesTable box.boxI).nSubscribers.toNat ≤ _ at bounded
    rw [UInt64.lt_iff_toNat_lt, UInt64.toNat_add]
    change 0 < ((broker.server.boxesTable box.boxI).nSubscribers.toNat + 1) % 2 ^ 64
    omega

end TecnicoFS.Mbroker
