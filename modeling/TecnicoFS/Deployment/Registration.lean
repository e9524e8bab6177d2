/-
Who has registered on a box.

Publishers and subscribers join a box at the registration of their sessions.  While the box
keeps its slot nobody leaves the record, and a worker of a client that joined is in a session of
the box until it returns.
-/

import TecnicoFS.Deployment.Traffic
import TecnicoFS.Mbroker.MessageStream

set_option autoImplicit false

namespace TecnicoFS.Deployment

open FileSystem Protocol Mbroker

variable {Client Thread : Type}

/-! ### Sessions -/

/-- The slot of the session of a publisher -/
def publisherSlot? : Point → Option Nat
  | .publisher point => point.session?.map (fun session => session.boxI)
  | .idle | .subscriber _ | .create _ | .remove _ => none

/-- The slot of the session of a subscriber -/
def subscriberSlot? : Point → Option Nat
  | .subscriber point => point.session?.map (fun session => session.boxI)
  | .idle | .publisher _ | .create _ | .remove _ => none

theorem publishes_slot {point : Point} {boxI : Nat} (publishes : point.publishes? = some boxI) :
    publisherSlot? point = some boxI := by
  cases point with
  | publisher point => cases point <;> first | exact publishes | cases publishes
  | _ => cases publishes

section
variable [DecidableEq Thread] {thread : Thread} {atomicity : Atomicity}
  {broker broker' : Broker Thread} {boxName : CString} {boxI : Nat}

/-- The only step at which a publisher joins a box -/
theorem publisherJoins_eq_some {point next : Point}
    (joins : publisherJoins point next = some boxI) :
    ∃ box session, point = .publisher (.register box) ∧ next = .publisher (.readCode session) ∧
      box.boxI = boxI := by
  unfold publisherJoins at joins
  split at joins
  case h_1 box session => exact ⟨box, session, rfl, rfl, Option.some.inj joins⟩
  case h_2 => cases joins

theorem subscriberJoins_eq_some {point next : Point}
    (joins : subscriberJoins point next = some boxI) :
    ∃ box session, point = .subscriber (.register box) ∧
      next = .subscriber (.awaitMessage session) ∧ box.boxI = boxI := by
  unfold subscriberJoins at joins
  split at joins
  case h_1 box session => exact ⟨box, session, rfl, rfl, Option.some.inj joins⟩
  case h_2 => cases joins

/-- A worker is in the session it was in before, or its client has just joined the box. -/
theorem slots_step (step : broker.Step atomicity thread broker')
    (busy : broker'.workers thread ≠ .idle) :
    (publisherSlot? (broker'.workers thread) = some boxI ↔
      publisherSlot? (broker.workers thread) = some boxI ∨
        publisherJoins (broker.workers thread) (broker'.workers thread) = some boxI) ∧
    (subscriberSlot? (broker'.workers thread) = some boxI ↔
      subscriberSlot? (broker.workers thread) = some boxI ∨
        subscriberJoins (broker.workers thread) (broker'.workers thread) = some boxI) := by
  cases step with
  | dequeue request idle =>
      rw [Broker.goto_self, idle]
      cases request <;> simp [publisherSlot?, publisherJoins, subscriberSlot?, subscriberJoins,
        Request.start, PublisherPoint.session?, SubscriberPoint.session?]
  | @publisher point server next atPoint taken =>
      rw [Broker.goto_self] at busy ⊢
      rw [atPoint]
      cases next with
      | none => exact (busy rfl).elim
      | some next =>
          cases taken <;> simp [publisherSlot?, publisherJoins, subscriberSlot?, subscriberJoins,
            PublisherPoint.session?]
  | @subscriber point server next atPoint taken =>
      rw [Broker.goto_self] at busy ⊢
      rw [atPoint]
      cases next with
      | none => exact (busy rfl).elim
      | some next =>
          cases taken <;> simp [publisherSlot?, publisherJoins, subscriberSlot?, subscriberJoins,
            SubscriberPoint.session?, SubscriberSession.receive, SubscriberSession.send]
  | @create point server next atPoint taken =>
      rw [Broker.goto_self] at busy ⊢
      rw [atPoint]
      cases next with
      | none => exact (busy rfl).elim
      | some next => simp [publisherSlot?, publisherJoins, subscriberSlot?, subscriberJoins]
  | @remove point server next atPoint taken =>
      rw [Broker.goto_self] at busy ⊢
      rw [atPoint]
      cases next with
      | none => exact (busy rfl).elim
      | some next => simp [publisherSlot?, publisherJoins, subscriberSlot?, subscriberJoins]

/-- A publisher that does not join the box published before. -/
theorem publishes_step (step : broker.Step atomicity thread broker')
    (publishes : (broker'.workers thread).publishes? = some boxI)
    (others : publisherJoins (broker.workers thread) (broker'.workers thread) ≠ some boxI) :
    (broker.workers thread).publishes? = some boxI := by
  cases step with
  | dequeue request idle =>
      rw [Broker.goto_self] at publishes
      cases request <;> cases publishes
  | @publisher point server next atPoint taken =>
      rw [atPoint, Broker.goto_self] at others
      rw [Broker.goto_self] at publishes
      rw [atPoint]
      cases taken with
      | registers _ _ _ _ => exact (others publishes).elim
      | unregisters _ => cases publishes
      | _ => exact publishes
  | @subscriber point server next atPoint taken =>
      rw [Broker.goto_self] at publishes
      cases next <;> cases publishes
  | @create point server next atPoint taken =>
      rw [Broker.goto_self] at publishes
      cases next <;> cases publishes
  | @remove point server next atPoint taken =>
      rw [Broker.goto_self] at publishes
      cases next <;> cases publishes

/-- The box keeps its slot. -/
theorem occupants_kept (entry : broker.server.HasEntry boxName boxI)
    (step : broker.Step atomicity thread broker') :
    broker'.server.occupants boxI = broker.server.occupants boxI := by
  cases step.slots with
  | same _ occupants _ => rw [occupants]
  | takes _ free _ occupants _ =>
      rw [occupants]
      exact Function.update_of_ne (Ne.symm (entry.free_ne free)) _ _
  | deletes _ _ _ occupants _ _ => rw [occupants]

/-- The record of a box that keeps its slot grows at its end. -/
theorem registered_kept {client : Client} {members : Nat → List Client}
    (joins : Option Nat) (entry : broker.server.HasEntry boxName boxI)
    (step : broker.Step atomicity thread broker') :
    registered broker.server broker'.server joins client members boxI =
      members boxI ++ (if joins = some boxI then [client] else []) :=
  if_pos (occupants_kept entry step)

/-- Whether a client joins -/
theorem mem_joined {client other : Client} {joins : Prop} [Decidable joins] :
    other ∈ (if joins then [client] else []) ↔ joins ∧ other = client := by
  split
  case isTrue joined => rw [List.mem_singleton, and_iff_right joined]
  case isFalse stays => simp [stays]

/-- Another client was on record before. -/
theorem registered_other {client other : Client} {members : List Client} {joins : Prop}
    [Decidable joins] (isOther : other ≠ client)
    (member : other ∈ members ++ (if joins then [client] else [])) : other ∈ members := by
  rw [List.mem_append, mem_joined] at member
  exact member.resolve_right (fun joined => isOther joined.2)

end

/-! ### The record -/

/-- The clients on record have been taken by workers, and a worker that serves one of them is in
a session of the box. -/
structure BoxRecord (network : Network Client Thread) (boxI : Nat) : Prop where
  publisher : ∀ worker client, network.Serves worker client →
    (client ∈ network.publishers boxI ↔
      publisherSlot? (network.broker.workers worker) = some boxI)
  subscriber : ∀ worker client, network.Serves worker client →
    (client ∈ network.subscribers boxI ↔
      subscriberSlot? (network.broker.workers worker) = some boxI)
  served : ∀ client, client ∈ network.publishers boxI ∨ client ∈ network.subscribers boxI →
    client ∈ network.started
  once : (network.publishers boxI).Nodup
  last : ∀ worker client, network.Serves worker client →
    (network.broker.workers worker).publishes? = some boxI →
    ∃ earlier, network.publishers boxI = earlier ++ [client]

namespace BoxRecord

variable {network network' : Network Client Thread} {boxI capacity : Nat} {boxName : CString}
  {clients : Clients Client} {queued held pending : List Client} {client : Client}
  {thread : Thread} {atomicity : Atomicity}

/-- A step that leaves the workers and the record alone -/
theorem quiet (kept : BoxRecord network boxI) (broker : network'.broker = network.broker)
    (serving : network'.serving = network.serving)
    (publishers : network'.publishers = network.publishers)
    (subscribers : network'.subscribers = network.subscribers)
    (started : ∀ client, client ∈ network.started → client ∈ network'.started) :
    BoxRecord network' boxI := by
  have before {worker : Thread} {client : Client} (serves : network'.Serves worker client) :
      network.Serves worker client := by
    unfold Network.Serves at serves ⊢
    rw [← broker, ← serving]
    exact serves
  constructor
  · intro worker client serves
    rw [publishers, broker]
    exact kept.publisher worker client (before serves)
  · intro worker client serves
    rw [subscribers, broker]
    exact kept.subscriber worker client (before serves)
  · intro client member
    rw [publishers, subscribers] at member
    exact started client (kept.served client member)
  · rw [publishers]
    exact kept.once
  · intro worker client serves publishes
    rw [broker] at publishes
    rw [publishers]
    exact kept.last worker client (before serves) publishes

/-- A client that was not taken is not on record. -/
theorem not_recorded (kept : BoxRecord network boxI)
    (new : client ∉ network.started) :
    client ∉ network.publishers boxI ∧ client ∉ network.subscribers boxI :=
  ⟨fun member => new (kept.served client (Or.inl member)),
    fun member => new (kept.served client (Or.inr member))⟩

theorem dequeues [DecidableEq Thread] (kept : BoxRecord network boxI) {request : Mbroker.Request}
    {rest : List Protocol.Request} (new : client ∉ network.started) :
    BoxRecord (network.taken thread client rest request.start) boxI := by
  obtain ⟨noPublisher, noSubscriber⟩ := kept.not_recorded new
  have silent : publisherSlot? request.start = none ∧ subscriberSlot? request.start = none := by
    cases request <;> exact ⟨rfl, rfl⟩
  constructor
  · intro worker other serves
    rcases Network.taken_serves serves with ⟨_, same, atStart⟩ | ⟨_, before, stays⟩
    · rw [same, atStart, silent.1]
      exact ⟨fun member => (noPublisher member).elim, fun impossible => by cases impossible⟩
    · rw [stays]
      exact kept.publisher worker other before
  · intro worker other serves
    rcases Network.taken_serves serves with ⟨_, same, atStart⟩ | ⟨_, before, stays⟩
    · rw [same, atStart, silent.2]
      exact ⟨fun member => (noSubscriber member).elim, fun impossible => by cases impossible⟩
    · rw [stays]
      exact kept.subscriber worker other before
  · intro other member
    exact List.mem_append_left _ (kept.served other member)
  · exact kept.once
  · intro worker other serves publishes
    rcases Network.taken_serves serves with ⟨_, _, atStart⟩ | ⟨_, before, stays⟩
    · rw [atStart] at publishes
      have slot := publishes_slot publishes
      rw [silent.1] at slot
      cases slot
    · rw [stays] at publishes
      exact kept.last worker other before publishes

section
variable [DecidableEq Client] [DecidableEq Thread] {broker : Broker Thread}
  {pipe written : List UInt8}

/-- For either kind of session, the members of the box are those whose worker is in a session of
the box. -/
theorem slot_handled {members : List Client} {slot : Point → Option Nat} {joins : Prop}
    [Decidable joins] (alone : network.Exclusive) (serves : network.Serves thread client)
    (step : network.broker.Step atomicity thread broker)
    (before : ∀ worker client, network.Serves worker client →
      (client ∈ members ↔ slot (network.broker.workers worker) = some boxI))
    (moves : broker.workers thread ≠ .idle → (slot (broker.workers thread) = some boxI ↔
      slot (network.broker.workers thread) = some boxI ∨ joins))
    {worker : Thread} {other : Client}
    (serves' : (network.handled thread client broker pipe written).Serves worker other) :
    other ∈ members ++ (if joins then [client] else []) ↔
      slot (broker.workers worker) = some boxI := by
  rw [List.mem_append, mem_joined]
  rcases Network.handled_serves alone serves step serves' with
    ⟨isThread, same⟩ | ⟨_, different, served, stays⟩
  · subst isThread
    rw [same, moves serves'.2, before worker client serves, and_iff_left rfl]
  · rw [stays, ← before worker other served]
    exact or_iff_left (fun joined => different joined.2)

/-- The publisher of the box is the last one that joined it. -/
theorem last_handled (kept : BoxRecord network boxI) (alone : network.Exclusive)
    (one : OnePublisher broker boxI) (serves : network.Serves thread client)
    (step : network.broker.Step atomicity thread broker) {worker : Thread} {other : Client}
    (serves' : (network.handled thread client broker pipe written).Serves worker other)
    (publishes : (broker.workers worker).publishes? = some boxI) :
    ∃ earlier, network.publishers boxI ++
        (if publisherJoins (network.broker.workers thread) (broker.workers thread) = some boxI
          then [client] else []) = earlier ++ [other] := by
  by_cases joins : publisherJoins (network.broker.workers thread) (broker.workers thread) =
      some boxI
  · obtain ⟨box, session, _, reads, same⟩ := publisherJoins_eq_some joins
    have joined : (broker.workers thread).publishes? = some boxI := by
      rw [reads]
      have busy : broker.workers thread ≠ .idle := by
        rw [reads]
        exact Point.noConfusion
      have slot := (slots_step step busy).1.mpr (Or.inr joins)
      rw [reads] at slot
      exact slot
    rw [if_pos joins]
    rcases Network.handled_serves alone serves step serves' with
      ⟨_, isClient⟩ | ⟨moved, _, _, _⟩
    · rw [isClient]
      exact ⟨_, rfl⟩
    · exact (moved (one.single worker thread publishes joined)).elim
  · rw [if_neg joins, List.append_nil]
    rcases Network.handled_serves alone serves step serves' with
      ⟨isThread, isClient⟩ | ⟨_, _, before, stays⟩
    · rw [isThread] at publishes
      rw [isClient]
      exact kept.last thread client serves (publishes_step step publishes joins)
    · rw [stays] at publishes
      exact kept.last worker other before publishes

omit [DecidableEq Client] [DecidableEq Thread] in
/-- A publisher that joins the box was not on record. -/
theorem joins_new (kept : BoxRecord network boxI) (serves : network.Serves thread client)
    (joins : publisherJoins (network.broker.workers thread) (broker.workers thread) =
      some boxI) : client ∉ network.publishers boxI := by
  intro member
  obtain ⟨_, _, register, _⟩ := publisherJoins_eq_some joins
  have slot := (kept.publisher thread client serves).mp member
  rw [register] at slot
  cases slot

/-- A worker goes on in its session, or registers its client on the box. -/
theorem handles (kept : BoxRecord network boxI)
    (requests : RequestsKept clients capacity network queued held pending)
    (entry : network.broker.server.HasEntry boxName boxI) (one : OnePublisher broker boxI)
    (serves : network.Serves thread client) (step : network.broker.Step atomicity thread broker) :
    BoxRecord (network.handled thread client broker pipe written) boxI := by
  have publishers : (network.handled thread client broker pipe written).publishers boxI = _ :=
    registered_kept _ entry step
  have subscribers : (network.handled thread client broker pipe written).subscribers boxI = _ :=
    registered_kept _ entry step
  have started : client ∈ network.started := requests.serves_started serves
  constructor
  · intro worker other serves'
    rw [publishers]
    exact slot_handled requests.alone serves step kept.publisher
      (fun busy => (slots_step step busy).1) serves'
  · intro worker other serves'
    rw [subscribers]
    exact slot_handled requests.alone serves step kept.subscriber
      (fun busy => (slots_step step busy).2) serves'
  · intro other member
    by_cases isClient : other = client
    · rw [isClient]
      exact started
    · rw [publishers, subscribers] at member
      exact kept.served other
        (member.imp (registered_other isClient) (registered_other isClient))
  · rw [publishers]
    apply kept.once.append
    · split
      · exact List.nodup_singleton _
      · exact List.nodup_nil
    · intro other before joined
      obtain ⟨joins, same⟩ := mem_joined.mp joined
      rw [same] at before
      exact kept.joins_new serves joins before
  · intro worker other serves' publishes
    rw [publishers]
    exact kept.last_handled requests.alone one serves step serves' publishes

end

end BoxRecord

end TecnicoFS.Deployment
