/-
From the input of the publishers of a box to what its subscribers print.

The box was created and is not removed.  It stores the messages of its publishers one publisher
after the other, and a subscriber is sent the first ones of them.  A publisher whose session
ended had everything stored that it wrote, or the block of the box is full.
-/

import TecnicoFS.Deployment.Registration

set_option autoImplicit false

namespace TecnicoFS.Deployment

open FileSystem Protocol Mbroker

section
variable {Client : Type} [DecidableEq Client] (clients : Clients Client) (atomicity : Atomicity)
  (params : MbrokerParams) (name : CString) (boxI : Nat)

/-- The box has just been entered in its slot, its mutex is free, and no client has registered
on it. -/
structure NewBox (network : Network Client (Fin params.maxSessions)) : Prop where
  reachable : (deploymentSystem clients atomicity params).Reachable network
  fresh : FreshBox atomicity params name boxI network.broker
  unlocked : network.broker.server.Unlocked boxI
  publishers : network.publishers boxI = []
  subscribers : network.subscribers boxI = []

/-- The runs that start when the box was created and do not remove it -/
def deliverySystem : ThreadSystem (Actor Client (Fin params.maxSessions))
    (Network Client (Fin params.maxSessions)) where
  initial := NewBox clients atomicity params name boxI
  step actor network network' :=
    (deploymentSystem clients atomicity params).step actor network network' ∧
      ∀ thread, actor = .worker thread →
        KeepsBox atomicity network.broker (rootPath name) thread

end

variable {Client Thread : Type}

/-- The worker of the client reads messages. -/
def Network.Reading (network : Network Client Thread) (client : Client) : Prop :=
  ∃ worker point, network.Serves worker client ∧
    network.broker.workers worker = .publisher point ∧ ReadsOn point

/-- No message fits in the block of the box any more. -/
def Full (broker : Broker Thread) (boxI : Nat) : Prop :=
  1024 * 1024 < msgMaxLen * ((broker.server.stored boxI).length + 1)

/-- What is stored in the box and what its subscribers were sent -/
structure Delivered (clients : Clients Client) (boxI : Nat) (network : Network Client Thread) :
    Prop where
  stored : network.broker.server.stored boxI =
    (network.publishers boxI).flatMap network.accepted
  sent : ∀ client, client ∈ network.subscribers boxI → ∃ messages,
    messages <+: network.broker.server.stored boxI ∧
      network.toClient client = (messages.map Subscriber.packetOf).flatten
  stopped : ∀ client, client ∈ network.publishers boxI → ¬ network.Reading client →
    (network.points client = .closed ∧
      (network.traffic client).Emptied (clients.messages client)) ∨
    Full network.broker boxI

/-! ### The mutex of the box -/

section
variable {atomicity : Atomicity} {params : MbrokerParams}
  {broker broker' : Broker (Fin params.maxSessions)} {thread : Fin params.maxSessions}
  {boxName : CString} {boxI id : Nat} {model : Model Nat}

/-- The file of the box can be opened, so no registration leaves the mutex locked. -/
theorem opens_box {box : FoundBox} {result : CallResult} {fs : FileSystem.State}
    (stream : StreamKept params boxName boxI id broker model)
    (atPoint : broker.workers thread = .subscriber (.register box)) (here : box.boxI = boxI)
    (returned : (openPlain box.boxName).run broker.server.fs = .ok (result, fs)) :
    0 ≤ result.length := by
  have inStream := stream.points thread
  rw [atPoint] at inStream
  have named : box.boxName = boxName := inStream.mp here
  have without : (broker.workers thread).file? = none := by
    rw [atPoint]
    rfl
  rw [named] at returned
  obtain ⟨handle, opened, _⟩ := stream.stream.files.opensPresent stream.stream.valid
    stream.stream.names stream.stream.contents (stream.held.handle_free without) returned
  rw [opened]
  exact Int.natCast_nonneg handle

theorem unlocked_step (stream : StreamKept params boxName boxI id broker model)
    (unlocked : broker.server.Unlocked boxI) (step : broker.Step atomicity thread broker') :
    broker'.server.Unlocked boxI := by
  cases step with
  | dequeue request idle => exact unlocked
  | publisher atPoint taken => cases taken <;> exact unlocked
  | subscriber atPoint taken =>
      cases taken with
      | @openFails box result fs _ returned failed =>
          have different : boxI ≠ box.boxI := by
            intro same
            exact absurd (opens_box stream atPoint same.symm returned) (Int.not_le.mpr failed)
          exact (Function.update_of_ne different _ _).trans unlocked
      | _ => exact unlocked
  | create atPoint taken => cases taken <;> exact unlocked
  | remove atPoint taken => cases taken <;> exact unlocked

end

/-! ### What is stored -/

section
variable [DecidableEq Client] {network : Network Client Thread} {client : Client} {boxI : Nat}
  {accepted : Client → List Message} {members : List Client} {messages : List Message}

/-- Messages of a client that is not a member -/
theorem flatMap_others (outside : client ∉ members) :
    members.flatMap (Function.update accepted client messages) = members.flatMap accepted := by
  apply List.flatMap_congr
  intro other member
  apply Function.update_of_ne
  intro same
  rw [same] at member
  exact outside member

/-- Messages of the last member -/
theorem flatMap_last (outside : client ∉ members) :
    (members ++ [client]).flatMap (Function.update accepted client messages) =
      members.flatMap accepted ++ messages := by
  rw [List.flatMap_append, flatMap_others outside, List.flatMap_singleton, Function.update_self]

end

namespace Delivered

variable {clients : Clients Client} {network network' : Network Client Thread} {boxI : Nat}

/-- A step that neither moves a worker nor is seen by a publisher -/
theorem quiet (kept : Delivered clients boxI network) (broker : network'.broker = network.broker)
    (serving : network'.serving = network.serving)
    (publishers : network'.publishers boxI = network.publishers boxI)
    (subscribers : network'.subscribers boxI = network.subscribers boxI)
    (accepted : network'.accepted = network.accepted)
    (sent : ∀ client, client ∈ network.subscribers boxI →
      network'.toClient client = network.toClient client)
    (ended : ∀ client, client ∈ network.publishers boxI → network.points client = .closed →
      network'.points client = .closed ∧ network'.unsent client = network.unsent client) :
    Delivered clients boxI network' := by
  constructor
  · rw [broker, publishers, accepted]
    exact kept.stored
  · intro client member
    rw [subscribers] at member
    rw [broker, sent client member]
    exact kept.sent client member
  · intro client member silent
    rw [publishers] at member
    rw [broker]
    rcases kept.stopped client member (by
        intro reading
        obtain ⟨worker, point, serves, atPoint, reads⟩ := reading
        refine silent ⟨worker, point, ?_, ?_, reads⟩
        · unfold Network.Serves
          rw [serving, broker]
          exact serves
        · rw [broker]
          exact atPoint) with ⟨closed, left, unsent, places⟩ | full
    · obtain ⟨closed', same⟩ := ended client member closed
      refine Or.inl ⟨closed', left, ?_, ?_⟩
      · exact same.trans unsent
      · change clients.messages client = network'.accepted client ++ left
        rw [accepted]
        exact places
    · exact Or.inr full

theorem client [DecidableEq Client] {client : Client} (kept : Delivered clients boxI network)
    (step : ClientStep clients client network network') : Delivered clients boxI network' := by
  cases step with
  | requests starting _ =>
      refine kept.quiet rfl rfl rfl rfl rfl (fun _ _ => rfl) ?_
      intro other _ closed
      have different : other ≠ client := by
        intro same
        rw [same, starting] at closed
        cases closed
      exact ⟨(Function.update_of_ne different _ _).trans closed, rfl⟩
  | sends running _ _ _ =>
      refine kept.quiet rfl rfl rfl rfl rfl (fun _ _ => rfl) ?_
      intro other _ closed
      have different : other ≠ client := by
        intro same
        rw [same, running] at closed
        cases closed
      exact ⟨closed, Function.update_of_ne different _ _⟩
  | closes running =>
      refine kept.quiet rfl rfl rfl rfl rfl (fun _ _ => rfl) ?_
      intro other _ closed
      have different : other ≠ client := by
        intro same
        rw [same, running] at closed
        cases closed
      exact ⟨(Function.update_of_ne different _ _).trans closed, rfl⟩

theorem listener {capacity : Nat} (kept : Delivered clients boxI network)
    (step : ListenerStep capacity network network') : Delivered clients boxI network' := by
  cases step with
  | receives _ _ _ _ =>
      exact kept.quiet rfl rfl rfl rfl rfl (fun _ _ => rfl) (fun _ _ closed => ⟨closed, rfl⟩)
  | enqueues _ _ =>
      exact kept.quiet rfl rfl rfl rfl rfl (fun _ _ => rfl) (fun _ _ closed => ⟨closed, rfl⟩)

/-- A worker takes a client, which is not on record. -/
theorem dequeues [DecidableEq Thread] {thread : Thread} {client : Client}
    (kept : Delivered clients boxI network) (idle : network.broker.workers thread = .idle)
    {request : Mbroker.Request} {rest : List Protocol.Request} :
    Delivered clients boxI (network.taken thread client rest request.start) := by
  constructor
  · exact kept.stored
  · exact kept.sent
  · intro other member silent
    apply kept.stopped other member
    intro reading
    obtain ⟨worker, point, serves, atPoint, reads⟩ := reading
    have moved : worker ≠ thread := by
      intro same
      rw [same, idle] at atPoint
      cases atPoint
    have stays : (network.taken thread client rest request.start).broker.workers worker =
        network.broker.workers worker := Broker.goto_other _ _ _ moved
    refine silent ⟨worker, point, ⟨?_, ?_⟩, stays.trans atPoint, reads⟩
    · exact (Function.update_of_ne moved _ _).trans serves.1
    · rw [stays]
      exact serves.2

end Delivered

/-! ### A step of a worker -/

section
variable [DecidableEq Client] {clients : Clients Client} {atomicity : Atomicity}
  {params : MbrokerParams} {network : Network Client (Fin params.maxSessions)}
  {broker : Broker (Fin params.maxSessions)} {thread : Fin params.maxSessions} {client : Client}
  {boxName : CString} {boxI id : Nat} {model : Model Nat} {pipe written : List UInt8}

omit [DecidableEq Client] in
/-- A client that registers has stored nothing, and its registration stores nothing. -/
theorem joins_nothing (pipes : PipesKept clients network) (serves : network.Serves thread client)
    (joins : publisherJoins (network.broker.workers thread) (broker.workers thread) =
      some boxI) : network.accepted client = [] ∧
      storedBy (network.broker.workers thread) (broker.workers thread) = [] := by
  obtain ⟨box, session, register, reads, _⟩ := publisherJoins_eq_some joins
  have atPoint := pipes.serving thread client serves
  rw [register] at atPoint
  rw [register, reads]
  exact ⟨atPoint.2 rfl, rfl⟩

omit [DecidableEq Client] in
/-- A step that is not the write of a message to the box leaves its messages. -/
theorem stored_unchanged (stream : StreamKept params boxName boxI id network.broker model)
    (step : network.broker.Step atomicity thread broker)
    (elsewhere : ∀ session message session',
      network.broker.workers thread = .publisher (.writeMessage session message) →
      broker.workers thread = .publisher (.publish session') → session.boxI ≠ boxI) :
    broker.server.stored boxI = network.broker.server.stored boxI := by
  cases step.streamEffect stream.entry (stream.managers thread) with
  | quiet same _ _ => exact same
  | stores here writes publishes _ _ => exact (elsewhere _ _ _ writes publishes here).elim
  | announces _ _ _ same _ _ => exact same

omit [DecidableEq Client] in
/-- The write of a message to the box adds it to the messages. -/
theorem stored_adds (stream : StreamKept params boxName boxI id network.broker model)
    (step : network.broker.Step atomicity thread broker) {session session' : Mbroker.Session}
    {message : Message}
    (writes : network.broker.workers thread = .publisher (.writeMessage session message))
    (publishes : broker.workers thread = .publisher (.publish session'))
    (sameBox : publisherSlot? (broker.workers thread) = some boxI) :
    broker.server.stored boxI = network.broker.server.stored boxI ++ [message] := by
  have accepts := (stream.acceptsMessages step).accepted session message writes
  cases step.streamEffect stream.entry (stream.managers thread) with
  | quiet _ _ pending =>
      rw [writes, publishes] at pending
      rw [publishes] at sameBox
      cases pending.mp sameBox
  | stores _ writes' _ grows _ =>
      rw [writes] at writes'
      cases writes'
      exact grows
  | announces _ publishes' _ _ _ _ =>
      rw [writes] at publishes'
      cases publishes'

/-- The messages of the box are those of its publishers, one publisher after the other. -/
theorem stored_handled
    (kept : Delivered clients boxI network) (record : BoxRecord network boxI)
    (pipes : PipesKept clients network)
    (stream : StreamKept params boxName boxI id network.broker model)
    (serves : network.Serves thread client)
    (step : network.broker.Step atomicity thread broker) :
    broker.server.stored boxI =
      ((network.handled thread client broker pipe written).publishers boxI).flatMap
        (network.handled thread client broker pipe written).accepted := by
  have publishers : (network.handled thread client broker pipe written).publishers boxI = _ :=
    registered_kept _ stream.entry step
  have member := record.publisher thread client serves
  change _ = List.flatMap (Function.update network.accepted client _) _
  rw [publishers]
  by_cases joins : publisherJoins (network.broker.workers thread) (broker.workers thread) =
      some boxI
  · -- The registration stores nothing.
    obtain ⟨none, nothing⟩ := joins_nothing pipes serves joins
    obtain ⟨box, session, register, _, _⟩ := publisherJoins_eq_some joins
    have outside : client ∉ network.publishers boxI := by
      intro inside
      have slot := member.mp inside
      rw [register] at slot
      cases slot
    rw [if_pos joins, flatMap_last outside, none, nothing, List.append_nil, List.append_nil,
      ← kept.stored]
    apply stored_unchanged stream step
    intro _ _ _ writes
    rw [register] at writes
    cases writes
  · rw [if_neg joins, List.append_nil]
    rcases storedBy_cases (network.broker.workers thread) (broker.workers thread) with
      nothing | ⟨session, message, session', writes, publishes, stored⟩
    · rw [nothing, List.append_nil, Function.update_eq_self, ← kept.stored]
      apply stored_unchanged stream step
      intro _ _ _ writes publishes
      rw [writes, publishes] at nothing
      cases nothing
    · rw [stored]
      by_cases here : session.boxI = boxI
      · -- The write of the last publisher
        obtain ⟨earlier, isLast⟩ := record.last thread client serves (by
          rw [writes, ← here]
          rfl)
        have once := record.once
        have same := kept.stored
        rw [isLast] at once same ⊢
        have outside : client ∉ earlier := by
          intro before
          rw [List.nodup_append] at once
          exact once.2.2 client before client List.mem_cons_self rfl
        have slot := (@slots_step _ _ _ _ _ _ boxI step (by
          rw [publishes]
          exact Point.noConfusion)).1.mpr (Or.inl (by
          rw [writes]
          exact congrArg some here))
        rw [stored_adds stream step writes publishes slot, same, flatMap_last outside,
          List.flatMap_append, List.flatMap_singleton, List.append_assoc]
      · -- The write to another box
        have outside : client ∉ network.publishers boxI := by
          intro inside
          have slot := member.mp inside
          rw [writes] at slot
          exact here (Option.some.inj slot)
        rw [flatMap_others outside, ← kept.stored]
        apply stored_unchanged stream step
        intro _ _ _ writes' _
        rw [writes] at writes'
        cases writes'
        exact here

omit [DecidableEq Client] in
/-- Messages are only added to those of the box. -/
theorem stored_grows (stream : StreamKept params boxName boxI id network.broker model)
    (step : network.broker.Step atomicity thread broker) :
    network.broker.server.stored boxI <+: broker.server.stored boxI := by
  cases step.streamEffect stream.entry (stream.managers thread) with
  | quiet same _ _ => rw [same]
  | stores _ _ _ grows _ =>
      rw [grows]
      exact List.prefix_append _ _
  | announces _ _ _ same _ _ => rw [same]

omit [DecidableEq Client] in
/-- A worker leaves its session with a subscriber without writing to it. -/
theorem ends_silent {closed : Prop} {point : Point} {arrived : List UInt8}
    (slot : subscriberSlot? point = some boxI)
    (piped : PipeStep closed point .idle arrived pipe written) : written = [] := by
  cases point with
  | subscriber point => cases piped <;> rfl
  | _ => cases slot

omit [DecidableEq Client] in
/-- What is sent in the session of a subscriber of the box are the packets of its first
messages. -/
theorem sent_serving {network' : Network Client (Fin params.maxSessions)}
    {model' : Model Nat}
    (record : BoxRecord network' boxI) (pipes : PipesKept clients network')
    (stream : StreamKept params boxName boxI id network'.broker model')
    (serves : network'.Serves thread client) (member : client ∈ network'.subscribers boxI) :
    ∃ messages, messages <+: network'.broker.server.stored boxI ∧
      network'.toClient client = (messages.map Subscriber.packetOf).flatten := by
  have slot := (record.subscriber thread client serves).mp member
  have atPoint := pipes.serving thread client serves
  cases here : network'.broker.workers thread with
  | subscriber point =>
      rw [here] at slot atPoint
      obtain ⟨session, own, same⟩ := Option.map_eq_some_iff.mp slot
      refine ⟨session.sent, stream.messageStream.sent thread point session here own same, ?_⟩
      have sent : messagesSent point = session.sent := by
        unfold messagesSent
        rw [own]
        rfl
      rw [← sent]
      exact atPoint
  | _ =>
      rw [here] at slot
      cases slot

/-- What a subscriber of the box was sent are the packets of its first messages. -/
theorem sent_handled {model' : Model Nat} (kept : Delivered clients boxI network)
    (record : BoxRecord network boxI)
    (record' : BoxRecord (network.handled thread client broker pipe written) boxI)
    (pipes' : PipesKept clients (network.handled thread client broker pipe written))
    (stream : StreamKept params boxName boxI id network.broker model)
    (stream' : StreamKept params boxName boxI id broker model')
    (serves : network.Serves thread client)
    (step : network.broker.Step atomicity thread broker)
    (piped : PipeStep (network.points client = .closed) (network.broker.workers thread)
      (broker.workers thread) (network.toBroker client) pipe written) {other : Client}
    (member : other ∈
      (network.handled thread client broker pipe written).subscribers boxI) :
    ∃ messages, messages <+: broker.server.stored boxI ∧
      (network.handled thread client broker pipe written).toClient other =
        (messages.map Subscriber.packetOf).flatten := by
  have subscribers : (network.handled thread client broker pipe written).subscribers boxI = _ :=
    registered_kept _ stream.entry step
  -- What was sent before stays sent.
  have before (inside : other ∈ network.subscribers boxI)
      (same : (network.handled thread client broker pipe written).toClient other =
        network.toClient other) : ∃ messages, messages <+: broker.server.stored boxI ∧
      (network.handled thread client broker pipe written).toClient other =
        (messages.map Subscriber.packetOf).flatten := by
    obtain ⟨messages, first, packets⟩ := kept.sent other inside
    exact ⟨messages, first.trans (stored_grows stream step), same.trans packets⟩
  by_cases isClient : other = client
  · subst isClient
    by_cases idle : broker.workers thread = .idle
    · have inside : other ∈ network.subscribers boxI := by
        rw [subscribers, idle, List.mem_append] at member
        rcases member with inside | joined
        · exact inside
        · obtain ⟨_, _, _, impossible, _⟩ := subscriberJoins_eq_some (mem_joined.mp joined).1
          cases impossible
      have slot := (record.subscriber thread other serves).mp inside
      rw [idle] at piped
      have nothing := ends_silent slot piped
      apply before inside
      have same := congrArg Traffic.toClient
        (network.handled_traffic thread other broker pipe written)
      rw [nothing] at same ⊢
      exact same.trans (List.append_nil _)
    · have serves' : (network.handled thread other broker pipe written).Serves thread other :=
        ⟨serves.1, idle⟩
      exact sent_serving record' pipes' stream' serves' member
  · have inside : other ∈ network.subscribers boxI := by
      rw [subscribers] at member
      exact registered_other isClient member
    exact before inside (congrArg Traffic.toClient
      (network.handled_other thread broker pipe written isClient))

omit [DecidableEq Client] in
/-- A full box stays full. -/
theorem full_stays (stream : StreamKept params boxName boxI id network.broker model)
    (step : network.broker.Step atomicity thread broker) (full : Full network.broker boxI) :
    Full broker boxI := by
  have grows := (stored_grows stream step).length_le
  unfold Full at full ⊢
  exact full.trans_le (Nat.mul_le_mul_left _ (Nat.succ_le_succ grows))

/-- The worker of a publisher stopped reading before this step. -/
theorem stopped_before (kept : Delivered clients boxI network) (alone : network.Exclusive)
    (stream : StreamKept params boxName boxI id network.broker model)
    (serves : network.Serves thread client)
    (step : network.broker.Step atomicity thread broker) {point : PublisherPoint}
    (here : network.broker.workers thread = .publisher point) (ended : ¬ ReadsOn point)
    (inside : client ∈ network.publishers boxI) :
    (network.points client = .closed ∧
      ((network.handled thread client broker pipe written).traffic client).Emptied
        (clients.messages client)) ∨ Full broker boxI := by
  have nothing : storedBy (network.broker.workers thread) (broker.workers thread) = [] := by
    rcases storedBy_cases (network.broker.workers thread) (broker.workers thread) with
      nothing | ⟨_, _, _, writes, _⟩
    · exact nothing
    · rw [here, Point.publisher.injEq] at writes
      rw [writes] at ended
      exact (ended trivial).elim
  have silent : ¬ network.Reading client := by
    intro reading
    obtain ⟨worker, point', serves', here', reads⟩ := reading
    rw [alone worker thread client serves' serves, here, Point.publisher.injEq] at here'
    rw [here'] at ended
    exact ended reads
  rw [network.handled_traffic thread client broker pipe written, nothing]
  rcases kept.stopped client inside silent with ⟨closed, emptied⟩ | full
  · exact Or.inl ⟨closed, emptied.handled⟩
  · exact Or.inr (full_stays stream step full)

/-- The worker of a publisher stops reading in this step: the pipe is empty, or the box is
full. -/
theorem stops_now (pipes : PipesKept clients network)
    (stream : StreamKept params boxName boxI id network.broker model)
    (serves : network.Serves thread client)
    (step : network.broker.Step atomicity thread broker)
    (piped : PipeStep (network.points client = .closed) (network.broker.workers thread)
      (broker.workers thread) (network.toBroker client) pipe written) {point : PublisherPoint}
    (here : network.broker.workers thread = .publisher point) (reads : ReadsOn point)
    (slot : publisherSlot? (network.broker.workers thread) = some boxI)
    (ended : ∀ next, broker.workers thread = .publisher next → ¬ ReadsOn next) :
    (network.points client = .closed ∧
      ((network.handled thread client broker pipe written).traffic client).Emptied
        (clients.messages client)) ∨ Full broker boxI := by
  have atPoint := pipes.serving thread client serves
  obtain ⟨server, next, taken, sameBroker⟩ := step.ofPublisher here
  have moves : broker.workers thread = next.elim .idle .publisher := by
    rw [sameBroker, Broker.goto_self]
  obtain ⟨session, isNext⟩ := Traffic.stops_reading taken (by
    intro outside
    rw [here] at slot
    change point.session?.map _ = _ at slot
    rw [outside] at slot
    cases slot) reads (by
    intro next' isNext
    rw [isNext] at moves
    exact ended next' moves)
  subst isNext
  have moves : broker.workers thread = .publisher (.unregister session) := moves
  have boxSlot := (@slots_step _ _ _ _ _ _ boxI step (by
    rw [moves]
    exact Point.noConfusion)).1.mpr (Or.inl slot)
  rw [moves] at boxSlot
  have sameBox : session.boxI = boxI := Option.some.inj boxSlot
  rw [here] at atPoint
  rw [here, moves] at piped
  rcases (atPoint.1 reads).stops taken piped with
    ⟨closed, isRead, emptied⟩ | ⟨_, gone⟩ | ⟨message, writes⟩
  · refine Or.inl ⟨closed, ?_⟩
    rw [network.handled_traffic thread client broker pipe written, here, isRead]
    exact emptied.handled
  · rw [sameBox] at gone
    exact (gone stream.entry.isTaken).elim
  · rw [writes] at here
    exact Or.inr (full_stays stream step
      ((stream.acceptsMessages step).refused session message here moves sameBox))

/-- A publisher that another worker serves, or that is served no more -/
theorem stopped_elsewhere (kept : Delivered clients boxI network)
    (stream : StreamKept params boxName boxI id network.broker model)
    (serves : network.Serves thread client)
    (step : network.broker.Step atomicity thread broker) {other : Client}
    (isOther : other ≠ client) (inside : other ∈ network.publishers boxI)
    (silent : ¬ (network.handled thread client broker pipe written).Reading other) :
    (network.points other = .closed ∧
      ((network.handled thread client broker pipe written).traffic other).Emptied
        (clients.messages other)) ∨ Full broker boxI := by
  have silentBefore : ¬ network.Reading other := by
    intro reading
    obtain ⟨worker, point, serves', here, reads⟩ := reading
    have moved : worker ≠ thread := by
      intro same
      rw [same] at serves'
      exact isOther (Option.some.inj (serves'.1.symm.trans serves.1))
    have unmoved := step.others moved
    refine silent ⟨worker, point, ⟨serves'.1, ?_⟩, unmoved.trans here, reads⟩
    change broker.workers worker ≠ .idle
    rw [unmoved]
    exact serves'.2
  rw [network.handled_other thread broker pipe written isOther]
  rcases kept.stopped other inside silentBefore with outcome | full
  · exact Or.inl outcome
  · exact Or.inr (full_stays stream step full)

/-- When a publisher of the box has stopped reading, everything that it wrote is stored, or the
block is full. -/
theorem stopped_handled (kept : Delivered clients boxI network)
    (record : BoxRecord network boxI) (pipes : PipesKept clients network)
    (alone : network.Exclusive)
    (stream : StreamKept params boxName boxI id network.broker model)
    (serves : network.Serves thread client)
    (step : network.broker.Step atomicity thread broker)
    (piped : PipeStep (network.points client = .closed) (network.broker.workers thread)
      (broker.workers thread) (network.toBroker client) pipe written) {other : Client}
    (member : other ∈ (network.handled thread client broker pipe written).publishers boxI)
    (silent : ¬ (network.handled thread client broker pipe written).Reading other) :
    (network.points other = .closed ∧
      ((network.handled thread client broker pipe written).traffic other).Emptied
        (clients.messages other)) ∨ Full broker boxI := by
  have publishers : (network.handled thread client broker pipe written).publishers boxI = _ :=
    registered_kept _ stream.entry step
  by_cases isClient : other = client
  · subst isClient
    -- A worker that does not read on is not at a point of the loop.
    have ended (next : PublisherPoint) (moves : broker.workers thread = .publisher next) :
        ¬ ReadsOn next := by
      intro reads
      refine silent ⟨thread, next, ⟨serves.1, ?_⟩, moves, reads⟩
      change broker.workers thread ≠ .idle
      rw [moves]
      exact Point.noConfusion
    by_cases joins : publisherJoins (network.broker.workers thread) (broker.workers thread) =
        some boxI
    · obtain ⟨_, session, _, reads, _⟩ := publisherJoins_eq_some joins
      exact (ended _ reads trivial).elim
    · rw [publishers, if_neg joins, List.append_nil] at member
      have slot := (record.publisher thread other serves).mp member
      cases here : network.broker.workers thread with
      | publisher point =>
          by_cases reads : ReadsOn point
          · exact stops_now pipes stream serves step piped here reads slot ended
          · exact stopped_before kept alone stream serves step here reads member
      | _ =>
          rw [here] at slot
          cases slot
  · have inside : other ∈ network.publishers boxI := by
      rw [publishers] at member
      exact registered_other isClient member
    exact stopped_elsewhere kept stream serves step isClient inside silent

end

/-! ### Runs -/

/-- The invariant of the runs in which the box is kept -/
structure DeliveryKept {Client : Type} [DecidableEq Client] (clients : Clients Client)
    (atomicity : Atomicity) (params : MbrokerParams) (name : CString) (boxI : Nat)
    (network : Network Client (Fin params.maxSessions)) : Prop where
  reachable : (deploymentSystem clients atomicity params).Reachable network
  stream : ∃ id model, StreamKept params (rootPath name) boxI id network.broker model
  unlocked : network.broker.server.Unlocked boxI
  record : BoxRecord network boxI
  delivered : Delivered clients boxI network

section
variable [DecidableEq Client] {clients : Clients Client} {atomicity : Atomicity}
  {params : MbrokerParams} {network network' : Network Client (Fin params.maxSessions)}
  {name : CString} {boxI : Nat}

theorem NewBox.kept (new : NewBox clients atomicity params name boxI network) :
    DeliveryKept clients atomicity params name boxI network := by
  obtain ⟨_, _, _, requests⟩ := Network.reachable_requestsKept new.reachable
  have nobody (worker : Fin params.maxSessions) :
      publisherSlot? (network.broker.workers worker) ≠ some boxI ∧
        subscriberSlot? (network.broker.workers worker) ≠ some boxI := by
    have sessions := new.fresh.sessions worker
    cases atPoint : network.broker.workers worker with
    | publisher point =>
        rw [atPoint] at sessions
        refine ⟨?_, fun impossible => by cases impossible⟩
        intro slot
        obtain ⟨session, own, same⟩ := Option.map_eq_some_iff.mp slot
        exact sessions session own same
    | subscriber point =>
        rw [atPoint] at sessions
        refine ⟨(fun impossible => by cases impossible), ?_⟩
        intro slot
        obtain ⟨session, own, same⟩ := Option.map_eq_some_iff.mp slot
        exact sessions session.toSession (Option.map_eq_some_iff.mpr ⟨session, own, rfl⟩) same
    | _ =>
        exact ⟨(fun impossible => by cases impossible), (fun impossible => by cases impossible)⟩
  constructor
  · exact new.reachable
  · exact new.fresh.kept
  · exact new.unlocked
  · constructor
    · intro worker client _
      rw [new.publishers]
      exact ⟨fun member => (List.not_mem_nil member).elim,
        fun slot => ((nobody worker).1 slot).elim⟩
    · intro worker client _
      rw [new.subscribers]
      exact ⟨fun member => (List.not_mem_nil member).elim,
        fun slot => ((nobody worker).2 slot).elim⟩
    · intro client member
      rw [new.publishers, new.subscribers] at member
      rcases member with impossible | impossible <;> cases impossible
    · rw [new.publishers]
      exact List.nodup_nil
    · intro worker _ _ publishes
      exact ((nobody worker).1 (publishes_slot publishes)).elim
  · constructor
    · rw [new.fresh.stored, new.publishers]
      rfl
    · intro client member
      rw [new.subscribers] at member
      cases member
    · intro client member
      rw [new.publishers] at member
      cases member

theorem DeliveryKept.step {actor : Actor Client (Fin params.maxSessions)}
    (kept : DeliveryKept clients atomicity params name boxI network)
    (step : (deliverySystem clients atomicity params name boxI).step actor network network') :
    DeliveryKept clients atomicity params name boxI network' := by
  obtain ⟨taken, keeps⟩ := step
  have reachable' := kept.reachable.step taken
  have pipes := Network.reachable_pipesKept kept.reachable
  have pipes' := Network.reachable_pipesKept reachable'
  obtain ⟨_, _, _, requests⟩ := Network.reachable_requestsKept kept.reachable
  obtain ⟨id, model, stream⟩ := kept.stream
  cases actor with
  | client client =>
      refine ⟨reachable', ?_, ?_, ?_, kept.delivered.client taken⟩
      · cases taken <;> exact ⟨id, model, stream⟩
      · cases taken <;> exact kept.unlocked
      · cases taken <;> exact kept.record.quiet rfl rfl rfl rfl (fun _ member => member)
  | listener =>
      refine ⟨reachable', ?_, ?_, ?_, kept.delivered.listener taken⟩
      · cases taken <;> exact ⟨id, model, stream⟩
      · cases taken <;> exact kept.unlocked
      · cases taken <;> exact kept.record.quiet rfl rfl rfl rfl (fun _ member => member)
  | worker thread =>
      have keeps := keeps thread rfl
      cases taken with
      | @dequeues received rest client point idle first path reception =>
          obtain ⟨asked, _, atStart⟩ := requests.first_starts first path reception
          subst atStart
          obtain ⟨model', stream'⟩ := stream.step (.dequeue asked idle) keeps
          exact ⟨reachable', ⟨id, model', stream'⟩, kept.unlocked,
            kept.record.dequeues (requests.first_new first path), kept.delivered.dequeues idle⟩
      | @lists received rest client packets _ _ _ first path _ _ =>
          have new := requests.first_new first path
          refine ⟨reachable', ⟨id, model, stream⟩, kept.unlocked,
            kept.record.quiet rfl rfl rfl rfl (fun _ member => List.mem_append_left _ member),
            kept.delivered.quiet rfl rfl rfl rfl rfl ?_ (fun _ _ closed => ⟨closed, rfl⟩)⟩
          intro other member
          apply Function.update_of_ne
          intro same
          rw [same] at member
          exact (kept.record.not_recorded new).2 member
      | @handles client broker pipe written serving busy taken piped =>
          have serves : network.Serves thread client := ⟨serving, busy⟩
          obtain ⟨model', stream'⟩ := stream.step taken keeps
          have record' : BoxRecord (network.handled thread client broker pipe written) boxI :=
            kept.record.handles requests stream.entry stream'.publishers serves taken
          refine ⟨reachable', ⟨id, model', stream'⟩,
            unlocked_step stream kept.unlocked taken, record', ?_⟩
          constructor
          · exact stored_handled kept.delivered kept.record pipes stream serves taken
          · intro other member
            exact sent_handled kept.delivered kept.record record' pipes' stream stream' serves
              taken piped member
          · intro other member silent
            exact stopped_handled kept.delivered kept.record pipes requests.alone stream serves
              taken piped member silent

end

end TecnicoFS.Deployment
