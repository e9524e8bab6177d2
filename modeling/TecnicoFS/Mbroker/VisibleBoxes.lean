/-
Boxes that `box_find` and the listing get to see.

`box_create` marks its slot TAKEN, gives `free_boxes_lock` back and fills the slot under its
mutex only.  In between, the slot shows whatever box it held before.  Who looks at filled
slots only sees every box under its own name and with its own size.
-/

import TecnicoFS.Mbroker.HeldLocks

set_option autoImplicit false

namespace TecnicoFS.Mbroker

open FileSystem

variable {Thread : Type}

/-! ### Slots between the sections of `box_create` -/

/-- The box with its slot that the worker has yet to fill -/
def CreatePoint.fills? : CreatePoint → Option (CString × Nat)
  | .fillBox boxName _ boxI => some (boxName, boxI)
  | .openExisting _ | .openNew _ | .takeBox _ _ | .closeFile _ _ | .answer _ => none

def LockedPoint.fills? : LockedPoint → Option (CString × Nat)
  | .create phase => phase.point?.bind CreatePoint.fills?
  | .idle | .publisher _ | .subscriber _ | .remove _ | .list _ => none

/-- Some worker took the slot and has yet to fill it. -/
def LockedBroker.Filling (broker : LockedBroker Thread) (boxI : Nat) : Prop :=
  ∃ thread boxName, (broker.workers thread).fills? = some (boxName, boxI)

/-- The slot is the first one in the table that is TAKEN and carries the name. -/
def Server.FirstNamed (server : Server Thread) (boxName : CString) (boxI : Nat) : Prop :=
  server.IsTaken boxI ∧ (server.boxesTable boxI).name = boxName ∧
    ∀ earlier, earlier < boxI → server.IsTaken earlier →
      (server.boxesTable earlier).name ≠ boxName

/-- The worker runs the loop of `box_find`, or that of `box_delete`. -/
def LockedPoint.Scans (point : LockedPoint) (boxName : CString) : Prop :=
  point = .publisher (.inside (.findBox boxName)) ∨
    point = .subscriber (.inside (.findBox boxName)) ∨ point = .remove (.findBox boxName)

/-- The worker does not come upon a slot that is still to be filled. -/
structure LooksAtFilled (broker : LockedBroker Thread) (thread : Thread) : Prop where
  scans : ∀ boxName boxI, (broker.workers thread).Scans boxName →
    broker.server.FirstNamed boxName boxI → ¬ broker.Filling boxI
  lists : ∀ state, broker.workers thread = .list (.writePacket state) →
    0 < broker.server.nBoxes → ¬ broker.Filling state.i

theorem Server.firstNamed (server : Server Thread) {boxName : CString} {boxI : Nat}
    (found : server.boxFind boxName = some boxI) : server.FirstNamed boxName boxI := by
  obtain ⟨_, taken, named⟩ := server.boxFind_eq_some found
  refine ⟨taken, named, ?_⟩
  intro earlier lower earlierTaken earlierNamed
  have fails := (TableSearch.firstSlot_eq_some.mp found).2.2 earlier lower
  rw [Bool.and_eq_false_iff, beq_eq_false_iff_ne, beq_eq_false_iff_ne] at fails
  rcases fails with free | other
  · exact free earlierTaken
  · exact other earlierNamed

/-! ### What a step does to the table -/

theorem CreateStep.table {server server' : Server Thread} {point : CreatePoint}
    {next : Option CreatePoint} (step : CreateStep .sections server point server' next) :
    (SameTable server server' ∧ point.fills? = none ∧ next.bind CreatePoint.fills? = none) ∨
      (∃ boxName f boxI, point = .takeBox boxName f ∧ server.firstFreeBox = some boxI ∧
        server' = server.takeBox boxI boxName ∧ next = some (.fillBox boxName f boxI)) ∨
      ∃ boxName f boxI, point = .fillBox boxName f boxI ∧
        server' = server.fillBox boxI boxName ∧ next.bind CreatePoint.fills? = none := by
  cases step with
  | takes _ found => exact Or.inr (Or.inl ⟨_, _, _, rfl, found, rfl, rfl⟩)
  | fills _ => exact Or.inr (Or.inr ⟨_, _, _, rfl, rfl, rfl⟩)
  | creates impossible _ _ => cases impossible
  | _ => exact Or.inl ⟨⟨rfl, rfl, rfl, fun _ => rfl⟩, rfl, rfl⟩

/-! ### Steps of the workers -/

section
variable [DecidableEq Thread] {thread : Thread} {broker broker' : LockedBroker Thread}

/-- A phase either waits for its lock or gives it back, or it makes a move of its handler. -/
theorem PhaseStep.moves? {HandlerPoint : Type} {lock? : HandlerPoint → Option (BoxLock × LockMode)}
    {skipsUnlock : HandlerPoint → Option HandlerPoint → Prop}
    {moves : Server Thread → HandlerPoint → Server Thread → Option HandlerPoint → Prop}
    {server server' : Server Thread} {locks locks' : LockTable Thread BoxLock}
    {phase : Phase HandlerPoint} {next : Option (Phase HandlerPoint)}
    (step : PhaseStep lock? skipsUnlock moves thread server locks phase server' locks' next) :
    (server' = server ∧ next.bind Phase.point? = phase.point? ∧
        ∀ point, phase ≠ .inside point) ∨
      ∃ point, moves server point server' (next.bind Phase.point?) ∧
        (phase = .inside point ∨ phase = .outside point ∧ lock? point = none) := by
  cases step with
  | runs unlocked moved =>
      rw [Phase.point_enter]
      exact Or.inr ⟨_, moved, Or.inr ⟨rfl, unlocked⟩⟩
  | locks _ _ => exact Or.inl ⟨rfl, rfl, fun _ impossible => by cases impossible⟩
  | leaves _ moved _ => exact Or.inr ⟨_, moved, Or.inl rfl⟩
  | skips moved _ =>
      rw [Phase.point_enter]
      exact Or.inr ⟨_, moved, Or.inl rfl⟩
  | unlocks =>
      rw [Phase.point_enter]
      exact Or.inl ⟨rfl, rfl, fun _ impossible => by cases impossible⟩

/-- What a step of a worker does to the boxes -/
inductive TableEffect (thread : Thread) (broker broker' : LockedBroker Thread) : Prop where
  | same : SameTable broker.server broker'.server → broker'.counted = broker.counted →
      (broker'.workers thread).fills? = (broker.workers thread).fills? →
      TableEffect thread broker broker'
  | publishes {boxI : Nat} :
      broker'.server = (broker.server.addSize boxI).broadcast boxI →
      broker'.counted =
        Function.update broker.counted boxI (broker.counted boxI + msgMaxLen) →
      (broker'.workers thread).fills? = (broker.workers thread).fills? →
      TableEffect thread broker broker'
  | takes {boxName : CString} {f : Int} {boxI : Nat} {phase : Phase CreatePoint} :
      broker.workers thread = .create (.inside (.takeBox boxName f)) →
      broker.server.firstFreeBox = some boxI →
      broker'.server = broker.server.takeBox boxI boxName → broker'.counted = broker.counted →
      broker'.workers thread = .create phase →
      (broker'.workers thread).fills? = some (boxName, boxI) →
      TableEffect thread broker broker'
  | fills {boxName : CString} {f : Int} {boxI : Nat} :
      broker.workers thread = .create (.inside (.fillBox boxName f boxI)) →
      broker'.server = broker.server.fillBox boxI boxName →
      broker'.counted = Function.update broker.counted boxI 0 →
      (broker'.workers thread).fills? = none →
      TableEffect thread broker broker'
  | deletes {boxName : CString} {boxI : Nat} :
      broker.workers thread = .remove (.deleteBox boxName boxI) →
      broker'.server = broker.server.deleteBox boxI boxName →
      broker'.counted = broker.counted →
      broker'.workers thread = .remove (.unlockBox boxName boxI) →
      TableEffect thread broker broker'

theorem LockedBroker.Step.tableEffect (step : broker.Step thread broker') :
    TableEffect thread broker broker' := by
  have elsewhere {P : Type} {lockedPoint : P → LockedPoint}
      (nothing : ∀ point, (lockedPoint point).fills? = none) (next : Option P) :
      (next.elim LockedPoint.idle lockedPoint).fills? = none := by
    cases next with
    | none => rfl
    | some point => exact nothing point
  have creating (next : Option (Phase CreatePoint)) :
      (next.elim LockedPoint.idle .create).fills? =
        (next.bind Phase.point?).bind CreatePoint.fills? := by
    cases next <;> rfl
  cases step with
  | dequeue request atIdle =>
      refine .same (.refl _) rfl ?_
      dsimp only
      rw [atIdle, Function.update_self]
      cases request <;> rfl
  | @publisher phase server locks next atPoint taken =>
      have fills : ((Function.update broker.workers thread
          (next.elim .idle .publisher)) thread).fills? = (broker.workers thread).fills? := by
        rw [Function.update_self, atPoint, elsewhere (fun _ => rfl)]
        rfl
      rcases taken.moves? with ⟨same, _, notInside⟩ | ⟨point, moved, place⟩
      · subst same
        refine .same (.refl _) ?_ fills
        cases phase with
        | inside point => exact (notInside point rfl).elim
        | _ => rfl
      · rcases moved.table with ⟨same, other⟩ | ⟨session, publishes, now⟩
        · refine .same same ?_ fills
          rcases place with inside | ⟨outside, _⟩
          · subst inside
            cases point with
            | publish session => exact (other session rfl).elim
            | _ => rfl
          · subst outside
            rfl
        · subst publishes
          rcases place with inside | ⟨_, impossible⟩
          · subst inside
            exact .publishes now rfl fills
          · cases impossible
  | @subscriber phase server locks next atPoint taken =>
      refine .same ?_ rfl ?_
      · rcases taken.moves? with ⟨same, _, _⟩ | ⟨point, moved, _⟩
        · subst same
          exact .refl _
        · exact moved.table
      · dsimp only
        rw [Function.update_self, atPoint, elsewhere (fun _ => rfl)]
        rfl
  | @create phase server locks next atPoint taken =>
      have before : (broker.workers thread).fills? = phase.point?.bind CreatePoint.fills? := by
        rw [atPoint]
        rfl
      have after : ((Function.update broker.workers thread
          (next.elim .idle .create)) thread).fills? =
            (next.bind Phase.point?).bind CreatePoint.fills? := by
        rw [Function.update_self, creating]
      rcases taken.moves? with ⟨same, samePoint, notInside⟩ | ⟨point, moved, place⟩
      · subst same
        refine .same (.refl _) ?_ ?_
        · cases phase with
          | inside point => exact (notInside point rfl).elim
          | _ => rfl
        · rw [before, ← samePoint]
          exact after
      · have atPhase : phase.point? = some point := by
          rcases place with inside | ⟨outside, _⟩
          · rw [inside]
            rfl
          · rw [outside]
            rfl
        rcases moved.table with ⟨same, nothing, nothing'⟩ | ⟨boxName, f, boxI, takes, found,
          now, then'⟩ | ⟨boxName, f, boxI, fills, now, nothing'⟩
        · refine .same same ?_ ?_
          · rcases place with inside | ⟨outside, _⟩
            · subst inside
              cases point with
              | fillBox _ _ _ => cases nothing
              | _ => rfl
            · subst outside
              rfl
          · rw [before, atPhase]
            exact after.trans (nothing'.trans nothing.symm)
        · subst takes
          rcases place with inside | ⟨_, impossible⟩
          · subst inside
            rw [then'] at after
            cases next with
            | none => cases then'
            | some phase =>
                exact .takes atPoint found now rfl (Function.update_self _ _ _) after
          · cases impossible
        · subst fills
          rcases place with inside | ⟨_, impossible⟩
          · subst inside
            exact .fills atPoint now rfl (after.trans nothing')
          · cases impossible
  | @remove point server locks next atPoint taken =>
      have fills : ((Function.update broker.workers thread
          (next.elim .idle .remove)) thread).fills? = (broker.workers thread).fills? := by
        rw [Function.update_self, atPoint, elsewhere (fun _ => rfl)]
        rfl
      cases taken with
      | deletes => exact .deletes atPoint rfl rfl (Function.update_self _ _ _)
      | _ => exact .same ⟨rfl, rfl, rfl, fun _ => rfl⟩ rfl fills
  | @list point server locks next atPoint taken =>
      refine .same ?_ rfl ?_
      · cases taken <;> exact .refl _
      · dsimp only
        rw [Function.update_self, atPoint, elsewhere (fun _ => rfl)]
        rfl

/-! ### Boxes of readers -/

/-- A filled slot belongs to a box that was created with the name. -/
structure LockedBroker.Occupied (broker : LockedBroker Thread) (boxI : Nat)
    (boxName : CString) : Prop where
  taken : broker.server.IsTaken boxI
  filled : ¬ broker.Filling boxI
  named : broker.server.occupantName boxI = boxName

/-- The packet shows the occupant of the slot: its name, and a size counted since it was
created. -/
structure LockedBroker.Announces (broker : LockedBroker Thread) (boxI : Nat)
    (packet : List UInt8) : Prop where
  taken : broker.server.IsTaken boxI
  filled : ¬ broker.Filling boxI
  copied : ∃ box last counted, listingPacket (some box) last = .ok packet ∧
    box.name = broker.server.occupantName boxI ∧ counted ≤ broker.counted boxI ∧
    box.size = UInt64.ofNat counted

/-- What `box_find` returns when it gives `free_boxes_lock` back -/
def LockedPoint.found? : LockedPoint → Option FoundBox
  | .publisher (.unlocking .freeBoxes .shared (some (.register box))) => some box
  | .subscriber (.unlocking .freeBoxes .shared (some (.register box))) => some box
  | _ => none

/-- What a worker that holds `free_boxes_lock` has seen of the boxes -/
structure LockedPoint.Shows (broker : LockedBroker Thread) (point : LockedPoint) : Prop where
  finds : ∀ box, point.found? = some box → broker.Occupied box.boxI box.boxName
  deletes : ∀ boxName boxI,
    point = .remove (.lockBox boxName boxI) ∨ point = .remove (.deleteBox boxName boxI) →
    broker.Occupied boxI boxName
  looks : ∀ state, point = .list (.lockBox state) ∨ point = .list (.writePacket state) →
    0 < broker.server.nBoxes → broker.server.IsTaken state.i
  sends : ∀ state packet,
    point = .list (.unlockBox state packet) ∨ point = .list (.sendPacket state packet) →
    0 < broker.server.nBoxes → broker.Announces state.i packet

/-- Nobody changes what a reader sees: sizes grow, and slots get filled. -/
structure Steady (broker broker' : LockedBroker Thread) : Prop where
  freeBoxes : broker'.server.freeBoxes = broker.server.freeBoxes
  nBoxes : broker'.server.nBoxes = broker.server.nBoxes
  occupantName : broker'.server.occupantName = broker.server.occupantName
  filling : ∀ boxI, broker'.Filling boxI → broker.Filling boxI
  counted : ∀ boxI, ¬ broker.Filling boxI → broker.counted boxI ≤ broker'.counted boxI

omit [DecidableEq Thread] in
theorem Steady.isTaken (steady : Steady broker broker') {boxI : Nat}
    (taken : broker.server.IsTaken boxI) : broker'.server.IsTaken boxI := by
  unfold Server.IsTaken
  rw [steady.freeBoxes]
  exact taken

omit [DecidableEq Thread] in
theorem LockedPoint.Shows.steady {point : LockedPoint} (shows' : point.Shows broker)
    (steady : Steady broker broker') : point.Shows broker' := by
  have occupied {boxI : Nat} {boxName : CString} (occupied : broker.Occupied boxI boxName) :
      broker'.Occupied boxI boxName := by
    refine ⟨steady.isTaken occupied.taken, ?_, ?_⟩
    · intro filling
      exact occupied.filled (steady.filling boxI filling)
    · rw [steady.occupantName]
      exact occupied.named
  constructor
  · intro box found
    exact occupied (shows'.finds box found)
  · intro boxName boxI atPoint
    exact occupied (shows'.deletes boxName boxI atPoint)
  · intro state atPoint some'
    rw [steady.nBoxes] at some'
    exact steady.isTaken (shows'.looks state atPoint some')
  · intro state packet atPoint some'
    rw [steady.nBoxes] at some'
    have announces := shows'.sends state packet atPoint some'
    obtain ⟨box, last, counted, wrote, named, bounded, size⟩ := announces.copied
    refine ⟨steady.isTaken announces.taken, ?_, box, last, counted, wrote, ?_, ?_, size⟩
    · intro filling
      exact announces.filled (steady.filling _ filling)
    · rw [steady.occupantName]
      exact named
    · exact bounded.trans (steady.counted _ announces.filled)

omit [DecidableEq Thread] in
/-- A worker without `free_boxes_lock` has seen nothing. -/
theorem LockedPoint.shows_outside {point : LockedPoint}
    (outside : ∀ mode, (BoxLock.freeBoxes, mode) ∉ point.held) : point.Shows broker := by
  constructor
  · intro box found
    unfold LockedPoint.found? at found
    split at found
    · exact (outside _ (List.mem_singleton_self _)).elim
    · exact (outside _ (List.mem_singleton_self _)).elim
    · cases found
  · rintro boxName boxI (here | here)
    · rw [here] at outside
      exact (outside .exclusive (List.mem_singleton_self _)).elim
    · rw [here] at outside
      exact (outside .exclusive (List.mem_cons_of_mem _ (List.mem_singleton_self _))).elim
  · rintro state (here | here)
    · rw [here] at outside
      exact (outside .shared (List.mem_singleton_self _)).elim
    · rw [here] at outside
      exact (outside .shared (List.mem_cons_of_mem _ (List.mem_singleton_self _))).elim
  · rintro state packet (here | here)
    · rw [here] at outside
      exact (outside .shared (List.mem_cons_of_mem _ (List.mem_singleton_self _))).elim
    · rw [here] at outside
      exact (outside .shared (List.mem_singleton_self _)).elim

/-- Filled slots show their occupants, and one worker at most fills a slot. -/
structure TableShown (broker : LockedBroker Thread) : Prop where
  filled : ∀ boxI, broker.server.IsTaken boxI → ¬ broker.Filling boxI →
    (broker.server.boxesTable boxI).label =
      (broker.server.occupantName boxI, UInt64.ofNat (broker.counted boxI))
  filling : ∀ thread boxName boxI, (broker.workers thread).fills? = some (boxName, boxI) →
    broker.server.IsTaken boxI ∧ broker.server.occupantName boxI = boxName
  oneFiller : ∀ left right leftName rightName boxI,
    (broker.workers left).fills? = some (leftName, boxI) →
    (broker.workers right).fills? = some (rightName, boxI) → left = right

/-- Filled slots show their occupants, and so does what the workers have read. -/
structure BoxesShown (broker : LockedBroker Thread) extends TableShown broker where
  workers : ∀ thread, (broker.workers thread).Shows broker

/-! ### One step -/

omit [DecidableEq Thread] in
/-- A handler that neither removes nor lists boxes has seen what `box_find` returned. -/
theorem LockedPoint.shows_found {point : LockedPoint}
    (finds : ∀ box, point.found? = some box → broker.Occupied box.boxI box.boxName)
    (notRemove : ∀ remove, point ≠ .remove remove) (notList : ∀ list, point ≠ .list list) :
    point.Shows broker := by
  refine ⟨finds, ?_, ?_, ?_⟩
  · rintro boxName boxI (here | here)
    · exact (notRemove _ here).elim
    · exact (notRemove _ here).elim
  · rintro state (here | here)
    · exact (notList _ here).elim
    · exact (notList _ here).elim
  · rintro state packet (here | here)
    · exact (notList _ here).elim
    · exact (notList _ here).elim

omit [DecidableEq Thread] in
/-- What `box_find` found belongs to the box of that name. -/
theorem BoxesShown.occupied (shown : BoxesShown broker) (looks : LooksAtFilled broker thread)
    {boxName : CString} {boxI : Nat} (scans : (broker.workers thread).Scans boxName)
    (found : broker.server.boxFind boxName = some boxI) : broker.Occupied boxI boxName := by
  have first := broker.server.firstNamed found
  have filled := looks.scans boxName boxI scans first
  refine ⟨first.1, filled, ?_⟩
  rw [← first.2.1]
  exact (congrArg Prod.fst (shown.filled boxI first.1 filled)).symm

omit [DecidableEq Thread] in
theorem PublisherStep.foundBox {server server' : Server Thread} {point : PublisherPoint}
    {box : FoundBox} (step : PublisherStep server point server' (some (.register box))) :
    point = .findBox box.boxName ∧ server.boxFind box.boxName = some box.boxI := by
  cases step with
  | found found => exact ⟨rfl, found⟩

theorem SubscriberStep.foundBox {server server' : Server Thread} {point : SubscriberPoint}
    {box : FoundBox} (step : SubscriberStep thread server point server' (some (.register box))) :
    point = .findBox box.boxName ∧ server.boxFind box.boxName = some box.boxI := by
  cases step with
  | found found => exact ⟨rfl, found⟩

/-- A worker that leaves a section behind a move to a registration was in `box_find`. -/
theorem PhaseStep.found {HandlerPoint : Type} {lock? : HandlerPoint → Option (BoxLock × LockMode)}
    {skipsUnlock : HandlerPoint → Option HandlerPoint → Prop}
    {moves : Server Thread → HandlerPoint → Server Thread → Option HandlerPoint → Prop}
    {server server' : Server Thread} {locks locks' : LockTable Thread BoxLock}
    {phase : Phase HandlerPoint} {next : Option (Phase HandlerPoint)} {lock : BoxLock}
    {mode : LockMode} {after : HandlerPoint}
    (step : PhaseStep lock? skipsUnlock moves thread server locks phase server' locks' next)
    (leaves : next = some (.unlocking lock mode (some after))) :
    ∃ point, phase = .inside point ∧ moves server point server' (some after) := by
  have entered (point : Option HandlerPoint)
      (impossible : point.map (Phase.enter lock?) = some (.unlocking lock mode (some after))) :
      False := by
    have held : (point.map (Phase.enter lock?)).elim [] (Phase.held lock?) = [] :=
      Phase.held_enter point
    rw [impossible] at held
    cases held
  cases step with
  | runs _ _ => exact (entered _ leaves).elim
  | locks _ _ => cases leaves
  | leaves _ moved _ =>
      cases leaves
      exact ⟨_, rfl, moved⟩
  | skips _ _ => exact (entered _ leaves).elim
  | unlocks => exact (entered _ leaves).elim

omit [DecidableEq Thread] in
/-- What a removal has found -/
theorem LockedPoint.shows_remove {point : LockedRemovePoint}
    (occupied : ∀ boxName boxI, point = .lockBox boxName boxI ∨ point = .deleteBox boxName boxI →
      broker.Occupied boxI boxName) : (LockedPoint.remove point).Shows broker := by
  refine ⟨?_, ?_, ?_, ?_⟩
  · intro _ impossible
    cases impossible
  · rintro boxName boxI (here | here)
    · cases here
      exact occupied boxName boxI (Or.inl rfl)
    · cases here
      exact occupied boxName boxI (Or.inr rfl)
  · rintro _ (impossible | impossible) <;> cases impossible
  · rintro _ _ (impossible | impossible) <;> cases impossible

theorem LockedRemoveStep.shows {server' : Server Thread} {locks' : LockTable Thread BoxLock}
    {point : LockedRemovePoint} {next : Option LockedRemovePoint} (shown : BoxesShown broker)
    (looks : LooksAtFilled broker thread) (atPoint : broker.workers thread = .remove point)
    (step : LockedRemoveStep thread broker.server broker.locks point server' locks' next) :
    (next.elim .idle .remove : LockedPoint).Shows broker := by
  have seen := shown.workers thread
  rw [atPoint] at seen
  cases step with
  | found found =>
      apply LockedPoint.shows_remove
      rintro boxName boxI (here | here)
      · cases here
        exact shown.occupied looks (Or.inr (Or.inr atPoint)) found
      · cases here
  | locksBox _ =>
      apply LockedPoint.shows_remove
      rintro boxName boxI (here | here)
      · cases here
      · cases here
        exact seen.deletes _ _ (Or.inl rfl)
  | answers => exact LockedPoint.shows_outside (fun _ impossible => by cases impossible)
  | _ =>
      apply LockedPoint.shows_remove
      rintro _ _ (impossible | impossible) <;> cases impossible

omit [DecidableEq Thread] in
/-- What a listing has seen -/
theorem LockedPoint.shows_list {point : ListPoint}
    (looks : ∀ state, point = .lockBox state ∨ point = .writePacket state →
      0 < broker.server.nBoxes → broker.server.IsTaken state.i)
    (sends : ∀ state packet, point = .unlockBox state packet ∨ point = .sendPacket state packet →
      0 < broker.server.nBoxes → broker.Announces state.i packet) :
    (LockedPoint.list point).Shows broker := by
  refine ⟨?_, ?_, ?_, ?_⟩
  · intro _ impossible
    cases impossible
  · rintro _ _ (impossible | impossible) <;> cases impossible
  · rintro state (here | here)
    · cases here
      exact looks state (Or.inl rfl)
    · cases here
      exact looks state (Or.inr rfl)
  · rintro state packet (here | here)
    · cases here
      exact sends state packet (Or.inl rfl)
    · cases here
      exact sends state packet (Or.inr rfl)

theorem ListStep.shows {server' : Server Thread} {locks' : LockTable Thread BoxLock}
    {point : ListPoint} {next : Option ListPoint} (shown : BoxesShown broker)
    (looks : LooksAtFilled broker thread) (atPoint : broker.workers thread = .list point)
    (step : ListStep thread broker.server broker.locks point server' locks' next) :
    (next.elim .idle .list : LockedPoint).Shows broker := by
  have seen := shown.workers thread
  rw [atPoint] at seen
  cases step with
  | pipeFails => exact LockedPoint.shows_outside (fun _ impossible => by cases impossible)
  | unlocksTable => exact LockedPoint.shows_outside (fun _ impossible => by cases impossible)
  | looks _ _ taken =>
      apply LockedPoint.shows_list
      · rintro state (here | here)
        · cases here
          intro some'
          change broker.server.freeBoxes _ = .taken
          cases entry : broker.server.freeBoxes _ with
          | taken => rfl
          | free => exact (taken ⟨some', entry⟩).elim
        · cases here
      · rintro _ _ (impossible | impossible) <;> cases impossible
  | locksBox _ =>
      apply LockedPoint.shows_list
      · rintro state (here | here)
        · cases here
        · cases here
          exact seen.looks _ (Or.inl rfl)
      · rintro _ _ (impossible | impossible) <;> cases impossible
  | @writes state packet wrote =>
      apply LockedPoint.shows_list
      · rintro _ (impossible | impossible) <;> cases impossible
      · rintro _ _ (here | here)
        · cases here
          intro some'
          rw [if_pos some'] at wrote
          have taken := seen.looks _ (Or.inr rfl) some'
          have filled := looks.lists _ atPoint some'
          have label := shown.filled _ taken filled
          exact ⟨taken, filled, _, _, _, wrote, congrArg Prod.fst label, Nat.le_refl _,
            congrArg Prod.snd label⟩
        · cases here
  | unlocksBox =>
      apply LockedPoint.shows_list
      · rintro _ (impossible | impossible) <;> cases impossible
      · rintro state packet (here | here)
        · cases here
        · cases here
          exact seen.sends _ _ (Or.inl rfl)
  | _ =>
      apply LockedPoint.shows_list
      · rintro _ (impossible | impossible) <;> cases impossible
      · rintro _ _ (impossible | impossible) <;> cases impossible

/-- A worker sees boxes as they were before its step. -/
theorem LockedBroker.Step.shows (step : broker.Step thread broker') (shown : BoxesShown broker)
    (looks : LooksAtFilled broker thread) : (broker'.workers thread).Shows broker := by
  cases step with
  | dequeue request _ =>
      dsimp only
      rw [Function.update_self]
      apply LockedPoint.shows_outside
      intro mode impossible
      cases request <;> cases impossible
  | @publisher phase _ _ next atPoint taken =>
      dsimp only
      rw [Function.update_self]
      cases next with
      | none => exact LockedPoint.shows_outside (fun _ impossible => by cases impossible)
      | some next =>
          refine LockedPoint.shows_found ?_ (fun _ impossible => by cases impossible)
            (fun _ impossible => by cases impossible)
          intro box found
          change LockedPoint.found? (.publisher next) = some box at found
          unfold LockedPoint.found? at found
          split at found
          · rename_i leaves
            cases leaves
            cases found
            obtain ⟨point, inside, moved⟩ := taken.found rfl
            obtain ⟨finding, found⟩ := moved.foundBox
            apply shown.occupied looks (Or.inl _) found
            rw [atPoint, inside, finding]
          · rename_i impossible
            cases impossible
          · cases found
  | @subscriber phase _ _ next atPoint taken =>
      dsimp only
      rw [Function.update_self]
      cases next with
      | none => exact LockedPoint.shows_outside (fun _ impossible => by cases impossible)
      | some next =>
          refine LockedPoint.shows_found ?_ (fun _ impossible => by cases impossible)
            (fun _ impossible => by cases impossible)
          intro box found
          change LockedPoint.found? (.subscriber next) = some box at found
          unfold LockedPoint.found? at found
          split at found
          · rename_i impossible
            cases impossible
          · rename_i leaves
            cases leaves
            cases found
            obtain ⟨point, inside, moved⟩ := taken.found rfl
            obtain ⟨finding, found⟩ := moved.foundBox
            apply shown.occupied looks (Or.inr (Or.inl _)) found
            rw [atPoint, inside, finding]
          · cases found
  | @create _ _ _ next _ _ =>
      dsimp only
      rw [Function.update_self]
      cases next with
      | none => exact LockedPoint.shows_outside (fun _ impossible => by cases impossible)
      | some next =>
          exact LockedPoint.shows_found (fun _ impossible => by cases impossible)
            (fun _ impossible => by cases impossible) (fun _ impossible => by cases impossible)
  | remove atPoint taken =>
      dsimp only
      rw [Function.update_self]
      exact taken.shows shown looks atPoint
  | list atPoint taken =>
      dsimp only
      rw [Function.update_self]
      exact taken.shows shown looks atPoint

/-! ### What a step leaves -/

/-- Every worker has the same slot to fill as before. -/
def SameFills (broker broker' : LockedBroker Thread) : Prop :=
  ∀ worker, (broker'.workers worker).fills? = (broker.workers worker).fills?

omit [DecidableEq Thread] in
theorem SameFills.filling (same : SameFills broker broker') {boxI : Nat} :
    broker'.Filling boxI ↔ broker.Filling boxI := by
  unfold LockedBroker.Filling
  simp only [same _]

theorem LockedBroker.Step.sameFills (step : broker.Step thread broker')
    (same : (broker'.workers thread).fills? = (broker.workers thread).fills?) :
    SameFills broker broker' := by
  intro worker
  by_cases moved : worker = thread
  · rw [moved, same]
  · rw [step.others moved]

omit [DecidableEq Thread] in
/-- Slots that nobody takes or fills show what they showed, up to what was counted. -/
theorem TableShown.kept (shown : TableShown broker) (same : SameFills broker broker')
    (isTaken : ∀ boxI, broker'.server.IsTaken boxI → broker.server.IsTaken boxI)
    (stillTaken : ∀ boxI, broker.Filling boxI → broker.server.IsTaken boxI →
      broker'.server.IsTaken boxI)
    (occupantName : broker'.server.occupantName = broker.server.occupantName)
    (labels : ∀ boxI, (broker.server.boxesTable boxI).label =
        (broker.server.occupantName boxI, UInt64.ofNat (broker.counted boxI)) →
      (broker'.server.boxesTable boxI).label =
        (broker.server.occupantName boxI, UInt64.ofNat (broker'.counted boxI))) :
    TableShown broker' := by
  constructor
  · intro boxI taken filled
    rw [same.filling] at filled
    rw [occupantName]
    exact labels boxI (shown.filled boxI (isTaken boxI taken) filled)
  · intro worker boxName boxI fills
    rw [same worker] at fills
    obtain ⟨taken, named⟩ := shown.filling worker boxName boxI fills
    rw [occupantName]
    exact ⟨stillTaken boxI ⟨worker, boxName, fills⟩ taken, named⟩
  · intro left right leftName rightName boxI leftFills rightFills
    rw [same left] at leftFills
    rw [same right] at rightFills
    exact shown.oneFiller left right leftName rightName boxI leftFills rightFills

omit [DecidableEq Thread] in
/-- `publish` adds to the size what is counted. -/
theorem Server.addSize_label (server : Server Thread) {boxI other count : Nat} {boxName : CString}
    {counted : Nat → Nat} (count' : counted other = count)
    (label : (server.boxesTable other).label = (boxName, UInt64.ofNat count)) :
    ((server.addSize boxI).boxesTable other).label = (boxName,
      UInt64.ofNat (Function.update counted boxI (counted boxI + msgMaxLen) other)) := by
  by_cases here : other = boxI
  · subst here
    have name : (server.boxesTable other).name = boxName := congrArg Prod.fst label
    have size : (server.boxesTable other).size = UInt64.ofNat count := congrArg Prod.snd label
    rw [Function.update_self, count', UInt64.ofNat_add, ← size, ← name]
    unfold Server.addSize
    rw [server.setBox_self, Box.label]
  · rw [Function.update_of_ne here, Server.addSize, server.setBox_other _ here, count']
    exact label

theorem TableShown.takes {boxName : CString} {boxI : Nat} (shown : TableShown broker)
    (step : broker.Step thread broker') (before : (broker.workers thread).fills? = none)
    (free : ¬ broker.server.IsTaken boxI) (now : broker'.server = broker.server.takeBox boxI boxName)
    (counted : broker'.counted = broker.counted)
    (fills : (broker'.workers thread).fills? = some (boxName, boxI)) : TableShown broker' := by
  -- Nobody else fills a free slot.
  have other {worker : Thread} {name : CString} {place : Nat} (different : worker ≠ thread)
      (fills' : (broker'.workers worker).fills? = some (name, place)) :
      (broker.workers worker).fills? = some (name, place) ∧ place ≠ boxI := by
    rw [step.others different] at fills'
    refine ⟨fills', ?_⟩
    intro same
    subst same
    exact free (shown.filling worker name place fills').1
  have own {name : CString} {place : Nat}
      (fills' : (broker'.workers thread).fills? = some (name, place)) :
      name = boxName ∧ place = boxI := by
    rw [fills] at fills'
    cases fills'
    exact ⟨rfl, rfl⟩
  constructor
  · intro place taken filled
    have different : place ≠ boxI := by
      intro same
      subst same
      exact filled ⟨thread, boxName, fills⟩
    have filledBefore : ¬ broker.Filling place := by
      rintro ⟨worker, name, fills'⟩
      apply filled
      refine ⟨worker, name, ?_⟩
      by_cases moved : worker = thread
      · rw [moved, before] at fills'
        cases fills'
      · rw [step.others moved]
        exact fills'
    rw [now, broker.server.takeBox_other boxName different] at taken
    have label := shown.filled place taken filledBefore
    rw [now, counted]
    change (broker.server.boxesTable place).label =
      (Function.update broker.server.occupantName boxI boxName place, _)
    rw [Function.update_of_ne different]
    exact label
  · intro worker name place fills'
    rw [now]
    change _ ∧ Function.update broker.server.occupantName boxI boxName place = name
    by_cases moved : worker = thread
    · subst moved
      obtain ⟨sameName, samePlace⟩ := own fills'
      subst sameName samePlace
      exact ⟨broker.server.takeBox_isTaken _ _, Function.update_self _ _ _⟩
    · obtain ⟨earlier, different⟩ := other moved fills'
      obtain ⟨taken, named⟩ := shown.filling worker name place earlier
      rw [broker.server.takeBox_other boxName different, Function.update_of_ne different]
      exact ⟨taken, named⟩
  · intro left right leftName rightName place leftFills rightFills
    by_cases leftMoved : left = thread
    · subst leftMoved
      by_cases rightMoved : right = left
      · exact rightMoved.symm
      · exact ((other rightMoved rightFills).2 (own leftFills).2).elim
    · obtain ⟨leftEarlier, different⟩ := other leftMoved leftFills
      by_cases rightMoved : right = thread
      · subst rightMoved
        exact (different (own rightFills).2).elim
      · exact shown.oneFiller left right leftName rightName place leftEarlier
          (other rightMoved rightFills).1

theorem TableShown.fills {boxName : CString} {boxI : Nat} (shown : TableShown broker)
    (step : broker.Step thread broker')
    (before : (broker.workers thread).fills? = some (boxName, boxI))
    (now : broker'.server = broker.server.fillBox boxI boxName)
    (counted : broker'.counted = Function.update broker.counted boxI 0)
    (fills : (broker'.workers thread).fills? = none) : TableShown broker' := by
  have other {worker : Thread} {name : CString} {place : Nat}
      (fills' : (broker'.workers worker).fills? = some (name, place)) :
      (broker.workers worker).fills? = some (name, place) ∧ worker ≠ thread := by
    by_cases moved : worker = thread
    · rw [moved, fills] at fills'
      cases fills'
    · rw [step.others moved] at fills'
      exact ⟨fills', moved⟩
  constructor
  · intro place taken filled
    rw [now] at taken
    rw [now, counted]
    by_cases here : place = boxI
    · subst here
      rw [Server.fillBox, Function.update_self]
      change ((broker.server.setBox place _).boxesTable place).label = _
      rw [broker.server.setBox_self]
      exact Prod.ext (shown.filling thread boxName place before).2.symm rfl
    · have filledBefore : ¬ broker.Filling place := by
        rintro ⟨worker, name, fills'⟩
        apply filled
        refine ⟨worker, name, ?_⟩
        by_cases moved : worker = thread
        · rw [moved, before] at fills'
          cases fills'
          exact (here rfl).elim
        · rw [step.others moved]
          exact fills'
      rw [broker.server.fillBox_other boxName here, Function.update_of_ne here]
      exact shown.filled place taken filledBefore
  · intro worker name place fills'
    rw [now]
    exact shown.filling worker name place (other fills').1
  · intro left right leftName rightName place leftFills rightFills
    exact shown.oneFiller left right leftName rightName place (other leftFills).1
      (other rightFills).1

theorem TableEffect.tableShown (effect : TableEffect thread broker broker')
    (step : broker.Step thread broker') (shown : BoxesShown broker) : TableShown broker' := by
  cases effect with
  | same table counted fills =>
      apply shown.kept (step.sameFills fills)
      · intro boxI taken
        unfold Server.IsTaken at taken ⊢
        rwa [table.freeBoxes] at taken
      · intro boxI _ taken
        unfold Server.IsTaken at taken ⊢
        rwa [table.freeBoxes]
      · exact table.occupantName
      · intro boxI label
        rw [table.labels, counted]
        exact label
  | publishes now counted fills =>
      apply shown.kept (step.sameFills fills)
      · intro boxI taken
        rwa [now] at taken
      · intro boxI _ taken
        rwa [now]
      · rw [now]
        rfl
      · intro boxI label
        rw [now, counted]
        exact Server.addSize_label _ rfl label
  | takes atPoint found now counted _ fills =>
      refine shown.takes step ?_ (broker.server.firstFreeBox_eq_some found).2 now counted fills
      rw [atPoint]
      rfl
  | fills atPoint now counted fills =>
      refine shown.fills step ?_ now counted fills
      rw [atPoint]
      rfl
  | @deletes boxName boxI atPoint now counted atPoint' =>
      have occupied := (shown.workers thread).deletes boxName boxI (Or.inr atPoint)
      apply shown.kept (step.sameFills _)
      · intro place taken
        rw [now] at taken
        by_cases here : place = boxI
        · subst here
          exact occupied.taken
        · exact (broker.server.deleteBox_other boxName here).mp taken
      · intro place filling taken
        rw [now]
        apply (broker.server.deleteBox_other boxName _).mpr taken
        intro same
        subst same
        exact occupied.filled filling
      · rw [now]
        rfl
      · intro place label
        rw [now, counted]
        exact label
      · rw [atPoint, atPoint']
        rfl

/-- Only the holder of the write lock changes what readers see. -/
theorem TableEffect.steady (effect : TableEffect thread broker broker')
    (step : broker.Step thread broker') :
    Steady broker broker' ∨ (BoxLock.freeBoxes, LockMode.exclusive) ∈
      (broker.workers thread).held ∧ (broker'.workers thread).Shows broker' := by
  cases effect with
  | same table counted fills =>
      refine Or.inl ⟨table.freeBoxes, table.nBoxes, table.occupantName, ?_, ?_⟩
      · intro boxI
        exact (step.sameFills fills).filling.mp
      · intro boxI _
        rw [counted]
  | @publishes boxI now counted fills =>
      refine Or.inl ⟨?_, ?_, ?_, ?_, ?_⟩
      · rw [now]
        rfl
      · rw [now]
        rfl
      · rw [now]
        rfl
      · intro place
        exact (step.sameFills fills).filling.mp
      · intro place _
        rw [counted, Function.update_apply]
        split
        · rename_i here
          rw [here]
          exact Nat.le_add_right _ _
        · exact Nat.le_refl _
  | takes atPoint _ _ _ atPoint' _ =>
      refine Or.inr ⟨?_, ?_⟩
      · rw [atPoint]
        exact List.mem_singleton_self _
      · rw [atPoint']
        exact LockedPoint.shows_found (fun _ impossible => by cases impossible)
          (fun _ impossible => by cases impossible) (fun _ impossible => by cases impossible)
  | @fills boxName f boxI atPoint now counted fills =>
      refine Or.inl ⟨?_, ?_, ?_, ?_, ?_⟩
      · rw [now]
        rfl
      · rw [now]
        rfl
      · rw [now]
        rfl
      · rintro place ⟨worker, name, fills'⟩
        refine ⟨worker, name, ?_⟩
        by_cases moved : worker = thread
        · rw [moved, fills] at fills'
          cases fills'
        · rw [← step.others moved]
          exact fills'
      · intro place filled
        have different : place ≠ boxI := by
          intro same
          subst same
          apply filled
          refine ⟨thread, boxName, ?_⟩
          rw [atPoint]
          rfl
        rw [counted, Function.update_of_ne different]
  | deletes atPoint _ _ atPoint' =>
      refine Or.inr ⟨?_, ?_⟩
      · rw [atPoint]
        exact List.mem_cons_of_mem _ (List.mem_singleton_self _)
      · rw [atPoint']
        apply LockedPoint.shows_remove
        rintro _ _ (impossible | impossible) <;> cases impossible

theorem BoxesShown.step (shown : BoxesShown broker) (step : broker.Step thread broker')
    (backed : LocksBacked broker) (looks : LooksAtFilled broker thread) : BoxesShown broker' := by
  have effect := step.tableEffect
  refine ⟨effect.tableShown step shown, ?_⟩
  intro worker
  rcases effect.steady step with steady | ⟨writes, own⟩
  · by_cases moved : worker = thread
    · subst moved
      exact (step.shows shown looks).steady steady
    · rw [step.others moved]
      exact (shown.workers worker).steady steady
  · by_cases moved : worker = thread
    · rw [moved]
      exact own
    · rw [step.others moved]
      -- No other worker holds `free_boxes_lock` together with the writer.
      apply LockedPoint.shows_outside
      intro mode holds
      exact moved (backed.backs.exclusive backed.safe writes holds)

end

/-! ### Runs -/

/-- Every slot `box_find` returns, and every slot in a packet of a listing, belongs to a
filled box: one created with the name that was looked for, or the one whose name the packet
carries with a size counted since its creation. -/
structure SeesCreatedBoxes (broker : LockedBroker Thread) : Prop where
  finds : ∀ thread box, (broker.workers thread).found? = some box →
    broker.Occupied box.boxI box.boxName
  sends : ∀ thread state packet, broker.workers thread = .list (.sendPacket state packet) →
    0 < broker.server.nBoxes → broker.Announces state.i packet

theorem BoxesShown.seesCreatedBoxes {broker : LockedBroker Thread} (shown : BoxesShown broker) :
    SeesCreatedBoxes broker := by
  constructor
  · intro thread box found
    exact (shown.workers thread).finds box found
  · intro thread state packet atPoint some'
    exact (shown.workers thread).sends state packet (Or.inr atPoint) some'

/-- The broker whose workers look at filled slots -/
def looksAtFilledSystem (params : MbrokerParams) :
    ThreadSystem (Fin params.maxSessions) (LockedBroker (Fin params.maxSessions)) :=
  (lockedSystem params).restrict (fun thread broker _ => LooksAtFilled broker thread)

variable {params : MbrokerParams}

theorem LockedBroker.reachable_boxesShown {broker : LockedBroker (Fin params.maxSessions)}
    (reachable : (looksAtFilledSystem params).Reachable broker) : BoxesShown broker := by
  have backed : ∀ broker, (looksAtFilledSystem params).Reachable broker → LocksBacked broker :=
    fun _ reachable => LockedBroker.reachable_locksBacked reachable.of_restrict
  refine reachable.preserves_with backed ?_ ?_
  · rintro start ⟨started, _, idle⟩
    have nothing (thread : Fin params.maxSessions) : (start.workers thread).fills? = none := by
      rw [idle thread]
      rfl
    refine ⟨⟨?_, ?_, ?_⟩, ?_⟩
    · intro boxI taken
      unfold Server.IsTaken at taken
      rw [started.freeBoxes] at taken
      cases taken
    · intro thread boxName boxI fills
      rw [nothing] at fills
      cases fills
    · intro left right leftName rightName boxI fills
      rw [nothing] at fills
      cases fills
    · intro thread
      rw [idle thread]
      exact LockedPoint.shows_outside (fun _ impossible => by cases impossible)
  · intro thread before after backed shown ⟨step, looks⟩
    exact shown.step step backed looks

/-! ### A creation and a search -/

theorem LooksAtFilled.elsewhere {broker : LockedBroker Thread} {thread : Thread}
    (noScan : ∀ boxName, ¬ (broker.workers thread).Scans boxName)
    (noList : ∀ state, broker.workers thread ≠ .list (.writePacket state)) :
    LooksAtFilled broker thread := by
  constructor
  · intro boxName boxI scans
    exact (noScan boxName scans).elim
  · intro state lists
    exact (noList state lists).elim

/-- A creating worker looks at no slot. -/
theorem LooksAtFilled.creates {broker : LockedBroker Thread} {thread : Thread}
    {phase : Phase CreatePoint} (atPoint : broker.workers thread = .create phase) :
    LooksAtFilled broker thread := by
  apply LooksAtFilled.elsewhere
  · intro boxName scans
    unfold LockedPoint.Scans at scans
    rw [atPoint] at scans
    rcases scans with impossible | impossible | impossible <;> cases impossible
  · intro state lists
    rw [atPoint] at lists
    cases lists

/-- With all locks free a creating worker goes on to its next point. -/
theorem LockedBroker.reaches_create {thread : Fin params.maxSessions}
    {server server' : Server (Fin params.maxSessions)}
    {workers : Fin params.maxSessions → LockedPoint} {counted : Nat → Nat}
    {point next : CreatePoint}
    (reachable : (looksAtFilledSystem params).Reachable ⟨server, .empty,
      Function.update workers thread (.create (.enter CreatePoint.lock? point)), counted⟩)
    (moved : CreateStep .sections server point server' (some next)) :
    ∃ counted', (looksAtFilledSystem params).Reachable ⟨server', .empty,
      Function.update workers thread (.create (.enter CreatePoint.lock? next)), counted'⟩ := by
  have steps (broker : LockedBroker (Fin params.maxSessions)) (phase : Phase CreatePoint)
      (server : Server (Fin params.maxSessions)) (locks : LockTable (Fin params.maxSessions) BoxLock)
      (next : Option (Phase CreatePoint)) (atPoint : broker.workers thread = .create phase)
      (taken : PhaseStep CreatePoint.lock? (fun _ _ => False) (CreateStep .sections) thread
        broker.server broker.locks phase server locks next) :
      ∃ counted, (looksAtFilledSystem params).step thread broker
        ⟨server, locks, Function.update broker.workers thread (next.elim .idle .create), counted⟩ :=
    ⟨_, LockedBroker.Step.create atPoint taken, .creates atPoint⟩
  obtain ⟨counted', reached⟩ := reaches_move steps reachable rfl (Function.update_self _ _ _) moved
    (fun impossible => impossible)
  dsimp only at reached
  rw [Function.update_idem] at reached
  exact ⟨counted', reached⟩

/-- With all locks free an idle worker goes on to the loop of `box_find`. -/
theorem LockedBroker.reaches_search {thread : Fin params.maxSessions}
    {server : Server (Fin params.maxSessions)} {workers : Fin params.maxSessions → LockedPoint}
    {counted : Nat → Nat}
    (reachable : (looksAtFilledSystem params).Reachable ⟨server, .empty, workers, counted⟩)
    (idle : workers thread = .idle) (name : CString) :
    ∃ broker, (looksAtFilledSystem params).Reachable broker ∧ broker.server = server ∧
      broker.workers thread = .publisher (.inside (.findBox (rootPath name))) ∧
        ∀ other, other ≠ thread → broker.workers other = workers other := by
  have looks {broker : LockedBroker (Fin params.maxSessions)} {point : LockedPoint}
      (atPoint : broker.workers thread = point) (noScan : ∀ boxName, ¬ point.Scans boxName)
      (noList : ∀ state, point ≠ .list (.writePacket state)) : LooksAtFilled broker thread :=
    .elsewhere (by rwa [atPoint]) (by rwa [atPoint])
  have requested := reachable.step ⟨.dequeue (.pubRegister name) idle, looks idle (by
    rintro boxName (impossible | impossible | impossible) <;> cases impossible)
    (fun _ impossible => by cases impossible)⟩
  have connected := requested.step
    ⟨.publisher (Function.update_self _ _ _) (.runs rfl .pipeOpens),
      looks (Function.update_self _ _ _) (by
        rintro boxName (impossible | impossible | impossible) <;> cases impossible)
        (fun _ impossible => by cases impossible)⟩
  have locked := connected.step
    ⟨.publisher (Function.update_self _ _ _) (.locks rfl (LockTable.empty_available _ _)),
      looks (Function.update_self _ _ _) (by
        rintro boxName (impossible | impossible | impossible) <;> cases impossible)
        (fun _ impossible => by cases impossible)⟩
  refine ⟨_, locked, rfl, Function.update_self _ _ _, ?_⟩
  intro other different
  dsimp only
  rw [Function.update_of_ne different, Function.update_of_ne different,
    Function.update_of_ne different]

theorem workerB_idle (point : LockedPoint) :
    Function.update (fun _ => LockedPoint.idle) workerA point workerB = .idle := by
  rw [Function.update_of_ne (show workerB ≠ workerA by decide)]

/-- A worker has taken the first slot for a box and has yet to fill it. -/
theorem exists_takenBox (boxes : Nat → Box) :
    ∃ fs f counted model, Files twoSessions fs model ∧
      (looksAtFilledSystem twoSessions).Reachable
        ⟨(initialServer fs boxes).takeBox 0 (rootPath boxA), .empty,
          Function.update (fun _ => .idle) workerA
            (.create (.enter CreatePoint.lock? (.fillBox (rootPath boxA) f 0))), counted⟩ := by
  obtain ⟨fs, files, started⟩ := exists_started boxes
  have small : twoSessions.maxSessions < 2 ^ 31 := by decide
  obtain ⟨first, fs1, returned1⟩ := files.returns small (.opens (rootPath boxA) false false)
  obtain ⟨absent, files1⟩ := files.opensAbsent (Or.inr rfl) returned1
  obtain ⟨second, fs2, returned2⟩ := files1.returns small (.opens (rootPath boxA) true false)
  obtain ⟨id, handle, opened, _, _, files2⟩ := files1.opensNew (rootPath_valid boxA_short)
    boxA_short rfl
    ⟨1, by decide, by decide, by
      rintro (⟨_, impossible⟩ | ⟨_, _, impossible⟩) <;> cases impossible⟩
    ⟨0, by decide, rfl⟩ returned2
  have start : (looksAtFilledSystem twoSessions).Reachable
      ⟨initialServer fs boxes, .empty, fun _ => .idle, fun _ => 0⟩ :=
    .initial ⟨started, rfl, fun _ => rfl⟩
  have looks : LooksAtFilled ⟨initialServer fs boxes, .empty, fun _ => .idle, fun _ => 0⟩
      workerA := by
    apply LooksAtFilled.elsewhere
    · rintro boxName (impossible | impossible | impossible) <;> cases impossible
    · intro state impossible
      cases impossible
  have requested : (looksAtFilledSystem twoSessions).Reachable
      ⟨initialServer fs boxes, .empty, Function.update (fun _ => .idle) workerA
        (.create (.enter CreatePoint.lock? (.openExisting (rootPath boxA)))), fun _ => 0⟩ :=
    start.step ⟨.dequeue (.createRequest boxA) rfl, looks⟩
  obtain ⟨_, checked⟩ := LockedBroker.reaches_create requested (.absent returned1 (by omega))
  obtain ⟨_, created⟩ := LockedBroker.reaches_create checked (.opens returned2 (by omega))
  have free : ((initialServer fs boxes : Server (Fin twoSessions.maxSessions)).setFs
      fs2).firstFreeBox = some 0 := firstFreeBox_first files2 rfl
  obtain ⟨counted, taken⟩ := LockedBroker.reaches_create created (.takes rfl free)
  exact ⟨fs2, _, counted, _, files2, taken⟩

/-- While no worker comes upon a slot that is still to be filled, every box that is seen is
one that was created. -/
theorem sees_created_boxes {broker : LockedBroker (Fin params.maxSessions)}
    (reachable : (looksAtFilledSystem params).Reachable broker) : SeesCreatedBoxes broker :=
  (LockedBroker.reachable_boxesShown reachable).seesCreatedBoxes

/-- A publisher finds a box that was filled. -/
theorem sees_created_boxes_boxA :
    ∃ broker : LockedBroker (Fin twoSessions.maxSessions),
      ((broker.workers workerB).found?.map FoundBox.boxName = some (rootPath boxA)) ∧
        SeesCreatedBoxes broker := by
  obtain ⟨fs, f, _, model, files, taken⟩ := exists_takenBox (fun _ => ⟨boxA, 0, 0, 0⟩)
  obtain ⟨counted, filled⟩ := LockedBroker.reaches_create taken (.fills rfl)
  obtain ⟨broker, scanning, server, atPoint, others⟩ :=
    LockedBroker.reaches_search filled (workerB_idle _) boxA
  have found : broker.server.boxFind (rootPath boxA) = some 0 := by
    rw [server]
    refine boxFind_first files ?_ rfl
    exact firstBoxServer_isTaken fs (fun _ => ⟨boxA, 0, 0, 0⟩) (rootPath boxA)
  have noFiller : ¬ broker.Filling 0 := by
    rintro ⟨worker, name, fills⟩
    by_cases scans : worker = workerB
    · rw [scans, atPoint] at fills
      cases fills
    · rw [others worker scans] at fills
      rw [Function.update_apply] at fills
      split at fills <;> cases fills
  have looks : LooksAtFilled broker workerB := by
    constructor
    · intro boxName boxI _ first filling
      by_cases zero : boxI = 0
      · subst zero
        exact noFiller filling
      · have taken := first.1
        unfold Server.IsTaken at taken
        rw [server] at taken
        have free : Function.update (fun _ => AllocationState.free) 0 .taken boxI = .taken := taken
        rw [Function.update_of_ne zero] at free
        cases free
    · intro state lists
      rw [atPoint] at lists
      cases lists
  have left := scanning.step
    ⟨.publisher atPoint (.leaves rfl (.found found) (fun impossible => impossible)), looks⟩
  refine ⟨_, ?_, sees_created_boxes left⟩
  simp only [Function.update_self]
  rfl

/-- A publisher finds the name that `malloc` left in a slot, which is taken and not filled. -/
theorem sees_created_boxes_unfilled :
    ∃ broker, (lockedSystem twoSessions).Reachable broker ∧ ¬ SeesCreatedBoxes broker := by
  obtain ⟨fs, f, counted, model, files, taken⟩ := exists_takenBox (fun _ => ⟨rootPath boxB, 0, 0, 0⟩)
  obtain ⟨broker, scanning, server, atPoint, _⟩ :=
    LockedBroker.reaches_search taken (workerB_idle _) boxB
  have found : broker.server.boxFind (rootPath boxB) = some 0 := by
    rw [server]
    refine boxFind_first files ?_ rfl
    exact Server.takeBox_isTaken _ _ _
  have left := scanning.of_restrict.step
    (.publisher atPoint (.leaves rfl (.found found) (fun impossible => impossible)))
  refine ⟨_, left, ?_⟩
  intro sees
  have occupied := sees.finds workerB (broker.server.foundBox (rootPath boxB) 0) (by
    simp only [Function.update_self]
    rfl)
  have named := occupied.named
  change broker.server.occupantName 0 = rootPath boxB at named
  rw [server] at named
  have same : rootPath boxA = rootPath boxB := named
  exact absurd same (by decide)

end TecnicoFS.Mbroker
