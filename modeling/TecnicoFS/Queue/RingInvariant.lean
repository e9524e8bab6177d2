/-
The buffer of the queue against the history of its critical sections.

While a thread owns `pcq_current_size_lock`, its phase says what it has already done to
the buffer.  When nobody owns it, the buffer holds what the history leaves.
-/

import TecnicoFS.Queue.MutualExclusion

set_option autoImplicit false

namespace TecnicoFS.Queue

open CircularBuffer

variable {Thread α : Type} {queue queue' : PcQueue Thread α} {elements : List α} {elem : α}

/-! ### The phases of a critical section -/

/-- The buffer with its positions -/
structure Ring (α : Type) where
  buffer : Nat → α
  capacity : Nat
  size : Nat
  head : Nat
  tail : Nat

def PcQueue.ring (queue : PcQueue Thread α) : Ring α where
  buffer := queue.pcqBuffer
  capacity := queue.pcqCapacity
  size := queue.pcqCurrentSize
  head := queue.pcqHead
  tail := queue.pcqTail

namespace Ring

variable {ring : Ring α}

def contents (ring : Ring α) (size : Nat) : List α :=
  CircularBuffer.contents ring.capacity ring.buffer ring.head size

/-- The ring between two critical sections -/
structure Resting (ring : Ring α) (elements : List α) : Prop where
  head : ring.head < ring.capacity
  tail : ring.tail = (ring.head + ring.size) % ring.capacity
  cells : ring.contents ring.size = elements

/-- The element of an enqueue is behind the others and the tail behind it. -/
structure TailMoved (ring : Ring α) (elem : α) (elements : List α) : Prop where
  head : ring.head < ring.capacity
  tail : ring.tail = (ring.head + (ring.size + 1)) % ring.capacity
  cells : ring.contents ring.size = elements
  last : ring.contents (ring.size + 1) = elements ++ [elem]

/-- The head is behind the element of a dequeue. -/
structure HeadMoved (ring : Ring α) (elem : α) (elements : List α) : Prop where
  positive : 0 < ring.size
  head : ring.head < ring.capacity
  tail : ring.tail = (ring.head + (ring.size - 1)) % ring.capacity
  cells : elem :: ring.contents (ring.size - 1) = elements

/-- What the owner of `pcq_current_size_lock` has done to the ring in its phase -/
def PhaseOk (ring : Ring α) (elem : α) (elements : List α) : Phase → Prop
  | .resting => ring.Resting elements
  | .room => ring.Resting elements ∧ ring.size < ring.capacity
  | .stored => ring.Resting elements ∧ ring.size < ring.capacity ∧ ring.buffer ring.tail = elem
  | .tailMoved => ring.TailMoved elem elements ∧ ring.size < ring.capacity
  | .filled => ring.Resting elements ∧ 0 < ring.size
  | .loaded => ring.Resting elements ∧ 0 < ring.size ∧ ring.buffer ring.head = elem
  | .headMoved => ring.HeadMoved elem elements

theorem Resting.length (resting : ring.Resting elements) : elements.length = ring.size := by
  rw [← resting.cells]
  exact contents_length

theorem TailMoved.length (moved : ring.TailMoved elem elements) :
    elements.length = ring.size := by
  rw [← moved.cells]
  exact contents_length

theorem store_ok (ok : ring.PhaseOk elem elements .room) :
    ({ ring with buffer := Function.update ring.buffer ring.tail elem } : Ring α).PhaseOk elem
      elements .stored := by
  obtain ⟨⟨head, tail, cells⟩, room⟩ := ok
  constructor
  · constructor
    · exact head
    · exact tail
    · unfold contents
      dsimp only
      rw [tail, contents_update room]
      exact cells
  · exact ⟨room, Function.update_self _ _ _⟩

theorem advanceTail_ok (ok : ring.PhaseOk elem elements .stored) :
    ({ ring with tail := (ring.tail + 1) % ring.capacity } : Ring α).PhaseOk elem elements
      .tailMoved := by
  obtain ⟨⟨head, tail, cells⟩, room, stored⟩ := ok
  constructor
  · constructor
    · exact head
    · dsimp only
      rw [tail, Nat.mod_add_mod, Nat.add_assoc]
    · exact cells
    · unfold contents at cells ⊢
      dsimp only
      rw [contents_succ, cells, ← tail, stored]
  · exact room

theorem grow_ok (ok : ring.PhaseOk elem elements .tailMoved) :
    ({ ring with size := ring.size + 1 } : Ring α).PhaseOk elem (elements ++ [elem]) .resting := by
  obtain ⟨⟨head, tail, _, last⟩, _⟩ := ok
  exact ⟨head, tail, last⟩

theorem load_ok (ok : ring.PhaseOk elem elements .filled) :
    ring.PhaseOk (ring.buffer ring.head) elements .loaded := by
  obtain ⟨resting, positive⟩ := ok
  exact ⟨resting, positive, rfl⟩

theorem advanceHead_ok (ok : ring.PhaseOk elem elements .loaded) :
    ({ ring with head := (ring.head + 1) % ring.capacity } : Ring α).PhaseOk elem elements
      .headMoved := by
  obtain ⟨⟨head, tail, cells⟩, positive, loaded⟩ := ok
  constructor
  · exact positive
  · exact Nat.mod_lt _ (Nat.zero_lt_of_lt head)
  · dsimp only
    rw [tail, Nat.mod_add_mod]
    congr 1
    omega
  · unfold contents at cells ⊢
    dsimp only
    rw [← cells, contents_cons positive, Nat.mod_eq_of_lt head, loaded]

theorem shrink_ok (ok : ring.PhaseOk elem elements .headMoved) :
    ∃ rest, elements = elem :: rest ∧
      ({ ring with size := ring.size - 1 } : Ring α).PhaseOk elem rest .resting := by
  obtain ⟨_, head, tail, cells⟩ := ok
  exact ⟨_, cells.symm, head, tail, rfl⟩

end Ring

/-! ### The invariant -/

/-- The elements the queue holds according to its history -/
structure DataOk (queue : PcQueue Thread α) (elements : List α) : Prop where
  history : History queue.pcqCapacity (queue.history.map Prod.snd) elements
  unowned : queue.owner .currentSizeLock = none → queue.ring.Resting elements
  owned : ∀ thread, queue.owner .currentSizeLock = some thread →
    queue.ring.PhaseOk (queue.elem thread) elements (queue.point thread).phase

/-- A step that keeps the ring, the history and the phases keeps the invariant. -/
theorem DataOk.control (ok : DataOk queue elements) (locks : LocksOk queue)
    (locks' : LocksOk queue') (ring : queue'.ring = queue.ring)
    (history : queue'.history = queue.history)
    (phases : ∀ thread, (queue'.point thread).phase = (queue.point thread).phase ∧
      ((queue.point thread).phase = .resting ∨ queue'.elem thread = queue.elem thread)) :
    DataOk queue' elements := by
  have capacity : queue'.pcqCapacity = queue.pcqCapacity := congrArg Ring.capacity ring
  -- Outside the critical section the phase is the resting one.
  have outside (thread : Thread) (notOwner : queue.owner .currentSizeLock ≠ some thread) :
      (queue.point thread).phase = .resting := by
    apply Point.phase_resting
    intro holds
    exact notOwner ((locks _ _).mpr holds)
  have outside' (thread : Thread) (notOwner : queue'.owner .currentSizeLock ≠ some thread) :
      (queue.point thread).phase = .resting := by
    rw [← (phases thread).1]
    apply Point.phase_resting
    intro holds
    exact notOwner ((locks' _ _).mpr holds)
  have resting (settled : ∀ thread, queue.owner .currentSizeLock = some thread →
      (queue.point thread).phase = .resting) : queue.ring.Resting elements := by
    cases owner : queue.owner .currentSizeLock with
    | none => exact ok.unowned owner
    | some thread =>
        have inside := ok.owned thread owner
        rw [settled thread owner] at inside
        exact inside
  constructor
  · rw [capacity, history]
    exact ok.history
  · intro unowned
    rw [ring]
    apply resting
    intro thread _
    apply outside'
    rw [unowned]
    intro impossible
    cases impossible
  · intro thread owned
    rw [ring, (phases thread).1]
    by_cases same : queue.owner .currentSizeLock = some thread
    · rcases (phases thread).2 with rest | elem
      · have inside := ok.owned thread same
        rw [rest] at inside ⊢
        exact inside
      · rw [elem]
        exact ok.owned thread same
    · rw [outside thread same]
      apply resting
      intro other otherOwns
      apply outside'
      rw [owned]
      intro equal
      cases equal
      exact same otherOwns

/-- A step of the owner of `pcq_current_size_lock` -/
theorem DataOk.owner_step {elements' : List α} {thread : Thread}
    (owns : queue'.owner .currentSizeLock = some thread)
    (history : History queue'.pcqCapacity (queue'.history.map Prod.snd) elements')
    (phase : queue'.ring.PhaseOk (queue'.elem thread) elements' (queue'.point thread).phase) :
    DataOk queue' elements' := by
  constructor
  · exact history
  · intro unowned
    rw [owns] at unowned
    cases unowned
  · intro other owned
    rw [owns] at owned
    cases owned
    exact phase

/-! ### One step -/

variable [DecidableEq Thread]

/-- The thread moves on to a point of the same phase. -/
theorem DataOk.goto (ok : DataOk queue elements) (locks : LocksOk queue) {thread : Thread}
    {next : Point} (locks' : LocksOk (queue'.goto thread next))
    (ring : queue'.ring = queue.ring) (history : queue'.history = queue.history)
    (points : ∀ other, queue'.point other = queue.point other)
    (elems : ∀ other, queue'.elem other = queue.elem other)
    (same : next.phase = (queue.point thread).phase) : DataOk (queue'.goto thread next) elements := by
  apply ok.control locks locks' ring history
  intro other
  rw [PcQueue.goto_point, PcQueue.goto_elem]
  by_cases equal : other = thread
  · subst other
    rw [if_pos rfl]
    exact ⟨same, Or.inr (elems thread)⟩
  · rw [if_neg equal, points]
    exact ⟨rfl, Or.inr (elems other)⟩

/-- The thread is between two critical sections and starts a call. -/
theorem DataOk.call (ok : DataOk queue elements) (locks : LocksOk queue) {thread : Thread}
    {elem : α} {next : Point} (isIdle : queue.point thread = .idle)
    (locks' : LocksOk ((queue.setElem thread elem).goto thread next))
    (resting : next.phase = .resting) :
    DataOk ((queue.setElem thread elem).goto thread next) elements := by
  apply ok.control locks locks' rfl rfl
  intro other
  rw [PcQueue.goto_point, PcQueue.goto_elem, PcQueue.setElem_point, PcQueue.setElem_elem]
  by_cases equal : other = thread
  · subst other
    rw [if_pos rfl, isIdle]
    exact ⟨resting, Or.inl rfl⟩
  · rw [if_neg equal, if_neg equal]
    exact ⟨rfl, Or.inr rfl⟩

omit [DecidableEq Thread] in
/-- A thread at a point inside the critical section owns its lock. -/
theorem LocksOk.owns (locks : LocksOk queue) {thread : Thread} {point : Point}
    (atPoint : queue.point thread = point) (inside : .currentSizeLock ∈ point.holds) :
    queue.owner .currentSizeLock = some thread := by
  rw [locks, atPoint]
  exact inside

theorem DataOk.step {thread : Thread} (ok : DataOk queue elements) (locks : LocksOk queue)
    (step : queue.Step thread queue') : ∃ elements', DataOk queue' elements' := by
  have locks' := locks.step step
  have inside {point : Point} (atPoint : queue.point thread = point)
      (holds : .currentSizeLock ∈ point.holds) :
      queue.owner .currentSizeLock = some thread ∧
        queue.ring.PhaseOk (queue.elem thread) elements point.phase := by
    have owns := locks.owns atPoint holds
    have phase := ok.owned thread owns
    rw [atPoint] at phase
    exact ⟨owns, phase⟩
  cases step with
  | callEnqueue elem isIdle => exact ⟨elements, ok.call locks isIdle locks' rfl⟩
  | callDequeue isIdle =>
      refine ⟨elements, ok.goto locks locks' rfl rfl (fun _ => rfl) (fun _ => rfl) ?_⟩
      rw [isIdle]
      rfl
  | lock code _ =>
      exact ⟨elements, ok.goto locks locks' rfl rfl (fun _ => rfl) (fun _ => rfl)
        (Point.code_keeps code).1⟩
  | unlock code =>
      exact ⟨elements, ok.goto locks locks' rfl rfl (fun _ => rfl) (fun _ => rfl)
        (Point.code_keeps code).1⟩
  | wait code =>
      exact ⟨elements, ok.goto locks locks' rfl rfl (fun _ => rfl) (fun _ => rfl)
        (Point.code_keeps code).1⟩
  | @signal condvar next sleeper code isAsleep =>
      obtain ⟨_, _, asleep, woken⟩ := condvar.asleep_facts
      refine ⟨elements, ok.control locks locks' rfl rfl (fun other => ⟨?_, Or.inr ?_⟩)⟩
      · rw [PcQueue.goto_point]
        by_cases same : other = thread
        · subst other
          rw [if_pos rfl]
          exact (Point.code_keeps code).1
        · rw [if_neg same, PcQueue.goto_point]
          by_cases wakes : other = sleeper
          · subst other
            rw [if_pos rfl, isAsleep, asleep, woken]
          · rw [if_neg wakes]
      · rw [PcQueue.goto_elem, PcQueue.goto_elem]
  | signalLost code _ =>
      exact ⟨elements, ok.goto locks locks' rfl rfl (fun _ => rfl) (fun _ => rfl)
        (Point.code_keeps code).1⟩
  | full atPoint _ =>
      refine ⟨elements, ok.goto locks locks' rfl rfl (fun _ => rfl) (fun _ => rfl) ?_⟩
      rw [atPoint]
      rfl
  | notFull atPoint notFull =>
      obtain ⟨owns, resting⟩ := inside atPoint (by decide)
      refine ⟨elements, DataOk.owner_step owns ok.history ?_⟩
      rw [PcQueue.goto_point_self, PcQueue.goto_elem]
      have bounded := ok.history.length_le
      rw [Ring.Resting.length resting] at bounded
      exact ⟨resting, lt_of_le_of_ne bounded notFull⟩
  | store atPoint =>
      obtain ⟨owns, room⟩ := inside atPoint (by decide)
      refine ⟨elements, DataOk.owner_step owns ok.history ?_⟩
      rw [PcQueue.goto_point_self, PcQueue.goto_elem]
      exact Ring.store_ok room
  | advanceTail atPoint =>
      obtain ⟨owns, stored⟩ := inside atPoint (by decide)
      refine ⟨elements, DataOk.owner_step owns ok.history ?_⟩
      rw [PcQueue.goto_point_self, PcQueue.goto_elem]
      exact Ring.advanceTail_ok stored
  | grow atPoint =>
      obtain ⟨owns, tailMoved⟩ := inside atPoint (by decide)
      have room := tailMoved.2
      rw [← tailMoved.1.length] at room
      refine ⟨elements ++ [queue.elem thread], DataOk.owner_step owns ?_ ?_⟩
      · have history := @History.enqueue _ _ _ _ (queue.elem thread) ok.history room
        change History queue.pcqCapacity ((queue.history ++ _).map Prod.snd) _
        rw [List.map_append]
        exact history
      · rw [PcQueue.goto_point_self, PcQueue.goto_elem]
        exact Ring.grow_ok tailMoved
  | finishEnqueue atPoint =>
      refine ⟨elements, ok.goto locks locks' rfl rfl (fun _ => rfl) (fun _ => rfl) ?_⟩
      rw [atPoint]
      rfl
  | empty atPoint _ =>
      refine ⟨elements, ok.goto locks locks' rfl rfl (fun _ => rfl) (fun _ => rfl) ?_⟩
      rw [atPoint]
      rfl
  | notEmpty atPoint notEmpty =>
      obtain ⟨owns, resting⟩ := inside atPoint (by decide)
      refine ⟨elements, DataOk.owner_step owns ok.history ?_⟩
      rw [PcQueue.goto_point_self, PcQueue.goto_elem]
      exact ⟨resting, Nat.pos_of_ne_zero notEmpty⟩
  | load atPoint =>
      obtain ⟨owns, filled⟩ := inside atPoint (by decide)
      refine ⟨elements, DataOk.owner_step owns ok.history ?_⟩
      rw [PcQueue.goto_point_self, PcQueue.goto_elem, PcQueue.setElem_elem, if_pos rfl]
      exact Ring.load_ok filled
  | advanceHead atPoint =>
      obtain ⟨owns, loaded⟩ := inside atPoint (by decide)
      refine ⟨elements, DataOk.owner_step owns ok.history ?_⟩
      rw [PcQueue.goto_point_self, PcQueue.goto_elem]
      exact Ring.advanceHead_ok loaded
  | shrink atPoint =>
      obtain ⟨owns, headMoved⟩ := inside atPoint (by decide)
      obtain ⟨rest, equal, resting⟩ := Ring.shrink_ok headMoved
      refine ⟨rest, DataOk.owner_step owns ?_ ?_⟩
      · have history := ok.history
        rw [equal] at history
        change History queue.pcqCapacity ((queue.history ++ _).map Prod.snd) _
        rw [List.map_append]
        exact history.dequeue
      · rw [PcQueue.goto_point_self, PcQueue.goto_elem]
        exact resting
  | finishDequeue atPoint =>
      refine ⟨elements, ok.goto locks locks' rfl rfl (fun _ => rfl) (fun _ => rfl) ?_⟩
      rw [atPoint]
      rfl

end TecnicoFS.Queue
