/-
Programs seen from the locks they take.

A program locks, unlocks, calls procedures by name and takes branches nobody foresees.
Every procedure has a floor: it takes no lock of a lower rank, and who calls it holds locks
of lower ranks only.  When each body keeps to that and gives back what it took, threads that
run any procedures in any order never wait for each other.
-/

import TecnicoFS.Library.LockOrder
import TecnicoFS.Library.LockTable
import TecnicoFS.Library.ThreadSystem

set_option autoImplicit false

inductive LockProgram (Lock Procedure : Type) where
  | done
  | lock (lock : Lock) (mode : LockMode) (next : LockProgram Lock Procedure)
  | unlock (lock : Lock) (next : LockProgram Lock Procedure)
  | call (procedure : Procedure) (next : LockProgram Lock Procedure)
  | branch (cases : Nat → LockProgram Lock Procedure)

namespace LockProgram

variable {Lock Procedure Thread : Type}

/-- One program after another -/
def seq : LockProgram Lock Procedure → LockProgram Lock Procedure → LockProgram Lock Procedure
  | .done, after => after
  | .lock place mode next, after => .lock place mode (next.seq after)
  | .unlock place next, after => .unlock place (next.seq after)
  | .call procedure next, after => .call procedure (next.seq after)
  | .branch cases, after => .branch (fun choice => (cases choice).seq after)

/-- A branch with two ways on -/
def either (left right : LockProgram Lock Procedure) : LockProgram Lock Procedure :=
  .branch (fun choice => if choice = 0 then left else right)

variable [DecidableEq Lock]

/-- One step of a thread that runs the program -/
inductive Step [DecidableEq Thread]
    (body : Procedure → LockProgram Lock Procedure) (thread : Thread)
    (table : LockTable Thread Lock) :
    LockProgram Lock Procedure → LockTable Thread Lock → LockProgram Lock Procedure → Prop where
  | locks {lock : Lock} {mode : LockMode} {next : LockProgram Lock Procedure} :
      table.Available lock mode →
      Step body thread table (.lock lock mode next) (table.acquire thread lock mode) next
  | unlocks {lock : Lock} {next : LockProgram Lock Procedure} :
      Step body thread table (.unlock lock next) (table.release thread lock) next
  | calls {procedure : Procedure} {next : LockProgram Lock Procedure} :
      Step body thread table (.call procedure next) table ((body procedure).seq next)
  | takes {cases : Nat → LockProgram Lock Procedure} (choice : Nat) :
      Step body thread table (.branch cases) table (cases choice)

/-! ### Order -/

/-- From the floor on the program takes locks in the order of their ranks, gives back only
what it holds and ends with nothing. -/
def Ordered (rank : Lock → Nat) (floors : Procedure → Nat) (floor : Nat) :
    LockProgram Lock Procedure → List (Lock × LockMode) → Prop
  | .done, held => held = []
  | .lock place mode next, held =>
      floor ≤ rank place ∧ (∀ entry ∈ held, rank entry.1 < rank place) ∧
        Ordered rank floors floor next ((place, mode) :: held)
  | .unlock place next, held =>
      (∃ entry ∈ held, entry.1 = place) ∧
        Ordered rank floors floor next (held.filter (fun entry => entry.1 ≠ place))
  | .call procedure next, held =>
      floor ≤ floors procedure ∧ (∀ entry ∈ held, rank entry.1 < floors procedure) ∧
        Ordered rank floors floor next held
  | .branch cases, held => ∀ choice, Ordered rank floors floor (cases choice) held

variable {rank : Lock → Nat} {floors : Procedure → Nat} {floor outerFloor : Nat}

theorem ordered_either {left right : LockProgram Lock Procedure} {held : List (Lock × LockMode)} :
    Ordered rank floors floor (either left right) held ↔
      Ordered rank floors floor left held ∧ Ordered rank floors floor right held := by
  constructor
  · intro ordered
    exact ⟨ordered 0, ordered 1⟩
  · rintro ⟨orderedLeft, orderedRight⟩ choice
    dsimp only
    split
    · exact orderedLeft
    · exact orderedRight

/-- A body in order under locks below its floor, and the rest of its caller behind it -/
theorem Ordered.seq {program next : LockProgram Lock Procedure}
    {held outer : List (Lock × LockMode)} (ordered : Ordered rank floors floor program held)
    (inside : ∀ entry ∈ held, floor ≤ rank entry.1) (lower : outerFloor ≤ floor)
    (below : ∀ entry ∈ outer, rank entry.1 < floor)
    (after : Ordered rank floors outerFloor next outer) :
    Ordered rank floors outerFloor (program.seq next) (held ++ outer) := by
  induction program generalizing held with
  | done =>
      have nothing : held = [] := ordered
      rw [nothing]
      exact after
  | lock place mode rest inductionHypothesis =>
      obtain ⟨high, above, ordered⟩ := ordered
      refine ⟨lower.trans high, ?_, ?_⟩
      · intro entry member
        rcases List.mem_append.mp member with own | outside
        · exact above entry own
        · exact (below entry outside).trans_le high
      · apply inductionHypothesis ordered
        intro entry member
        rcases List.mem_cons.mp member with newest | earlier
        · rw [newest]
          exact high
        · exact inside entry earlier
  | unlock place rest inductionHypothesis =>
      obtain ⟨⟨entry, member, same⟩, ordered⟩ := ordered
      have apart : outer.filter (fun other => other.1 ≠ place) = outer := by
        apply List.filter_eq_self.mpr
        intro other outside
        have low := below other outside
        have high := inside entry member
        rw [decide_eq_true_eq]
        intro equal
        rw [equal, ← same] at low
        omega
      refine ⟨⟨entry, List.mem_append_left _ member, same⟩, ?_⟩
      rw [List.filter_append, apart]
      apply inductionHypothesis ordered
      intro other kept
      exact inside other (List.mem_filter.mp kept).1
  | call procedure rest inductionHypothesis =>
      obtain ⟨high, above, ordered⟩ := ordered
      refine ⟨lower.trans high, ?_, inductionHypothesis ordered inside⟩
      intro entry member
      rcases List.mem_append.mp member with own | outside
      · exact above entry own
      · exact (below entry outside).trans_le high
  | branch cases inductionHypothesis =>
      intro choice
      exact inductionHypothesis choice (ordered choice) inside

/-- Every body is in order from its floor on. -/
def AllOrdered (rank : Lock → Nat) (floors : Procedure → Nat)
    (body : Procedure → LockProgram Lock Procedure) : Prop :=
  ∀ procedure, Ordered rank floors (floors procedure) (body procedure) []

variable [DecidableEq Thread] {thread : Thread}
  {body : Procedure → LockProgram Lock Procedure} {table table' : LockTable Thread Lock}

/-- A step changes the locks as the program says and leaves a program in order. -/
theorem Step.change {program program' : LockProgram Lock Procedure}
    {held : List (Lock × LockMode)} (step : Step body thread table program table' program')
    (bodies : AllOrdered rank floors body) (ordered : Ordered rank floors 0 program held) :
    ∃ held', table.Change thread held table' held' ∧ Ordered rank floors 0 program' held' := by
  cases step with
  | @locks place mode _ available =>
      refine ⟨(place, mode) :: held, .acquire available ?_, ordered.2.2⟩
      intro entry
      rw [List.mem_cons, or_comm]
  | unlocks =>
      refine ⟨_, .release ?_, ordered.2⟩
      intro entry
      rw [List.mem_filter, decide_eq_true_eq]
  | @calls procedure next =>
      obtain ⟨_, below, ordered⟩ := ordered
      refine ⟨held, .same (fun _ => Iff.rfl), ?_⟩
      apply Ordered.seq (bodies procedure) _ (Nat.zero_le _) below ordered
      intro entry impossible
      cases impossible
  | takes choice => exact ⟨held, .same (fun _ => Iff.rfl), ordered choice⟩

/-! ### Threads -/

/-- The locks with the program of each thread; a thread that is done has returned. -/
structure Threads (Thread Lock Procedure : Type) where
  locks : LockTable Thread Lock
  programs : Thread → LockProgram Lock Procedure

/-- Threads that run the procedures open to them, one after another -/
def threadSystem (Thread : Type) [DecidableEq Thread] (isPublic : Procedure → Prop)
    (body : Procedure → LockProgram Lock Procedure) :
    ThreadSystem Thread (Threads Thread Lock Procedure) where
  initial threads := threads.locks = LockTable.empty ∧ ∀ thread, threads.programs thread = .done
  step thread threads threads' :=
    (∃ procedure, isPublic procedure ∧ threads.programs thread = .done ∧
      threads' = { threads with
        programs := Function.update threads.programs thread (.call procedure .done) }) ∨
    ∃ locks program, Step body thread threads.locks (threads.programs thread) locks program ∧
      threads' = ⟨locks, Function.update threads.programs thread program⟩

namespace Threads

def Holds (threads : Threads Thread Lock Procedure) (thread : Thread) (lock : Lock) : Prop :=
  ∃ mode, threads.locks thread lock = some mode

/-- The thread is stopped at a lock that is held another way. -/
def Waits (threads : Threads Thread Lock Procedure) (thread : Thread) (lock : Lock) : Prop :=
  ∃ mode next, threads.programs thread = .lock lock mode next ∧
    ¬ threads.locks.Available lock mode

/-- A thread that has returned holds no lock, and no threads wait for each other. -/
structure DeadlockFree (threads : Threads Thread Lock Procedure) : Prop where
  returned : ∀ thread, threads.programs thread = .done → ∀ lock, ¬ threads.Holds thread lock
  noDeadlock : ∀ waiting, LockOrder.Deadlocked threads.Holds threads.Waits waiting → waiting = ∅

/-- What the threads hold, each in the order of its program -/
def InOrder (rank : Lock → Nat) (floors : Procedure → Nat)
    (threads : Threads Thread Lock Procedure) : Prop :=
  ∃ held, threads.locks.Matches held ∧
    ∀ thread, Ordered rank floors 0 (threads.programs thread) (held thread)

omit [DecidableEq Thread] in
theorem InOrder.deadlockFree {threads : Threads Thread Lock Procedure}
    (inOrder : threads.InOrder rank floors) {top : Nat} (bounded : ∀ lock, rank lock ≤ top) :
    threads.DeadlockFree := by
  obtain ⟨held, holds, ordered⟩ := inOrder
  constructor
  · rintro thread returned lock ⟨mode, locked⟩
    have nothing := ordered thread
    rw [returned] at nothing
    have member := (holds thread lock mode).mp locked
    rw [show held thread = [] from nothing] at member
    cases member
  · intro waiting deadlocked
    have climbs : LockOrder.Climbs rank threads.Holds threads.Waits := by
      rintro thread low lock ⟨lowMode, locked⟩ ⟨mode, next, atLock, _⟩
      have here := ordered thread
      rw [atLock] at here
      exact here.2.1 (low, lowMode) ((holds thread low lowMode).mp locked)
    exact deadlocked.empty climbs bounded

/-- A thread moves on with the locks its new program says. -/
theorem InOrder.move {threads : Threads Thread Lock Procedure}
    {held : Thread → List (Lock × LockMode)} (holds : threads.locks.Matches held)
    (ordered : ∀ thread, Ordered rank floors 0 (threads.programs thread) (held thread))
    {locks : LockTable Thread Lock} {program : LockProgram Lock Procedure}
    {own : List (Lock × LockMode)} (changed : threads.locks.Change thread (held thread) locks own)
    (next : Ordered rank floors 0 program own) :
    InOrder rank floors ⟨locks, Function.update threads.programs thread program⟩ := by
  refine ⟨Function.update held thread own, ?_, ?_⟩
  · have now : threads.locks.Change thread (held thread) locks
        (Function.update held thread own thread) := by
      rw [Function.update_self]
      exact changed
    apply holds.change now
    intro other different
    exact Function.update_of_ne different _ _
  · intro other
    dsimp only
    by_cases moved : other = thread
    · rw [moved, Function.update_self, Function.update_self]
      exact next
    · rw [Function.update_of_ne moved, Function.update_of_ne moved]
      exact ordered other

/-- Procedures in order keep the threads in order. -/
theorem reachable_inOrder (bodies : AllOrdered rank floors body) {isPublic : Procedure → Prop}
    {threads : Threads Thread Lock Procedure}
    (reachable : (threadSystem Thread isPublic body).Reachable threads) :
    threads.InOrder rank floors := by
  apply reachable.preserves
  · rintro start ⟨unlocked, done⟩
    refine ⟨fun _ => [], ?_, ?_⟩
    · rw [unlocked]
      exact .empty _ (fun _ => rfl)
    · intro thread
      rw [done thread]
      rfl
  · rintro thread before after ⟨held, holds, ordered⟩ (⟨procedure, _, returned, now⟩ |
      ⟨locks, program, step, now⟩)
    · rw [now]
      have nothing := ordered thread
      rw [returned] at nothing
      apply InOrder.move holds ordered (.same (fun _ => Iff.rfl))
      rw [show held thread = [] from nothing]
      refine ⟨Nat.zero_le _, ?_, rfl⟩
      intro entry impossible
      cases impossible
    · rw [now]
      obtain ⟨own, changed, next⟩ := step.change bodies (ordered thread)
      exact InOrder.move holds ordered changed next

end Threads

end LockProgram
