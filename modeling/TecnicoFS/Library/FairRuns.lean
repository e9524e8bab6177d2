/-
Infinite runs of a system of threads and what they lead to.

A run may stay where it is.  It is fair when a thread that is ready at all times from some
moment on takes a step after that moment.  A condition that holds until a ready thread takes its
step leads to what that step brings about, and a measure that comes down again and again leads
to the end.  Fair runs start in every reachable state: the threads take turns.
-/

import TecnicoFS.Library.ThreadSystem

set_option autoImplicit false

namespace ThreadSystem

variable {Thread State : Type} {system : ThreadSystem Thread State}

/-- An infinite run from a reachable state -/
structure Run (system : ThreadSystem Thread State) where
  state : Nat → State
  start : Reachable system (state 0)
  next : ∀ time, state (time + 1) = state time ∨
    ∃ thread, system.step thread (state time) (state (time + 1))

namespace Run

/-- A thread that stays ready takes a step. -/
def Fair (run : Run system) (ready : Thread → State → Prop) : Prop :=
  ∀ thread time, (∀ later, time ≤ later → ready thread (run.state later)) →
    ∃ later, time ≤ later ∧ system.step thread (run.state later) (run.state (later + 1))

/-- Whenever the first condition holds, the last one holds then or later. -/
def Leads (run : Run system) (first last : State → Prop) : Prop :=
  ∀ time, first (run.state time) → ∃ later, time ≤ later ∧ last (run.state later)

variable {run : Run system} {first middle last : State → Prop}
  {ready : Thread → State → Prop}

theorem reachable (run : Run system) (time : Nat) : Reachable system (run.state time) := by
  induction time with
  | zero => exact run.start
  | succ time inductionHypothesis =>
      rcases run.next time with same | ⟨thread, taken⟩
      · rw [same]
        exact inductionHypothesis
      · exact inductionHypothesis.step taken

theorem Leads.trans (before : run.Leads first middle) (after : run.Leads middle last) :
    run.Leads first last := by
  intro time holds
  obtain ⟨between, inOrder, holds'⟩ := before time holds
  obtain ⟨later, inOrder', ends⟩ := after between holds'
  exact ⟨later, Nat.le_trans inOrder inOrder', ends⟩

theorem leads_self (run : Run system) (first : State → Prop) : run.Leads first first :=
  fun time holds => ⟨time, Nat.le_refl time, holds⟩

/-- Both of two cases lead to the end. -/
theorem Leads.cases {first' : State → Prop} (left : run.Leads first last)
    (right : run.Leads first' last) : run.Leads (fun state => first state ∨ first' state) last := by
  intro time holds
  rcases holds with holds | holds
  · exact left time holds
  · exact right time holds

/-- A condition that the steps keep, unless they lead to the end, still holds when something
that recurs happens again. -/
theorem leads_recurring (event : State → Prop)
    (recurs : ∀ time, ∃ later, time ≤ later ∧ event (run.state later))
    (keeps : ∀ thread before after, Reachable system before → first before →
      system.step thread before after → first after ∨ last after) :
    run.Leads first (fun state => (first state ∧ event state) ∨ last state) := by
  intro time holds
  have keptUntil (passed : Nat) : first (run.state (time + passed)) ∨
      ∃ later, time ≤ later ∧ last (run.state later) := by
    induction passed with
    | zero => exact Or.inl holds
    | succ passed inductionHypothesis =>
        rcases inductionHypothesis with kept | ended
        · rcases run.next (time + passed) with same | ⟨thread, taken⟩
          · left
            rw [← Nat.add_assoc, same]
            exact kept
          · rcases keeps thread _ _ (run.reachable _) kept taken with kept' | ends
            · exact Or.inl kept'
            · exact Or.inr ⟨time + passed + 1, by omega, ends⟩
        · exact Or.inr ended
  obtain ⟨later, inOrder, happens⟩ := recurs time
  rcases keptUntil (later - time) with kept | ⟨end', inOrder', ends⟩
  · rw [Nat.add_sub_of_le inOrder] at kept
    exact ⟨later, inOrder, Or.inl ⟨kept, happens⟩⟩
  · exact ⟨end', inOrder', Or.inr ends⟩

/-- What a step keeps while something stays true holds for ever if that stays true for ever. -/
theorem holds_while (run : Run system) (kept event : State → Prop) {time : Nat}
    (stays : ∀ later, time ≤ later → event (run.state later))
    (keeps : ∀ thread before after, Reachable system before → kept before →
      system.step thread before after → event after → kept after)
    (holds : kept (run.state time)) (later : Nat) (inOrder : time ≤ later) :
    kept (run.state later) := by
  induction inOrder with
  | refl => exact holds
  | @step later inOrder inductionHypothesis =>
      rcases run.next later with same | ⟨thread, taken⟩
      · rw [same]
        exact inductionHypothesis
      · exact keeps thread _ _ (run.reachable _) inductionHypothesis taken
          (stays _ (Nat.le_succ_of_le inOrder))

/-- A condition that the steps of the other threads keep, unless they lead to the end, holds
until the step of a thread that is ready. -/
theorem Fair.leads (fair : run.Fair ready) (thread : Thread)
    (isReady : ∀ state, Reachable system state → first state → ready thread state)
    (keeps : ∀ other before after, other ≠ thread → Reachable system before → first before →
      system.step other before after → first after ∨ last after)
    (helps : ∀ before after, Reachable system before → first before →
      system.step thread before after → last after) : run.Leads first last := by
  intro time holds
  by_contra never
  have notYet : ∀ later, time ≤ later → ¬ last (run.state later) :=
    fun later inOrder ends => never ⟨later, inOrder, ends⟩
  have stays : ∀ passed, first (run.state (time + passed)) := by
    intro passed
    induction passed with
    | zero => exact holds
    | succ passed inductionHypothesis =>
        rcases run.next (time + passed) with same | ⟨other, taken⟩
        · rw [← Nat.add_assoc, same]
          exact inductionHypothesis
        · by_cases own : other = thread
          · rw [own] at taken
            exact (notYet _ (by omega) (helps _ _ (run.reachable _) inductionHypothesis taken)).elim
          · rcases keeps other _ _ own (run.reachable _) inductionHypothesis taken with kept | ends
            · exact kept
            · exact (notYet _ (by omega) ends).elim
  have holdsAt (later : Nat) (inOrder : time ≤ later) : first (run.state later) := by
    rw [← Nat.add_sub_of_le inOrder]
    exact stays _
  obtain ⟨later, inOrder, taken⟩ := fair thread time (fun later inOrder =>
    isReady _ (run.reachable later) (holdsAt later inOrder))
  exact notYet (later + 1) (by omega)
    (helps _ _ (run.reachable later) (holdsAt later inOrder) taken)

/-- A measure that comes down as long as the end is not reached -/
theorem Leads.descends (measure : State → Nat)
    (lower : ∀ bound, run.Leads (fun state => first state ∧ measure state = bound)
      (fun state => (first state ∧ measure state < bound) ∨ last state)) :
    run.Leads first last := by
  intro time holds
  induction same : measure (run.state time) using Nat.strongRecOn generalizing time with
  | ind bound inductionHypothesis =>
      obtain ⟨later, inOrder, ⟨holds', less⟩ | ends⟩ := lower bound time ⟨holds, same⟩
      · obtain ⟨last', inOrder', ends⟩ := inductionHypothesis _ less later holds' rfl
        exact ⟨last', Nat.le_trans inOrder inOrder', ends⟩
      · exact ⟨later, inOrder, ends⟩

end Run

/-! ### Taking turns -/

/-- The thread takes a step, or it cannot. -/
def TakesTurn (system : ThreadSystem Thread State) (thread : Thread) (state state' : State) :
    Prop :=
  system.step thread state state' ∨ (state' = state ∧ ∀ other, ¬ system.step thread state other)

theorem exists_takesTurn (system : ThreadSystem Thread State) (thread : Thread) (state : State) :
    ∃ state', system.TakesTurn thread state state' := by
  by_cases enabled : ∃ state', system.step thread state state'
  · obtain ⟨state', taken⟩ := enabled
    exact ⟨state', Or.inl taken⟩
  · exact ⟨state, Or.inr ⟨rfl, fun other taken => enabled ⟨other, taken⟩⟩⟩

/-- The states of the threads that take turns -/
noncomputable def turns (system : ThreadSystem Thread State) (turn : Nat → Thread)
    (state : State) : Nat → State
  | 0 => state
  | time + 1 => (system.exists_takesTurn (turn time) (system.turns turn state time)).choose

theorem turns_next (system : ThreadSystem Thread State) (turn : Nat → Thread) (state : State)
    (time : Nat) : system.TakesTurn (turn time) (system.turns turn state time)
      (system.turns turn state (time + 1)) :=
  (system.exists_takesTurn (turn time) (system.turns turn state time)).choose_spec

/-- A fair run starts in every reachable state. -/
theorem Reachable.exists_fairRun {ready : Thread → State → Prop} {state : State}
    (reachable : Reachable system state) (turn : Nat → Thread)
    (recurs : ∀ thread state time, ready thread state →
      ∃ later, time ≤ later ∧ turn later = thread)
    (enabled : ∀ thread state, ready thread state → ∃ state', system.step thread state state') :
    ∃ run : Run system, run.state 0 = state ∧ run.Fair ready := by
  refine ⟨⟨system.turns turn state, reachable, ?_⟩, rfl, ?_⟩
  · intro time
    rcases system.turns_next turn state time with taken | ⟨same, _⟩
    · exact Or.inr ⟨turn time, taken⟩
    · exact Or.inl same
  · intro thread time stays
    obtain ⟨later, inOrder, own⟩ := recurs thread _ time (stays time (Nat.le_refl time))
    refine ⟨later, inOrder, ?_⟩
    rcases system.turns_next turn state later with taken | ⟨_, disabled⟩
    · rw [own] at taken
      exact taken
    · obtain ⟨other, taken⟩ := enabled thread _ (stays later inOrder)
      rw [own] at disabled
      exact (disabled other taken).elim

/-- Threads of a list that take turns make a fair run, if only they are ever ready. -/
theorem Reachable.exists_roundRobin {ready : Thread → State → Prop} {state : State}
    (reachable : Reachable system state) (first : Thread) (others : List Thread)
    (listed : ∀ thread state, ready thread state → thread ∈ first :: others)
    (enabled : ∀ thread state, ready thread state → ∃ state', system.step thread state state') :
    ∃ run : Run system, run.state 0 = state ∧ run.Fair ready := by
  have positive : 0 < (first :: others).length := Nat.succ_pos _
  apply reachable.exists_fairRun (fun time =>
    (first :: others).get ⟨time % (first :: others).length, Nat.mod_lt time positive⟩)
  · intro thread state time isReady
    obtain ⟨place, here⟩ := List.get_of_mem (listed thread state isReady)
    refine ⟨(first :: others).length * time + place, ?_, ?_⟩
    · have many := Nat.le_mul_of_pos_left time positive
      omega
    · rw [← here]
      apply congrArg
      apply Fin.ext
      change ((first :: others).length * time + place) % (first :: others).length = place
      rw [Nat.mul_add_mod, Nat.mod_eq_of_lt place.isLt]
  · exact enabled

end ThreadSystem
