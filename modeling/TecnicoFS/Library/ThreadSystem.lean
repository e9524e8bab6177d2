/-
Systems of threads that take atomic steps in any order.

A state is reachable when some interleaving of steps leads to it.  A property that
holds initially and is kept by every step of every thread holds in every reachable
state; a system may be restricted to the steps that meet a condition.  A schedule computes
one interleaving.
-/

import Mathlib.Logic.Function.Basic

set_option autoImplicit false

/-- Initial states and the atomic steps of each thread -/
structure ThreadSystem (Thread State : Type) where
  initial : State → Prop
  step : Thread → State → State → Prop

namespace ThreadSystem

variable {Thread State : Type} {system : ThreadSystem Thread State}

/-- The states some interleaving leads to -/
inductive Reachable (system : ThreadSystem Thread State) : State → Prop where
  | initial {state : State} : system.initial state → Reachable system state
  | step {state state' : State} {thread : Thread} : Reachable system state →
      system.step thread state state' → Reachable system state'

theorem Reachable.preserves {property : State → Prop} {state : State}
    (reachable : Reachable system state)
    (start : ∀ state, system.initial state → property state)
    (kept : ∀ thread before after, property before → system.step thread before after →
      property after) : property state := by
  induction reachable with
  | initial first => exact start _ first
  | step _ taken inductionHypothesis => exact kept _ _ _ inductionHypothesis taken

/-- The preservation proof may use what is already known of every reachable state. -/
theorem Reachable.preserves_with {known property : State → Prop} {state : State}
    (reachable : Reachable system state)
    (fact : ∀ state, Reachable system state → known state)
    (start : ∀ state, system.initial state → property state)
    (kept : ∀ thread before after, known before → property before →
      system.step thread before after → property after) : property state := by
  induction reachable with
  | initial first => exact start _ first
  | step before taken inductionHypothesis =>
      exact kept _ _ _ (fact _ before) inductionHypothesis taken

/-- The system limited to the steps that meet a condition -/
def restrict (system : ThreadSystem Thread State) (permitted : Thread → State → State → Prop) :
    ThreadSystem Thread State where
  initial := system.initial
  step thread state state' := system.step thread state state' ∧ permitted thread state state'

theorem Reachable.of_restrict {permitted : Thread → State → State → Prop} {state : State}
    (reachable : Reachable (system.restrict permitted) state) : Reachable system state := by
  induction reachable with
  | initial first => exact .initial first
  | step _ taken inductionHypothesis => exact .step inductionHypothesis taken.1

/-! ### Schedules -/

variable {Move : Type}

/-- The state after a list of moves, each by the thread named beside it -/
def run (move : Thread → Move → State → Option State) (schedule : List (Thread × Move))
    (state : State) : Option State :=
  schedule.foldlM (fun state turn => move turn.1 turn.2 state) state

/-- A schedule whose moves are steps leads from a reachable state to a reachable state. -/
theorem Reachable.run {move : Thread → Move → State → Option State}
    (isStep : ∀ thread choice before after, move thread choice before = some after →
      system.step thread before after)
    {schedule : List (Thread × Move)} {before after : State} (reachable : Reachable system before)
    (ran : ThreadSystem.run move schedule before = some after) : Reachable system after := by
  unfold ThreadSystem.run at ran
  induction schedule generalizing before with
  | nil =>
      cases ran
      exact reachable
  | cons turn rest inductionHypothesis =>
      rw [List.foldlM_cons] at ran
      obtain ⟨between, moved, ran⟩ := Option.bind_eq_some_iff.mp ran
      exact inductionHypothesis (.step reachable (isStep _ _ _ _ moved)) ran

end ThreadSystem
