/-
Runs that come to an end.

Every step lowers a measure, so a run takes no more steps than the measure of its first state.
A measure may be the sum of what each thread has left.
-/

import Mathlib.Algebra.Order.BigOperators.Group.Finset
import TecnicoFS.Library.ThreadSystem

set_option autoImplicit false

namespace ThreadSystem

variable {Thread State : Type} {system : ThreadSystem Thread State} {start state : State}
  {count : Nat}

/-- So many steps lead to the state. -/
inductive Takes (system : ThreadSystem Thread State) (start : State) : Nat → State → Prop where
  | start : Takes system start 0 start
  | step {count : Nat} {state state' : State} {thread : Thread} : Takes system start count state →
      system.step thread state state' → Takes system start (count + 1) state'

theorem Takes.preserves {property : State → Prop} (takes : Takes system start count state)
    (holds : property start)
    (kept : ∀ thread before after, property before → system.step thread before after →
      property after) : property state := by
  induction takes with
  | start => exact holds
  | step _ taken inductionHypothesis => exact kept _ _ _ inductionHypothesis taken

/-- A measure that every step lowers pays for the steps. -/
theorem Takes.bounded {known : State → Prop} {measure : State → Nat}
    (takes : Takes system start count state) (holds : known start)
    (kept : ∀ thread before after, known before → system.step thread before after → known after)
    (lowers : ∀ thread before after, known before → system.step thread before after →
      measure after < measure before) : count + measure state ≤ measure start := by
  induction takes with
  | start => omega
  | step before taken inductionHypothesis =>
      have lower := lowers _ _ _ (before.preserves holds kept) taken
      omega

/-- One thread has less left, the others what they had. -/
theorem sum_lowered [Fintype Thread] {before after : Thread → Nat} {thread : Thread}
    (lower : after thread < before thread)
    (others : ∀ other, other ≠ thread → after other = before other) :
    ∑ other, after other < ∑ other, before other := by
  apply Finset.sum_lt_sum
  · intro other _
    by_cases same : other = thread
    · rw [same]
      exact lower.le
    · exact (others other same).le
  · exact ⟨thread, Finset.mem_univ thread, lower⟩

end ThreadSystem
