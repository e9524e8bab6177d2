/-
Refinement of one system of threads by another one.

A function forgets what the abstract system does not have.  Every step of the concrete system
from a reachable state is then a step of the abstract one, of whichever thread, or is not seen
there.  Where the concrete state does not determine the abstract one, a relation takes the place
of the function.
-/

import TecnicoFS.Library.ThreadSystem

set_option autoImplicit false

namespace ThreadSystem

variable {Thread State Thread' State' : Type}

/-- The step is a step of some thread of the abstract system, or leaves it where it is. -/
def Matches (abstract : ThreadSystem Thread' State') (state state' : State') : Prop :=
  state' = state ∨ ∃ thread, abstract.step thread state state'

/-- The concrete system refines the abstract one. -/
structure Refines (concrete : ThreadSystem Thread State) (abstract : ThreadSystem Thread' State')
    (abstraction : State → State') : Prop where
  initial : ∀ state, concrete.initial state → abstract.initial (abstraction state)
  step : ∀ thread state state', Reachable concrete state → concrete.step thread state state' →
    abstract.Matches (abstraction state) (abstraction state')

variable {concrete : ThreadSystem Thread State} {abstract : ThreadSystem Thread' State'}
  {abstraction : State → State'}

theorem Reachable.matches {state state' : State'} (reachable : Reachable abstract state)
    (matched : abstract.Matches state state') : Reachable abstract state' := by
  rcases matched with same | ⟨thread, taken⟩
  · rw [same]
    exact reachable
  · exact reachable.step taken

/-- What a reachable state is seen as is reachable. -/
theorem Refines.reachable (refines : Refines concrete abstract abstraction) {state : State}
    (reached : Reachable concrete state) : Reachable abstract (abstraction state) := by
  induction reached with
  | initial first => exact .initial (refines.initial _ first)
  | step before taken inductionHypothesis =>
      exact inductionHypothesis.matches (refines.step _ _ _ before taken)

/-- The abstract system can follow the concrete one from related states. -/
structure Simulates (concrete : ThreadSystem Thread State) (abstract : ThreadSystem Thread' State')
    (related : State → State' → Prop) : Prop where
  initial : ∀ state, concrete.initial state → ∃ state', abstract.initial state' ∧
    related state state'
  step : ∀ thread before after before', Reachable abstract before' → related before before' →
    concrete.step thread before after →
    ∃ after', abstract.Matches before' after' ∧ related after after'

/-- A reachable state is related to a reachable one. -/
theorem Simulates.reachable {related : State → State' → Prop}
    (simulates : Simulates concrete abstract related) {state : State}
    (reached : Reachable concrete state) :
    ∃ state', Reachable abstract state' ∧ related state state' := by
  induction reached with
  | initial first =>
      obtain ⟨state', start, relates⟩ := simulates.initial _ first
      exact ⟨state', .initial start, relates⟩
  | step _ taken inductionHypothesis =>
      obtain ⟨before', reachable, relates⟩ := inductionHypothesis
      obtain ⟨after', matched, relates'⟩ := simulates.step _ _ _ _ reachable relates taken
      exact ⟨after', reachable.matches matched, relates'⟩

end ThreadSystem
