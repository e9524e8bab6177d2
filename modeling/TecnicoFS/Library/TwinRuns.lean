/-
Two runs of state-passing computations compared with each other.

`Twins` says that two runs either return the same value, in states that satisfy a
relation, or stop in the same fault.  The rules follow the shape of the computation
as the rules of `Outcome` do; `Twins.known` adds what is known of the left run alone.
-/

import TecnicoFS.Library.FaultAction

set_option autoImplicit false

namespace FaultAction

variable {σ ε α β : Type}

/-- Both runs return one value in related states, or both stop in one fault. -/
def Twins (left right : Except ε (α × σ)) (post : α → σ → σ → Prop) : Prop :=
  match left, right with
  | .ok (value, state), .ok (other, state') => other = value ∧ post value state state'
  | .error fault, .error other => other = fault
  | _, _ => False

variable {post : α → σ → σ → Prop}

/-! ### Consequences -/

/-- What the left run returns, the right run returns. -/
theorem Twins.of_ok {left right : Except ε (α × σ)} {value : α} {state : σ}
    (twins : Twins left right post) (returned : left = .ok (value, state)) :
    ∃ state', right = .ok (value, state') ∧ post value state state' := by
  subst returned
  cases right with
  | error fault => exact twins.elim
  | ok pair =>
      obtain ⟨other, state'⟩ := pair
      obtain ⟨same, holds⟩ := twins
      subst same
      exact ⟨state', rfl, holds⟩

theorem Twins.of_error {left right : Except ε (α × σ)} {fault : ε}
    (twins : Twins left right post) (stopped : left = .error fault) : right = .error fault := by
  subst stopped
  cases right with
  | error other => exact congrArg Except.error twins
  | ok pair => exact twins.elim

theorem Twins.mono {left right : Except ε (α × σ)} {post' : α → σ → σ → Prop}
    (twins : Twins left right post)
    (weaker : ∀ value state state', post value state state' → post' value state state') :
    Twins left right post' := by
  cases first : left with
  | ok pair =>
      obtain ⟨state', returned, holds⟩ := twins.of_ok first
      rw [returned]
      exact ⟨rfl, weaker _ _ _ holds⟩
  | error fault =>
      rw [twins.of_error first]
      rfl

/-- A postcondition of the left run alone joins the relation. -/
theorem Twins.known {left right : Except ε (α × σ)} {fact : α → σ → Prop}
    (twins : Twins left right post) (outcome : Outcome (fun _ => True) left fact) :
    Twins left right (fun value state state' => fact value state ∧ post value state state') := by
  cases first : left with
  | ok pair =>
      obtain ⟨state', returned, holds⟩ := twins.of_ok first
      rw [returned]
      exact ⟨rfl, outcome.of_ok first, holds⟩
  | error fault =>
      rw [twins.of_error first]
      rfl

/-! ### Rules -/

theorem twins_pure {value : α} {state state' : σ} (holds : post value state state') :
    Twins ((pure value : FaultAction σ ε α) state) ((pure value : FaultAction σ ε α) state')
      post := ⟨rfl, holds⟩

theorem twins_fail {fault : ε} {state state' : σ} :
    Twins ((fail fault : FaultAction σ ε α) state) ((fail fault : FaultAction σ ε α) state')
      post := rfl

theorem twins_modify {update update' : σ → σ} {state state' : σ} {post : Unit → σ → σ → Prop}
    (holds : post () (update state) (update' state')) :
    Twins ((modify update : FaultAction σ ε Unit) state)
      ((modify update' : FaultAction σ ε Unit) state') post := ⟨rfl, holds⟩

theorem twins_bind {action action' : FaultAction σ ε α} {next next' : α → FaultAction σ ε β}
    {state state' : σ} {middle : α → σ → σ → Prop} {post : β → σ → σ → Prop}
    (first : Twins (action state) (action' state') middle)
    (second : ∀ value after after', middle value after after' →
      Twins (next value after) (next' value after') post) :
    Twins ((action >>= next) state) ((action' >>= next') state') post := by
  rw [bind_apply, bind_apply]
  cases run : action state with
  | ok pair =>
      obtain ⟨after', returned, holds⟩ := first.of_ok run
      rw [returned]
      exact second _ _ _ holds
  | error fault =>
      rw [first.of_error run]
      rfl

theorem twins_get_bind {next next' : σ → FaultAction σ ε β} {state state' : σ}
    {post : β → σ → σ → Prop} (holds : Twins (next state state) (next' state' state') post) :
    Twins ((get >>= next) state) ((get >>= next') state') post := holds

theorem twins_modify_bind {update update' : σ → σ} {next next' : Unit → FaultAction σ ε β}
    {state state' : σ} {post : β → σ → σ → Prop}
    (holds : Twins (next () (update state)) (next' () (update' state')) post) :
    Twins ((modify update >>= next) state) ((modify update' >>= next') state') post := holds

theorem twins_require_bind {condition condition' : Prop} [Decidable condition]
    [Decidable condition'] {fault : ε} {next next' : Unit → FaultAction σ ε β} {state state' : σ}
    {post : β → σ → σ → Prop} (same : condition' ↔ condition)
    (met : condition → Twins (next () state) (next' () state') post) :
    Twins ((require condition fault >>= next) state) ((require condition' fault >>= next') state')
      post := by
  unfold require
  by_cases holds : condition
  · rw [if_pos holds, if_pos (same.mpr holds)]
    exact met holds
  · rw [if_neg holds, if_neg (fun other => holds (same.mp other))]
    rfl

theorem twins_ite {condition condition' : Prop} [Decidable condition] [Decidable condition']
    {first second first' second' : FaultAction σ ε α} {state state' : σ}
    (same : condition' ↔ condition)
    (positive : condition → Twins (first state) (first' state') post)
    (negative : ¬ condition → Twins (second state) (second' state') post) :
    Twins ((if condition then first else second) state)
      ((if condition' then first' else second') state') post := by
  by_cases holds : condition
  · rw [if_pos holds, if_pos (same.mpr holds)]
    exact positive holds
  · rw [if_neg holds, if_neg (fun other => holds (same.mp other))]
    exact negative holds

end FaultAction
