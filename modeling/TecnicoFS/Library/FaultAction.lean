/-
State-passing computations that finish with a value or stop in a fault.

`Outcome` is the postcondition of one run: a finished run satisfies the
postcondition and a stopped run stops in one of the admitted faults.  Proofs about
a composed computation follow its shape with the rules below and never unfold the
computations they cite.
-/

set_option autoImplicit false

/-- A composition that succeeds does so in both of its parts. -/
theorem Except.bind_eq_ok_iff {ε α β : Type} {first : Except ε α} {next : α → Except ε β}
    {result : β} :
    (first >>= next) = .ok result ↔ ∃ value, first = .ok value ∧ next value = .ok result := by
  cases first with
  | error fault =>
      constructor
      · intro impossible
        cases impossible
      · rintro ⟨_, impossible, _⟩
        cases impossible
  | ok value =>
      constructor
      · intro returned
        exact ⟨value, rfl, returned⟩
      · rintro ⟨_, same, returned⟩
        cases same
        exact returned

/-- A computation over the state `σ` that returns an `α` or stops in a fault `ε`. -/
def FaultAction (σ ε α : Type) : Type := σ → Except ε (α × σ)

namespace FaultAction

variable {σ ε α β : Type}

/-- The run returns a value and a state that pass the test. -/
def returnsWith (returned : Except ε (α × σ)) (test : α → σ → Bool) : Bool :=
  match returned with
  | .ok (value, state) => test value state
  | .error _ => false

theorem of_returnsWith {returned : Except ε (α × σ)} {test : α → σ → Bool}
    (passed : returnsWith returned test = true) :
    ∃ value state, returned = .ok (value, state) ∧ test value state = true := by
  cases returned with
  | error fault => cases passed
  | ok pair =>
      obtain ⟨value, state⟩ := pair
      exact ⟨value, state, rfl, passed⟩

instance : Monad (FaultAction σ ε) where
  pure value := fun state => .ok (value, state)
  bind action next := fun state =>
    match action state with
    | .ok (value, state') => next value state'
    | .error fault => .error fault

def get : FaultAction σ ε σ := fun state => .ok (state, state)

def modify (update : σ → σ) : FaultAction σ ε Unit := fun state => .ok ((), update state)

def fail (fault : ε) : FaultAction σ ε α := fun _ => .error fault

/-- Continue only when the condition holds. -/
def require (condition : Prop) [Decidable condition] (fault : ε) : FaultAction σ ε Unit :=
  if condition then pure () else fail fault

/-- The run returned and satisfies `post`, or it stopped in an admitted fault. -/
def Outcome (faults : ε → Prop) (run : Except ε (α × σ)) (post : α → σ → Prop) : Prop :=
  match run with
  | .ok (value, state) => post value state
  | .error fault => faults fault

variable {faults : ε → Prop} {post : α → σ → Prop}

theorem pure_apply (value : α) (state : σ) :
    (pure value : FaultAction σ ε α) state = .ok (value, state) := rfl

theorem get_apply (state : σ) : (get : FaultAction σ ε σ) state = .ok (state, state) := rfl

theorem modify_apply (update : σ → σ) (state : σ) :
    (modify update : FaultAction σ ε Unit) state = .ok ((), update state) := rfl

theorem bind_apply (action : FaultAction σ ε α) (next : α → FaultAction σ ε β) (state : σ) :
    (action >>= next) state =
      match action state with
      | .ok (value, state') => next value state'
      | .error fault => .error fault := rfl

theorem bind_of_ok {action : FaultAction σ ε α} {next : α → FaultAction σ ε β} {state state' : σ}
    {value : α} (returned : action state = .ok (value, state')) :
    (action >>= next) state = next value state' := by
  rw [bind_apply, returned]

theorem bind_of_error {action : FaultAction σ ε α} {next : α → FaultAction σ ε β} {state : σ}
    {fault : ε} (stopped : action state = .error fault) :
    (action >>= next) state = .error fault := by
  rw [bind_apply, stopped]

/-- A composed run returns exactly when both of its parts return. -/
theorem bind_eq_ok {action : FaultAction σ ε α} {next : α → FaultAction σ ε β}
    {state : σ} {result : β × σ} :
    (action >>= next) state = .ok result ↔
      ∃ value state', action state = .ok (value, state') ∧ next value state' = .ok result := by
  rw [bind_apply]
  cases action state with
  | ok pair =>
      obtain ⟨value, state'⟩ := pair
      constructor
      · intro returned
        exact ⟨value, state', rfl, returned⟩
      · rintro ⟨_, _, same, returned⟩
        cases same
        exact returned
  | error fault =>
      constructor
      · intro impossible
        cases impossible
      · rintro ⟨_, _, impossible, _⟩
        cases impossible

theorem returns_of_any {run : Except ε (α × σ)} {test : α → σ → Bool}
    (holds : run.toOption.any (fun returned => test returned.1 returned.2) = true) :
    ∃ value state, run = .ok (value, state) ∧ test value state = true := by
  cases run with
  | ok pair => exact ⟨pair.1, pair.2, rfl, holds⟩
  | error fault => cases holds

/-! ### Rules of outcomes -/

theorem Outcome.of_ok {run : Except ε (α × σ)} {value : α} {state : σ}
    (holds : Outcome faults run post) (returned : run = .ok (value, state)) :
    post value state := by
  subst returned
  exact holds

theorem Outcome.of_error {run : Except ε (α × σ)} {fault : ε}
    (holds : Outcome faults run post) (stopped : run = .error fault) : faults fault := by
  subst stopped
  exact holds

/-- A run none of whose faults is admitted returns. -/
theorem Outcome.returns {run : Except ε (α × σ)}
    (holds : Outcome (fun _ => False) run post) :
    ∃ value state, run = .ok (value, state) ∧ post value state := by
  cases run with
  | ok pair => exact ⟨pair.1, pair.2, rfl, holds⟩
  | error fault => exact holds.elim

theorem Outcome.mono {run : Except ε (α × σ)} {post' : α → σ → Prop}
    (holds : Outcome faults run post)
    (weaker : ∀ value state, post value state → post' value state) :
    Outcome faults run post' := by
  cases run with
  | ok pair => exact weaker pair.1 pair.2 holds
  | error fault => exact holds

theorem outcome_pure {value : α} {state : σ} (holds : post value state) :
    Outcome faults ((pure value : FaultAction σ ε α) state) post := holds

theorem outcome_fail {fault : ε} {state : σ} (admitted : faults fault) :
    Outcome faults ((fail fault : FaultAction σ ε α) state) post := admitted

theorem outcome_modify {update : σ → σ} {state : σ} {post : Unit → σ → Prop}
    (holds : post () (update state)) :
    Outcome faults ((modify update : FaultAction σ ε Unit) state) post := holds

theorem outcome_bind {action : FaultAction σ ε α} {next : α → FaultAction σ ε β}
    {state : σ} {middle : α → σ → Prop} {post : β → σ → Prop}
    (first : Outcome faults (action state) middle)
    (second : ∀ value state', middle value state' →
      Outcome faults (next value state') post) :
    Outcome faults ((action >>= next) state) post := by
  rw [bind_apply]
  cases run : action state with
  | ok pair =>
      rw [run] at first
      exact second pair.1 pair.2 first
  | error fault =>
      rw [run] at first
      exact first

theorem outcome_get_bind {next : σ → FaultAction σ ε β} {state : σ} {post : β → σ → Prop}
    (holds : Outcome faults (next state state) post) :
    Outcome faults ((get >>= next) state) post := holds

theorem outcome_modify_bind {update : σ → σ} {next : Unit → FaultAction σ ε β} {state : σ}
    {post : β → σ → Prop} (holds : Outcome faults (next () (update state)) post) :
    Outcome faults ((modify update >>= next) state) post := holds

theorem outcome_require_bind {condition : Prop} [Decidable condition] {fault : ε}
    {next : Unit → FaultAction σ ε β} {state : σ} {post : β → σ → Prop}
    (met : condition → Outcome faults (next () state) post)
    (unmet : ¬ condition → faults fault) :
    Outcome faults ((require condition fault >>= next) state) post := by
  by_cases holds : condition
  · unfold require
    rw [if_pos holds]
    exact met holds
  · unfold require
    rw [if_neg holds]
    exact unmet holds

theorem outcome_ite {condition : Prop} [Decidable condition] {first second : FaultAction σ ε α}
    {state : σ} (positive : condition → Outcome faults (first state) post)
    (negative : ¬ condition → Outcome faults (second state) post) :
    Outcome faults ((if condition then first else second) state) post := by
  by_cases holds : condition
  · rw [if_pos holds]
    exact positive holds
  · rw [if_neg holds]
    exact negative holds

end FaultAction
