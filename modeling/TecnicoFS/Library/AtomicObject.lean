/-
Objects whose calls take effect at once.

A thread calls, the call takes effect on the state of the object, and the thread gets its
result.  A history of calls and returns is linearizable when such an object can have it: the
calls took effect one after another, each between its invocation and its return.
-/

import TecnicoFS.Library.Refinement

set_option autoImplicit false

/-- What a thread sees of an object -/
inductive ObjectEvent (Thread Call Result : Type) where
  | calls (thread : Thread) (call : Call)
  | returns (thread : Thread) (result : Result)

/-- Where a thread stands with its call -/
inductive CallStatus (Call Result : Type) where
  | outside
  | pending (call : Call)
  | done (result : Result)

structure AtomicObject (Thread State Call Result : Type) where
  state : State
  status : Thread → CallStatus Call Result
  events : List (ObjectEvent Thread Call Result)

namespace AtomicObject

variable {Thread State Call Result : Type} [DecidableEq Thread]
  {run : Call → State → Result → State → Prop} {start : State}

inductive Step (run : Call → State → Result → State → Prop) (thread : Thread)
    (object : AtomicObject Thread State Call Result) :
    AtomicObject Thread State Call Result → Prop where
  | calls (call : Call) : object.status thread = .outside →
      Step run thread object { object with
        status := Function.update object.status thread (.pending call)
        events := object.events ++ [.calls thread call] }
  | takesEffect {call : Call} {result : Result} {state : State} :
      object.status thread = .pending call → run call object.state result state →
      Step run thread object { object with
        state := state
        status := Function.update object.status thread (.done result) }
  | returns {result : Result} : object.status thread = .done result →
      Step run thread object { object with
        status := Function.update object.status thread .outside
        events := object.events ++ [.returns thread result] }

/-- The object with the calls that `run` describes -/
def system (Thread : Type) [DecidableEq Thread] (run : Call → State → Result → State → Prop)
    (start : State) : ThreadSystem Thread (AtomicObject Thread State Call Result) where
  initial object := object = ⟨start, fun _ => .outside, []⟩
  step := Step run

/-- What each call keeps holds of the state. -/
theorem preserves {property : State → Prop} {object : AtomicObject Thread State Call Result}
    (reachable : (system Thread run start).Reachable object) (holds : property start)
    (kept : ∀ call state result state', property state → run call state result state' →
      property state') : property object.state := by
  apply reachable.preserves
  · intro object first
    rw [show object = _ from first]
    exact holds
  · intro thread before after holds step
    cases step with
    | calls _ _ => exact holds
    | takesEffect _ ran => exact kept _ _ _ _ holds ran
    | returns _ => exact holds

/-! ### The order of the calls -/

/-- A call that took effect -/
structure Entry (Thread Call Result : Type) where
  thread : Thread
  call : Call
  result : Result

/-- The calls, run one after another -/
inductive Serial (run : Call → State → Result → State → Prop) (start : State) :
    List (Entry Thread Call Result) → State → Prop where
  | start : Serial run start [] start
  | next {order : List (Entry Thread Call Result)} {state state' : State}
      {entry : Entry Thread Call Result} : Serial run start order state →
      run entry.call state entry.result state' → Serial run start (order ++ [entry]) state'

/-- The calls of the thread that took effect -/
def callsOf (thread : Thread) (order : List (Entry Thread Call Result)) : List Call :=
  order.filterMap (fun entry => if entry.thread = thread then some entry.call else none)

/-- The results of the thread's calls that took effect -/
def resultsOf (thread : Thread) (order : List (Entry Thread Call Result)) : List Result :=
  order.filterMap (fun entry => if entry.thread = thread then some entry.result else none)

/-- The calls that the thread has made -/
def called (thread : Thread) (events : List (ObjectEvent Thread Call Result)) : List Call :=
  events.filterMap fun
    | .calls caller call => if caller = thread then some call else none
    | .returns _ _ => none

/-- The results that the thread has got -/
def returned (thread : Thread) (events : List (ObjectEvent Thread Call Result)) : List Result :=
  events.filterMap fun
    | .calls _ _ => none
    | .returns caller result => if caller = thread then some result else none

theorem mem_called {thread : Thread} {call : Call}
    {events : List (ObjectEvent Thread Call Result)} :
    call ∈ called thread events ↔ .calls thread call ∈ events := by
  unfold called
  rw [List.mem_filterMap]
  constructor
  · intro found
    obtain ⟨event, inside, same⟩ := found
    cases event with
    | calls caller made =>
        dsimp only at same
        split at same
        case isTrue isCaller =>
          rw [Option.some.injEq] at same
          rw [isCaller, same] at inside
          exact inside
        case isFalse => cases same
    | returns _ _ => cases same
  · intro inside
    exact ⟨_, inside, if_pos rfl⟩

theorem mem_callsOf {entry : Entry Thread Call Result} {order : List (Entry Thread Call Result)}
    (member : entry ∈ order) : entry.call ∈ callsOf entry.thread order :=
  List.mem_filterMap.mpr ⟨entry, member, if_pos rfl⟩

/-- The call that has not taken effect -/
def waiting : CallStatus Call Result → List Call
  | .pending call => [call]
  | .outside | .done _ => []

/-- The result that has not been returned -/
def unreturned : CallStatus Call Result → List Result
  | .done result => [result]
  | .outside | .pending _ => []

/-- The calls took effect one after another, those of each thread in the order in which it made
them, and each returned its own result. -/
theorem exists_order {object : AtomicObject Thread State Call Result}
    (reachable : (system Thread run start).Reachable object) :
    ∃ order, Serial run start order object.state ∧ ∀ thread,
      called thread object.events = callsOf thread order ++ waiting (object.status thread) ∧
      resultsOf thread order =
        returned thread object.events ++ unreturned (object.status thread) := by
  apply reachable.preserves
  · intro object first
    rw [show object = _ from first]
    exact ⟨[], .start, fun _ => ⟨rfl, rfl⟩⟩
  · rintro thread before after ⟨order, serial, threads⟩ step
    cases step with
    | calls call outside =>
        refine ⟨order, serial, fun other => ?_⟩
        obtain ⟨calls, results⟩ := threads other
        unfold called at calls ⊢
        unfold returned at results ⊢
        by_cases same : other = thread
        · rw [same, outside] at calls results
          rw [same]
          simp [Function.update_self, calls, results, waiting, unreturned]
        · simp [Function.update_of_ne same, Ne.symm same, calls, results]
    | @takesEffect call result state pending ran =>
        refine ⟨order ++ [⟨thread, call, result⟩], .next serial ran, fun other => ?_⟩
        obtain ⟨calls, results⟩ := threads other
        unfold callsOf at calls ⊢
        unfold resultsOf at results ⊢
        by_cases same : other = thread
        · rw [same, pending] at calls results
          rw [same]
          simp [Function.update_self, calls, results, waiting, unreturned]
        · simp [Function.update_of_ne same, Ne.symm same, calls, results]
    | @returns result finished =>
        refine ⟨order, serial, fun other => ?_⟩
        obtain ⟨calls, results⟩ := threads other
        unfold called at calls ⊢
        unfold returned at results ⊢
        by_cases same : other = thread
        · rw [same, finished] at calls results
          rw [same]
          simp [Function.update_self, calls, results, waiting, unreturned]
        · simp [Function.update_of_ne same, Ne.symm same, calls, results]

end AtomicObject
