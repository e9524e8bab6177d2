/-
Runs of public calls from `tfs_init`.

A run is a sequence of calls that each returned.  Where a run is limited to some
calls, `allowed` says which call may be made in which state.
-/

import TecnicoFS.FileSystem.Init

set_option autoImplicit false

namespace TecnicoFS.FileSystem

open FaultAction

/-- The state is reached from a successful `tfs_init` by allowed calls that returned. -/
inductive Reachable (params : TfsParams) (allowed : State → Call → Prop) : State → Prop where
  | init {succeeds : Nat → Bool} {garbage : Garbage} {state : State} :
      tfsInit succeeds garbage params = .ok (0, some state) → Reachable params allowed state
  | call {state state' : State} {call : Call} {result : CallResult} :
      Reachable params allowed state → allowed state call →
      call.run state = .ok (result, state') → Reachable params allowed state'

/-- The second state is reached from the first by allowed calls that returned. -/
inductive Later (allowed : State → Call → Prop) (start : State) : State → Prop where
  | refl : Later allowed start start
  | call {state state' : State} {call : Call} {result : CallResult} :
      Later allowed start state → allowed state call → call.run state = .ok (result, state') →
      Later allowed start state'

/-- The calls `tfs_copy_from_external_fs` is made of -/
def Call.IsData : Call → Prop
  | .tfsOpen _ _ => True
  | .tfsClose _ => True
  | .tfsWrite _ _ _ => True
  | _ => False

/-- The copy loop writes its chunks whole and does nothing else. -/
theorem CopyWrites.writesChunk {destFile : Int} {chunks : List (List UInt8)}
    {writes : List (Call × CallResult)} {copied : Bool}
    (shape : CopyWrites destFile chunks writes copied) :
    ∀ step, step ∈ writes →
      ∃ chunk, step.1 = .tfsWrite destFile (some chunk) chunk.length := by
  induction shape with
  | done => intro step member; cases member
  | ended _ => intro step member; cases member
  | short _ _ =>
      intro step member
      rw [List.mem_singleton] at member
      subst step
      exact ⟨_, rfl⟩
  | complete _ _ inductionHypothesis =>
      intro step member
      rcases List.mem_cons.mp member with same | later
      · subst step
        exact ⟨_, rfl⟩
      · exact inductionHypothesis step later

theorem Expands.single_or_isData {call : Call} {result : CallResult}
    {trace : List (Call × CallResult)} (expands : Expands call result trace) :
    trace = [(call, result)] ∨ ∀ step, step ∈ trace → step.1.IsData := by
  cases expands with
  | single _ _ => exact Or.inl rfl
  | copyRefused _ => exact Or.inr (fun step member => by cases member)
  | copyUnopened _ _ =>
      right
      intro step member
      rw [List.mem_singleton] at member
      subst step
      trivial
  | copied _ _ shape =>
      right
      intro step member
      rcases List.mem_cons.mp member with same | later
      · subst step
        trivial
      · rcases List.mem_append.mp later with write | last
        · obtain ⟨_, writes⟩ := shape.writesChunk step write
          rw [writes]
          trivial
        · rw [List.mem_singleton] at last
          subst step
          trivial

theorem TraceEffect.preserves {state state' : State} {trace : List (Call × CallResult)}
    {property : State → Prop} {permitted : Call → Prop}
    (step : ∀ before call result after, Invariant before none → permitted call →
      CallEffect before call result after → property before → property after)
    (effects : TraceEffect state trace state') (inv : Invariant state none)
    (all : ∀ entry, entry ∈ trace → permitted entry.1) (holds : property state) :
    property state' := by
  induction effects with
  | nil _ => exact holds
  | cons effect _ inductionHypothesis =>
      refine inductionHypothesis (effect.invariant inv)
        (fun entry member => all entry (List.mem_cons_of_mem _ member)) ?_
      exact step _ _ _ _ inv (all _ List.mem_cons_self) effect holds

/-- Undefined behaviour and divergence, but no failed assertion -/
def NoPanic (fault : Fault) : Prop := fault = .undefined ∨ fault = .diverges

/-- A returned call is a trace of effects. -/
theorem call_effects {state state' : State} {call : Call} {result : CallResult}
    (inv : Invariant state none) (returned : call.run state = .ok (result, state')) :
    ∃ trace, Expands call result trace ∧ TraceEffect state trace state' :=
  (@outcome_call NoPanic _ inv (Or.inl (Or.inl rfl)) (Or.inl (Or.inl rfl)) call
    (fun _ => Or.inr rfl) (Or.inl (Or.inl rfl))).of_ok returned

/-- A call other than `tfs_copy_from_external_fs` is one effect. -/
theorem call_effect {state state' : State} {call : Call} {result : CallResult}
    (inv : Invariant state none) (returned : call.run state = .ok (result, state'))
    (notCopy : ∀ sourcePath sourceFile destPath,
      call ≠ .tfsCopyFromExternalFs sourcePath sourceFile destPath) :
    CallEffect state call result state' := by
  obtain ⟨trace, expands, effects⟩ := call_effects inv returned
  cases expands with
  | single _ _ =>
      cases effects with
      | cons effect rest =>
          cases rest
          exact effect
  | copyRefused _ => exact (notCopy _ _ _ rfl).elim
  | copyUnopened _ _ => exact (notCopy _ _ _ rfl).elim
  | copied _ _ _ => exact (notCopy _ _ _ rfl).elim

variable {params : TfsParams} {allowed : State → Call → Prop} {state : State}

theorem Reachable.invariant (reachable : Reachable params allowed state) :
    Invariant state none ∧ state.fsParams = params := by
  induction reachable with
  | init returned =>
      obtain ⟨initial, same⟩ := tfsInit_initial returned
      exact ⟨initial.invariant, same⟩
  | call _ _ returned inductionHypothesis =>
      obtain ⟨inv, same⟩ := inductionHypothesis
      obtain ⟨_, _, effects⟩ := call_effects inv returned
      exact ⟨effects.invariant inv, effects.fsParams.trans same⟩

/-- A run of calls that another rule allows as well -/
theorem Reachable.mono {allowed' : State → Call → Prop}
    (reachable : Reachable params allowed state)
    (weaker : ∀ state call, allowed state call → allowed' state call) :
    Reachable params allowed' state := by
  induction reachable with
  | init returned => exact .init returned
  | call _ permitted returned inductionHypothesis =>
      exact .call inductionHypothesis (weaker _ _ permitted) returned

theorem Reachable.later {allowed' : State → Call → Prop} {start : State}
    (reachable : Reachable params allowed start)
    (weaker : ∀ state call, allowed' state call → allowed state call)
    (later : Later allowed' start state) : Reachable params allowed state := by
  induction later with
  | refl => exact reachable
  | call _ permitted returned inductionHypothesis =>
      exact .call inductionHypothesis (weaker _ _ permitted) returned

/-- A property of new file systems that every allowed effect preserves holds in every
reachable state.  The calls inside a copy are covered by `data`. -/
theorem Reachable.preserves {property : State → Prop}
    (start : ∀ state, Initial state → property state)
    (single : ∀ before call result after, Invariant before none → before.fsParams = params →
      allowed before call → CallEffect before call result after → property before →
      property after)
    (data : ∀ before call result after, Invariant before none → call.IsData →
      CallEffect before call result after → property before → property after)
    (reachable : Reachable params allowed state) : property state := by
  induction reachable with
  | init returned => exact start _ (tfsInit_initial returned).1
  | call before permitted returned inductionHypothesis =>
      obtain ⟨inv, same⟩ := before.invariant
      obtain ⟨trace, expands, effects⟩ := call_effects inv returned
      rcases expands.single_or_isData with one | all
      · subst one
        cases effects with
        | cons effect rest =>
            cases rest
            exact single _ _ _ _ inv same permitted effect inductionHypothesis
      · exact effects.preserves data inv all inductionHypothesis

/-! ### Panic freedom -/

/-- No call fails an assertion, whatever its arguments are. -/
theorem Reachable.noPanic (reachable : Reachable params allowed state) (call : Call)
    (message : String) : call.run state ≠ .error (.panic message) := by
  intro stopped
  have outcome := @outcome_call NoPanic _ reachable.invariant.1 (Or.inl (Or.inl rfl))
    (Or.inl (Or.inl rfl)) call (fun _ => Or.inr rfl) (Or.inl (Or.inl rfl))
  rcases outcome.of_error stopped with impossible | impossible <;> cases impossible

/-! ### Computed runs -/

/-- New tables filled with zero bytes -/
def Garbage.zeros : Garbage where
  inodeTable := fun _ => ⟨.tFile, 0, 0, 0⟩
  fsData := fun _ => 0
  openFileTable := fun _ => ⟨0, 0⟩

/-- The state after `tfs_init` and a list of calls -/
def afterCalls (params : TfsParams) (calls : List Call) : Option State :=
  match tfsInit (fun _ => true) Garbage.zeros params with
  | .ok (0, some state) =>
      calls.foldlM (fun state call =>
        match call.run state with
        | .ok (_, state') => some state'
        | .error _ => none) state
  | _ => none

/-- The state after a list of calls -/
def runCalls (calls : List Call) (state : State) : Option State :=
  calls.foldlM (fun state call =>
    match call.run state with
    | .ok (_, state') => some state'
    | .error _ => none) state

theorem Later.runCalls {calls : List Call} {start state' : State} (later : Later allowed start state)
    (permitted : ∀ call, call ∈ calls → ∀ state, allowed state call)
    (returned : runCalls calls state = some state') : Later allowed start state' := by
  unfold FileSystem.runCalls at returned
  induction calls generalizing state with
  | nil =>
      cases returned
      exact later
  | cons call rest inductionHypothesis =>
      rw [List.foldlM_cons] at returned
      cases run : call.run state with
      | error fault =>
          rw [run] at returned
          cases returned
      | ok pair =>
          rw [run] at returned
          exact inductionHypothesis (.call later (permitted call List.mem_cons_self state) run)
            (fun other member => permitted other (List.mem_cons_of_mem _ member)) returned

theorem Reachable.afterCalls {calls : List Call}
    (permitted : ∀ call, call ∈ calls → ∀ state, allowed state call)
    (returned : afterCalls params calls = some state) : Reachable params allowed state := by
  unfold FileSystem.afterCalls at returned
  split at returned
  · rename_i start started
    exact Reachable.later (.init started) (fun _ _ permitted => permitted)
      (Later.runCalls .refl permitted returned)
  · cases returned

theorem afterCalls_any (params : TfsParams) (calls : List Call) (test : State → Bool)
    (holds : (afterCalls params calls).any test = true) :
    ∃ state, afterCalls params calls = some state ∧ test state = true := by
  cases run : afterCalls params calls with
  | none =>
      rw [run] at holds
      cases holds
  | some state =>
      rw [run] at holds
      exact ⟨state, rfl, holds⟩

/-- Sizes small enough to compute with -/
def smallParams : TfsParams where
  maxInodeCount := 3
  maxBlockCount := 3
  maxOpenFilesCount := 2
  blockSize := 96
  sizeRange := by decide

/-- The path `/a` -/
def pathA : CString := ⟨[slash, 97], by decide⟩

/-- The path `/b` -/
def pathB : CString := ⟨[slash, 98], by decide⟩

end TecnicoFS.FileSystem
