/-
The file system with its file-scope variables, and `tfs_init` calls that fail.

`state_init` stores the new sizes in `fs_params` before it looks whether the tables are
there, and it gives no table back when a later one cannot be allocated.  The sizes in
force therefore follow a failed `tfs_init`, and `inode_table` may be left not NULL.

Where a table is missing a call reads NULL or memory that nobody wrote, which is the fault
`undefined`.  The model also stops every call made while the sizes in force exceed the
allocated tables.
-/

import TecnicoFS.FileSystem.Runs

set_option autoImplicit false

namespace TecnicoFS.FileSystem

open FaultAction

/-- `fs_params` with what the table pointers stand for -/
inductive Globals where
  /-- `inode_table` is NULL. -/
  | unallocated (fsParams : TfsParams)
  /-- `inode_table` is not NULL, but another table is. -/
  | incomplete (fsParams : TfsParams)
  /-- Every table is allocated with these sizes; the sizes in force are the state's. -/
  | allocated (sizes : TfsParams) (state : State)

abbrev GlobalAction (α : Type) : Type := FaultAction Globals Fault α

def Globals.fsParams : Globals → TfsParams
  | .unallocated fsParams => fsParams
  | .incomplete fsParams => fsParams
  | .allocated _ state => state.fsParams

/-- `fs_params` before the first call -/
def zeroParams : TfsParams where
  maxInodeCount := 0
  maxBlockCount := 0
  maxOpenFilesCount := 0
  blockSize := 0
  sizeRange := by decide

def neverInitialized : Globals := .unallocated zeroParams

/-! ### Calls without tables -/

/-- `valid_file_handle` -/
def TfsParams.ValidFileHandle (params : TfsParams) (fhandle : Int) : Prop :=
  0 ≤ fhandle ∧ fhandle.toNat < params.maxOpenFilesCount

instance (params : TfsParams) (fhandle : Int) : Decidable (params.ValidFileHandle fhandle) :=
  inferInstanceAs (Decidable (_ ∧ _))

/-- `inode_get(ROOT_DIR_INUM)` and the assertion of its caller, or the first look at an
inode that nobody wrote -/
def missingRoot (fsParams : TfsParams) (inodeTable : Bool) (caller : String) :
    Except Fault CallResult :=
  if fsParams.maxInodeCount = 0 then
    .error (.panic "inode_get: invalid inumber")
  else if inodeTable = true then
    .error .undefined
  else
    .error (.panic (caller ++ ": root dir inode must exist"))

/-- `get_open_file_entry` reads the marks of valid handles only. -/
def missingHandle (fsParams : TfsParams) (fhandle : Int) : Except Fault CallResult :=
  if fsParams.ValidFileHandle fhandle then .error .undefined else .ok ⟨-1, []⟩

/-- A public call while a table is missing -/
def Call.runWithoutTables (fsParams : TfsParams) (inodeTable : Bool) :
    Call → Except Fault CallResult
  | .tfsOpen name _ =>
      if validPathname name = none then .ok ⟨-1, []⟩
      else missingRoot fsParams inodeTable "tfs_open"
  | .tfsClose fhandle => missingHandle fsParams fhandle
  | .tfsWrite fhandle buffer _ =>
      if buffer = none then .ok ⟨-1, []⟩ else missingHandle fsParams fhandle
  | .tfsRead fhandle buffered _ =>
      if buffered = false then .ok ⟨-1, []⟩ else missingHandle fsParams fhandle
  | .tfsSymLink target link =>
      if validPathname target = none ∨ validPathname link = none ∨ target = link then
        .ok ⟨-1, []⟩
      else if fsParams.maxInodeCount = 0 then
        .ok ⟨-1, []⟩
      else
        .error .undefined
  | .tfsLink target link =>
      if validPathname target = none ∨ validPathname link = none then .ok ⟨-1, []⟩
      else missingRoot fsParams inodeTable "tfs_link"
  | .tfsUnlink target =>
      if validPathname target = none then .ok ⟨-1, []⟩
      else missingRoot fsParams inodeTable "tfs_unlink"
  | .tfsCopyFromExternalFs sourcePath sourceFile destPath =>
      if validPathname destPath = none ∨ sourcePath = none ∨ sourceFile.isNone then
        .ok ⟨-1, []⟩
      else missingRoot fsParams inodeTable "tfs_open"

/-! ### Public calls -/

/-- The tables are as large as the sizes in force. -/
def Covers (sizes fsParams : TfsParams) : Prop :=
  fsParams.maxInodeCount ≤ sizes.maxInodeCount ∧ fsParams.maxBlockCount ≤ sizes.maxBlockCount ∧
    fsParams.maxOpenFilesCount ≤ sizes.maxOpenFilesCount

instance (sizes fsParams : TfsParams) : Decidable (Covers sizes fsParams) :=
  inferInstanceAs (Decidable (_ ∧ _))

/-- No table has a slot. -/
def TfsParams.Empty (params : TfsParams) : Prop :=
  params.maxInodeCount = 0 ∧ params.maxBlockCount = 0 ∧ params.maxOpenFilesCount = 0

instance (params : TfsParams) : Decidable params.Empty :=
  inferInstanceAs (Decidable (_ ∧ _))

/-- The first malloc of `state_init` -/
def inodeTableAllocated (succeeds : Nat → Bool) (params : TfsParams) : Bool :=
  succeeds 0 && decide (params.maxInodeCount * sizeofInode % 2 ^ 64 < 2 ^ 63)

namespace Globals

/-- `tfs_init`, with the parameters pointed to or none for NULL -/
def tfsInit (succeeds : Nat → Bool) (garbage : Garbage) (params : Option TfsParams) :
    GlobalAction Int := fun globals =>
  let params := params.getD tfsDefaultParams
  match globals with
  | .unallocated _ =>
      match FileSystem.tfsInit succeeds garbage params with
      | .error fault => .error fault
      | .ok (result, some state) => .ok (result, .allocated params state)
      | .ok (result, none) =>
          if inodeTableAllocated succeeds params = true then .ok (result, .incomplete params)
          else .ok (result, .unallocated params)
  | .incomplete _ => .ok (-1, .incomplete params)
  | .allocated sizes state => .ok (-1, .allocated sizes { state with fsParams := params })

/-- The loops of `state_destroy` touch a lock for every slot of the sizes in force. -/
def tfsDestroy : GlobalAction Int := fun globals =>
  match globals with
  | .unallocated fsParams => .ok (-1, .unallocated fsParams)
  | .incomplete fsParams =>
      if fsParams.Empty then .ok (0, .unallocated fsParams) else .error .undefined
  | .allocated sizes state =>
      if Covers sizes state.fsParams then .ok (0, .unallocated state.fsParams)
      else .error .undefined

/-- A call that neither makes nor frees tables -/
def runCall (call : Call) : GlobalAction CallResult := fun globals =>
  match globals with
  | .unallocated fsParams =>
      (call.runWithoutTables fsParams false).map (fun result => (result, .unallocated fsParams))
  | .incomplete fsParams =>
      (call.runWithoutTables fsParams true).map (fun result => (result, .incomplete fsParams))
  | .allocated sizes state =>
      if Covers sizes state.fsParams then
        (call.run state).map (fun returned => (returned.1, .allocated sizes returned.2))
      else
        .error .undefined

end Globals

inductive PublicCall where
  | tfsInit (succeeds : Nat → Bool) (garbage : Garbage) (params : Option TfsParams)
  | tfsDestroy
  | call (call : Call)

def PublicCall.run : PublicCall → GlobalAction CallResult
  | .tfsInit succeeds garbage params => do
      pure ⟨← Globals.tfsInit succeeds garbage params, []⟩
  | .tfsDestroy => do pure ⟨← Globals.tfsDestroy, []⟩
  | .call single => Globals.runCall single

/-- The calls one after the other, with what each returned -/
def runPublic : List PublicCall → GlobalAction (List CallResult)
  | [] => pure []
  | call :: rest => do
      let result ← call.run
      let results ← runPublic rest
      pure (result :: results)

/-- Handles are passed as `int`s. -/
def PublicCall.IntHandle : PublicCall → Prop
  | .call (.tfsClose fhandle) => fhandle < 2 ^ 31
  | .call (.tfsWrite fhandle _ _) => fhandle < 2 ^ 31
  | .call (.tfsRead fhandle _ _) => fhandle < 2 ^ 31
  | _ => True

/-! ### What a failed `tfs_init` may change -/

/-- What a sequence of calls returns in the first state it returns in the second. -/
def SameResults (globals globals' : Globals) : Prop :=
  ∀ calls results after, (∀ call, call ∈ calls → call.IntHandle) →
    runPublic calls globals = .ok (results, after) →
      ∃ after', runPublic calls globals' = .ok (results, after')

/-- No later call tells the states apart, and the sizes of a live file system stay in
force. -/
structure ChangesNothing (globals globals' : Globals) : Prop where
  results : SameResults globals globals'
  limits : ∀ sizes state, globals = .allocated sizes state →
    globals'.fsParams = globals.fsParams

/-- The new sizes let no call through that the old ones turned away. -/
structure Narrower (old new : TfsParams) : Prop where
  handles : ∀ fhandle : Int, fhandle < 2 ^ 31 → new.ValidFileHandle fhandle →
    old.ValidFileHandle fhandle
  inodes : old.maxInodeCount = 0 → new.maxInodeCount = 0

/-- The failing `tfs_init` left `inode_table` as it was, and the sizes it stored differ in
nothing that a call looks at. -/
def Globals.FailsSafely (globals : Globals) (succeeds : Nat → Bool) (params : TfsParams) :
    Prop :=
  match globals with
  | .unallocated old => inodeTableAllocated succeeds params = false ∧ Narrower old params
  | .incomplete old => Narrower old params ∧ (old.Empty → params.Empty)
  | .allocated _ state => params = state.fsParams

/-- The two states of a pair of runs -/
inductive Follows : Globals → Globals → Prop where
  | same (globals : Globals) : Follows globals globals
  | unallocated {old new : TfsParams} : Narrower old new →
      Follows (.unallocated old) (.unallocated new)
  | incomplete {old new : TfsParams} : Narrower old new → (old.Empty → new.Empty) →
      Follows (.incomplete old) (.incomplete new)

variable {globals globals' after : Globals} {succeeds : Nat → Bool} {garbage : Garbage}
  {old new : TfsParams}

theorem missingRoot_not_ok {fsParams : TfsParams} {inodeTable : Bool} {caller : String}
    {result : CallResult} : missingRoot fsParams inodeTable caller ≠ .ok result := by
  unfold missingRoot
  split
  · intro impossible
    cases impossible
  · split
    · intro impossible
      cases impossible
    · intro impossible
      cases impossible

theorem Narrower.missingHandle (narrower : Narrower old new) {fhandle : Int}
    (small : fhandle < 2 ^ 31) {result : CallResult}
    (returned : missingHandle old fhandle = .ok result) :
    FileSystem.missingHandle new fhandle = .ok result := by
  unfold FileSystem.missingHandle at returned ⊢
  by_cases valid : old.ValidFileHandle fhandle
  · rw [if_pos valid] at returned
    cases returned
  · rw [if_neg valid] at returned
    rw [if_neg (fun newValid => valid (narrower.handles fhandle small newValid))]
    exact returned

/-- A call that returned without tables looked at nothing but its arguments and sizes. -/
theorem Narrower.runWithoutTables (narrower : Narrower old new) {call : Call}
    {inodeTable : Bool} {result : CallResult} (small : (PublicCall.call call).IntHandle)
    (returned : call.runWithoutTables old inodeTable = .ok result) :
    call.runWithoutTables new inodeTable = .ok result := by
  have branch {refused : Prop} [Decidable refused] {first other other' : Except Fault CallResult}
      (kept : other = .ok result → other' = .ok result)
      (returned : (if refused then first else other) = .ok result) :
      (if refused then first else other') = .ok result := by
    by_cases holds : refused
    · rw [if_pos holds] at returned ⊢
      exact returned
    · rw [if_neg holds] at returned ⊢
      exact kept returned
  have rooted {caller : String} (returned : missingRoot old inodeTable caller = .ok result) :
      missingRoot new inodeTable caller = .ok result := (missingRoot_not_ok returned).elim
  cases call with
  | tfsOpen name mode => exact branch rooted returned
  | tfsClose fhandle => exact narrower.missingHandle small returned
  | tfsWrite fhandle buffer toWrite => exact branch (narrower.missingHandle small) returned
  | tfsRead fhandle buffered len => exact branch (narrower.missingHandle small) returned
  | tfsSymLink target link =>
      refine branch (fun returned => ?_) returned
      by_cases empty : old.maxInodeCount = 0
      · rw [if_pos empty] at returned
        rw [if_pos (narrower.inodes empty)]
        exact returned
      · rw [if_neg empty] at returned
        cases returned
  | tfsLink target link => exact branch rooted returned
  | tfsUnlink target => exact branch rooted returned
  | tfsCopyFromExternalFs sourcePath sourceFile destPath => exact branch rooted returned

theorem Follows.runCall (follows : Follows globals globals') {call : Call} {result : CallResult}
    (small : (PublicCall.call call).IntHandle)
    (returned : Globals.runCall call globals = .ok (result, after)) :
    ∃ after', Globals.runCall call globals' = .ok (result, after') ∧ Follows after after' := by
  have mapped {first : Except Fault CallResult} {wrap : CallResult → CallResult × Globals}
      (returned : first.map wrap = .ok (result, after)) :
      ∃ value, first = .ok value ∧ wrap value = (result, after) := by
    cases first with
    | error fault => cases returned
    | ok value => exact ⟨value, rfl, Except.ok.inj returned⟩
  cases follows with
  | same globals => exact ⟨after, returned, .same after⟩
  | @unallocated old new narrower =>
      obtain ⟨value, run, same⟩ := mapped returned
      cases same
      refine ⟨.unallocated new, ?_, .unallocated narrower⟩
      unfold Globals.runCall
      dsimp only
      rw [narrower.runWithoutTables small run]
      rfl
  | @incomplete old new narrower empty =>
      obtain ⟨value, run, same⟩ := mapped returned
      cases same
      refine ⟨.incomplete new, ?_, .incomplete narrower empty⟩
      unfold Globals.runCall
      dsimp only
      rw [narrower.runWithoutTables small run]
      rfl

theorem Follows.tfsDestroy (follows : Follows globals globals') {result : Int}
    (returned : Globals.tfsDestroy globals = .ok (result, after)) :
    ∃ after', Globals.tfsDestroy globals' = .ok (result, after') ∧ Follows after after' := by
  cases follows with
  | same globals => exact ⟨after, returned, .same after⟩
  | unallocated narrower =>
      cases returned
      exact ⟨_, rfl, .unallocated narrower⟩
  | @incomplete old new narrower empty =>
      unfold Globals.tfsDestroy at returned
      dsimp only at returned
      by_cases oldEmpty : old.Empty
      · rw [if_pos oldEmpty] at returned
        cases returned
        exact ⟨_, if_pos (empty oldEmpty), .unallocated narrower⟩
      · rw [if_neg oldEmpty] at returned
        cases returned

theorem Follows.tfsInit (follows : Follows globals globals') {params : Option TfsParams}
    {result : Int} (returned : Globals.tfsInit succeeds garbage params globals =
      .ok (result, after)) :
    Globals.tfsInit succeeds garbage params globals' = .ok (result, after) := by
  cases follows with
  | same globals => exact returned
  | unallocated _ => exact returned
  | incomplete _ _ => exact returned

/-- One call of the pair of runs -/
theorem Follows.step (follows : Follows globals globals') {call : PublicCall}
    {result : CallResult} (small : call.IntHandle)
    (returned : call.run globals = .ok (result, after)) :
    ∃ after', call.run globals' = .ok (result, after') ∧ Follows after after' := by
  cases call with
  | tfsInit succeeds garbage params =>
      obtain ⟨value, middle, run, same⟩ := bind_eq_ok.mp returned
      cases same
      exact ⟨_, bind_of_ok (follows.tfsInit run), .same _⟩
  | tfsDestroy =>
      obtain ⟨value, middle, run, same⟩ := bind_eq_ok.mp returned
      cases same
      obtain ⟨after', run', follows'⟩ := follows.tfsDestroy run
      exact ⟨after', bind_of_ok run', follows'⟩
  | call single => exact follows.runCall small returned

theorem Follows.run (follows : Follows globals globals') : SameResults globals globals' := by
  intro calls
  induction calls generalizing globals globals' with
  | nil =>
      intro results after _ returned
      cases returned
      exact ⟨globals', rfl⟩
  | cons call rest ih =>
      intro results after small returned
      obtain ⟨result, middle, first, returned⟩ := bind_eq_ok.mp returned
      obtain ⟨restResults, last, remaining, same⟩ := bind_eq_ok.mp returned
      cases same
      obtain ⟨middle', first', follows'⟩ := follows.step (small call List.mem_cons_self) first
      obtain ⟨after', remaining'⟩ := ih follows' restResults after
        (fun other member => small other (List.mem_cons_of_mem call member)) remaining
      exact ⟨after', (bind_of_ok first').trans (bind_of_ok remaining')⟩

/-! ### Telling the states apart -/

theorem SameResults.single (same : SameResults globals globals') {call : PublicCall}
    {result : CallResult} (small : call.IntHandle)
    (returned : call.run globals = .ok (result, after)) :
    ∃ after', call.run globals' = .ok (result, after') := by
  obtain ⟨after', returned'⟩ := same [call] [result] after
    (fun other member => by rw [List.mem_singleton.mp member]; exact small)
    ((bind_of_ok returned).trans rfl)
  obtain ⟨value, middle, run, rest⟩ := bind_eq_ok.mp returned'
  obtain ⟨values, last, nothing, rest⟩ := bind_eq_ok.mp rest
  cases nothing
  cases rest
  exact ⟨after', run⟩

theorem runWithoutTables_symLink (fsParams : TfsParams) (inodeTable : Bool) :
    Call.runWithoutTables fsParams inodeTable (.tfsSymLink (some pathA) (some pathB)) =
      if fsParams.maxInodeCount = 0 then .ok ⟨-1, []⟩ else .error .undefined := by
  rw [Call.runWithoutTables, if_neg]
  decide

/-- Handles and the inode count show in the calls that return without a table. -/
theorem Narrower.of_sameResults {inodeTable : Bool} {wrap wrap' : CallResult → CallResult × Globals}
    (runs : ∀ call, Globals.runCall call globals =
      (call.runWithoutTables old inodeTable).map wrap)
    (runs' : ∀ call, Globals.runCall call globals' =
      (call.runWithoutTables new inodeTable).map wrap')
    (wrapped : ∀ result, (wrap result).1 = result)
    (same : SameResults globals globals') : Narrower old new := by
  have returns {call : Call} (small : (PublicCall.call call).IntHandle) {result : CallResult}
      (returned : call.runWithoutTables old inodeTable = .ok result) :
      ∃ value, call.runWithoutTables new inodeTable = .ok value := by
    have run : Globals.runCall call globals = .ok (result, (wrap result).2) := by
      rw [runs call, returned]
      exact congrArg Except.ok (Prod.ext (wrapped result) rfl)
    obtain ⟨after', run'⟩ := same.single small run
    rw [show PublicCall.run (.call call) globals' = _ from runs' call] at run'
    cases found : call.runWithoutTables new inodeTable with
    | ok value => exact ⟨value, rfl⟩
    | error fault =>
        rw [found] at run'
        cases run'
  constructor
  · intro fhandle small valid
    by_contra invalid
    obtain ⟨value, closed⟩ := @returns (.tfsClose fhandle) small ⟨-1, []⟩ (if_neg invalid)
    rw [show Call.runWithoutTables new inodeTable (.tfsClose fhandle) = .error .undefined from
      if_pos valid] at closed
    cases closed
  · intro empty
    by_contra nonempty
    obtain ⟨value, linked⟩ := @returns (.tfsSymLink (some pathA) (some pathB)) trivial ⟨-1, []⟩
      ((runWithoutTables_symLink old inodeTable).trans (if_pos empty))
    rw [runWithoutTables_symLink, if_neg nonempty] at linked
    cases linked

/-- A later `tfs_init` shows whether `inode_table` is NULL. -/
theorem SameResults.unallocated {fsParams : TfsParams}
    (same : SameResults (.unallocated fsParams) globals') :
    ∃ fsParams', globals' = .unallocated fsParams' := by
  obtain ⟨state, started⟩ := @tfsInit_returns (fun _ => true) Garbage.zeros smallParams
    (by decide) (by decide) (by decide) (by decide) (by decide) (by decide)
  have first : Globals.tfsInit (fun _ => true) Garbage.zeros (some smallParams)
      (.unallocated fsParams) = .ok (0, .allocated smallParams state) := by
    unfold Globals.tfsInit
    dsimp only [Option.getD]
    rw [started]
  obtain ⟨after', again⟩ := @SameResults.single _ _ _ same
    (.tfsInit (fun _ => true) Garbage.zeros (some smallParams)) _ trivial (bind_of_ok first)
  obtain ⟨value, middle, run, rest⟩ := bind_eq_ok.mp again
  cases globals' with
  | unallocated fsParams' => exact ⟨fsParams', rfl⟩
  | incomplete fsParams' =>
      cases run
      cases rest
  | allocated sizes state' =>
      cases run
      cases rest

/-! ### Failed calls -/

theorem inodeTableAllocated_of_succeed {params : TfsParams}
    (succeed : mallocsSucceed succeeds params = true) :
    inodeTableAllocated succeeds params = true := by
  rw [mallocsSucceed, mallocSizes, List.zipIdx_cons, List.all_cons, Bool.and_eq_true] at succeed
  exact succeed.1

theorem tfsInit_some {params : TfsParams} {result : Int} {state : State}
    (returned : tfsInit succeeds garbage params = .ok (result, some state)) :
    inodeTableAllocated succeeds params = true := by
  apply inodeTableAllocated_of_succeed
  by_contra failed
  rw [Bool.not_eq_true] at failed
  rw [tfsInit, stateInit, if_pos failed] at returned
  cases returned

/-- Only a failed first allocation leaves `inode_table` NULL. -/
theorem Globals.tfsInit_unallocated {params : Option TfsParams}
    (failed : Globals.tfsInit succeeds garbage params (.unallocated old) = .ok (-1, globals')) :
    (inodeTableAllocated succeeds (params.getD tfsDefaultParams) = false ∧
        globals' = .unallocated (params.getD tfsDefaultParams)) ∨
      (inodeTableAllocated succeeds (params.getD tfsDefaultParams) = true ∧
        ∀ fsParams, globals' ≠ .unallocated fsParams) := by
  unfold Globals.tfsInit at failed
  dsimp only at failed
  cases run : FileSystem.tfsInit succeeds garbage (params.getD tfsDefaultParams) with
  | error fault =>
      rw [run] at failed
      cases failed
  | ok pair =>
      obtain ⟨result, tables⟩ := pair
      rw [run] at failed
      cases tables with
      | some state =>
          cases failed
          refine Or.inr ⟨tfsInit_some run, ?_⟩
          intro fsParams impossible
          cases impossible
      | none =>
          dsimp only at failed
          by_cases allocated : inodeTableAllocated succeeds (params.getD tfsDefaultParams) = true
          · rw [if_pos allocated] at failed
            cases failed
            refine Or.inr ⟨allocated, ?_⟩
            intro fsParams impossible
            cases impossible
          · rw [if_neg allocated] at failed
            cases failed
            exact Or.inl ⟨Bool.eq_false_of_not_eq_true allocated, rfl⟩

/-- A failed `tfs_init` stays unnoticed exactly where `inode_table` stays as it was and the
sizes that were stored let no more through than the sizes before. -/
theorem failed_init_harmless {params : Option TfsParams}
    (failed : Globals.tfsInit succeeds garbage params globals = .ok (-1, globals')) :
    ChangesNothing globals globals' ↔
      globals.FailsSafely succeeds (params.getD tfsDefaultParams) := by
  cases globals with
  | unallocated old =>
      constructor
      · intro unnoticed
        obtain ⟨fsParams, same⟩ := unnoticed.results.unallocated
        rcases Globals.tfsInit_unallocated failed with ⟨first, rfl⟩ | ⟨_, other⟩
        · exact ⟨first, .of_sameResults (fun _ => rfl) (fun _ => rfl) (fun _ => rfl)
            unnoticed.results⟩
        · exact absurd same (other fsParams)
      · rintro ⟨first, narrower⟩
        rcases Globals.tfsInit_unallocated failed with ⟨_, rfl⟩ | ⟨other, _⟩
        · refine ⟨(Follows.unallocated narrower).run, ?_⟩
          intro sizes state impossible
          cases impossible
        · rw [first] at other
          cases other
  | incomplete old =>
      cases failed
      constructor
      · intro unnoticed
        refine ⟨.of_sameResults (fun _ => rfl) (fun _ => rfl) (fun _ => rfl) unnoticed.results, ?_⟩
        intro empty
        by_contra slots
        have destroyed : Globals.tfsDestroy (.incomplete old) = .ok (0, .unallocated old) :=
          if_pos empty
        obtain ⟨after', again⟩ := @SameResults.single _ _ _ unnoticed.results .tfsDestroy _
          trivial (bind_of_ok destroyed)
        obtain ⟨value, middle, run, _⟩ := bind_eq_ok.mp again
        rw [show Globals.tfsDestroy (.incomplete (params.getD tfsDefaultParams)) =
          .error .undefined from if_neg slots] at run
        cases run
      · rintro ⟨narrower, empty⟩
        refine ⟨(Follows.incomplete narrower empty).run, ?_⟩
        intro sizes state impossible
        cases impossible
  | allocated sizes state =>
      cases failed
      constructor
      · intro unnoticed
        exact unnoticed.limits sizes state rfl
      · intro same
        rw [show params.getD tfsDefaultParams = state.fsParams from same]
        refine ⟨(Follows.same _).run, ?_⟩
        intro sizes' state' live
        cases live
        rfl

/-- `smallParams` with one open-file entry -/
def oneHandle : TfsParams where
  maxInodeCount := 3
  maxBlockCount := 3
  maxOpenFilesCount := 1
  blockSize := 96
  sizeRange := by decide

theorem failed_init_harmless_narrower :
    ChangesNothing (.unallocated smallParams) (.unallocated oneHandle) := by
  refine (@failed_init_harmless _ _ (fun _ => false) Garbage.zeros (some oneHandle) rfl).mpr
    ⟨rfl, ?_, fun empty => empty⟩
  rintro fhandle _ ⟨nonneg, inside⟩
  exact ⟨nonneg, Nat.lt_trans inside (by decide)⟩

/-- With `/a` open twice, a second `tfs_init` for a single open-file entry fails, and the
second handle is invalid from then on. -/
theorem failed_init_limits :
    ¬ ∀ calls results globals, runPublic calls neverInitialized = .ok (results, globals) →
      ∀ succeeds garbage params globals',
        Globals.tfsInit succeeds garbage params globals = .ok (-1, globals') →
        ChangesNothing globals globals' := by
  intro claimed
  obtain ⟨results, globals, started, computed⟩ := @returns_of_any _ _ _
    (runPublic [.tfsInit (fun _ => true) Garbage.zeros (some smallParams),
      .call (.tfsOpen (some pathA) ⟨true, false, false⟩),
      .call (.tfsOpen (some pathA) ⟨true, false, false⟩)] neverInitialized)
    (fun _ globals =>
      (Globals.runCall (.tfsClose 1) globals).toOption.any (fun closed =>
        closed.1 == ⟨0, []⟩) &&
      (Globals.tfsInit (fun _ => true) Garbage.zeros (some oneHandle) globals).toOption.any
        (fun failed => failed.1 == -1 &&
          (Globals.runCall (.tfsClose 1) failed.2).toOption.any (fun refused =>
            refused.1 == ⟨-1, []⟩)))
    (by decide +kernel)
  rw [Bool.and_eq_true] at computed
  obtain ⟨closed, after, closes, isZero⟩ := @returns_of_any _ _ _ _
    (fun (closed : CallResult) (_ : Globals) => closed == ⟨0, []⟩) computed.1
  obtain ⟨result, globals', failed, computed⟩ := @returns_of_any _ _ _ _
    (fun (result : Int) (globals' : Globals) => result == -1 &&
      (Globals.runCall (.tfsClose 1) globals').toOption.any (fun refused =>
        refused.1 == ⟨-1, []⟩)) computed.2
  rw [Bool.and_eq_true] at computed
  obtain ⟨refused, after', refuses, isMinusOne⟩ := @returns_of_any _ _ _ _
    (fun (refused : CallResult) (_ : Globals) => refused == ⟨-1, []⟩) computed.2
  rw [eq_of_beq computed.1] at failed
  rw [eq_of_beq isZero] at closes
  rw [eq_of_beq isMinusOne] at refuses
  obtain ⟨after'', sameResult⟩ := @SameResults.single _ _ _
    (claimed _ _ _ started _ _ _ _ failed).results (.call (.tfsClose 1)) _
    (show (1 : Int) < 2 ^ 31 by decide) closes
  rw [show PublicCall.run (.call (.tfsClose 1)) globals' = _ from refuses] at sameResult
  cases sameResult

end TecnicoFS.FileSystem
