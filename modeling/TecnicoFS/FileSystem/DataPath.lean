/-
The data path of the file system is the one of the abstract file system.
-/

import TecnicoFS.FileSystem.Leaks

set_option autoImplicit false

namespace TecnicoFS.FileSystem

variable {params : TfsParams} {state : State} {model : Model Nat}

theorem Represents.files_le (represents : Represents state model) (inodes : InodesOk state)
    {inode : Nat} {contents : List UInt8} (holds : model.files inode = some contents) :
    contents.length ≤ state.blockSize := by
  obtain ⟨taken, isFile, same⟩ := (represents.files inode contents).mp holds
  rw [← same, State.contents_length]
  exact inodes.fileSize inode taken isFile

theorem Represents.handles_files (represents : Represents state model)
    (inv : Invariant state none) {handle inode offset : Nat}
    (holds : model.handles handle = some (inode, offset)) :
    model.files inode = some (state.contents inode) := by
  obtain ⟨taken, entry⟩ := (represents.handles handle inode offset).mp holds
  exact (represents.handle inv taken (by rw [entry])).2.1

/-- A file keeps its contents in every step that does not write to it, truncate it or take
its last name or handle away. -/
theorem Model.Step.files_kept {resources : Resources} {blockSize : Nat} {call : Call}
    {result : CallResult} {model' : Model Nat}
    (step : model.Step resources blockSize call result model') {id : Nat}
    {contents : List UInt8} (holds : model.files id = some contents) :
    model'.files id = some contents ∨
      (∃ handle data toWrite offset, call = .tfsWrite handle data toWrite ∧
        ∃ slot : Nat, handle = slot ∧ model.handles slot = some (id, offset)) ∨
      (∃ path final mode, call = .tfsOpen (some path) mode ∧ mode.tfsOTrunc = true ∧
        model.Resolves path final ∧ model.names final.tail = some id) ∨
      (model'.files id = none ∧ ¬ model'.Used id) := by
  have kept {other : Nat} {bytes : List UInt8} (different : id ≠ other) :
      (model.setFile other bytes).files id = some contents :=
    (Function.update_of_ne different _ _).trans holds
  have collected (before : Model Nat) (same : before.files = model.files) (other : Nat) :
      (before.collect other).files id = some contents ∨
        ((before.collect other).files id = none ∧ ¬ (before.collect other).Used id) := by
    unfold Model.collect
    split
    · rw [same]
      exact Or.inl holds
    · rename_i unused
      by_cases equal : id = other
      · subst other
        exact Or.inr ⟨Function.update_self _ _ _, unused⟩
      · exact Or.inl ((Function.update_of_ne equal _ _).trans (by rw [same]; exact holds))
  have handled {before after : Model Nat} {held place : Nat} {returned : Int}
      (handle : before.Handle resources held place returned after) :
      after.files = before.files := by
    cases handle with
    | full _ => rfl
    | opened _ _ => rfl
  cases step with
  | @opens path final mode _ _ resolves opened =>
      cases opened with
      | created _ _ _ _ _ _ fresh handle =>
          rw [handled handle]
          refine Or.inl (kept ?_)
          rintro rfl
          rw [fresh.1] at holds
          cases holds
      | @existing other bytes keptBytes _ _ valid names files keptEq handle =>
          rw [handled handle]
          by_cases same : id = other
          · subst other
            rw [holds, Option.some.injEq] at files
            subst files
            by_cases trunc : mode.tfsOTrunc = true
            · exact Or.inr (Or.inr (Or.inl ⟨path, final, mode, rfl, trunc, resolves, names⟩))
            · rw [if_neg trunc] at keptEq
              subst keptEq
              exact Or.inl (Function.update_self _ _ _)
          · exact Or.inl (kept same)
      | _ => exact Or.inl holds
  | closes _ =>
      exact (collected (model.closeHandle _) rfl _).imp (fun same => same) (fun gone => Or.inr (Or.inr gone))
  | @writes handle offset toWrite other bytes data _ _ handles files written =>
      by_cases same : id = other
      · subst other
        exact Or.inr (Or.inl ⟨_, _, _, _, rfl, handle, rfl, handles⟩)
      · left
        cases written with
        | nothing _ => exact holds
        | noBlock _ _ _ => exact holds
        | stored _ _ _ => exact kept same
  | unlinks _ _ =>
      exact (collected (model.unbind _) rfl _).imp (fun same => same) (fun gone => Or.inr (Or.inr gone))
  | _ => exact Or.inl holds

/-- Every state reached by admissible calls represents an abstract file system reached by
the same kinds of steps; its files fit a block, its handles lead to files, and every
further call that returns is a trace of abstract steps with what the tables have left.
Where the tables fit, every call returns unless it follows a cycle of links. -/
theorem data_path_refinement (reachable : Reachable params (AdmissibleIn params) state) :
    ∃ model, Represents state model ∧ Model.Reachable params.blockSize model ∧
      (∀ inode contents, model.files inode = some contents →
        contents.length ≤ params.blockSize) ∧
      (∀ handle inode offset, model.handles handle = some (inode, offset) →
        ∃ contents, model.files inode = some contents) ∧
      (∀ call result state', Call.Admissible params.blockSize call →
        call.run state = .ok (result, state') →
        ∃ trace model', Expands call result trace ∧
          RefinedTrace params.blockSize state model trace state' model' ∧
          Represents state' model') ∧
      (params.Fits → ∀ call, Call.Admissible params.blockSize call →
        ¬ call.FollowsCycle state → ∃ result state', call.run state = .ok (result, state')) := by
  obtain ⟨inv, same⟩ := reachable.invariant
  obtain ⟨model, represents, reached⟩ := reachable.represents
  subst same
  refine ⟨model, represents, reached, ?_, ?_, ?_, ?_⟩
  · intro inode contents holds
    exact represents.files_le inv.inodes holds
  · intro handle inode offset holds
    exact ⟨_, represents.handles_files inv holds⟩
  · intro call result state' admissible returned
    exact call_refines represents inv admissible returned
  · intro fits call admissible acyclic
    rcases call_returns represents inv fits admissible with returned | ⟨_, cycle⟩
    · exact returned
    · exact (acyclic cycle).elim

/-- Two handles and two names of one file share its bytes. -/
theorem data_path_refinement_shared :
    ∃ state, afterCalls smallParams
      [.tfsOpen (some pathA) ⟨true, false, false⟩, .tfsWrite 0 (some [1, 2, 3]) 3,
        .tfsLink (some pathA) (some pathB), .tfsOpen (some pathB) ⟨false, false, true⟩] =
          some state ∧
      ∃ model, Represents state model ∧ ∀ handle inode offset,
        model.handles handle = some (inode, offset) →
          ∃ contents, model.files inode = some contents := by
  obtain ⟨state, returned, _⟩ := afterCalls_any smallParams
    [.tfsOpen (some pathA) ⟨true, false, false⟩, .tfsWrite 0 (some [1, 2, 3]) 3,
      .tfsLink (some pathA) (some pathB), .tfsOpen (some pathB) ⟨false, false, true⟩]
    (fun _ => true) (by decide +kernel)
  obtain ⟨model, represents, _, _, handles, _⟩ := data_path_refinement
    (.afterCalls (fun call member state => by
      simp only [List.mem_cons, List.not_mem_nil, or_false] at member
      rcases member with rfl | rfl | rfl | rfl
      · trivial
      · exact ⟨by decide, by decide⟩
      · trivial
      · trivial) returned)
  exact ⟨state, returned, model, represents, handles⟩

end TecnicoFS.FileSystem
