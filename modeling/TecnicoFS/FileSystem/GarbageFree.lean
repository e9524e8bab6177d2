/-
No public call can tell what malloc left in the tables.

Two file systems started with the same parameters answer every sequence of calls with
the same results, whatever their inode tables, data areas and open file tables held
before `tfs_init`.  Where a call stops in a fault, it stops in both.
-/

import TecnicoFS.FileSystem.AlikeCalls
import TecnicoFS.FileSystem.Runs

set_option autoImplicit false

namespace TecnicoFS.FileSystem

open FaultAction TableSearch

variable {params : TfsParams} {left right : State}

/-! ### Runs -/

/-- What a caller sees of a sequence of calls: the results up to the first fault -/
def observed : State → List Call → List (Except Fault CallResult)
  | _, [] => []
  | state, call :: rest =>
      match call.run state with
      | .ok (result, state') => .ok result :: observed state' rest
      | .error fault => [.error fault]

/-- New tables differ in what malloc left in them only. -/
theorem tfsInit_alike {succeeds succeeds' : Nat → Bool} {garbage garbage' : Garbage}
    (leftStarted : tfsInit succeeds garbage params = .ok (0, some left))
    (rightStarted : tfsInit succeeds' garbage' params = .ok (0, some right)) :
    Alike left right := by
  obtain ⟨leftInitial, _, memory, leftEq⟩ := tfsInit_tables leftStarted
  obtain ⟨rightInitial, _, memory', rightEq⟩ := tfsInit_tables rightStarted
  have tables : SameTables left right := by
    rw [leftEq, rightEq]
    exact ⟨rfl, rfl, rfl, rfl, rfl⟩
  have noEntry (slot : Nat) (inside : slot < left.maxDirEntries) :
      left.entryInumber slot = -1 ∧ right.entryInumber slot = -1 := by
    constructor
    · by_contra live
      exact leftInitial.noEntry slot ⟨inside, live⟩
    · by_contra live
      refine rightInitial.noEntry slot ⟨?_, live⟩
      rw [tables.maxDirEntries]
      exact inside
  exact
    { tables with
      inodes := by
        intro slot taken
        rw [(leftInitial.rootOnly slot).mp taken, leftEq, rightEq]
        rfl
      bytes := by
        intro slot taken
        rw [(leftInitial.rootOnly slot).mp taken]
        refine ⟨?_, ?_⟩
        · intro isFile
          rw [leftInitial.root.isDirectory] at isFile
          cases isFile
        · intro isSymLink
          rw [leftInitial.root.isDirectory] at isSymLink
          cases isSymLink
      openFiles := fun handle taken => (leftInitial.noHandle handle taken).elim
      slots :=
        { inumber := fun slot inside =>
            (noEntry slot inside).2.trans (noEntry slot inside).1.symm
          named := fun _ live _ _ isLive => (leftInitial.noEntry live isLive).elim } }

/-- A step of both runs: the same answer, and alike states to continue from. -/
theorem Alike.observed {calls : List Call} (alike : Alike left right) (inv : Invariant left none)
    (inRange : ∀ call, call ∈ calls → call.InRange left.blockSize) :
    observed left calls = observed right calls := by
  induction calls generalizing left right with
  | nil => rfl
  | cons call rest inductionHypothesis =>
      have twins := twins_call alike inv call (inRange call List.mem_cons_self)
      unfold FileSystem.observed
      cases run : call.run left with
      | error fault =>
          rw [twins.of_error run]
      | ok pair =>
          obtain ⟨result, left'⟩ := pair
          obtain ⟨right', returned, alike'⟩ := twins.of_ok run
          rw [returned]
          obtain ⟨trace, _, effects⟩ := call_effects inv run
          have same : left'.blockSize = left.blockSize :=
            congrArg TfsParams.blockSize effects.fsParams
          dsimp only
          rw [inductionHypothesis alike' (effects.invariant inv) (fun later member => by
            rw [same]
            exact inRange later (List.mem_cons_of_mem _ member))]

/-! ### Clearing an entry -/

/-- `clear_dir_entry` finds the name in a slot that is in use. -/
def ClearsLive (state : State) (name : CString) : Prop :=
  ∃ slot, state.EntryLive slot ∧ clearDirEntry 0 name state = .ok (0, state.scrubEntry slot)

theorem clearsLive_of_first {state : State} (root : RootOk state) (geometry : GeometryOk state)
    {name : CString} {slot : Nat} (short : validSubName name) (live : state.EntryLive slot)
    (named : state.EntryNamed slot name)
    (before : ∀ earlier, earlier < slot → ¬ state.EntryNamed earlier name) :
    ClearsLive state name := by
  obtain ⟨result, state', returned, rfl, rfl⟩ := (@outcome_clearDirEntry (fun _ => False) state
    root geometry name slot (fun result state' => result = 0 ∧ state' = state.scrubEntry slot)
    short live.1 named before ⟨rfl, rfl⟩).returns
  exact ⟨slot, live, returned⟩

/-- A name that was found -/
theorem Invariant.clearsLive_found {state : State} (inv : Invariant state none) {name : CString}
    {inum : Int} {state' : State} (found : findInDir 0 name state = .ok (inum, state'))
    (bound : inum ≠ -1) : ClearsLive state name := by
  obtain ⟨_, ⟨missing, _⟩ | ⟨_, _, short, slot, live, named, _⟩⟩ :=
    (outcome_findInDir inv.root inv.geometry inv.holders (Wide.any state).searchable).of_ok found
  · exact (bound missing).elim
  · exact clearsLive_of_first inv.root inv.geometry short live named
      (inv.directory.named_before short live named)

/-- A name that was just entered -/
theorem Invariant.clearsLive_entered {state : State} (inv : Invariant state none)
    {name : CString} {inode : Nat} {state' : State} (taken : state.InodeTaken inode)
    (entered : addDirEntry 0 name inode state = .ok (0, state')) : ClearsLive state' name := by
  have outcome := (@outcome_addDirEntry (fun _ => True) _ inv.root inv.geometry name _
    taken.1).of_ok entered
  rcases outcome with ⟨impossible, _⟩ | ⟨slot, _, rfl, short, unbound, dead⟩
  · omega
  · refine @clearsLive_of_first (state.bindEntry slot name inode) { inv.root with }
      { inv.geometry with } _ _ short ?_ ?_ (State.bindEntry_named_before short unbound dead)
    · exact (State.bindEntry_live short (inv.inodes.fits inode taken) dead.1).mpr (Or.inl rfl)
    · exact (State.bindEntry_entryNamed state slot slot name name inode short short).mpr
        (by rw [if_pos rfl])

/-! ### Main result -/

/-- Two file systems with the same parameters answer every sequence of calls alike, and in
every state that calls lead to, a name that was found or just entered is cleared in a slot
that is in use. -/
theorem garbage_independence {succeeds succeeds' : Nat → Bool} {garbage garbage' : Garbage}
    (leftStarted : tfsInit succeeds garbage params = .ok (0, some left))
    (rightStarted : tfsInit succeeds' garbage' params = .ok (0, some right))
    (calls : List Call) (inRange : ∀ call, call ∈ calls → call.InRange params.blockSize) :
    observed left calls = observed right calls ∧
      ∀ state, Reachable params (fun _ _ => True) state →
        (∀ name inum state', findInDir 0 name state = .ok (inum, state') → inum ≠ -1 →
          ClearsLive state name) ∧
        (∀ name inode state', state.InodeTaken inode →
          addDirEntry 0 name inode state = .ok (0, state') → ClearsLive state' name) := by
  constructor
  · obtain ⟨initial, same⟩ := tfsInit_initial leftStarted
    refine (tfsInit_alike leftStarted rightStarted).observed initial.invariant ?_
    rw [State.blockSize, same]
    exact inRange
  · intro state reachable
    have inv := reachable.invariant.1
    exact ⟨fun _ _ _ found bound => inv.clearsLive_found found bound,
      fun _ _ _ taken entered => inv.clearsLive_entered taken entered⟩

/-- New tables whose directory slots all look like the name `b` -/
def Garbage.namedB : Garbage where
  inodeTable := fun _ => ⟨.tSymLink, 7, 1, 3⟩
  fsData := fun position => if position % 44 = 0 then 98 else 0
  openFileTable := fun _ => ⟨1, 5⟩

/-- The name `b` in the memory of the second file system is never taken for an entry. -/
theorem garbage_independence_namedB :
    ∃ left right, tfsInit (fun _ => true) Garbage.zeros smallParams = .ok (0, some left) ∧
      tfsInit (fun _ => true) Garbage.namedB smallParams = .ok (0, some right) ∧
      observed left [.tfsOpen (some pathA) ⟨true, false, false⟩, .tfsUnlink (some pathB),
          .tfsWrite 0 (some [1, 2, 3]) 3, .tfsLink (some pathA) (some pathB),
          .tfsUnlink (some pathB)] =
        observed right [.tfsOpen (some pathA) ⟨true, false, false⟩, .tfsUnlink (some pathB),
          .tfsWrite 0 (some [1, 2, 3]) 3, .tfsLink (some pathA) (some pathB),
          .tfsUnlink (some pathB)] := by
  obtain ⟨left, leftStarted⟩ := @tfsInit_succeeds (fun _ => true) Garbage.zeros smallParams
    (by decide) (by decide) ⟨by decide, by decide, by decide, by decide, by decide⟩ (by decide)
    (by decide) (by decide)
  obtain ⟨right, rightStarted⟩ := @tfsInit_succeeds (fun _ => true) Garbage.namedB smallParams
    (by decide) (by decide) ⟨by decide, by decide, by decide, by decide, by decide⟩ (by decide)
    (by decide) (by decide)
  refine ⟨left, right, leftStarted, rightStarted,
    (garbage_independence leftStarted rightStarted _ ?_).1⟩
  intro call member
  simp only [List.mem_cons, List.not_mem_nil, or_false] at member
  rcases member with rfl | rfl | rfl | rfl | rfl
  · trivial
  · trivial
  · exact (by decide : 3 + 96 < 2 ^ 64)
  · trivial
  · trivial

end TecnicoFS.FileSystem
