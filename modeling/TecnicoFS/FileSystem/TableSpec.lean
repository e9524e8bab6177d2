/-
Specifications of the directory functions and of the open file table functions.

The directory is always the root: its inode is number 0 and its entries start at
address 0 of the data area.
-/

import TecnicoFS.FileSystem.StateSpec

set_option autoImplicit false

namespace TecnicoFS.FileSystem

open FaultAction TableSearch

variable {faults : Fault → Prop} {state : State} {slack : Slack}

/-! ### Directory entries -/

/-- A live slot carries the name and holds the inode. -/
def State.Binds (state : State) (name : CString) (inode : Nat) : Prop :=
  validSubName name ∧ ∃ slot, state.EntryLive slot ∧ state.EntryNamed slot name ∧
    state.entryInumber slot = (inode : Int)

/-- No live slot carries the name. -/
def State.Unbound (state : State) (name : CString) : Prop :=
  ∀ slot, state.EntryLive slot → ¬ state.EntryNamed slot name

/-- The slot is the first dead one. -/
def State.FirstDead (state : State) (slot : Nat) : Prop :=
  slot < state.maxDirEntries ∧ state.entryInumber slot = -1 ∧
    ∀ earlier, earlier < slot → state.EntryLive earlier

/-- Every slot is live. -/
def State.DirectoryFull (state : State) : Prop :=
  ∀ slot, slot < state.maxDirEntries → state.EntryLive slot

theorem outcome_dirEntries (root : RootOk state) (geometry : GeometryOk state) :
    Outcome faults (dirEntries 0 state) (fun base state' => base = 0 ∧ state' = state) := by
  unfold dirEntries
  apply outcome_get_bind
  rw [root.inFirstBlock]
  apply outcome_bind (@outcome_dataBlockGet _ _ 0 root.blockTaken.1)
  rintro base state' ⟨baseEq, same⟩
  rw [Nat.zero_mul, Nat.zero_mod] at baseEq
  subst base
  subst state'
  apply outcome_require_bind
  · intro _
    exact outcome_pure ⟨rfl, rfl⟩
  · intro outside
    exact (outside (by rw [Nat.zero_add]; exact geometry.dirInside)).elim

theorem outcome_addDirEntry (root : RootOk state) (geometry : GeometryOk state)
    {name : CString} {inode : Nat} (inside : inode < state.inodeTableSize) :
    Outcome faults (addDirEntry 0 name (inode : Int) state) (fun result state' =>
      (result = -1 ∧ state' = state ∧
        (¬ validSubName name ∨ ¬ state.Unbound name ∨ state.DirectoryFull)) ∨
      ∃ slot, result = 0 ∧ state' = state.bindEntry slot name inode ∧ validSubName name ∧
        state.Unbound name ∧ state.FirstDead slot) := by
  unfold addDirEntry
  apply outcome_get_bind
  apply outcome_ite
  · intro invalid
    refine outcome_pure (Or.inl ⟨rfl, rfl, Or.inl ?_⟩)
    intro short
    exact invalid ⟨short, by omega, by simpa using inside⟩
  intro valid
  rw [not_not] at valid
  apply outcome_ite
  · intro notDirectory
    exact (notDirectory root.isDirectory).elim
  intro _
  apply outcome_bind (outcome_dirEntries root geometry)
  rintro _ state' ⟨rfl, same⟩
  subst state'
  cases search : firstSlot state.maxDirEntries (fun slot => state.dInumber 0 slot != -1 &&
      state.fsData.strcmpEqual (dNameAddress 0 slot) name.bytes) with
  | some used =>
      rw [firstSlot_eq_some] at search
      obtain ⟨passes, usedInside, _⟩ := search
      rw [Bool.and_eq_true, bne_iff_ne] at passes
      refine outcome_pure (Or.inl ⟨rfl, rfl, Or.inr (Or.inl ?_)⟩)
      intro unbound
      exact unbound used ⟨usedInside, passes.1⟩ passes.2
  | none =>
      rw [firstSlot_eq_none] at search
      have unbound : state.Unbound name := by
        intro used live named
        have passed := search used live.1
        rw [Bool.and_eq_false_iff] at passed
        rcases passed with dead | different
        · rw [bne_eq_false_iff_eq] at dead
          exact live.2 dead
        · exact Bool.noConfusion (different.symm.trans named)
      cases free : firstSlot state.maxDirEntries (fun slot => state.dInumber 0 slot == -1) with
      | some slot =>
          rw [firstSlot_eq_some] at free
          obtain ⟨dead, slotInside, before⟩ := free
          rw [beq_iff_eq] at dead
          refine outcome_modify_bind (outcome_modify_bind (outcome_pure (Or.inr ?_)))
          refine ⟨slot, rfl, rfl, valid.1, unbound, slotInside, dead, ?_⟩
          intro earlier lower
          refine ⟨Nat.lt_trans lower slotInside, ?_⟩
          intro same
          have passed := before earlier lower
          rw [beq_eq_false_iff_ne] at passed
          exact passed same
      | none =>
          rw [firstSlot_eq_none] at free
          refine outcome_pure (Or.inl ⟨rfl, rfl, Or.inr (Or.inr ?_)⟩)
          intro slot slotInside
          refine ⟨slotInside, ?_⟩
          intro same
          have passed := free slot slotInside
          rw [beq_eq_false_iff_ne] at passed
          exact passed same

/-- `clear_dir_entry` clears the first slot that carries the name, live or not. -/
theorem outcome_clearDirEntry (root : RootOk state) (geometry : GeometryOk state)
    {name : CString} {slot : Nat} {post : Int → State → Prop} (short : validSubName name)
    (inside : slot < state.maxDirEntries) (named : state.EntryNamed slot name)
    (before : ∀ earlier, earlier < slot → ¬ state.EntryNamed earlier name)
    (holds : post 0 (state.scrubEntry slot)) :
    Outcome faults (clearDirEntry 0 name state) post := by
  unfold clearDirEntry
  apply outcome_get_bind
  apply outcome_ite
  · intro invalid
    exact (invalid short).elim
  intro _
  apply outcome_ite
  · intro notDirectory
    exact (notDirectory root.isDirectory).elim
  intro _
  apply outcome_bind (outcome_dirEntries root geometry)
  rintro _ state' ⟨rfl, same⟩
  subst state'
  have search : firstSlot state.maxDirEntries (fun slot =>
      state.fsData.strcmpEqual (dNameAddress 0 slot) name.bytes) = some slot := by
    rw [firstSlot_eq_some]
    refine ⟨named, inside, ?_⟩
    intro earlier lower
    exact Bool.eq_false_iff.mpr (before earlier lower)
  rw [search]
  exact outcome_modify_bind (outcome_modify_bind (outcome_pure holds))

/-- A live slot is the first one that carries its name: earlier live slots carry
other names and earlier dead slots were cleared. -/
theorem DirectoryOk.named_before (ok : DirectoryOk state) {name : CString} {slot : Nat}
    (short : validSubName name) (live : state.EntryLive slot)
    (named : state.EntryNamed slot name) (earlier : Nat) (lower : earlier < slot) :
    ¬ state.EntryNamed earlier name := by
  intro earlierNamed
  by_cases earlierLive : state.EntryLive earlier
  · have same := ok.distinct earlier slot name earlierLive live short earlierNamed named
    omega
  · exact ok.scrubbed earlier slot name lower earlierLive live short earlierNamed

/-- `find_in_dir` returns the inumber of a live slot with the name. -/
theorem outcome_findInDir_slot (root : RootOk state) (geometry : GeometryOk state)
    (searchable : Searchable faults state) {name : CString} :
    Outcome faults (findInDir 0 name state) (fun result state' => state' = state ∧
      ((result = -1 ∧ (¬ validSubName name ∨ state.Unbound name)) ∨
        ∃ slot, result = state.entryInumber slot ∧ validSubName name ∧ state.EntryLive slot ∧
          state.EntryNamed slot name)) := by
  unfold findInDir
  apply outcome_get_bind
  apply outcome_ite
  · intro invalid
    exact outcome_pure ⟨rfl, Or.inl ⟨rfl, Or.inl invalid⟩⟩
  intro valid
  rw [not_not] at valid
  apply outcome_ite
  · intro notDirectory
    exact (notDirectory root.isDirectory).elim
  intro _
  apply outcome_bind (outcome_dirEntries root geometry)
  rintro _ state' ⟨rfl, same⟩
  subst state'
  have short : name.bytes.length < maxFileName := by
    unfold validSubName CString.strlen at valid
    unfold maxFileName at *
    omega
  apply outcome_bind (@outcome_intSearch _ _ _ _
    (fun found state' => state' = state ∧
      Found (fun slot => state.EntryLive slot ∧ state.EntryNamed slot name) (state.Unbound name)
        found) ?_ ?_ ?_)
  · rintro found state' ⟨same, facts⟩
    subst state'
    cases found with
    | none => exact outcome_pure ⟨rfl, Or.inl ⟨rfl, Or.inr facts⟩⟩
    | some slot => exact outcome_pure ⟨rfl, Or.inr ⟨slot, rfl, valid, facts.1, facts.2⟩⟩
  · intro slot inside _ passes _
    rw [Bool.and_eq_true, bne_iff_ne,
      ByteMemory.strncmpEqual_eq_strcmpEqual _ _ _ _ short] at passes
    exact ⟨rfl, ⟨inside, passes.1⟩, passes.2⟩
  · intro absent
    refine ⟨rfl, ?_⟩
    intro slot live named
    have passed := absent slot live.1
    rw [Bool.and_eq_false_iff, ByteMemory.strncmpEqual_eq_strcmpEqual _ _ _ _ short] at passed
    rcases passed with dead | different
    · rw [bne_eq_false_iff_eq] at dead
      exact live.2 dead
    · exact Bool.noConfusion (different.symm.trans named)
  · intro long
    exact searchable.resolve_right long

theorem outcome_findInDir (root : RootOk state) (geometry : GeometryOk state)
    (holders : HoldersOk state) (searchable : Searchable faults state) {name : CString} :
    Outcome faults (findInDir 0 name state) (fun result state' => state' = state ∧
      ((result = -1 ∧ (¬ validSubName name ∨ state.Unbound name)) ∨
        ∃ inode : Nat, result = (inode : Int) ∧ state.Binds name inode)) := by
  apply (outcome_findInDir_slot root geometry searchable).mono
  rintro result state' ⟨same, missing | ⟨slot, resultEq, valid, live, named⟩⟩
  · exact ⟨same, Or.inl missing⟩
  · obtain ⟨inode, holds, _⟩ := holders.entryHolds slot live
    exact ⟨same, Or.inr ⟨inode, resultEq.trans holds, valid, slot, live, named, holds⟩⟩

/-! ### The open file table -/

theorem outcome_addToOpenFileTable
    (counted : faults .undefined ∨ state.maxOpenFiles < 2 ^ 31) {inode offset : Nat}
    (taken : state.InodeTaken inode) :
    Outcome faults (addToOpenFileTable (inode : Int) offset state) (fun result state' =>
      (result = -1 ∧ state' = state ∧ ∀ handle, handle < state.maxOpenFiles →
        state.freeOpenFileEntries handle = .taken) ∨
      ∃ handle : Nat, result = (handle : Int) ∧
        state' = state.openHandle handle { ofInumber := inode, ofOffset := offset } ∧
        handle < 2 ^ 31 ∧ handle < state.maxOpenFiles ∧
        state.freeOpenFileEntries handle = .free ∧
        ∀ earlier, earlier < handle → state.freeOpenFileEntries earlier = .taken) := by
  unfold addToOpenFileTable
  apply outcome_get_bind
  apply outcome_ite
  · intro invalid
    exact (invalid ⟨by omega, by simpa using taken.1⟩).elim
  intro _
  apply outcome_ite
  · intro notTaken
    exact (notTaken (by rw [Int.toNat_natCast]; exact taken.2)).elim
  intro _
  apply outcome_bind (@outcome_intSearch _ _ _ _
    (fun found state' => state' = state ∧
      Found (fun handle => handle < 2 ^ 31 ∧ handle < state.maxOpenFiles ∧
          state.freeOpenFileEntries handle = .free ∧
          ∀ earlier, earlier < handle → state.freeOpenFileEntries earlier = .taken)
        (∀ handle, handle < state.maxOpenFiles → state.freeOpenFileEntries handle = .taken)
        found) ?_ ?_ ?_)
  · rintro found state' ⟨same, facts⟩
    subst state'
    cases found with
    | none => exact outcome_pure (Or.inl ⟨rfl, rfl, facts⟩)
    | some handle =>
        exact outcome_modify_bind (outcome_modify_bind (outcome_pure
          (Or.inr ⟨handle, rfl, rfl, facts⟩)))
  · intro handle inside small passes before
    refine ⟨rfl, small, inside, by simpa using passes, ?_⟩
    intro earlier lower
    have passed := before earlier lower
    cases mark : state.freeOpenFileEntries earlier with
    | free => simp [mark] at passed
    | taken => rfl
  · intro absent
    refine ⟨rfl, ?_⟩
    intro handle inside
    have passed := absent handle inside
    cases mark : state.freeOpenFileEntries handle with
    | free => simp [mark] at passed
    | taken => rfl
  · intro long
    exact counted.resolve_right long

/-- The entry found for a handle is its own slot, and that slot is TAKEN. -/
theorem outcome_getOpenFileEntry {fhandle : Int} :
    Outcome faults (getOpenFileEntry fhandle state) (fun found state' => state' = state ∧
      match found with
      | some file => fhandle = (file : Int) ∧ state.HandleTaken file
      | none => ∀ handle : Nat, fhandle = (handle : Int) → ¬ state.HandleTaken handle) := by
  unfold getOpenFileEntry
  apply outcome_get_bind
  apply outcome_ite
  · intro invalid
    refine outcome_pure ⟨rfl, ?_⟩
    rintro handle rfl ⟨inside, taken⟩
    rcases invalid with outside | notTaken
    · exact outside ⟨by omega, by simpa using inside⟩
    · exact notTaken (by rw [Int.toNat_natCast]; exact taken)
  · intro valid
    rw [not_or, not_not, not_not] at valid
    exact outcome_pure ⟨rfl, (Int.toNat_of_nonneg valid.1.1).symm, valid.1.2, valid.2⟩

theorem outcome_isFileOpen (wide : Wide faults state) {inode : Nat}
    (inside : inode < state.inodeTableSize) {post : Bool → State → Prop}
    (opened : state.IsOpen inode → post true state)
    (unopened : ¬ state.IsOpen inode → post false state) :
    Outcome faults (isFileOpen (inode : Int) state) post := by
  unfold isFileOpen
  apply outcome_get_bind
  apply outcome_ite
  · intro invalid
    exact (invalid ⟨by omega, by simpa using inside⟩).elim
  intro _
  apply outcome_bind (@outcome_intSearch _ _ _ _ (fun found state' => post found.isSome state') ?_
    ?_ ?_)
  · intro found state' holds
    exact outcome_pure holds
  · intro handle handleInside _ passes _
    rw [Bool.and_eq_true, beq_iff_eq, beq_iff_eq] at passes
    exact opened ⟨handle, ⟨handleInside, passes.1⟩, passes.2⟩
  · intro absent
    apply unopened
    rintro ⟨handle, taken, refers⟩
    have passed := absent handle taken.1
    rw [Bool.and_eq_false_iff, beq_eq_false_iff_ne, beq_eq_false_iff_ne] at passed
    rcases passed with notTaken | other
    · exact notTaken taken.2
    · exact other refers
  · intro long
    exact wide.of_not (fun fits => fits.2.2.1) long

end TecnicoFS.FileSystem
