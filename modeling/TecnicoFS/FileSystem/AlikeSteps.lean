/-
Every function of the state module treats alike states alike.

Each theorem runs one function in two alike states: both runs return the same value
and leave alike states, or both stop in the same fault.  No size is assumed to fit
anything, so the runs may stop in undefined behaviour, but then both do.
-/

import TecnicoFS.FileSystem.Alike
import TecnicoFS.Library.TwinRuns

set_option autoImplicit false

namespace TecnicoFS.FileSystem

open FaultAction TableSearch

variable {left right : State} {slack : Slack}

/-- The admitted faults of what is known of the left run alone -/
theorem Wide.any (state : State) : Wide (fun _ => True) state := Or.inl trivial

/-! ### C building blocks -/

theorem twins_intOfSize {index : Nat} {post : Int → State → State → Prop}
    (small : index < 2 ^ 31 → post (index : Int) left right) :
    Twins (intOfSize index left) (intOfSize index right) post :=
  twins_ite Iff.rfl (fun fits => twins_pure (small fits)) (fun _ => twins_fail)

theorem twins_intSearch {size : Nat} {test test' : Nat → Bool}
    {post : Option Nat → State → State → Prop}
    (same : ∀ slot, slot < size → test' slot = test slot)
    (found : ∀ slot, slot < size → slot < 2 ^ 31 → test slot = true → post (some slot) left right)
    (missed : post none left right) :
    Twins (intSearch size test left) (intSearch size test' right) post := by
  unfold intSearch
  rw [firstSlot_congr (fun slot inside => same slot (by omega))]
  cases search : firstSlot (min size (2 ^ 31)) test with
  | some slot =>
      rw [firstSlot_eq_some] at search
      obtain ⟨passes, inside, _⟩ := search
      exact twins_pure (found slot (by omega) (by omega) passes)
  | none => exact twins_ite Iff.rfl (fun _ => twins_pure missed) (fun _ => twins_fail)

theorem twins_storeBytes (same : SameTables left right) {address : Nat} {bytes : List UInt8}
    {post : Unit → State → State → Prop}
    (stored : address + bytes.length ≤ left.dataBytes →
      post () (left.store address bytes) (right.store address bytes)) :
    Twins (storeBytes address bytes left) (storeBytes address bytes right) post := by
  unfold storeBytes
  apply twins_get_bind
  apply twins_require_bind
  · rw [same.dataBytes]
  · intro inside
    exact twins_modify (stored inside)

/-! ### Data blocks -/

theorem twins_dataBlockAlloc (same : SameTables left right) :
    Twins (dataBlockAlloc left) (dataBlockAlloc right) (fun result left' right' =>
      (result = -1 ∧ left' = left ∧ right' = right) ∨
      ∃ block : Nat, result = (block : Int) ∧ left' = left.setFreeBlock block .taken ∧
        right' = right.setFreeBlock block .taken) := by
  unfold dataBlockAlloc
  apply twins_get_bind
  rw [same.dataBlocks, same.blockSize, same.freeBlocks]
  apply twins_require_bind Iff.rfl
  intro _
  cases firstSlot left.dataBlocks (fun slot => left.freeBlocks slot == .free) with
  | some block =>
      apply twins_modify_bind
      apply twins_intOfSize
      intro _
      exact Or.inr ⟨block, rfl, rfl, rfl⟩
  | none => exact twins_pure (Or.inl ⟨rfl, rfl, rfl⟩)

theorem twins_dataBlockFree (same : SameTables left right) (block : Int) :
    Twins (dataBlockFree block left) (dataBlockFree block right) (fun _ left' right' =>
      left' = left.setFreeBlock block.toNat .free ∧
        right' = right.setFreeBlock block.toNat .free) := by
  unfold dataBlockFree
  apply twins_get_bind
  apply twins_require_bind (same.validBlockNumber block)
  intro _
  exact twins_modify ⟨rfl, rfl⟩

theorem twins_dataBlockGet (same : SameTables left right) (block : Int) :
    Twins (dataBlockGet block left) (dataBlockGet block right) (fun address left' right' =>
      address = block.toNat * left.blockSize % 2 ^ 64 ∧ left' = left ∧ right' = right) := by
  unfold dataBlockGet
  apply twins_get_bind
  apply twins_require_bind (same.validBlockNumber block)
  intro _
  rw [same.blockSize]
  exact twins_pure ⟨rfl, rfl, rfl⟩

/-! ### Inodes -/

theorem twins_inodeAlloc (same : SameTables left right) :
    Twins (inodeAlloc left) (inodeAlloc right) (fun result left' right' =>
      (result = -1 ∧ left' = left ∧ right' = right) ∨
      ∃ slot : Nat, result = (slot : Int) ∧ left' = left.setFreeinode slot .taken ∧
        right' = right.setFreeinode slot .taken) := by
  unfold inodeAlloc
  apply twins_get_bind
  rw [same.inodeTableSize, same.blockSize, same.freeinodeTs]
  apply twins_require_bind Iff.rfl
  intro _
  cases firstSlot left.inodeTableSize (fun slot => left.freeinodeTs slot == .free) with
  | some slot =>
      apply twins_modify_bind
      apply twins_intOfSize
      intro _
      exact Or.inr ⟨slot, rfl, rfl, rfl⟩
  | none => exact twins_pure (Or.inl ⟨rfl, rfl, rfl⟩)

theorem twins_inodeGet (same : SameTables left right) (inumber : Int) :
    Twins (inodeGet inumber left) (inodeGet inumber right) (fun slot left' right' =>
      slot = inumber.toNat ∧ left' = left ∧ right' = right) := by
  unfold inodeGet
  apply twins_get_bind
  apply twins_require_bind (same.validInumber inumber)
  intro _
  exact twins_pure ⟨rfl, rfl, rfl⟩

theorem twins_inodeDelete (alike : Alike left right) (inumber : Int) :
    Twins (inodeDelete inumber left) (inodeDelete inumber right)
      (fun _ left' right' => Alike left' right') := by
  unfold inodeDelete
  apply twins_get_bind
  apply twins_require_bind (alike.validInumber inumber)
  intro valid
  apply twins_require_bind
  · rw [alike.freeinodeTs]
  intro isTaken
  have same := alike.inodes inumber.toNat ⟨valid.2, isTaken⟩
  dsimp only
  rw [same]
  apply twins_ite Iff.rfl
  · intro _
    apply twins_bind (twins_dataBlockFree alike.toSameTables _)
    rintro _ left' right' ⟨sameLeft, sameRight⟩
    subst left' right'
    exact twins_modify ((alike.setFreeBlock _ _).dropInode inumber.toNat _)
  · intro _
    exact twins_modify (alike.dropInode inumber.toNat _)

/-- A new inode is initialized before anything reads it. -/
theorem twins_inodeCreate (alike : Alike left right) {iType : InodeType}
    (notDirectory : iType ≠ .tDirectory) :
    Twins (inodeCreate iType left) (inodeCreate iType right) (fun result left' right' =>
      (result = -1 ∧ left' = left ∧ right' = right) ∨
      ∃ slot : Nat, result = (slot : Int) ∧ left' = left.takeInode slot (newInode iType) ∧
        right' = right.takeInode slot (newInode iType)) := by
  unfold inodeCreate
  apply twins_bind (twins_inodeAlloc alike.toSameTables)
  rintro result left' right' (⟨rfl, sameLeft, sameRight⟩ | ⟨slot, rfl, rfl, rfl⟩)
  · subst left' right'
    rw [if_pos rfl]
    exact twins_pure (Or.inl ⟨rfl, rfl, rfl⟩)
  · rw [if_neg (by omega)]
    apply twins_modify_bind
    cases iType with
    | tDirectory => exact (notDirectory rfl).elim
    | tFile =>
        refine twins_modify_bind (twins_modify_bind (twins_pure (Or.inr ⟨slot, rfl, ?_, ?_⟩)))
        · simp [newInode, State.takeInode, State.setInode, State.setFreeinode]
        · simp [newInode, State.takeInode, State.setInode, State.setFreeinode]
    | tSymLink =>
        refine twins_modify_bind (twins_modify_bind (twins_pure (Or.inr ⟨slot, rfl, ?_, ?_⟩)))
        · simp [newInode, State.takeInode, State.setInode, State.setFreeinode]
        · simp [newInode, State.takeInode, State.setInode, State.setFreeinode]

/-! ### Directory entries -/

theorem twins_dirEntries (alike : Alike left right) (root : RootOk left) :
    Twins (dirEntries 0 left) (dirEntries 0 right) (fun base left' right' =>
      base = 0 ∧ left' = left ∧ right' = right) := by
  unfold dirEntries
  apply twins_get_bind
  rw [alike.inodes 0 root.inodeTaken, root.inFirstBlock]
  apply twins_bind (twins_dataBlockGet alike.toSameTables 0)
  rintro base _ _ ⟨baseEq, rfl, rfl⟩
  rw [show (0 : Int).toNat = 0 from rfl, Nat.zero_mul, Nat.zero_mod] at baseEq
  subst base
  apply twins_require_bind
  · rw [alike.maxDirEntries, alike.dataBytes]
  · intro _
    exact twins_pure ⟨rfl, rfl, rfl⟩

/-- A name is compared alike with every live slot. -/
theorem Alike.strcmpEqual_live (alike : Alike left right) {name : CString}
    (short : validSubName name) {slot : Nat} (inside : slot < left.maxDirEntries) :
    (right.dInumber 0 slot != -1 &&
        right.fsData.strcmpEqual (dNameAddress 0 slot) name.bytes) =
      (left.dInumber 0 slot != -1 &&
        left.fsData.strcmpEqual (dNameAddress 0 slot) name.bytes) := by
  have sameInumber : right.dInumber 0 slot = left.dInumber 0 slot :=
    alike.slots.inumber slot inside
  rw [sameInumber]
  by_cases dead : left.dInumber 0 slot = -1
  · rw [dead]
    rfl
  · congr 1
    rw [Bool.eq_iff_iff]
    exact alike.slots.named slot slot name (Nat.le_refl _) ⟨inside, dead⟩ short

theorem twins_addDirEntry (alike : Alike left right) (inv : Invariant left slack)
    (name : CString) (inode : Nat) :
    Twins (addDirEntry 0 name (inode : Int) left) (addDirEntry 0 name (inode : Int) right)
      (fun result left' right' =>
        (result = -1 ∧ left' = left ∧ right' = right) ∨
        ∃ slot, result = 0 ∧ left' = left.bindEntry slot name inode ∧
          right' = right.bindEntry slot name inode ∧ validSubName name ∧
          left.FirstDead slot) := by
  unfold addDirEntry
  apply twins_get_bind
  apply twins_ite
  · rw [alike.validInumber]
  · intro _
    exact twins_pure (Or.inl ⟨rfl, rfl, rfl⟩)
  intro valid
  rw [not_not] at valid
  rw [alike.inodes 0 inv.root.inodeTaken]
  apply twins_ite Iff.rfl
  · intro _
    exact twins_pure (Or.inl ⟨rfl, rfl, rfl⟩)
  intro _
  apply twins_bind (twins_dirEntries alike inv.root)
  rintro _ left' right' ⟨rfl, sameLeft, sameRight⟩
  subst left' right'
  rw [alike.maxDirEntries,
    firstSlot_congr (fun slot inside => alike.strcmpEqual_live valid.1 inside)]
  cases firstSlot left.maxDirEntries (fun slot => left.dInumber 0 slot != -1 &&
      left.fsData.strcmpEqual (dNameAddress 0 slot) name.bytes) with
  | some _ => exact twins_pure (Or.inl ⟨rfl, rfl, rfl⟩)
  | none =>
      have sameDead (slot : Nat) (inside : slot < left.maxDirEntries) :
          (right.dInumber 0 slot == -1) = (left.dInumber 0 slot == -1) :=
        congrArg (· == -1) (alike.slots.inumber slot inside)
      rw [firstSlot_congr sameDead]
      cases search : firstSlot left.maxDirEntries (fun slot => left.dInumber 0 slot == -1) with
      | some slot =>
          rw [firstSlot_eq_some] at search
          obtain ⟨dead, inside, before⟩ := search
          refine twins_modify_bind (twins_modify_bind (twins_pure (Or.inr ?_)))
          refine ⟨slot, rfl, rfl, rfl, valid.1, inside, beq_iff_eq.mp dead, ?_⟩
          intro earlier lower
          exact ⟨Nat.lt_trans lower inside, beq_eq_false_iff_ne.mp (before earlier lower)⟩
      | none => exact twins_pure (Or.inl ⟨rfl, rfl, rfl⟩)

/-- The first slot with the name of a live slot is that slot in both states. -/
theorem twins_clearDirEntry (alike : Alike left right) (root : RootOk left) {name : CString}
    {slot : Nat} (short : validSubName name) (live : left.EntryLive slot)
    (named : left.EntryNamed slot name)
    (before : ∀ earlier, earlier < slot → ¬ left.EntryNamed earlier name) :
    Twins (clearDirEntry 0 name left) (clearDirEntry 0 name right) (fun result left' right' =>
      result = 0 ∧ left' = left.scrubEntry slot ∧ right' = right.scrubEntry slot) := by
  have sameNames (other : Nat) (below : other ≤ slot) :
      right.EntryNamed other name ↔ left.EntryNamed other name :=
    alike.slots.named other slot name below live short
  have leftSearch : firstSlot left.maxDirEntries (fun slot =>
      left.fsData.strcmpEqual (dNameAddress 0 slot) name.bytes) = some slot := by
    rw [firstSlot_eq_some]
    exact ⟨named, live.1, fun earlier lower => Bool.eq_false_iff.mpr (before earlier lower)⟩
  have rightSearch : firstSlot left.maxDirEntries (fun slot =>
      right.fsData.strcmpEqual (dNameAddress 0 slot) name.bytes) = some slot := by
    rw [firstSlot_eq_some]
    refine ⟨(sameNames slot (Nat.le_refl _)).mpr named, live.1, ?_⟩
    intro earlier lower
    rw [Bool.eq_false_iff]
    exact fun found => before earlier lower ((sameNames earlier (Nat.le_of_lt lower)).mp found)
  unfold clearDirEntry
  apply twins_get_bind
  apply twins_ite Iff.rfl
  · intro invalid
    exact (invalid short).elim
  intro _
  rw [alike.inodes 0 root.inodeTaken]
  apply twins_ite Iff.rfl
  · intro notDirectory
    exact (notDirectory root.isDirectory).elim
  intro _
  apply twins_bind (twins_dirEntries alike root)
  rintro _ left' right' ⟨rfl, sameLeft, sameRight⟩
  subst left' right'
  rw [alike.maxDirEntries, leftSearch, rightSearch]
  exact twins_modify_bind (twins_modify_bind (twins_pure ⟨rfl, rfl, rfl⟩))

theorem twins_findInDir (alike : Alike left right) (root : RootOk left) (name : CString) :
    Twins (findInDir 0 name left) (findInDir 0 name right) (fun _ left' right' =>
      left' = left ∧ right' = right) := by
  unfold findInDir
  apply twins_get_bind
  apply twins_ite Iff.rfl
  · intro _
    exact twins_pure ⟨rfl, rfl⟩
  intro valid
  rw [not_not] at valid
  have short : name.bytes.length < maxFileName := by
    unfold validSubName CString.strlen at valid
    unfold maxFileName at *
    omega
  rw [alike.inodes 0 root.inodeTaken]
  apply twins_ite Iff.rfl
  · intro _
    exact twins_pure ⟨rfl, rfl⟩
  intro _
  apply twins_bind (twins_dirEntries alike root)
  rintro _ left' right' ⟨rfl, sameLeft, sameRight⟩
  subst left' right'
  rw [alike.maxDirEntries]
  refine @twins_bind _ _ _ _ _ _ _ _ _ _ (fun found left' right' => left' = left ∧
    right' = right ∧ ∀ slot, found = some slot → slot < left.maxDirEntries) _
      (twins_intSearch ?_ ?_ ?_) ?_
  · intro slot inside
    rw [ByteMemory.strncmpEqual_eq_strcmpEqual _ _ _ _ short,
      ByteMemory.strncmpEqual_eq_strcmpEqual _ _ _ _ short]
    exact alike.strcmpEqual_live valid inside
  · intro slot inside _ _
    refine ⟨rfl, rfl, ?_⟩
    intro other same
    cases same
    exact inside
  · exact ⟨rfl, rfl, fun _ impossible => by cases impossible⟩
  · rintro found left' right' ⟨sameLeft, sameRight, inside⟩
    subst left' right'
    cases found with
    | none => exact twins_pure ⟨rfl, rfl⟩
    | some slot =>
        have same : right.dInumber 0 slot = left.dInumber 0 slot :=
          alike.slots.inumber slot (inside slot rfl)
        dsimp only
        rw [same]
        exact twins_pure ⟨rfl, rfl⟩

/-! ### Open files -/

theorem twins_addToOpenFileTable (alike : Alike left right) (inumber : Int) (offset : Nat) :
    Twins (addToOpenFileTable inumber offset left) (addToOpenFileTable inumber offset right)
      (fun _ left' right' => Alike left' right') := by
  unfold addToOpenFileTable
  apply twins_get_bind
  apply twins_ite (not_congr (alike.validInumber inumber))
  · intro _
    exact twins_pure alike
  intro _
  rw [alike.freeinodeTs]
  apply twins_ite Iff.rfl
  · intro _
    exact twins_pure alike
  intro _
  rw [alike.maxOpenFiles, alike.freeOpenFileEntries]
  apply twins_bind (@twins_intSearch _ _ _ _ _ (fun _ left' right' => left' = left ∧ right' = right)
    (fun _ _ => rfl) (fun _ _ _ _ => ⟨rfl, rfl⟩) ⟨rfl, rfl⟩)
  rintro found left' right' ⟨sameLeft, sameRight⟩
  subst left' right'
  cases found with
  | none => exact twins_pure alike
  | some handle =>
      exact twins_modify_bind (twins_modify_bind (twins_pure (alike.openHandle handle _)))

theorem twins_getOpenFileEntry (alike : Alike left right) (fhandle : Int) :
    Twins (getOpenFileEntry fhandle left) (getOpenFileEntry fhandle right)
      (fun found left' right' => left' = left ∧ right' = right ∧
        ∀ handle, found = some handle → fhandle = (handle : Int) ∧ left.HandleTaken handle) := by
  unfold getOpenFileEntry
  apply twins_get_bind
  apply twins_ite
  · rw [alike.validFileHandle, alike.freeOpenFileEntries]
  · intro _
    exact twins_pure ⟨rfl, rfl, fun _ impossible => by cases impossible⟩
  · intro valid
    rw [not_or, not_not, not_not] at valid
    refine twins_pure ⟨rfl, rfl, ?_⟩
    intro handle same
    cases same
    exact ⟨(Int.toNat_of_nonneg valid.1.1).symm, valid.1.2, valid.2⟩

theorem twins_isFileOpen (alike : Alike left right) (inumber : Int) :
    Twins (isFileOpen inumber left) (isFileOpen inumber right) (fun _ left' right' =>
      left' = left ∧ right' = right) := by
  unfold isFileOpen
  apply twins_get_bind
  apply twins_ite (not_congr (alike.validInumber inumber))
  · intro _
    exact twins_pure ⟨rfl, rfl⟩
  intro _
  rw [alike.maxOpenFiles]
  apply twins_bind (@twins_intSearch _ _ _ _ _ (fun _ left' right' => left' = left ∧ right' = right)
    ?_ (fun _ _ _ _ => ⟨rfl, rfl⟩) ⟨rfl, rfl⟩)
  · rintro found left' right' ⟨sameLeft, sameRight⟩
    subst left' right'
    exact twins_pure ⟨rfl, rfl⟩
  · intro handle inside
    rw [alike.freeOpenFileEntries]
    by_cases opened : left.freeOpenFileEntries handle = .taken
    · rw [alike.openFiles handle ⟨inside, opened⟩]
    · rw [beq_eq_false_iff_ne.mpr opened]
      rfl

theorem twins_removeFromOpenFileTable (alike : Alike left right) (inv : Invariant left slack)
    (fhandle : Int) :
    Twins (removeFromOpenFileTable fhandle left) (removeFromOpenFileTable fhandle right)
      (fun _ left' right' => Alike left' right') := by
  unfold removeFromOpenFileTable
  apply twins_bind (twins_getOpenFileEntry alike fhandle)
  rintro found left' right' ⟨sameLeft, sameRight, facts⟩
  subst left' right'
  cases found with
  | none => exact twins_pure alike
  | some handle =>
      obtain ⟨_, opened⟩ := facts handle rfl
      obtain ⟨inode, refers, _, taken, _⟩ := inv.holders.handleHolds handle opened
      apply twins_get_bind
      rw [alike.openFiles handle opened, refers]
      apply twins_require_bind
      · unfold State.ValidFileContent
        rw [alike.validInumber, alike.freeinodeTs]
      intro _
      apply twins_require_bind (alike.validFileHandle fhandle)
      intro _
      apply twins_require_bind
      · rw [alike.freeOpenFileEntries]
      intro _
      apply twins_modify_bind
      have closed : Alike (left.setFreeOpenFile fhandle.toNat .free)
          (right.setFreeOpenFile fhandle.toNat .free) := alike.closeHandle fhandle.toNat
      apply twins_bind (twins_inodeGet closed.toSameTables inode)
      rintro slot left' right' ⟨slotEq, sameLeft, sameRight⟩
      rw [Int.toNat_natCast] at slotEq
      subst slot left' right'
      apply twins_bind (twins_isFileOpen closed inode)
      rintro stillOpen left' right' ⟨sameLeft, sameRight⟩
      subst left' right'
      rw [alike.inodes inode taken]
      apply twins_ite Iff.rfl
      · intro _
        apply twins_bind (twins_inodeDelete closed inode)
        intro _ _ _ deleted
        exact twins_pure deleted
      · intro _
        exact twins_pure closed

end TecnicoFS.FileSystem
