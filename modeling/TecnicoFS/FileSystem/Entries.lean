/-
The slots of the root directory as a table of inumbers and names.

Block 0 stores the slots as raw bytes.  The lemmas below say what filling a slot,
scrubbing a slot and writing elsewhere in the data area do to this table, so that
no later proof looks at addresses inside block 0 again.
-/

import TecnicoFS.FileSystem.State

set_option autoImplicit false

namespace TecnicoFS.FileSystem

open TableSearch

namespace State

/-- The inumber field of a slot of the root directory -/
def entryInumber (state : State) (slot : Nat) : Int := state.dInumber 0 slot

/-- The name field of the slot reads as this string. -/
def EntryNamed (state : State) (slot : Nat) (name : CString) : Prop :=
  state.fsData.strcmpEqual (dNameAddress 0 slot) name.bytes = true

/-- The slot holds an inumber. -/
def EntryLive (state : State) (slot : Nat) : Prop :=
  slot < state.maxDirEntries ∧ state.entryInumber slot ≠ -1

instance (state : State) (slot : Nat) (name : CString) : Decidable (state.EntryNamed slot name) :=
  inferInstanceAs (Decidable (_ = true))

instance (state : State) (slot : Nat) : Decidable (state.EntryLive slot) :=
  inferInstanceAs (Decidable (_ ∧ _))

/-- The number of directory entries that hold the inumber -/
def entryCount (state : State) (inumber : Nat) : Nat :=
  Nat.count (fun slot => state.entryInumber slot = (inumber : Int)) state.maxDirEntries

/-- The slot after `add_dir_entry` filled it -/
def bindEntry (state : State) (slot : Nat) (name : CString) (inumber : Int) : State :=
  (state.store (0 + dirEntrySize * slot + maxFileName)
    (ByteMemory.encodeInt32 inumber)).store (dNameAddress 0 slot) (dNameBytes name)

/-- The slot after `clear_dir_entry` cleared it -/
def scrubEntry (state : State) (slot : Nat) : State :=
  (state.store (0 + dirEntrySize * slot + maxFileName)
    (ByteMemory.encodeInt32 (-1))).store (dNameAddress 0 slot) (List.replicate maxFileName 0)

end State

theorem dNameBytes_length (name : CString) (short : validSubName name) :
    (dNameBytes name).length = maxFileName := by
  unfold validSubName CString.strlen at short
  simp only [dNameBytes, CString.strlen, List.length_append, List.length_take,
    List.length_replicate, List.length_cons, List.length_nil, maxFileName] at short ⊢
  omega

/-- The stored field starts with the name and its terminator. -/
theorem dNameBytes_take (name : CString) (short : validSubName name) :
    (dNameBytes name).take (name.strlen + 1) = name.bytes ++ [0] := by
  unfold validSubName CString.strlen at short
  have whole : name.bytes.take (maxFileName - 1) = name.bytes :=
    List.take_of_length_le (by unfold maxFileName at short ⊢; omega)
  have padding : List.replicate (maxFileName - 1 - name.strlen) (0 : UInt8) ++ [0] =
      0 :: List.replicate (maxFileName - 1 - name.strlen) 0 := by
    rw [← List.replicate_succ', List.replicate_succ]
  rw [dNameBytes, whole, List.append_assoc, padding, CString.strlen, List.take_append,
    List.take_of_length_le (by omega)]
  have one : name.bytes.length + 1 - name.bytes.length = 1 := by omega
  rw [one, List.take_succ_cons, List.take_zero]

namespace State

/-! ### Writes that miss a slot -/

theorem entryInumber_store (state : State) (slot address : Nat) (bytes : List UInt8)
    (missed : dirEntrySize * (slot + 1) ≤ address ∨
      address + bytes.length ≤ dirEntrySize * slot + maxFileName) :
    (state.store address bytes).entryInumber slot = state.entryInumber slot := by
  apply ByteMemory.readInt32_writeBytes_disjoint
  unfold dirEntrySize maxFileName at *
  omega

theorem entryNamed_store (state : State) (slot address : Nat) (bytes : List UInt8)
    (name : CString) (short : validSubName name)
    (missed : dirEntrySize * slot + maxFileName ≤ address ∨
      address + bytes.length ≤ dirEntrySize * slot) :
    (state.store address bytes).EntryNamed slot name ↔ state.EntryNamed slot name := by
  unfold EntryNamed
  rw [ByteMemory.strcmpEqual_iff, ByteMemory.strcmpEqual_iff]
  have unread : (state.fsData.writeBytes address bytes).readBytes (dNameAddress 0 slot)
      (name.bytes.length + 1) =
        state.fsData.readBytes (dNameAddress 0 slot) (name.bytes.length + 1) := by
    apply ByteMemory.readBytes_writeBytes_disjoint
    unfold validSubName CString.strlen at short
    unfold dNameAddress dirEntrySize maxFileName at *
    omega
  unfold store
  rw [unread]

/-! ### Filling and scrubbing a slot -/

theorem bindEntry_entryInumber (state : State) (slot other : Nat) (name : CString)
    (inumber : Int) (short : validSubName name) (lower : -1 ≤ inumber)
    (upper : inumber < 2 ^ 31) :
    (state.bindEntry slot name inumber).entryInumber other =
      if other = slot then inumber else state.entryInumber other := by
  unfold bindEntry
  have nameLength := dNameBytes_length name short
  by_cases same : other = slot
  · subst other
    rw [if_pos rfl, entryInumber_store _ _ _ _ (Or.inr (by
      rw [nameLength]
      unfold dNameAddress
      omega))]
    exact ByteMemory.readInt32_writeBytes _ _ _ (by omega) (by omega)
  · rw [if_neg same, entryInumber_store, entryInumber_store]
    · rw [ByteMemory.encodeInt32_length]
      unfold dirEntrySize maxFileName
      omega
    · rw [nameLength]
      unfold dNameAddress dirEntrySize maxFileName
      omega

theorem scrubEntry_entryInumber (state : State) (slot other : Nat) :
    (state.scrubEntry slot).entryInumber other =
      if other = slot then -1 else state.entryInumber other := by
  unfold scrubEntry
  by_cases same : other = slot
  · subst other
    rw [if_pos rfl, entryInumber_store _ _ _ _ (Or.inr (by
      rw [List.length_replicate]
      unfold dNameAddress
      omega))]
    exact ByteMemory.readInt32_writeBytes _ _ _ (by omega) (by omega)
  · rw [if_neg same, entryInumber_store, entryInumber_store]
    · rw [ByteMemory.encodeInt32_length]
      unfold dirEntrySize maxFileName
      omega
    · rw [List.length_replicate]
      unfold dNameAddress dirEntrySize maxFileName
      omega

/-- Two names read from one slot are the same name. -/
theorem EntryNamed.unique {state : State} {slot : Nat} {left right : CString}
    (leftNamed : state.EntryNamed slot left) (rightNamed : state.EntryNamed slot right) :
    left = right := by
  unfold EntryNamed at leftNamed rightNamed
  rw [ByteMemory.strcmpEqual_iff] at leftNamed rightNamed
  exact CString.eq_of_terminated leftNamed rightNamed

private theorem bindEntry_named_self (state : State) (slot : Nat) (name : CString)
    (inumber : Int) (short : validSubName name) :
    (state.bindEntry slot name inumber).EntryNamed slot name := by
  have nameLength := dNameBytes_length name short
  have inside : name.strlen + 1 ≤ maxFileName := by
    unfold validSubName maxFileName at short
    unfold maxFileName
    omega
  unfold EntryNamed
  rw [ByteMemory.strcmpEqual_iff]
  change (ByteMemory.writeBytes _ (dNameAddress 0 slot) (dNameBytes name)).readBytes
    (dNameAddress 0 slot) (name.strlen + 1) = name.bytes ++ [0]
  rw [← Nat.min_eq_left inside, ← ByteMemory.readBytes_take, ← nameLength,
    ByteMemory.readBytes_writeBytes, dNameBytes_take name short]

theorem bindEntry_entryNamed (state : State) (slot other : Nat) (name query : CString)
    (inumber : Int) (short : validSubName name) (queryShort : validSubName query) :
    (state.bindEntry slot name inumber).EntryNamed other query ↔
      if other = slot then query = name else state.EntryNamed other query := by
  have nameLength := dNameBytes_length name short
  by_cases same : other = slot
  · subst other
    rw [if_pos rfl]
    have stored := bindEntry_named_self state slot name inumber short
    constructor
    · intro named
      exact named.unique stored
    · intro equal
      subst equal
      exact stored
  · rw [if_neg same]
    unfold bindEntry
    rw [entryNamed_store _ _ _ _ _ queryShort, entryNamed_store _ _ _ _ _ queryShort]
    · rw [ByteMemory.encodeInt32_length]
      unfold dirEntrySize maxFileName
      omega
    · rw [nameLength]
      unfold dNameAddress dirEntrySize maxFileName
      omega

theorem scrubEntry_entryNamed (state : State) (slot other : Nat) (query : CString)
    (queryShort : validSubName query) :
    (state.scrubEntry slot).EntryNamed other query ↔
      other ≠ slot ∧ state.EntryNamed other query := by
  by_cases same : other = slot
  · subst other
    constructor
    · intro named
      -- The first byte of the field is NUL, and a valid name is not empty.
      have first : (state.scrubEntry slot).fsData (dNameAddress 0 slot) = 0 := by
        have inside := ByteMemory.writeBytes_inside
          (state.store (0 + dirEntrySize * slot + maxFileName)
            (ByteMemory.encodeInt32 (-1))).fsData (dNameAddress 0 slot) 0
          (List.replicate maxFileName 0) (by rw [List.length_replicate]; decide)
        rw [List.getElem_replicate] at inside
        exact inside
      unfold EntryNamed at named
      cases bytesEq : query.bytes with
      | nil =>
          unfold validSubName CString.strlen at queryShort
          rw [bytesEq] at queryShort
          exact (queryShort (Or.inl rfl)).elim
      | cons byte rest =>
          rw [bytesEq, ByteMemory.strcmpEqual, first, Bool.and_eq_true, beq_iff_eq] at named
          have member : (0 : UInt8) ∈ query.bytes := by
            rw [bytesEq, named.1]
            exact List.mem_cons_self
          exact (query.noNul member).elim
    · intro impossible
      exact (impossible.1 rfl).elim
  · rw [and_iff_right same]
    unfold scrubEntry
    rw [entryNamed_store _ _ _ _ _ queryShort, entryNamed_store _ _ _ _ _ queryShort]
    · rw [ByteMemory.encodeInt32_length]
      unfold dirEntrySize maxFileName
      omega
    · rw [List.length_replicate]
      unfold dNameAddress dirEntrySize maxFileName
      omega

end State

end TecnicoFS.FileSystem
