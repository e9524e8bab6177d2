/-
The persistent state of the file system and the functions of `fs/state.c`, run by
one caller at a time.

An `int` is an integer, a `size_t` is a natural number with its arithmetic reduced
modulo `2 ^ 64`.  The malloc'ed tables are functions on slot numbers; `fsData` is
the flat data area of `dataBytes` usable bytes, and block 0 holds the entries of
the root directory as raw bytes.  A failed `ALWAYS_ASSERT` is the fault `panic`; an
access outside the data area, a division by zero, a signed overflow of a loop
counter and a `size_t` that does not fit the `int` it is returned as are the fault
`undefined`.

Left out: `insert_delay`, which only burns time, the locks, which a single caller
never waits for, and the tests of `inode_get` and `data_block_get` results against
NULL, which these functions never return.
-/

import Mathlib.Algebra.Group.Int.Defs
import TecnicoFS.Library.FaultAction
import TecnicoFS.Library.ByteMemory
import TecnicoFS.Library.TableSearch

set_option autoImplicit false

namespace TecnicoFS.FileSystem

open FaultAction TableSearch

/-- `tfs_params` -/
structure TfsParams where
  maxInodeCount : Nat
  maxBlockCount : Nat
  maxOpenFilesCount : Nat
  blockSize : Nat
  sizeRange : maxInodeCount < 2 ^ 64 ∧ maxBlockCount < 2 ^ 64 ∧
    maxOpenFilesCount < 2 ^ 64 ∧ blockSize < 2 ^ 64

inductive InodeType where
  | tFile
  | tDirectory
  | tSymLink
deriving DecidableEq

/-- `inode_t` -/
structure Inode where
  iNodeType : InodeType
  iSize : Nat
  iDataBlock : Int
  iHardLinks : Nat
deriving DecidableEq

inductive AllocationState where
  | free
  | taken
deriving DecidableEq

/-- `open_file_entry_t` without its mutex -/
structure OpenFileEntry where
  ofInumber : Int
  ofOffset : Nat
deriving DecidableEq

structure State where
  fsParams : TfsParams
  inodeTable : Nat → Inode
  freeinodeTs : Nat → AllocationState
  dataBytes : Nat
  fsData : ByteMemory
  freeBlocks : Nat → AllocationState
  openFileTable : Nat → OpenFileEntry
  freeOpenFileEntries : Nat → AllocationState

inductive Fault where
  | panic (message : String)
  | undefined
  | diverges
deriving DecidableEq

abbrev TfsAction (α : Type) : Type := FaultAction State Fault α

def rootDirInum : Int := 0

def maxFileName : Nat := 40

/-- `sizeof(dir_entry_t)`: the name and a 32-bit inumber -/
def dirEntrySize : Nat := 44

/-- `a + b` on `size_t` -/
def sizeAdd (left right : Nat) : Nat := (left + right) % 2 ^ 64

/-- `a - b` on `size_t` -/
def sizeSub (left right : Nat) : Nat := (left + 2 ^ 64 - right) % 2 ^ 64

/-- A `size_t` as the `ssize_t` of the same 64 bits. -/
def ssizeOfSize (size : Nat) : Int :=
  if size < 2 ^ 63 then (size : Int) else (size : Int) - 2 ^ 64

namespace State

def inodeTableSize (state : State) : Nat := state.fsParams.maxInodeCount

def dataBlocks (state : State) : Nat := state.fsParams.maxBlockCount

def maxOpenFiles (state : State) : Nat := state.fsParams.maxOpenFilesCount

def blockSize (state : State) : Nat := state.fsParams.blockSize

def maxDirEntries (state : State) : Nat := state.blockSize / dirEntrySize

/-! ### Single writes -/

def setInode (state : State) (slot : Nat) (inode : Inode) : State :=
  { state with inodeTable := Function.update state.inodeTable slot inode }

def setFreeinode (state : State) (slot : Nat) (mark : AllocationState) : State :=
  { state with freeinodeTs := Function.update state.freeinodeTs slot mark }

def setFreeBlock (state : State) (slot : Nat) (mark : AllocationState) : State :=
  { state with freeBlocks := Function.update state.freeBlocks slot mark }

def setOpenFile (state : State) (slot : Nat) (entry : OpenFileEntry) : State :=
  { state with openFileTable := Function.update state.openFileTable slot entry }

def setFreeOpenFile (state : State) (slot : Nat) (mark : AllocationState) : State :=
  { state with freeOpenFileEntries := Function.update state.freeOpenFileEntries slot mark }

def store (state : State) (address : Nat) (bytes : List UInt8) : State :=
  { state with fsData := state.fsData.writeBytes address bytes }

end State

def State.ValidInumber (state : State) (inumber : Int) : Prop :=
  0 ≤ inumber ∧ inumber.toNat < state.inodeTableSize

def State.ValidBlockNumber (state : State) (blockNumber : Int) : Prop :=
  0 ≤ blockNumber ∧ blockNumber.toNat < state.dataBlocks

def State.ValidFileHandle (state : State) (fhandle : Int) : Prop :=
  0 ≤ fhandle ∧ fhandle.toNat < state.maxOpenFiles

def State.ValidFileContent (state : State) (inumber : Int) : Prop :=
  state.ValidInumber inumber ∧ state.freeinodeTs inumber.toNat = .taken

instance (state : State) (inumber : Int) : Decidable (state.ValidInumber inumber) :=
  inferInstanceAs (Decidable (_ ∧ _))

instance (state : State) (blockNumber : Int) : Decidable (state.ValidBlockNumber blockNumber) :=
  inferInstanceAs (Decidable (_ ∧ _))

instance (state : State) (fhandle : Int) : Decidable (state.ValidFileHandle fhandle) :=
  inferInstanceAs (Decidable (_ ∧ _))

instance (state : State) (inumber : Int) : Decidable (state.ValidFileContent inumber) :=
  inferInstanceAs (Decidable (_ ∧ _))

/-! ### C building blocks -/

/-- `(int)index` for a `size_t` index -/
def intOfSize (index : Nat) : TfsAction Int :=
  if index < 2 ^ 31 then pure (index : Int) else fail .undefined

/-- The first slot a `for (int i = 0; i < size; i++)` loop stops at. -/
def intSearch (size : Nat) (test : Nat → Bool) : TfsAction (Option Nat) :=
  match firstSlot (min size (2 ^ 31)) test with
  | some slot => pure (some slot)
  | none => if size < 2 ^ 31 then pure none else fail .undefined

/-- `memcpy` into the data area -/
def storeBytes (address : Nat) (bytes : List UInt8) : TfsAction Unit := do
  let state ← get
  require (address + bytes.length ≤ state.dataBytes) .undefined
  modify (fun state => state.store address bytes)

/-! ### Data blocks -/

def dataBlockAlloc : TfsAction Int := do
  let state ← get
  require (state.dataBlocks = 0 ∨ state.blockSize ≠ 0) .undefined
  match firstSlot state.dataBlocks (fun slot => state.freeBlocks slot == .free) with
  | some slot => do
      modify (fun state => state.setFreeBlock slot .taken)
      intOfSize slot
  | none => pure (-1)

def dataBlockFree (blockNumber : Int) : TfsAction Unit := do
  let state ← get
  require (state.ValidBlockNumber blockNumber) (.panic "data_block_free: invalid block number")
  modify (fun state => state.setFreeBlock blockNumber.toNat .free)

/-- The address of the first byte of the block within the data area -/
def dataBlockGet (blockNumber : Int) : TfsAction Nat := do
  let state ← get
  require (state.ValidBlockNumber blockNumber) (.panic "data_block_get: invalid block number")
  pure (blockNumber.toNat * state.blockSize % 2 ^ 64)

/-! ### Inodes -/

def inodeAlloc : TfsAction Int := do
  let state ← get
  require (state.inodeTableSize = 0 ∨ state.blockSize ≠ 0) .undefined
  match firstSlot state.inodeTableSize (fun slot => state.freeinodeTs slot == .free) with
  | some slot => do
      modify (fun state => state.setFreeinode slot .taken)
      intOfSize slot
  | none => pure (-1)

/-- The inode's place in the inode table -/
def inodeGet (inumber : Int) : TfsAction Nat := do
  let state ← get
  require (state.ValidInumber inumber) (.panic "inode_get: invalid inumber")
  pure inumber.toNat

def inodeDelete (inumber : Int) : TfsAction Unit := do
  let state ← get
  require (state.ValidInumber inumber) (.panic "inode_delete: invalid inumber")
  require (state.freeinodeTs inumber.toNat = .taken) (.panic "inode_delete: inode already freed")
  let inode := state.inodeTable inumber.toNat
  if 0 < inode.iSize then dataBlockFree inode.iDataBlock else pure ()
  modify (fun state =>
    (state.setInode inumber.toNat
      { inode with iSize := 0, iDataBlock := -1, iHardLinks := 1 }).setFreeinode
        inumber.toNat .free)

/-- Label the first `count` entries of a directory block as empty. -/
def clearDirBlock (base : Nat) : Nat → TfsAction Unit
  | 0 => pure ()
  | count + 1 => do
      clearDirBlock base count
      storeBytes (base + dirEntrySize * count + maxFileName) (ByteMemory.encodeInt32 (-1))

def inodeCreate (iType : InodeType) : TfsAction Int := do
  let inumber ← inodeAlloc
  if inumber = -1 then
    pure (-1)
  else
    let slot := inumber.toNat
    modify (fun state => state.setInode slot { state.inodeTable slot with iNodeType := iType })
    match iType with
    | .tDirectory =>
        let block ← dataBlockAlloc
        if block = -1 then
          modify (fun state => state.setInode slot
            { state.inodeTable slot with iSize := 0, iDataBlock := -1 })
          inodeDelete inumber
          pure (-1)
        else
          modify (fun state => state.setInode slot
            { state.inodeTable slot with iSize := state.blockSize, iDataBlock := block })
          let base ← dataBlockGet block
          let state ← get
          clearDirBlock base state.maxDirEntries
          modify (fun state => state.setInode slot
            { state.inodeTable slot with iHardLinks := 1 })
          pure inumber
    | .tFile | .tSymLink =>
        modify (fun state => state.setInode slot
          { state.inodeTable slot with iSize := 0, iDataBlock := -1 })
        modify (fun state => state.setInode slot
          { state.inodeTable slot with iHardLinks := 1 })
        pure inumber

/-! ### Directory entries -/

/-- `dir_entry[slot].d_inumber` -/
def State.dInumber (state : State) (base slot : Nat) : Int :=
  state.fsData.readInt32 (base + dirEntrySize * slot + maxFileName)

/-- `&dir_entry[slot].d_name` -/
def dNameAddress (base slot : Nat) : Nat := base + dirEntrySize * slot

/-- What `strncpy(d_name, name, 39)` and the final NUL leave in the name field -/
def dNameBytes (name : CString) : List UInt8 :=
  name.bytes.take (maxFileName - 1) ++
    List.replicate (maxFileName - 1 - name.strlen) 0 ++ [0]

/-- The entries of the directory's block, as an address -/
def dirEntries (inode : Nat) : TfsAction Nat := do
  let state ← get
  let base ← dataBlockGet (state.inodeTable inode).iDataBlock
  require (base + dirEntrySize * state.maxDirEntries ≤ state.dataBytes) .undefined
  pure base

def validSubName (subName : CString) : Prop :=
  ¬ (subName.strlen = 0 ∨ maxFileName - 1 < subName.strlen)

instance (subName : CString) : Decidable (validSubName subName) :=
  inferInstanceAs (Decidable (¬ _))

def addDirEntry (inode : Nat) (subName : CString) (subInumber : Int) : TfsAction Int := do
  let state ← get
  if ¬ (validSubName subName ∧ state.ValidInumber subInumber) then
    pure (-1)
  else if (state.inodeTable inode).iNodeType ≠ .tDirectory then
    pure (-1)
  else
    let base ← dirEntries inode
    match firstSlot state.maxDirEntries (fun slot =>
        state.dInumber base slot != -1 &&
          state.fsData.strcmpEqual (dNameAddress base slot) subName.bytes) with
    | some _ => pure (-1)
    | none =>
        match firstSlot state.maxDirEntries (fun slot => state.dInumber base slot == -1) with
        | some slot => do
            modify (fun state => state.store (base + dirEntrySize * slot + maxFileName)
              (ByteMemory.encodeInt32 subInumber))
            modify (fun state => state.store (dNameAddress base slot) (dNameBytes subName))
            pure 0
        | none => pure (-1)

/-- Clears the first slot whose name matches; `d_inumber` is not looked at. -/
def clearDirEntry (inode : Nat) (subName : CString) : TfsAction Int := do
  let state ← get
  if ¬ validSubName subName then
    pure (-1)
  else if (state.inodeTable inode).iNodeType ≠ .tDirectory then
    pure (-1)
  else
    let base ← dirEntries inode
    match firstSlot state.maxDirEntries (fun slot =>
        state.fsData.strcmpEqual (dNameAddress base slot) subName.bytes) with
    | some slot => do
        modify (fun state => state.store (base + dirEntrySize * slot + maxFileName)
          (ByteMemory.encodeInt32 (-1)))
        modify (fun state => state.store (dNameAddress base slot)
          (List.replicate maxFileName 0))
        pure 0
    | none => pure (-1)

def findInDir (inode : Nat) (subName : CString) : TfsAction Int := do
  let state ← get
  if ¬ validSubName subName then
    pure (-1)
  else if (state.inodeTable inode).iNodeType ≠ .tDirectory then
    pure (-1)
  else
    let base ← dirEntries inode
    match ← intSearch state.maxDirEntries (fun slot =>
        state.dInumber base slot != -1 &&
          state.fsData.strncmpEqual (dNameAddress base slot) subName.bytes maxFileName) with
    | some slot => pure (state.dInumber base slot)
    | none => pure (-1)

/-! ### Open files -/

def addToOpenFileTable (inumber : Int) (offset : Nat) : TfsAction Int := do
  let state ← get
  if ¬ state.ValidInumber inumber then
    pure (-1)
  else if state.freeinodeTs inumber.toNat ≠ .taken then
    pure (-1)
  else
    match ← intSearch state.maxOpenFiles (fun slot =>
        state.freeOpenFileEntries slot == .free) with
    | some slot => do
        modify (fun state => state.setFreeOpenFile slot .taken)
        modify (fun state => state.setOpenFile slot { ofInumber := inumber, ofOffset := offset })
        pure (slot : Int)
    | none => pure (-1)

/-- The place in the open file table, or `none` for NULL -/
def getOpenFileEntry (fhandle : Int) : TfsAction (Option Nat) := do
  let state ← get
  if ¬ state.ValidFileHandle fhandle ∨ state.freeOpenFileEntries fhandle.toNat ≠ .taken then
    pure none
  else
    pure (some fhandle.toNat)

def isFileOpen (inumber : Int) : TfsAction Bool := do
  let state ← get
  if ¬ state.ValidInumber inumber then
    pure false
  else
    let found ← intSearch state.maxOpenFiles (fun slot =>
      state.freeOpenFileEntries slot == .taken &&
        (state.openFileTable slot).ofInumber == inumber)
    pure found.isSome

def removeFromOpenFileTable (fhandle : Int) : TfsAction Int := do
  match ← getOpenFileEntry fhandle with
  | none => pure (-1)
  | some file =>
      let state ← get
      let inumber := (state.openFileTable file).ofInumber
      require (state.ValidFileContent inumber)
        (.panic "remove_from_open_file_table: file content deleted before closing")
      require (state.ValidFileHandle fhandle)
        (.panic "remove_from_open_file_table: file handle must be valid")
      require (state.freeOpenFileEntries fhandle.toNat = .taken)
        (.panic "remove_from_open_file_table: file handle must be taken")
      modify (fun state => state.setFreeOpenFile fhandle.toNat .free)
      let inode ← inodeGet inumber
      let stillOpen ← isFileOpen inumber
      if (state.inodeTable inode).iHardLinks = 0 ∧ stillOpen = false then
        inodeDelete inumber
      else
        pure ()
      pure 0

/-- Move an offset past the end of the file back to its end. -/
def clampOffset (file inode : Nat) : TfsAction Unit := do
  let state ← get
  if (state.inodeTable inode).iSize < (state.openFileTable file).ofOffset then
    modify (fun state => state.setOpenFile file
      { state.openFileTable file with ofOffset := (state.inodeTable inode).iSize })
  else
    pure ()

/-- Give an empty file a block; `false` when no block is free. -/
def ensureFileBlock (inode : Nat) : TfsAction Bool := do
  let state ← get
  if (state.inodeTable inode).iSize = 0 then
    let block ← dataBlockAlloc
    if block = -1 then
      pure false
    else
      modify (fun state => state.setInode inode
        { state.inodeTable inode with iDataBlock := block })
      pure true
  else
    pure true

/-- The write itself: the bytes, the offset and the size. -/
def copyToFile (file inode : Nat) (bytes : List UInt8) : TfsAction Unit := do
  let state ← get
  let block ← dataBlockGet (state.inodeTable inode).iDataBlock
  let offset := (state.openFileTable file).ofOffset
  storeBytes (block + offset) bytes
  let offset' := sizeAdd offset bytes.length
  modify (fun state => state.setOpenFile file
    { state.openFileTable file with ofOffset := offset' })
  if (state.inodeTable inode).iSize < offset' then
    modify (fun state => state.setInode inode
      { state.inodeTable inode with iSize := offset' })
  else
    pure ()

/-- The number of bytes a write of `toWrite` bytes at `offset` is cut to -/
def writeLength (blockSize offset toWrite : Nat) : Nat :=
  if blockSize < sizeAdd toWrite offset then sizeSub blockSize offset else toWrite

def writeToOpenFile (fhandle : Int) (buffer : Option (List UInt8)) (toWrite : Nat) :
    TfsAction Int :=
  match buffer with
  | none => pure (-1)
  | some data => do
      match ← getOpenFileEntry fhandle with
      | none => pure (-1)
      | some file =>
          let state ← get
          let inode ← inodeGet (state.openFileTable file).ofInumber
          clampOffset file inode
          let state ← get
          let toWrite := writeLength state.blockSize (state.openFileTable file).ofOffset toWrite
          if toWrite = 0 then
            pure 0
          else
            let allocated ← ensureFileBlock inode
            if allocated = false then
              pure (-1)
            else
              require (toWrite ≤ data.length) .undefined
              copyToFile file inode (data.take toWrite)
              pure (ssizeOfSize toWrite)

/-- What a read hands back: the returned length and the bytes put into the buffer -/
structure ReadResult where
  length : Int
  bytes : List UInt8
deriving DecidableEq

/-- The number of bytes a read of `len` bytes returns -/
def readLength (size offset len : Nat) : Nat :=
  if len < sizeSub size offset then len else sizeSub size offset

/-- `buffered` tells whether the caller's buffer is not NULL. -/
def readFromOpenFile (fhandle : Int) (buffered : Bool) (len : Nat) : TfsAction ReadResult :=
  if buffered = false then
    pure ⟨-1, []⟩
  else do
    match ← getOpenFileEntry fhandle with
    | none => pure ⟨-1, []⟩
    | some file =>
        let state ← get
        let inode ← inodeGet (state.openFileTable file).ofInumber
        clampOffset file inode
        let state ← get
        let offset := (state.openFileTable file).ofOffset
        let toRead := readLength (state.inodeTable inode).iSize offset len
        if toRead = 0 then
          pure ⟨0, []⟩
        else
          let block ← dataBlockGet (state.inodeTable inode).iDataBlock
          require (block + offset + toRead ≤ state.dataBytes) .undefined
          modify (fun state => state.setOpenFile file
            { state.openFileTable file with ofOffset := sizeAdd offset toRead })
          pure ⟨ssizeOfSize toRead, state.fsData.readBytes (block + offset) toRead⟩

/-! ### Initialization -/

/-- The bytes malloc leaves in a new table -/
structure Garbage where
  inodeTable : Nat → Inode
  fsData : ByteMemory
  openFileTable : Nat → OpenFileEntry

def sizeofInode : Nat := 32
def sizeofRwlock : Nat := 56
def sizeofMutex : Nat := 40
def sizeofAllocationState : Nat := 4
def sizeofOpenFileEntry : Nat := 56

/-- The byte counts `state_init` asks malloc for, in its order -/
def mallocSizes (params : TfsParams) : List Nat :=
  [ params.maxInodeCount * sizeofInode % 2 ^ 64,
    params.maxInodeCount * sizeofRwlock % 2 ^ 64,
    params.maxInodeCount * sizeofAllocationState % 2 ^ 64,
    params.maxBlockCount * params.blockSize % 2 ^ 64,
    params.maxBlockCount * sizeofRwlock % 2 ^ 64,
    params.maxBlockCount * sizeofAllocationState % 2 ^ 64,
    params.maxOpenFilesCount * sizeofOpenFileEntry % 2 ^ 64,
    params.maxOpenFilesCount * sizeofAllocationState % 2 ^ 64 ]

/-- Whether each malloc returns a table.  `succeeds` is the allocator's choice; a
request larger than PTRDIFF_MAX always fails. -/
def mallocsSucceed (succeeds : Nat → Bool) (params : TfsParams) : Bool :=
  (mallocSizes params).zipIdx.all (fun request => succeeds request.2 && request.1 < 2 ^ 63)

/-- The loops of `state_init` touch every slot of these tables. -/
def initLoopsInside (params : TfsParams) : Prop :=
  params.maxInodeCount * sizeofRwlock < 2 ^ 64 ∧
    params.maxBlockCount * sizeofRwlock < 2 ^ 64 ∧
    params.maxOpenFilesCount * sizeofOpenFileEntry < 2 ^ 64

instance (params : TfsParams) : Decidable (initLoopsInside params) :=
  inferInstanceAs (Decidable (_ ∧ _ ∧ _))

/-- The tables with every slot FREE -/
def newTables (garbage : Garbage) (params : TfsParams) : State :=
  { fsParams := params
    inodeTable := garbage.inodeTable
    freeinodeTs := fun _ => .free
    dataBytes := params.maxBlockCount * params.blockSize % 2 ^ 64
    fsData := garbage.fsData
    freeBlocks := fun _ => .free
    openFileTable := garbage.openFileTable
    freeOpenFileEntries := fun _ => .free }

/-- `state_init` called while no table is allocated: the new state, or `none` for the
returned -1. -/
def stateInit (succeeds : Nat → Bool) (garbage : Garbage) (params : TfsParams) :
    Except Fault (Option State) :=
  if mallocsSucceed succeeds params = false then
    .ok none
  else if ¬ initLoopsInside params then
    .error .undefined
  else
    .ok (some (newTables garbage params))

end TecnicoFS.FileSystem
