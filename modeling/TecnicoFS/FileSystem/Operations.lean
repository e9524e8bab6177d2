/-
The public operations of `fs/operations.c`, run by one caller at a time.

A path argument is an optional C string, `none` standing for NULL.  `tfs_open`
calls itself on the target of a symbolic link; the recursion is bounded by the
size of the inode table, and running out of it is the fault `diverges`.
-/

import TecnicoFS.FileSystem.State

set_option autoImplicit false

namespace TecnicoFS.FileSystem

open FaultAction TableSearch

/-- The flags of `tfs_file_mode_t` -/
structure TfsFileMode where
  tfsOCreat : Bool
  tfsOTrunc : Bool
  tfsOAppend : Bool
deriving DecidableEq

def slash : UInt8 := 47

/-- The tests of `valid_pathname` on a name that is not NULL -/
def ValidPathname (name : CString) : Prop :=
  1 < name.strlen ∧ name.bytes.head? = some slash

instance (name : CString) : Decidable (ValidPathname name) :=
  inferInstanceAs (Decidable (_ ∧ _))

/-- The name when `valid_pathname` accepts it -/
def validPathname (name : Option CString) : Option CString :=
  name.filter (fun name => decide (ValidPathname name))

def tfsDefaultParams : TfsParams where
  maxInodeCount := 64
  maxBlockCount := 1024
  maxOpenFilesCount := 16
  blockSize := 1024
  sizeRange := by decide

/-- `tfs_init` called while no table is allocated.  A returned -1 before the root
inode is created leaves no state. -/
def tfsInit (succeeds : Nat → Bool) (garbage : Garbage) (params : TfsParams) :
    Except Fault (Int × Option State) :=
  match stateInit succeeds garbage params with
  | .error fault => .error fault
  | .ok none => .ok (-1, none)
  | .ok (some state) =>
      match inodeCreate .tDirectory state with
      | .error fault => .error fault
      | .ok (root, state') =>
          if root = rootDirInum then .ok (0, some state') else .ok (-1, some state')

def tfsLookup (name : CString) (rootInode : Nat) : TfsAction Int := do
  let state ← get
  if (state.inodeTable rootInode).iDataBlock ≠ 0 then
    pure (-1)
  else if ¬ ValidPathname name then
    pure (-1)
  else
    findInDir rootInode name.tail

/-! ### Opening and closing -/

/-- `TFS_O_TRUNC` on a file that is not empty -/
def truncateFile (inode : Nat) (mode : TfsFileMode) : TfsAction Unit := do
  let state ← get
  if mode.tfsOTrunc = true ∧ 0 < (state.inodeTable inode).iSize then
    dataBlockFree (state.inodeTable inode).iDataBlock
    modify (fun state => state.setInode inode { state.inodeTable inode with iSize := 0 })
  else
    pure ()

/-- The branch of `tfs_open` for a regular file that exists -/
def openExisting (inum : Int) (inode : Nat) (mode : TfsFileMode) : TfsAction Int := do
  truncateFile inode mode
  let state ← get
  let offset := if mode.tfsOAppend = true then (state.inodeTable inode).iSize else 0
  addToOpenFileTable inum offset

/-- The branch of `tfs_open` that creates the file: its inumber, or -1. -/
def createFile (rootDirInode : Nat) (name : CString) : TfsAction Int := do
  let inum ← inodeCreate .tFile
  if inum = -1 then
    pure (-1)
  else
    let added ← addDirEntry rootDirInode name.tail inum
    if added = -1 then
      inodeDelete inum
      pure (-1)
    else
      pure inum

/-- The path stored in the block of a symbolic link -/
def symLinkTarget (inode : Nat) : TfsAction CString := do
  let state ← get
  let address ← dataBlockGet (state.inodeTable inode).iDataBlock
  match CString.ofMemory state.fsData address (state.dataBytes - address) with
  | some target => pure target
  | none => fail .undefined

def tfsOpenFuel : Nat → Option CString → TfsFileMode → TfsAction Int
  | 0, _, _ => fail .diverges
  | fuel + 1, name, mode =>
      match validPathname name with
      | none => pure (-1)
      | some path => do
          let rootDirInode ← inodeGet rootDirInum
          let inum ← tfsLookup path rootDirInode
          if 0 ≤ inum then
            let inode ← inodeGet inum
            let state ← get
            require ((state.inodeTable inode).iNodeType ≠ .tDirectory)
              (.panic "tfs_open: directories cannot be opened this way")
            if (state.inodeTable inode).iNodeType = .tSymLink then
              let target ← symLinkTarget inode
              tfsOpenFuel fuel (some target) mode
            else
              openExisting inum inode mode
          else if mode.tfsOCreat = true then
            let inum ← createFile rootDirInode path
            if inum = -1 then pure (-1) else addToOpenFileTable inum 0
          else
            pure (-1)

/-- One recursion step for every inode and one more to reach the final name -/
def tfsOpen (name : Option CString) (mode : TfsFileMode) : TfsAction Int := do
  let state ← get
  tfsOpenFuel (state.inodeTableSize + 1) name mode

def tfsClose (fhandle : Int) : TfsAction Int := removeFromOpenFileTable fhandle

def tfsWrite (fhandle : Int) (buffer : Option (List UInt8)) (toWrite : Nat) : TfsAction Int :=
  writeToOpenFile fhandle buffer toWrite

def tfsRead (fhandle : Int) (buffered : Bool) (len : Nat) : TfsAction ReadResult :=
  readFromOpenFile fhandle buffered len

/-! ### Links -/

def tfsSymLink (target link : Option CString) : TfsAction Int :=
  match validPathname target, validPathname link with
  | some target, some link => do
      if target = link then
        pure (-1)
      else
        let linkInum ← inodeCreate .tSymLink
        if linkInum = -1 then
          pure (-1)
        else
          let linkInode ← inodeGet linkInum
          let bnum ← dataBlockAlloc
          if bnum = -1 then
            inodeDelete linkInum
            pure (-1)
          else
            modify (fun state => state.setInode linkInode
              { state.inodeTable linkInode with iDataBlock := bnum })
            let block ← dataBlockGet bnum
            storeBytes block (target.bytes ++ [0])
            let rootDirInode ← inodeGet rootDirInum
            let added ← addDirEntry rootDirInode link.tail linkInum
            if added = -1 then
              inodeDelete linkInum
              pure (-1)
            else
              pure 0
  | _, _ => pure (-1)

def tfsLink (target link : Option CString) : TfsAction Int :=
  match validPathname target, validPathname link with
  | some target, some link => do
      let rootDirInode ← inodeGet rootDirInum
      let targetInum ← tfsLookup target rootDirInode
      if targetInum = -1 then
        pure (-1)
      else
        let added ← addDirEntry rootDirInode link.tail targetInum
        if added = -1 then
          pure (-1)
        else
          let targetInode ← inodeGet targetInum
          let state ← get
          if (state.inodeTable targetInode).iNodeType = .tSymLink then
            let _ ← clearDirEntry rootDirInode link.tail
            pure (-1)
          else
            modify (fun state => state.setInode targetInode
              { state.inodeTable targetInode with
                iHardLinks := sizeAdd (state.inodeTable targetInode).iHardLinks 1 })
            pure 0
  | _, _ => pure (-1)

/-- Take one link off the inode and delete the file when it was the last use. -/
def dropHardLink (targetInum : Int) (targetInode : Nat) : TfsAction Unit := do
  modify (fun state => state.setInode targetInode
    { state.inodeTable targetInode with
      iHardLinks := sizeSub (state.inodeTable targetInode).iHardLinks 1 })
  let state ← get
  let stillOpen ← isFileOpen targetInum
  if (state.inodeTable targetInode).iHardLinks = 0 ∧ stillOpen = false then
    inodeDelete targetInum
  else
    pure ()

def tfsUnlink (target : Option CString) : TfsAction Int :=
  match validPathname target with
  | none => pure (-1)
  | some target => do
      let rootDirInode ← inodeGet rootDirInum
      let targetInum ← tfsLookup target rootDirInode
      if targetInum = -1 then
        pure (-1)
      else
        let targetInode ← inodeGet targetInum
        let state ← get
        require ((state.inodeTable targetInode).iNodeType ≠ .tDirectory)
          (.panic "tfs_unlink: directories cannot be unlinked")
        let cleared ← clearDirEntry rootDirInode target.tail
        if cleared = -1 then
          pure (-1)
        else
          dropHardLink targetInum targetInode
          pure 0

/-! ### Importing -/

/-- An opened file of the host: what the calls of `fread` return until the first
empty one, and whether `fclose` succeeds. -/
structure ExternalFile where
  chunks : List (List UInt8)
  closes : Bool

/-- The copy loop; `false` when a write came back short. -/
def copyChunks (destFile : Int) : List (List UInt8) → TfsAction Bool
  | [] => pure true
  | chunk :: rest =>
      if chunk = [] then
        pure true
      else do
        let written ← tfsWrite destFile (some chunk) chunk.length
        if written ≠ (chunk.length : Int) then pure false else copyChunks destFile rest

/-- `sourceFile` is what `fopen(source_path, "r")` returns. -/
def tfsCopyFromExternalFs (sourcePath : Option CString) (sourceFile : Option ExternalFile)
    (destPath : Option CString) : TfsAction Int :=
  if validPathname destPath = none ∨ sourcePath = none then
    pure (-1)
  else
    match sourceFile with
    | none => pure (-1)
    | some source => do
        let destFile ← tfsOpen destPath
          { tfsOCreat := true, tfsOTrunc := true, tfsOAppend := false }
        if destFile = -1 then
          pure (-1)
        else
          let copied ← copyChunks destFile source.chunks
          let closed ← tfsClose destFile
          if copied = true ∧ source.closes = true ∧ closed ≠ -1 then pure 0 else pure (-1)

/-! ### Public calls -/

inductive Call where
  | tfsOpen (name : Option CString) (mode : TfsFileMode)
  | tfsClose (fhandle : Int)
  | tfsWrite (fhandle : Int) (buffer : Option (List UInt8)) (toWrite : Nat)
  | tfsRead (fhandle : Int) (buffered : Bool) (len : Nat)
  | tfsSymLink (target link : Option CString)
  | tfsLink (target link : Option CString)
  | tfsUnlink (target : Option CString)
  | tfsCopyFromExternalFs (sourcePath : Option CString) (sourceFile : Option ExternalFile)
      (destPath : Option CString)

/-- The returned value, with the bytes a read puts into the caller's buffer -/
abbrev CallResult : Type := ReadResult

def Call.run : Call → TfsAction CallResult
  | .tfsOpen name mode => do pure ⟨← FileSystem.tfsOpen name mode, []⟩
  | .tfsClose fhandle => do pure ⟨← FileSystem.tfsClose fhandle, []⟩
  | .tfsWrite fhandle buffer toWrite => do
      pure ⟨← FileSystem.tfsWrite fhandle buffer toWrite, []⟩
  | .tfsRead fhandle buffered len => FileSystem.tfsRead fhandle buffered len
  | .tfsSymLink target link => do pure ⟨← FileSystem.tfsSymLink target link, []⟩
  | .tfsLink target link => do pure ⟨← FileSystem.tfsLink target link, []⟩
  | .tfsUnlink target => do pure ⟨← FileSystem.tfsUnlink target, []⟩
  | .tfsCopyFromExternalFs sourcePath sourceFile destPath => do
      pure ⟨← FileSystem.tfsCopyFromExternalFs sourcePath sourceFile destPath, []⟩

end TecnicoFS.FileSystem
