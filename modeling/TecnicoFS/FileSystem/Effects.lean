/-
Everything a public call can do to the state.

Each operation has one relation between the state before, the returned value and
the state after.  The relations are written with the single writes of the
invariant modules, with the guard of every branch; the next module proves that the
operations do nothing else.
-/

import TecnicoFS.FileSystem.Operations
import TecnicoFS.FileSystem.TableSpec
import TecnicoFS.Library.Chains

set_option autoImplicit false

namespace TecnicoFS.FileSystem

variable (state : State)

namespace State

/-- The slot `inode_alloc` takes -/
def FirstFreeInode (inode : Nat) : Prop :=
  inode < 2 ^ 31 ∧ inode < state.inodeTableSize ∧ state.freeinodeTs inode = .free ∧
    ∀ earlier, earlier < inode → state.freeinodeTs earlier = .taken

def NoFreeInode : Prop :=
  ∀ inode, inode < state.inodeTableSize → state.freeinodeTs inode = .taken

/-- The slot `data_block_alloc` takes -/
def FirstFreeBlock (block : Nat) : Prop :=
  block < 2 ^ 31 ∧ block < state.dataBlocks ∧ state.freeBlocks block = .free ∧
    ∀ earlier, earlier < block → state.freeBlocks earlier = .taken

def NoFreeBlock : Prop :=
  ∀ block, block < state.dataBlocks → state.freeBlocks block = .taken

/-- The slot `add_to_open_file_table` takes -/
def FirstFreeHandle (handle : Nat) : Prop :=
  handle < 2 ^ 31 ∧ handle < state.maxOpenFiles ∧ state.freeOpenFileEntries handle = .free ∧
    ∀ earlier, earlier < handle → state.freeOpenFileEntries earlier = .taken

def NoFreeHandle : Prop :=
  ∀ handle, handle < state.maxOpenFiles → state.freeOpenFileEntries handle = .taken

/-- No live slot can carry the name. -/
def NotFound (name : CString) : Prop := ¬ validSubName name ∨ state.Unbound name

/-- `add_dir_entry` refuses a name that is new to the directory. -/
def Refuses (name : CString) : Prop := ¬ validSubName name ∨ state.DirectoryFull

/-- The path stored in the block of a symbolic link -/
def targetOf (inode : Nat) : Option CString :=
  let address := (state.inodeTable inode).iDataBlock.toNat * state.blockSize % 2 ^ 64
  CString.ofMemory state.fsData address (state.dataBytes - address)

/-- The path names a symbolic link with the stored target. -/
def LinksTo (path target : CString) : Prop :=
  ValidPathname path ∧ ∃ inode, state.Binds path.tail inode ∧
    (state.inodeTable inode).iNodeType = .tSymLink ∧ state.targetOf inode = some target

/-- Following symbolic links from the first path leads to the second. -/
def Resolves : CString → CString → Prop := Relation.ReflTransGen state.LinksTo

/-- Following symbolic links from the path leads around a cycle. -/
def FollowsCycle (path : CString) : Prop := Chains.ReachesCycle state.LinksTo path

/-- The state after `TFS_O_TRUNC` -/
def truncated (inode : Nat) (mode : TfsFileMode) : State :=
  if mode.tfsOTrunc = true ∧ 0 < (state.inodeTable inode).iSize then
    (state.releaseBlock inode).resizeFile inode 0 (state.inodeTable inode).iDataBlock
  else
    state

/-- The offset a new handle starts at -/
def initialOffset (inode : Nat) (mode : TfsFileMode) : Nat :=
  if mode.tfsOAppend = true then ((state.truncated inode mode).inodeTable inode).iSize else 0

/-- The state after a file was created in a slot -/
def created (inode slot : Nat) (name : CString) : State :=
  (state.takeInode inode (newInode .tFile)).bindEntry slot name inode

/-- The offset of a handle moved back to the end of its file -/
def clampedOffset (handle inode : Nat) : Nat :=
  min (state.openFileTable handle).ofOffset (state.inodeTable inode).iSize

/-- The state after a write of the bytes at the offset into the file's block -/
def written (handle inode block offset : Nat) (bytes : List UInt8) : State :=
  ((state.store (block * state.blockSize + offset) bytes).resizeFile inode
    (max (state.inodeTable inode).iSize (offset + bytes.length)) block).setOffset handle
      (offset + bytes.length)

/-- The state after the target was stored in a new block -/
def targetStored (block : Nat) (target : CString) : State :=
  (state.setFreeBlock block .taken).store (block * state.blockSize) (target.bytes ++ [0])

/-- The state after one link was taken off the inode -/
def linkDropped (inode : Nat) : State :=
  state.setLinks inode (sizeSub (state.inodeTable inode).iHardLinks 1)

end State

/-- The result of entering an inode into the open file table -/
inductive HandleEffect (inode offset : Nat) : Int → State → Prop where
  | full : state.NoFreeHandle → HandleEffect inode offset (-1) state
  | opened {handle : Nat} : state.FirstFreeHandle handle →
      HandleEffect inode offset handle
        (state.openHandle handle { ofInumber := inode, ofOffset := offset })

/-- `tfs_open` once the symbolic links are resolved -/
inductive OpenEffect (path : CString) (mode : TfsFileMode) : Int → State → Prop where
  | invalid : ¬ ValidPathname path → OpenEffect path mode (-1) state
  | existing {inode : Nat} {result : Int} {state' : State} :
      ValidPathname path → state.Binds path.tail inode →
      (state.inodeTable inode).iNodeType = .tFile →
      HandleEffect (state.truncated inode mode) inode (state.initialOffset inode mode) result
        state' →
      OpenEffect path mode result state'
  | missing : ValidPathname path → state.NotFound path.tail → mode.tfsOCreat = false →
      OpenEffect path mode (-1) state
  | noInode : ValidPathname path → state.NotFound path.tail → mode.tfsOCreat = true →
      state.NoFreeInode → OpenEffect path mode (-1) state
  | refused {inode : Nat} : ValidPathname path → state.NotFound path.tail →
      mode.tfsOCreat = true → state.FirstFreeInode inode → state.Refuses path.tail →
      OpenEffect path mode (-1) (state.setInode inode (newInode .tFile))
  | created {inode slot : Nat} {result : Int} {state' : State} :
      ValidPathname path → state.Unbound path.tail → mode.tfsOCreat = true →
      state.FirstFreeInode inode → validSubName path.tail → state.FirstDead slot →
      HandleEffect (state.created inode slot path.tail) inode 0 result state' →
      OpenEffect path mode result state'

inductive CloseEffect (fhandle : Int) : Int → State → Prop where
  | invalid : (∀ handle : Nat, fhandle = (handle : Int) → ¬ state.HandleTaken handle) →
      CloseEffect fhandle (-1) state
  | deleted {handle inode : Nat} : fhandle = (handle : Int) → state.HandleTaken handle →
      (state.openFileTable handle).ofInumber = (inode : Int) →
      (state.inodeTable inode).iHardLinks = 0 →
      ¬ (state.closeHandle handle).IsOpen inode →
      CloseEffect fhandle 0 ((state.closeHandle handle).deleteInode inode)
  | kept {handle inode : Nat} : fhandle = (handle : Int) → state.HandleTaken handle →
      (state.openFileTable handle).ofInumber = (inode : Int) →
      ((state.inodeTable inode).iHardLinks ≠ 0 ∨ (state.closeHandle handle).IsOpen inode) →
      CloseEffect fhandle 0 (state.closeHandle handle)

/-- A write through a valid handle: `length` is what the request is cut to. -/
inductive WriteEffect (handle inode : Nat) (data : List UInt8) (toWrite : Nat) :
    Int → State → Prop where
  | nothing : min toWrite (state.blockSize - state.clampedOffset handle inode) = 0 →
      WriteEffect handle inode data toWrite 0
        (state.setOffset handle (state.clampedOffset handle inode))
  | noBlock : writeLength state.blockSize (state.clampedOffset handle inode) toWrite ≠ 0 →
      (state.inodeTable inode).iSize = 0 → state.NoFreeBlock →
      WriteEffect handle inode data toWrite (-1)
        (state.setOffset handle (state.clampedOffset handle inode))
  | grown {block length : Nat} : length ≠ 0 →
      length = min toWrite (state.blockSize - state.clampedOffset handle inode) →
      length ≤ data.length → (state.inodeTable inode).iSize = 0 → state.FirstFreeBlock block →
      block * state.blockSize < state.dataBytes →
      WriteEffect handle inode data toWrite length
        ((state.setFreeBlock block .taken).written handle inode block
          (state.clampedOffset handle inode) (data.take length))
  | overwritten {block length : Nat} : length ≠ 0 →
      length = min toWrite (state.blockSize - state.clampedOffset handle inode) →
      length ≤ data.length → 0 < (state.inodeTable inode).iSize →
      (state.inodeTable inode).iDataBlock = (block : Int) →
      WriteEffect handle inode data toWrite length
        (state.written handle inode block (state.clampedOffset handle inode) (data.take length))

/-- A read through a valid handle -/
inductive ReadEffect (handle inode len : Nat) : ReadResult → State → Prop where
  | nothing :
      min len ((state.inodeTable inode).iSize - state.clampedOffset handle inode) = 0 →
      ReadEffect handle inode len ⟨0, []⟩
        (state.setOffset handle (state.clampedOffset handle inode))
  | bytes {block length : Nat} : length ≠ 0 →
      length = min len ((state.inodeTable inode).iSize - state.clampedOffset handle inode) →
      (state.inodeTable inode).iDataBlock = (block : Int) →
      ReadEffect handle inode len
        ⟨length, state.fsData.readBytes
          (block * state.blockSize + state.clampedOffset handle inode) length⟩
        (state.setOffset handle (state.clampedOffset handle inode + length))

inductive SymLinkEffect (target link : CString) : Int → State → Prop where
  | same : target = link → SymLinkEffect target link (-1) state
  | noInode : state.NoFreeInode → SymLinkEffect target link (-1) state
  | noBlock {inode : Nat} : state.FirstFreeInode inode → state.NoFreeBlock →
      SymLinkEffect target link (-1) (state.setInode inode (newInode .tSymLink))
  /-- The inode is given back but the block is not. -/
  | refused {inode block : Nat} : target ≠ link → state.FirstFreeInode inode →
      state.FirstFreeBlock block → block * state.blockSize + target.strlen < state.dataBytes →
      (¬ validSubName link.tail ∨ ¬ state.Unbound link.tail ∨ state.DirectoryFull) →
      SymLinkEffect target link (-1)
        ((state.targetStored block target).setInode inode (newInode .tSymLink))
  | linked {inode block slot : Nat} : target ≠ link → state.FirstFreeInode inode →
      state.FirstFreeBlock block → block * state.blockSize + target.strlen < state.dataBytes →
      validSubName link.tail → state.Unbound link.tail → state.FirstDead slot →
      SymLinkEffect target link 0
        (((state.targetStored block target).takeInode inode
          { newInode .tSymLink with iDataBlock := block }).bindEntry slot link.tail inode)

inductive LinkEffect (target link : CString) : Int → State → Prop where
  | missing : state.NotFound target.tail → LinkEffect target link (-1) state
  | refused {inode : Nat} : state.Binds target.tail inode →
      (¬ validSubName link.tail ∨ ¬ state.Unbound link.tail ∨ state.DirectoryFull) →
      LinkEffect target link (-1) state
  | symLink {inode slot : Nat} : state.Binds target.tail inode →
      (state.inodeTable inode).iNodeType = .tSymLink → validSubName link.tail →
      state.Unbound link.tail → state.FirstDead slot →
      LinkEffect target link (-1) ((state.bindEntry slot link.tail inode).scrubEntry slot)
  | linked {inode slot : Nat} : state.Binds target.tail inode →
      (state.inodeTable inode).iNodeType ≠ .tSymLink → validSubName link.tail →
      state.Unbound link.tail → state.FirstDead slot →
      LinkEffect target link 0 ((state.bindEntry slot link.tail inode).setLinks inode
        (sizeAdd (state.inodeTable inode).iHardLinks 1))

inductive UnlinkEffect (target : CString) : Int → State → Prop where
  | missing : state.NotFound target.tail → UnlinkEffect target (-1) state
  | deleted {inode slot : Nat} : validSubName target.tail → state.EntryLive slot →
      state.EntryNamed slot target.tail → state.entryInumber slot = (inode : Int) →
      sizeSub (state.inodeTable inode).iHardLinks 1 = 0 → ¬ state.IsOpen inode →
      UnlinkEffect target 0 (((state.scrubEntry slot).linkDropped inode).deleteInode inode)
  | kept {inode slot : Nat} : validSubName target.tail → state.EntryLive slot →
      state.EntryNamed slot target.tail → state.entryInumber slot = (inode : Int) →
      (sizeSub (state.inodeTable inode).iHardLinks 1 ≠ 0 ∨ state.IsOpen inode) →
      UnlinkEffect target 0 ((state.scrubEntry slot).linkDropped inode)

/-! ### Calls and their traces -/

/-- One public call other than `tfs_copy_from_external_fs` -/
inductive CallEffect : Call → CallResult → State → Prop where
  | openNull (mode : TfsFileMode) : CallEffect (.tfsOpen none mode) ⟨-1, []⟩ state
  | opens {path final : CString} {mode : TfsFileMode} {result : Int} {state' : State} :
      state.Resolves path final → OpenEffect state final mode result state' →
      CallEffect (.tfsOpen (some path) mode) ⟨result, []⟩ state'
  | closes {fhandle result : Int} {state' : State} : CloseEffect state fhandle result state' →
      CallEffect (.tfsClose fhandle) ⟨result, []⟩ state'
  | writeRefused {fhandle : Int} {buffer : Option (List UInt8)} (toWrite : Nat) :
      (buffer = none ∨ ∀ handle : Nat, fhandle = (handle : Int) → ¬ state.HandleTaken handle) →
      CallEffect (.tfsWrite fhandle buffer toWrite) ⟨-1, []⟩ state
  | writes {handle inode toWrite : Nat} {data : List UInt8} {result : Int} {state' : State} :
      state.HandleTaken handle → (state.openFileTable handle).ofInumber = (inode : Int) →
      WriteEffect state handle inode data toWrite result state' →
      CallEffect (.tfsWrite handle (some data) toWrite) ⟨result, []⟩ state'
  | readRefused {fhandle : Int} {buffered : Bool} (len : Nat) :
      (buffered = false ∨ ∀ handle : Nat, fhandle = (handle : Int) → ¬ state.HandleTaken handle) →
      CallEffect (.tfsRead fhandle buffered len) ⟨-1, []⟩ state
  | reads {handle inode len : Nat} {result : ReadResult} {state' : State} :
      state.HandleTaken handle → (state.openFileTable handle).ofInumber = (inode : Int) →
      ReadEffect state handle inode len result state' →
      CallEffect (.tfsRead handle true len) result state'
  | symLinkInvalid {target link : Option CString} :
      (validPathname target = none ∨ validPathname link = none) →
      CallEffect (.tfsSymLink target link) ⟨-1, []⟩ state
  | symLinks {target link : CString} {result : Int} {state' : State} :
      ValidPathname target → ValidPathname link → SymLinkEffect state target link result state' →
      CallEffect (.tfsSymLink (some target) (some link)) ⟨result, []⟩ state'
  | linkInvalid {target link : Option CString} :
      (validPathname target = none ∨ validPathname link = none) →
      CallEffect (.tfsLink target link) ⟨-1, []⟩ state
  | links {target link : CString} {result : Int} {state' : State} :
      ValidPathname target → ValidPathname link → LinkEffect state target link result state' →
      CallEffect (.tfsLink (some target) (some link)) ⟨result, []⟩ state'
  | unlinkInvalid {target : Option CString} : validPathname target = none →
      CallEffect (.tfsUnlink target) ⟨-1, []⟩ state
  | unlinks {target : CString} {result : Int} {state' : State} :
      ValidPathname target → UnlinkEffect state target result state' →
      CallEffect (.tfsUnlink (some target)) ⟨result, []⟩ state'

/-- The effects of a sequence of calls -/
inductive TraceEffect : State → List (Call × CallResult) → State → Prop where
  | nil (state : State) : TraceEffect state [] state
  | cons {state middle state' : State} {call : Call} {result : CallResult}
      {rest : List (Call × CallResult)} : CallEffect state call result middle →
      TraceEffect middle rest state' → TraceEffect state ((call, result) :: rest) state'

/-- The writes of the copy loop, and whether each of them was complete -/
inductive CopyWrites (destFile : Int) :
    List (List UInt8) → List (Call × CallResult) → Bool → Prop where
  | done : CopyWrites destFile [] [] true
  | ended (rest : List (List UInt8)) : CopyWrites destFile ([] :: rest) [] true
  | short {chunk : List UInt8} {rest : List (List UInt8)} {result : Int} :
      chunk ≠ [] → result ≠ (chunk.length : Int) →
      CopyWrites destFile (chunk :: rest)
        [(.tfsWrite destFile (some chunk) chunk.length, ⟨result, []⟩)] false
  | complete {chunk : List UInt8} {rest : List (List UInt8)}
      {trace : List (Call × CallResult)} {copied : Bool} :
      chunk ≠ [] → CopyWrites destFile rest trace copied →
      CopyWrites destFile (chunk :: rest)
        ((.tfsWrite destFile (some chunk) chunk.length, ⟨chunk.length, []⟩) :: trace) copied

/-- The calls a public call is made of, with their results and its own -/
inductive Expands : Call → CallResult → List (Call × CallResult) → Prop where
  | single {call : Call} (result : CallResult) :
      (∀ sourcePath sourceFile destPath,
        call ≠ .tfsCopyFromExternalFs sourcePath sourceFile destPath) →
      Expands call result [(call, result)]
  | copyRefused {sourcePath destPath : Option CString} {sourceFile : Option ExternalFile} :
      (validPathname destPath = none ∨ sourcePath = none ∨ sourceFile = none) →
      Expands (.tfsCopyFromExternalFs sourcePath sourceFile destPath) ⟨-1, []⟩ []
  | copyUnopened {sourcePath destPath : CString} (source : ExternalFile) :
      ValidPathname destPath →
      Expands (.tfsCopyFromExternalFs (some sourcePath) (some source) (some destPath)) ⟨-1, []⟩
        [(.tfsOpen (some destPath) ⟨true, true, false⟩, ⟨-1, []⟩)]
  | copied {sourcePath destPath : CString} {source : ExternalFile}
      {destFile closed : Int} {writes : List (Call × CallResult)} {copied : Bool} :
      ValidPathname destPath → destFile ≠ -1 →
      CopyWrites destFile source.chunks writes copied →
      Expands (.tfsCopyFromExternalFs (some sourcePath) (some source) (some destPath))
        ⟨if copied = true ∧ source.closes = true ∧ closed ≠ -1 then 0 else -1, []⟩
        ((.tfsOpen (some destPath) ⟨true, true, false⟩, ⟨destFile, []⟩) ::
          (writes ++ [(.tfsClose destFile, ⟨closed, []⟩)]))

end TecnicoFS.FileSystem
