/-
Several threads inside `tfs_write` and `tfs_read`, statement by statement.

A thread runs `write_to_open_file` or `read_from_open_file` one statement at a time: it waits
for the mutex of the open file entry, for the lock of the inode and, for a file without a
block, for the mutex of the block map; `memcpy` moves one byte at a time, and the loop of
`data_block_alloc` looks at one block at a time.  Steps of different threads come in any order.

The handles were opened before, and none is opened or closed meanwhile.
-/

import TecnicoFS.FileSystem.Locking
import TecnicoFS.FileSystem.CallSpec
import TecnicoFS.Library.AtomicObject

set_option autoImplicit false

namespace TecnicoFS.FileSystem

open FaultAction

/-! ### Calls -/

/-- A call of `tfs_write` or `tfs_read` -/
inductive Transfer where
  | write (fhandle : Int) (buffer : Option (List UInt8)) (toWrite : Nat)
  | read (fhandle : Int) (buffered : Bool) (len : Nat)
deriving DecidableEq

def Transfer.call : Transfer → Call
  | .write fhandle buffer toWrite => .tfsWrite fhandle buffer toWrite
  | .read fhandle buffered len => .tfsRead fhandle buffered len

/-- A transfer through a handle that is open, with a buffer -/
inductive OpenTransfer where
  | write (data : List UInt8) (toWrite : Nat)
  | read (len : Nat)
deriving DecidableEq

/-- A writer takes the lock of the inode alone, readers share it. -/
def OpenTransfer.mode : OpenTransfer → LockMode
  | .write _ _ => .exclusive
  | .read _ => .shared

def OpenTransfer.transfer (file : Nat) : OpenTransfer → Transfer
  | .write data toWrite => .write file (some data) toWrite
  | .read len => .read file true len

/-! ### Points -/

/-- The arguments and variables of `write_to_open_file` under both locks -/
structure WriteFrame where
  data : List UInt8
  toWrite : Nat
  file : Nat
  inode : Nat
deriving DecidableEq

/-- The arguments and variables of `read_from_open_file` under both locks -/
structure ReadFrame where
  len : Nat
  file : Nat
  inode : Nat
deriving DecidableEq

/-- The next statement of a writer under both locks -/
inductive WritePoint where
  | cut
  | testSize
  | lockBlocks
  | scanBlocks (slot : Nat)
  | markBlock (slot : Nat)
  | unlockBlocks (bnum : Int)
  | storeBlock (bnum : Int)
  | findBytes
  | copyBytes (address copied : Nat)
  | advance
  | grow
  | unlockInode (result : Int)
deriving DecidableEq

/-- The next statement of a reader under both locks -/
inductive ReadPoint where
  | measure
  | findBytes (toRead : Nat)
  | copyBytes (toRead address : Nat) (copied : List UInt8)
  | advance (toRead : Nat) (copied : List UInt8)
  | unlockInode (result : ReadResult)
deriving DecidableEq

/-- Where a thread stands -/
inductive TransferPoint where
  | idle
  | enter (transfer : Transfer)
  | lockEntry (transfer : OpenTransfer) (file : Nat)
  | lockInode (transfer : OpenTransfer) (file : Nat)
  | clamp (transfer : OpenTransfer) (file : Nat) (inumber : Int)
  | write (frame : WriteFrame) (point : WritePoint)
  | read (frame : ReadFrame) (point : ReadPoint)
  | unlockEntry (file : Nat) (result : ReadResult)
  | returned (result : ReadResult)
deriving DecidableEq

def OpenTransfer.begin (file inode : Nat) : OpenTransfer → TransferPoint
  | .write data toWrite => .write ⟨data, toWrite, file, inode⟩ .cut
  | .read len => .read ⟨len, file, inode⟩ .measure

/-! ### Statements -/

/-- The tests of both functions before their first lock -/
def Transfer.enter : Transfer → TfsAction TransferPoint
  | .write _ none _ => pure (.returned ⟨-1, []⟩)
  | .write fhandle (some data) toWrite => do
      match ← getOpenFileEntry fhandle with
      | none => pure (.returned ⟨-1, []⟩)
      | some file => pure (.lockEntry (.write data toWrite) file)
  | .read _ false _ => pure (.returned ⟨-1, []⟩)
  | .read fhandle true len => do
      match ← getOpenFileEntry fhandle with
      | none => pure (.returned ⟨-1, []⟩)
      | some file => pure (.lockEntry (.read len) file)

/-- The statement of a writer that does not lock or unlock -/
def WritePoint.code (frame : WriteFrame) : WritePoint → Option (TfsAction TransferPoint)
  | .cut => some (do
      let state ← get
      let toWrite :=
        writeLength state.blockSize (state.openFileTable frame.file).ofOffset frame.toWrite
      if toWrite = 0 then
        pure (.write frame (.unlockInode 0))
      else
        pure (.write { frame with toWrite := toWrite } .testSize))
  | .testSize => some (do
      let state ← get
      if (state.inodeTable frame.inode).iSize = 0 then
        pure (.write frame .lockBlocks)
      else
        pure (.write frame .findBytes))
  | .lockBlocks => none
  | .scanBlocks slot => some (do
      let state ← get
      if slot < state.dataBlocks then
        require (state.blockSize ≠ 0) .undefined
        if state.freeBlocks slot = .free then
          pure (.write frame (.markBlock slot))
        else
          pure (.write frame (.scanBlocks (slot + 1)))
      else
        pure (.write frame (.unlockBlocks (-1))))
  | .markBlock slot => some (do
      modify (fun state => state.setFreeBlock slot .taken)
      pure (.write frame (.unlockBlocks (← intOfSize slot))))
  | .unlockBlocks _ => none
  | .storeBlock bnum => some (
      if bnum = -1 then
        pure (.write frame (.unlockInode (-1)))
      else do
        modify (fun state => state.setInode frame.inode
          { state.inodeTable frame.inode with iDataBlock := bnum })
        pure (.write frame .findBytes))
  | .findBytes => some (do
      let state ← get
      let block ← dataBlockGet (state.inodeTable frame.inode).iDataBlock
      pure (.write frame (.copyBytes (block + (state.openFileTable frame.file).ofOffset) 0)))
  | .copyBytes address copied => some (
      if copied < frame.toWrite then
        match frame.data[copied]? with
        | some byte => do
            storeBytes (address + copied) [byte]
            pure (.write frame (.copyBytes address (copied + 1)))
        | none => fail .undefined
      else
        pure (.write frame .advance))
  | .advance => some (do
      modify (fun state => state.setOpenFile frame.file
        { state.openFileTable frame.file with
          ofOffset := sizeAdd (state.openFileTable frame.file).ofOffset frame.toWrite })
      pure (.write frame .grow))
  | .grow => some (do
      let state ← get
      if (state.inodeTable frame.inode).iSize < (state.openFileTable frame.file).ofOffset then
        modify (fun state => state.setInode frame.inode
          { state.inodeTable frame.inode with
            iSize := (state.openFileTable frame.file).ofOffset })
      else
        pure ()
      pure (.write frame (.unlockInode (ssizeOfSize frame.toWrite))))
  | .unlockInode _ => none

/-- The statement of a reader that does not unlock -/
def ReadPoint.code (frame : ReadFrame) : ReadPoint → Option (TfsAction TransferPoint)
  | .measure => some (do
      let state ← get
      let toRead := readLength (state.inodeTable frame.inode).iSize
        (state.openFileTable frame.file).ofOffset frame.len
      if toRead = 0 then
        pure (.read frame (.unlockInode ⟨0, []⟩))
      else
        pure (.read frame (.findBytes toRead)))
  | .findBytes toRead => some (do
      let state ← get
      let block ← dataBlockGet (state.inodeTable frame.inode).iDataBlock
      pure (.read frame
        (.copyBytes toRead (block + (state.openFileTable frame.file).ofOffset) [])))
  | .copyBytes toRead address copied => some (
      if copied.length < toRead then do
        let state ← get
        require (address + copied.length < state.dataBytes) .undefined
        pure (.read frame
          (.copyBytes toRead address (copied ++ [state.fsData (address + copied.length)])))
      else
        pure (.read frame (.advance toRead copied)))
  | .advance toRead copied => some (do
      modify (fun state => state.setOpenFile frame.file
        { state.openFileTable frame.file with
          ofOffset := sizeAdd (state.openFileTable frame.file).ofOffset toRead })
      pure (.read frame (.unlockInode ⟨ssizeOfSize toRead, copied⟩)))
  | .unlockInode _ => none

/-- The next statement of a thread, unless it locks, unlocks, calls or returns -/
def TransferPoint.code : TransferPoint → Option (TfsAction TransferPoint)
  | .idle => none
  | .enter transfer => some transfer.enter
  | .lockEntry _ _ => none
  | .lockInode _ _ => none
  | .clamp transfer file inumber => some (do
      let inode ← inodeGet inumber
      clampOffset file inode
      pure (transfer.begin file inode))
  | .write frame point => point.code frame
  | .read frame point => point.code frame
  | .unlockEntry _ _ => none
  | .returned _ => none

/-- The lock that the thread waits for, and where it goes on -/
def TransferPoint.lock? (state : State) :
    TransferPoint → Option (TfsLock × LockMode × TransferPoint)
  | .lockEntry transfer file => some (.openFile file, .exclusive, .lockInode transfer file)
  | .lockInode transfer file =>
      let inumber := (state.openFileTable file).ofInumber
      some (.inode inumber.toNat, transfer.mode, .clamp transfer file inumber)
  | .write frame .lockBlocks =>
      some (.freeBlocksMutex, .exclusive, .write frame (.scanBlocks 0))
  | _ => none

/-- The lock that the thread gives back, and where it goes on -/
def TransferPoint.unlock? : TransferPoint → Option (TfsLock × TransferPoint)
  | .write frame (.unlockBlocks bnum) =>
      some (.freeBlocksMutex, .write frame (.storeBlock bnum))
  | .write frame (.unlockInode result) =>
      some (.inode frame.inode, .unlockEntry frame.file ⟨result, []⟩)
  | .read frame (.unlockInode result) =>
      some (.inode frame.inode, .unlockEntry frame.file result)
  | .unlockEntry file result => some (.openFile file, .returned result)
  | _ => none

/-! ### The system -/

structure SharedTransfers (Thread : Type) where
  fs : State
  locks : LockTable Thread TfsLock
  points : Thread → TransferPoint
  events : List (ObjectEvent Thread Transfer ReadResult)

inductive TransferStep {Thread : Type} [DecidableEq Thread] (thread : Thread)
    (shared : SharedTransfers Thread) : SharedTransfers Thread → Prop where
  | calls (transfer : Transfer) : shared.points thread = .idle →
      transfer.call.Admissible shared.fs.blockSize →
      TransferStep thread shared { shared with
        points := Function.update shared.points thread (.enter transfer)
        events := shared.events ++ [.calls thread transfer] }
  | locks {lock : TfsLock} {mode : LockMode} {next : TransferPoint} :
      (shared.points thread).lock? shared.fs = some (lock, mode, next) →
      shared.locks.Available lock mode →
      TransferStep thread shared { shared with
        locks := shared.locks.acquire thread lock mode
        points := Function.update shared.points thread next }
  | unlocks {lock : TfsLock} {next : TransferPoint} :
      (shared.points thread).unlock? = some (lock, next) →
      TransferStep thread shared { shared with
        locks := shared.locks.release thread lock
        points := Function.update shared.points thread next }
  | runs {action : TfsAction TransferPoint} {next : TransferPoint} {fs : State} :
      (shared.points thread).code = some action → action shared.fs = .ok (next, fs) →
      TransferStep thread shared { shared with
        fs := fs
        points := Function.update shared.points thread next }
  | returns {result : ReadResult} : shared.points thread = .returned result →
      TransferStep thread shared { shared with
        points := Function.update shared.points thread .idle
        events := shared.events ++ [.returns thread result] }

/-- Threads that write and read through the open handles of a file system at rest -/
def transferSystem (Thread : Type) [DecidableEq Thread] (start : State) :
    ThreadSystem Thread (SharedTransfers Thread) where
  initial shared := shared = ⟨start, LockTable.empty, fun _ => .idle, []⟩
  step := TransferStep

end TecnicoFS.FileSystem
