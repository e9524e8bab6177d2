/-
The locks of TecnicoFS: what each function of `fs/operations.c` and `fs/state.c` locks and
unlocks, in its order and on every branch.

A branch stands for every outcome of the data it depends on, and the number of an inode, an
entry or a block is any number.  A failed assertion ends the process, so it has no branch.
-/

import TecnicoFS.Library.LockProgram

set_option autoImplicit false

namespace TecnicoFS.FileSystem

inductive TfsLock where
  | openMutex
  | linkLock
  | freeOpenFileEntriesMutex
  | openFile (fhandle : Nat)
  | freeinodeTsLock
  | inode (inumber : Nat)
  | freeBlocksMutex
  | dir (blockNumber : Nat)
deriving DecidableEq

/-- The functions that lock, or call one that does; `copyLoop` is the loop of
`tfs_copy_from_external_fs` and what comes after it. -/
inductive TfsFunction where
  | dataBlockAlloc
  | dataBlockFree
  | inodeAlloc
  | inodeCreate
  | inodeDelete (inumber : Nat)
  | addDirEntry
  | clearDirEntry
  | findInDir
  | addToOpenFileTable
  | removeFromOpenFileTable
  | writeToOpenFile
  | readFromOpenFile
  | tfsInit
  | tfsDestroy
  | tfsLookup
  | tfsOpen
  | tfsClose
  | tfsWrite
  | tfsRead
  | tfsSymLink
  | tfsLink
  | tfsUnlink
  | tfsCopyFromExternalFs
  | copyLoop

/-- The public operations -/
def TfsFunction.IsPublic : TfsFunction → Prop
  | .tfsInit | .tfsDestroy | .tfsOpen | .tfsClose | .tfsWrite | .tfsRead | .tfsSymLink
  | .tfsLink | .tfsUnlink | .tfsCopyFromExternalFs => True
  | .dataBlockAlloc | .dataBlockFree | .inodeAlloc | .inodeCreate | .inodeDelete _
  | .addDirEntry | .clearDirEntry | .findInDir | .addToOpenFileTable | .removeFromOpenFileTable
  | .writeToOpenFile | .readFromOpenFile | .tfsLookup | .copyLoop => False

open LockProgram

abbrev TfsProgram : Type := LockProgram TfsLock TfsFunction

/-! ### Functions -/

/-- A lock around nothing that locks -/
def locked (lock : TfsLock) (mode : LockMode) (next : TfsProgram) : TfsProgram :=
  .lock lock mode (.unlock lock next)

/-- `rwlock_wrlock(&dir_locks[b])` to its unlocking, or an early return -/
def dirSection (mode : LockMode) : TfsProgram :=
  either .done (.branch (fun blockNumber => locked (.dir blockNumber) mode .done))

/-- The end of `tfs_open` behind the lookup: the file is there. -/
def openExistingProgram : TfsProgram :=
  .unlock .openMutex (.branch (fun inum =>
    .lock (.inode inum) .exclusive (either
      -- a symbolic link
      (.unlock (.inode inum) (.call .tfsOpen .done))
      -- the file, truncated or not
      (either
        (.call .dataBlockFree (.unlock (.inode inum) (.call .addToOpenFileTable .done)))
        (.unlock (.inode inum) (.call .addToOpenFileTable .done))))))

/-- The end of `tfs_open` behind the lookup: the file is to be created. -/
def createFileProgram : TfsProgram :=
  .call .inodeCreate (either
    (.unlock .openMutex .done)
    (.branch (fun inum =>
      .call .addDirEntry (either
        (.unlock .openMutex (.call (.inodeDelete inum) .done))
        (.unlock .openMutex (.call .addToOpenFileTable .done))))))

/-- What each function locks, calls and unlocks -/
def TfsFunction.body : TfsFunction → TfsProgram
  | .dataBlockAlloc => locked .freeBlocksMutex .exclusive .done
  | .dataBlockFree => locked .freeBlocksMutex .exclusive .done
  | .inodeAlloc => locked .freeinodeTsLock .exclusive .done
  | .inodeCreate =>
      .call .inodeAlloc (either
        .done
        (either
          -- a directory
          (.call .dataBlockAlloc (either
            (.branch (fun inumber => .call (.inodeDelete inumber) .done))
            .done))
          .done))
  | .inodeDelete inumber =>
      .lock .freeinodeTsLock .exclusive (.lock (.inode inumber) .exclusive (either
        (.call .dataBlockFree
          (.unlock (.inode inumber) (.unlock .freeinodeTsLock .done)))
        (.unlock (.inode inumber) (.unlock .freeinodeTsLock .done))))
  | .addDirEntry => dirSection .exclusive
  | .clearDirEntry => dirSection .exclusive
  | .findInDir => dirSection .shared
  | .addToOpenFileTable =>
      either .done
        (.lock .freeOpenFileEntriesMutex .exclusive (either
          (.branch (fun i => locked (.openFile i) .exclusive
            (.unlock .freeOpenFileEntriesMutex .done)))
          (.unlock .freeOpenFileEntriesMutex .done)))
  | .removeFromOpenFileTable =>
      either .done
        (.branch (fun fhandle =>
          .lock .freeOpenFileEntriesMutex .exclusive (.lock (.openFile fhandle) .exclusive
            (.branch (fun inumber => .lock (.inode inumber) .shared (either
              -- no inode, or one that is kept
              (.unlock (.inode inumber) (.unlock (.openFile fhandle)
                (.unlock .freeOpenFileEntriesMutex .done)))
              -- the last close of an unlinked file
              (.unlock (.inode inumber) (.call (.inodeDelete inumber)
                (.unlock (.openFile fhandle) (.unlock .freeOpenFileEntriesMutex .done))))))))))
  | .writeToOpenFile =>
      either .done
        (.branch (fun fhandle => .lock (.openFile fhandle) .exclusive
          (.branch (fun inumber => .lock (.inode inumber) .exclusive (either
            -- with a block for an empty file, or without one
            (.call .dataBlockAlloc
              (.unlock (.inode inumber) (.unlock (.openFile fhandle) .done)))
            (.unlock (.inode inumber) (.unlock (.openFile fhandle) .done)))))))
  | .readFromOpenFile =>
      either .done
        (.branch (fun fhandle => .lock (.openFile fhandle) .exclusive
          (.branch (fun inumber => locked (.inode inumber) .shared
            (.unlock (.openFile fhandle) .done)))))
  | .tfsInit => either .done (.call .inodeCreate .done)
  | .tfsDestroy => .done
  | .tfsLookup => either .done (.call .findInDir .done)
  | .tfsOpen =>
      either .done
        (.lock .openMutex .exclusive (.call .tfsLookup (either
          openExistingProgram
          (either createFileProgram (.unlock .openMutex .done)))))
  | .tfsClose => .call .removeFromOpenFileTable .done
  | .tfsWrite => .call .writeToOpenFile .done
  | .tfsRead => .call .readFromOpenFile .done
  | .tfsSymLink =>
      either .done
        (.lock .linkLock .shared (.call .inodeCreate (either
          (.unlock .linkLock .done)
          (.branch (fun linkInum => either
            -- no inode
            (.call (.inodeDelete linkInum) (.unlock .linkLock .done))
            (.call .dataBlockAlloc (either
              (.call (.inodeDelete linkInum) (.unlock .linkLock .done))
              (.call .addDirEntry (either
                (.call (.inodeDelete linkInum) (.unlock .linkLock .done))
                (.unlock .linkLock .done))))))))))
  | .tfsLink =>
      either .done
        (.lock .linkLock .shared (.call .tfsLookup (either
          (.unlock .linkLock .done)
          (.call .addDirEntry (either
            (.unlock .linkLock .done)
            (either
              -- the target is a symbolic link
              (.call .clearDirEntry (.unlock .linkLock .done))
              (.branch (fun targetInum =>
                locked (.inode targetInum) .exclusive (.unlock .linkLock .done)))))))))
  | .tfsUnlink =>
      either .done
        (.lock .linkLock .exclusive (.call .tfsLookup (either
          -- no target, or no inode
          (.unlock .linkLock .done)
          (.call .clearDirEntry (either
            (.unlock .linkLock .done)
            (.branch (fun targetInum =>
              .lock .freeOpenFileEntriesMutex .exclusive (.lock (.inode targetInum) .exclusive
                (either
                  (.unlock (.inode targetInum) (.call (.inodeDelete targetInum)
                    (.unlock .freeOpenFileEntriesMutex (.unlock .linkLock .done))))
                  (.unlock (.inode targetInum)
                    (.unlock .freeOpenFileEntriesMutex (.unlock .linkLock .done))))))))))))
  | .tfsCopyFromExternalFs => either .done (.call .tfsOpen (either .done (.call .copyLoop .done)))
  | .copyLoop =>
      either
        (.call .tfsWrite (either (.call .tfsClose .done) (.call .copyLoop .done)))
        (.call .tfsClose .done)

/-! ### Order -/

def TfsLock.rank : TfsLock → Nat
  | .openMutex => 0
  | .linkLock => 1
  | .freeOpenFileEntriesMutex => 2
  | .openFile _ => 3
  | .freeinodeTsLock => 4
  | .inode _ => 5
  | .freeBlocksMutex => 6
  | .dir _ => 7

/-- The lowest rank of a lock that the function takes -/
def TfsFunction.floor : TfsFunction → Nat
  | .tfsOpen | .tfsCopyFromExternalFs | .tfsDestroy => 0
  | .tfsSymLink | .tfsLink | .tfsUnlink => 1
  | .addToOpenFileTable | .removeFromOpenFileTable | .tfsClose | .copyLoop => 2
  | .writeToOpenFile | .readFromOpenFile | .tfsWrite | .tfsRead => 3
  | .inodeAlloc | .inodeCreate | .inodeDelete _ | .tfsInit => 4
  | .dataBlockAlloc | .dataBlockFree => 6
  | .addDirEntry | .clearDirEntry | .findInDir | .tfsLookup => 7

theorem TfsLock.rank_le (lock : TfsLock) : lock.rank ≤ 7 := by
  cases lock <;> simp [rank]

theorem tfs_allOrdered : AllOrdered TfsLock.rank TfsFunction.floor TfsFunction.body := by
  intro function
  cases function <;>
    simp [TfsFunction.body, dirSection, locked, openExistingProgram, createFileProgram, Ordered,
      ordered_either, TfsLock.rank, TfsFunction.floor]

/-! ### Threads -/

/-- Threads that call the public operations in any order -/
def tfsSystem (Thread : Type) [DecidableEq Thread] :
    ThreadSystem Thread (Threads Thread TfsLock TfsFunction) :=
  threadSystem Thread TfsFunction.IsPublic TfsFunction.body

/-- Operations return without locks, and no threads wait for each other. -/
theorem tfs_deadlockFree {Thread : Type} [DecidableEq Thread]
    {threads : Threads Thread TfsLock TfsFunction}
    (reachable : (tfsSystem Thread).Reachable threads) : threads.DeadlockFree :=
  (Threads.reachable_inOrder tfs_allOrdered reachable).deadlockFree TfsLock.rank_le

/-- A thread waits to open a file while another one does. -/
theorem tfs_deadlockFree_opening :
    ∃ threads : Threads Bool TfsLock TfsFunction, threads.Holds false .openMutex ∧
      threads.Waits true .openMutex ∧ threads.DeadlockFree := by
  have start : (tfsSystem Bool).Reachable ⟨.empty, fun _ => .done⟩ := .initial ⟨rfl, fun _ => rfl⟩
  have opens {table : LockTable Bool TfsLock} {programs : Bool → TfsProgram} (thread : Bool)
      (reachable : (tfsSystem Bool).Reachable ⟨table, programs⟩)
      (returned : programs thread = .done) : ∃ next, (tfsSystem Bool).Reachable
        ⟨table, Function.update programs thread (.lock .openMutex .exclusive next)⟩ := by
    have called := reachable.step (Or.inl ⟨.tfsOpen, trivial, returned, rfl⟩)
    have entered := called.step (Or.inr ⟨_, _, by
      dsimp only
      rw [Function.update_self]
      exact .calls, rfl⟩)
    have valid := entered.step (Or.inr ⟨_, _, by
      dsimp only
      rw [Function.update_self]
      exact .takes 1, rfl⟩)
    dsimp only at valid
    rw [Function.update_idem, Function.update_idem] at valid
    exact ⟨_, valid⟩
  obtain ⟨_, waiting⟩ := opens false start rfl
  have locked := waiting.step (Or.inr ⟨_, _, by
    dsimp only
    rw [Function.update_self]
    exact .locks (LockTable.empty_available _ _), rfl⟩)
  obtain ⟨next, second⟩ := opens true locked (by
    dsimp only
    rw [Function.update_of_ne (by decide), Function.update_of_ne (by decide)])
  have holds : LockTable.acquire LockTable.empty false TfsLock.openMutex .exclusive false
      .openMutex = some .exclusive := by
    rw [LockTable.acquire, LockTable.set_self, Function.update_self]
  refine ⟨_, ⟨.exclusive, holds⟩, ⟨.exclusive, next, ?_, ?_⟩, tfs_deadlockFree second⟩
  · dsimp only
    rw [Function.update_self]
  · intro available
    cases (available false .exclusive holds).1

end TecnicoFS.FileSystem
