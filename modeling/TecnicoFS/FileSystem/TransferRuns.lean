/-
Concurrent calls of `tfs_write` and `tfs_read` are linearizable.

In every interleaving the second file system stands next to the shared one: what no thread holds
is the same in both, and every thread is at a correct point.  So the calls return what they
return one after another, and when all of them are over, both file systems are the same.
-/

import TecnicoFS.FileSystem.Runs
import TecnicoFS.FileSystem.TransferReads

set_option autoImplicit false

namespace TecnicoFS.FileSystem

open FaultAction

variable {Thread : Type} {serial fs serial' fs' : State}
  {status : CallStatus Transfer ReadResult}

/-! ### Blocks -/

/-- Two blocks that share a byte are the same. -/
theorem block_unique {blockSize left right address : Nat} (leftLow : left * blockSize ≤ address)
    (leftHigh : address < left * blockSize + blockSize) (rightLow : right * blockSize ≤ address)
    (rightHigh : address < right * blockSize + blockSize) : left = right := by
  have quotient {block : Nat} (low : block * blockSize ≤ address)
      (high : address < block * blockSize + blockSize) : address / blockSize = block := by
    apply Nat.div_eq_of_lt_le low
    rw [Nat.succ_mul]
    exact high
  rw [← quotient leftLow leftHigh, quotient rightLow rightHigh]

/-- A byte lies in one file. -/
theorem Invariant.inBlock_unique (inv : Invariant serial none) {left right address : Nat}
    (leftTaken : serial.InodeTaken left) (rightTaken : serial.InodeTaken right)
    (inLeft : serial.InBlock left address) (inRight : serial.InBlock right address) :
    left = right := by
  obtain ⟨leftSize, leftBlock, leftEq, leftLow, leftHigh⟩ := inLeft
  obtain ⟨rightSize, rightBlock, rightEq, rightLow, rightHigh⟩ := inRight
  have same := block_unique leftLow leftHigh rightLow rightHigh
  rw [same] at leftEq
  exact inv.blocks.exclusive left right _ ⟨leftTaken, leftEq, fun _ => leftSize⟩
    ⟨rightTaken, rightEq, fun _ => rightSize⟩

/-- A thread holds the lock of an inode in use. -/
theorem TransferPoint.Correct.inodeTaken {point : TransferPoint}
    (correct : point.Correct serial fs status) (inv : Invariant serial none) {inode : Nat}
    {mode : LockMode} (holds : (.inode inode, mode) ∈ point.held) : serial.InodeTaken inode := by
  cases point with
  | clamp transfer file inumber =>
      obtain ⟨⟨_, _, taken⟩, _, refers, _⟩ := correct
      obtain ⟨held, heldEq, _, inodeTaken, _⟩ := inv.holders.handleHolds file taken
      rw [refers] at heldEq
      subst heldEq
      rcases List.mem_cons.mp holds with same | other
      · cases same
        exact inodeTaken
      · cases List.mem_singleton.mp other
  | write frame point =>
      obtain ⟨taken, refers, _⟩ := correct
      have same : inode = frame.inode := by
        rcases List.mem_append.mp holds with mutex | locks
        · split at mutex
          · cases List.mem_singleton.mp mutex
          · cases mutex
        · rcases List.mem_cons.mp locks with same | other
          · cases same
            rfl
          · cases List.mem_singleton.mp other
      rw [same]
      exact (inv.openInode taken refers).2.1
  | read frame point =>
      obtain ⟨taken, refers, _⟩ := correct
      have same : inode = frame.inode := by
        rcases List.mem_cons.mp holds with same | other
        · cases same
          rfl
        · cases List.mem_singleton.mp other
      rw [same]
      exact (inv.openInode taken refers).2.1
  | lockInode _ _ | unlockEntry _ _ =>
      cases List.mem_singleton.mp holds
  | _ => cases holds

/-- What is left to copy goes to the file of the writer. -/
theorem TransferPoint.Correct.unwritten {point : TransferPoint}
    (correct : point.Correct serial fs status) {address : Nat}
    (unwritten : point.Unwritten serial address) :
    ∃ inode, (.inode inode, .exclusive) ∈ point.held ∧ serial.InBlock inode address := by
  cases point with
  | write frame point =>
      obtain ⟨_, _, correct⟩ := correct
      obtain ⟨block, start, copied, isCopied, sameBlock, sameOffset, low, high⟩ := unwritten
      have left : ∃ block start, WriteLeft serial fs frame block start copied status := by
        cases point with
        | unlockBlocks bnum | storeBlock bnum =>
            rcases correct with ⟨same, _⟩ | ⟨block, start, same, left⟩
            · subst same
              cases isCopied
            · subst same
              have zero : (if (block : Int) = -1 then none else some 0) = some copied := isCopied
              rw [if_neg (by omega)] at zero
              cases zero
              exact ⟨block, start, left⟩
        | findBytes =>
            obtain ⟨block, start, left, _⟩ := correct
            cases isCopied
            exact ⟨block, start, left⟩
        | copyBytes _ _ =>
            obtain ⟨block, start, left, _⟩ := correct
            cases isCopied
            exact ⟨block, start, left⟩
        | _ => cases isCopied
      obtain ⟨block', start', left⟩ := left
      have inside := left.inside
      have nonempty := left.nonempty
      have node := left.inode
      rw [left.entry] at sameOffset
      rw [node] at sameBlock
      dsimp only at sameOffset sameBlock
      have equal : block' = block := Int.ofNat_inj.mp sameBlock
      subst equal
      refine ⟨frame.inode, frame.holds_inode point, ?_, block', ?_, ?_, ?_⟩
      · rw [node]
        dsimp only
        omega
      · rw [node]
      · omega
      · omega
  | _ => exact unwritten.elim

theorem TransferPoint.Unwritten.kept {point : TransferPoint} {address : Nat}
    (unwritten : point.Unwritten serial address)
    (spared : Spared point.held serial fs serial' fs') : point.Unwritten serial' address := by
  cases point with
  | write frame point =>
      obtain ⟨block, start, copied, isCopied, sameBlock, sameOffset, low, high⟩ := unwritten
      refine ⟨block, start, copied, isCopied, ?_, ?_, ?_, ?_⟩
      · rw [(spared.inodes _ _ (frame.holds_inode point)).1]
        exact sameBlock
      · rw [(spared.entries _ (frame.holds_entry point)).1]
        exact sameOffset
      · rw [spared.blockSize]
        exact low
      · rw [spared.blockSize]
        exact high
  | _ => exact unwritten.elim

/-! ### Points -/

/-- A thread that gives a lock back leaves both file systems the same there. -/
theorem Settles.goto [DecidableEq Thread] {points : Thread → TransferPoint}
    (settles : Settles serial fs points) {thread : Thread} {next : TransferPoint}
    (entries : ∀ file, (.openFile file, .exclusive) ∈ (points thread).held →
      (.openFile file, .exclusive) ∉ next.held →
      serial.openFileTable file = fs.openFileTable file)
    (inodes : ∀ inode, (.inode inode, .exclusive) ∈ (points thread).held →
      (.inode inode, .exclusive) ∉ next.held → serial.inodeTable inode = fs.inodeTable inode)
    (unwritten : ∀ address, (points thread).Unwritten serial address →
      next.Unwritten serial address) :
    Settles serial fs (Function.update points thread next) where
  fsParams := settles.fsParams
  dataBytes := settles.dataBytes
  freeinodeTs := settles.freeinodeTs
  freeBlocks := settles.freeBlocks
  freeOpenFileEntries := settles.freeOpenFileEntries
  refers := settles.refers
  entries file unheld := by
    by_cases before : (.openFile file, .exclusive) ∈ (points thread).held
    · apply entries file before
      have after := unheld thread
      rw [Function.update_self] at after
      exact after
    · apply settles.entries
      intro other
      by_cases same : other = thread
      · rw [same]
        exact before
      · have after := unheld other
        rw [Function.update_of_ne same] at after
        exact after
  inodes inode unheld := by
    by_cases before : (.inode inode, .exclusive) ∈ (points thread).held
    · apply inodes inode before
      have after := unheld thread
      rw [Function.update_self] at after
      exact after
    · apply settles.inodes
      intro other
      by_cases same : other = thread
      · rw [same]
        exact before
      · have after := unheld other
        rw [Function.update_of_ne same] at after
        exact after
  bytes address written := by
    apply settles.bytes
    intro other before
    have after := written other
    by_cases same : other = thread
    · rw [same, Function.update_self] at after
      rw [same] at before
      exact after (unwritten address before)
    · rw [Function.update_of_ne same] at after
      exact after before

/-- With the lock the thread is at a correct point, and nothing is left to copy. -/
theorem TransferPoint.Correct.lock? {point next : TransferPoint} {lock : TfsLock} {mode : LockMode}
    (correct : point.Correct serial fs status)
    (takes : point.lock? fs = some (lock, mode, next))
    (entries : ∀ file, .openFile file = lock →
      serial.openFileTable file = fs.openFileTable file)
    (inodes : ∀ inode, .inode inode = lock → serial.inodeTable inode = fs.inodeTable inode) :
    next.Correct serial fs status ∧ ∀ address, ¬ point.Unwritten serial address := by
  cases point with
  | lockEntry transfer file =>
      cases takes
      exact ⟨⟨correct, entries file rfl⟩, fun _ left => left⟩
  | lockInode transfer file =>
      cases takes
      obtain ⟨waits, same⟩ := correct
      exact ⟨⟨waits, same, by rw [same], inodes _ rfl⟩, fun _ left => left⟩
  | write frame point =>
      cases point with
      | lockBlocks =>
          cases takes
          obtain ⟨taken, refers, waits, empty⟩ := correct
          exact ⟨⟨taken, refers, waits, empty, fun _ impossible => by cases impossible⟩,
            not_unwritten rfl⟩
      | _ => cases takes
  | _ => cases takes

/-- Without the lock the thread is at a correct point, and what the lock guarded is settled. -/
theorem TransferPoint.Correct.unlock? {point next : TransferPoint} {lock : TfsLock}
    (correct : point.Correct serial fs status) (gives : point.unlock? = some (lock, next)) :
    next.Correct serial fs status ∧
      (∀ address, point.Unwritten serial address → next.Unwritten serial address) ∧
      (∀ file, .openFile file = lock → serial.openFileTable file = fs.openFileTable file) ∧
      ∀ inode, .inode inode = lock → (.inode inode, .exclusive) ∈ point.held →
        serial.inodeTable inode = fs.inodeTable inode := by
  cases point with
  | unlockEntry file result =>
      cases gives
      obtain ⟨done, same⟩ := correct
      refine ⟨done, fun _ left => left.elim, ?_, ?_⟩
      · intro other isFile
        cases isFile
        exact same
      · intro inode impossible
        cases impossible
  | write frame point =>
      cases point with
      | unlockBlocks bnum =>
          cases gives
          refine ⟨correct, fun _ left => left, ?_, ?_⟩
          · intro file impossible
            cases impossible
          · intro inode impossible
            cases impossible
      | unlockInode result =>
          cases gives
          obtain ⟨_, _, ended⟩ := correct
          refine ⟨⟨ended.status, ended.entry⟩, fun address left =>
            (not_unwritten rfl address left).elim, ?_, ?_⟩
          · intro file impossible
            cases impossible
          · intro inode isInode _
            cases isInode
            exact ended.inode
      | _ => cases gives
  | read frame point =>
      cases point with
      | unlockInode result =>
          cases gives
          obtain ⟨_, _, done, same⟩ := correct
          refine ⟨⟨done, same⟩, fun _ left => left.elim, ?_, ?_⟩
          · intro file impossible
            cases impossible
          · intro inode isInode holds
            cases isInode
            simp [TransferPoint.held] at holds
      | _ => cases gives
  | _ => cases gives

/-! ### The simulation -/

/-- The object is where the shared file system will be when the calls that took effect are over. -/
structure Mirrors (shared : SharedTransfers Thread)
    (object : AtomicObject Thread State Transfer ReadResult) : Prop where
  safe : shared.locks.Safe
  holds : shared.locks.Matches (fun thread => (shared.points thread).held)
  inv : Invariant object.state none
  fits : object.state.Fits
  settles : Settles object.state shared.fs shared.points
  correct : ∀ thread,
    (shared.points thread).Correct object.state shared.fs (object.status thread)
  events : object.events = shared.events

namespace Mirrors

variable {shared : SharedTransfers Thread} {object : AtomicObject Thread State Transfer ReadResult}
  {thread other : Thread}

/-- A lock that one thread holds alone -/
theorem exclusive (mirrors : Mirrors shared object) {lock : TfsLock} {mode : LockMode}
    (holds : (lock, .exclusive) ∈ (shared.points thread).held)
    (otherHolds : (lock, mode) ∈ (shared.points other).held) : other = thread :=
  mirrors.safe.exclusive ((mirrors.holds thread lock .exclusive).mpr holds)
    ((mirrors.holds other lock mode).mpr otherHolds)

/-- A thread holds a lock in one way. -/
theorem mode_unique (mirrors : Mirrors shared object) {lock : TfsLock} {mode mode' : LockMode}
    (holds : (lock, mode) ∈ (shared.points thread).held)
    (holds' : (lock, mode') ∈ (shared.points thread).held) : mode = mode' := by
  have first := (mirrors.holds thread lock mode).mpr holds
  rw [(mirrors.holds thread lock mode').mpr holds', Option.some.injEq] at first
  exact first.symm

/-- What a thread can rely on -/
theorem ground (mirrors : Mirrors shared object) (thread : Thread) :
    Ground (shared.points thread).held object.state shared.fs where
  inv := mirrors.inv
  fits := mirrors.fits
  fsParams := mirrors.settles.fsParams
  dataBytes := mirrors.settles.dataBytes
  freeBlocks := mirrors.settles.freeBlocks
  freeOpenFileEntries := mirrors.settles.freeOpenFileEntries
  inodes inode shares := by
    apply mirrors.settles.inodes
    intro other holds
    have same := mirrors.exclusive holds shares
    subst same
    cases mirrors.mode_unique holds shares
  bytes inode shares address inBlock := by
    symm
    apply mirrors.settles.bytes
    intro other unwritten
    obtain ⟨written, holds, inWritten⟩ := (mirrors.correct other).unwritten unwritten
    have node := (mirrors.correct thread).inodeTaken mirrors.inv shares
    have writtenNode := (mirrors.correct other).inodeTaken mirrors.inv holds
    have same := mirrors.inv.inBlock_unique writtenNode node inWritten inBlock
    subst same
    have equal := mirrors.exclusive holds shares
    subst equal
    cases mirrors.mode_unique holds shares

/-- A statement of one thread spares what another one holds. -/
theorem spares (mirrors : Mirrors shared object) {next : TransferPoint} {serial' fs' : State}
    {status' : CallStatus Transfer ReadResult}
    (ok : StatementOk (shared.points thread) object.state shared.fs next serial' fs' status')
    (different : other ≠ thread) :
    Spared (shared.points other).held object.state shared.fs serial' fs' := by
  have apart {lock : TfsLock} {mode : LockMode}
      (holds : (lock, mode) ∈ (shared.points other).held) :
      (lock, .exclusive) ∉ (shared.points thread).held :=
    fun own => different (mirrors.exclusive own holds)
  have frames := ok.serialFrame
  constructor
  · exact frames.fsParams
  · exact frames.freeOpenFileEntries
  · intro file holds
    exact ⟨frames.entries file (apart holds), ok.frame.entries file (apart holds)⟩
  · intro inode mode holds
    exact ⟨frames.inodes inode (apart holds), ok.frame.inodes inode (apart holds)⟩
  · intro holds
    exact ok.frame.blocks (apart holds)
  · intro inode mode holds address inBlock
    apply frames.bytes
    rintro ⟨written, own, inWritten⟩
    have taken {node : Nat} (before : object.state.InodeTaken node) :
        serial'.InodeTaken node := by
      unfold State.InodeTaken State.inodeTableSize at before ⊢
      rw [frames.fsParams, frames.freeinodeTs]
      exact before
    have stays : serial'.InBlock inode address := by
      have blockSize : serial'.blockSize = object.state.blockSize :=
        congrArg TfsParams.blockSize frames.fsParams
      unfold State.InBlock at inBlock ⊢
      rw [frames.inodes inode (apart holds), blockSize]
      exact inBlock
    have node := taken ((mirrors.correct other).inodeTaken mirrors.inv holds)
    have writtenNode := taken ((mirrors.correct thread).inodeTaken mirrors.inv own)
    have same := ok.inv.inBlock_unique writtenNode node inWritten stays
    subst same
    exact different (mirrors.exclusive own holds)

variable [DecidableEq Thread]

/-- The locks go with the point. -/
theorem locks_goto (mirrors : Mirrors shared object) {locks : LockTable Thread TfsLock}
    {next : TransferPoint}
    (changed : shared.locks.Change thread (shared.points thread).held locks next.held) :
    locks.Safe ∧
      locks.Matches (fun other => (Function.update shared.points thread next other).held) := by
  have moved : shared.locks.Change thread (shared.points thread).held locks
      (Function.update shared.points thread next thread).held := by
    rw [Function.update_self]
    exact changed
  refine ⟨mirrors.safe.change changed, mirrors.holds.change moved ?_⟩
  intro other different
  rw [Function.update_of_ne different]

/-- The thread goes to a correct point without a change of either file system. -/
theorem goto (mirrors : Mirrors shared object) {locks : LockTable Thread TfsLock}
    {next : TransferPoint} {object' : AtomicObject Thread State Transfer ReadResult}
    (changed : shared.locks.Change thread (shared.points thread).held locks next.held)
    (state : object'.state = object.state)
    (correct : next.Correct object.state shared.fs (object'.status thread))
    (others : ∀ other, other ≠ thread → object'.status other = object.status other)
    (settles : Settles object.state shared.fs (Function.update shared.points thread next)) :
    Mirrors ⟨shared.fs, locks, Function.update shared.points thread next, object'.events⟩
      object' where
  safe := (mirrors.locks_goto changed).1
  holds := (mirrors.locks_goto changed).2
  inv := by
    rw [state]
    exact mirrors.inv
  fits := by
    rw [state]
    exact mirrors.fits
  settles := by
    rw [state]
    exact settles
  correct other := by
    dsimp only
    rw [state]
    by_cases same : other = thread
    · rw [same, Function.update_self]
      exact correct
    · rw [Function.update_of_ne same, others other same]
      exact mirrors.correct other
  events := rfl

/-- The thread calls, or its call returns. -/
theorem border (mirrors : Mirrors shared object) {next : TransferPoint}
    {status : CallStatus Transfer ReadResult}
    (events : List (ObjectEvent Thread Transfer ReadResult))
    (before : (shared.points thread).held = []) (after : next.held = [])
    (correct : next.Correct object.state shared.fs status)
    (unwritten : ∀ address, ¬ (shared.points thread).Unwritten object.state address) :
    Mirrors ⟨shared.fs, shared.locks, Function.update shared.points thread next, events⟩
      ⟨object.state, Function.update object.status thread status, events⟩ := by
  have changed : shared.locks.Change thread (shared.points thread).held shared.locks next.held := by
    apply LockTable.Change.same
    intro entry
    rw [before, after]
  have settles := @Settles.goto _ _ _ _ _ mirrors.settles thread next (by
    intro file holds
    rw [before] at holds
    cases holds) (by
    intro inode holds
    rw [before] at holds
    cases holds) (fun address left => (unwritten address left).elim)
  apply @goto _ _ _ _ _ mirrors _ _ ⟨object.state, Function.update object.status thread status,
    events⟩ changed rfl _ _ settles
  · dsimp only
    rw [Function.update_self]
    exact correct
  · intro other different
    exact Function.update_of_ne different _ _

/-- The thread takes a lock that is available. -/
theorem locks (mirrors : Mirrors shared object) {lock : TfsLock} {mode : LockMode}
    {next : TransferPoint}
    (takes : (shared.points thread).lock? shared.fs = some (lock, mode, next))
    (available : shared.locks.Available lock mode) :
    Mirrors { shared with
      locks := shared.locks.acquire thread lock mode
      points := Function.update shared.points thread next } object := by
  have held := TransferPoint.lock?_held takes
  have unheld (holder : Thread) : (lock, .exclusive) ∉ (shared.points holder).held := by
    intro holds
    cases (available holder .exclusive ((mirrors.holds _ _ _).mpr holds)).1
  have goes := (mirrors.correct thread).lock? takes
    (fun file same => mirrors.settles.entries file (by rw [same]; exact unheld))
    (fun inode same => mirrors.settles.inodes inode (by rw [same]; exact unheld))
  have changed : shared.locks.Change thread (shared.points thread).held
      (shared.locks.acquire thread lock mode) next.held := by
    apply LockTable.Change.acquire available
    intro entry
    rw [held, List.mem_cons, or_comm]
  have settles := @Settles.goto _ _ _ _ _ mirrors.settles thread next (by
    intro file holds gone
    rw [held] at gone
    exact (gone (List.mem_cons_of_mem _ holds)).elim) (by
    intro inode holds gone
    rw [held] at gone
    exact (gone (List.mem_cons_of_mem _ holds)).elim)
    (fun address left => (goes.2 address left).elim)
  have moved := mirrors.goto changed rfl goes.1 (fun _ _ => rfl) settles
  rw [mirrors.events] at moved
  exact moved

/-- The thread gives a lock back. -/
theorem unlocks (mirrors : Mirrors shared object) {lock : TfsLock} {next : TransferPoint}
    (gives : (shared.points thread).unlock? = some (lock, next)) :
    Mirrors { shared with
      locks := shared.locks.release thread lock
      points := Function.update shared.points thread next } object := by
  have held := TransferPoint.unlock?_held gives
  have kept {entry : TfsLock × LockMode} (holds : entry ∈ (shared.points thread).held)
      (gone : entry ∉ next.held) : entry.1 = lock := by
    by_contra different
    apply gone
    rw [held, List.mem_filter, decide_eq_true_eq]
    exact ⟨holds, different⟩
  obtain ⟨correct, unwritten, entries, inodes⟩ := (mirrors.correct thread).unlock? gives
  have changed : shared.locks.Change thread (shared.points thread).held
      (shared.locks.release thread lock) next.held := by
    apply LockTable.Change.release
    intro entry
    rw [held, List.mem_filter, decide_eq_true_eq]
  have settles := mirrors.settles.goto
    (fun file holds gone => entries file (kept holds gone))
    (fun inode holds gone => inodes inode (kept holds gone) holds) unwritten
  have moved := mirrors.goto changed rfl correct (fun _ _ => rfl) settles
  rw [mirrors.events] at moved
  exact moved

/-- The thread runs its next statement. -/
theorem runs (mirrors : Mirrors shared object) {action : TfsAction TransferPoint}
    (code : (shared.points thread).code = some action) :
    ∃ next fs' serial' status', action shared.fs = .ok (next, fs') ∧
      Effect object.state (object.status thread) serial' status' ∧
      Mirrors { shared with fs := fs', points := Function.update shared.points thread next }
        ⟨serial', Function.update object.status thread status', object.events⟩ := by
  obtain ⟨next, fs', serial', status', ran, effect, ok⟩ :=
    TransferPoint.runs (mirrors.ground thread) (mirrors.correct thread) code
  refine ⟨next, fs', serial', status', ran, effect, ?_⟩
  have spared {other : Thread} (different : other ≠ thread) := mirrors.spares ok different
  have frames := ok.serialFrame
  have held (other : Thread) : (Function.update shared.points thread next other).held =
      (shared.points other).held := by
    by_cases same : other = thread
    · rw [same, Function.update_self]
      exact ok.held
    · rw [Function.update_of_ne same]
  constructor
  · exact mirrors.safe
  · have holds := mirrors.holds
    simp only [held]
    exact holds
  · exact ok.inv
  · have fits := mirrors.fits
    rw [State.fits_iff] at fits ⊢
    dsimp only
    rw [frames.fsParams]
    exact fits
  · have settles := mirrors.settles
    have frame := ok.frame
    constructor
    · exact frames.fsParams.trans (settles.fsParams.trans frame.fsParams.symm)
    · exact frames.dataBytes.trans (settles.dataBytes.trans frame.dataBytes.symm)
    · exact frames.freeinodeTs.trans (settles.freeinodeTs.trans frame.freeinodeTs.symm)
    · exact ok.freeBlocks
    · exact frames.freeOpenFileEntries.trans
        (settles.freeOpenFileEntries.trans frame.freeOpenFileEntries.symm)
    · intro file
      exact (frames.refers file).trans ((settles.refers file).trans (frame.refers file).symm)
    · intro file unheld
      simp only [held] at unheld
      exact (frames.entries file (unheld thread)).trans
        ((settles.entries file unheld).trans (frame.entries file (unheld thread)).symm)
    · intro inode unheld
      simp only [held] at unheld
      exact (frames.inodes inode (unheld thread)).trans
        ((settles.inodes inode unheld).trans (frame.inodes inode (unheld thread)).symm)
    · intro address written
      have own := written thread
      dsimp only at own
      rw [Function.update_self] at own
      rcases ok.bytes address own with same | ⟨before, same, same'⟩
      · exact same
      · refine same.trans ((settles.bytes address ?_).trans same'.symm)
        intro other unwritten
        by_cases equal : other = thread
        · rw [equal] at unwritten
          exact before unwritten
        · apply written other
          dsimp only
          rw [Function.update_of_ne equal]
          exact unwritten.kept (spared equal)
  · intro other
    dsimp only
    by_cases same : other = thread
    · rw [same, Function.update_self, Function.update_self]
      exact ok.correct
    · rw [Function.update_of_ne same, Function.update_of_ne same]
      exact (mirrors.correct other).kept (spared same)
  · exact mirrors.events

end Mirrors

/-! ### Linearizability -/

/-- What the calls do one after another -/
def Transfer.Serial (transfer : Transfer) (state : State) (result : ReadResult) (state' : State) :
    Prop :=
  transfer.call.Admissible state.blockSize ∧ transfer.call.run state = .ok (result, state')

/-- A call that waits for its effect is admissible. -/
theorem TransferPoint.Correct.admissible {point : TransferPoint} {transfer : Transfer}
    (correct : point.Correct serial fs (.pending transfer)) :
    transfer.call.Admissible serial.blockSize := by
  have written {frame : WriteFrame} (waits : WriteWaits serial fs frame (.pending transfer)) :
      transfer.call.Admissible serial.blockSize := by
    obtain ⟨toWrite, same, covered, short, _⟩ := waits.status
    cases same
    exact ⟨covered, short⟩
  cases point with
  | enter _ =>
      obtain ⟨same, admissible⟩ := correct
      cases same
      exact admissible
  | lockEntry _ _ =>
      obtain ⟨same, admissible, _⟩ := correct
      cases same
      exact admissible
  | lockInode _ _ | clamp _ _ _ =>
      obtain ⟨⟨same, admissible, _⟩, _⟩ := correct
      cases same
      exact admissible
  | write frame point =>
      obtain ⟨_, _, correct⟩ := correct
      cases point with
      | cut =>
          obtain ⟨same, covered, short, _⟩ := correct
          cases same
          exact ⟨covered, short⟩
      | testSize => exact written correct
      | lockBlocks | scanBlocks _ | markBlock _ => exact written correct.1
      | unlockBlocks _ | storeBlock _ =>
          rcases correct with ⟨_, ended⟩ | ⟨_, _, _, left⟩
          · cases ended.status
          · cases left.status
      | findBytes | copyBytes _ _ | advance =>
          obtain ⟨_, _, left, _⟩ := correct
          cases left.status
      | grow => cases correct.1
      | unlockInode _ => cases correct.status
  | read frame point =>
      obtain ⟨_, _, correct⟩ := correct
      cases point with
      | measure =>
          obtain ⟨same, _⟩ := correct
          cases same
          trivial
      | findBytes _ =>
          obtain ⟨_, _, left⟩ := correct
          cases left.status
      | copyBytes _ _ _ | advance _ _ =>
          obtain ⟨_, _, left, _⟩ := correct
          cases left.status
      | unlockInode _ => cases correct.1
  | unlockEntry _ _ => cases correct.1
  | idle | returned _ => cases correct

variable [DecidableEq Thread] {start : State}

/-- What one statement does to the object is a step of it, or is not seen there. -/
theorem Effect.matches {object : AtomicObject Thread State Transfer ReadResult} {thread : Thread}
    (effect : Effect object.state (object.status thread) serial' status)
    (admissible : ∀ transfer, object.status thread = .pending transfer →
      transfer.call.Admissible object.state.blockSize) :
    (AtomicObject.system Thread Transfer.Serial start).Matches object
      ⟨serial', Function.update object.status thread status, object.events⟩ := by
  generalize before : object.status thread = earlier at effect
  cases effect with
  | stays =>
      left
      rw [← before, Function.update_eq_self]
  | takes pending returned =>
      rw [pending] at before
      exact Or.inr ⟨thread, .takesEffect before ⟨admissible _ before, returned⟩⟩

/-- The shared file system is simulated by the one on which every call takes effect at once. -/
theorem transfers_simulated (inv : Invariant start none) (fits : start.Fits) :
    (transferSystem Thread start).Simulates
      (AtomicObject.system Thread Transfer.Serial start) Mirrors := by
  constructor
  · intro shared first
    rw [show shared = _ from first]
    refine ⟨_, rfl, .empty, .empty _ (fun _ => rfl), inv, fits, ?_, fun _ => rfl, rfl⟩
    exact ⟨rfl, rfl, rfl, rfl, rfl, fun _ => rfl, fun _ _ => rfl, fun _ _ => rfl, fun _ _ => rfl⟩
  · intro thread shared shared' object _ mirrors step
    have before := mirrors.correct thread
    cases step with
    | calls transfer idle admissible =>
        rw [idle] at before
        have blockSize : object.state.blockSize = shared.fs.blockSize :=
          congrArg TfsParams.blockSize mirrors.settles.fsParams
        rw [← blockSize] at admissible
        refine ⟨_, Or.inr ⟨thread, .calls transfer before⟩, ?_⟩
        rw [mirrors.events]
        refine mirrors.border _ (by rw [idle]; rfl) rfl ⟨rfl, admissible⟩ ?_
        intro _ left
        rw [idle] at left
        exact left
    | locks takes available => exact ⟨object, Or.inl rfl, mirrors.locks takes available⟩
    | unlocks gives => exact ⟨object, Or.inl rfl, mirrors.unlocks gives⟩
    | runs code ran =>
        obtain ⟨next, fs', serial', status', ran', effect, mirrors'⟩ := mirrors.runs code
        rw [ran] at ran'
        cases ran'
        refine ⟨_, effect.matches ?_, mirrors'⟩
        intro transfer pending
        rw [pending] at before
        exact before.admissible
    | returns atEnd =>
        rw [atEnd] at before
        refine ⟨_, Or.inr ⟨thread, .returns before⟩, ?_⟩
        rw [mirrors.events]
        refine mirrors.border _ (by rw [atEnd]; rfl) rfl rfl ?_
        intro _ left
        rw [atEnd] at left
        exact left

/-- No thread is inside a call. -/
def SharedTransfers.AtRest (shared : SharedTransfers Thread) : Prop :=
  ∀ thread, shared.points thread = .idle

omit [DecidableEq Thread] in
/-- When all calls are over, both file systems are the same. -/
theorem Mirrors.state_eq {shared : SharedTransfers Thread}
    {object : AtomicObject Thread State Transfer ReadResult} (mirrors : Mirrors shared object)
    (atRest : shared.AtRest) : object.state = shared.fs := by
  have settles := mirrors.settles
  have unheld (entry : TfsLock × LockMode) (thread : Thread) :
      entry ∉ (shared.points thread).held := by
    rw [atRest thread]
    exact List.not_mem_nil
  have entries : object.state.openFileTable = shared.fs.openFileTable :=
    funext fun file => settles.entries file (unheld _)
  have inodes : object.state.inodeTable = shared.fs.inodeTable :=
    funext fun inode => settles.inodes inode (unheld _)
  have bytes : object.state.fsData = shared.fs.fsData := by
    funext address
    apply settles.bytes
    intro thread left
    rw [atRest thread] at left
    exact left
  have same {left right : State} (params : left.fsParams = right.fsParams)
      (inodes : left.inodeTable = right.inodeTable)
      (freeinodes : left.freeinodeTs = right.freeinodeTs)
      (size : left.dataBytes = right.dataBytes) (bytes : left.fsData = right.fsData)
      (blocks : left.freeBlocks = right.freeBlocks)
      (entries : left.openFileTable = right.openFileTable)
      (handles : left.freeOpenFileEntries = right.freeOpenFileEntries) : left = right := by
    cases left
    cases right
    rw [State.mk.injEq]
    exact ⟨params, inodes, freeinodes, size, bytes, blocks, entries, handles⟩
  exact same settles.fsParams inodes settles.freeinodeTs settles.dataBytes bytes
    settles.freeBlocks entries settles.freeOpenFileEntries

end TecnicoFS.FileSystem
