/-
Concurrent calls of `tfs_write` and `tfs_read` come to an end.

Every statement lowers what its thread has left to do in its call, and threads that wait for
locks never wait for each other.  So when no more calls are made, all of them return, whatever
the order of the steps.
-/

import TecnicoFS.FileSystem.ConcurrentTransfers
import TecnicoFS.Library.Completion
import TecnicoFS.Library.LockOrder

set_option autoImplicit false

namespace TecnicoFS.FileSystem

open FaultAction

/-! ### What is left of a call -/

/-- The most steps that a writer takes before its call is over -/
def WritePoint.left (dataBlocks toWrite : Nat) : WritePoint → Nat
  | .cut => 14 + toWrite + dataBlocks
  | .testSize => 13 + toWrite + dataBlocks
  | .lockBlocks => 12 + toWrite + dataBlocks
  | .scanBlocks slot => 11 + toWrite + (dataBlocks - slot)
  | .markBlock _ => 10 + toWrite
  | .unlockBlocks _ => 9 + toWrite
  | .storeBlock _ => 8 + toWrite
  | .findBytes => 7 + toWrite
  | .copyBytes _ copied => 6 + (toWrite - copied)
  | .advance => 5
  | .grow => 4
  | .unlockInode _ => 3

/-- The most steps that a reader takes before its call is over -/
def ReadPoint.left (len : Nat) : ReadPoint → Nat
  | .measure => 7 + len
  | .findBytes toRead => 6 + toRead
  | .copyBytes toRead _ copied => 5 + (toRead - copied.length)
  | .advance _ _ => 4
  | .unlockInode _ => 3

/-- The most steps of a call once it has both locks -/
def OpenTransfer.left (dataBlocks : Nat) : OpenTransfer → Nat
  | .write _ toWrite => 14 + toWrite + dataBlocks
  | .read len => 7 + len

/-- The most steps of a call -/
def Transfer.left (dataBlocks : Nat) : Transfer → Nat
  | .write _ _ toWrite => 18 + toWrite + dataBlocks
  | .read _ _ len => 11 + len

/-- The most steps that the thread takes before its call is over -/
def TransferPoint.left (dataBlocks : Nat) : TransferPoint → Nat
  | .idle => 0
  | .enter transfer => transfer.left dataBlocks
  | .lockEntry transfer _ => 3 + transfer.left dataBlocks
  | .lockInode transfer _ => 2 + transfer.left dataBlocks
  | .clamp transfer _ _ => 1 + transfer.left dataBlocks
  | .write frame point => point.left dataBlocks frame.toWrite
  | .read frame point => point.left frame.len
  | .unlockEntry _ _ => 2
  | .returned _ => 1

/-! ### Statements -/

variable {serial fs fs' : State} {status : CallStatus Transfer ReadResult}
  {point next : TransferPoint} {action : TfsAction TransferPoint}

/-- Whatever the first part does -/
theorem outcome_rest {α β : Type} {first : TfsAction α} {rest : α → TfsAction β} {state : State}
    {post : β → State → Prop}
    (holds : ∀ value state', Outcome (fun _ => True) (rest value state') post) :
    Outcome (fun _ => True) ((first >>= rest) state) post := by
  rw [bind_apply]
  cases first state with
  | ok pair => exact holds pair.1 pair.2
  | error fault => trivial

/-- The statement leaves its thread less to do. -/
def Lowers (point : TransferPoint) (fs : State) (action : TfsAction TransferPoint) : Prop :=
  Outcome (fun _ => True) (action fs)
    (fun next _ => next.left fs.dataBlocks < point.left fs.dataBlocks)

theorem Lowers.returned (lowers : Lowers point fs action) (ran : action fs = .ok (next, fs')) :
    next.left fs.dataBlocks < point.left fs.dataBlocks := by
  unfold Lowers at lowers
  rw [ran] at lowers
  exact lowers

theorem Transfer.enter_lowers (transfer : Transfer) (fs : State) :
    Lowers (.enter transfer) fs transfer.enter := by
  have refused (fs' : State) : Outcome (fun _ => True)
      ((pure (.returned ⟨-1, []⟩) : TfsAction TransferPoint) fs')
      (fun next _ => next.left fs.dataBlocks < transfer.left fs.dataBlocks) := by
    apply outcome_pure
    cases transfer <;> simp only [TransferPoint.left, Transfer.left] <;> omega
  cases transfer with
  | write fhandle buffer toWrite =>
      cases buffer with
      | none => exact refused fs
      | some data =>
          apply outcome_rest
          intro file fs'
          cases file with
          | none => exact refused fs'
          | some file =>
              apply outcome_pure
              simp only [TransferPoint.left, Transfer.left, OpenTransfer.left]
              omega
  | read fhandle buffered len =>
      cases buffered with
      | false => exact refused fs
      | true =>
          apply outcome_rest
          intro file fs'
          cases file with
          | none => exact refused fs'
          | some file =>
              apply outcome_pure
              simp only [TransferPoint.left, Transfer.left, OpenTransfer.left]
              omega

theorem WritePoint.code_lowers {frame : WriteFrame} {point : WritePoint}
    (cut : point = .cut →
      writeLength fs.blockSize (fs.openFileTable frame.file).ofOffset frame.toWrite ≤ frame.toWrite)
    (code : point.code frame = some action) : Lowers (.write frame point) fs action := by
  unfold Lowers
  cases point with
  | cut =>
      have shorter := cut rfl
      cases code
      apply outcome_get_bind
      refine outcome_ite (fun _ => outcome_pure ?_) (fun _ => outcome_pure ?_) <;>
        simp only [TransferPoint.left, left] <;> omega
  | testSize =>
      cases code
      apply outcome_get_bind
      refine outcome_ite (fun _ => outcome_pure ?_) (fun _ => outcome_pure ?_) <;>
        simp only [TransferPoint.left, left] <;> omega
  | lockBlocks => cases code
  | scanBlocks slot =>
      cases code
      apply outcome_get_bind
      apply outcome_ite
      · intro inside
        apply outcome_require_bind _ (fun _ => trivial)
        intro _
        refine outcome_ite (fun _ => outcome_pure ?_) (fun _ => outcome_pure ?_) <;>
          simp only [TransferPoint.left, left] <;> omega
      · intro _
        apply outcome_pure
        simp only [TransferPoint.left, left]
        omega
  | markBlock slot =>
      cases code
      refine outcome_rest (fun _ _ => outcome_rest (fun _ _ => outcome_pure ?_))
      simp only [TransferPoint.left, left]
      omega
  | unlockBlocks bnum => cases code
  | storeBlock bnum =>
      cases code
      refine outcome_ite (fun _ => outcome_pure ?_)
        (fun _ => outcome_rest (fun _ _ => outcome_pure ?_)) <;>
        simp only [TransferPoint.left, left] <;> omega
  | findBytes =>
      cases code
      refine outcome_get_bind (outcome_rest (fun _ _ => outcome_pure ?_))
      simp only [TransferPoint.left, left]
      omega
  | copyBytes address copied =>
      cases code
      apply outcome_ite
      · intro inside
        cases frame.data[copied]? with
        | none => trivial
        | some byte =>
            refine outcome_rest (fun _ _ => outcome_pure ?_)
            simp only [TransferPoint.left, left]
            omega
      · intro _
        apply outcome_pure
        simp only [TransferPoint.left, left]
        omega
  | advance =>
      cases code
      refine outcome_rest (fun _ _ => outcome_pure ?_)
      simp only [TransferPoint.left, left]
      omega
  | grow =>
      cases code
      apply outcome_get_bind
      refine outcome_ite (fun _ => outcome_rest (fun _ _ => outcome_pure ?_))
        (fun _ => outcome_pure ?_) <;>
        simp only [TransferPoint.left, left] <;> omega
  | unlockInode result => cases code

theorem ReadPoint.code_lowers {frame : ReadFrame} {point : ReadPoint}
    (code : point.code frame = some action) : Lowers (.read frame point) fs action := by
  unfold Lowers
  cases point with
  | measure =>
      have shorter : readLength (fs.inodeTable frame.inode).iSize
          (fs.openFileTable frame.file).ofOffset frame.len ≤ frame.len := by
        unfold readLength
        split <;> omega
      cases code
      apply outcome_get_bind
      refine outcome_ite (fun _ => outcome_pure ?_) (fun _ => outcome_pure ?_) <;>
        simp only [TransferPoint.left, left] <;> omega
  | findBytes toRead =>
      cases code
      refine outcome_get_bind (outcome_rest (fun _ _ => outcome_pure ?_))
      simp only [TransferPoint.left, left, List.length_nil]
      omega
  | copyBytes toRead address copied =>
      cases code
      apply outcome_ite
      · intro inside
        apply outcome_get_bind
        apply outcome_require_bind _ (fun _ => trivial)
        intro _
        apply outcome_pure
        simp only [TransferPoint.left, left, List.length_append, List.length_singleton]
        omega
      · intro _
        apply outcome_pure
        simp only [TransferPoint.left, left]
        omega
  | advance toRead copied =>
      cases code
      refine outcome_rest (fun _ _ => outcome_pure ?_)
      simp only [TransferPoint.left, left]
      omega
  | unlockInode result => cases code

/-- Every statement of a correct thread leaves it less to do. -/
theorem TransferPoint.code_lowers (ground : Ground point.held serial fs)
    (correct : point.Correct serial fs status) (code : point.code = some action) :
    Lowers point fs action := by
  cases point with
  | enter transfer =>
      cases code
      exact transfer.enter_lowers fs
  | clamp transfer file inumber =>
      cases code
      refine outcome_rest (fun inode _ => outcome_rest (fun _ _ => outcome_pure ?_))
      cases transfer <;>
        simp only [OpenTransfer.begin, left, OpenTransfer.left, WritePoint.left,
          ReadPoint.left] <;> omega
  | write frame point =>
      apply WritePoint.code_lowers _ code
      intro isCut
      subst isCut
      obtain ⟨taken, _, _, _, short, clamped, _⟩ := correct
      rw [← ground.blockSize, clamped.offset,
        writeLength_eq_min (ground.inv.clamped_le taken) short]
      exact Nat.min_le_left _ _
  | read frame point => exact ReadPoint.code_lowers code
  | _ => cases code

/-! ### Locks -/

/-- A thread inside a call runs a statement, locks, unlocks or returns. -/
theorem TransferPoint.next_cases (fs : State) (inside : point ≠ .idle) :
    (∃ action, point.code = some action) ∨
      (∃ lock mode next, point.lock? fs = some (lock, mode, next)) ∨
      (∃ lock next, point.unlock? = some (lock, next)) ∨ ∃ result, point = .returned result := by
  cases point with
  | idle => exact (inside rfl).elim
  | enter _ | clamp _ _ _ => exact Or.inl ⟨_, rfl⟩
  | lockEntry _ _ | lockInode _ _ => exact Or.inr (Or.inl ⟨_, _, _, rfl⟩)
  | write frame point =>
      cases point with
      | lockBlocks => exact Or.inr (Or.inl ⟨_, _, _, rfl⟩)
      | unlockBlocks _ | unlockInode _ => exact Or.inr (Or.inr (Or.inl ⟨_, _, rfl⟩))
      | _ => exact Or.inl ⟨_, rfl⟩
  | read frame point =>
      cases point with
      | unlockInode _ => exact Or.inr (Or.inr (Or.inl ⟨_, _, rfl⟩))
      | _ => exact Or.inl ⟨_, rfl⟩
  | unlockEntry _ _ => exact Or.inr (Or.inr (Or.inl ⟨_, _, rfl⟩))
  | returned result => exact Or.inr (Or.inr (Or.inr ⟨result, rfl⟩))

/-- A thread waits only for a lock above those it holds. -/
theorem TransferPoint.lock?_above {lock : TfsLock} {mode : LockMode}
    (waits : point.lock? fs = some (lock, mode, next)) {entry : TfsLock × LockMode}
    (holds : entry ∈ point.held) : entry.1.rank < lock.rank := by
  cases point with
  | lockEntry _ _ => cases holds
  | lockInode _ _ =>
      cases waits
      rw [List.mem_singleton.mp holds]
      change 3 < 5
      decide
  | write frame point =>
      cases point with
      | lockBlocks =>
          cases waits
          rcases List.mem_cons.mp holds with same | other
          · rw [same]
            change 5 < 6
            decide
          · rw [List.mem_singleton.mp other]
            change 3 < 6
            decide
      | _ => cases waits
  | _ => cases waits

/-- A lock is given back, and its thread has less left to do. -/
theorem TransferPoint.unlock?_lowers {lock : TfsLock} (dataBlocks : Nat)
    (gives : point.unlock? = some (lock, next)) : next.left dataBlocks < point.left dataBlocks := by
  cases point with
  | write frame point =>
      cases point with
      | unlockBlocks _ | unlockInode _ =>
          cases gives
          simp [left, WritePoint.left]
      | _ => cases gives
  | read frame point =>
      cases point with
      | unlockInode _ =>
          cases gives
          simp [left, ReadPoint.left]
      | _ => cases gives
  | unlockEntry _ _ =>
      cases gives
      simp [left]
  | _ => cases gives

/-- A lock is taken, and its thread has less left to do. -/
theorem TransferPoint.lock?_lowers {lock : TfsLock} {mode : LockMode} (dataBlocks : Nat)
    (takes : point.lock? fs = some (lock, mode, next)) :
    next.left dataBlocks < point.left dataBlocks := by
  cases point with
  | lockEntry _ _ | lockInode _ _ =>
      cases takes
      simp [left]
  | write frame point =>
      cases point with
      | lockBlocks =>
          cases takes
          simp [left, WritePoint.left]
      | _ => cases takes
  | _ => cases takes

/-! ### Steps -/

variable {Thread : Type} [DecidableEq Thread] {shared shared' : SharedTransfers Thread}
  {object : AtomicObject Thread State Transfer ReadResult} {thread : Thread}

/-- A step inside a call leaves its thread less to do. -/
theorem Mirrors.step_lowers (mirrors : Mirrors shared object)
    (inside : shared.points thread ≠ .idle) (step : TransferStep thread shared shared') :
    (shared'.points thread).left shared.fs.dataBlocks <
        (shared.points thread).left shared.fs.dataBlocks ∧
      ∀ other, other ≠ thread → shared'.points other = shared.points other := by
  have goes {next : TransferPoint} (lower : next.left shared.fs.dataBlocks <
      (shared.points thread).left shared.fs.dataBlocks) :
      (Function.update shared.points thread next thread).left shared.fs.dataBlocks <
          (shared.points thread).left shared.fs.dataBlocks ∧
        ∀ other, other ≠ thread →
          Function.update shared.points thread next other = shared.points other := by
    constructor
    · rw [Function.update_self]
      exact lower
    · intro other different
      exact Function.update_of_ne different _ _
  cases step with
  | calls _ idle _ => exact (inside idle).elim
  | locks takes _ => exact goes (TransferPoint.lock?_lowers _ takes)
  | unlocks gives => exact goes (TransferPoint.unlock?_lowers _ gives)
  | runs code ran =>
      have lowers := TransferPoint.code_lowers (mirrors.ground thread) (mirrors.correct thread) code
      exact goes (lowers.returned ran)
  | returns atEnd =>
      apply goes
      rw [atEnd]
      exact Nat.one_pos

/-- A thread inside a call goes on, or waits for a lock that a thread inside a call holds. -/
theorem Mirrors.goes_or_waits (mirrors : Mirrors shared object)
    (inside : shared.points thread ≠ .idle) :
    (∃ shared', TransferStep thread shared shared') ∨
      ∃ lock mode next, (shared.points thread).lock? shared.fs = some (lock, mode, next) ∧
        ∃ holder held, (lock, held) ∈ (shared.points holder).held := by
  rcases TransferPoint.next_cases shared.fs inside with
    ⟨action, code⟩ | ⟨lock, mode, next, waits⟩ | ⟨lock, next, gives⟩ | ⟨result, atEnd⟩
  · obtain ⟨next, fs', _, _, ran, _⟩ := mirrors.runs code
    exact Or.inl ⟨_, .runs code ran⟩
  · by_cases available : shared.locks.Available lock mode
    · exact Or.inl ⟨_, .locks waits available⟩
    · obtain ⟨holder, held, holds⟩ := LockTable.exists_holder available
      exact Or.inr ⟨lock, mode, next, waits, holder, held,
        (mirrors.holds holder lock held).mp holds⟩
  · exact Or.inl ⟨_, .unlocks gives⟩
  · exact Or.inl ⟨_, .returns atEnd⟩

/-- While a thread is inside a call, some thread inside a call can go on. -/
theorem Mirrors.some_goes (mirrors : Mirrors shared object) (busy : ¬ shared.AtRest) :
    ∃ thread shared', shared.points thread ≠ .idle ∧ TransferStep thread shared shared' := by
  by_contra stuck
  have deadlocked : LockOrder.Deadlocked
      (fun thread lock => ∃ mode, (lock, mode) ∈ (shared.points thread).held)
      (fun thread lock => ∃ mode next,
        (shared.points thread).lock? shared.fs = some (lock, mode, next))
      {thread | shared.points thread ≠ .idle} := by
    intro thread inside
    rcases mirrors.goes_or_waits inside with
      ⟨shared', step⟩ | ⟨lock, mode, next, waits, holder, held, holds⟩
    · exact (stuck ⟨thread, shared', inside, step⟩).elim
    · refine ⟨lock, ⟨mode, next, waits⟩, holder, ?_, held, holds⟩
      intro idle
      rw [idle] at holds
      cases holds
  have ordered : LockOrder.Climbs TfsLock.rank
      (fun thread lock => ∃ mode, (lock, mode) ∈ (shared.points thread).held)
      (fun thread lock => ∃ mode next,
        (shared.points thread).lock? shared.fs = some (lock, mode, next)) := by
    intro thread held lock holds waits
    obtain ⟨_, holds⟩ := holds
    obtain ⟨_, _, waits⟩ := waits
    exact TransferPoint.lock?_above waits holds
  have nobody := deadlocked.empty ordered TfsLock.rank_le
  apply busy
  intro thread
  by_contra inside
  have member : thread ∈ {thread | shared.points thread ≠ .idle} := inside
  rw [nobody] at member
  exact member

/-! ### Completion -/

/-- The step of a thread that makes no new call -/
def InCall (thread : Thread) (before _ : SharedTransfers Thread) : Prop :=
  before.points thread ≠ .idle

variable {params : TfsParams} {start : State}

/-- Concurrent calls of `tfs_write` and `tfs_read` come to an end: from every reachable state,
while no new calls are made, no more steps are taken than the calls have left, and as long as a
thread is inside a call some thread inside a call can go on. -/
theorem transfers_finish [Fintype Thread] (fits : params.Fits)
    (reached : Reachable params (AdmissibleIn params) start)
    (reachable : (transferSystem Thread start).Reachable shared) {count : Nat}
    (takes : ((transferSystem Thread start).restrict InCall).Takes shared count shared') :
    count ≤ ∑ thread, (shared.points thread).left params.maxBlockCount ∧
      (shared'.AtRest ∨ ∃ thread shared'',
        ((transferSystem Thread start).restrict InCall).step thread shared' shared'') := by
  have stays (thread : Thread) (before after : SharedTransfers Thread)
      (known : (transferSystem Thread start).Reachable before)
      (step : ((transferSystem Thread start).restrict InCall).step thread before after) :
      (transferSystem Thread start).Reachable after := known.step step.1
  have lowers (thread : Thread) (before after : SharedTransfers Thread)
      (known : (transferSystem Thread start).Reachable before)
      (step : ((transferSystem Thread start).restrict InCall).step thread before after) :
      ∑ other, (after.points other).left params.maxBlockCount <
        ∑ other, (before.points other).left params.maxBlockCount := by
    obtain ⟨object, _, serial, mirrors⟩ := exists_mirrors fits reached known
    have dataBlocks : before.fs.dataBlocks = params.maxBlockCount :=
      congrArg TfsParams.maxBlockCount (mirrors.settles.fsParams.symm.trans serial.invariant.2)
    obtain ⟨lower, others⟩ := mirrors.step_lowers step.2 step.1
    rw [dataBlocks] at lower
    apply ThreadSystem.sum_lowered lower
    intro other different
    rw [others other different]
  have bounded := takes.bounded reachable stays lowers
  refine ⟨by omega, ?_⟩
  by_cases atRest : shared'.AtRest
  · exact Or.inl atRest
  · obtain ⟨object, _, _, mirrors⟩ :=
      exists_mirrors fits reached (takes.preserves reachable stays)
    obtain ⟨thread, shared'', inside, step⟩ := mirrors.some_goes atRest
    exact Or.inr ⟨thread, shared'', step, inside⟩

/-- A write without a buffer returns while another one waits for its first lock. -/
theorem transfers_finish_refused : ∃ start, afterCalls smallParams
    [.tfsOpen (some pathA) ⟨true, false, false⟩] = some start ∧
    ∃ shared shared' : SharedTransfers Bool,
      shared.points true = .enter (.write 0 (some [1, 2, 3]) 3) ∧
      shared.points false = .enter (.write 0 none 3) ∧ shared'.points false = .idle ∧
      2 ≤ ∑ thread, (shared.points thread).left smallParams.maxBlockCount ∧
      (shared'.AtRest ∨ ∃ thread shared'',
        ((transferSystem Bool start).restrict InCall).step thread shared' shared'') := by
  obtain ⟨start, returned, fits, reached, blockSize⟩ := exists_opened
  have quiet : (transferSystem Bool start).Reachable
      ⟨start, LockTable.empty, fun _ => .idle, []⟩ := .initial rfl
  have writes := quiet.step (@TransferStep.calls _ _ true _ (.write 0 (some [1, 2, 3]) 3) rfl
    ⟨by decide, by rw [blockSize]; decide⟩)
  obtain ⟨shared, both, waiting, entered⟩ : ∃ shared, (transferSystem Bool start).Reachable shared ∧
      shared.points true = .enter (.write 0 (some [1, 2, 3]) 3) ∧
      shared.points false = .enter (.write 0 none 3) :=
    ⟨_, writes.step (@TransferStep.calls _ _ false _ (.write 0 none 3) rfl trivial), rfl, rfl⟩
  have code : (shared.points false).code = some (Transfer.enter (.write 0 none 3)) := by
    rw [entered]
    rfl
  have inside : shared.points false ≠ .idle := by
    rw [entered]
    exact TransferPoint.noConfusion
  have refused : ((transferSystem Bool start).restrict InCall).Takes shared 1 _ :=
    .step .start ⟨.runs code rfl, inside⟩
  have ended := refused.step ⟨.returns (Function.update_self _ _ _), TransferPoint.noConfusion⟩
  refine ⟨start, returned, shared, _, waiting, entered, ?_,
    transfers_finish fits reached both ended⟩
  dsimp only
  rw [Function.update_self]

end TecnicoFS.FileSystem
