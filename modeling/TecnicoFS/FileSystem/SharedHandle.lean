/-
Several threads that write through one handle.

Their writes come one after another in the file, whole and without a gap, and those of each
thread in its own order; a write is cut only at the end of the block.
-/

import TecnicoFS.FileSystem.ConcurrentTransfers
import TecnicoFS.FileSystem.DataPath

set_option autoImplicit false

namespace TecnicoFS.FileSystem

/-! ### The abstract file -/

/-- Bytes are put behind those that have just been put. -/
theorem overwrite_overwrite (contents first second : List UInt8) {offset : Nat}
    (inside : offset ≤ contents.length) :
    overwrite (overwrite contents offset first) (offset + first.length) second =
      overwrite contents offset (first ++ second) := by
  have before : (contents.take offset ++ first).length = offset + first.length := by
    rw [List.length_append, List.length_take, Nat.min_eq_left inside]
  unfold overwrite
  rw [← before, List.take_left, List.drop_length_add_append, List.drop_drop, before,
    List.length_append, ← Nat.add_assoc, List.append_assoc (contents.take offset)]

/-- What a write through the handle has put into the file -/
def written (handle : Nat) (transfer : Transfer) (result : ReadResult) : List UInt8 :=
  match transfer with
  | .write fhandle (some data) _ =>
      if fhandle = (handle : Int) then data.take result.length.toNat else []
  | _ => []

/-- The write has put all of its bytes into the file, or found neither a block in it nor a free
one, or the block is full. -/
def Placed (blockSize handle start : Nat) (contents bytes : List UInt8) (transfer : Transfer)
    (result : ReadResult) : Prop :=
  ∀ data toWrite, transfer = .write handle (some data) toWrite →
    result.length = toWrite ∨ (result.length = -1 ∧ contents = []) ∨
      start + bytes.length = blockSize

/-- More bytes do not help a write that found the block full. -/
theorem Placed.more {blockSize handle start : Nat} {contents bytes more : List UInt8}
    {transfer : Transfer} {result : ReadResult}
    (placed : Placed blockSize handle start contents bytes transfer result)
    (inside : start + (bytes ++ more).length ≤ blockSize) :
    Placed blockSize handle start contents (bytes ++ more) transfer result := by
  intro data toWrite isWrite
  rcases placed data toWrite isWrite with whole | refused | full
  · exact Or.inl whole
  · exact Or.inr (Or.inl refused)
  · rw [List.length_append] at inside ⊢
    exact Or.inr (Or.inr (by omega))

/-- The bytes are in the file, from `start` on, and the only handle stands behind them. -/
structure WrittenThrough (blockSize handle inode start : Nat) (contents bytes : List UInt8)
    (model : Model Nat) : Prop where
  file : model.files inode = some (overwrite contents start bytes)
  stands : ∃ offset, model.handles handle = some (inode, offset) ∧
    min offset (overwrite contents start bytes).length = start + bytes.length
  alone : ∀ other offset, model.handles other = some (inode, offset) → other = handle
  inside : start + bytes.length ≤ blockSize

namespace WrittenThrough

variable {blockSize handle inode start : Nat} {contents bytes : List UInt8}
  {model model' : Model Nat}

/-- A step that leaves the file and its handle alone -/
theorem spared (through : WrittenThrough blockSize handle inode start contents bytes model)
    (file : model'.files inode = model.files inode)
    (own : model'.handles handle = model.handles handle)
    (others : ∀ other offset, model'.handles other = some (inode, offset) →
      ∃ offset', model.handles other = some (inode, offset')) :
    WrittenThrough blockSize handle inode start contents bytes model' where
  file := file.trans through.file
  stands := by
    rw [own]
    exact through.stands
  alone other offset holds := by
    obtain ⟨offset', before⟩ := others other offset holds
    exact through.alone other offset' before
  inside := through.inside

/-- The handle of another file is moved, and that file is changed or not. -/
theorem other_moved (through : WrittenThrough blockSize handle inode start contents bytes model)
    {moved id offset offset' : Nat} (opened : model.handles moved = some (id, offset))
    (different : moved ≠ handle)
    (files : ∀ other, other ≠ id → model'.files other = model.files other)
    (handles : model'.handles = Function.update model.handles moved (some (id, offset'))) :
    WrittenThrough blockSize handle inode start contents bytes model' := by
  have other : inode ≠ id := by
    intro same
    rw [← same] at opened
    exact different (through.alone moved offset opened)
  apply through.spared (files inode other)
  · rw [handles]
    exact Function.update_of_ne different.symm _ _
  · intro place position holds
    rw [handles] at holds
    by_cases same : place = moved
    · rw [same, Function.update_self, Option.some.injEq, Prod.mk.injEq] at holds
      exact (other holds.1.symm).elim
    · rw [Function.update_of_ne same] at holds
      exact ⟨position, holds⟩

/-- The own handle is moved behind the bytes that it has put into the file. -/
theorem own_moved (through : WrittenThrough blockSize handle inode start contents bytes model)
    (begins : start ≤ contents.length) {more : List UInt8}
    (inside : start + more.length ≤ blockSize)
    (file : model'.files inode = some (overwrite contents start more))
    (handles : model'.handles = Function.update model.handles handle
      (some (inode, start + more.length))) :
    WrittenThrough blockSize handle inode start contents more model' where
  file := file
  stands := by
    refine ⟨_, by rw [handles, Function.update_self], ?_⟩
    rw [overwrite_length _ _ _ begins]
    omega
  alone other offset holds := by
    by_contra different
    rw [handles, Function.update_of_ne different] at holds
    exact different (through.alone other offset holds)
  inside := inside

/-- A write through the handle goes behind the others, whole unless the block ends. -/
theorem writes (through : WrittenThrough blockSize handle inode start contents bytes model)
    (begins : start ≤ contents.length) {resources : Resources} {data : List UInt8} {toWrite : Nat}
    (covered : toWrite ≤ data.length) {result : CallResult}
    (step : model.Step resources blockSize (.tfsWrite handle (some data) toWrite) result model') :
    WrittenThrough blockSize handle inode start contents
        (bytes ++ data.take result.length.toNat) model' ∧
      (result.length = toWrite ∨ (result.length = -1 ∧ contents = []) ∨
        start + (bytes ++ data.take result.length.toNat).length = blockSize) := by
  obtain ⟨offset, opened, position⟩ := through.stands
  have size : (data.take toWrite).length = toWrite := by
    rw [List.length_take, Nat.min_eq_left covered]
  have inside := through.inside
  cases step with
  | writeInvalid _ invalid =>
      rcases invalid with impossible | closed
      · cases impossible
      · rw [closed handle rfl] at opened
        cases opened
  | writes opened' file wrote =>
      rw [opened, Option.some.injEq, Prod.mk.injEq] at opened'
      obtain ⟨sameInode, sameOffset⟩ := opened'
      subst sameInode
      subst sameOffset
      rw [through.file, Option.some.injEq] at file
      subst file
      cases wrote with
      | nothing none =>
          rw [position, size] at none
          rw [position]
          rw [Int.toNat_zero, List.take_zero, List.append_nil]
          refine ⟨through.own_moved begins inside through.file rfl, ?_⟩
          dsimp only
          omega
      | noBlock some empty full =>
          rw [position]
          have nothing : contents = [] := by
            have short := overwrite_length contents bytes start begins
            rw [empty, List.length_nil] at short
            exact List.eq_nil_of_length_eq_zero (by omega)
          change WrittenThrough _ _ _ _ _ (bytes ++ data.take 0) _ ∧ _
          rw [List.take_zero, List.append_nil]
          exact ⟨through.own_moved begins inside through.file rfl, Or.inr (Or.inl ⟨rfl, nothing⟩)⟩
      | @stored length cut some room =>
          rw [position, size] at cut
          rw [position]
          have taken : (data.take length).length = length := by
            rw [List.length_take]
            omega
          have piece : (data.take toWrite).take length = data.take length := by
            rw [List.take_take, Nat.min_eq_left (by omega)]
          rw [piece, overwrite_overwrite _ _ _ begins, Int.toNat_natCast]
          refine ⟨through.own_moved begins ?_ (Function.update_self _ _ _) ?_, ?_⟩
          · rw [List.length_append, taken]
            omega
          · rw [List.length_append, taken, ← Nat.add_assoc]
            rfl
          · rw [List.length_append, taken]
            dsimp only
            omega

/-- Any other transfer leaves the file and the handle alone. -/
theorem others (through : WrittenThrough blockSize handle inode start contents bytes model)
    {resources : Resources} {transfer : Transfer} {result : CallResult}
    (step : model.Step resources blockSize transfer.call result model')
    (elsewhere : ∀ buffered len, transfer ≠ .read handle buffered len)
    (unwritten : ∀ data toWrite, transfer ≠ .write handle (some data) toWrite) :
    WrittenThrough blockSize handle inode start contents bytes model' := by
  cases transfer with
  | write fhandle buffer toWrite =>
      cases step with
      | writeInvalid _ _ => exact through
      | @writes moved _ _ _ _ _ _ _ opened file wrote =>
          have different : moved ≠ handle := by
            intro same
            rw [same] at unwritten
            exact unwritten _ _ rfl
          cases wrote with
          | nothing _ => exact through.other_moved opened different (fun _ _ => rfl) rfl
          | noBlock _ _ _ => exact through.other_moved opened different (fun _ _ => rfl) rfl
          | stored _ _ _ =>
              exact through.other_moved opened different
                (fun _ apart => Function.update_of_ne apart _ _) rfl
  | read fhandle buffered len =>
      cases step with
      | readInvalid _ _ => exact through
      | reads opened file length =>
          refine through.other_moved opened ?_ (fun _ _ => rfl) rfl
          intro same
          rw [same] at elsewhere
          exact elsewhere _ _ rfl

/-- A transfer puts into the file what it wrote through the handle. -/
theorem step (through : WrittenThrough blockSize handle inode start contents bytes model)
    (begins : start ≤ contents.length) {resources : Resources} {transfer : Transfer}
    {result : CallResult} (admissible : transfer.call.Admissible blockSize)
    (step : model.Step resources blockSize transfer.call result model')
    (elsewhere : ∀ buffered len, transfer ≠ .read handle buffered len) :
    WrittenThrough blockSize handle inode start contents
        (bytes ++ written handle transfer result) model' ∧
      Placed blockSize handle start contents (bytes ++ written handle transfer result)
        transfer result := by
  by_cases isOwn : ∃ data toWrite, transfer = .write handle (some data) toWrite
  · obtain ⟨data, toWrite, isWrite⟩ := isOwn
    subst isWrite
    have own : written handle (.write handle (some data) toWrite) result =
        data.take result.length.toNat := if_pos rfl
    rw [own]
    obtain ⟨through', kept⟩ := through.writes begins admissible.1 step
    refine ⟨through', fun data' toWrite' isWrite => ?_⟩
    cases isWrite
    exact kept
  · have nothing : written handle transfer result = [] := by
      unfold written
      split
      case h_1 fhandle data toWrite =>
        apply if_neg
        intro same
        rw [same] at isOwn
        exact isOwn ⟨data, toWrite, rfl⟩
      case h_2 => rfl
    have unwritten (data : List UInt8) (toWrite : Nat) :
        transfer ≠ .write handle (some data) toWrite :=
      fun isWrite => isOwn ⟨data, toWrite, isWrite⟩
    rw [nothing, List.append_nil]
    exact ⟨through.others step elsewhere unwritten,
      fun data toWrite isWrite => (unwritten data toWrite isWrite).elim⟩

end WrittenThrough

/-! ### Runs -/

variable {Thread : Type} {start state state' : State} {model : Model Nat}
  {handle inode position : Nat} {contents : List UInt8}

/-- A transfer is one step of the abstract file system. -/
theorem Transfer.Serial.refines {transfer : Transfer} {result : ReadResult}
    (serial : transfer.Serial state result state') (represents : Represents state model)
    (inv : Invariant state none) :
    Invariant state' none ∧ state'.blockSize = state.blockSize ∧
      ∃ model', model.Step state.resources state.blockSize transfer.call result model' ∧
        Represents state' model' := by
  obtain ⟨admissible, returned⟩ := serial
  have effect := call_effect inv returned (by
    intro _ _ _ impossible
    cases transfer <;> cases impossible)
  refine ⟨effect.invariant inv, congrArg TfsParams.blockSize effect.fsParams, ?_⟩
  apply effect.refines represents inv
  cases transfer with
  | write fhandle buffer toWrite =>
      cases buffer with
      | none => trivial
      | some data => exact admissible.1
  | read fhandle buffered len => trivial

/-- What the writes through the handle have put into the file, one after another -/
def pieces (handle : Nat) (order : List (AtomicObject.Entry Thread Transfer ReadResult)) :
    List UInt8 :=
  order.flatMap (fun entry => written handle entry.call entry.result)

/-- Nothing has been put into the file yet. -/
theorem WrittenThrough.nothing {offset : Nat} (represents : Represents state model)
    (inv : Invariant state none) (opened : state.HoldsHandle handle inode offset)
    (file : state.HoldsFile inode contents)
    (alone : ∀ other offset', state.HoldsHandle other inode offset' → other = handle) :
    WrittenThrough state.blockSize handle inode (min offset contents.length) contents [] model := by
  have isFile := (represents.files inode contents).mpr file
  have same : overwrite contents (min offset contents.length) [] = contents := by
    unfold overwrite
    rw [List.append_nil, List.length_nil, Nat.add_zero, List.take_append_drop]
  constructor
  · rw [same]
    exact isFile
  · rw [same]
    exact ⟨offset, (represents.handles handle inode offset).mpr opened, rfl⟩
  · intro other offset' holds
    exact alone other offset' ((represents.handles other inode offset').mp holds)
  · have short := represents.files_le inv.inodes isFile
    rw [List.length_nil, Nat.add_zero]
    exact (Nat.min_le_right _ _).trans short

/-- The pieces of the run are in the file. -/
theorem serial_through {order : List (AtomicObject.Entry Thread Transfer ReadResult)}
    (serial : AtomicObject.Serial Transfer.Serial start order state)
    (inv : Invariant start none) (represents : Represents start model)
    (through : WrittenThrough start.blockSize handle inode position contents [] model)
    (begins : position ≤ contents.length)
    (elsewhere : ∀ entry ∈ order, ∀ buffered len, entry.call ≠ .read handle buffered len) :
    Invariant state none ∧ state.blockSize = start.blockSize ∧ ∃ model', Represents state model' ∧
      WrittenThrough start.blockSize handle inode position contents (pieces handle order) model' ∧
      ∀ entry ∈ order, Placed start.blockSize handle position contents (pieces handle order)
        entry.call entry.result := by
  induction serial with
  | start => exact ⟨inv, rfl, model, represents, through, fun _ impossible => by cases impossible⟩
  | @next order state state' entry _ ran inductionHypothesis =>
      obtain ⟨inv', blockSize, model', represents', through', kept⟩ := inductionHypothesis
        (fun other member => elsewhere other (List.mem_append_left _ member))
      obtain ⟨inv'', same, model'', step, represents''⟩ := ran.refines represents' inv'
      have admissible := ran.1
      have together : pieces handle (order ++ [entry]) =
          pieces handle order ++ written handle entry.call entry.result := by
        unfold pieces
        rw [List.flatMap_append, List.flatMap_singleton]
      rw [blockSize] at same step admissible
      obtain ⟨through'', placed⟩ := through'.step begins admissible step
        (elsewhere entry (List.mem_append_right _ (List.mem_singleton_self _)))
      rw [together]
      refine ⟨inv'', same, model'', represents'', through'', ?_⟩
      intro other member
      rcases List.mem_append.mp member with earlier | isLast
      · exact (kept other earlier).more through''.inside
      · rw [List.mem_singleton.mp isLast]
        exact placed

/-- Writes of several threads through one handle are neither lost nor torn: while nothing else
is done to their file and no call reads through the handle, the file holds at rest the pieces of
the writes one after another from the offset on, those of each thread in its own order, and each
write returned as many bytes as it was asked for, unless there was no block or the block is
full. -/
theorem handle_writes_kept [DecidableEq Thread] {params : TfsParams}
    {shared : SharedTransfers Thread} {offset : Nat} (fits : params.Fits)
    (reached : Reachable params (AdmissibleIn params) start)
    (reachable : (transferSystem Thread start).Reachable shared) (atRest : shared.AtRest)
    (opened : start.HoldsHandle handle inode offset) (file : start.HoldsFile inode contents)
    (alone : ∀ other offset', start.HoldsHandle other inode offset' → other = handle)
    (elsewhere : ∀ thread buffered len, .calls thread (.read handle buffered len) ∉ shared.events) :
    ∃ order : List (AtomicObject.Entry Thread Transfer ReadResult),
      (∀ thread,
        AtomicObject.called thread shared.events = AtomicObject.callsOf thread order ∧
        AtomicObject.returned thread shared.events = AtomicObject.resultsOf thread order) ∧
      shared.fs.HoldsFile inode
        (overwrite contents (min offset contents.length) (pieces handle order)) ∧
      ∀ entry ∈ order, Placed params.blockSize handle (min offset contents.length) contents
        (pieces handle order) entry.call entry.result := by
  obtain ⟨inv, same⟩ := reached.invariant
  obtain ⟨model, represents, _⟩ := reached.represents
  obtain ⟨object, atomic, _, mirrors⟩ := exists_mirrors fits reached reachable
  obtain ⟨order, serial, threads⟩ := AtomicObject.exists_order atomic
  have blockSize : start.blockSize = params.blockSize := congrArg TfsParams.blockSize same
  have ended (thread : Thread) :
      AtomicObject.called thread shared.events = AtomicObject.callsOf thread order ∧
        AtomicObject.returned thread shared.events = AtomicObject.resultsOf thread order := by
    obtain ⟨calls, results⟩ := threads thread
    have outside := mirrors.correct thread
    rw [atRest thread] at outside
    rw [outside, mirrors.events] at calls results
    exact ⟨calls.trans (List.append_nil _), (results.trans (List.append_nil _)).symm⟩
  have notRead : ∀ entry ∈ order, ∀ buffered len, entry.call ≠ .read handle buffered len := by
    intro entry member buffered len isRead
    have made := AtomicObject.mem_callsOf member
    rw [← (ended entry.thread).1, isRead] at made
    exact elsewhere _ _ _ (AtomicObject.mem_called.mp made)
  obtain ⟨_, _, model', represents', through', placed⟩ :=
    serial_through serial inv represents (.nothing represents inv opened file alone)
      (Nat.min_le_right _ _) notRead
  rw [mirrors.state_eq atRest] at represents'
  rw [blockSize] at placed
  exact ⟨order, ended, (represents'.files inode _).mp through'.file, placed⟩

/-! ### Computed runs -/

/-- What a thread does next -/
inductive TransferTurn where
  | calls (transfer : Transfer)
  | goes

instance (blockSize : Nat) (transfer : Transfer) :
    Decidable (transfer.call.Admissible blockSize) :=
  match transfer with
  | .write _ none _ => isTrue trivial
  | .write _ (some data) toWrite =>
      inferInstanceAs (Decidable (toWrite ≤ data.length ∧ toWrite + blockSize < 2 ^ 64))
  | .read _ _ _ => isTrue trivial

instance (table : LockTable Bool TfsLock) (lock : TfsLock) (mode : LockMode) :
    Decidable (table.Available lock mode) :=
  decidable_of_iff
    (∀ thread, (table thread lock).all (fun held => held = .shared ∧ mode = .shared) = true) (by
      simp [LockTable.Available, Option.all_eq_true])

def takeTransferTurn (thread : Bool) (turn : TransferTurn) (shared : SharedTransfers Bool) :
    Option (SharedTransfers Bool) :=
  match turn with
  | .calls transfer =>
      if shared.points thread = .idle ∧ transfer.call.Admissible shared.fs.blockSize then
        some { shared with
          points := Function.update shared.points thread (.enter transfer)
          events := shared.events ++ [.calls thread transfer] }
      else
        none
  | .goes =>
      match (shared.points thread).code with
      | some action =>
          match action shared.fs with
          | .ok (next, fs) => some { shared with
              fs := fs
              points := Function.update shared.points thread next }
          | .error _ => none
      | none =>
          match (shared.points thread).lock? shared.fs with
          | some (lock, mode, next) =>
              if shared.locks.Available lock mode then
                some { shared with
                  locks := shared.locks.acquire thread lock mode
                  points := Function.update shared.points thread next }
              else
                none
          | none =>
              match (shared.points thread).unlock? with
              | some (lock, next) => some { shared with
                  locks := shared.locks.release thread lock
                  points := Function.update shared.points thread next }
              | none =>
                  match shared.points thread with
                  | .returned result => some { shared with
                      points := Function.update shared.points thread .idle
                      events := shared.events ++ [.returns thread result] }
                  | _ => none

theorem transferSystem_of_takeTransferTurn {thread : Bool} {turn : TransferTurn}
    {before after : SharedTransfers Bool}
    (taken : takeTransferTurn thread turn before = some after) :
    (transferSystem Bool start).step thread before after := by
  unfold takeTransferTurn at taken
  cases turn with
  | calls transfer =>
      dsimp only at taken
      split at taken
      case isTrue able =>
        cases taken
        exact .calls transfer able.1 able.2
      case isFalse => cases taken
  | goes =>
      dsimp only at taken
      split at taken
      case h_1 action code =>
        split at taken
        case h_1 next fs ran =>
          cases taken
          exact .runs code ran
        case h_2 => cases taken
      case h_2 =>
        split at taken
        case h_1 lock mode next takes =>
          split at taken
          case isTrue available =>
            cases taken
            exact .locks takes available
          case isFalse => cases taken
        case h_2 =>
          split at taken
          case h_1 lock next gives =>
            cases taken
            exact .unlocks gives
          case h_2 =>
            split at taken
            case h_1 result atEnd =>
              cases taken
              exact .returns atEnd
            case h_2 => cases taken

/-- Both threads get to the lock of the entry, then the first one takes it. -/
def bothWrite : List (Bool × TransferTurn) :=
  [(true, .calls (.write 0 (some [1, 2, 3]) 3)), (false, .calls (.write 0 (some [4, 5, 6]) 3)),
    (true, .goes), (false, .goes)] ++
    List.replicate 21 (true, .goes) ++ List.replicate 15 (false, .goes)

/-- Two threads write three bytes each. -/
theorem handle_writes_kept_both : ∃ shared : SharedTransfers Bool,
    ∃ order : List (AtomicObject.Entry Bool Transfer ReadResult),
      AtomicObject.callsOf true order = [.write 0 (some [1, 2, 3]) 3] ∧
      AtomicObject.callsOf false order = [.write 0 (some [4, 5, 6]) 3] ∧
      shared.fs.HoldsFile 1 (overwrite [] 0 (pieces 0 order)) := by
  obtain ⟨start, returned, computed⟩ := afterCalls_any smallParams
    [.tfsOpen (some pathA) ⟨true, false, false⟩]
    (fun state => decide (state.HandleTaken 0 ∧ state.openFileTable 0 = ⟨1, 0⟩ ∧
      state.maxOpenFiles = 2 ∧ state.freeOpenFileEntries 1 = .free ∧ state.InodeTaken 1 ∧
      (state.inodeTable 1).iNodeType = .tFile ∧ (state.inodeTable 1).iSize = 0) &&
      (ThreadSystem.run takeTransferTurn bothWrite
        ⟨state, LockTable.empty, fun _ => .idle, []⟩).any (fun shared : SharedTransfers Bool =>
          decide (shared.points true = .idle ∧ shared.points false = .idle ∧
            AtomicObject.called true shared.events = [.write 0 (some [1, 2, 3]) 3] ∧
            AtomicObject.called false shared.events = [.write 0 (some [4, 5, 6]) 3])))
    (by decide +kernel)
  obtain ⟨isStart, computed⟩ := Bool.and_eq_true_iff.mp computed
  obtain ⟨taken, entry, size, free, inode, isFile, empty⟩ := of_decide_eq_true isStart
  obtain ⟨shared, ran, computed⟩ := (Option.any_eq_true _ _).mp computed
  obtain ⟨idle, idle', calls, calls'⟩ := of_decide_eq_true computed
  obtain ⟨_, returned', fits, reached, _⟩ := exists_opened
  cases returned.symm.trans returned'
  have reachable : (transferSystem Bool start).Reachable shared :=
    ThreadSystem.Reachable.run (fun _ _ _ _ => transferSystem_of_takeTransferTurn)
      (.initial rfl) ran
  have atRest : shared.AtRest := by
    intro thread
    cases thread
    · exact idle'
    · exact idle
  have nothing : start.contents 1 = [] := by
    unfold State.contents
    rw [empty, ByteMemory.readBytes_zero]
  have alone (other offset' : Nat) (holds : start.HoldsHandle other 1 offset') : other = 0 := by
    obtain ⟨⟨inside, isTaken⟩, _⟩ := holds
    rw [size] at inside
    by_contra nonzero
    have one : other = 1 := by omega
    rw [one, free] at isTaken
    cases isTaken
  have elsewhere (thread : Bool) (buffered : Bool) (len : Nat) :
      .calls thread (.read (0 : Nat) buffered len) ∉ shared.events := by
    intro member
    have made := AtomicObject.mem_called.mpr member
    cases thread
    · rw [calls'] at made
      cases List.mem_singleton.mp made
    · rw [calls] at made
      cases List.mem_singleton.mp made
  obtain ⟨order, threads, holds, _⟩ := handle_writes_kept fits reached reachable atRest
    ⟨taken, entry⟩ ⟨inode, isFile, nothing⟩ alone elsewhere
  exact ⟨shared, order, (threads true).1.symm.trans calls,
    (threads false).1.symm.trans calls', holds⟩

end TecnicoFS.FileSystem
