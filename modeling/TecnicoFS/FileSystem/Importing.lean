/-
Importing a file of the host.

`tfs_copy_from_external_fs` empties the destination, writes chunk after chunk through a new
handle and stops at the first write that comes back short.  That is the write that passes
the end of the block, or the first one where no block is free.
-/

import TecnicoFS.FileSystem.Rebinding
import TecnicoFS.FileSystem.SymLinkFrame

set_option autoImplicit false

namespace TecnicoFS.FileSystem

open FaultAction

variable {params : TfsParams} {state middle state' opened : State} {handle inode : Nat}

namespace State

def BlockFree (state : State) : Prop :=
  ∃ block, block < state.dataBlocks ∧ state.freeBlocks block = .free

/-- Following symbolic links from the path leads to a name of the inode. -/
def LeadsTo (state : State) (path : CString) (inode : Nat) : Prop :=
  ∃ final, state.Resolves path final ∧ ValidPathname final ∧ state.Binds final.tail inode

/-- Whoever opens the path reads these bytes. -/
def ReadsAs (state : State) (path : CString) (contents : List UInt8) : Prop :=
  ∀ fhandle opened, tfsOpen (some path) ⟨false, false, false⟩ state = .ok (fhandle, opened) →
    fhandle ≠ -1 → ∀ len result after, tfsRead fhandle true len opened = .ok (result, after) →
      result = ⟨(min len contents.length : Nat), contents.take len⟩

end State

/-- The destination leads to a file with the contents, and nothing else changed: `opened` is
the state in which `tfs_open` left the file system. -/
structure Imported (state opened after : State) (dest : CString) (inode : Nat)
    (contents : List UInt8) : Prop where
  leads : after.LeadsTo dest inode
  holds : after.HoldsFile inode contents
  reads : ∀ path, after.LeadsTo path inode → after.ReadsAs path contents
  paths : ∀ path, after.LeadsTo path inode ↔ opened.LeadsTo path inode
  kept : ∀ path, state.LeadsTo path inode → after.LeadsTo path inode
  files : ∀ other bytes, other ≠ inode →
    (after.HoldsFile other bytes ↔ state.HoldsFile other bytes)
  links : ∀ other target, after.HoldsLink other target ↔ state.HoldsLink other target
  names : ∀ name other, other ≠ inode → (after.Binds name other ↔ state.Binds name other)
  handles : state.SameHandles after
  taken : ∀ handle, after.HandleTaken handle ↔ state.HandleTaken handle

/-- What the import of the bytes returns and leaves -/
structure ImportedExactly (state opened after : State) (dest : CString) (bytes : List UInt8)
    (result : Int) (inode : Nat) (contents : List UInt8) : Prop
    extends Imported state opened after dest inode contents where
  status : result = 0 ∨ result = -1
  success : result = 0 ↔ bytes.length ≤ opened.blockSize ∧ (bytes = [] ∨ opened.BlockFree)
  whole : result = 0 → contents = bytes
  front : contents <+: bytes
  bounded : contents.length ≤ opened.blockSize

/-! ### What stays the same -/

theorem State.SameInode.trans (first : state.SameInode middle inode)
    (second : middle.SameInode state' inode) (area : state.SameArea middle) :
    state.SameInode state' inode where
  taken := second.taken.trans first.taken
  kind taken := (second.kind (first.taken.mpr taken)).trans (first.kind taken)
  size taken := (second.size (first.taken.mpr taken)).trans (first.size taken)
  block taken := (second.block (first.taken.mpr taken)).trans (first.block taken)
  bytes notDirectory owns offset inside := by
    have taken := owns.1
    have kind := first.kind taken
    have owns' : middle.OwnsBlock inode (middle.inodeTable inode).iDataBlock := by
      refine ⟨first.taken.mpr taken, rfl, ?_⟩
      rw [kind, first.size taken]
      exact owns.2.2
    have kept := second.bytes (by rw [kind]; exact notDirectory) owns' offset
      (by rw [State.blockSize, area.1]; exact inside)
    rw [first.blockAddress area taken] at kept
    exact kept.trans (first.bytes notDirectory owns offset inside)

theorem State.SameArea.trans (first : state.SameArea middle) (second : middle.SameArea state') :
    state.SameArea state' :=
  ⟨second.1.trans first.1, second.2.trans first.2⟩

/-- A bound path fits a block. -/
theorem State.Binds.fits {path : CString} (bound : state.Binds path.tail inode) :
    path.strlen < state.blockSize := by
  obtain ⟨short, slot, live, _⟩ := bound
  have room := State.slot_inside live.1
  have length : path.tail.strlen = path.strlen - 1 := List.length_tail
  unfold validSubName maxFileName at short
  unfold dirEntrySize at room
  omega

/-- A path that led to the final one still does, where its names and links stayed. -/
theorem State.Resolves.leadsTo (inv : Invariant state none) (geometry : GeometryOk state')
    (area : state.SameArea state')
    (binds : ∀ name held, state.Binds name held → state'.Binds name held)
    (links : ∀ held target, state.HoldsLink held target → state'.HoldsLink held target)
    {path final : CString} (resolves : state.Resolves path final) (valid : ValidPathname final)
    (bound : state'.Binds final.tail inode) : state'.LeadsTo path inode := by
  have sizes : state'.blockSize = state.blockSize := congrArg TfsParams.blockSize area.1
  have ends := bound.fits
  rw [sizes] at ends
  suffices follows : state'.Resolves path final ∧ path.strlen < state.blockSize from
    ⟨final, follows.1, valid, bound⟩
  refine Relation.ReflTransGen.head_induction_on resolves ⟨.refl, ends⟩ ?_
  rintro path next ⟨pathValid, link, linkBound, isSymLink, stored⟩ _ ⟨follows, short⟩
  have holds := inv.holdsLink (inv.binds_taken linkBound).2 isSymLink stored short
  have kept := links link next holds
  exact ⟨.head ⟨pathValid, link, binds _ _ linkBound, kept.2.1, kept.targetOf geometry⟩ follows,
    linkBound.fits⟩

theorem State.LeadsTo.mono (inv : Invariant state none) (geometry : GeometryOk state')
    (area : state.SameArea state')
    (binds : ∀ name held, state.Binds name held → state'.Binds name held)
    (links : ∀ held target, state.HoldsLink held target → state'.HoldsLink held target)
    {path : CString} (leads : state.LeadsTo path inode) : state'.LeadsTo path inode := by
  obtain ⟨final, resolves, valid, bound⟩ := leads
  exact State.Resolves.leadsTo inv geometry area binds links resolves valid (binds _ _ bound)

/-! ### Opening the destination -/

/-- The file is empty and its handle is new. -/
structure OpenedEmpty (state opened : State) (final : CString) (handle inode : Nat) : Prop where
  area : state.SameArea opened
  others : ∀ other, other ≠ inode → state.SameInode opened other
  names : ∀ name other, other ≠ inode → (opened.Binds name other ↔ state.Binds name other)
  kept : ∀ name, state.Binds name inode → opened.Binds name inode
  binds : opened.Binds final.tail inode
  fresh : ¬ state.HandleTaken handle
  marks : ∀ other, opened.HandleTaken other ↔ other = handle ∨ state.HandleTaken other
  entry : opened.openFileTable handle = { ofInumber := inode, ofOffset := 0 }
  entries : ∀ other, other ≠ handle → opened.openFileTable other = state.openFileTable other
  empty : opened.HoldsFile inode []
  notLink : ∀ target, ¬ state.HoldsLink inode target

/-- Entering the emptied file into the open file table -/
theorem OpenedEmpty.of_handle {final : CString} {fhandle : Int}
    (effect : HandleEffect middle inode 0 fhandle opened) (isOpen : fhandle ≠ -1)
    (area : state.SameArea middle) (others : ∀ other, other ≠ inode → state.SameInode middle other)
    (names : ∀ name other, other ≠ inode → (middle.Binds name other ↔ state.Binds name other))
    (kept : ∀ name, state.Binds name inode → middle.Binds name inode)
    (binds : middle.Binds final.tail inode)
    (handles : middle.freeOpenFileEntries = state.freeOpenFileEntries ∧
      middle.openFileTable = state.openFileTable)
    (empty : middle.HoldsFile inode []) (notLink : ∀ target, ¬ state.HoldsLink inode target) :
    ∃ handle : Nat, fhandle = handle ∧ OpenedEmpty state opened final handle inode := by
  have sameTaken (other : Nat) : middle.HandleTaken other ↔ state.HandleTaken other := by
    unfold State.HandleTaken State.maxOpenFiles
    rw [handles.1, area.1]
  cases effect with
  | full _ => exact (isOpen rfl).elim
  | @opened handle first =>
      refine ⟨handle, rfl, area, ?_, names, kept, binds, ?_, ?_, ?_, ?_, empty, notLink⟩
      · intro other different
        have same := others other different
        exact ⟨same.taken, same.kind, same.size, same.block, same.bytes⟩
      · rw [← sameTaken]
        rintro ⟨_, taken⟩
        rw [first.2.2.1] at taken
        cases taken
      · intro other
        rw [State.openHandle_taken first.2.1, sameTaken]
      · rw [State.openHandle_apply, if_pos rfl]
      · intro other different
        rw [State.openHandle_apply, if_neg different, handles.2]

theorem State.truncated_openFiles {mode : TfsFileMode} :
    (state.truncated inode mode).freeOpenFileEntries = state.freeOpenFileEntries ∧
      (state.truncated inode mode).openFileTable = state.openFileTable := by
  unfold State.truncated State.releaseBlock
  split
  · split <;> exact ⟨rfl, rfl⟩
  · exact ⟨rfl, rfl⟩

theorem State.truncated_area {mode : TfsFileMode} :
    state.SameArea (state.truncated inode mode) := by
  unfold State.truncated State.releaseBlock
  split
  · split <;> exact ⟨rfl, rfl⟩
  · exact ⟨rfl, rfl⟩

theorem State.truncated_sameInode {mode : TfsFileMode} {other : Nat} (different : other ≠ inode) :
    state.SameInode (state.truncated inode mode) other := by
  unfold State.truncated
  split
  · have released : (state.releaseBlock inode).inodeTable = state.inodeTable ∧
        (state.releaseBlock inode).freeinodeTs = state.freeinodeTs ∧
        (state.releaseBlock inode).fsData = state.fsData ∧
        (state.releaseBlock inode).fsParams = state.fsParams := by
      unfold State.releaseBlock
      split <;> exact ⟨rfl, rfl, rfl, rfl⟩
    have unchanged : ((state.releaseBlock inode).resizeFile inode 0
        (state.inodeTable inode).iDataBlock).inodeTable other = state.inodeTable other := by
      rw [State.resizeFile, State.setInode_apply_of_ne _ different, released.1]
    refine ⟨?_, ?_, ?_, ?_, ?_⟩
    · unfold State.InodeTaken State.inodeTableSize
      change other < (state.releaseBlock inode).fsParams.maxInodeCount ∧
        (state.releaseBlock inode).freeinodeTs other = .taken ↔ _
      rw [released.2.1, released.2.2.2]
    · intro _
      rw [unchanged]
    · intro _
      rw [unchanged]
    · intro _
      rw [unchanged]
    · intro _ _ offset _
      exact congrFun released.2.2.1 _
  · exact .refl other

/-- `tfs_open(dest_path, TFS_O_CREAT | TFS_O_TRUNC)` that returned a handle -/
theorem OpenEffect.openedEmpty {final : CString} {fhandle : Int}
    (effect : OpenEffect state final ⟨true, true, false⟩ fhandle opened)
    (isOpen : fhandle ≠ -1) (inv : Invariant state none) :
    ValidPathname final ∧ ∃ handle inode : Nat, fhandle = handle ∧
      OpenedEmpty state opened final handle inode := by
  cases effect with
  | invalid _ => exact (isOpen rfl).elim
  | missing _ _ notCreat => cases notCreat
  | noInode _ _ _ _ => exact (isOpen rfl).elim
  | refused _ _ _ _ _ => exact (isOpen rfl).elim
  | @existing inode _ _ valid binds isFile effect =>
      obtain ⟨_, taken⟩ := inv.binds_taken binds
      have names : state.SameNames (state.truncated inode ⟨true, true, false⟩) :=
        State.sameNames_of_memory State.truncated_fsData State.truncated_fsParams
      have empty : (state.truncated inode ⟨true, true, false⟩).HoldsFile inode [] := by
        refine ⟨State.truncated_taken.mpr taken, State.truncated_type.trans isFile, ?_⟩
        apply List.eq_nil_of_length_eq_zero
        rw [State.contents_length]
        unfold State.truncated
        by_cases empty : (state.inodeTable inode).iSize = 0
        · rw [if_neg (fun truncates => truncates.2.ne' empty)]
          exact empty
        · rw [if_pos ⟨rfl, Nat.pos_of_ne_zero empty⟩, State.resizeFile, State.setInode_apply_self]
      have notLink (target : CString) : ¬ state.HoldsLink inode target := by
        rintro ⟨_, isSymLink, _⟩
        rw [isFile] at isSymLink
        cases isSymLink
      obtain ⟨handle, same, opens⟩ := OpenedEmpty.of_handle effect isOpen State.truncated_area
        (fun _ different => State.truncated_sameInode different)
        (fun name other _ => names name other) (fun name bound => (names name inode).mpr bound)
        ((names _ _).mpr binds) State.truncated_openFiles empty notLink
      exact ⟨valid, handle, inode, same, opens⟩
  | @created inode slot _ _ valid unbound _ first short dead effect =>
      have atSlot : (state.takeInode inode (newInode .tFile)).inodeTable inode = newInode .tFile :=
        State.setInode_apply_self _ _
      have takenInv := @Invariant.takeInode _ _ (newInode .tFile) inv first.2.1 first.unused first.1
        (by decide) rfl rfl (fun impossible => by cases impossible)
      have names := @State.bindEntry_binds (state.takeInode inode (newInode .tFile)) slot inode
        final.tail short first.1 dead unbound
      have unheld (name : CString) : ¬ state.Binds name inode :=
        fun bound => first.unused (inv.binds_taken bound).2
      have others (other : Nat) (different : other ≠ inode) :
          state.SameInode (state.created inode slot final.tail) other :=
        (State.sameInode_takeInode _ first.2.1 different).trans
          (takenInv.sameInode_root (fun _ past => State.bindEntry_past short dead.1 past) other)
          ⟨rfl, rfl⟩
      have otherNames (name : CString) (other : Nat) (different : other ≠ inode) :
          (state.created inode slot final.tail).Binds name other ↔ state.Binds name other := by
        refine (names name other).trans ?_
        by_cases atFinal : name = final.tail
        · subst name
          rw [if_pos rfl]
          constructor
          · intro same
            exact (different same).elim
          · rintro ⟨_, place, live, named, _⟩
            exact (unbound place live named).elim
        · rw [if_neg atFinal]
          exact Iff.rfl
      have empty : (state.created inode slot final.tail).HoldsFile inode [] := by
        refine ⟨State.created_taken first.2.1, congrArg Inode.iNodeType atSlot, ?_⟩
        apply List.eq_nil_of_length_eq_zero
        rw [State.contents_length]
        exact congrArg Inode.iSize atSlot
      obtain ⟨handle, same, opens⟩ := @OpenedEmpty.of_handle state
        (state.created inode slot final.tail) _ _ _ _ effect isOpen ⟨rfl, rfl⟩ others otherNames
        (fun name bound => (unheld name bound).elim)
        ((names final.tail inode).mpr (by rw [if_pos rfl])) ⟨rfl, rfl⟩ empty
        (fun target holds => first.unused holds.1)
      exact ⟨valid, handle, inode, same, opens⟩

/-! ### The copy loop -/

/-- The loop so far: the file holds what was copied, and nothing else changed. -/
structure Copying (opened state : State) (handle inode : Nat) (copied : List UInt8) : Prop where
  inv : Invariant state none
  area : opened.SameArea state
  others : ∀ other, other ≠ inode → opened.SameInode state other
  names : opened.SameNames state
  marks : state.freeOpenFileEntries = opened.freeOpenFileEntries
  taken : state.HandleTaken handle
  entry : state.openFileTable handle = { ofInumber := inode, ofOffset := copied.length }
  entries : ∀ other, other ≠ handle → state.openFileTable other = opened.openFileTable other
  holds : state.HoldsFile inode copied
  untouched : copied = [] → state.freeBlocks = opened.freeBlocks
  room : copied ≠ [] → opened.BlockFree

variable {copied : List UInt8}

theorem Copying.size (copying : Copying opened state handle inode copied) :
    (state.inodeTable inode).iSize = copied.length := by
  rw [← state.contents_length, copying.holds.2.2]

theorem Copying.length_le (copying : Copying opened state handle inode copied) :
    copied.length ≤ opened.blockSize := by
  have bounded := copying.inv.inodes.fileSize inode copying.holds.1 copying.holds.2.1
  rw [copying.size, State.blockSize, copying.area.1] at bounded
  exact bounded

theorem overwrite_end (contents bytes : List UInt8) :
    overwrite contents contents.length bytes = contents ++ bytes := by
  unfold overwrite
  rw [List.take_length, List.drop_eq_nil_of_le (Nat.le_add_right _ _), List.append_nil]

/-- Bytes behind the end of the file, in the block it has or gets -/
theorem Copying.written (copying : Copying opened state handle inode copied) {block : Nat}
    {marks : Nat → AllocationState} {bytes : List UInt8}
    (own : (state.inodeTable inode).iSize = 0 ∨
      (state.inodeTable inode).iDataBlock = (block : Int))
    (only : ∀ owner, state.OwnsBlock owner (block : Int) → owner = inode) (nonzero : block ≠ 0)
    (fits : copied.length + bytes.length ≤ state.blockSize) (nonempty : bytes ≠ [])
    (room : opened.BlockFree)
    (inv : Invariant (({ state with freeBlocks := marks } : State).written handle inode block
      copied.length bytes) none) :
    Copying opened (({ state with freeBlocks := marks } : State).written handle inode block
      copied.length bytes) handle inode (copied ++ bytes) where
  inv := inv
  area := copying.area
  others other different := by
    have kept := @State.sameInode_setInode state _ _ { state.inodeTable inode with
      iSize := max (state.inodeTable inode).iSize (copied.length + bytes.length)
      iDataBlock := block } different
    have stored := @Invariant.sameInode_store _ _ copying.inv block copied.length bytes other
      (fun owns => different (only other owns)) fits
    have same : state.SameInode (({ state with freeBlocks := marks } : State).written handle inode
        block copied.length bytes) other :=
      ⟨kept.taken, kept.kind, kept.size, kept.block, stored.bytes⟩
    exact (copying.others other different).trans same copying.area
  names := copying.names.trans (@State.sameEntries_store state _ bytes
    (Nat.le_trans (state.dirEnd_le_blockAddress nonzero)
      (Nat.le_add_right _ copied.length))).sameNames
  marks := copying.marks
  taken := copying.taken
  entry := by
    refine (State.setOffset_apply handle (copied.length + bytes.length) handle).trans ?_
    rw [if_pos rfl, List.length_append]
    exact congrArg (fun entry : OpenFileEntry =>
      { entry with ofOffset := copied.length + bytes.length }) copying.entry
  entries other different := by
    refine (State.setOffset_apply handle (copied.length + bytes.length) other).trans ?_
    rw [if_neg different]
    exact copying.entries other different
  holds := by
    refine ⟨copying.holds.1, ?_, ?_⟩
    · exact (congrArg Inode.iNodeType (State.setInode_apply_self _ _)).trans copying.holds.2.1
    · rw [@State.contents_written { state with freeBlocks := marks } _ _ _ _ _
        (Nat.le_of_eq copying.size.symm) own, show ({ state with freeBlocks := marks } :
          State).contents inode = copied from copying.holds.2.2, overwrite_end]
  untouched none := (nonempty (List.append_eq_nil_iff.mp none).2).elim
  room _ := room

/-- One write of the loop -/
theorem Copying.write (copying : Copying opened state handle inode copied) {chunk : List UInt8}
    (nonempty : chunk ≠ []) {result : Int}
    (effect : CallEffect state (.tfsWrite handle (some chunk) chunk.length) ⟨result, []⟩ state') :
    ∃ count, Copying opened state' handle inode (copied ++ chunk.take count) ∧
      (result = (chunk.length : Int) → count = chunk.length) ∧
      (result ≠ (chunk.length : Int) → opened.blockSize < copied.length + chunk.length ∨
        copied = [] ∧ ¬ opened.BlockFree) := by
  generalize same : (handle : Int) = fhandle at effect
  cases effect with
  | writeRefused _ refused =>
      rcases refused with noBuffer | refused
      · cases noBuffer
      · exact (refused handle same.symm copying.taken).elim
  | @writes written held _ _ _ _ taken refers effect =>
      have sameHandle : written = handle := Int.ofNat_inj.mp same.symm
      subst written
      have sameInode : held = inode := by
        rw [copying.entry] at refers
        exact (Int.ofNat_inj.mp refers).symm
      subst held
      have positive := List.length_pos_of_ne_nil nonempty
      have sizes : state.blockSize = opened.blockSize := congrArg TfsParams.blockSize copying.area.1
      have clamped : state.clampedOffset handle inode = copied.length := by
        unfold State.clampedOffset
        rw [copying.size, copying.entry, Nat.min_self]
      have unmoved : state.setOffset handle (state.clampedOffset handle inode) = state := by
        have offset : (state.openFileTable handle).ofOffset = copied.length := by
          rw [copying.entry]
        rw [clamped, ← offset, State.setOffset_same]
      have stays : Copying opened state handle inode (copied ++ chunk.take 0) := by
        rw [List.take_zero, List.append_nil]
        exact copying
      have inv' := (CallEffect.writes taken refers effect).invariant copying.inv
      cases effect with
      | nothing none =>
          rw [unmoved]
          refine ⟨0, stays, fun complete => by omega, fun _ => Or.inl ?_⟩
          rw [clamped] at none
          omega
      | noBlock _ empty full =>
          rw [unmoved]
          have nothing : copied = [] := List.eq_nil_of_length_eq_zero (copying.size.symm.trans empty)
          refine ⟨0, stays, fun complete => by omega, fun _ => Or.inr ⟨nothing, ?_⟩⟩
          rintro ⟨block, inside, isFree⟩
          rw [← copying.untouched nothing] at isFree
          rw [full block (by rw [State.dataBlocks, copying.area.1]; exact inside)] at isFree
          cases isFree
      | @grown block length something cut covered empty first inside =>
          rw [clamped] at cut inv' ⊢
          have taking : (chunk.take length).length = length := by
            rw [List.length_take, Nat.min_eq_left covered]
          have nothing : copied = [] := List.eq_nil_of_length_eq_zero (copying.size.symm.trans empty)
          have blockNonzero := (copying.inv.freeBlock_address first).1
          refine ⟨length, copying.written (Or.inl empty) ?_ blockNonzero ?_ ?_ ?_ inv', ?_, ?_⟩
          · intro owner owns
            exact (copying.inv.free_unowned first.2.2.1 blockNonzero owner owns).elim
          · rw [taking]
            omega
          · exact List.ne_nil_of_length_pos (by rw [taking]; omega)
          · refine ⟨block, ?_, ?_⟩
            · rw [State.dataBlocks, ← copying.area.1]
              exact first.2.1
            · rw [← copying.untouched nothing]
              exact first.2.2.1
          · intro complete
            omega
          · intro short
            left
            omega
      | @overwritten block length something cut covered filled blockEq =>
          rw [clamped] at cut inv' ⊢
          have taking : (chunk.take length).length = length := by
            rw [List.length_take, Nat.min_eq_left covered]
          have some : copied ≠ [] := by
            rintro rfl
            rw [copying.size] at filled
            exact Nat.lt_irrefl 0 filled
          have nonzero : inode ≠ 0 := by
            rintro rfl
            have isFile := copying.holds.2.1
            rw [copying.inv.root.isDirectory] at isFile
            cases isFile
          obtain ⟨own, ownEq, ownNonzero, _, owns⟩ :=
            copying.inv.backed copying.holds.1 nonzero filled
          have sameBlock : own = block := Int.ofNat_inj.mp (ownEq.symm.trans blockEq)
          subst own
          refine ⟨length, copying.written (Or.inr blockEq) ?_ ownNonzero ?_ ?_ (copying.room some)
            inv', ?_, ?_⟩
          · intro owner ownerOwns
            exact copying.inv.blocks.exclusive owner inode block ownerOwns owns
          · rw [taking]
            omega
          · exact List.ne_nil_of_length_pos (by rw [taking]; omega)
          · intro complete
            omega
          · intro short
            left
            omega

/-- The writes of the loop, seen from their start -/
theorem Copying.run {chunks : List (List UInt8)} {trace : List (Call × CallResult)}
    {complete : Bool} (shape : CopyWrites (handle : Int) chunks trace complete)
    (effects : TraceEffect state trace state')
    (copying : Copying opened state handle inode copied)
    (nonempty : ∀ chunk, chunk ∈ chunks → chunk ≠ []) :
    ∃ stored, Copying opened state' handle inode stored ∧
      stored <+: copied ++ chunks.flatten ∧
      (complete = true → stored = copied ++ chunks.flatten) ∧
      (complete = false → opened.blockSize < (copied ++ chunks.flatten).length ∨
        copied ++ chunks.flatten ≠ [] ∧ ¬ opened.BlockFree) := by
  induction shape generalizing state copied with
  | done =>
      cases effects
      rw [List.flatten_nil, List.append_nil]
      exact ⟨copied, copying, List.prefix_rfl, fun _ => rfl, fun impossible => by cases impossible⟩
  | ended rest => exact (nonempty [] List.mem_cons_self rfl).elim
  | @short chunk rest result filled incomplete =>
      cases effects with
      | cons effect effects =>
          cases effects
          obtain ⟨count, copying, _, failed⟩ := copying.write filled effect
          refine ⟨_, copying, ?_, (fun impossible => by cases impossible), ?_⟩
          · rw [List.flatten_cons, ← List.append_assoc]
            exact ((List.prefix_append_right_inj copied).mpr (List.take_prefix count chunk)).trans
              (List.prefix_append _ _)
          · intro _
            rw [List.flatten_cons]
            rcases failed incomplete with long | ⟨rfl, full⟩
            · left
              rw [List.length_append, List.length_append]
              omega
            · right
              refine ⟨?_, full⟩
              intro nothing
              exact filled (List.append_eq_nil_iff.mp (List.append_eq_nil_iff.mp nothing).2).1
  | @complete chunk rest trace complete filled _ ih =>
      cases effects with
      | cons effect effects =>
          obtain ⟨count, copying, whole, _⟩ := copying.write filled effect
          rw [whole rfl, List.take_length] at copying
          rw [List.flatten_cons, ← List.append_assoc]
          exact ih effects copying
            (fun other member => nonempty other (List.mem_cons_of_mem chunk member))

/-- A file with a name keeps its inode when a handle is closed. -/
theorem Copying.close (copying : Copying opened state handle inode copied) {name : CString}
    (binds : state.Binds name inode) {result : Int}
    (effect : CloseEffect state (handle : Int) result state') :
    result = 0 ∧ state' = state.closeHandle handle := by
  have refersTo {other held : Nat} (same : (handle : Int) = (other : Int))
      (refers : (state.openFileTable other).ofInumber = (held : Int)) :
      other = handle ∧ held = inode := by
    have sameHandle : handle = other := Int.ofNat_inj.mp same
    subst sameHandle
    rw [copying.entry] at refers
    exact ⟨rfl, (Int.ofNat_inj.mp refers).symm⟩
  cases effect with
  | invalid invalid => exact (invalid handle rfl copying.taken).elim
  | deleted same _ refers unlinked _ =>
      obtain ⟨rfl, rfl⟩ := refersTo same refers
      obtain ⟨nonzero, taken⟩ := copying.inv.binds_taken binds
      obtain ⟨_, slot, live, _, holds⟩ := binds
      have counted := copying.inv.counts.linkCount _ taken nonzero
      rw [unlinked] at counted
      exact ((state.entryCount_ne_zero_iff _).mpr ⟨slot, live.1, holds⟩ (by omega)).elim
  | kept same _ refers _ =>
      obtain ⟨rfl, rfl⟩ := refersTo same refers
      exact ⟨rfl, rfl⟩

/-! ### Reading the file back -/

theorem CallEffect.opensFile {path : CString} {fhandle : Int} {contents : List UInt8}
    (effect : CallEffect state (.tfsOpen (some path) ⟨false, false, false⟩) ⟨fhandle, []⟩ opened)
    (isOpen : fhandle ≠ -1) (inv : Invariant state none) (leads : state.LeadsTo path inode)
    (holds : state.HoldsFile inode contents) :
    ∃ handle : Nat, fhandle = handle ∧ state.FirstFreeHandle handle ∧
      opened = state.openHandle handle { ofInumber := inode, ofOffset := 0 } := by
  obtain ⟨final, resolves, valid, binds⟩ := leads
  cases effect with
  | @opens _ reached _ _ _ reaches effect =>
      have notLink (target : CString) : ¬ state.LinksTo final target := by
        rintro ⟨_, other, bound, isSymLink, _⟩
        rw [inv.binds_unique bound binds, holds.2.1] at isSymLink
        cases isSymLink
      have same := inv.final_unique reaches resolves (effect.final inv) notLink
      subst same
      cases effect with
      | invalid _ => exact (isOpen rfl).elim
      | missing _ _ _ => exact (isOpen rfl).elim
      | noInode _ _ _ _ => exact (isOpen rfl).elim
      | refused _ _ _ _ _ => exact (isOpen rfl).elim
      | created _ _ creates _ _ _ _ => cases creates
      | existing _ bound _ effect =>
          have same := inv.binds_unique bound binds
          subst same
          cases effect with
          | full _ => exact (isOpen rfl).elim
          | @opened handle first => exact ⟨handle, rfl, first, rfl⟩

/-- A handle at the start of a file reads its first bytes. -/
theorem ReadEffect.first {contents : List UInt8} {len : Nat} {result : ReadResult}
    (effect : ReadEffect state handle inode len result state')
    (start : (state.openFileTable handle).ofOffset = 0) (holds : state.HoldsFile inode contents) :
    result = ⟨(min len contents.length : Nat), contents.take len⟩ := by
  have clamped : state.clampedOffset handle inode = 0 := by
    rw [State.clampedOffset, start, Nat.zero_min]
  have size : (state.inodeTable inode).iSize = contents.length := by
    rw [← state.contents_length, holds.2.2]
  cases effect with
  | nothing none =>
      rw [clamped, size, Nat.sub_zero] at none
      have nothing : contents.take len = [] :=
        List.eq_nil_of_length_eq_zero ((List.length_take).trans none)
      rw [none, nothing]
      rfl
  | @bytes block length _ cut blockEq =>
      rw [clamped, size, Nat.sub_zero] at cut
      have address : state.blockAddress inode = block * state.blockSize := by
        rw [State.blockAddress, blockEq, Int.toNat_natCast]
      rw [clamped, cut, ← holds.2.2, State.contents, ByteMemory.readBytes_take,
        ByteMemory.readBytes_length, address, Nat.add_zero]

theorem State.HoldsFile.readsAs {path : CString} {contents : List UInt8}
    (holds : state.HoldsFile inode contents) (inv : Invariant state none)
    (leads : state.LeadsTo path inode) : state.ReadsAs path contents := by
  intro fhandle opened opens isOpen len result after read
  have effect := @call_effect _ _ (.tfsOpen (some path) ⟨false, false, false⟩) _ inv
    (bind_of_ok opens) (fun _ _ _ impossible => by cases impossible)
  have openedInv := effect.invariant inv
  obtain ⟨handle, rfl, first, rfl⟩ := effect.opensFile isOpen inv leads holds
  have taken := (@State.openHandle_taken state handle handle
    { ofInumber := inode, ofOffset := 0 } first.2.1).mpr (Or.inl rfl)
  have entry := @State.openHandle_apply state handle handle { ofInumber := inode, ofOffset := 0 }
  rw [if_pos rfl] at entry
  have effect := @call_effect _ _ (.tfsRead handle true len) _ openedInv read
    (fun _ _ _ impossible => by cases impossible)
  generalize same : (handle : Int) = fhandle at effect
  cases effect with
  | readRefused _ refused =>
      rcases refused with unbuffered | refused
      · cases unbuffered
      · exact (refused handle same.symm taken).elim
  | @reads other held _ _ _ _ refers effect =>
      have sameHandle : other = handle := Int.ofNat_inj.mp same.symm
      subst other
      rw [entry] at refers
      have sameInode : held = inode := (Int.ofNat_inj.mp refers).symm
      subst held
      exact effect.first (by rw [entry]) ⟨holds.1, holds.2.1, holds.2.2⟩

/-! ### The whole import -/

theorem OpenedEmpty.copying {final : CString} (opens : OpenedEmpty state opened final handle inode)
    (inv : Invariant opened none) : Copying opened opened handle inode [] where
  inv := inv
  area := ⟨rfl, rfl⟩
  others other _ := .refl other
  names _ _ := Iff.rfl
  marks := rfl
  taken := (opens.marks handle).mpr (Or.inl rfl)
  entry := opens.entry
  entries _ _ := rfl
  holds := opens.empty
  untouched _ := rfl
  room some := (some rfl).elim

/-- Everything but the file is as it was before the destination was opened. -/
theorem Copying.imported {dest final : CString} {contents : List UInt8}
    (copying : Copying opened state' handle inode contents)
    (opens : OpenedEmpty state opened final handle inode) (inv : Invariant state none)
    (openedInv : Invariant opened none) (afterInv : Invariant (state'.closeHandle handle) none)
    (valid : ValidPathname final) (resolves : state.Resolves dest final) :
    Imported state opened (state'.closeHandle handle) dest inode contents := by
  have area : state.SameArea (state'.closeHandle handle) := opens.area.trans copying.area
  have openedOthers (other : Nat) (different : other ≠ inode) :
      opened.SameInode (state'.closeHandle handle) other := by
    have same := copying.others other different
    exact ⟨same.taken, same.kind, same.size, same.block, same.bytes⟩
  have others (other : Nat) (different : other ≠ inode) :
      state.SameInode (state'.closeHandle handle) other :=
    (opens.others other different).trans (openedOthers other different) opens.area
  have holds : (state'.closeHandle handle).HoldsFile inode contents := copying.holds
  have notLink (target : CString) : ¬ (state'.closeHandle handle).HoldsLink inode target := by
    rintro ⟨_, isSymLink, _⟩
    rw [holds.2.1] at isSymLink
    cases isSymLink
  have links (other : Nat) (target : CString) :
      (state'.closeHandle handle).HoldsLink other target ↔ state.HoldsLink other target := by
    by_cases same : other = inode
    · subst other
      exact ⟨fun impossible => (notLink target impossible).elim,
        fun impossible => (opens.notLink target impossible).elim⟩
    · exact (others other same).holdsLink area target
  have openedLinks (other : Nat) (target : CString) :
      (state'.closeHandle handle).HoldsLink other target ↔ opened.HoldsLink other target := by
    by_cases same : other = inode
    · subst other
      constructor
      · intro impossible
        exact (notLink target impossible).elim
      · rintro ⟨_, isSymLink, _⟩
        rw [opens.empty.2.1] at isSymLink
        cases isSymLink
    · exact (openedOthers other same).holdsLink copying.area target
  have openedNames : opened.SameNames (state'.closeHandle handle) := copying.names
  have names (name : CString) (other : Nat) (different : other ≠ inode) :
      (state'.closeHandle handle).Binds name other ↔ state.Binds name other :=
    (openedNames name other).trans (opens.names name other different)
  have keptNames (name : CString) (other : Nat) (bound : state.Binds name other) :
      (state'.closeHandle handle).Binds name other := by
    by_cases same : other = inode
    · subst other
      exact (openedNames name _).mpr (opens.kept name bound)
    · exact (names name other same).mpr bound
  have resolved : (state'.closeHandle handle).LeadsTo dest inode :=
    State.Resolves.leadsTo inv afterInv.geometry area keptNames
      (fun other target => (links other target).mpr) resolves valid
      ((openedNames _ _).mpr opens.binds)
  have paths (path : CString) :
      (state'.closeHandle handle).LeadsTo path inode ↔ opened.LeadsTo path inode := by
    constructor
    · exact State.LeadsTo.mono afterInv openedInv.geometry
        ⟨copying.area.1.symm, copying.area.2.symm⟩ (fun name held => (openedNames name held).mp)
        (fun other target => (openedLinks other target).mp)
    · exact State.LeadsTo.mono openedInv afterInv.geometry copying.area
        (fun name held => (openedNames name held).mpr)
        (fun other target => (openedLinks other target).mpr)
  have marks (other : Nat) :
      (state'.closeHandle handle).HandleTaken other ↔ state.HandleTaken other := by
    have sameMarks : state'.HandleTaken other ↔ opened.HandleTaken other := by
      unfold State.HandleTaken State.maxOpenFiles
      rw [copying.marks, copying.area.1]
    rw [State.closeHandle_taken, sameMarks, opens.marks]
    constructor
    · rintro ⟨different, same | taken⟩
      · exact (different same).elim
      · exact taken
    · intro taken
      refine ⟨?_, Or.inr taken⟩
      rintro rfl
      exact opens.fresh taken
  refine ⟨resolved, holds, fun path leads => holds.readsAs afterInv leads, paths, ?_, ?_, links,
    names, ?_, marks⟩
  · intro path leads
    exact leads.mono inv afterInv.geometry area keptNames (fun other target => (links other target).mpr)
  · intro other bytes different
    exact (others other different).holdsFile area inv.inodes bytes
  · intro other held offset
    unfold State.HoldsHandle
    rw [marks]
    refine and_congr_right (fun taken => ?_)
    have different : other ≠ handle := by
      rintro rfl
      exact opens.fresh taken
    rw [show (state'.closeHandle handle).openFileTable other = state.openFileTable other from
      (copying.entries other different).trans (opens.entries other different)]

theorem CallEffect.openedEmpty {dest : CString} {fhandle : Int}
    (effect : CallEffect state (.tfsOpen (some dest) ⟨true, true, false⟩) ⟨fhandle, []⟩ opened)
    (isOpen : fhandle ≠ -1) (inv : Invariant state none) :
    ValidPathname dest ∧ ∃ final, ValidPathname final ∧ state.Resolves dest final ∧
      ∃ handle inode : Nat, fhandle = handle ∧ OpenedEmpty state opened final handle inode := by
  cases effect with
  | @opens _ final _ _ _ resolves effect =>
      obtain ⟨valid, handle, inode, same, opens⟩ := effect.openedEmpty isOpen inv
      refine ⟨?_, final, valid, resolves, handle, inode, same, opens⟩
      rcases Relation.ReflTransGen.cases_head resolves with rfl | ⟨_, linksTo, _⟩
      · exact valid
      · exact linksTo.1

/-- `tfs_copy_from_external_fs` once its destination is open -/
def copyOpened (destFile : Int) (source : ExternalFile) : TfsAction Int := do
  let copied ← copyChunks destFile source.chunks
  let closed ← tfsClose destFile
  if copied = true ∧ source.closes = true ∧ closed ≠ -1 then pure 0 else pure (-1)

theorem tfsCopyFromExternalFs_opened {dest : CString} {fhandle : Int} (sourcePath : CString)
    (source : ExternalFile) (valid : ValidPathname dest)
    (opens : tfsOpen (some dest) ⟨true, true, false⟩ state = .ok (fhandle, opened))
    (isOpen : fhandle ≠ -1) :
    tfsCopyFromExternalFs (some sourcePath) (some source) (some dest) state =
      copyOpened fhandle source opened := by
  unfold tfsCopyFromExternalFs
  rw [if_neg (by rw [validPathname_of_valid valid]; simp)]
  refine (bind_of_ok opens).trans ?_
  rw [if_neg isOpen]
  rfl

theorem outcome_copyOpened {faults : Fault → Prop} (inv : Invariant state none)
    (wide : Wide faults state) (destFile : Int) (source : ExternalFile)
    (bounded : faults .undefined ∨
      ∀ chunk, chunk ∈ source.chunks → chunk.length + state.blockSize < 2 ^ 64) :
    Outcome faults (copyOpened destFile source state)
      (fun result _ => result = 0 ∨ result = -1) := by
  unfold copyOpened
  apply outcome_bind (outcome_copyChunks inv wide _ _ bounded)
  rintro copied written ⟨writes, _, effects⟩
  apply outcome_bind (outcome_tfsClose (effects.invariant inv) (wide.of_fsParams effects.fsParams) _)
  intro closed last _
  apply outcome_ite
  · intro _
    exact outcome_pure (Or.inl rfl)
  · intro _
    exact outcome_pure (Or.inr rfl)

/-- Importing a file of the host copies it exactly or reports failure.  The call returns
where the tables fit their indices and the address range. -/
theorem import_exact (reachable : Reachable params (fun _ _ => True) state) {dest : CString}
    {fhandle : Int} (sourcePath : CString) (source : ExternalFile)
    (opens : tfsOpen (some dest) ⟨true, true, false⟩ state = .ok (fhandle, opened))
    (isOpen : fhandle ≠ -1)
    (chunks : ∀ chunk, chunk ∈ source.chunks → chunk ≠ [] ∧ chunk.length ≤ params.blockSize)
    (closes : source.closes = true) :
    (∀ result after,
      tfsCopyFromExternalFs (some sourcePath) (some source) (some dest) state =
        .ok (result, after) →
      ∃ inode contents, ImportedExactly state opened after dest source.chunks.flatten result inode
        contents) ∧
    (params.Fits → ∃ result after,
      tfsCopyFromExternalFs (some sourcePath) (some source) (some dest) state =
        .ok (result, after)) := by
  obtain ⟨inv, same⟩ := reachable.invariant
  have effect := @call_effect _ _ (.tfsOpen (some dest) ⟨true, true, false⟩) _ inv
    (bind_of_ok opens) (fun _ _ _ impossible => by cases impossible)
  have openedInv := effect.invariant inv
  have openedParams : opened.fsParams = params := effect.fsParams.trans same
  obtain ⟨valid, final, finalValid, resolves, handle, inode, rfl, empty⟩ :=
    effect.openedEmpty isOpen inv
  rw [tfsCopyFromExternalFs_opened sourcePath source valid opens isOpen]
  constructor
  · intro result after returned
    obtain ⟨complete, written, copied, returned⟩ := bind_eq_ok.mp returned
    obtain ⟨closed, last, closed', returned⟩ := bind_eq_ok.mp returned
    obtain ⟨writes, shape, effects⟩ := (@outcome_copyChunks (fun _ => True) _ openedInv
      (Or.inl trivial) _ _ (Or.inl trivial)).of_ok copied
    obtain ⟨contents, copying, front, whole, failed⟩ :=
      (empty.copying openedInv).run shape effects (fun chunk member => (chunks chunk member).1)
    have closeEffect := (@outcome_tfsClose (fun _ => True) _ copying.inv (Or.inl trivial)
      handle).of_ok closed'
    have lastInv := closeEffect.invariant copying.inv
    obtain ⟨rfl, rfl⟩ := copying.close ((copying.names _ _).mpr empty.binds) closeEffect
    have imported := copying.imported empty inv openedInv lastInv finalValid resolves
    rw [List.nil_append] at front whole failed
    cases complete with
    | true =>
        rw [if_pos ⟨rfl, closes, by decide⟩] at returned
        cases returned
        have all := whole rfl
        subst all
        refine ⟨inode, _, imported, Or.inl rfl, ⟨fun _ => ⟨copying.length_le, ?_⟩, fun _ => rfl⟩,
          fun _ => rfl, front, copying.length_le⟩
        by_cases nothing : source.chunks.flatten = []
        · exact Or.inl nothing
        · exact Or.inr (copying.room nothing)
    | false =>
        rw [if_neg (fun holds => by cases holds.1)] at returned
        cases returned
        refine ⟨inode, _, imported, Or.inr rfl, ⟨(fun impossible => by cases impossible), ?_⟩,
          (fun impossible => by cases impossible), front, copying.length_le⟩
        rintro ⟨short, nothing | free⟩
        · rcases failed rfl with long | ⟨something, _⟩
          · omega
          · exact (something nothing).elim
        · rcases failed rfl with long | ⟨_, full⟩
          · omega
          · exact (full free).elim
  · intro fits
    have openedFits : opened.Fits := by
      rw [State.fits_iff, openedParams]
      exact fits
    have wide : Wide (fun _ => False) opened := Or.inr openedFits
    have small := openedInv.geometry.blockSize_small openedFits
      (Nat.lt_of_le_of_lt (Nat.zero_le _) openedInv.root.blockTaken.1)
    have bounded : ∀ chunk, chunk ∈ source.chunks →
        chunk.length + opened.blockSize < 2 ^ 64 := by
      intro chunk member
      have short := (chunks chunk member).2
      rw [State.blockSize, openedParams] at small ⊢
      omega
    obtain ⟨result, after, returned, _⟩ :=
      (outcome_copyOpened openedInv wide handle source (Or.inr bounded)).returns
    exact ⟨result, after, returned⟩

theorem import_exact_new :
    ∃ state opened after result inode contents,
      Reachable smallParams (fun _ _ => True) state ∧
      tfsCopyFromExternalFs (some pathB) (some ⟨[[1, 2], [3]], true⟩) (some pathA) state =
        .ok (result, after) ∧
      ImportedExactly state opened after pathA [1, 2, 3] result inode contents := by
  obtain ⟨state, started, computed⟩ := afterCalls_any smallParams []
    (fun state => (tfsOpen (some pathA) ⟨true, true, false⟩ state).toOption.any
      (fun (returned : Int × State) => decide (returned.1 ≠ -1))) (by decide +kernel)
  obtain ⟨fhandle, opened, opens, isOpen⟩ :=
    @returns_of_any _ _ _ _ (fun (fhandle : Int) (_ : State) => decide (fhandle ≠ -1)) computed
  have reachable : Reachable smallParams (fun _ _ => True) state :=
    .afterCalls (fun _ _ _ => trivial) started
  have exact := import_exact reachable pathB ⟨[[1, 2], [3]], true⟩ opens
    (of_decide_eq_true isOpen) (by
      intro chunk member
      simp only [List.mem_cons, List.not_mem_nil, or_false] at member
      rcases member with rfl | rfl <;> decide) rfl
  obtain ⟨result, after, returned⟩ := exact.2 (by unfold TfsParams.Fits; decide)
  obtain ⟨inode, contents, imported⟩ := exact.1 result after returned
  exact ⟨state, opened, after, result, inode, contents, reachable, returned, imported⟩

end TecnicoFS.FileSystem
