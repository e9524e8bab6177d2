/-
What a section does to the inodes and the handles that other threads rely on.

`tfs_open` holds no lock between its lookup, the recheck of `freeinode_ts` and its entry in
the open file table.  A section keeps the inodes, stores the target of a new link, allocates
one inode or gives one back; and it keeps the handles, opens one or closes one.
-/

import TecnicoFS.FileSystem.ConcurrentCreates

set_option autoImplicit false

namespace TecnicoFS.FileSystem

variable {state : State}

/-! ### Inodes -/

/-- The inode that the thread allocated and has not entered in the directory -/
def TfsPoint.made : TfsPoint → Option Int
  | .openCreated _ inum | .openFailed inum | .symCreated _ _ inum | .symStored _ inum
  | .symFailed inum => some inum
  | _ => none

/-- The link whose target may not be stored -/
def TfsPoint.unstored : TfsPoint → Option Int
  | .symCreated _ _ inum | .symFailed inum => some inum
  | _ => none

/-- The same inodes are TAKEN, with their types and their blocks. -/
structure InodesKept (before after : State) : Prop where
  params : after.fsParams = before.fsParams
  marks : after.freeinodeTs = before.freeinodeTs
  types : ∀ inode, (after.inodeTable inode).iNodeType = (before.inodeTable inode).iNodeType
  blocks : ∀ inode, (after.inodeTable inode).iDataBlock = (before.inodeTable inode).iDataBlock

theorem InodesKept.refl (state : State) : InodesKept state state :=
  ⟨rfl, rfl, fun _ => rfl, fun _ => rfl⟩

theorem InodesKept.taken {before after : State} (kept : InodesKept before after) (inode : Nat) :
    after.InodeTaken inode ↔ before.InodeTaken inode := by
  unfold State.InodeTaken State.inodeTableSize
  rw [kept.params, kept.marks]

theorem InodesKept.setInode {slot : Nat} {inode : Inode}
    (type : inode.iNodeType = (state.inodeTable slot).iNodeType)
    (block : inode.iDataBlock = (state.inodeTable slot).iDataBlock) :
    InodesKept state (state.setInode slot inode) := by
  refine ⟨rfl, rfl, ?_, ?_⟩
  · intro other
    by_cases same : other = slot
    · rw [same, State.setInode_apply_self, type]
    · rw [State.setInode_apply_of_ne inode same]
  · intro other
    by_cases same : other = slot
    · rw [same, State.setInode_apply_self, block]
    · rw [State.setInode_apply_of_ne inode same]

theorem InodesKept.truncated (inode : Nat) (mode : TfsFileMode) :
    InodesKept state (state.truncated inode mode) := by
  have released : InodesKept state (state.releaseBlock inode) := by
    unfold State.releaseBlock
    split
    · exact ⟨rfl, rfl, fun _ => rfl, fun _ => rfl⟩
    · exact .refl state
  unfold State.truncated
  split
  · have resized : InodesKept (state.releaseBlock inode)
        ((state.releaseBlock inode).resizeFile inode 0 (state.inodeTable inode).iDataBlock) := by
      apply InodesKept.setInode
      · rfl
      · rw [State.releaseBlock_inodeTable]
    exact ⟨resized.params.trans released.params, resized.marks.trans released.marks,
      fun other => (resized.types other).trans (released.types other),
      fun other => (resized.blocks other).trans (released.blocks other)⟩
  · exact .refl state

theorem InodesKept.setLinks (inode links : Nat) :
    InodesKept state (state.setLinks inode links) := .setInode rfl rfl

/-- What a section can do to the inodes -/
inductive InodeMove (state : State) (point next : TfsPoint) (after : State) : Prop where
  | keeps (kept : InodesKept state after)
      (made : ∀ inum, next.made = some inum → point.made = some inum)
      (unstored : ∀ inum, point.unstored = some inum → next.unstored = some inum)
  | stores {target link : CString} {inode block : Nat} (starts : point = .symCreated target link inode)
      (ends : next = .symStored link inode) (inside : block < state.dataBlocks)
      (same : after = state.linkStored inode block target)
  | allocates {inode : Nat} {iType : InodeType} (first : state.FirstFreeInode inode)
      (same : after = state.takeInode inode (newInode iType)) (made : next.made = some (inode : Int))
      (unstored : iType = .tSymLink → next.unstored = some (inode : Int))
      (stored : point.unstored = none)
  | frees {inode : Nat} {between : State} (kept : InodesKept state between)
      (same : after = between.deleteInode inode) (made : next.made = none)
      (unused : point.made = some (inode : Int) ∨ ¬ after.IsOpen inode)
      (stored : ∀ inum, point.unstored = some inum → inum = inode)

theorem State.deleteInode_isOpen (inode other : Nat) :
    (state.deleteInode inode).IsOpen other ↔ state.IsOpen other := by
  unfold State.deleteInode State.releaseBlock
  split <;> exact Iff.rfl

theorem enterOpen_made (name : Option CString) (mode : TfsFileMode) :
    (enterOpen name mode).made = none := by
  unfold enterOpen
  split <;> rfl

theorem SectionEffect.inodes {point next : TfsPoint} {after : State}
    (effect : SectionEffect state point next after) : InodeMove state point next after := by
  have same : InodesKept state state := .refl state
  cases effect with
  | openFollows _ _ =>
      refine .keeps same ?_ (fun _ impossible => by cases impossible)
      intro inum made
      rw [enterOpen_made] at made
      cases made
  | openTruncates _ =>
      exact .keeps (.truncated _ _) (fun _ impossible => by cases impossible)
        (fun _ impossible => by cases impossible)
  | openCreates first =>
      exact .allocates first rfl rfl (fun impossible => by cases impossible) rfl
  | symCreates first => exact .allocates first rfl rfl (fun _ => rfl) rfl
  | openDeclined _ => exact .keeps same (fun _ made => made) (fun _ impossible => by cases impossible)
  | symDeclined _ => exact .keeps same (fun _ made => made) (fun _ impossible => by cases impossible)
  | symNoBlock _ => exact .keeps same (fun _ made => made) (fun _ made => made)
  | symStores first _ => exact .stores rfl rfl first.2.1 rfl
  | openDeletes =>
      exact .frees same rfl rfl (Or.inl rfl) (fun _ impossible => by cases impossible)
  | symDeletes =>
      refine .frees same rfl rfl (Or.inl rfl) ?_
      rintro inum ⟨⟩
      rfl
  | @closesLast handle inode _ _ _ _ closed =>
      refine @InodeMove.frees _ _ _ _ inode (state.closeHandle handle)
        ⟨rfl, rfl, fun _ => rfl, fun _ => rfl⟩ rfl rfl (Or.inr ?_)
        (fun _ impossible => by cases impossible)
      rw [State.deleteInode_isOpen]
      exact closed
  | @unlinkDeletes inode _ closed =>
      refine @InodeMove.frees _ _ _ _ inode (state.linkDropped inode) (.setLinks inode _) rfl rfl
        (Or.inr ?_) (fun _ impossible => by cases impossible)
      rw [State.deleteInode_isOpen]
      exact closed
  | linkCounts | unlinkDrops _ =>
      exact .keeps (.setLinks _ _) (fun _ impossible => by cases impossible)
        (fun _ impossible => by cases impossible)
  | _ =>
      exact .keeps ⟨rfl, rfl, fun _ => rfl, fun _ => rfl⟩ (fun _ impossible => by cases impossible)
        (fun _ impossible => by cases impossible)

/-- The link has a block for its target. -/
def State.LinkBacked (state : State) (inode : Nat) : Prop :=
  ∃ block : Nat, (state.inodeTable inode).iDataBlock = (block : Int) ∧ block < state.dataBlocks

namespace InodeMove

variable {point next : TfsPoint} {after : State}

/-- Only an inode that is allocated in the section changes its type. -/
theorem types (move : InodeMove state point next after) {inode : Nat}
    (old : state.InodeTaken inode ∨ ¬ after.InodeTaken inode) :
    (after.inodeTable inode).iNodeType = (state.inodeTable inode).iNodeType := by
  cases move with
  | keeps kept _ _ => exact kept.types inode
  | @stores target link stored block _ _ _ same =>
      subst same
      change ((state.setInode stored _).inodeTable inode).iNodeType = _
      by_cases at_ : inode = stored
      · rw [at_, State.setInode_apply_self]
      · rw [State.setInode_apply_of_ne _ at_]
  | @allocates made iType first same _ _ _ =>
      subst same
      have different : inode ≠ made := by
        intro equal
        subst equal
        rcases old with taken | free
        · have free := first.2.2.1
          rw [taken.2] at free
          cases free
        · exact free ((State.takeInode_taken first.2.1).mpr (Or.inl rfl))
      change (Function.update state.inodeTable made _ inode).iNodeType = _
      rw [Function.update_of_ne different]
  | @frees freed between kept same _ _ _ =>
      subst same
      rw [← kept.types inode]
      change (Function.update (between.releaseBlock freed).inodeTable freed _ inode).iNodeType = _
      by_cases at_ : inode = freed
      · rw [at_, Function.update_self]
      · rw [Function.update_of_ne at_, State.releaseBlock_inodeTable]

/-- A thread makes no inode that is in use. -/
theorem made (move : InodeMove state point next after) {inum : Int} (makes : next.made = some inum) :
    point.made = some inum ∨ ∃ inode : Nat, inum = (inode : Int) ∧ ¬ state.InodeTaken inode ∧
      after.InodeTaken inode := by
  cases move with
  | keeps _ kept _ => exact Or.inl (kept inum makes)
  | stores starts ends _ _ =>
      rw [ends] at makes
      cases makes
      rw [starts]
      exact Or.inl rfl
  | @allocates inode iType first same made _ _ =>
      rw [made] at makes
      cases makes
      refine Or.inr ⟨inode, rfl, ?_, ?_⟩
      · intro taken
        have free := first.2.2.1
        rw [taken.2] at free
        cases free
      · rw [same]
        exact (State.takeInode_taken first.2.1).mpr (Or.inl rfl)
  | frees _ _ none_ _ _ =>
      rw [none_] at makes
      cases makes

/-- An inode is given back by the thread that made it, or when no handle refers to it. -/
theorem freed (move : InodeMove state point next after) {inode : Nat}
    (taken : state.InodeTaken inode) (free : ¬ after.InodeTaken inode) :
    point.made = some (inode : Int) ∨ ¬ after.IsOpen inode := by
  cases move with
  | keeps kept _ _ => exact (free ((kept.taken inode).mpr taken)).elim
  | stores _ _ _ same =>
      subst same
      exact (free taken).elim
  | allocates first same _ _ _ =>
      subst same
      exact (free ((State.takeInode_taken first.2.1).mpr (Or.inr taken))).elim
  | @frees given between kept same _ unused _ =>
      have equal : inode = given := by
        by_contra different
        apply free
        rw [same]
        exact State.deleteInode_taken.mpr ⟨different, (kept.taken inode).mpr taken⟩
      rw [equal]
      exact unused

/-- A link keeps its block, and a new one has a block once its target is stored. -/
theorem backed (move : InodeMove state point next after) {inode : Nat}
    (stays : after.InodeTaken inode) (isLink : (after.inodeTable inode).iNodeType = .tSymLink) :
    (state.InodeTaken inode ∧ (state.inodeTable inode).iNodeType = .tSymLink →
      state.LinkBacked inode ∨ point.unstored = some (inode : Int)) →
    after.LinkBacked inode ∨ next.unstored = some (inode : Int) := by
  intro before
  cases move with
  | keeps kept _ unstored =>
      rw [kept.types] at isLink
      rcases before ⟨(kept.taken inode).mp stays, isLink⟩ with ⟨block, holds, inside⟩ | still
      · left
        refine ⟨block, (kept.blocks inode).trans holds, ?_⟩
        unfold State.dataBlocks
        rw [kept.params]
        exact inside
      · exact Or.inr (unstored _ still)
  | @stores target link stored block starts _ inside same =>
      subst same
      left
      by_cases at_ : inode = stored
      · subst at_
        refine ⟨block, ?_, inside⟩
        change ((state.setFreeBlock block .taken).setInode inode _ |>.inodeTable inode).iDataBlock = _
        rw [State.setInode_apply_self]
      · have kept : (state.linkStored stored block target).inodeTable inode =
            state.inodeTable inode := State.setInode_apply_of_ne _ at_
        rw [kept] at isLink
        rcases before ⟨stays, isLink⟩ with ⟨block', holds, inside'⟩ | still
        · exact ⟨block', by rw [kept]; exact holds, inside'⟩
        · rw [starts] at still
          cases still
          exact (at_ rfl).elim
  | @allocates made iType first same _ unstored stored =>
      subst same
      by_cases at_ : inode = made
      · right
        subst at_
        apply unstored
        change (Function.update state.inodeTable inode _ inode).iNodeType = _ at isLink
        rw [Function.update_self] at isLink
        exact isLink
      · left
        have kept : (state.takeInode made (newInode iType)).inodeTable inode =
            state.inodeTable inode := Function.update_of_ne at_ _ _
        rw [kept] at isLink
        have taken := ((State.takeInode_taken first.2.1).mp stays).resolve_left at_
        rcases before ⟨taken, isLink⟩ with ⟨block, holds, inside⟩ | still
        · exact ⟨block, by rw [kept]; exact holds, inside⟩
        · rw [stored] at still
          cases still
  | @frees given between kept same _ _ stored =>
      subst same
      left
      obtain ⟨different, taken⟩ := State.deleteInode_taken.mp stays
      have table := @State.deleteInode_inodeTable between given inode different
      rw [table, kept.types] at isLink
      rcases before ⟨(kept.taken inode).mp taken, isLink⟩ with ⟨block, holds, inside⟩ | still
      · refine ⟨block, by rw [table, kept.blocks]; exact holds, ?_⟩
        unfold State.dataBlocks
        rw [State.deleteInode_fsParams, kept.params]
        exact inside
      · exact (different (Int.ofNat_inj.mp (stored _ still))).elim

theorem params (move : InodeMove state point next after) : after.fsParams = state.fsParams := by
  cases move with
  | keeps kept _ _ => exact kept.params
  | stores _ _ _ same =>
      subst same
      rfl
  | allocates _ same _ _ _ =>
      subst same
      rfl
  | frees kept same _ _ _ =>
      subst same
      rw [State.deleteInode_fsParams]
      exact kept.params

end InodeMove

/-- Only `tfs_open` with `TFS_O_TRUNC` changes the size of a file, and of no other file. -/
theorem SectionEffect.sizes {point next : TfsPoint} {after : State}
    (effect : SectionEffect state point next after) {inode : Nat} (taken : state.InodeTaken inode)
    (stays : after.InodeTaken inode)
    (resized : (after.inodeTable inode).iSize ≠ (state.inodeTable inode).iSize) :
    ∃ path mode, point = .openFound path mode inode := by
  have kept (slot : Nat) (node : Inode) (same : node.iSize = (state.inodeTable slot).iSize) :
      ((state.setInode slot node).inodeTable inode).iSize = (state.inodeTable inode).iSize := by
    by_cases at_ : inode = slot
    · rw [at_, State.setInode_apply_self, same]
    · rw [State.setInode_apply_of_ne node at_]
  have made (slot : Nat) (node : Inode) (free : state.freeinodeTs slot = .free) :
      (state.takeInode slot node).inodeTable inode = state.inodeTable inode := by
    have different : inode ≠ slot := by
      rintro rfl
      rw [taken.2] at free
      cases free
    exact Function.update_of_ne different _ _
  cases effect with
  | @openTruncates path mode opened _ =>
      by_cases at_ : inode = opened
      · subst at_
        exact ⟨path, mode, rfl⟩
      · refine (resized ?_).elim
        unfold State.truncated
        split
        · unfold State.resizeFile
          rw [State.setInode_apply_of_ne _ at_, State.releaseBlock_inodeTable]
        · rfl
  | openCreates first | symCreates first => exact (resized (by rw [made _ _ first.2.2.1])).elim
  | openDeletes | symDeletes =>
      have different := (State.deleteInode_taken.mp stays).1
      exact (resized (by rw [State.deleteInode_inodeTable different])).elim
  | closesLast _ _ _ _ _ =>
      have different := (State.deleteInode_taken.mp stays).1
      exact (resized (by rw [State.deleteInode_inodeTable different]; rfl)).elim
  | @unlinkDeletes dropped _ _ =>
      have different := (State.deleteInode_taken.mp stays).1
      refine (resized ?_).elim
      rw [State.deleteInode_inodeTable different]
      exact kept dropped _ rfl
  | @symStores target link stored block _ _ => exact (resized (kept stored _ rfl)).elim
  | @linkCounts link counted => exact (resized (kept counted _ rfl)).elim
  | @unlinkDrops dropped _ => exact (resized (kept dropped _ rfl)).elim
  | _ => exact (resized rfl).elim

/-! ### Handles -/

/-- The handle that the thread passed to `tfs_close` -/
def TfsPoint.closing : TfsPoint → Option Int
  | .closeEnter fhandle | .closeFound fhandle => some fhandle
  | _ => none

/-- What a section can do to the open file table -/
inductive HandleMove (state : State) (point next : TfsPoint) (after : State) : Prop where
  | keeps (marks : after.freeOpenFileEntries = state.freeOpenFileEntries)
      (table : after.openFileTable = state.openFileTable)
      (closing : ∀ fhandle, next.closing = some fhandle → point.closing = some fhandle)
      (stays : ∀ fhandle, point ≠ .closeFound fhandle)
  | opens {inode offset handle : Nat} (starts : point = .openChecked inode offset)
      (ends : next = .returned (handle : Int)) (first : state.FirstFreeHandle handle)
      (same : after = state.openHandle handle { ofInumber := inode, ofOffset := offset })
  | closes {handle : Nat} (starts : point = .closeFound handle) (ends : next = .returned 0)
      (taken : state.HandleTaken handle)
      (marks : after.freeOpenFileEntries = (state.closeHandle handle).freeOpenFileEntries)
      (table : after.openFileTable = state.openFileTable)

theorem State.deleteInode_handles (inode : Nat) :
    (state.deleteInode inode).freeOpenFileEntries = state.freeOpenFileEntries ∧
      (state.deleteInode inode).openFileTable = state.openFileTable := by
  unfold State.deleteInode State.releaseBlock
  split <;> exact ⟨rfl, rfl⟩

theorem enterOpen_closing (name : Option CString) (mode : TfsFileMode) :
    (enterOpen name mode).closing = none := by
  unfold enterOpen
  split <;> rfl

theorem SectionEffect.handles {point next : TfsPoint} {after : State}
    (effect : SectionEffect state point next after) : HandleMove state point next after := by
  cases effect with
  | openFollows _ _ =>
      refine .keeps rfl rfl ?_ (fun _ impossible => by cases impossible)
      intro fhandle closing
      rw [enterOpen_closing] at closing
      cases closing
  | @openTruncates _ mode inode _ =>
      have same : (state.truncated inode mode).freeOpenFileEntries = state.freeOpenFileEntries ∧
          (state.truncated inode mode).openFileTable = state.openFileTable := by
        unfold State.truncated State.releaseBlock
        split
        · split <;> exact ⟨rfl, rfl⟩
        · exact ⟨rfl, rfl⟩
      exact .keeps same.1 same.2 (fun _ impossible => by cases impossible)
        (fun _ impossible => by cases impossible)
  | openReturns first => exact .opens rfl rfl first rfl
  | closeFinds _ => exact .keeps rfl rfl (fun _ closing => closing) (fun _ impossible => by cases impossible)
  | closes taken _ _ _ => exact .closes rfl rfl taken rfl rfl
  | @closesLast handle inode taken _ _ _ _ =>
      have same := @State.deleteInode_handles (state.closeHandle handle) inode
      exact .closes rfl rfl taken same.1 same.2
  | openDeletes | symDeletes =>
      have same := @State.deleteInode_handles state
      exact .keeps (same _).1 (same _).2 (fun _ impossible => by cases impossible)
        (fun _ impossible => by cases impossible)
  | @unlinkDeletes inode _ _ =>
      have same := @State.deleteInode_handles (state.linkDropped inode) inode
      exact .keeps same.1 same.2 (fun _ impossible => by cases impossible)
        (fun _ impossible => by cases impossible)
  | _ =>
      exact .keeps rfl rfl (fun _ impossible => by cases impossible)
        (fun _ impossible => by cases impossible)

namespace HandleMove

variable {point next : TfsPoint} {after : State}

/-- A TAKEN entry was TAKEN before and is not being closed, or it is the new one. -/
theorem old_or_new (move : HandleMove state point next after) (params : after.fsParams = state.fsParams)
    {handle : Nat} (taken : after.HandleTaken handle) :
    (state.HandleTaken handle ∧ after.openFileTable handle = state.openFileTable handle) ∨
      ∃ inode offset : Nat, point = .openChecked inode offset ∧
        (after.openFileTable handle).ofInumber = (inode : Int) := by
  cases move with
  | keeps marks table _ _ =>
      left
      unfold State.HandleTaken State.maxOpenFiles at taken ⊢
      rw [marks, params] at taken
      exact ⟨taken, by rw [table]⟩
  | @opens inode offset opened starts ends first same =>
      subst same
      rw [State.openHandle_apply]
      by_cases new : handle = opened
      · rw [if_pos new]
        exact Or.inr ⟨inode, offset, starts, rfl⟩
      · rw [if_neg new]
        exact Or.inl ⟨((State.openHandle_taken first.2.1).mp taken).resolve_left new, rfl⟩
  | @closes closed _ _ _ marks table =>
      left
      have still : (state.closeHandle closed).HandleTaken handle := by
        unfold State.HandleTaken State.maxOpenFiles at taken ⊢
        rw [marks, params] at taken
        exact taken
      exact ⟨(State.closeHandle_taken.mp still).2, by rw [table]⟩

/-- Only its own close makes an entry FREE. -/
theorem stays (move : HandleMove state point next after) (params : after.fsParams = state.fsParams)
    {handle : Nat} (taken : state.HandleTaken handle) (elsewhere : point ≠ .closeFound handle) :
    after.HandleTaken handle := by
  cases move with
  | keeps marks _ _ _ =>
      unfold State.HandleTaken State.maxOpenFiles at taken ⊢
      rw [marks, params]
      exact taken
  | opens _ _ first same =>
      subst same
      exact (State.openHandle_taken first.2.1).mpr (Or.inr taken)
  | @closes closed starts _ _ marks _ =>
      have different : handle ≠ closed := by
        rintro rfl
        exact elsewhere starts
      have still := State.closeHandle_taken.mpr ⟨different, taken⟩
      unfold State.HandleTaken State.maxOpenFiles at still ⊢
      rw [marks, params]
      exact still

end HandleMove

/-- A section gives a handle to its thread only when it takes the entry. -/
theorem SectionEffect.owners {Thread : Type} {point next : TfsPoint} {after : State}
    (effect : SectionEffect state point next after) (owners : Nat → Option Thread)
    (thread : Thread) {handle : Nat} {owner : Option Thread}
    (owned : SharedFs.ownersAfterSection owners thread point next handle = owner) :
    owners handle = owner ∨ (¬ state.HandleTaken handle ∧ after.HandleTaken handle) := by
  cases effect with
  | openNoHandle _ =>
      left
      change (if (-1 : Int) = (handle : Int) then some thread else owners handle) = owner at owned
      rwa [if_neg (by omega)] at owned
  | @openReturns inode offset opened first =>
      change (if (opened : Int) = (handle : Int) then some thread else owners handle) = owner at owned
      by_cases same : (opened : Int) = (handle : Int)
      · right
        cases Int.ofNat_inj.mp same
        refine ⟨?_, (State.openHandle_taken first.2.1).mpr (Or.inl rfl)⟩
        intro taken
        have free := first.2.2.1
        rw [taken.2] at free
        cases free
      · rw [if_neg same] at owned
        exact Or.inl owned
  | _ => exact Or.inl owned

end TecnicoFS.FileSystem
