/-
Every public call treats alike states alike.
-/

import TecnicoFS.FileSystem.AlikeSteps

set_option autoImplicit false

namespace TecnicoFS.FileSystem

open FaultAction TableSearch

variable {left right : State} {slack : Slack}

/-! ### Reading -/

theorem twins_clampOffset (alike : Alike left right) {handle inode : Nat}
    (opened : left.HandleTaken handle) (taken : left.InodeTaken inode) :
    Twins (clampOffset handle inode left) (clampOffset handle inode right)
      (fun _ left' right' => Alike left' right') := by
  unfold clampOffset
  apply twins_get_bind
  rw [alike.inodes inode taken, alike.openFiles handle opened]
  apply twins_ite Iff.rfl
  · intro _
    apply twins_modify
    rw [alike.inodes inode taken, alike.openFiles handle opened]
    exact alike.setOpenFile handle _
  · intro _
    exact twins_pure alike

theorem twins_readFromOpenFile (alike : Alike left right) (inv : Invariant left none)
    (fhandle : Int) (buffered : Bool) (len : Nat) :
    Twins (readFromOpenFile fhandle buffered len left)
      (readFromOpenFile fhandle buffered len right) (fun _ left' right' => Alike left' right') := by
  unfold readFromOpenFile
  apply twins_ite Iff.rfl
  · intro _
    exact twins_pure alike
  intro _
  apply twins_bind (twins_getOpenFileEntry alike fhandle)
  rintro found left' right' ⟨sameLeft, sameRight, facts⟩
  subst left' right'
  cases found with
  | none => exact twins_pure alike
  | some handle =>
      obtain ⟨_, opened⟩ := facts handle rfl
      obtain ⟨inode, refers, nonzero, taken, isFile⟩ := inv.holders.handleHolds handle opened
      apply twins_get_bind
      rw [alike.openFiles handle opened, refers]
      apply twins_bind (twins_inodeGet alike.toSameTables inode)
      rintro slot left' right' ⟨slotEq, sameLeft, sameRight⟩
      rw [Int.toNat_natCast] at slotEq
      subst slot left' right'
      apply twins_bind ((twins_clampOffset alike opened taken).known (outcome_clampOffset handle inode))
      rintro _ clamped right' ⟨same, alike'⟩
      subst clamped
      apply twins_get_bind
      rw [alike'.openFiles handle opened, alike'.inodes inode taken, alike'.dataBytes,
        State.setOffset_offset]
      have size : ((left.setOffset handle (left.clampedOffset handle inode)).inodeTable
          inode).iSize = (left.inodeTable inode).iSize := rfl
      have range : left.blockSize < 2 ^ 64 := left.fsParams.sizeRange.2.2.2
      have bounded := inv.inodes.fileSize inode taken isFile
      have length := @readLength_eq_min (left.inodeTable inode).iSize
        (left.clampedOffset handle inode) len (Nat.min_le_right _ _) (by omega)
      rw [size, length]
      apply twins_ite Iff.rfl
      · intro _
        exact twins_pure alike'
      intro something
      obtain ⟨block, blockEq, _, blockTaken, _⟩ := inv.backed taken nonzero (by omega)
      have address := inv.blockAddress blockTaken
      have blockEq' : ((left.setOffset handle (left.clampedOffset handle inode)).inodeTable
        inode).iDataBlock = (block : Int) := blockEq
      rw [blockEq']
      apply twins_bind (twins_dataBlockGet alike'.toSameTables block)
      rintro base left' right'' ⟨baseEq, sameLeft, sameRight⟩
      subst left' right''
      replace baseEq : base = block * left.blockSize := baseEq.trans address
      subst base
      apply twins_require_bind Iff.rfl
      intro _
      apply twins_modify_bind
      rw [alike'.openFiles handle opened]
      have sameBytes : right'.fsData.readBytes
          (block * left.blockSize + left.clampedOffset handle inode)
            (min len ((left.inodeTable inode).iSize - left.clampedOffset handle inode)) =
          left.fsData.readBytes (block * left.blockSize + left.clampedOffset handle inode)
            (min len ((left.inodeTable inode).iSize - left.clampedOffset handle inode)) := by
        apply ByteMemory.readBytes_congr
        intro position lower upper
        have below := (alike'.bytes inode taken).file isFile block blockEq
          (position - block * left.blockSize) (by rw [size]; omega)
        change right'.fsData (block * left.blockSize + _) =
          left.fsData (block * left.blockSize + _) at below
        rw [Nat.add_sub_cancel' (by omega)] at below
        exact below
      rw [sameBytes]
      exact twins_pure (alike'.setOpenFile handle _)

/-! ### Writing -/

theorem twins_ensureFileBlock (alike : Alike left right) {inode : Nat}
    (taken : left.InodeTaken inode) (isFile : (left.inodeTable inode).iNodeType = .tFile) :
    Twins (ensureFileBlock inode left) (ensureFileBlock inode right)
      (fun _ left' right' => Alike left' right') := by
  unfold ensureFileBlock
  apply twins_get_bind
  rw [alike.inodes inode taken]
  apply twins_ite Iff.rfl
  · intro empty
    apply twins_bind (twins_dataBlockAlloc alike.toSameTables)
    rintro result left' right' (⟨rfl, sameLeft, sameRight⟩ | ⟨block, rfl, rfl, rfl⟩)
    · subst left' right'
      rw [if_pos rfl]
      exact twins_pure alike
    · rw [if_neg (by omega)]
      apply twins_modify_bind
      apply twins_pure
      rw [show (right.setFreeBlock block .taken).inodeTable inode = left.inodeTable inode from
        alike.inodes inode taken]
      exact (alike.setFreeBlock block .taken).setInode inode (fun _ => .of_empty isFile empty)
  · intro _
    exact twins_pure alike

/-- The bytes and the size of a file that grows by the written bytes -/
theorem Alike.grown {inode block offset : Nat} {bytes : List UInt8} (alike : Alike left right)
    (taken : left.InodeTaken inode) (isFile : (left.inodeTable inode).iNodeType = .tFile)
    (blockEq : (left.inodeTable inode).iDataBlock = (block : Int))
    (reached : offset ≤ (left.inodeTable inode).iSize) :
    (left.store (block * left.blockSize + offset) bytes).InodeAlike
      (right.store (block * left.blockSize + offset) bytes)
        { left.inodeTable inode with iSize := offset + bytes.length } where
  file := by
    intro _ own ownEq position inside
    have same : own = block := by
      change (left.inodeTable inode).iDataBlock = (own : Int) at ownEq
      omega
    subst own
    change right.fsData.writeBytes (block * left.blockSize + offset) bytes
        (block * left.blockSize + position) =
      left.fsData.writeBytes (block * left.blockSize + offset) bytes
        (block * left.blockSize + position)
    by_cases before : position < offset
    · -- The old part of the file is below the store.
      rw [ByteMemory.writeBytes_outside _ _ _ _ (Or.inl (by omega)),
        ByteMemory.writeBytes_outside _ _ _ _ (Or.inl (by omega))]
      exact (alike.bytes inode taken).file isFile block blockEq position (by omega)
    · have within : position - offset < bytes.length := by
        change position < offset + bytes.length at inside
        omega
      have here : block * left.blockSize + position =
          block * left.blockSize + offset + (position - offset) := by omega
      rw [here, ByteMemory.writeBytes_inside _ _ _ _ within,
        ByteMemory.writeBytes_inside _ _ _ _ within]
  symLink := by
    intro isSymLink
    rw [show (left.inodeTable inode).iNodeType = .tSymLink from isSymLink] at isFile
    cases isFile

theorem twins_copyToFile (alike : Alike left right) {handle inode block : Nat}
    {bytes : List UInt8} (opened : left.HandleTaken handle) (taken : left.InodeTaken inode)
    (isFile : (left.inodeTable inode).iNodeType = .tFile)
    (blockEq : (left.inodeTable inode).iDataBlock = (block : Int)) (nonzero : block ≠ 0)
    (address : block * left.blockSize % 2 ^ 64 = block * left.blockSize)
    (reached : (left.openFileTable handle).ofOffset ≤ (left.inodeTable inode).iSize)
    (small : left.dataBytes < 2 ^ 63)
    (missed : left.MissesLinks (block * left.blockSize + (left.openFileTable handle).ofOffset)
      bytes.length) :
    Twins (copyToFile handle inode bytes left) (copyToFile handle inode bytes right)
      (fun _ left' right' => Alike left' right') := by
  unfold copyToFile
  apply twins_get_bind
  rw [alike.inodes inode taken, alike.openFiles handle opened, blockEq]
  apply twins_bind (twins_dataBlockGet alike.toSameTables block)
  rintro base left' right' ⟨baseEq, sameLeft, sameRight⟩
  subst left' right'
  replace baseEq : base = block * left.blockSize := baseEq.trans address
  subst base
  have past := left.dirEnd_le_blockAddress nonzero
  have stored := alike.store (Nat.le_trans past (Nat.le_add_right _ _)) missed
  apply twins_bind (@twins_storeBytes _ _ alike.toSameTables _ bytes
    (fun _ left' right' =>
      block * left.blockSize + (left.openFileTable handle).ofOffset + bytes.length ≤
        left.dataBytes ∧
      left' = left.store (block * left.blockSize + (left.openFileTable handle).ofOffset) bytes ∧
      right' = right.store (block * left.blockSize + (left.openFileTable handle).ofOffset) bytes)
    (fun inside => ⟨inside, rfl, rfl⟩))
  rintro _ left' right' ⟨inside, sameLeft, sameRight⟩
  subst left' right'
  have advanced : sizeAdd (left.openFileTable handle).ofOffset bytes.length =
      (left.openFileTable handle).ofOffset + bytes.length := sizeAdd_of_lt (by omega)
  rw [advanced]
  apply twins_modify_bind
  rw [stored.openFiles handle opened]
  apply twins_ite Iff.rfl
  · intro grows
    apply twins_modify
    have grown := @Alike.grown _ _ _ _ _ bytes alike taken isFile blockEq reached
    change Alike (State.setInode (State.setOpenFile _ _ _) inode _)
      (State.setInode (State.setOpenFile _ _ _) inode { right.inodeTable inode with
        iSize := (left.openFileTable handle).ofOffset + bytes.length })
    rw [alike.inodes inode taken]
    exact (stored.setOpenFile handle _).setInode inode (fun _ => { grown with })
  · intro _
    exact twins_pure (stored.setOpenFile handle _)

theorem State.MissesLinks.resizeFile {inode size address length : Nat} {block : Int}
    (missed : left.MissesLinks address length)
    (isFile : (left.inodeTable inode).iNodeType = .tFile) :
    (left.resizeFile inode size block).MissesLinks address length := by
  intro slot taken isSymLink own ownEq
  by_cases same : slot = inode
  · subst slot
    rw [State.resizeFile, State.setInode_apply_self] at isSymLink
    rw [show (left.inodeTable inode).iNodeType = .tSymLink from isSymLink] at isFile
    cases isFile
  · rw [State.resizeFile, State.setInode_apply_of_ne _ same] at isSymLink ownEq
    exact missed slot taken isSymLink own ownEq

theorem twins_writeToOpenFile (alike : Alike left right) (inv : Invariant left none)
    (fhandle : Int) (buffer : Option (List UInt8)) (toWrite : Nat)
    (bounded : ∀ data, buffer = some data → toWrite + left.blockSize < 2 ^ 64) :
    Twins (writeToOpenFile fhandle buffer toWrite left)
      (writeToOpenFile fhandle buffer toWrite right) (fun _ left' right' => Alike left' right') := by
  unfold writeToOpenFile
  cases buffer with
  | none => exact twins_pure alike
  | some data =>
      have range := bounded data rfl
      apply twins_bind (twins_getOpenFileEntry alike fhandle)
      rintro found left' right' ⟨sameLeft, sameRight, facts⟩
      subst left' right'
      cases found with
      | none => exact twins_pure alike
      | some handle =>
          obtain ⟨_, opened⟩ := facts handle rfl
          obtain ⟨inode, refers, nonzero, taken, isFile⟩ := inv.holders.handleHolds handle opened
          apply twins_get_bind
          rw [alike.openFiles handle opened, refers]
          apply twins_bind (twins_inodeGet alike.toSameTables inode)
          rintro slot left' right' ⟨slotEq, sameLeft, sameRight⟩
          rw [Int.toNat_natCast] at slotEq
          subst slot left' right'
          apply twins_bind ((twins_clampOffset alike opened taken).known
            (outcome_clampOffset handle inode))
          rintro _ clamped right' ⟨same, alike'⟩
          subst clamped
          apply twins_get_bind
          have clampedLe := @Invariant.clamped_le _ inv _ inode opened
          have cut := @writeLength_eq_min _ _ toWrite clampedLe range
          rw [alike'.openFiles handle opened, alike'.blockSize, State.setOffset_offset]
          rw [show (left.setOffset handle (left.clampedOffset handle inode)).blockSize =
            left.blockSize from rfl, cut]
          apply twins_ite Iff.rfl
          · intro _
            exact twins_pure alike'
          intro _
          apply twins_bind ((twins_ensureFileBlock alike' taken isFile).known
            (@outcome_ensureFileBlock _ (left.setOffset handle (left.clampedOffset handle inode))
              inv.geometry.blockSizePos inode (fun _ => (Wide.any _).blocksReached)))
          rintro allocated left' right'' ⟨effect, backed⟩
          apply twins_ite Iff.rfl
          · intro _
            exact twins_pure backed
          intro isAllocated
          apply twins_require_bind Iff.rfl
          intro covered
          have length : (data.take (min toWrite (left.blockSize - left.clampedOffset handle
              inode))).length = min toWrite (left.blockSize - left.clampedOffset handle inode) := by
            rw [List.length_take, Nat.min_eq_left covered]
          have inside : left.clampedOffset handle inode + (data.take (min toWrite
              (left.blockSize - left.clampedOffset handle inode))).length ≤ left.blockSize := by
            omega
          have copied : Twins
              (copyToFile handle inode (data.take (min toWrite (left.blockSize -
                left.clampedOffset handle inode))) left')
              (copyToFile handle inode (data.take (min toWrite (left.blockSize -
                left.clampedOffset handle inode))) right'')
              (fun _ left' right' => Alike left' right') := by
            cases effect with
            | full _ _ => exact (isAllocated rfl).elim
            | @taken block empty first =>
                obtain ⟨blockNonzero, address⟩ := inv.freeBlock_address first
                have missed := inv.missesLinks_block (fun slot _ =>
                  inv.free_unowned first.2.2.1 blockNonzero slot) inside
                have atInode : ((((left.setOffset handle (left.clampedOffset handle
                    inode)).setFreeBlock block .taken).resizeFile inode 0 block).inodeTable
                      inode) = { left.inodeTable inode with iSize := 0, iDataBlock := block } :=
                  State.setInode_apply_self _ _
                have start : left.clampedOffset handle inode = 0 := by
                  unfold State.clampedOffset
                  rw [show (left.inodeTable inode).iSize = 0 from empty, Nat.min_zero]
                refine @twins_copyToFile _ _ backed _ _ block _ opened taken ?_ ?_ blockNonzero
                  address ?_ inv.geometry.dataBytesLt ?_
                · rw [atInode]
                  exact isFile
                · rw [atInode]
                · rw [atInode, State.resizeFile_offset, start]
                · rw [State.resizeFile_offset]
                  exact State.MissesLinks.resizeFile missed isFile
            | owned nonempty =>
                obtain ⟨block, blockEq, blockNonzero, blockTaken, owns⟩ :=
                  inv.backed taken nonzero nonempty
                have foreign (slot : Nat) (isSymLink : (left.inodeTable slot).iNodeType = .tSymLink) :
                    ¬ left.OwnsBlock slot (block : Int) := by
                  intro linkOwns
                  have same := inv.blocks.exclusive slot inode block linkOwns owns
                  rw [same, isFile] at isSymLink
                  cases isSymLink
                refine @twins_copyToFile _ _ backed _ _ block _ opened taken isFile blockEq
                  blockNonzero (inv.blockAddress blockTaken) ?_ inv.geometry.dataBytesLt ?_
                · rw [State.setOffset_offset]
                  exact Nat.min_le_right _ _
                · rw [State.setOffset_offset]
                  exact inv.missesLinks_block foreign inside
          apply twins_bind copied
          intro _ _ _ written
          exact twins_pure written

/-! ### Opening and closing -/

theorem twins_tfsLookup (alike : Alike left right) (root : RootOk left) (name : CString) :
    Twins (tfsLookup name 0 left) (tfsLookup name 0 right) (fun _ left' right' =>
      left' = left ∧ right' = right) := by
  unfold tfsLookup
  apply twins_get_bind
  rw [alike.inodes 0 root.inodeTaken]
  apply twins_ite Iff.rfl
  · intro _
    exact twins_pure ⟨rfl, rfl⟩
  intro _
  apply twins_ite Iff.rfl
  · intro _
    exact twins_pure ⟨rfl, rfl⟩
  · intro _
    exact twins_findInDir alike root name.tail

theorem twins_truncateFile (alike : Alike left right) {inode : Nat}
    (taken : left.InodeTaken inode) (isFile : (left.inodeTable inode).iNodeType = .tFile)
    (mode : TfsFileMode) :
    Twins (truncateFile inode mode left) (truncateFile inode mode right)
      (fun _ left' right' => Alike left' right') := by
  unfold truncateFile
  apply twins_get_bind
  have same := alike.inodes inode taken
  rw [same]
  apply twins_ite Iff.rfl
  · intro _
    apply twins_bind (twins_dataBlockFree alike.toSameTables _)
    rintro _ left' right' ⟨rfl, rfl⟩
    apply twins_modify
    have freed := alike.setFreeBlock (left.inodeTable inode).iDataBlock.toNat .free
    rw [freed.inodes inode taken]
    exact freed.setInode inode (fun _ => .of_empty isFile rfl)
  · intro _
    exact twins_pure alike

theorem twins_openExisting (alike : Alike left right) (inv : Invariant left none) {inode : Nat}
    (taken : left.InodeTaken inode) (nonzero : inode ≠ 0)
    (isFile : (left.inodeTable inode).iNodeType = .tFile) (mode : TfsFileMode) :
    Twins (openExisting (inode : Int) inode mode left)
      (openExisting (inode : Int) inode mode right) (fun _ left' right' => Alike left' right') := by
  unfold openExisting
  apply twins_bind ((twins_truncateFile alike taken isFile mode).known
    (outcome_truncateFile inv taken nonzero mode))
  rintro _ left' right' ⟨same, truncated⟩
  subst left'
  apply twins_get_bind
  rw [truncated.inodes inode (State.truncated_taken.mpr taken)]
  exact twins_addToOpenFileTable truncated inode _

/-- A new file with its entry, or nothing at all -/
theorem twins_createFile (alike : Alike left right) (inv : Invariant left none)
    (path : CString) :
    Twins (createFile 0 path left) (createFile 0 path right)
      (fun _ left' right' => Alike left' right') := by
  unfold createFile
  apply twins_bind ((twins_inodeCreate alike (by decide)).known
    (outcome_inodeCreate (by decide) inv.geometry.blockSizePos (Wide.any left).inodesReached))
  rintro result left' right' ⟨created, states⟩
  rcases states with ⟨rfl, sameLeft, sameRight⟩ | ⟨inode, rfl, sameLeft, sameRight⟩
  · subst left' right'
    rw [if_pos rfl]
    exact twins_pure alike
  rcases created with ⟨impossible, _, _⟩ | ⟨slot, slotEq, _, first⟩
  · omega
  have same : slot = inode := by omega
  subst slot left' right'
  rw [if_neg (by omega)]
  have unused : ¬ left.InodeTaken inode := State.FirstFreeInode.unused first
  have taken := @Invariant.takeInode _ _ (newInode .tFile) inv first.2.1 unused first.1 (by decide)
    rfl rfl (fun impossible => by cases impossible)
  have alike' := alike.takeInode inode (.newInode .tFile)
  apply twins_bind (twins_addDirEntry alike' taken path.tail inode)
  rintro added left' right' (⟨rfl, sameLeft, sameRight⟩ | ⟨slot, rfl, rfl, rfl, short, dead⟩)
  · subst left' right'
    rw [if_pos rfl]
    apply twins_bind (twins_inodeDelete alike' inode)
    intro _ _ _ deleted
    exact twins_pure deleted
  · rw [if_neg (by decide)]
    exact twins_pure (alike'.bindEntry taken.linksPastDirectory short first.1 dead)

theorem twins_symLinkTarget (alike : Alike left right) (inv : Invariant left none) {inode : Nat}
    (taken : left.InodeTaken inode)
    (isSymLink : (left.inodeTable inode).iNodeType = .tSymLink) (nonzero : inode ≠ 0) :
    Twins (symLinkTarget inode left) (symLinkTarget inode right) (fun _ left' right' =>
      left' = left ∧ right' = right) := by
  obtain ⟨block, blockEq, _, _⟩ := inv.blocks.owned inode _
    (show left.OwnsBlock inode (left.inodeTable inode).iDataBlock from
      ⟨taken, rfl, fun isFile => by rw [isSymLink] at isFile; cases isFile⟩) nonzero
  have blockTaken := (inv.linkBlock taken isSymLink blockEq).2.1
  obtain ⟨target, _, inside, leftRead, rightRead⟩ :=
    (alike.bytes inode taken).symLink isSymLink block blockEq
  unfold symLinkTarget
  apply twins_get_bind
  rw [alike.inodes inode taken, blockEq]
  apply twins_bind (twins_dataBlockGet alike.toSameTables block)
  rintro address left' right' ⟨addressEq, sameLeft, sameRight⟩
  subst left' right'
  replace addressEq : address = block * left.blockSize :=
    addressEq.trans (inv.blockAddress blockTaken)
  subst address
  rw [alike.dataBytes,
    CString.ofMemory_eq_of_readBytes left.fsData _ _ target (by omega) leftRead,
    CString.ofMemory_eq_of_readBytes right.fsData _ _ target (by omega) rightRead]
  exact twins_pure ⟨rfl, rfl⟩

theorem twins_tfsOpenFuel (alike : Alike left right) (inv : Invariant left none)
    (mode : TfsFileMode) (fuel : Nat) (name : Option CString) :
    Twins (tfsOpenFuel fuel name mode left) (tfsOpenFuel fuel name mode right)
      (fun _ left' right' => Alike left' right') := by
  induction fuel generalizing name with
  | zero => exact twins_fail
  | succ fuel inductionHypothesis =>
      unfold tfsOpenFuel
      cases validPathname name with
      | none => exact twins_pure alike
      | some path =>
          apply twins_bind (twins_inodeGet alike.toSameTables rootDirInum)
          rintro root left' right' ⟨rootEq, sameLeft, sameRight⟩
          replace rootEq : root = 0 := rootEq
          subst root left' right'
          apply twins_bind ((twins_tfsLookup alike inv.root path).known
            (outcome_tfsLookup inv (Wide.any left).searchable path))
          rintro inum left' right' ⟨⟨_, looked⟩, sameLeft, sameRight⟩
          subst left' right'
          apply twins_ite Iff.rfl
          · intro found
            rcases looked with ⟨missing, _⟩ | ⟨inode, inumEq, binds⟩
            · omega
            subst inum
            obtain ⟨nonzero, taken⟩ := inv.binds_taken binds
            apply twins_bind (twins_inodeGet alike.toSameTables inode)
            rintro slot left' right' ⟨slotEq, sameLeft, sameRight⟩
            rw [Int.toNat_natCast] at slotEq
            subst slot left' right'
            apply twins_get_bind
            rw [alike.inodes inode taken]
            apply twins_require_bind Iff.rfl
            intro notDirectory
            apply twins_ite Iff.rfl
            · intro isSymLink
              apply twins_bind (twins_symLinkTarget alike inv taken isSymLink nonzero)
              rintro target left' right' ⟨sameLeft, sameRight⟩
              subst left' right'
              exact inductionHypothesis (some target)
            · intro notSymLink
              have isFile : (left.inodeTable inode).iNodeType = .tFile := by
                cases kind : (left.inodeTable inode).iNodeType with
                | tFile => rfl
                | tDirectory => exact (notDirectory kind).elim
                | tSymLink => exact (notSymLink kind).elim
              exact twins_openExisting alike inv taken nonzero isFile mode
          · intro _
            apply twins_ite Iff.rfl
            · intro _
              apply twins_bind (twins_createFile alike inv path)
              intro inum left' right' created
              apply twins_ite Iff.rfl
              · intro _
                exact twins_pure created
              · intro _
                exact twins_addToOpenFileTable created inum 0
            · intro _
              exact twins_pure alike

theorem twins_tfsOpen (alike : Alike left right) (inv : Invariant left none)
    (name : Option CString) (mode : TfsFileMode) :
    Twins (tfsOpen name mode left) (tfsOpen name mode right)
      (fun _ left' right' => Alike left' right') := by
  unfold tfsOpen
  apply twins_get_bind
  rw [alike.inodeTableSize]
  exact twins_tfsOpenFuel alike inv mode _ name

/-! ### Links -/

/-- The inode of a new link whose target was just stored -/
theorem Alike.symLinkTaken (alike : Alike left right) (inv : Invariant left none)
    {inode block : Nat} {target : CString} (first : left.FirstFreeBlock block)
    (short : target.strlen < left.blockSize)
    (inside : block * left.blockSize + target.strlen < left.dataBytes) :
    Alike ((left.targetStored block target).takeInode inode
        { newInode .tSymLink with iDataBlock := block })
      ((right.targetStored block target).takeInode inode
        { newInode .tSymLink with iDataBlock := block }) := by
  obtain ⟨nonzero, _⟩ := inv.freeBlock_address first
  have missed := inv.missesLinks_block (fun slot _ => inv.free_unowned first.2.2.1 nonzero slot)
    (show 0 + (target.bytes ++ [0]).length ≤ left.blockSize by
      rw [List.length_append, Nat.zero_add]
      exact short)
  have stored := (alike.setFreeBlock block .taken).store
    (State.dirEnd_le_blockAddress (left.setFreeBlock block .taken) nonzero) missed
  have sameAddress : right.targetStored block target =
      (right.setFreeBlock block .taken).store (block * left.blockSize) (target.bytes ++ [0]) := by
    unfold State.targetStored
    rw [alike.blockSize]
  have length : (target.bytes ++ [0]).length = target.strlen + 1 := by
    rw [List.length_append]
    rfl
  rw [sameAddress]
  refine stored.takeInode inode ⟨?_, ?_⟩
  · intro isFile
    cases isFile
  intro _ own ownEq
  have same : own = block := by
    change (block : Int) = (own : Int) at ownEq
    omega
  subst own
  refine ⟨target, short, inside, ?_, ?_⟩
  · rw [← length]
    exact ByteMemory.readBytes_writeBytes _ _ _
  · rw [← length]
    exact ByteMemory.readBytes_writeBytes _ _ _

theorem twins_tfsSymLink (alike : Alike left right) (inv : Invariant left none)
    (target link : Option CString)
    (short : ∀ path, target = some path → path.strlen < left.blockSize) :
    Twins (tfsSymLink target link left) (tfsSymLink target link right)
      (fun _ left' right' => Alike left' right') := by
  unfold tfsSymLink
  cases targetValidity : validPathname target with
  | none => exact twins_pure alike
  | some targetPath =>
      cases validPathname link with
      | none => exact twins_pure alike
      | some linkPath =>
          obtain ⟨rfl, _⟩ := validPathname_some targetValidity
          apply twins_ite Iff.rfl
          · intro _
            exact twins_pure alike
          intro _
          apply twins_bind ((twins_inodeCreate alike (by decide)).known
            (outcome_inodeCreate (by decide) inv.geometry.blockSizePos (Wide.any left).inodesReached))
          rintro result left' right' ⟨created, states⟩
          rcases states with ⟨rfl, sameLeft, sameRight⟩ | ⟨inode, rfl, sameLeft, sameRight⟩
          · subst left' right'
            rw [if_pos rfl]
            exact twins_pure alike
          rcases created with ⟨impossible, _, _⟩ | ⟨slot, slotEq, _, firstInode⟩
          · omega
          have same : slot = inode := by omega
          subst slot left' right'
          rw [if_neg (by omega)]
          have alike' := alike.takeInode inode (.newInode .tSymLink)
          apply twins_bind (twins_inodeGet alike'.toSameTables inode)
          rintro slot left' right' ⟨slotEq, sameLeft, sameRight⟩
          rw [Int.toNat_natCast] at slotEq
          subst slot left' right'
          apply twins_bind ((twins_dataBlockAlloc alike'.toSameTables).known
            (@outcome_dataBlockAlloc _ (left.takeInode inode (newInode .tSymLink))
              inv.geometry.blockSizePos (Wide.any _).blocksReached))
          rintro result left' right' ⟨allocated, states⟩
          rcases states with ⟨rfl, sameLeft, sameRight⟩ | ⟨block, rfl, sameLeft, sameRight⟩
          · subst left' right'
            rw [if_pos rfl]
            apply twins_bind (twins_inodeDelete alike' inode)
            intro _ _ _ deleted
            exact twins_pure deleted
          rcases allocated with ⟨impossible, _, _⟩ | ⟨slot, slotEq, _, firstBlock⟩
          · omega
          have same : slot = block := by omega
          subst slot left' right'
          rw [if_neg (by omega)]
          obtain ⟨_, address⟩ := inv.freeBlock_address firstBlock
          apply twins_modify_bind
          have atInode (state : State) : ((state.takeInode inode (newInode .tSymLink)).setFreeBlock
              block .taken).inodeTable inode = newInode .tSymLink := State.setInode_apply_self _ _
          rw [atInode left, atInode right]
          have tables : SameTables
              (((left.takeInode inode (newInode .tSymLink)).setFreeBlock block .taken).setInode
                inode { newInode .tSymLink with iDataBlock := block })
              (((right.takeInode inode (newInode .tSymLink)).setFreeBlock block .taken).setInode
                inode { newInode .tSymLink with iDataBlock := block }) :=
            { (alike'.setFreeBlock block .taken).toSameTables with }
          apply twins_bind (twins_dataBlockGet tables block)
          rintro base left' right' ⟨baseEq, sameLeft, sameRight⟩
          subst left' right'
          replace baseEq : base = block * left.blockSize := baseEq.trans address
          subst base
          have rightStored := @State.symLinkTaken_eq right inode block targetPath
          rw [alike.blockSize] at rightStored
          apply twins_bind (@twins_storeBytes _ _ tables _ _ (fun _ left' right' =>
            block * left.blockSize + targetPath.strlen < left.dataBytes ∧
            left' = (left.targetStored block targetPath).takeInode inode
              { newInode .tSymLink with iDataBlock := block } ∧
            right' = (right.targetStored block targetPath).takeInode inode
              { newInode .tSymLink with iDataBlock := block }) ?_)
          · rintro _ left' right' ⟨inside, sameLeft, sameRight⟩
            subst left' right'
            have linked := @Alike.symLinkTaken _ _ alike inv inode block targetPath firstBlock
              (short targetPath rfl) inside
            have taken := inv.symLinkTaken firstInode firstBlock inside
            apply twins_bind (twins_inodeGet linked.toSameTables rootDirInum)
            rintro root left' right' ⟨rootEq, sameLeft, sameRight⟩
            replace rootEq : root = 0 := rootEq
            subst root left' right'
            apply twins_bind (twins_addDirEntry linked taken linkPath.tail inode)
            rintro added left' right' (⟨rfl, sameLeft, sameRight⟩ |
              ⟨slot, rfl, rfl, rfl, valid, dead⟩)
            · subst left' right'
              rw [if_pos rfl]
              apply twins_bind (twins_inodeDelete linked inode)
              intro _ _ _ deleted
              exact twins_pure deleted
            · rw [if_neg (by decide)]
              exact twins_pure (linked.bindEntry taken.linksPastDirectory valid firstInode.1 dead)
          · intro inside
            rw [List.length_append] at inside
            exact ⟨inside, State.symLinkTaken_eq inode block targetPath, rightStored⟩

theorem Alike.setLinks (alike : Alike left right) {slot : Nat} (taken : left.InodeTaken slot)
    (links : Nat) : Alike (left.setLinks slot links) (right.setLinks slot links) := by
  unfold State.setLinks
  rw [alike.inodes slot taken]
  exact alike.setInode slot (fun _ => (alike.bytes slot taken).setLinks links)

theorem twins_tfsLink (alike : Alike left right) (inv : Invariant left none)
    (target link : Option CString) :
    Twins (tfsLink target link left) (tfsLink target link right)
      (fun _ left' right' => Alike left' right') := by
  unfold tfsLink
  cases validPathname target with
  | none => exact twins_pure alike
  | some targetPath =>
      cases validPathname link with
      | none => exact twins_pure alike
      | some linkPath =>
          apply twins_bind (twins_inodeGet alike.toSameTables rootDirInum)
          rintro root left' right' ⟨rootEq, sameLeft, sameRight⟩
          replace rootEq : root = 0 := rootEq
          subst root left' right'
          apply twins_bind ((twins_tfsLookup alike inv.root targetPath).known
            (outcome_tfsLookup inv (Wide.any left).searchable targetPath))
          rintro inum left' right' ⟨⟨_, looked⟩, sameLeft, sameRight⟩
          subst left' right'
          apply twins_ite Iff.rfl
          · intro _
            exact twins_pure alike
          intro found
          rcases looked with ⟨missing, _⟩ | ⟨inode, inumEq, binds⟩
          · exact (found missing).elim
          subst inum
          obtain ⟨_, taken⟩ := inv.binds_taken binds
          have fits := inv.inodes.fits inode taken
          apply twins_bind ((twins_addDirEntry alike inv linkPath.tail inode).known
            (outcome_addDirEntry inv.root inv.geometry taken.1))
          rintro added left' right' ⟨entered, states⟩
          rcases states with ⟨rfl, sameLeft, sameRight⟩ |
            ⟨slot, rfl, sameLeft, sameRight, short, dead⟩
          · subst left' right'
            rw [if_pos rfl]
            exact twins_pure alike
          have unbound : left.Unbound linkPath.tail := by
            rcases entered with ⟨impossible, _, _⟩ | ⟨_, _, _, _, unbound, _⟩
            · omega
            · exact unbound
          subst left' right'
          rw [if_neg (by decide)]
          have bound := alike.bindEntry inv.linksPastDirectory short fits dead
          apply twins_bind (twins_inodeGet bound.toSameTables inode)
          rintro position left' right' ⟨positionEq, sameLeft, sameRight⟩
          rw [Int.toNat_natCast] at positionEq
          subst position left' right'
          apply twins_get_bind
          rw [bound.inodes inode taken]
          apply twins_ite Iff.rfl
          · intro _
            have live := (@State.bindEntry_live left slot slot _ _ short fits dead.1).mpr (Or.inl rfl)
            have named := (State.bindEntry_entryNamed left slot slot linkPath.tail linkPath.tail
              inode short short).mpr (by rw [if_pos rfl])
            apply twins_bind (@twins_clearDirEntry (left.bindEntry slot linkPath.tail inode) _ bound
              { inv.root with } _ _ short live named
              (State.bindEntry_named_before short unbound dead))
            rintro _ left' right' ⟨rfl, sameLeft, sameRight⟩
            subst left' right'
            exact twins_pure (bound.scrubEntry inv.linksPastDirectory dead.1)
          · intro _
            apply twins_modify_bind
            rw [bound.inodes inode taken]
            exact twins_pure (bound.setInode inode (fun _ =>
              (bound.bytes inode taken).setLinks _))

theorem twins_dropHardLink (alike : Alike left right) {inode : Nat}
    (taken : left.InodeTaken inode) :
    Twins (dropHardLink inode inode left) (dropHardLink inode inode right)
      (fun _ left' right' => Alike left' right') := by
  unfold dropHardLink
  apply twins_modify_bind
  have dropped := alike.setInode inode (fun _ => (alike.bytes inode taken).setLinks
    (sizeSub (left.inodeTable inode).iHardLinks 1))
  rw [alike.inodes inode taken]
  apply twins_get_bind
  apply twins_bind (twins_isFileOpen dropped inode)
  rintro stillOpen left' right' ⟨sameLeft, sameRight⟩
  subst left' right'
  rw [dropped.inodes inode taken]
  apply twins_ite Iff.rfl
  · intro _
    exact twins_inodeDelete dropped inode
  · intro _
    exact twins_pure dropped

theorem twins_tfsUnlink (alike : Alike left right) (inv : Invariant left none)
    (target : Option CString) :
    Twins (tfsUnlink target left) (tfsUnlink target right)
      (fun _ left' right' => Alike left' right') := by
  unfold tfsUnlink
  cases validPathname target with
  | none => exact twins_pure alike
  | some path =>
      apply twins_bind (twins_inodeGet alike.toSameTables rootDirInum)
      rintro root left' right' ⟨rootEq, sameLeft, sameRight⟩
      replace rootEq : root = 0 := rootEq
      subst root left' right'
      apply twins_bind ((twins_tfsLookup alike inv.root path).known
        (outcome_tfsLookup inv (Wide.any left).searchable path))
      rintro inum left' right' ⟨⟨_, looked⟩, sameLeft, sameRight⟩
      subst left' right'
      apply twins_ite Iff.rfl
      · intro _
        exact twins_pure alike
      intro found
      rcases looked with ⟨missing, _⟩ | ⟨inode, inumEq, binds⟩
      · exact (found missing).elim
      subst inum
      obtain ⟨_, taken⟩ := inv.binds_taken binds
      obtain ⟨short, slot, live, named, _⟩ := binds
      apply twins_bind (twins_inodeGet alike.toSameTables inode)
      rintro position left' right' ⟨positionEq, sameLeft, sameRight⟩
      rw [Int.toNat_natCast] at positionEq
      subst position left' right'
      apply twins_get_bind
      rw [alike.inodes inode taken]
      apply twins_require_bind Iff.rfl
      intro _
      apply twins_bind (twins_clearDirEntry alike inv.root short live named
        (inv.directory.named_before short live named))
      rintro _ left' right' ⟨rfl, sameLeft, sameRight⟩
      subst left' right'
      rw [if_neg (by decide)]
      have scrubbed := alike.scrubEntry inv.linksPastDirectory live.1
      apply twins_bind (twins_dropHardLink scrubbed taken)
      intro _ _ _ dropped
      exact twins_pure dropped

/-! ### Importing -/

theorem twins_copyChunks (alike : Alike left right) (inv : Invariant left none)
    (destFile : Int) (chunks : List (List UInt8))
    (bounded : ∀ chunk, chunk ∈ chunks → chunk.length + left.blockSize < 2 ^ 64) :
    Twins (copyChunks destFile chunks left) (copyChunks destFile chunks right)
      (fun _ left' right' => Alike left' right' ∧ Invariant left' none) := by
  induction chunks generalizing left right with
  | nil => exact twins_pure ⟨alike, inv⟩
  | cons chunk rest inductionHypothesis =>
      unfold copyChunks
      apply twins_ite Iff.rfl
      · intro _
        exact twins_pure ⟨alike, inv⟩
      intro _
      have range := bounded chunk List.mem_cons_self
      have written : Twins (tfsWrite destFile (some chunk) chunk.length left)
          (tfsWrite destFile (some chunk) chunk.length right)
          (fun _ left' right' => Alike left' right') :=
        twins_writeToOpenFile alike inv destFile (some chunk) chunk.length (fun _ _ => range)
      apply twins_bind (written.known (outcome_tfsWrite inv (Wide.any left) destFile (some chunk)
        chunk.length (fun _ _ => Or.inl trivial)))
      rintro result left' right' ⟨effect, alike'⟩
      have inv' := effect.invariant inv
      have same : left'.blockSize = left.blockSize := congrArg TfsParams.blockSize effect.fsParams
      apply twins_ite Iff.rfl
      · intro _
        exact twins_pure ⟨alike', inv'⟩
      · intro _
        refine inductionHypothesis alike' inv' ?_
        rw [same]
        exact fun other member => bounded other (List.mem_cons_of_mem _ member)

theorem twins_tfsCopyFromExternalFs (alike : Alike left right) (inv : Invariant left none)
    (sourcePath : Option CString) (sourceFile : Option ExternalFile) (destPath : Option CString)
    (bounded : ∀ source, sourceFile = some source →
      ∀ chunk, chunk ∈ source.chunks → chunk.length + left.blockSize < 2 ^ 64) :
    Twins (tfsCopyFromExternalFs sourcePath sourceFile destPath left)
      (tfsCopyFromExternalFs sourcePath sourceFile destPath right)
      (fun _ left' right' => Alike left' right') := by
  unfold tfsCopyFromExternalFs
  apply twins_ite Iff.rfl
  · intro _
    exact twins_pure alike
  intro _
  cases sourceFile with
  | none => exact twins_pure alike
  | some source =>
      apply twins_bind ((twins_tfsOpen alike inv destPath _).known (outcome_tfsOpen inv
        (Wide.any left) (Or.inl trivial) destPath _ (fun _ _ _ => trivial)))
      rintro destFile left' right' ⟨effect, opened⟩
      have same : left'.blockSize = left.blockSize := congrArg TfsParams.blockSize effect.fsParams
      apply twins_ite Iff.rfl
      · intro _
        exact twins_pure opened
      intro _
      apply twins_bind (twins_copyChunks opened (effect.invariant inv) destFile source.chunks
        (by rw [same]; exact bounded source rfl))
      rintro copied left'' right'' ⟨written, inv''⟩
      have removed : Twins (tfsClose destFile left'') (tfsClose destFile right'')
          (fun _ left' right' => Alike left' right') :=
        twins_removeFromOpenFileTable written inv'' destFile
      apply twins_bind removed
      intro closed _ _ last
      apply twins_ite Iff.rfl
      · intro _
        exact twins_pure last
      · intro _
        exact twins_pure last

/-! ### Every call -/

/-- The write lengths do not wrap around and the target fits a block. -/
def Call.InRange (blockSize : Nat) : Call → Prop
  | .tfsWrite _ _ toWrite => toWrite + blockSize < 2 ^ 64
  | .tfsSymLink (some target) _ => target.strlen < blockSize
  | .tfsCopyFromExternalFs _ (some source) _ =>
      ∀ chunk, chunk ∈ source.chunks → chunk.length + blockSize < 2 ^ 64
  | _ => True

theorem twins_call (alike : Alike left right) (inv : Invariant left none) (call : Call)
    (inRange : call.InRange left.blockSize) :
    Twins (call.run left) (call.run right) (fun _ left' right' => Alike left' right') := by
  have returned {action : TfsAction Int}
      (twins : Twins (action left) (action right) (fun _ left' right' => Alike left' right')) :
      Twins ((do pure ⟨← action, []⟩ : TfsAction CallResult) left)
        ((do pure ⟨← action, []⟩ : TfsAction CallResult) right)
        (fun _ left' right' => Alike left' right') :=
    twins_bind twins (fun _ _ _ after => twins_pure after)
  cases call with
  | tfsOpen name mode => exact returned (twins_tfsOpen alike inv name mode)
  | tfsClose fhandle => exact returned (twins_removeFromOpenFileTable alike inv fhandle)
  | tfsWrite fhandle buffer toWrite =>
      exact returned (twins_writeToOpenFile alike inv fhandle buffer toWrite (fun _ _ => inRange))
  | tfsRead fhandle buffered len => exact twins_readFromOpenFile alike inv fhandle buffered len
  | tfsSymLink target link =>
      refine returned (twins_tfsSymLink alike inv target link ?_)
      rintro path rfl
      exact inRange
  | tfsLink target link => exact returned (twins_tfsLink alike inv target link)
  | tfsUnlink target => exact returned (twins_tfsUnlink alike inv target)
  | tfsCopyFromExternalFs sourcePath sourceFile destPath =>
      refine returned (twins_tfsCopyFromExternalFs alike inv sourcePath sourceFile destPath ?_)
      rintro source rfl
      exact inRange

end TecnicoFS.FileSystem
