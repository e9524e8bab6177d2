/-
Every effect of a public call restores the invariant.
-/

import TecnicoFS.FileSystem.LinkSpec

set_option autoImplicit false

namespace TecnicoFS.FileSystem

variable {state : State} {slack : Slack}

/-! ### Deleting and truncating -/

theorem State.releaseBlock_empty {slot : Nat} (empty : (state.inodeTable slot).iSize = 0) :
    state.releaseBlock slot = state := by
  unfold State.releaseBlock
  rw [if_neg (by omega)]

theorem State.releaseBlock_nonempty {slot block : Nat}
    (nonempty : 0 < (state.inodeTable slot).iSize)
    (blockEq : (state.inodeTable slot).iDataBlock = (block : Int)) :
    state.releaseBlock slot = state.setFreeBlock block .free := by
  unfold State.releaseBlock
  rw [if_pos nonempty, blockEq, Int.toNat_natCast]

/-- `inode_delete` on an inode without entries and handles -/
theorem Invariant.deleteInode {slot links : Nat} (inv : Invariant state (some (slot, links)))
    (uncounted : state.entryCount slot = 0) (unopened : ¬ state.IsOpen slot) :
    Invariant (state.deleteInode slot) none := by
  obtain ⟨taken, nonzero⟩ := inv.counts.slackTaken slot rfl
  have dropped := @Invariant.dropInode _ _ _
    { state.inodeTable slot with iSize := 0, iDataBlock := -1, iHardLinks := 1 } inv uncounted
    unopened
  unfold State.deleteInode
  by_cases nonempty : 0 < (state.inodeTable slot).iSize
  · obtain ⟨block, blockEq, blockNonzero, _, owns⟩ := inv.backed taken nonzero nonempty
    rw [State.releaseBlock_nonempty nonempty blockEq]
    -- The block is given back first, but nothing in between looks at it.
    refine @Invariant.freeBlock _ _ block dropped blockNonzero ?_
    rintro owner ⟨ownerTaken, ownerBlock, ownerNonempty⟩
    have kept := State.dropInode_taken.mp ownerTaken
    have unchanged : (state.dropInode slot { state.inodeTable slot with
        iSize := 0, iDataBlock := -1, iHardLinks := 1 }).inodeTable owner =
          state.inodeTable owner := Function.update_of_ne kept.1 _ _
    rw [unchanged] at ownerBlock ownerNonempty
    exact kept.1 (inv.blocks.exclusive owner slot block ⟨kept.2, ownerBlock, ownerNonempty⟩ owns)
  · rw [State.releaseBlock_empty (by omega)]
    exact dropped

theorem Invariant.truncated (inv : Invariant state none) {inode : Nat}
    (taken : state.InodeTaken inode) (nonzero : inode ≠ 0)
    (isFile : (state.inodeTable inode).iNodeType = .tFile) (mode : TfsFileMode) :
    Invariant (state.truncated inode mode) none := by
  unfold State.truncated
  by_cases truncates : mode.tfsOTrunc = true ∧ 0 < (state.inodeTable inode).iSize
  · rw [if_pos truncates]
    obtain ⟨block, blockEq, blockNonzero, _, owns⟩ := inv.backed taken nonzero truncates.2
    rw [State.releaseBlock_nonempty truncates.2 blockEq]
    have emptied := @Invariant.resizeFile _ _ _ _ ((state.inodeTable inode).iDataBlock) inv isFile
      (Nat.zero_le _) (fun impossible => (Nat.lt_irrefl 0 impossible).elim)
    refine @Invariant.freeBlock _ _ block emptied blockNonzero ?_
    rintro owner ⟨ownerTaken, ownerBlock, ownerNonempty⟩
    by_cases same : owner = inode
    · subst owner
      rw [State.resizeFile, State.setInode_apply_self] at ownerNonempty
      exact Nat.lt_irrefl 0 (ownerNonempty isFile)
    · rw [State.resizeFile, State.setInode_apply_of_ne _ same] at ownerBlock ownerNonempty
      exact same (inv.blocks.exclusive owner inode block
        ⟨ownerTaken, ownerBlock, ownerNonempty⟩ owns)
  · rw [if_neg truncates]
    exact inv

theorem State.truncated_params {inode : Nat} {mode : TfsFileMode} :
    (state.truncated inode mode).blockSize = state.blockSize := by
  unfold State.truncated State.releaseBlock
  split
  · split <;> rfl
  · rfl

theorem State.truncated_type {inode other : Nat} {mode : TfsFileMode} :
    ((state.truncated inode mode).inodeTable other).iNodeType =
      (state.inodeTable other).iNodeType := by
  unfold State.truncated
  split
  · unfold State.resizeFile
    have released : (state.releaseBlock inode).inodeTable = state.inodeTable := by
      unfold State.releaseBlock
      split <;> rfl
    by_cases same : other = inode
    · subst other
      rw [State.setInode_apply_self, released]
    · rw [State.setInode_apply_of_ne _ same, released]
  · rfl

/-! ### Opening and closing -/

theorem HandleEffect.invariant {inode offset : Nat} {result : Int} {state' : State}
    (effect : HandleEffect state inode offset result state') (inv : Invariant state none)
    (taken : state.InodeTaken inode) (nonzero : inode ≠ 0)
    (isFile : (state.inodeTable inode).iNodeType = .tFile)
    (bounded : offset ≤ state.blockSize) : Invariant state' none := by
  cases effect with
  | full _ => exact inv
  | opened first =>
      refine inv.openHandle first.2.1 ?_ first.1 nonzero taken isFile bounded
      rintro ⟨_, opened⟩
      rw [first.2.2.1] at opened
      cases opened

theorem State.FirstFreeInode.unused {inode : Nat} (first : state.FirstFreeInode inode) :
    ¬ state.InodeTaken inode := by
  rintro ⟨_, taken⟩
  rw [first.2.2.1] at taken
  cases taken

theorem Invariant.created (inv : Invariant state none) {inode slot : Nat} {name : CString}
    (first : state.FirstFreeInode inode) (short : validSubName name)
    (unbound : state.Unbound name) (dead : state.FirstDead slot) :
    Invariant (state.created inode slot name) none := by
  have taken := @Invariant.takeInode _ _ (newInode .tFile) inv first.2.1 first.unused first.1
    (by decide) rfl rfl (fun impossible => by cases impossible)
  exact taken.bindEntry short dead.1 dead.2.1 dead.2.2 unbound

theorem Invariant.initialOffset_le (inv : Invariant state none) {inode : Nat}
    (taken : state.InodeTaken inode) (nonzero : inode ≠ 0)
    (isFile : (state.inodeTable inode).iNodeType = .tFile) (mode : TfsFileMode) :
    state.initialOffset inode mode ≤ state.blockSize := by
  unfold State.initialOffset
  split
  · have truncated := inv.truncated taken nonzero isFile mode
    have bounded := truncated.inodes.fileSize inode (State.truncated_taken.mpr taken)
      (State.truncated_type.trans isFile)
    rwa [State.truncated_params] at bounded
  · exact Nat.zero_le _

theorem OpenEffect.invariant {path : CString} {mode : TfsFileMode} {result : Int}
    {state' : State} (effect : OpenEffect state path mode result state')
    (inv : Invariant state none) : Invariant state' none := by
  cases effect with
  | invalid _ => exact inv
  | missing _ _ _ => exact inv
  | noInode _ _ _ _ => exact inv
  | refused _ _ _ first _ => exact inv.setInode_of_free first.unused
  | existing _ binds isFile handle =>
      obtain ⟨nonzero, taken⟩ := inv.binds_taken binds
      refine handle.invariant (inv.truncated taken nonzero isFile mode)
        (State.truncated_taken.mpr taken) nonzero (State.truncated_type.trans isFile) ?_
      rw [State.truncated_params]
      exact inv.initialOffset_le taken nonzero isFile mode
  | created _ unbound _ first short dead handle =>
      refine handle.invariant (inv.created first short unbound dead)
        (State.created_taken first.2.1) ?_ ?_ (Nat.zero_le _)
      · intro zero
        subst zero
        exact first.unused inv.root.inodeTaken
      · exact congrArg Inode.iNodeType (State.setInode_apply_self _ _)

theorem CloseEffect.invariant {fhandle result : Int} {state' : State}
    (effect : CloseEffect state fhandle result state') (inv : Invariant state none) :
    Invariant state' none := by
  cases effect with
  | invalid _ => exact inv
  | @deleted handle inode same opened refers unlinked unopened =>
      have closed := inv.closeHandle opened refers
      obtain ⟨taken, nonzero⟩ := closed.counts.slackTaken inode rfl
      have counted := closed.counts.linkCount inode taken nonzero
      rw [show ((state.closeHandle handle).inodeTable inode).iHardLinks = 0 from unlinked] at counted
      exact closed.deleteInode (by omega) unopened
  | @kept handle inode same opened refers used =>
      have closed := inv.closeHandle opened refers
      obtain ⟨taken, nonzero⟩ := closed.counts.slackTaken inode rfl
      have counted := closed.counts.linkCount inode taken nonzero
      refine closed.settle (used.imp ?_ id)
      intro linked uncounted
      rw [uncounted] at counted
      simp only [Slack.extra, if_pos, Nat.add_zero] at counted
      exact linked counted

/-! ### Reading and writing -/

theorem ReadEffect.invariant {handle inode len : Nat} {result : ReadResult} {state' : State}
    (effect : ReadEffect state handle inode len result state') (inv : Invariant state none)
    (opened : state.HandleTaken handle)
    (refers : (state.openFileTable handle).ofInumber = (inode : Int)) :
    Invariant state' none := by
  have clamped := @Invariant.clamped_le _ inv _ inode opened
  obtain ⟨held, holds, _, taken, isFile⟩ := inv.holders.handleHolds handle opened
  have same : held = inode := by omega
  subst held
  have bounded := inv.inodes.fileSize inode taken isFile
  cases effect with
  | nothing _ => exact inv.setOffset clamped
  | bytes _ _ _ => exact inv.setOffset (by omega)

/-- Bytes written into the file's own block -/
theorem Invariant.written (inv : Invariant state none) {handle inode block offset : Nat}
    {bytes : List UInt8} (isFile : (state.inodeTable inode).iNodeType = .tFile)
    (taken : state.InodeTaken inode) (nonzero : block ≠ 0) (blockTaken : state.BlockTaken block)
    (own : ∀ owner, state.OwnsBlock owner (block : Int) → owner = inode)
    (bounded : offset + bytes.length ≤ state.blockSize) :
    Invariant (state.written handle inode block offset bytes) none := by
  have dirEnd := state.dirEnd_le_blockAddress nonzero
  have stored := @Invariant.store _ _ (block * state.blockSize + offset) bytes inv (by omega)
  have size := inv.inodes.fileSize inode taken isFile
  exact (stored.resizeFile isFile (Nat.max_le.mpr ⟨size, bounded⟩)
    (fun _ => ⟨block, rfl, nonzero, blockTaken, own⟩)).setOffset bounded

theorem WriteEffect.invariant {handle inode toWrite : Nat} {data : List UInt8} {result : Int}
    {state' : State} (effect : WriteEffect state handle inode data toWrite result state')
    (inv : Invariant state none) (opened : state.HandleTaken handle)
    (refers : (state.openFileTable handle).ofInumber = (inode : Int)) :
    Invariant state' none := by
  have clamped := @Invariant.clamped_le _ inv _ inode opened
  obtain ⟨held, holds, nonzero, taken, isFile⟩ := inv.holders.handleHolds handle opened
  have same : held = inode := by omega
  subst held
  cases effect with
  | nothing _ => exact inv.setOffset clamped
  | noBlock _ _ _ => exact inv.setOffset clamped
  | @grown block length something cut covered empty first inside =>
      have blockNonzero := (inv.freeBlock_address first).1
      refine (inv.takeBlock first.1 inside).written isFile taken blockNonzero
        ⟨first.2.1, Function.update_self _ _ _⟩ ?_ ?_
      · intro owner owns
        exact (inv.free_unowned first.2.2.1 blockNonzero owner owns).elim
      · rw [List.length_take]
        change _ ≤ state.blockSize
        omega
  | @overwritten block length something cut covered nonempty blockEq =>
      obtain ⟨own, ownEq, ownNonzero, ownTaken, owns⟩ := inv.backed taken nonzero nonempty
      have same : own = block := by omega
      subst own
      refine inv.written isFile taken ownNonzero ownTaken ?_ ?_
      · intro owner ownerOwns
        exact inv.blocks.exclusive owner inode block ownerOwns owns
      · rw [List.length_take]
        omega

/-! ### Links -/

theorem SymLinkEffect.invariant {target link : CString} {result : Int} {state' : State}
    (effect : SymLinkEffect state target link result state') (inv : Invariant state none) :
    Invariant state' none := by
  cases effect with
  | same _ => exact inv
  | noInode _ => exact inv
  | noBlock first _ => exact inv.setInode_of_free first.unused
  | refused _ firstInode firstBlock inside _ =>
      exact (inv.targetStored firstBlock inside).setInode_of_free firstInode.unused
  | @linked inode block slot _ firstInode firstBlock inside short unbound dead =>
      have nonzero := (inv.freeBlock_address firstBlock).1
      have same := @State.sameEntries_store state _ (target.bytes ++ [0])
        (State.dirEnd_le_blockAddress state nonzero)
      have dead' := same.firstDead.mpr dead
      exact (inv.symLinkTaken firstInode firstBlock inside).bindEntry short dead'.1 dead'.2.1
        dead'.2.2 ((same.unbound short).mpr unbound)

theorem LinkEffect.invariant {target link : CString} {result : Int} {state' : State}
    (effect : LinkEffect state target link result state') (inv : Invariant state none) :
    Invariant state' none := by
  cases effect with
  | missing _ => exact inv
  | refused _ _ => exact inv
  | symLink binds _ short _ dead =>
      obtain ⟨_, taken⟩ := inv.binds_taken binds
      exact inv.scrub_bind short (inv.inodes.fits _ taken) dead.2.1
  | @linked inode slot binds _ short unbound dead =>
      obtain ⟨nonzero, taken⟩ := inv.binds_taken binds
      have counted := inv.counts.linkCount inode taken nonzero
      have next : sizeAdd (state.inodeTable inode).iHardLinks 1 = state.entryCount inode + 1 := by
        rw [counted]
        exact sizeAdd_of_lt (state.entryCount_lt inode)
      have linked := @Invariant.setLinks _ _ inode 1 inv (fun _ impossible => impossible.elim) taken
        nonzero
      rw [next]
      exact linked.bindEntry short dead.1 dead.2.1 dead.2.2 unbound

/-- One entry of the inode removed and its link count lowered, nothing settled yet -/
theorem Invariant.linkDropped (inv : Invariant state none) {inode slot : Nat}
    (live : state.EntryLive slot) (holds : state.entryInumber slot = (inode : Int)) :
    Invariant ((state.scrubEntry slot).linkDropped inode) (some (inode, 0)) ∧
      sizeSub (state.inodeTable inode).iHardLinks 1 = (state.scrubEntry slot).entryCount inode := by
  have scrubbed := inv.scrubEntry live holds
  obtain ⟨taken, nonzero⟩ := scrubbed.counts.slackTaken inode rfl
  have counted := scrubbed.counts.linkCount inode taken nonzero
  simp only [Slack.extra, if_pos] at counted
  have range := (state.scrubEntry slot).entryCount_lt inode
  have lowered : sizeSub (state.inodeTable inode).iHardLinks 1 =
      (state.scrubEntry slot).entryCount inode := by
    rw [show (state.inodeTable inode).iHardLinks = _ from counted,
      sizeSub_of_le (Nat.le_add_left _ _) range, Nat.add_sub_cancel]
  refine ⟨?_, lowered⟩
  have dropped := @Invariant.setLinks _ _ inode 0 scrubbed (fun _ exempt => exempt.symm) taken
    nonzero
  unfold State.linkDropped
  rw [show sizeSub ((state.scrubEntry slot).inodeTable inode).iHardLinks 1 = _ from lowered]
  exact dropped

theorem UnlinkEffect.invariant {target : CString} {result : Int} {state' : State}
    (effect : UnlinkEffect state target result state') (inv : Invariant state none) :
    Invariant state' none := by
  cases effect with
  | missing _ => exact inv
  | deleted _ live _ holds unlinked unopened =>
      obtain ⟨dropped, lowered⟩ := inv.linkDropped live holds
      exact dropped.deleteInode (lowered.symm.trans unlinked) unopened
  | kept _ live _ holds used =>
      obtain ⟨dropped, lowered⟩ := inv.linkDropped live holds
      refine dropped.settle (used.imp ?_ id)
      intro linked uncounted
      exact linked (lowered.trans uncounted)

/-! ### Calls and traces -/

theorem CallEffect.invariant {call : Call} {result : CallResult} {state' : State}
    (effect : CallEffect state call result state') (inv : Invariant state none) :
    Invariant state' none := by
  cases effect with
  | openNull _ => exact inv
  | opens _ opened => exact opened.invariant inv
  | closes closed => exact closed.invariant inv
  | writeRefused _ _ => exact inv
  | writes opened refers written => exact written.invariant inv opened refers
  | readRefused _ _ => exact inv
  | reads opened refers read => exact read.invariant inv opened refers
  | symLinkInvalid _ => exact inv
  | symLinks _ _ linked => exact linked.invariant inv
  | linkInvalid _ => exact inv
  | links _ _ linked => exact linked.invariant inv
  | unlinkInvalid _ => exact inv
  | unlinks _ unlinked => exact unlinked.invariant inv

theorem TraceEffect.invariant {trace : List (Call × CallResult)} {state' : State}
    (effects : TraceEffect state trace state') (inv : Invariant state none) :
    Invariant state' none := by
  induction effects with
  | nil _ => exact inv
  | cons effect _ inductionHypothesis => exact inductionHypothesis (effect.invariant inv)

theorem TraceEffect.append {middle state' : State} {first second : List (Call × CallResult)}
    (firstEffects : TraceEffect state first middle)
    (secondEffects : TraceEffect middle second state') :
    TraceEffect state (first ++ second) state' := by
  induction firstEffects with
  | nil _ => exact secondEffects
  | cons effect _ inductionHypothesis => exact .cons effect (inductionHypothesis secondEffects)

end TecnicoFS.FileSystem
