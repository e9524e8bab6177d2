/-
A public call as a trace of effects.

`tfs_copy_from_external_fs` opens, writes and closes through the other public
operations, so its trace is a list of their calls; every other call is a trace of
one.
-/

import TecnicoFS.FileSystem.EffectInvariant

set_option autoImplicit false

namespace TecnicoFS.FileSystem

open FaultAction TableSearch

variable {faults : Fault → Prop} {state : State}

/-! ### The sizes never change -/

theorem State.truncated_fsParams {inode : Nat} {mode : TfsFileMode} :
    (state.truncated inode mode).fsParams = state.fsParams := by
  unfold State.truncated State.releaseBlock
  split
  · split <;> rfl
  · rfl

theorem State.deleteInode_fsData {inode : Nat} :
    (state.deleteInode inode).fsData = state.fsData := by
  unfold State.deleteInode State.releaseBlock
  split <;> rfl

theorem State.deleteInode_fsParams {inode : Nat} :
    (state.deleteInode inode).fsParams = state.fsParams := by
  unfold State.deleteInode State.releaseBlock
  split <;> rfl

theorem HandleEffect.fsParams {inode offset : Nat} {result : Int} {state' : State}
    (effect : HandleEffect state inode offset result state') :
    state'.fsParams = state.fsParams := by
  cases effect with
  | full _ => rfl
  | opened _ => rfl

theorem CallEffect.fsParams {call : Call} {result : CallResult} {state' : State}
    (effect : CallEffect state call result state') : state'.fsParams = state.fsParams := by
  cases effect with
  | opens _ opened =>
      cases opened with
      | existing _ _ _ handle => exact handle.fsParams.trans State.truncated_fsParams
      | created _ _ _ _ _ _ handle => exact handle.fsParams
      | _ => rfl
  | closes closed =>
      cases closed with
      | deleted _ _ _ _ _ => exact State.deleteInode_fsParams
      | _ => rfl
  | writes _ _ written => cases written <;> rfl
  | reads _ _ read => cases read <;> rfl
  | symLinks _ _ linked => cases linked <;> rfl
  | links _ _ linked => cases linked <;> rfl
  | unlinks _ unlinked =>
      cases unlinked with
      | deleted _ _ _ _ _ _ => exact State.deleteInode_fsParams
      | _ => rfl
  | _ => rfl

theorem TraceEffect.fsParams {trace : List (Call × CallResult)} {state' : State}
    (effects : TraceEffect state trace state') : state'.fsParams = state.fsParams := by
  induction effects with
  | nil _ => rfl
  | cons effect _ inductionHypothesis => exact inductionHypothesis.trans effect.fsParams

theorem Wide.of_fsParams {state' : State} (wide : Wide faults state)
    (same : state'.fsParams = state.fsParams) : Wide faults state' := by
  refine wide.imp id ?_
  intro fits
  unfold State.Fits State.inodeTableSize State.dataBlocks State.maxOpenFiles State.maxDirEntries
    State.blockSize at fits ⊢
  rw [same]
  exact fits

/-! ### Copying -/

theorem outcome_copyChunks (inv : Invariant state none) (wide : Wide faults state)
    (destFile : Int) (chunks : List (List UInt8))
    (bounded : faults .undefined ∨
      ∀ chunk, chunk ∈ chunks → chunk.length + state.blockSize < 2 ^ 64) :
    Outcome faults (copyChunks destFile chunks state) (fun copied state' =>
      ∃ writes, CopyWrites destFile chunks writes copied ∧ TraceEffect state writes state') := by
  induction chunks generalizing state with
  | nil => exact outcome_pure ⟨[], .done, .nil state⟩
  | cons chunk rest inductionHypothesis =>
      unfold copyChunks
      by_cases empty : chunk = []
      · subst chunk
        rw [if_pos rfl]
        exact outcome_pure ⟨[], .ended rest, .nil state⟩
      rw [if_neg empty]
      apply outcome_bind (outcome_tfsWrite inv wide destFile (some chunk) chunk.length ?_)
      · intro written state' effect
        apply outcome_ite
        · intro incomplete
          exact outcome_pure ⟨_, .short empty incomplete, .cons effect (.nil state')⟩
        · intro complete
          rw [not_not] at complete
          subst complete
          have same : state'.blockSize = state.blockSize :=
            congrArg TfsParams.blockSize effect.fsParams
          apply (inductionHypothesis (effect.invariant inv) (wide.of_fsParams effect.fsParams)
            ?_).mono
          · rintro copied final ⟨writes, shape, effects⟩
            exact ⟨_, .complete empty shape, .cons effect effects⟩
          · rw [same]
            exact bounded.imp id
              (fun all other member => all other (List.mem_cons_of_mem _ member))
      · intro data same
        cases same
        exact bounded.imp id (fun all => ⟨Nat.le_refl _, all chunk List.mem_cons_self⟩)

/-- A symbolic link is followed further than there are inodes only around a cycle. -/
theorem Invariant.followsCycle (inv : Invariant state none) {path : CString}
    (chain : Chains.Chain state.LinksTo (state.inodeTableSize + 1) path) :
    state.FollowsCycle path := by
  refine @Chains.Chain.reachesCycle _ _ _ (fun inode target => state.targetOf inode = some target)
    ?_ ?_ _ chain
  · rintro start next ⟨_, inode, binds, _, stored⟩
    exact ⟨inode, (inv.binds_taken binds).2.1, stored⟩
  · intro inode left right leftStored rightStored
    exact Option.some.inj (leftStored.symm.trans rightStored)

theorem outcome_tfsOpen (inv : Invariant state none) (wide : Wide faults state)
    (readable : Readable faults state) (name : Option CString) (mode : TfsFileMode)
    (cyclic : ∀ path, name = some path → state.FollowsCycle path → faults .diverges) :
    Outcome faults (tfsOpen name mode state)
      (fun result => CallEffect state (.tfsOpen name mode) ⟨result, []⟩) := by
  unfold tfsOpen
  apply outcome_get_bind
  cases name with
  | none => exact outcome_pure (.openNull mode)
  | some path =>
      apply (outcome_tfsOpenFuel inv wide readable mode (state.inodeTableSize + 1) path
        (fun chain => cyclic path rfl (inv.followsCycle chain))).mono
      rintro result state' ⟨final, resolves, effect⟩
      exact .opens resolves effect

theorem outcome_tfsCopyFromExternalFs (inv : Invariant state none) (wide : Wide faults state)
    (readable : Readable faults state) (sourcePath : Option CString)
    (sourceFile : Option ExternalFile) (destPath : Option CString)
    (cyclic : ∀ path, destPath = some path → state.FollowsCycle path → faults .diverges)
    (bounded : faults .undefined ∨ ∀ source, sourceFile = some source →
      ∀ chunk, chunk ∈ source.chunks → chunk.length + state.blockSize < 2 ^ 64) :
    Outcome faults (tfsCopyFromExternalFs sourcePath sourceFile destPath state)
      (fun result state' => ∃ trace,
        Expands (.tfsCopyFromExternalFs sourcePath sourceFile destPath) ⟨result, []⟩ trace ∧
          TraceEffect state trace state') := by
  unfold tfsCopyFromExternalFs
  apply outcome_ite
  · rintro (invalid | noPath)
    · exact outcome_pure ⟨[], .copyRefused (Or.inl invalid), .nil state⟩
    · exact outcome_pure ⟨[], .copyRefused (Or.inr (Or.inl noPath)), .nil state⟩
  intro accepted
  rw [not_or] at accepted
  obtain ⟨path, sourcePathEq⟩ := Option.ne_none_iff_exists'.mp accepted.2
  obtain ⟨dest, destValidity⟩ := Option.ne_none_iff_exists'.mp accepted.1
  obtain ⟨destPathEq, valid⟩ := validPathname_some destValidity
  subst sourcePathEq
  subst destPathEq
  cases sourceFile with
  | none => exact outcome_pure ⟨[], .copyRefused (Or.inr (Or.inr rfl)), .nil state⟩
  | some source =>
      apply outcome_bind (outcome_tfsOpen inv wide readable (some dest)
        { tfsOCreat := true, tfsOTrunc := true, tfsOAppend := false } cyclic)
      intro destFile opened openEffect
      apply outcome_ite
      · rintro rfl
        exact outcome_pure
          ⟨_, .copyUnopened source valid, .cons openEffect (.nil opened)⟩
      intro isOpen
      have openedInv := openEffect.invariant inv
      have openedWide := wide.of_fsParams openEffect.fsParams
      have same : opened.blockSize = state.blockSize :=
        congrArg TfsParams.blockSize openEffect.fsParams
      apply outcome_bind (outcome_copyChunks openedInv openedWide destFile source.chunks
        (by rw [same]; exact bounded.imp id (fun all => all source rfl)))
      rintro copied written ⟨writes, shape, effects⟩
      apply outcome_bind (outcome_tfsClose (effects.invariant openedInv)
        (openedWide.of_fsParams effects.fsParams) destFile)
      intro closed final closeEffect
      have traced : TraceEffect state ((.tfsOpen (some dest) ⟨true, true, false⟩, ⟨destFile, []⟩) ::
          (writes ++ [(.tfsClose destFile, ⟨closed, []⟩)])) final :=
        .cons openEffect (effects.append (.cons (.closes closeEffect) (.nil final)))
      have expands := @Expands.copied path _ _ _ closed _ _ valid isOpen shape
      apply outcome_ite
      · intro complete
        rw [if_pos complete] at expands
        exact outcome_pure ⟨_, expands, traced⟩
      · intro incomplete
        rw [if_neg incomplete] at expands
        exact outcome_pure ⟨_, expands, traced⟩

/-! ### Every call -/

/-- The arguments the callers promise: a buffer as long as its write, no write length that
wraps around, a target that fits a block, and chunks that fit the copy buffer. -/
def Call.Admissible (blockSize : Nat) : Call → Prop
  | .tfsWrite _ (some data) toWrite => toWrite ≤ data.length ∧ toWrite + blockSize < 2 ^ 64
  | .tfsSymLink (some target) _ => target.strlen < blockSize
  | .tfsCopyFromExternalFs _ (some source) _ =>
      ∀ chunk, chunk ∈ source.chunks → chunk.length ≤ blockSize
  | _ => True

theorem GeometryOk.blockSize_small (geometry : GeometryOk state) (fits : state.Fits)
    (blocks : 0 < state.dataBlocks) : state.blockSize < 2 ^ 63 := by
  have blockEnd := geometry.blockEnd fits blocks
  have small := geometry.dataBytesLt
  omega

/-- The call follows a cycle of symbolic links. -/
def Call.FollowsCycle (state : State) : Call → Prop
  | .tfsOpen (some path) _ => state.FollowsCycle path
  | .tfsCopyFromExternalFs _ _ (some path) => state.FollowsCycle path
  | _ => False

theorem outcome_call (inv : Invariant state none) (wide : Wide faults state)
    (readable : Readable faults state) (call : Call)
    (cyclic : call.FollowsCycle state → faults .diverges)
    (admissible : faults .undefined ∨ call.Admissible state.blockSize) :
    Outcome faults (call.run state) (fun result state' => ∃ trace,
      Expands call result trace ∧ TraceEffect state trace state') := by
  have single {result : CallResult} {state' : State}
      (notCopy : ∀ sourcePath sourceFile destPath,
        call ≠ .tfsCopyFromExternalFs sourcePath sourceFile destPath)
      (effect : CallEffect state call result state') :
      ∃ trace, Expands call result trace ∧ TraceEffect state trace state' :=
    ⟨_, .single result notCopy, .cons effect (.nil state')⟩
  cases call with
  | tfsOpen name mode =>
      apply outcome_bind (outcome_tfsOpen inv wide readable name mode
        (fun path same cycle => cyclic (by rw [same]; exact cycle)))
      intro result state' effect
      exact outcome_pure (single (fun _ _ _ same => by cases same) effect)
  | tfsClose fhandle =>
      apply outcome_bind (outcome_tfsClose inv wide fhandle)
      intro result state' effect
      exact outcome_pure (single (fun _ _ _ same => by cases same) (.closes effect))
  | tfsWrite fhandle buffer toWrite =>
      apply outcome_bind (outcome_tfsWrite inv wide fhandle buffer toWrite ?_)
      · intro result state' effect
        exact outcome_pure (single (fun _ _ _ same => by cases same) effect)
      · rintro data rfl
        exact admissible
  | tfsRead fhandle buffered len =>
      apply (outcome_tfsRead inv wide fhandle buffered len).mono
      intro result state' effect
      exact single (fun _ _ _ same => by cases same) effect
  | tfsSymLink target link =>
      apply outcome_bind (outcome_tfsSymLink inv target link ?_)
      · intro result state' effect
        exact outcome_pure (single (fun _ _ _ same => by cases same) effect)
      · rcases wide with undefined | fits
        · exact Or.inl undefined
        · refine admissible.imp id ?_
          intro short targetPath linkPath sameTarget _
          subst target
          exact inv.targetInside fits short linkPath
  | tfsLink target link =>
      apply outcome_bind (outcome_tfsLink inv wide target link)
      intro result state' effect
      exact outcome_pure (single (fun _ _ _ same => by cases same) effect)
  | tfsUnlink target =>
      apply outcome_bind (outcome_tfsUnlink inv wide target)
      intro result state' effect
      exact outcome_pure (single (fun _ _ _ same => by cases same) effect)
  | tfsCopyFromExternalFs sourcePath sourceFile destPath =>
      apply outcome_bind (outcome_tfsCopyFromExternalFs inv wide readable sourcePath sourceFile
        destPath (fun path same cycle => cyclic (by rw [same]; exact cycle)) ?_)
      · intro result state' effects
        exact outcome_pure effects
      · rcases wide with undefined | fits
        · exact Or.inl undefined
        · refine admissible.imp id ?_
          rintro short source rfl chunk member
          have bounded := short chunk member
          have small := inv.geometry.blockSize_small fits
            (Nat.lt_of_le_of_lt (Nat.zero_le _) inv.root.blockTaken.1)
          omega

end TecnicoFS.FileSystem
