/-
What a call does to the map from names to inodes.

A call installs a name, removes one or leaves the map alone; which of these it does is
read off its arguments, its result and the state before it.
-/

import TecnicoFS.FileSystem.DataPath

set_option autoImplicit false

namespace TecnicoFS.FileSystem

open FaultAction TableSearch

variable {params : TfsParams} {allowed : State → Call → Prop} {state state' : State}
  {slack : Slack} {model : Model Nat}

/-! ### What a call does to the map -/

/-- Opening the path with `TFS_O_CREAT` creates the file `name` in the inode. -/
def Creates (state : State) (path : CString) (mode : TfsFileMode) (name : CString)
    (inode : Nat) : Prop :=
  ∃ final, state.Resolves path final ∧ ValidPathname final ∧ final.tail = name ∧
    validSubName name ∧ state.Unbound name ∧ mode.tfsOCreat = true ∧
    state.FirstFreeInode inode ∧ ∃ slot, state.FirstDead slot

/-- The call installs the inode under the name: a creating `tfs_open` (also the one inside
a copy), a successful `tfs_link` or a successful `tfs_sym_link`. -/
inductive Installs (state : State) : Call → CallResult → CString → Nat → Prop where
  | creates {path name : CString} {mode : TfsFileMode} {inode : Nat} (result : CallResult) :
      Creates state path mode name inode →
      Installs state (.tfsOpen (some path) mode) result name inode
  | copies {sourcePath destPath name : CString} {source : ExternalFile} {inode : Nat}
      (result : CallResult) : Creates state destPath ⟨true, true, false⟩ name inode →
      ValidPathname destPath →
      Installs state (.tfsCopyFromExternalFs (some sourcePath) (some source) (some destPath))
        result name inode
  | links {target link : CString} {inode : Nat} : state.Binds target.tail inode →
      Installs state (.tfsLink (some target) (some link)) ⟨0, []⟩ link.tail inode
  | symLinks {target link : CString} {inode : Nat} : state.FirstFreeInode inode →
      Installs state (.tfsSymLink (some target) (some link)) ⟨0, []⟩ link.tail inode

/-- The call is a successful `tfs_unlink` of the name. -/
inductive Removes : Call → CallResult → CString → Prop where
  | unlinks (target : CString) : Removes (.tfsUnlink (some target)) ⟨0, []⟩ target.tail

/-- The map after the call, from the map before it -/
def Rebinds (state : State) (call : Call) (result : CallResult) (state' : State) : Prop :=
  ∀ name inode, state'.Binds name inode ↔
    Installs state call result name inode ∨
      ((∀ held, ¬ Installs state call result name held) ∧ ¬ Removes call result name ∧
        state.Binds name inode)

theorem Rebinds.quiet {call : Call} {result : CallResult} (names : state.SameNames state')
    (notInstalled : ∀ name inode, ¬ Installs state call result name inode)
    (notRemoved : ∀ name, ¬ Removes call result name) : Rebinds state call result state' := by
  intro name inode
  rw [names name inode]
  constructor
  · intro binds
    exact Or.inr ⟨notInstalled name, notRemoved name, binds⟩
  · rintro (installs | ⟨_, _, binds⟩)
    · exact (notInstalled name inode installs).elim
    · exact binds

theorem Rebinds.install {call : Call} {result : CallResult} {name : CString} {inode : Nat}
    (names : ∀ other held, state'.Binds other held ↔
      if other = name then held = inode else state.Binds other held)
    (installs : ∀ other held,
      Installs state call result other held ↔ other = name ∧ held = inode)
    (notRemoved : ∀ other, ¬ Removes call result other) : Rebinds state call result state' := by
  intro other held
  rw [names other held, installs other held]
  by_cases same : other = name
  · subst other
    rw [if_pos rfl]
    constructor
    · intro equal
      exact Or.inl ⟨rfl, equal⟩
    · rintro (⟨_, equal⟩ | ⟨never, _⟩)
      · exact equal
      · exact (never inode ((installs name inode).mpr ⟨rfl, rfl⟩)).elim
  · rw [if_neg same]
    constructor
    · intro binds
      exact Or.inr ⟨fun place installed => same ((installs other place).mp installed).1,
        notRemoved other, binds⟩
    · rintro (⟨equal, _⟩ | ⟨_, _, binds⟩)
      · exact (same equal).elim
      · exact binds

theorem Rebinds.remove {call : Call} {result : CallResult} {name : CString}
    (names : ∀ other held, state'.Binds other held ↔ other ≠ name ∧ state.Binds other held)
    (notInstalled : ∀ other held, ¬ Installs state call result other held)
    (removes : ∀ other, Removes call result other ↔ other = name) :
    Rebinds state call result state' := by
  intro other held
  rw [names other held, removes other]
  constructor
  · rintro ⟨different, binds⟩
    exact Or.inr ⟨notInstalled other, different, binds⟩
  · rintro (installs | ⟨_, different, binds⟩)
    · exact (notInstalled other held installs).elim
    · exact ⟨different, binds⟩

/-! ### Creating -/

theorem State.FirstFreeInode.unique {left right : Nat} (leftFirst : state.FirstFreeInode left)
    (rightFirst : state.FirstFreeInode right) : left = right := by
  rcases Nat.lt_trichotomy left right with below | equal | above
  · have taken := rightFirst.2.2.2 left below
    rw [leftFirst.2.2.1] at taken
    cases taken
  · exact equal
  · have taken := leftFirst.2.2.2 right above
    rw [rightFirst.2.2.1] at taken
    cases taken

/-- What `tfs_open` of a path creates is decided at the final name. -/
theorem OpenEffect.creates_iff {path final name : CString} {mode : TfsFileMode} {result : Int}
    {inode : Nat} (effect : OpenEffect state final mode result state')
    (resolves : state.Resolves path final) (inv : Invariant state none) :
    Creates state path mode name inode ↔ ValidPathname final ∧ final.tail = name ∧
      validSubName name ∧ state.Unbound name ∧ mode.tfsOCreat = true ∧
      state.FirstFreeInode inode ∧ ∃ slot, state.FirstDead slot := by
  constructor
  · rintro ⟨other, otherResolves, valid, named, short, unbound, rest⟩
    have otherFinal (target : CString) : ¬ state.LinksTo other target := by
      rintro ⟨_, held, ⟨_, slot, live, isNamed, _⟩, _⟩
      rw [named] at isNamed
      exact unbound slot live isNamed
    have same := inv.final_unique otherResolves resolves otherFinal
      (effect.final inv)
    subst same
    exact ⟨valid, named, short, unbound, rest⟩
  · rintro ⟨valid, named, rest⟩
    exact ⟨final, resolves, valid, named, rest⟩

/-! ### Calls that leave the directory alone -/

theorem State.sameNames_of_memory (memory : state'.fsData = state.fsData)
    (sizes : state'.fsParams = state.fsParams) : state.SameNames state' := by
  intro name inode
  unfold State.Binds State.EntryLive State.EntryNamed State.entryInumber State.dInumber
    State.maxDirEntries State.blockSize
  rw [memory, sizes]

theorem State.truncated_fsData {inode : Nat} {mode : TfsFileMode} :
    (state.truncated inode mode).fsData = state.fsData := by
  unfold State.truncated State.releaseBlock
  split
  · split <;> rfl
  · rfl

theorem State.deleteInode_sameNames (inode : Nat) :
    state.SameNames (state.deleteInode inode) :=
  State.sameNames_of_memory State.deleteInode_fsData State.deleteInode_fsParams

theorem HandleEffect.sameNames {inode offset : Nat} {result : Int}
    (effect : HandleEffect state inode offset result state') : state.SameNames state' := by
  cases effect with
  | full _ => exact fun _ _ => Iff.rfl
  | opened _ => exact fun _ _ => Iff.rfl

theorem CloseEffect.sameNames {fhandle result : Int}
    (effect : CloseEffect state fhandle result state') : state.SameNames state' := by
  cases effect with
  | invalid _ => exact fun _ _ => Iff.rfl
  | @deleted handle inode _ _ _ _ _ =>
      exact @State.deleteInode_sameNames (state.closeHandle handle) inode
  | kept _ _ _ _ => exact fun _ _ => Iff.rfl

theorem WriteEffect.sameNames {handle inode toWrite : Nat} {data : List UInt8} {result : Int}
    (effect : WriteEffect state handle inode data toWrite result state')
    (inv : Invariant state none) (opened : state.HandleTaken handle)
    (refers : (state.openFileTable handle).ofInumber = (inode : Int)) :
    state.SameNames state' := by
  have stored {block : Nat} (nonzero : block ≠ 0) (offset : Nat) (bytes : List UInt8) :
      state.SameNames (state.store (block * state.blockSize + offset) bytes) :=
    (State.sameEntries_store (Nat.le_trans (state.dirEnd_le_blockAddress nonzero)
      (Nat.le_add_right _ offset))).sameNames
  cases effect with
  | nothing _ => exact fun _ _ => Iff.rfl
  | noBlock _ _ _ => exact fun _ _ => Iff.rfl
  | grown _ _ _ _ first _ => exact stored (inv.freeBlock_address first).1 _ _
  | @overwritten block length _ _ _ nonempty blockEq =>
      obtain ⟨held, holds, nonzero, taken, _⟩ := inv.holders.handleHolds handle opened
      have same : held = inode := by omega
      subst held
      obtain ⟨own, ownEq, ownNonzero, _⟩ := inv.backed taken nonzero nonempty
      have equal : own = block := by omega
      subst own
      exact stored ownNonzero _ _

theorem State.SameNames.trans {middle : State} (first : state.SameNames middle)
    (second : middle.SameNames state') : state.SameNames state' :=
  fun name inode => (second name inode).trans (first name inode)

/-! ### The map after one call -/

/-- An open creates nothing and leaves the directory alone, or it creates one file. -/
theorem OpenEffect.quiet_or_creates {path final : CString} {mode : TfsFileMode} {result : Int}
    (effect : OpenEffect state final mode result state') (resolves : state.Resolves path final)
    (inv : Invariant state none) :
    (state.SameNames state' ∧ ∀ name inode, ¬ Creates state path mode name inode) ∨
      ∃ name inode,
        (∀ other held, Creates state path mode other held ↔ other = name ∧ held = inode) ∧
        (∀ other held, state'.Binds other held ↔
          if other = name then held = inode else state.Binds other held) ∧
        (result = -1 → state.NoFreeHandle) := by
  have creates (name : CString) (inode : Nat) := @OpenEffect.creates_iff _ _ path _ name _ _ inode
    effect resolves inv
  cases effect with
  | invalid invalid =>
      refine Or.inl ⟨fun _ _ => Iff.rfl, fun name inode creating => ?_⟩
      exact invalid ((creates name inode).mp creating).1
  | missing _ _ notCreat =>
      refine Or.inl ⟨fun _ _ => Iff.rfl, fun name inode creating => ?_⟩
      obtain ⟨_, _, _, _, creat, _⟩ := (creates name inode).mp creating
      rw [notCreat] at creat
      cases creat
  | noInode _ _ _ full =>
      refine Or.inl ⟨fun _ _ => Iff.rfl, fun name inode creating => ?_⟩
      obtain ⟨_, _, _, _, _, first, _⟩ := (creates name inode).mp creating
      have taken := full inode first.2.1
      rw [first.2.2.1] at taken
      cases taken
  | refused _ _ _ _ refuses =>
      refine Or.inl ⟨State.sameNames_of_memory rfl rfl, fun name inode creating => ?_⟩
      obtain ⟨_, named, short, _, _, _, slot, dead⟩ := (creates name inode).mp creating
      subst named
      rcases refuses with invalid | full
      · exact invalid short
      · exact (full slot dead.1).2 dead.2.1
  | existing _ binds _ handle =>
      refine Or.inl ⟨?_, fun name inode creating => ?_⟩
      · exact (State.sameNames_of_memory State.truncated_fsData State.truncated_fsParams).trans
          handle.sameNames
      · obtain ⟨_, rfl, _, unbound, _⟩ := (creates name inode).mp creating
        obtain ⟨_, slot, live, named, _⟩ := binds
        exact unbound slot live named
  | @created inode slot _ _ valid unbound creat first short dead handle =>
      refine Or.inr ⟨final.tail, inode, ?_, ?_, ?_⟩
      · intro other held
        rw [creates]
        constructor
        · rintro ⟨_, named, _, _, _, otherFirst, _⟩
          exact ⟨named.symm, otherFirst.unique first⟩
        · rintro ⟨rfl, rfl⟩
          exact ⟨valid, rfl, short, unbound, creat, first, slot, dead⟩
      · intro other held
        refine (handle.sameNames other held).trans ?_
        exact @State.bindEntry_binds (state.takeInode inode (newInode .tFile)) _ _ _ short first.1
          dead unbound other held
      · intro failed
        cases handle with
        | full full => exact full
        | opened _ => cases failed

theorem OpenEffect.rebinds {path final : CString} {mode : TfsFileMode} {result : Int}
    (effect : OpenEffect state final mode result state') (resolves : state.Resolves path final)
    (inv : Invariant state none) :
    Rebinds state (.tfsOpen (some path) mode) ⟨result, []⟩ state' := by
  have installs (name : CString) (inode : Nat) :
      Installs state (.tfsOpen (some path) mode) ⟨result, []⟩ name inode ↔
        Creates state path mode name inode := by
    constructor
    · rintro ⟨⟩
      assumption
    · intro creating
      exact .creates _ creating
  have notRemoved (name : CString) :
      ¬ Removes (.tfsOpen (some path) mode) ⟨result, []⟩ name := by
    rintro ⟨⟩
  rcases effect.quiet_or_creates resolves inv with
    ⟨names, never⟩ | ⟨name, inode, creates, names, _⟩
  · exact Rebinds.quiet names
      (fun name inode installed => never name inode ((installs name inode).mp installed))
      notRemoved
  · exact Rebinds.install names
      (fun other held => (installs other held).trans (creates other held)) notRemoved

theorem SymLinkEffect.rebinds {target link : CString} {result : Int}
    (effect : SymLinkEffect state target link result state') (inv : Invariant state none) :
    Rebinds state (.tfsSymLink (some target) (some link)) ⟨result, []⟩ state' := by
  have notRemoved (name : CString) :
      ¬ Removes (.tfsSymLink (some target) (some link)) ⟨result, []⟩ name := by
    rintro ⟨⟩
  have sameEntries {block : Nat} (first : state.FirstFreeBlock block) :
      state.SameEntries (state.targetStored block target) :=
    @State.sameEntries_store state _ (target.bytes ++ [0])
      (State.dirEnd_le_blockAddress state (inv.freeBlock_address first).1)
  cases effect with
  | same _ => exact Rebinds.quiet (fun _ _ => Iff.rfl) (by rintro _ _ ⟨⟩) notRemoved
  | noInode _ => exact Rebinds.quiet (fun _ _ => Iff.rfl) (by rintro _ _ ⟨⟩) notRemoved
  | noBlock _ _ =>
      exact Rebinds.quiet (State.sameNames_of_memory rfl rfl) (by rintro _ _ ⟨⟩) notRemoved
  | refused _ _ firstBlock _ _ =>
      refine Rebinds.quiet ?_ (by rintro _ _ ⟨⟩) notRemoved
      exact (sameEntries firstBlock).sameNames.trans (State.sameNames_of_memory rfl rfl)
  | @linked inode block slot _ firstInode firstBlock _ short unbound dead =>
      have same := sameEntries firstBlock
      refine @Rebinds.install _ _ _ _ link.tail inode ?_ ?_ notRemoved
      · intro other held
        rw [@State.bindEntry_binds
          ((state.targetStored block target).takeInode inode { newInode .tSymLink with iDataBlock
            := block })
          _ _ _ short firstInode.1 (same.firstDead.mpr dead) ((same.unbound short).mpr unbound)
          other held]
        by_cases equal : other = link.tail
        · rw [if_pos equal, if_pos equal]
        · rw [if_neg equal, if_neg equal]
          exact same.sameNames other held
      · intro other held
        constructor
        · rintro ⟨⟩
          rename_i first
          exact ⟨rfl, first.unique firstInode⟩
        · rintro ⟨rfl, rfl⟩
          exact .symLinks firstInode

theorem LinkEffect.rebinds {target link : CString} {result : Int}
    (effect : LinkEffect state target link result state') (represents : Represents state model)
    (inv : Invariant state none) :
    Rebinds state (.tfsLink (some target) (some link)) ⟨result, []⟩ state' := by
  have notRemoved (name : CString) :
      ¬ Removes (.tfsLink (some target) (some link)) ⟨result, []⟩ name := by
    rintro ⟨⟩
  cases effect with
  | missing _ => exact Rebinds.quiet (fun _ _ => Iff.rfl) (by rintro _ _ ⟨⟩) notRemoved
  | refused _ _ => exact Rebinds.quiet (fun _ _ => Iff.rfl) (by rintro _ _ ⟨⟩) notRemoved
  | symLink binds _ short _ dead =>
      refine Rebinds.quiet ?_ (by rintro _ _ ⟨⟩) notRemoved
      have fits := inv.inodes.fits _ (inv.binds_taken binds).2
      intro name inode
      exact ((represents.scrub_bind inv short fits dead).names name inode).symm.trans
        (represents.names name inode)
  | @linked inode slot binds _ short unbound dead =>
      refine @Rebinds.install _ _ _ _ link.tail inode ?_ ?_ notRemoved
      · intro other held
        refine (@State.sameNames_of_memory (state.bindEntry slot link.tail inode) _ rfl rfl
          other held).trans ?_
        exact State.bindEntry_binds short (inv.inodes.fits inode (inv.binds_taken binds).2) dead
          unbound other held
      · intro other held
        constructor
        · rintro ⟨⟩
          rename_i found
          refine ⟨rfl, ?_⟩
          have equal := ((represents.names _ _).mpr found).symm.trans
            ((represents.names _ _).mpr binds)
          exact Option.some.inj equal
        · rintro ⟨rfl, rfl⟩
          exact .links binds

theorem UnlinkEffect.rebinds {target : CString} {result : Int}
    (effect : UnlinkEffect state target result state') (inv : Invariant state none) :
    Rebinds state (.tfsUnlink (some target)) ⟨result, []⟩ state' := by
  have notInstalled (name : CString) (inode : Nat) :
      ¬ Installs state (.tfsUnlink (some target)) ⟨result, []⟩ name inode := by
    rintro ⟨⟩
  cases effect with
  | missing _ => exact Rebinds.quiet (fun _ _ => Iff.rfl) notInstalled (by rintro _ ⟨⟩)
  | @deleted inode slot short live named _ _ _ =>
      refine @Rebinds.remove _ _ _ _ target.tail ?_ notInstalled ?_
      · intro other held
        exact (State.deleteInode_sameNames inode other held).trans
          ((@State.sameNames_of_memory (state.scrubEntry slot) _ rfl rfl other held).trans
            (State.scrubEntry_binds inv.directory short live named other held))
      · intro other
        constructor
        · rintro ⟨⟩
          rfl
        · rintro rfl
          exact .unlinks target
  | @kept inode slot short live named _ _ =>
      refine @Rebinds.remove _ _ _ _ target.tail ?_ notInstalled ?_
      · intro other held
        exact (@State.sameNames_of_memory (state.scrubEntry slot) _ rfl rfl other
          held).trans (State.scrubEntry_binds inv.directory short live named other held)
      · intro other
        constructor
        · rintro ⟨⟩
          rfl
        · rintro rfl
          exact .unlinks target

theorem CallEffect.rebinds {call : Call} {result : CallResult}
    (effect : CallEffect state call result state') (represents : Represents state model)
    (inv : Invariant state none) : Rebinds state call result state' := by
  cases effect with
  | openNull _ => exact Rebinds.quiet (fun _ _ => Iff.rfl) (by rintro _ _ ⟨⟩) (by rintro _ ⟨⟩)
  | opens resolves opened => exact opened.rebinds resolves inv
  | closes closed => exact Rebinds.quiet closed.sameNames (by rintro _ _ ⟨⟩) (by rintro _ ⟨⟩)
  | writeRefused _ _ =>
      exact Rebinds.quiet (fun _ _ => Iff.rfl) (by rintro _ _ ⟨⟩) (by rintro _ ⟨⟩)
  | writes opened refers written =>
      exact Rebinds.quiet (written.sameNames inv opened refers) (by rintro _ _ ⟨⟩)
        (by rintro _ ⟨⟩)
  | readRefused _ _ =>
      exact Rebinds.quiet (fun _ _ => Iff.rfl) (by rintro _ _ ⟨⟩) (by rintro _ ⟨⟩)
  | reads _ _ read =>
      refine Rebinds.quiet ?_ (by rintro _ _ ⟨⟩) (by rintro _ ⟨⟩)
      cases read with
      | nothing _ => exact fun _ _ => Iff.rfl
      | bytes _ _ _ => exact fun _ _ => Iff.rfl
  | symLinkInvalid invalid =>
      exact Rebinds.quiet (fun _ _ => Iff.rfl) (by rintro _ _ ⟨⟩) (by rintro _ ⟨⟩)
  | symLinks _ _ linked => exact linked.rebinds inv
  | linkInvalid _ =>
      exact Rebinds.quiet (fun _ _ => Iff.rfl) (by rintro _ _ ⟨⟩) (by rintro _ ⟨⟩)
  | links _ _ linked => exact linked.rebinds represents inv
  | unlinkInvalid _ =>
      exact Rebinds.quiet (fun _ _ => Iff.rfl) (by rintro _ _ ⟨⟩) (by rintro _ ⟨⟩)
  | unlinks _ unlinked => exact unlinked.rebinds inv

/-! ### The map after a public call -/

/-- A copy installs what its `tfs_open` installs. -/
theorem Rebinds.copies {middle : State} {sourcePath destPath : CString} {source : ExternalFile}
    {result opened : CallResult} (valid : ValidPathname destPath)
    (opens : Rebinds state (.tfsOpen (some destPath) ⟨true, true, false⟩) opened middle)
    (names : middle.SameNames state') :
    Rebinds state (.tfsCopyFromExternalFs (some sourcePath) (some source) (some destPath)) result
      state' := by
  have installs (name : CString) (inode : Nat) :
      Installs state (.tfsCopyFromExternalFs (some sourcePath) (some source) (some destPath))
          result name inode ↔
        Installs state (.tfsOpen (some destPath) ⟨true, true, false⟩) opened name inode := by
    constructor
    · rintro ⟨⟩
      rename_i creates
      exact .creates _ creates
    · rintro ⟨⟩
      rename_i creates
      exact .copies _ creates valid
  intro name inode
  rw [names name inode, opens name inode]
  simp only [installs]
  have notCopy : ¬ Removes
      (.tfsCopyFromExternalFs (some sourcePath) (some source) (some destPath)) result name := by
    rintro ⟨⟩
  have notOpen : ¬ Removes (.tfsOpen (some destPath) ⟨true, true, false⟩) opened name := by
    rintro ⟨⟩
  rw [and_iff_right notCopy, and_iff_right notOpen]

/-- Writes and closes leave the directory alone. -/
theorem TraceEffect.sameNames {trace : List (Call × CallResult)}
    (effects : TraceEffect state trace state') (inv : Invariant state none)
    (all : ∀ entry, entry ∈ trace → (∃ fhandle buffer toWrite,
      entry.1 = .tfsWrite fhandle buffer toWrite) ∨ ∃ fhandle, entry.1 = .tfsClose fhandle) :
    state.SameNames state' := by
  refine @TraceEffect.preserves _ _ _ state.SameNames
    (fun call => (∃ fhandle buffer toWrite, call = .tfsWrite fhandle buffer toWrite) ∨
      ∃ fhandle, call = .tfsClose fhandle) ?_ effects inv all (fun _ _ => Iff.rfl)
  rintro before call result after held (⟨_, _, _, rfl⟩ | ⟨_, rfl⟩) effect names
  · cases effect with
    | writeRefused _ _ => exact names
    | writes opened refers written => exact names.trans (written.sameNames held opened refers)
  · cases effect with
    | closes closed => exact names.trans closed.sameNames

theorem call_rebinds {call : Call} {result : CallResult} (represents : Represents state model)
    (inv : Invariant state none) (returned : call.run state = .ok (result, state')) :
    Rebinds state call result state' := by
  obtain ⟨trace, expands, effects⟩ := call_effects inv returned
  cases expands with
  | single _ _ =>
      cases effects with
      | cons effect rest =>
          cases rest
          exact effect.rebinds represents inv
  | copyRefused refused =>
      cases effects
      refine Rebinds.quiet (fun _ _ => Iff.rfl) ?_ (by rintro _ ⟨⟩)
      rintro name inode ⟨⟩
      rename_i valid _
      rcases refused with invalid | absent | absent
      · exact validPathname_none invalid valid
      · cases absent
      · cases absent
  | copyUnopened source valid =>
      cases effects with
      | cons effect rest =>
          cases rest
          exact Rebinds.copies valid (effect.rebinds represents inv) (fun _ _ => Iff.rfl)
  | copied valid _ shape =>
      cases effects with
      | cons effect rest =>
          refine Rebinds.copies valid (effect.rebinds represents inv)
            (rest.sameNames (effect.invariant inv) (fun entry member => ?_))
          rcases List.mem_append.mp member with write | last
          · obtain ⟨_, writes⟩ := shape.writesChunk entry write
            exact Or.inl ⟨_, _, _, writes⟩
          · rw [List.mem_singleton] at last
            subst entry
            exact Or.inr ⟨_, rfl⟩

end TecnicoFS.FileSystem
