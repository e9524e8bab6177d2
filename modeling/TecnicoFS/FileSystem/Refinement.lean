/-
Every effect of a public call is a step of the abstract file system.
-/

import TecnicoFS.FileSystem.RepresentsSteps
import TecnicoFS.FileSystem.Resolution

set_option autoImplicit false

namespace TecnicoFS.FileSystem

variable {state state' : State} {slack : Slack} {model : Model Nat}

/-- What the tables have left -/
def State.resources (state : State) : Resources where
  inodeFree := ∃ inode, inode < state.inodeTableSize ∧ state.freeinodeTs inode = .free
  blockFree := ∃ block, block < state.dataBlocks ∧ state.freeBlocks block = .free
  entryFree := ∃ slot, slot < state.maxDirEntries ∧ state.entryInumber slot = -1
  handleFree := ∃ handle, handle < state.maxOpenFiles ∧ state.freeOpenFileEntries handle = .free

private theorem none_free {size : Nat} {table : Nat → AllocationState}
    (full : ∀ slot, slot < size → table slot = .taken) :
    ¬ ∃ slot, slot < size ∧ table slot = .free := by
  rintro ⟨slot, inside, isFree⟩
  rw [full slot inside] at isFree
  cases isFree

theorem State.NoFreeInode.none (full : state.NoFreeInode) : ¬ state.resources.inodeFree :=
  none_free full

theorem State.NoFreeBlock.none (full : state.NoFreeBlock) : ¬ state.resources.blockFree :=
  none_free full

theorem State.DirectoryFull.none (full : state.DirectoryFull) : ¬ state.resources.entryFree := by
  rintro ⟨slot, inside, dead⟩
  exact (full slot inside).2 dead

theorem State.FirstFreeInode.some {inode : Nat} (first : state.FirstFreeInode inode) :
    state.resources.inodeFree := ⟨inode, first.2.1, first.2.2.1⟩

theorem State.FirstFreeBlock.some {block : Nat} (first : state.FirstFreeBlock block) :
    state.resources.blockFree := ⟨block, first.2.1, first.2.2.1⟩

theorem State.FirstDead.some {slot : Nat} (first : state.FirstDead slot) :
    state.resources.entryFree := ⟨slot, first.1, first.2.1⟩

/-! ### Names, targets and users -/

theorem State.HoldsLink.targetOf {inode : Nat} {target : CString}
    (holds : state.HoldsLink inode target) (geometry : GeometryOk state) :
    state.targetOf inode = some target := by
  obtain ⟨_, _, _, inside, stored⟩ := holds
  have small := geometry.dataBytesLt
  have address : (state.inodeTable inode).iDataBlock.toNat * state.blockSize % 2 ^ 64 =
      state.blockAddress inode := Nat.mod_eq_of_lt (by
    change state.blockAddress inode < 2 ^ 64
    omega)
  unfold State.targetOf
  rw [address]
  exact CString.ofMemory_eq_of_readBytes _ _ _ _ (by omega) stored

theorem Represents.readable (represents : Represents state model) (geometry : GeometryOk state)
    {faults : Fault → Prop} : Readable faults state := by
  right
  intro inode taken isSymLink
  obtain ⟨target, links⟩ := represents.stored inode taken isSymLink
  exact ⟨target, ((represents.links inode target).mp links).targetOf geometry⟩

theorem Represents.linksTo (represents : Represents state model) (inv : Invariant state none)
    {path target : CString} : state.LinksTo path target ↔ model.LinksTo path target := by
  constructor
  · rintro ⟨valid, inode, binds, isSymLink, stored⟩
    obtain ⟨_, taken⟩ := inv.binds_taken binds
    obtain ⟨text, links⟩ := represents.stored inode taken isSymLink
    have same := ((represents.links inode text).mp links).targetOf inv.geometry
    rw [stored] at same
    cases same
    exact ⟨valid, inode, (represents.names _ _).mpr binds, links⟩
  · rintro ⟨valid, inode, names, links⟩
    have holds := (represents.links inode target).mp links
    exact ⟨valid, inode, (represents.names _ _).mp names, holds.2.1,
      holds.targetOf inv.geometry⟩

theorem Represents.resolves (represents : Represents state model) (inv : Invariant state none)
    {path final : CString} (resolves : state.Resolves path final) :
    model.Resolves path final :=
  Relation.ReflTransGen.mono (fun _ _ linksTo => (represents.linksTo inv).mp linksTo)
    path final resolves

/-- The users of an inode are its entries and its handles. -/
theorem Represents.used_iff (represents : Represents state model)
    (inv : Invariant state slack) (inode : Nat) :
    model.Used inode ↔ state.entryCount inode ≠ 0 ∨ state.IsOpen inode := by
  constructor
  · rintro (⟨name, names⟩ | ⟨handle, offset, handles⟩)
    · obtain ⟨_, slot, live, _, holds⟩ := (represents.names name inode).mp names
      exact Or.inl ((state.entryCount_ne_zero_iff inode).mpr ⟨slot, live.1, holds⟩)
    · obtain ⟨taken, entry⟩ := (represents.handles handle inode offset).mp handles
      exact Or.inr ⟨handle, taken, by rw [entry]⟩
  · rintro (counted | ⟨handle, taken, refers⟩)
    · obtain ⟨slot, inside, holds⟩ := (state.entryCount_ne_zero_iff inode).mp counted
      have live : state.EntryLive slot := ⟨inside, by rw [holds]; omega⟩
      obtain ⟨name, short, named⟩ := inv.directory.named slot live
      exact Or.inl ⟨name, (represents.names name inode).mpr ⟨short, slot, live, named, holds⟩⟩
    · refine Or.inr ⟨handle, (state.openFileTable handle).ofOffset, ?_⟩
      exact (represents.handles handle inode _).mpr ⟨taken, by rw [← refers]⟩

theorem Represents.collect_deleted (represents : Represents state model)
    (inv : Invariant state slack) {inode : Nat} (uncounted : state.entryCount inode = 0)
    (unopened : ¬ state.IsOpen inode) :
    Represents (state.deleteInode inode) (model.collect inode) := by
  have unused : ¬ model.Used inode := by
    rw [represents.used_iff inv]
    rintro (counted | opened)
    · exact counted uncounted
    · exact unopened opened
  unfold Model.collect
  rw [if_neg unused]
  exact represents.deleteInode inv.inodes inode

theorem Represents.collect_kept (represents : Represents state model)
    (inv : Invariant state slack) {inode : Nat}
    (inUse : state.entryCount inode ≠ 0 ∨ state.IsOpen inode) :
    Represents state (model.collect inode) := by
  unfold Model.collect
  rw [if_pos ((represents.used_iff inv inode).mpr inUse)]
  exact represents

/-! ### Opening and closing -/

theorem HandleEffect.refines {inode offset : Nat} {result : Int} {resources : Resources}
    (effect : HandleEffect state inode offset result state') (represents : Represents state model)
    (inv : Invariant state slack)
    (same : resources.handleFree ↔ state.resources.handleFree) :
    ∃ model', model.Handle resources inode offset result model' ∧ Represents state' model' := by
  cases effect with
  | full full => exact ⟨model, .full (fun free => none_free full (same.mp free)), represents⟩
  | opened first =>
      refine ⟨_, .opened (same.mpr ⟨_, first.2.1, first.2.2.1⟩) ?_,
        represents.openHandle first.2.1⟩
      rw [represents.handles_none inv]
      rintro ⟨_, taken⟩
      rw [first.2.2.1] at taken
      cases taken

theorem State.truncated_handles {inode : Nat} {mode : TfsFileMode} :
    (state.truncated inode mode).resources.handleFree ↔ state.resources.handleFree := by
  unfold State.truncated State.releaseBlock
  split
  · split <;> exact Iff.rfl
  · exact Iff.rfl

theorem OpenEffect.refines {path : CString} {mode : TfsFileMode} {result : Int}
    (effect : OpenEffect state path mode result state') (represents : Represents state model)
    (inv : Invariant state none) :
    ∃ model', model.Open state.resources path mode result model' ∧
      Represents state' model' := by
  have unbound {name : CString} (notFound : state.NotFound name) : model.names name = none :=
    (represents.names_none_iff inv).mpr notFound
  cases effect with
  | invalid invalid => exact ⟨model, .invalid invalid, represents⟩
  | missing valid notFound creates =>
      exact ⟨model, .missing valid (unbound notFound) creates, represents⟩
  | noInode valid notFound creates full =>
      exact ⟨model, .refused valid (unbound notFound) creates (Or.inl full.none), represents⟩
  | refused valid notFound creates first refuses =>
      refine ⟨model, .refused valid (unbound notFound) creates (Or.inr ?_),
        represents.setInode_of_free inv.inodes first.unused⟩
      exact refuses.imp id State.DirectoryFull.none
  | created valid notBound creates first short dead handle =>
      have taken := represents.takeFile inv.inodes first.2.1 first.unused
      have takenInv := @Invariant.takeInode _ _ (newInode .tFile) inv first.2.1 first.unused first.1
        (by decide) rfl rfl (fun impossible => by cases impossible)
      have bound := taken.bindEntry takenInv short first.1 dead notBound
      obtain ⟨model', step, represents'⟩ := @HandleEffect.refines _ _ _ _ _ _ _ state.resources
        handle bound (inv.created first short notBound dead) Iff.rfl
      exact ⟨model', .created valid (unbound (Or.inr notBound)) creates first.some short dead.some
        (represents.fresh first.unused) step, represents'⟩
  | @existing inode _ _ valid binds isFile handle =>
      obtain ⟨nonzero, taken⟩ := inv.binds_taken binds
      have holds : model.files inode = some (state.contents inode) :=
        (represents.files inode _).mpr ⟨taken, isFile, rfl⟩
      have truncated := represents.truncated inv.inodes holds mode
      have truncatedInv := inv.truncated taken nonzero isFile mode
      obtain ⟨model', step, represents'⟩ := @HandleEffect.refines _ _ _ _ _ _ _ state.resources
        handle truncated truncatedInv State.truncated_handles.symm
      refine ⟨model', .existing valid ((represents.names _ _).mpr binds) holds rfl ?_,
        represents'⟩
      have kept := ((truncated.files inode (if mode.tfsOTrunc = true then []
        else state.contents inode)).mp (Function.update_self _ _ _)).2.2
      have length : ((state.truncated inode mode).inodeTable inode).iSize =
          (if mode.tfsOTrunc = true then [] else state.contents inode).length := by
        rw [← kept, State.contents, ByteMemory.readBytes_length]
      rw [← length]
      exact step

theorem CloseEffect.refines {fhandle result : Int}
    (effect : CloseEffect state fhandle result state') (represents : Represents state model)
    (inv : Invariant state none) {resources : Resources} {blockSize : Nat} :
    ∃ model', model.Step resources blockSize (.tfsClose fhandle) ⟨result, []⟩ model' ∧
      Represents state' model' := by
  have holds {handle inode : Nat} (opened : state.HandleTaken handle)
      (refers : (state.openFileTable handle).ofInumber = (inode : Int)) :
      model.handles handle = some (inode, (state.openFileTable handle).ofOffset) :=
    (represents.handles handle inode _).mpr ⟨opened, by rw [← refers]⟩
  cases effect with
  | invalid invalid =>
      refine ⟨model, .closeInvalid (fun handle same => ?_), represents⟩
      exact (represents.handles_none inv).mpr (invalid handle same)
  | @deleted handle inode same opened refers unlinked unopened =>
      subst same
      have closed := inv.closeHandle opened refers
      obtain ⟨taken, nonzero⟩ := closed.counts.slackTaken inode rfl
      have counted := closed.counts.linkCount inode taken nonzero
      rw [show ((state.closeHandle handle).inodeTable inode).iHardLinks = 0 from unlinked]
        at counted
      exact ⟨_, .closes (holds opened refers),
        (represents.closeHandle handle).collect_deleted closed (by omega) unopened⟩
  | @kept handle inode same opened refers used =>
      subst same
      have closed := inv.closeHandle opened refers
      obtain ⟨taken, nonzero⟩ := closed.counts.slackTaken inode rfl
      have counted := closed.counts.linkCount inode taken nonzero
      refine ⟨_, .closes (holds opened refers),
        (represents.closeHandle handle).collect_kept closed (used.imp ?_ id)⟩
      intro linked uncounted
      rw [uncounted] at counted
      simp only [Slack.extra, if_pos, Nat.add_zero] at counted
      exact linked counted

/-! ### Reading and writing -/

theorem State.contents_length (inode : Nat) :
    (state.contents inode).length = (state.inodeTable inode).iSize :=
  ByteMemory.readBytes_length _ _ _

/-- The model's view of a valid handle -/
theorem Represents.handle (represents : Represents state model) (inv : Invariant state none)
    {handle inode : Nat} (opened : state.HandleTaken handle)
    (refers : (state.openFileTable handle).ofInumber = (inode : Int)) :
    model.handles handle = some (inode, (state.openFileTable handle).ofOffset) ∧
      model.files inode = some (state.contents inode) ∧ state.InodeTaken inode ∧ inode ≠ 0 ∧
      state.clampedOffset handle inode =
        min (state.openFileTable handle).ofOffset (state.contents inode).length := by
  obtain ⟨held, holds, nonzero, taken, isFile⟩ := inv.holders.handleHolds handle opened
  have same : held = inode := by omega
  subst held
  refine ⟨(represents.handles handle inode _).mpr ⟨opened, by rw [← refers]⟩,
    (represents.files inode _).mpr ⟨taken, isFile, rfl⟩, taken, nonzero, ?_⟩
  rw [State.contents_length]
  rfl

theorem ReadEffect.refines {handle inode len : Nat} {result : ReadResult}
    (effect : ReadEffect state handle inode len result state')
    (represents : Represents state model) (inv : Invariant state none)
    (opened : state.HandleTaken handle)
    (refers : (state.openFileTable handle).ofInumber = (inode : Int)) {resources : Resources}
    {blockSize : Nat} :
    ∃ model', model.Step resources blockSize (.tfsRead handle true len) result model' ∧
      Represents state' model' := by
  obtain ⟨handles, files, taken, nonzero, clamped⟩ := represents.handle inv opened refers
  have size := state.contents_length inode
  cases effect with
  | nothing empty =>
      rw [clamped, ← size] at empty
      have step := @Model.Step.reads _ _ resources blockSize _ _ _ len _ _ _ handles files rfl
      rw [empty, ← clamped] at step
      exact ⟨_, step, represents.setOffset opened refers⟩
  | @bytes block length something cut blockEq =>
      have step := @Model.Step.reads _ _ resources blockSize _ _ _ len length _ _ handles files
        (by rw [cut, clamped, ← size])
      rw [← clamped] at step
      have address : state.blockAddress inode = block * state.blockSize := by
        unfold State.blockAddress
        rw [blockEq, Int.toNat_natCast]
      have returned : ((state.contents inode).drop (state.clampedOffset handle inode)).take
          length = state.fsData.readBytes
            (block * state.blockSize + state.clampedOffset handle inode) length := by
        unfold State.contents
        rw [ByteMemory.readBytes_drop, ByteMemory.readBytes_take, address]
        congr 1
        omega
      rw [returned] at step
      exact ⟨_, step, represents.setOffset opened refers⟩

theorem WriteEffect.refines {handle inode toWrite : Nat} {data : List UInt8} {result : Int}
    (effect : WriteEffect state handle inode data toWrite result state')
    (represents : Represents state model) (inv : Invariant state none)
    (opened : state.HandleTaken handle)
    (refers : (state.openFileTable handle).ofInumber = (inode : Int))
    (covered : toWrite ≤ data.length) :
    ∃ model', model.Step state.resources state.blockSize (.tfsWrite handle (some data) toWrite)
      ⟨result, []⟩ model' ∧ Represents state' model' := by
  obtain ⟨handles, files, taken, nonzero, clamped⟩ := represents.handle inv opened refers
  have size := state.contents_length inode
  have bound := @Invariant.clamped_le _ inv _ inode opened
  have requested : (data.take toWrite).length = toWrite := by
    rw [List.length_take, Nat.min_eq_left covered]
  have prefixOf {length : Nat} (short : length ≤ toWrite) :
      (data.take toWrite).take length = data.take length := by
    rw [List.take_take, Nat.min_eq_left short]
  cases effect with
  | nothing empty =>
      have step := @Model.Write.nothing _ _ model state.resources state.blockSize handle inode
        ((state.openFileTable handle).ofOffset) (state.contents inode) (data.take toWrite)
        (by rw [requested, ← clamped]; exact empty)
      rw [← clamped] at step
      exact ⟨_, .writes handles files step, represents.setOffset opened refers⟩
  | noBlock something empty full =>
      have start : state.clampedOffset handle inode = 0 := by
        rw [clamped, size, empty, Nat.min_zero]
      have requestedSome : min toWrite (state.blockSize - state.clampedOffset handle inode) ≠ 0 := by
        have positive := inv.geometry.blockSizePos
        rw [start] at something ⊢
        intro zero
        have none : toWrite = 0 := by omega
        subst none
        exact something (by simp [writeLength, sizeAdd])
      have step := @Model.Write.noBlock _ _ model state.resources state.blockSize handle inode
        ((state.openFileTable handle).ofOffset) (state.contents inode) (data.take toWrite)
        (by rw [requested, ← clamped]; exact requestedSome)
        (List.eq_nil_of_length_eq_zero (size.trans empty)) (State.NoFreeBlock.none full)
      rw [← clamped] at step
      exact ⟨_, .writes handles files step, represents.setOffset opened refers⟩
  | @grown block length something cut within empty first inside =>
      have step := @Model.Write.stored _ _ model state.resources state.blockSize handle inode
        ((state.openFileTable handle).ofOffset) (state.contents inode) (data.take toWrite) length
        (by rw [requested, ← clamped]; exact cut) something (fun _ => first.some)
      rw [← clamped, prefixOf (by omega)] at step
      have stored : (data.take length).length = length := by
        rw [List.length_take, Nat.min_eq_left within]
      have blockNonzero := (inv.freeBlock_address first).1
      have written := @Represents.written _ _ (represents.setFreeBlock block .taken)
        (inv.takeBlock first.1 inside) handle inode block (state.clampedOffset handle inode) _
        (data.take length) opened refers files (Nat.min_le_right _ _) (Or.inl empty)
        (fun owner owns => (inv.free_unowned first.2.2.1 blockNonzero owner owns).elim)
        blockNonzero (by rw [stored]; change _ ≤ state.blockSize; omega)
      rw [stored] at written
      exact ⟨_, .writes handles files step, written⟩
  | @overwritten block length something cut within nonempty blockEq =>
      have step := @Model.Write.stored _ _ model state.resources state.blockSize handle inode
        ((state.openFileTable handle).ofOffset) (state.contents inode) (data.take toWrite) length
        (by rw [requested, ← clamped]; exact cut) something
        (fun none => by rw [none, List.length_nil] at size; omega)
      rw [← clamped, prefixOf (by omega)] at step
      have stored : (data.take length).length = length := by
        rw [List.length_take, Nat.min_eq_left within]
      obtain ⟨own, ownEq, ownNonzero, _, owns⟩ := inv.backed taken nonzero nonempty
      have same : own = block := by omega
      subst own
      have written := @Represents.written _ _ represents inv _ _ _
        (state.clampedOffset handle inode) _ (data.take length) opened refers files
        (Nat.min_le_right _ _) (Or.inr blockEq)
        (fun owner ownerOwns => inv.blocks.exclusive owner inode block ownerOwns owns) ownNonzero
        (by rw [stored]; omega)
      rw [stored] at written
      exact ⟨_, .writes handles files step, written⟩

/-! ### Links -/

theorem Represents.targetStored (represents : Represents state model)
    (inv : Invariant state none) {block : Nat} {target : CString}
    (first : state.FirstFreeBlock block) (short : target.strlen < state.blockSize) :
    Represents (state.targetStored block target) model := by
  have nonzero := (inv.freeBlock_address first).1
  have past := state.dirEnd_le_blockAddress nonzero
  refine @Represents.unchanged _ _ (state.targetStored block target)
    (represents.setFreeBlock block .taken) { inv.inodes with } ⟨rfl, rfl⟩ ?_
    (@State.sameEntries_store (state.setFreeBlock block .taken) _ _ past).sameNames
    (fun _ _ _ => Iff.rfl)
  intro inode
  have kept := @Invariant.sameInode_store _ _ inv block 0 (target.bytes ++ [0]) inode
    (inv.free_unowned first.2.2.1 nonzero inode)
    (by rw [List.length_append]; change 0 + (target.strlen + 1) ≤ _; omega)
  exact ⟨kept.taken, kept.kind, kept.size, kept.block, kept.bytes⟩

theorem Represents.refuses (represents : Represents state model) (inv : Invariant state none)
    {name : CString}
    (refuses : ¬ validSubName name ∨ ¬ state.Unbound name ∨ state.DirectoryFull) :
    ¬ validSubName name ∨ model.names name ≠ none ∨ ¬ state.resources.entryFree := by
  by_cases short : validSubName name
  · rcases refuses with invalid | bound | full
    · exact Or.inl invalid
    · refine Or.inr (Or.inl (fun none => ?_))
      rcases (represents.names_none_iff inv).mp none with invalid | unbound
      · exact invalid short
      · exact bound unbound
    · exact Or.inr (Or.inr full.none)
  · exact Or.inl short

theorem SymLinkEffect.refines {target link : CString} {result : Int}
    (effect : SymLinkEffect state target link result state')
    (represents : Represents state model) (inv : Invariant state none)
    (targetValid : ValidPathname target) (linkValid : ValidPathname link)
    (short : target.strlen < state.blockSize) {blockSize : Nat} :
    ∃ model', model.Step state.resources blockSize (.tfsSymLink (some target) (some link))
      ⟨result, []⟩ model' ∧ Represents state' model' := by
  cases effect with
  | same same => exact ⟨model, .symLinkRefused (Or.inl same), represents⟩
  | noInode full =>
      exact ⟨model, .symLinkRefused (Or.inr (Or.inl full.none)), represents⟩
  | noBlock first full =>
      exact ⟨model, .symLinkRefused (Or.inr (Or.inr (Or.inl full.none))),
        represents.setInode_of_free inv.inodes first.unused⟩
  | refused _ firstInode firstBlock inside refuses =>
      refine ⟨model, .symLinkRefused (Or.inr (Or.inr (Or.inr ?_))),
        (represents.targetStored inv firstBlock short).setInode_of_free
          (inv.targetStored firstBlock inside).inodes firstInode.unused⟩
      exact represents.refuses inv refuses
  | @linked inode block slot different firstInode firstBlock inside valid unbound dead =>
      have nonzero := (inv.freeBlock_address firstBlock).1
      have same := @State.sameEntries_store state _ (target.bytes ++ [0])
        (State.dirEnd_le_blockAddress state nonzero)
      have stored : (state.targetStored block target).fsData.readBytes
          (block * state.blockSize) (target.strlen + 1) = target.bytes ++ [0] := by
        have whole := ByteMemory.readBytes_writeBytes state.fsData (block * state.blockSize)
          (target.bytes ++ [0])
        rw [List.length_append] at whole
        exact whole
      have taken := (represents.targetStored inv firstBlock short).takeLink
        (inv.targetStored firstBlock inside).inodes firstInode.2.1 firstInode.unused short inside
        stored
      have bound := taken.bindEntry (inv.symLinkTaken firstInode firstBlock inside) valid
        firstInode.1 (same.firstDead.mpr dead) ((same.unbound valid).mpr unbound)
      exact ⟨_, .symLinks targetValid linkValid different firstInode.some firstBlock.some valid
        ((represents.names_none_iff inv).mpr (Or.inr unbound)) dead.some
        (represents.fresh firstInode.unused), bound⟩

theorem LinkEffect.refines {target link : CString} {result : Int}
    (effect : LinkEffect state target link result state') (represents : Represents state model)
    (inv : Invariant state none) (targetValid : ValidPathname target)
    (linkValid : ValidPathname link) {blockSize : Nat} :
    ∃ model', model.Step state.resources blockSize (.tfsLink (some target) (some link))
      ⟨result, []⟩ model' ∧ Represents state' model' := by
  cases effect with
  | missing notFound =>
      have none := (represents.names_none_iff inv).mpr notFound
      refine ⟨model, .linkRefused (Or.inl ?_), represents⟩
      intro inode names
      rw [none] at names
      cases names
  | refused _ refuses =>
      exact ⟨model, .linkRefused (Or.inr (represents.refuses inv refuses)), represents⟩
  | @symLink inode slot binds isSymLink short unbound dead =>
      obtain ⟨_, taken⟩ := inv.binds_taken binds
      have fits := inv.inodes.fits inode taken
      refine ⟨model, .linkRefused (Or.inl ?_), ?_⟩
      · intro held names
        rw [(represents.names _ _).mpr binds] at names
        cases names
        rw [Option.eq_none_iff_forall_ne_some]
        intro contents files
        have isFile := ((represents.files inode contents).mp files).2.1
        rw [isSymLink] at isFile
        cases isFile
      · exact represents.scrub_bind inv short fits dead
  | @linked inode slot binds notSymLink short unbound dead =>
      obtain ⟨nonzero, taken⟩ := inv.binds_taken binds
      have isFile : (state.inodeTable inode).iNodeType = .tFile := by
        cases kind : (state.inodeTable inode).iNodeType with
        | tFile => rfl
        | tDirectory => exact (inv.inodes.onlyRoot inode taken nonzero kind).elim
        | tSymLink => exact (notSymLink kind).elim
      have bound := (represents.bindEntry inv short (inv.inodes.fits inode taken) dead
        unbound).setLinks { inv.inodes with } inode
          (sizeAdd (state.inodeTable inode).iHardLinks 1)
      exact ⟨_, .links targetValid linkValid ((represents.names _ _).mpr binds)
        ((represents.files inode _).mpr ⟨taken, isFile, rfl⟩) short
        ((represents.names_none_iff inv).mpr (Or.inr unbound)) dead.some, bound⟩

theorem UnlinkEffect.refines {target : CString} {result : Int}
    (effect : UnlinkEffect state target result state') (represents : Represents state model)
    (inv : Invariant state none) (valid : ValidPathname target) {resources : Resources}
    {blockSize : Nat} :
    ∃ model', model.Step resources blockSize (.tfsUnlink (some target)) ⟨result, []⟩ model' ∧
      Represents state' model' := by
  have unbound {inode slot : Nat} (short : validSubName target.tail)
      (live : state.EntryLive slot) (named : state.EntryNamed slot target.tail)
      (holds : state.entryInumber slot = (inode : Int)) :
      model.names target.tail = some inode ∧
      Represents ((state.scrubEntry slot).linkDropped inode) (model.unbind target.tail) := by
    refine ⟨(represents.names _ _).mpr ⟨short, slot, live, named, holds⟩, ?_⟩
    exact (represents.scrubEntry inv short live named).setLinks
      (inv.scrubEntry live holds).inodes _ _
  cases effect with
  | missing notFound =>
      exact ⟨model, .unlinkMissing ((represents.names_none_iff inv).mpr notFound), represents⟩
  | deleted short live named holds unlinked unopened =>
      obtain ⟨dropped, lowered⟩ := inv.linkDropped live holds
      obtain ⟨names, represents'⟩ := unbound short live named holds
      exact ⟨_, .unlinks valid names,
        represents'.collect_deleted dropped (lowered.symm.trans unlinked) unopened⟩
  | kept short live named holds used =>
      obtain ⟨dropped, lowered⟩ := inv.linkDropped live holds
      obtain ⟨names, represents'⟩ := unbound short live named holds
      refine ⟨_, .unlinks valid names, represents'.collect_kept dropped (used.imp ?_ id)⟩
      intro linked uncounted
      exact linked (lowered.trans uncounted)

/-! ### Calls and traces -/

/-- What the model relies on in a call that returned: the bytes a write asks for are in its
buffer, and a target fits a block. -/
def Call.Backed (blockSize : Nat) : Call → Prop
  | .tfsWrite _ (some data) toWrite => toWrite ≤ data.length
  | .tfsSymLink (some target) _ => target.strlen < blockSize
  | _ => True

theorem CallEffect.refines {call : Call} {result : CallResult}
    (effect : CallEffect state call result state') (represents : Represents state model)
    (inv : Invariant state none) (backed : call.Backed state.blockSize) :
    ∃ model', model.Step state.resources state.blockSize call result model' ∧
      Represents state' model' := by
  cases effect with
  | openNull mode => exact ⟨model, .openNull mode, represents⟩
  | opens resolves opened =>
      obtain ⟨model', step, represents'⟩ := opened.refines represents inv
      exact ⟨model', .opens (represents.resolves inv resolves) step, represents'⟩
  | closes closed => exact closed.refines represents inv
  | writeRefused toWrite refused =>
      refine ⟨model, .writeInvalid toWrite (refused.imp id (fun closed handle same => ?_)),
        represents⟩
      exact (represents.handles_none inv).mpr (closed handle same)
  | writes opened refers written => exact written.refines represents inv opened refers backed
  | readRefused len refused =>
      refine ⟨model, .readInvalid len (refused.imp id (fun closed handle same => ?_)),
        represents⟩
      exact (represents.handles_none inv).mpr (closed handle same)
  | reads opened refers read => exact read.refines represents inv opened refers
  | symLinkInvalid invalid => exact ⟨model, .symLinkInvalid invalid, represents⟩
  | symLinks targetValid linkValid linked =>
      exact linked.refines represents inv targetValid linkValid backed
  | linkInvalid invalid => exact ⟨model, .linkInvalid invalid, represents⟩
  | links targetValid linkValid linked => exact linked.refines represents inv targetValid linkValid
  | unlinkInvalid invalid => exact ⟨model, .unlinkInvalid invalid, represents⟩
  | unlinks valid unlinked => exact unlinked.refines represents inv valid

/-- The steps of the abstract file system along the calls of a trace, each with what the
tables had left. -/
inductive RefinedTrace (blockSize : Nat) :
    State → Model Nat → List (Call × CallResult) → State → Model Nat → Prop where
  | nil {state : State} {model : Model Nat} : RefinedTrace blockSize state model [] state model
  | cons {state middle state' : State} {model middleModel model' : Model Nat} {call : Call}
      {result : CallResult} {rest : List (Call × CallResult)} :
      model.Step state.resources blockSize call result middleModel →
      Represents middle middleModel →
      RefinedTrace blockSize middle middleModel rest state' model' →
      RefinedTrace blockSize state model ((call, result) :: rest) state' model'

theorem TraceEffect.refines {trace : List (Call × CallResult)} {blockSize : Nat}
    (effects : TraceEffect state trace state') (represents : Represents state model)
    (inv : Invariant state none) (size : state.blockSize = blockSize)
    (backed : ∀ entry, entry ∈ trace → entry.1.Backed blockSize) :
    ∃ model', RefinedTrace blockSize state model trace state' model' ∧
      Represents state' model' := by
  induction effects generalizing model with
  | nil _ => exact ⟨model, .nil, represents⟩
  | cons effect _ inductionHypothesis =>
      subst size
      obtain ⟨middleModel, step, represents'⟩ :=
        effect.refines represents inv (backed _ List.mem_cons_self)
      obtain ⟨model', rest, final⟩ := inductionHypothesis represents' (effect.invariant inv)
        (congrArg TfsParams.blockSize effect.fsParams)
        (fun entry member => backed entry (List.mem_cons_of_mem _ member))
      exact ⟨model', .cons step represents' rest, final⟩

theorem Expands.backed {call : Call} {result : CallResult} {trace : List (Call × CallResult)}
    {blockSize : Nat} (expands : Expands call result trace)
    (admissible : call.Admissible blockSize) :
    ∀ entry, entry ∈ trace → entry.1.Backed blockSize := by
  intro entry member
  cases expands with
  | single _ notCopy =>
      rw [List.mem_singleton] at member
      subst entry
      cases call with
      | tfsWrite fhandle buffer toWrite =>
          cases buffer with
          | none => trivial
          | some data => exact admissible.1
      | tfsSymLink target link =>
          cases target with
          | none => trivial
          | some path => exact admissible
      | tfsCopyFromExternalFs sourcePath sourceFile destPath => exact (notCopy _ _ _ rfl).elim
      | _ => trivial
  | copyRefused _ => cases member
  | copyUnopened _ _ =>
      rw [List.mem_singleton] at member
      subst entry
      trivial
  | copied _ _ shape =>
      rcases List.mem_cons.mp member with same | later
      · subst entry
        trivial
      · rcases List.mem_append.mp later with write | last
        · obtain ⟨_, writes⟩ := shape.writesChunk entry write
          rw [writes]
          exact Nat.le_refl _
        · rw [List.mem_singleton] at last
          subst entry
          trivial

/-! ### Runs of admissible calls -/

/-- The calls whose callers keep their promises -/
def AdmissibleIn (params : TfsParams) (_ : State) (call : Call) : Prop :=
  call.Admissible params.blockSize

/-- What the abstract file system can reach by public calls -/
inductive Model.Reachable (blockSize : Nat) : Model Nat → Prop where
  | empty : Model.Reachable blockSize Model.empty
  | step {model model' : Model Nat} {resources : Resources} {call : Call} {result : CallResult} :
      Model.Reachable blockSize model → model.Step resources blockSize call result model' →
      Model.Reachable blockSize model'

theorem RefinedTrace.reachable {trace : List (Call × CallResult)} {model' : Model Nat}
    {blockSize : Nat} (refined : RefinedTrace blockSize state model trace state' model')
    (reachable : Model.Reachable blockSize model) : Model.Reachable blockSize model' := by
  induction refined with
  | nil => exact reachable
  | cons step _ _ inductionHypothesis => exact inductionHypothesis (.step reachable step)

/-- A call that returned is a trace of steps of the abstract file system. -/
theorem call_refines {call : Call} {result : CallResult} (represents : Represents state model)
    (inv : Invariant state none) (admissible : call.Admissible state.blockSize)
    (returned : call.run state = .ok (result, state')) :
    ∃ trace model', Expands call result trace ∧
      RefinedTrace state.blockSize state model trace state' model' ∧ Represents state' model' := by
  obtain ⟨trace, expands, effects⟩ := call_effects inv returned
  obtain ⟨model', refined, final⟩ :=
    effects.refines represents inv rfl (expands.backed admissible)
  exact ⟨trace, model', expands, refined, final⟩

/-- Every state reached by admissible calls represents a reachable abstract file system. -/
theorem Reachable.represents {params : TfsParams}
    (reachable : Reachable params (AdmissibleIn params) state) :
    ∃ model, Represents state model ∧ Model.Reachable params.blockSize model := by
  induction reachable with
  | init returned => exact ⟨_, (tfsInit_initial returned).1.represents, .empty⟩
  | call before admissible returned inductionHypothesis =>
      obtain ⟨model, represents, reached⟩ := inductionHypothesis
      obtain ⟨inv, same⟩ := before.invariant
      subst same
      obtain ⟨trace, model', _, refined, final⟩ := call_refines represents inv admissible returned
      exact ⟨model', final, refined.reachable reached⟩

/-! ### Calls return -/

/-- Where the tables fit, an admissible call returns unless it follows a cycle of symbolic
links. -/
theorem call_returns {call : Call} (represents : Represents state model)
    (inv : Invariant state none) (fits : state.Fits)
    (admissible : call.Admissible state.blockSize) :
    (∃ result state', call.run state = .ok (result, state')) ∨
      (call.run state = .error .diverges ∧ call.FollowsCycle state) := by
  have outcome := @outcome_call (fun fault => fault = .diverges ∧ call.FollowsCycle state) _ inv
    (Or.inr fits) (represents.readable inv.geometry) call (fun cycle => ⟨rfl, cycle⟩)
    (Or.inr admissible)
  cases run : call.run state with
  | ok pair => exact Or.inl ⟨pair.1, pair.2, rfl⟩
  | error fault =>
      obtain ⟨same, cycle⟩ := outcome.of_error run
      subst same
      exact Or.inr ⟨rfl, cycle⟩

end TecnicoFS.FileSystem
