/-
Symbolic links, hard links and unlinking.
-/

import TecnicoFS.FileSystem.DataPathSpec

set_option autoImplicit false

namespace TecnicoFS.FileSystem

open FaultAction TableSearch

variable {faults : Fault → Prop} {state : State}

/-! ### Symbolic links -/

theorem State.SameEntries.unbound {memory : ByteMemory}
    (same : state.SameEntries { state with fsData := memory }) {name : CString}
    (short : validSubName name) :
    ({ state with fsData := memory } : State).Unbound name ↔ state.Unbound name := by
  constructor
  · intro unbound slot live named
    exact unbound slot ((same.live slot).mpr live) (((same slot live.1).2 name short).mpr named)
  · intro unbound slot live named
    exact unbound slot ((same.live slot).mp live) (((same slot live.1).2 name short).mp named)

theorem State.SameEntries.firstDead {memory : ByteMemory}
    (same : state.SameEntries { state with fsData := memory }) {slot : Nat} :
    ({ state with fsData := memory } : State).FirstDead slot ↔ state.FirstDead slot := by
  constructor
  · rintro ⟨inside, dead, before⟩
    exact ⟨inside, (same slot inside).1.symm.trans dead,
      fun earlier lower => (same.live earlier).mp (before earlier lower)⟩
  · rintro ⟨inside, dead, before⟩
    exact ⟨inside, (same slot inside).1.trans dead,
      fun earlier lower => (same.live earlier).mpr (before earlier lower)⟩

theorem State.SameEntries.refused {memory : ByteMemory}
    (same : state.SameEntries { state with fsData := memory }) {name : CString}
    (refused : ¬ validSubName name ∨ ¬ ({ state with fsData := memory } : State).Unbound name ∨
      ({ state with fsData := memory } : State).DirectoryFull) :
    ¬ validSubName name ∨ ¬ state.Unbound name ∨ state.DirectoryFull := by
  by_cases short : validSubName name
  · rcases refused with invalid | bound | full
    · exact (invalid short).elim
    · exact Or.inr (Or.inl (fun unbound => bound ((same.unbound short).mpr unbound)))
    · exact Or.inr (Or.inr (fun slot inside => (same.live slot).mp (full slot inside)))
  · exact Or.inl short

/-- Nobody owns a FREE block. -/
theorem Invariant.free_unowned (inv : Invariant state none) {block : Nat}
    (isFree : state.freeBlocks block = .free) (nonzero : block ≠ 0) (inode : Nat) :
    ¬ state.OwnsBlock inode (block : Int) := by
  intro owns
  by_cases root : inode = 0
  · subst inode
    have same := owns.2.1
    rw [inv.root.inFirstBlock] at same
    omega
  · obtain ⟨slot, same, _, taken⟩ := inv.blocks.owned inode _ owns root
    have equal : slot = block := by omega
    subst slot
    rw [taken.2] at isFree
    cases isFree

/-- The target of a new link in its new block -/
theorem Invariant.targetStored (inv : Invariant state none) {block : Nat} {target : CString}
    (first : state.FirstFreeBlock block)
    (inside : block * state.blockSize + target.strlen < state.dataBytes) :
    Invariant (state.targetStored block target) none := by
  have nonzero := (inv.freeBlock_address first).1
  have taken := @Invariant.takeBlock _ _ block inv first.1 (by omega)
  exact taken.store (State.dirEnd_le_blockAddress (state.setFreeBlock block .taken) nonzero)

/-- The inode of the new link, before its entry exists -/
theorem Invariant.symLinkTaken (inv : Invariant state none) {inode block : Nat}
    {target : CString} (firstInode : state.FirstFreeInode inode)
    (firstBlock : state.FirstFreeBlock block)
    (inside : block * state.blockSize + target.strlen < state.dataBytes) :
    Invariant ((state.targetStored block target).takeInode inode
      { newInode .tSymLink with iDataBlock := block }) (some (inode, 1)) := by
  have nonzero := (inv.freeBlock_address firstBlock).1
  refine (inv.targetStored firstBlock inside).takeInode firstInode.2.1 ?_ firstInode.1
    (fun isDirectory => by cases isDirectory) rfl rfl ?_
  · rintro ⟨_, taken⟩
    have isFree := firstInode.2.2.1
    rw [show state.freeinodeTs inode = .taken from taken] at isFree
    cases isFree
  · intro _
    refine ⟨block, rfl, nonzero, ⟨firstBlock.2.1, ?_⟩, ?_⟩
    · exact Function.update_self _ _ _
    · intro owner owns
      exact inv.free_unowned firstBlock.2.2.1 nonzero owner owns

theorem State.symLinkTaken_eq (inode block : Nat) (target : CString) :
    (((state.takeInode inode (newInode .tSymLink)).setFreeBlock block .taken).setInode inode
      { newInode .tSymLink with iDataBlock := block }).store (block * state.blockSize)
        (target.bytes ++ [0]) =
      (state.targetStored block target).takeInode inode
        { newInode .tSymLink with iDataBlock := block } := by
  simp only [State.takeInode, State.setInode, State.setFreeBlock, State.store,
    State.setFreeinode, State.targetStored, State.blockSize, Function.update_idem]

/-- Where the link gets an inode and a block, they have `int` numbers and the block is
as asked. -/
def State.NewTarget (state : State) (target link : CString) (accepts : Nat → Prop) : Prop :=
  target = link ∨ state.NoFreeInode ∨ ∃ inode, state.FirstFreeInode inode ∧
    (state.NoFreeBlock ∨ ∃ block, state.FirstFreeBlock block ∧ accepts block)

/-- The target ends within the data area. -/
def State.TargetInside (state : State) (target link : CString) : Prop :=
  state.NewTarget target link
    (fun block => block * state.blockSize + target.strlen < state.dataBytes)

theorem State.FirstFreeInode.eq {left right : Nat} (leftFirst : state.FirstFreeInode left)
    (isFree : state.freeinodeTs right = .free)
    (before : ∀ earlier, earlier < right → state.freeinodeTs earlier = .taken) :
    left = right :=
  first_unique (by rw [leftFirst.2.2.1]; decide) leftFirst.2.2.2 (by rw [isFree]; decide) before

theorem State.FirstFreeBlock.eq {left right : Nat} (leftFirst : state.FirstFreeBlock left)
    (isFree : state.freeBlocks right = .free)
    (before : ∀ earlier, earlier < right → state.freeBlocks earlier = .taken) :
    left = right :=
  first_unique (by rw [leftFirst.2.2.1]; decide) leftFirst.2.2.2 (by rw [isFree]; decide) before

theorem State.NewTarget.inode {target link : CString} {accepts : Nat → Prop}
    (found : state.NewTarget target link accepts) (different : target ≠ link) :
    InodesReached (fun _ => False) state := by
  intro inode inside isFree before large
  rcases found with same | full | ⟨first, firstInode, _⟩
  · exact different same
  · rw [full inode inside] at isFree
    cases isFree
  · rw [← firstInode.eq isFree before] at large
    exact large firstInode.1

theorem State.NewTarget.block {target link : CString} {accepts : Nat → Prop}
    (found : state.NewTarget target link accepts) (different : target ≠ link) {inode : Nat}
    (firstInode : state.FirstFreeInode inode) :
    state.NoFreeBlock ∨ ∃ block, state.FirstFreeBlock block ∧ accepts block := by
  rcases found with same | full | ⟨_, _, blocks⟩
  · exact (different same).elim
  · have taken := full inode firstInode.2.1
    rw [firstInode.2.2.1] at taken
    cases taken
  · exact blocks

theorem State.NewTarget.blocks {target link : CString} {accepts : Nat → Prop}
    (found : state.NewTarget target link accepts) (different : target ≠ link) {inode : Nat}
    (firstInode : state.FirstFreeInode inode) : BlocksReached (fun _ => False) state := by
  intro block inside isFree before large
  rcases found.block different firstInode with full | ⟨first, firstBlock, _⟩
  · rw [full block inside] at isFree
    cases isFree
  · rw [← firstBlock.eq isFree before] at large
    exact large firstBlock.1

theorem State.NewTarget.accepted {target link : CString} {accepts : Nat → Prop}
    (found : state.NewTarget target link accepts) (different : target ≠ link) {inode block : Nat}
    (firstInode : state.FirstFreeInode inode) (firstBlock : state.FirstFreeBlock block) :
    accepts block := by
  rcases found.block different firstInode with full | ⟨first, otherBlock, accepted⟩
  · have taken := full block firstBlock.2.1
    rw [firstBlock.2.2.1] at taken
    cases taken
  · rw [otherBlock.eq firstBlock.2.2.1 firstBlock.2.2.2] at accepted
    exact accepted

theorem State.NewTarget.mono {target link : CString} {accepts accepts' : Nat → Prop}
    (found : state.NewTarget target link accepts)
    (weaker : ∀ block, state.FirstFreeBlock block → accepts block → accepts' block) :
    state.NewTarget target link accepts' :=
  found.imp id (Or.imp id (Exists.imp (fun _ => And.imp id (Or.imp id (Exists.imp
    (fun block accepted => ⟨accepted.1, weaker block accepted.1 accepted.2⟩))))))

theorem AllocationState.free_of_ne {mark : AllocationState} (unused : mark ≠ .taken) :
    mark = .free := by
  cases mark with
  | free => rfl
  | taken => exact (unused rfl).elim

theorem State.Fits.firstFreeInode (fits : state.Fits) :
    state.NoFreeInode ∨ ∃ inode, state.FirstFreeInode inode := by
  rcases all_or_first state.inodeTableSize state.freeinodeTs .taken with full |
    ⟨inode, inside, unused, before⟩
  · exact Or.inl full
  · exact Or.inr ⟨inode, Nat.lt_trans inside fits.1, inside, AllocationState.free_of_ne unused,
      before⟩

theorem State.Fits.firstFreeBlock (fits : state.Fits) :
    state.NoFreeBlock ∨ ∃ block, state.FirstFreeBlock block := by
  rcases all_or_first state.dataBlocks state.freeBlocks .taken with full |
    ⟨block, inside, unused, before⟩
  · exact Or.inl full
  · exact Or.inr ⟨block, Nat.lt_trans inside fits.2.1, inside, AllocationState.free_of_ne unused,
      before⟩

/-- A target shorter than a block is stored in its block. -/
theorem Invariant.targetInside (inv : Invariant state none) (fits : state.Fits)
    {target : CString} (short : target.strlen < state.blockSize) (link : CString) :
    state.TargetInside target link := by
  rcases fits.firstFreeInode with full | ⟨inode, firstInode⟩
  · exact Or.inr (Or.inl full)
  rcases fits.firstFreeBlock with full | ⟨block, firstBlock⟩
  · exact Or.inr (Or.inr ⟨inode, firstInode, Or.inl full⟩)
  refine Or.inr (Or.inr ⟨inode, firstInode, Or.inr ⟨block, firstBlock, ?_⟩⟩)
  have blockEnd := inv.geometry.blockEnd fits firstBlock.2.1
  omega

theorem outcome_tfsSymLink (inv : Invariant state none) (target link : Option CString)
    (inside : faults .undefined ∨ ∀ targetPath linkPath, target = some targetPath →
      link = some linkPath → state.TargetInside targetPath linkPath) :
    Outcome faults (tfsSymLink target link state)
      (fun result => CallEffect state (.tfsSymLink target link) ⟨result, []⟩) := by
  unfold tfsSymLink
  cases targetValidity : validPathname target with
  | none => exact outcome_pure (.symLinkInvalid (Or.inl targetValidity))
  | some targetPath =>
      cases linkValidity : validPathname link with
      | none => exact outcome_pure (.symLinkInvalid (Or.inr linkValidity))
      | some linkPath =>
          obtain ⟨rfl, targetValid⟩ := validPathname_some targetValidity
          obtain ⟨rfl, linkValid⟩ := validPathname_some linkValidity
          apply outcome_ite
          · intro same
            exact outcome_pure (.symLinks targetValid linkValid (.same same))
          intro different
          have inside : faults .undefined ∨ state.TargetInside targetPath linkPath :=
            inside.imp id (fun inside => inside targetPath linkPath rfl rfl)
          have inodesReached : InodesReached faults state :=
            fun inode inTable isFree before large => inside.resolve_right
              (fun inside => inside.inode different inode inTable isFree before large)
          apply outcome_bind (outcome_inodeCreate (by decide) inv.geometry.blockSizePos
            inodesReached)
          rintro result state' (⟨rfl, same, full⟩ | ⟨inode, rfl, same, firstInode⟩)
          · subst state'
            rw [if_pos rfl]
            exact outcome_pure (.symLinks targetValid linkValid (.noInode full))
          subst state'
          rw [if_neg (by omega)]
          apply outcome_bind (@outcome_inodeGet _ (state.takeInode inode (newInode .tSymLink)) _
            firstInode.2.1)
          rintro found state' ⟨sameInode, same⟩
          subst found
          subst state'
          have blocksReached : BlocksReached faults state :=
            fun block inTable isFree before large => inside.resolve_right
              (fun inside => inside.blocks different firstInode block inTable isFree before large)
          apply outcome_bind (@outcome_dataBlockAlloc _ (state.takeInode inode (newInode .tSymLink))
            inv.geometry.blockSizePos blocksReached)
          rintro result state' (⟨rfl, same, full⟩ | ⟨block, rfl, same, firstBlock⟩)
          · subst state'
            rw [if_pos rfl]
            apply outcome_bind (@outcome_inodeDelete _ _ _
              (fun _ state' => state' = state.setInode inode (newInode .tSymLink)) _ _ _)
            · rintro _ state' same
              subst state'
              exact outcome_pure (.symLinks targetValid linkValid (.noBlock firstInode full))
            · exact (State.takeInode_taken firstInode.2.1).mpr (Or.inl rfl)
            · intro nonempty
              rw [State.takeInode, State.setInode_apply_self] at nonempty
              exact (Nat.lt_irrefl 0 nonempty).elim
            · exact State.deleteInode_takeInode firstInode.2.2.1 rfl
          subst state'
          rw [if_neg (by omega)]
          apply outcome_modify_bind
          obtain ⟨blockNonzero, address⟩ := inv.freeBlock_address firstBlock
          have atInode : ((state.takeInode inode (newInode .tSymLink)).setFreeBlock block
              .taken).inodeTable inode = newInode .tSymLink := State.setInode_apply_self _ _
          rw [atInode]
          apply outcome_bind (@outcome_dataBlockGet _
            (((state.takeInode inode (newInode .tSymLink)).setFreeBlock block .taken).setInode
              inode { newInode .tSymLink with iDataBlock := block }) block firstBlock.2.1)
          rintro base state' ⟨baseEq, same⟩
          replace baseEq : base = block * state.blockSize := baseEq.trans address
          subst base
          subst state'
          apply outcome_bind (@outcome_storeBytes _ _ _ _
            (fun _ state' => block * state.blockSize + targetPath.strlen < state.dataBytes ∧
              state' = (state.targetStored block targetPath).takeInode inode { newInode .tSymLink
                with iDataBlock := block })
            ?_ ?_)
          · rintro _ state' ⟨inside, same⟩
            have takenInv := inv.symLinkTaken firstInode firstBlock inside
            rw [← same] at takenInv
            apply outcome_bind (@outcome_inodeGet _ _ 0 takenInv.root.inodeTaken.1)
            rintro root after ⟨rootEq, sameState⟩
            subst root
            subst after
            subst state'
            apply outcome_bind (outcome_addDirEntry takenInv.root takenInv.geometry
              firstInode.2.1)
            have same := @State.sameEntries_store state _ (targetPath.bytes ++ [0])
              (State.dirEnd_le_blockAddress state blockNonzero)
            rintro added state' (⟨rfl, sameState, refused⟩ | ⟨slot, rfl, sameState, valid,
              unbound, dead⟩)
            · subst state'
              rw [if_pos rfl]
              apply outcome_bind (@outcome_inodeDelete _ _ _
                (fun _ state' => state' = (state.targetStored block targetPath).setInode inode
                  (newInode .tSymLink))
                (takenInv.counts.slackTaken inode rfl).1 _ _)
              · rintro _ state' sameState
                subst state'
                exact outcome_pure (.symLinks targetValid linkValid
                  (.refused different firstInode firstBlock inside (same.refused refused)))
              · intro nonempty
                rw [State.takeInode, State.setInode_apply_self] at nonempty
                exact (Nat.lt_irrefl 0 nonempty).elim
              · exact @State.deleteInode_takeInode (state.targetStored block targetPath) _ _
                  firstInode.2.2.1 rfl
            · subst state'
              rw [if_neg (by decide)]
              exact outcome_pure (.symLinks targetValid linkValid
                (.linked different firstInode firstBlock inside valid
                  ((same.unbound valid).mp unbound) (same.firstDead.mp dead)))
          · intro fits
            rw [List.length_append] at fits
            exact ⟨by exact fits, State.symLinkTaken_eq inode block targetPath⟩
          · intro outside
            refine inside.resolve_right (fun inside => outside ?_)
            have stored := inside.accepted different firstInode firstBlock
            rw [List.length_append]
            exact stored

/-! ### Hard links -/

/-- The entry just made is the first one with its name. -/
theorem State.bindEntry_named_before {slot inode : Nat} {name : CString}
    (short : validSubName name) (unbound : state.Unbound name) (dead : state.FirstDead slot)
    (earlier : Nat) (lower : earlier < slot) :
    ¬ (state.bindEntry slot name inode).EntryNamed earlier name := by
  rw [State.bindEntry_entryNamed state slot earlier name name inode short short,
    if_neg (Nat.ne_of_lt lower)]
  exact unbound earlier (dead.2.2 earlier lower)

theorem outcome_tfsLink (inv : Invariant state none) (wide : Wide faults state)
    (target link : Option CString) :
    Outcome faults (tfsLink target link state)
      (fun result => CallEffect state (.tfsLink target link) ⟨result, []⟩) := by
  unfold tfsLink
  cases targetValidity : validPathname target with
  | none => exact outcome_pure (.linkInvalid (Or.inl targetValidity))
  | some targetPath =>
      cases linkValidity : validPathname link with
      | none => exact outcome_pure (.linkInvalid (Or.inr linkValidity))
      | some linkPath =>
          obtain ⟨rfl, targetValid⟩ := validPathname_some targetValidity
          obtain ⟨rfl, linkValid⟩ := validPathname_some linkValidity
          apply outcome_bind (@outcome_inodeGet _ _ 0 inv.root.inodeTaken.1)
          rintro root after ⟨rootEq, same⟩
          subst root
          subst after
          apply outcome_bind (outcome_tfsLookup inv wide.searchable targetPath)
          rintro result state' ⟨same, ⟨rfl, missing⟩ | ⟨inode, rfl, binds⟩⟩
          · subst state'
            rw [if_pos rfl]
            exact outcome_pure (.links targetValid linkValid
              (.missing (missing.resolve_left (fun invalid => invalid targetValid))))
          subst state'
          obtain ⟨_, taken⟩ := inv.binds_taken binds
          rw [if_neg (by omega)]
          apply outcome_bind (outcome_addDirEntry inv.root inv.geometry taken.1)
          rintro added state' (⟨rfl, same, refused⟩ | ⟨slot, rfl, same, short, unbound, dead⟩)
          · subst state'
            rw [if_pos rfl]
            exact outcome_pure (.links targetValid linkValid (.refused binds refused))
          subst state'
          rw [if_neg (by decide)]
          apply outcome_bind (@outcome_inodeGet _ (state.bindEntry slot linkPath.tail inode) _
            taken.1)
          rintro found after ⟨foundEq, same⟩
          subst found
          subst after
          apply outcome_get_bind
          apply outcome_ite
          · intro isSymLink
            have named := (State.bindEntry_entryNamed state slot slot linkPath.tail linkPath.tail
              inode short short).mpr (by rw [if_pos rfl])
            apply outcome_bind (@outcome_clearDirEntry _ (state.bindEntry slot linkPath.tail inode)
              { inv.root with } { inv.geometry with } _ _
              (fun _ after => after = (state.bindEntry slot linkPath.tail inode).scrubEntry slot)
              short dead.1 named (State.bindEntry_named_before short unbound dead) rfl)
            rintro _ after same
            subst after
            exact outcome_pure (.links targetValid linkValid
              (.symLink binds isSymLink short unbound dead))
          · intro notSymLink
            apply outcome_modify_bind
            exact outcome_pure (.links targetValid linkValid
              (.linked binds notSymLink short unbound dead))

/-! ### Unlinking -/

theorem outcome_tfsUnlink (inv : Invariant state none) (wide : Wide faults state)
    (target : Option CString) :
    Outcome faults (tfsUnlink target state)
      (fun result => CallEffect state (.tfsUnlink target) ⟨result, []⟩) := by
  unfold tfsUnlink
  cases validity : validPathname target with
  | none => exact outcome_pure (.unlinkInvalid validity)
  | some path =>
      obtain ⟨rfl, valid⟩ := validPathname_some validity
      apply outcome_bind (@outcome_inodeGet _ _ 0 inv.root.inodeTaken.1)
      rintro root after ⟨rootEq, same⟩
      subst root
      subst after
      apply outcome_bind (outcome_tfsLookup inv wide.searchable path)
      rintro result state' ⟨same, ⟨rfl, missing⟩ | ⟨inode, rfl, binds⟩⟩
      · subst state'
        rw [if_pos rfl]
        exact outcome_pure (.unlinks valid
          (.missing (missing.resolve_left (fun invalid => invalid valid))))
      subst state'
      obtain ⟨nonzero, taken⟩ := inv.binds_taken binds
      obtain ⟨short, slot, live, named, holds⟩ := binds
      rw [if_neg (by omega)]
      apply outcome_bind (outcome_inodeGet taken.1)
      rintro found after ⟨foundEq, same⟩
      subst found
      subst after
      apply outcome_get_bind
      apply outcome_require_bind
      · intro _
        apply outcome_bind (@outcome_clearDirEntry _ _ inv.root inv.geometry _ _
          (fun cleared after => cleared = 0 ∧ after = state.scrubEntry slot) short live.1 named
          (inv.directory.named_before short live named) ⟨rfl, rfl⟩)
        rintro cleared after ⟨clearedEq, same⟩
        subst cleared
        subst after
        rw [if_neg (by decide)]
        have dropped : Outcome faults (dropHardLink inode inode (state.scrubEntry slot))
            (fun _ => CallEffect state (.tfsUnlink (some path)) ⟨0, []⟩) := by
          unfold dropHardLink
          apply outcome_modify_bind
          apply outcome_get_bind
          apply outcome_bind (@outcome_isFileOpen _ ((state.scrubEntry slot).linkDropped inode) wide
            _ taken.1
            (fun stillOpen after => after = (state.scrubEntry slot).linkDropped inode ∧
              (stillOpen = false ↔ ¬ state.IsOpen inode))
            (fun isOpen => ⟨rfl, ?_⟩) (fun notOpen => ⟨rfl, ?_⟩))
          · rintro stillOpen after ⟨same, openness⟩
            subst after
            have sameInodes : (state.scrubEntry slot).inodeTable = state.inodeTable := rfl
            apply outcome_ite
            · intro last
              rw [State.setInode_apply_self, sameInodes] at last
              apply @outcome_inodeDelete _ ((state.scrubEntry slot).linkDropped inode) _ _ taken
              · intro nonempty
                rw [State.linkDropped, State.setLinks_apply, if_pos rfl] at nonempty ⊢
                dsimp only at nonempty ⊢
                exact inv.deletable taken nonzero nonempty
              · exact .unlinks valid
                  (.deleted short live named holds last.1 (openness.mp last.2))
            · intro kept
              rw [State.setInode_apply_self, sameInodes, Classical.not_and_iff_not_or_not,
                openness, not_not] at kept
              exact outcome_pure (.unlinks valid (.kept short live named holds kept))
          · exact ⟨fun impossible => Bool.noConfusion impossible,
              fun notOpen => (notOpen isOpen).elim⟩
          · exact ⟨fun _ => notOpen, fun _ => rfl⟩
        apply outcome_bind dropped
        intro _ after effect
        exact outcome_pure effect
      · intro isDirectory
        rw [not_not] at isDirectory
        exact (inv.inodes.onlyRoot inode taken nonzero isDirectory).elim

end TecnicoFS.FileSystem
