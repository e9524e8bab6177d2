/-
Directory and link counts under concurrency.

The claims about all interleavings follow from the roles of the threads; what concurrent
`tfs_open` calls with `TFS_O_CREAT` leave behind follows from `open_mutex` as well.
-/

import TecnicoFS.FileSystem.LinkRoles
import TecnicoFS.FileSystem.Rebinding

set_option autoImplicit false

namespace TecnicoFS.FileSystem

open FaultAction LinkLedger

variable {Thread : Type} {params : TfsParams} {state : State}

/-! ### Runs -/

theorem Invariant.nodeOk (inv : Invariant state none) {inode : Nat}
    (taken : state.InodeTaken inode) (nonzero : inode ≠ 0) : NodeOk state inode where
  nonRoot := nonzero
  inside := taken.1
  notDirectory := inv.inodes.onlyRoot inode taken nonzero
  backed := by
    intro nonempty
    obtain ⟨block, same, blockNonzero, blockTaken, _⟩ := inv.backed taken nonzero nonempty
    exact ⟨block, same, blockNonzero, blockTaken.1⟩

theorem Invariant.storeOk (inv : Invariant state none) : StoreOk state where
  geometry := inv.geometry
  root := inv.root
  directory := inv.directory
  nodes inode taken nonzero := inv.nodeOk taken nonzero
  fits := inv.inodes.fits
  blocks := inv.blocks.inside
  handles handle opened := by
    obtain ⟨inode, refers, nonzero, taken, _⟩ := inv.holders.handleHolds handle opened
    exact ⟨inode, refers, inv.nodeOk taken nonzero⟩

/-- Between two calls of a single caller every counter is exact. -/
theorem Invariant.links (inv : Invariant state none) :
    Consistent state.ledger (fun _ : Thread => .none) := by
  apply Consistent.of_exact
  · intro slot inum holds
    exact (State.ledger_holder.mp holds).1.1
  · intro slot inum holds
    obtain ⟨live, same⟩ := State.ledger_holder.mp holds
    obtain ⟨inode, held, nonzero, taken⟩ := inv.holders.entryHolds slot live
    exact State.ledger_allocated.mpr ⟨inode, same.symm.trans held, nonzero, taken⟩
  · intro inum count links
    obtain ⟨inode, rfl, nonzero, taken, counts⟩ := State.ledger_links.mp links
    rw [State.ledger_total, ← counts, inv.counts.linkCount inode taken nonzero]
    rfl

theorem SharedFs.Initial.linksOk {shared : SharedFs Thread}
    (initial : SharedFs.Initial params shared) :
    LinksOk shared.now.fs shared.points (fun _ => .none) := by
  obtain ⟨inv, _⟩ := initial.reached.invariant
  refine ⟨inv.storeOk, inv.links, ?_, ?_⟩
  · intro thread
    rw [initial.idle thread]
    rfl
  · intro thread inum resolves
    rw [initial.idle thread] at resolves
    cases resolves

/-- A section that finished had one of the listed effects. -/
theorem LinksOk.effect {points : Thread → TfsPoint} {roles : Thread → Role Int}
    (ok : LinksOk state points roles) {thread : Thread} {body : TfsAction TfsPoint}
    {next : TfsPoint} {after : State} (section_ : (points thread).nextSection = some body)
    (returned : body state = .ok (next, after)) :
    SectionEffect state (points thread) next after :=
  (@outcome_section (fun _ => True) _ trivial ok.store ok.entriesHeld _ (ok.sound thread)
    (Or.inl (fun _ => trivial)) _ section_).of_ok returned

variable [DecidableEq Thread]

theorem SharedStep.linksOk {thread : Thread} {before after : SharedFs Thread}
    (step : SharedStep thread before after) {roles : Thread → Role Int}
    (ok : LinksOk before.now.fs before.points roles) :
    ∃ roles, LinksOk after.now.fs after.points roles := by
  cases step with
  | calls quiet enters => exact ⟨roles, ok.call quiet enters⟩
  | runs section_ free returned =>
      obtain ⟨role, kept⟩ := ok.section free (ok.effect section_ returned)
      exact ⟨_, kept⟩

theorem sharedSystem_linksOk {shared : SharedFs Thread}
    (reachable : (sharedSystem Thread params).Reachable shared) :
    ∃ roles, LinksOk shared.now.fs shared.points roles := by
  refine @ThreadSystem.Reachable.preserves _ _ _
    (fun shared : SharedFs Thread => ∃ roles, LinksOk shared.now.fs shared.points roles) _
    reachable ?_ ?_
  · intro _ initial
    exact ⟨_, initial.linksOk⟩
  · rintro _ _ _ ⟨_, ok⟩ step
    exact step.linksOk ok

/-! ### Names -/

/-- The path whose entry the section adds -/
def TfsPoint.enters : TfsPoint → Option CString
  | .openCreated path _ | .symStored path _ | .linkFound path _ => some path
  | _ => none

/-- The path whose entry the section clears -/
def TfsPoint.clears : TfsPoint → Option CString
  | .linkWithdraw path _ | .unlinkFound path _ => some path
  | _ => none

/-- The same slots are live, under the same names. -/
structure State.SameSlots (state after : State) : Prop where
  slots : after.maxDirEntries = state.maxDirEntries
  live : ∀ slot, after.EntryLive slot ↔ state.EntryLive slot
  names : state.SameNames after

omit [DecidableEq Thread] in
theorem State.sameSlots_of_memory {after : State} (memory : after.fsData = state.fsData)
    (sizes : after.fsParams = state.fsParams) : state.SameSlots after where
  slots := by
    unfold State.maxDirEntries State.blockSize
    rw [sizes]
  live slot := by
    unfold State.EntryLive State.entryInumber State.dInumber State.maxDirEntries State.blockSize
    rw [memory, sizes]
  names := State.sameNames_of_memory memory sizes

omit [DecidableEq Thread] in
/-- A section leaves the slots alone, fills one or clears one. -/
theorem SectionEffect.directory {point next : TfsPoint} {after : State}
    (effect : SectionEffect state point next after) (ok : StoreOk state)
    (sound : point.Sound state) :
    state.SameSlots after ∨
      (∃ path, ∃ inode slot : Nat, point.enters = some path ∧ inode < 2 ^ 31 ∧
        state.Accepts slot path.tail ∧ after = state.bindEntry slot path.tail inode) ∨
      ∃ path, ∃ inode slot : Nat, point.clears = some path ∧
        state.EntryBinds slot path.tail inode ∧ after = state.scrubEntry slot := by
  cases effect with
  | openTruncates _ =>
      left
      refine State.sameSlots_of_memory State.truncated_fsData ?_
      unfold State.truncated State.releaseBlock
      split
      · split <;> rfl
      · rfl
  | openEnters accepts | symEnters accepts | linkPublishes accepts _ | linkRetracts accepts _ =>
      obtain ⟨inode, same, _, taken⟩ := sound
      cases Int.ofNat_inj.mp same
      exact Or.inr (Or.inl ⟨_, _, _, rfl, ok.fits _ taken, accepts, rfl⟩)
  | openDeletes | symDeletes =>
      exact Or.inl (State.sameSlots_of_memory State.deleteInode_fsData State.deleteInode_fsParams)
  | @closesLast handle inode _ _ _ _ _ =>
      exact Or.inl (State.sameSlots_of_memory
        (@State.deleteInode_fsData (state.closeHandle handle) inode)
        (@State.deleteInode_fsParams (state.closeHandle handle) inode))
  | @unlinkDeletes inode _ _ =>
      exact Or.inl (State.sameSlots_of_memory
        (@State.deleteInode_fsData (state.linkDropped inode) inode)
        (@State.deleteInode_fsParams (state.linkDropped inode) inode))
  | @symStores target link inode block first _ =>
      have same := @State.sameEntries_store ((state.setFreeBlock block .taken).setInode inode
        { state.inodeTable inode with iDataBlock := block }) _ (target.bytes ++ [0])
          (ok.linkStored_past first)
      exact Or.inl ⟨rfl, same.live, same.sameNames⟩
  | linkClears binds | unlinkClears binds =>
      exact Or.inr (Or.inr ⟨_, _, _, rfl, binds, rfl⟩)
  | _ => exact Or.inl ⟨rfl, fun _ => Iff.rfl, fun _ _ => Iff.rfl⟩

end TecnicoFS.FileSystem
