/-
The directory and the link counters while several threads run.

Each thread has a role of the ledger of links.  A section changes the ledger the way its
role allows, so that the counters are exact whenever no call is in progress.
-/

import TecnicoFS.FileSystem.SectionInvariant
import TecnicoFS.Library.LinkLedger

set_option autoImplicit false

namespace TecnicoFS.FileSystem

open LinkLedger

variable {state : State}

/-! ### The ledger of a state -/

/-- The directory slots and the link counters of the allocated inodes other than the root's -/
def State.ledger (state : State) : LinkLedger Int where
  size := state.maxDirEntries
  holder slot := if state.EntryLive slot then some (state.entryInumber slot) else none
  links inum :=
    if 0 < inum ∧ state.InodeTaken inum.toNat then
      some (state.inodeTable inum.toNat).iHardLinks
    else
      none

theorem State.ledger_holder {slot : Nat} {inum : Int} : state.ledger.holder slot = some inum ↔
    state.EntryLive slot ∧ state.entryInumber slot = inum := by
  unfold State.ledger
  by_cases live : state.EntryLive slot
  · simp [live]
  · simp [live]

theorem State.ledger_vacant {slot : Nat} : state.ledger.holder slot = none ↔
    ¬ state.EntryLive slot := by
  unfold State.ledger
  by_cases live : state.EntryLive slot
  · simp [live]
  · simp [live]

theorem State.ledger_links {inum : Int} {count : Nat} : state.ledger.links inum = some count ↔
    ∃ inode : Nat, inum = (inode : Int) ∧ inode ≠ 0 ∧ state.InodeTaken inode ∧
      (state.inodeTable inode).iHardLinks = count := by
  change (if 0 < inum ∧ state.InodeTaken inum.toNat then
    some (state.inodeTable inum.toNat).iHardLinks else none) = some count ↔ _
  constructor
  · intro links
    split at links
    · rename_i allocated
      exact ⟨inum.toNat, by omega, by omega, allocated.2, Option.some.inj links⟩
    · cases links
  · rintro ⟨inode, rfl, nonzero, taken, counts⟩
    rw [if_pos ⟨by omega, by rwa [Int.toNat_natCast]⟩, Int.toNat_natCast, counts]

theorem State.ledger_allocated {inum : Int} : state.ledger.links inum ≠ none ↔
    ∃ inode : Nat, inum = (inode : Int) ∧ inode ≠ 0 ∧ state.InodeTaken inode := by
  rw [Option.ne_none_iff_exists']
  constructor
  · rintro ⟨count, links⟩
    obtain ⟨inode, same, nonzero, taken, _⟩ := State.ledger_links.mp links
    exact ⟨inode, same, nonzero, taken⟩
  · rintro ⟨inode, same, nonzero, taken⟩
    exact ⟨_, State.ledger_links.mpr ⟨inode, same, nonzero, taken, rfl⟩⟩

theorem State.ledger_links_of_taken {inode : Nat} (nonzero : inode ≠ 0)
    (taken : state.InodeTaken inode) :
    state.ledger.links inode = some (state.inodeTable inode).iHardLinks :=
  State.ledger_links.mpr ⟨inode, rfl, nonzero, taken, rfl⟩

theorem State.ledger_total (inode : Nat) : state.ledger.total inode = state.entryCount inode := by
  apply TableSearch.count_congr
  intro slot inside
  rw [State.ledger_holder]
  constructor
  · exact And.right
  · intro holds
    exact ⟨⟨inside, by rw [holds]; omega⟩, holds⟩

/-- The same slots and counters make the same ledger. -/
theorem State.ledger_eq {after : State} {ledger : LinkLedger Int}
    (size : after.maxDirEntries = ledger.size)
    (holder : ∀ slot inum, (after.EntryLive slot ∧ after.entryInumber slot = inum) ↔
      ledger.holder slot = some inum)
    (links : ∀ inum count, (∃ inode : Nat, inum = (inode : Int) ∧ inode ≠ 0 ∧
      after.InodeTaken inode ∧ (after.inodeTable inode).iHardLinks = count) ↔
        ledger.links inum = some count) : after.ledger = ledger := by
  apply LinkLedger.ext size
  · funext slot
    apply Option.ext
    intro inum
    rw [State.ledger_holder]
    exact holder slot inum
  · funext inum
    apply Option.ext
    intro count
    rw [State.ledger_links]
    exact links inum count

theorem State.ledger_setInode {slot : Nat} {inode : Inode}
    (kept : inode.iHardLinks = (state.inodeTable slot).iHardLinks) :
    (state.setInode slot inode).ledger = state.ledger := by
  apply State.ledger_eq rfl
  · intro _ _
    exact State.ledger_holder.symm
  · intro inum count
    rw [State.ledger_links]
    have links (other : Nat) : ((state.setInode slot inode).inodeTable other).iHardLinks =
        (state.inodeTable other).iHardLinks := by
      by_cases same : other = slot
      · rw [same, State.setInode_apply_self, kept]
      · rw [State.setInode_apply_of_ne inode same]
    simp only [links]
    exact Iff.rfl

theorem State.ledger_setLinks {inode links : Nat} (nonzero : inode ≠ 0)
    (taken : state.InodeTaken inode) :
    (state.setLinks inode links).ledger = state.ledger.setLinks inode (some links) := by
  apply State.ledger_eq rfl
  · intro _ _
    exact State.ledger_holder.symm
  · intro inum count
    rw [LinkLedger.setLinks_links]
    by_cases same : inum = (inode : Int)
    · subst inum
      rw [if_pos rfl]
      constructor
      · rintro ⟨other, sameInode, _, _, counts⟩
        cases Int.ofNat_inj.mp sameInode
        rw [State.setLinks_apply, if_pos rfl] at counts
        exact congrArg some counts
      · intro counts
        refine ⟨inode, rfl, nonzero, taken, ?_⟩
        rw [State.setLinks_apply, if_pos rfl]
        exact Option.some.inj counts
    · rw [if_neg same, State.ledger_links]
      constructor
      · rintro ⟨other, rfl, otherNonzero, otherTaken, counts⟩
        have different : other ≠ inode := fun equal => same (by rw [equal])
        rw [State.setLinks_apply, if_neg different] at counts
        exact ⟨other, rfl, otherNonzero, otherTaken, counts⟩
      · rintro ⟨other, rfl, otherNonzero, otherTaken, counts⟩
        have different : other ≠ inode := fun equal => same (by rw [equal])
        refine ⟨other, rfl, otherNonzero, otherTaken, ?_⟩
        rw [State.setLinks_apply, if_neg different]
        exact counts

theorem State.ledger_takeInode {inode : Nat} {iType : InodeType} (nonzero : inode ≠ 0)
    (inside : inode < state.inodeTableSize) :
    (state.takeInode inode (newInode iType)).ledger = state.ledger.setLinks inode (some 1) := by
  have taken (other : Nat) := @State.takeInode_taken state inode other (newInode iType) inside
  have unchanged (other : Nat) (different : other ≠ inode) :
      (state.takeInode inode (newInode iType)).inodeTable other = state.inodeTable other :=
    Function.update_of_ne different _ _
  have atInode : (state.takeInode inode (newInode iType)).inodeTable inode = newInode iType :=
    Function.update_self _ _ _
  apply State.ledger_eq rfl
  · intro _ _
    exact State.ledger_holder.symm
  · intro inum count
    rw [LinkLedger.setLinks_links]
    by_cases same : inum = (inode : Int)
    · subst inum
      rw [if_pos rfl]
      constructor
      · rintro ⟨other, sameInode, _, _, counts⟩
        cases Int.ofNat_inj.mp sameInode
        rw [atInode] at counts
        exact congrArg some counts
      · intro counts
        refine ⟨inode, rfl, nonzero, (taken inode).mpr (Or.inl rfl), ?_⟩
        rw [atInode]
        exact Option.some.inj counts
    · rw [if_neg same, State.ledger_links]
      constructor
      · rintro ⟨other, rfl, otherNonzero, otherTaken, counts⟩
        have different : other ≠ inode := fun equal => same (by rw [equal])
        rw [unchanged other different] at counts
        exact ⟨other, rfl, otherNonzero, ((taken other).mp otherTaken).resolve_left different,
          counts⟩
      · rintro ⟨other, rfl, otherNonzero, otherTaken, counts⟩
        have different : other ≠ inode := fun equal => same (by rw [equal])
        refine ⟨other, rfl, otherNonzero, (taken other).mpr (Or.inr otherTaken), ?_⟩
        rw [unchanged other different]
        exact counts

theorem State.deleteInode_taken {inode other : Nat} :
    (state.deleteInode inode).InodeTaken other ↔ other ≠ inode ∧ state.InodeTaken other := by
  have released : (state.releaseBlock inode).InodeTaken other ↔ state.InodeTaken other := by
    unfold State.releaseBlock
    split <;> exact Iff.rfl
  unfold State.deleteInode
  rw [State.dropInode_taken, released]

theorem State.deleteInode_inodeTable {inode other : Nat} (different : other ≠ inode) :
    (state.deleteInode inode).inodeTable other = state.inodeTable other := by
  change Function.update (state.releaseBlock inode).inodeTable inode _ other = _
  rw [Function.update_of_ne different, State.releaseBlock_inodeTable]

theorem State.ledger_deleteInode (inode : Nat) :
    (state.deleteInode inode).ledger = state.ledger.setLinks inode none := by
  have data := @State.deleteInode_fsData state inode
  have params := @State.deleteInode_fsParams state inode
  have size : (state.deleteInode inode).maxDirEntries = state.maxDirEntries := by
    unfold State.maxDirEntries State.blockSize
    rw [params]
  apply State.ledger_eq size
  · intro slot inum
    rw [LinkLedger.setLinks_holder, State.ledger_holder]
    unfold State.EntryLive State.entryInumber State.dInumber
    rw [size, data]
  · intro inum count
    rw [LinkLedger.setLinks_links]
    by_cases same : inum = (inode : Int)
    · subst inum
      rw [if_pos rfl]
      refine iff_of_false ?_ (fun impossible => by cases impossible)
      rintro ⟨other, sameInode, _, taken, _⟩
      cases Int.ofNat_inj.mp sameInode
      exact (State.deleteInode_taken.mp taken).1 rfl
    · rw [if_neg same, State.ledger_links]
      constructor
      · rintro ⟨other, rfl, nonzero, taken, counts⟩
        obtain ⟨different, before⟩ := State.deleteInode_taken.mp taken
        rw [State.deleteInode_inodeTable different] at counts
        exact ⟨other, rfl, nonzero, before, counts⟩
      · rintro ⟨other, rfl, nonzero, taken, counts⟩
        have different : other ≠ inode := fun equal => same (by rw [equal])
        refine ⟨other, rfl, nonzero, State.deleteInode_taken.mpr ⟨different, taken⟩, ?_⟩
        rw [State.deleteInode_inodeTable different]
        exact counts

theorem State.ledger_truncated (inode : Nat) (mode : TfsFileMode) :
    (state.truncated inode mode).ledger = state.ledger := by
  unfold State.truncated
  split
  · have released : (state.releaseBlock inode).ledger = state.ledger := by
      unfold State.releaseBlock
      split <;> rfl
    refine (State.ledger_setInode ?_).trans released
    rfl
  · rfl

theorem State.ledger_sameEntries {memory : ByteMemory}
    (same : state.SameEntries { state with fsData := memory }) :
    ({ state with fsData := memory } : State).ledger = state.ledger := by
  apply State.ledger_eq rfl
  · intro slot inum
    rw [State.ledger_holder, same.live slot]
    exact and_congr_right (fun live => by rw [(same slot live.1).1])
  · intro _ _
    exact State.ledger_links.symm

theorem State.ledger_linkStored (ok : StoreOk state) {inode block : Nat} {target : CString}
    (first : state.FirstFreeBlock block) :
    (state.linkStored inode block target).ledger = state.ledger := by
  have set : ((state.setFreeBlock block .taken).setInode inode
      { state.inodeTable inode with iDataBlock := block }).ledger = state.ledger := by
    refine (State.ledger_setInode ?_).trans ?_
    · rfl
    · rfl
  exact (State.ledger_sameEntries (@State.sameEntries_store ((state.setFreeBlock block
    .taken).setInode inode { state.inodeTable inode with iDataBlock := block }) _ _
      (ok.linkStored_past first))).trans set

theorem State.ledger_bindEntry {inode slot : Nat} {name : CString} (fits : inode < 2 ^ 31)
    (accepts : state.Accepts slot name) :
    (state.bindEntry slot name inode).ledger = state.ledger.bind slot inode := by
  obtain ⟨short, _, inside, _⟩ := accepts
  apply State.ledger_eq rfl
  · intro other inum
    rw [State.bindEntry_live short fits inside, LinkLedger.bind_holder,
      State.bindEntry_entryInumber state slot other name inode short (by omega) (by omega)]
    by_cases same : other = slot
    · rw [if_pos same, if_pos same, Option.some.injEq]
      exact and_iff_right (Or.inl same)
    · rw [if_neg same, if_neg same, State.ledger_holder, or_iff_right same]
  · intro _ _
    exact State.ledger_links.symm

theorem State.ledger_scrubEntry (slot : Nat) :
    (state.scrubEntry slot).ledger = state.ledger.unbind slot := by
  apply State.ledger_eq rfl
  · intro other inum
    rw [State.scrubEntry_live, LinkLedger.unbind_holder, State.scrubEntry_entryInumber]
    by_cases same : other = slot
    · rw [if_pos same, if_pos same]
      exact iff_of_false (fun holds => holds.1.1 same) (fun impossible => by cases impossible)
    · rw [if_neg same, if_neg same, State.ledger_holder]
      exact and_congr_left (fun _ => and_iff_right same)
  · intro _ _
    exact State.ledger_links.symm

/-! ### Roles of threads -/

/-- The role a thread has at the point -/
def TfsPoint.Plays (state : State) : TfsPoint → Role Int → Prop
  | .openCreated _ inum, role | .openFailed inum, role | .symCreated _ _ inum, role
  | .symStored _ inum, role | .symFailed inum, role => role = .made inum
  | .linkFound _ inum, role => role = .targeted inum
  | .linkWithdraw link inum, role | .linkCount link inum, role => ∃ slot,
      role = .pending slot inum ∧ validSubName link.tail ∧ state.EntryNamed slot link.tail
  | .unlinkFound target inum, role => ∃ slot,
      role = .found slot inum ∧ validSubName target.tail ∧ state.EntryNamed slot target.tail
  | .unlinkCleared inum, role => role = .dropping inum
  | _, role => role = .none

/-- The inode that `tfs_open` resolved and does not hold a link to -/
def TfsPoint.resolved : TfsPoint → Option Int
  | .openFound _ _ inum | .openReady inum _ | .openChecked inum _ => some inum
  | _ => none

variable {Thread : Type}

/-- The links are exact up to the roles of the threads. -/
structure LinksOk (state : State) (points : Thread → TfsPoint) (roles : Thread → Role Int) :
    Prop where
  store : StoreOk state
  links : Consistent state.ledger roles
  plays : ∀ thread, (points thread).Plays state (roles thread)
  resolved : ∀ thread inum, (points thread).resolved = some inum →
    ∃ inode : Nat, inum = (inode : Int) ∧ NodeOk state inode

theorem TfsPoint.Plays.quiet {point : TfsPoint} {role : Role Int} (plays : point.Plays state role)
    (quiet : point.Quiet) : role = .none := by
  cases point <;> first | exact plays | exact quiet.elim

theorem TfsPoint.Plays.reads {point : TfsPoint} {role : Role Int} {node : Int}
    (plays : point.Plays state role) (shares : role.Shares node) : point.ReadsLinkLock := by
  cases point with
  | linkFound _ _ | linkWithdraw _ _ | linkCount _ _ | symCreated _ _ _ | symStored _ _
  | symFailed _ => trivial
  | unlinkFound _ _ =>
      obtain ⟨slot, rfl, _⟩ := plays
      rcases shares with impossible | ⟨_, impossible⟩ <;> cases impossible
  | _ =>
      cases plays
      rcases shares with impossible | ⟨_, impossible⟩ <;> cases impossible

theorem TfsPoint.Plays.writes {point : TfsPoint} {role : Role Int}
    (plays : point.Plays state role) (removes : role.Removes) : point.WritesLinkLock := by
  cases point with
  | unlinkFound _ _ | unlinkCleared _ => trivial
  | linkWithdraw _ _ | linkCount _ _ =>
      obtain ⟨slot, rfl, _⟩ := plays
      rcases removes with ⟨_, _, impossible⟩ | ⟨_, impossible⟩ <;> cases impossible
  | _ =>
      cases plays
      rcases removes with ⟨_, _, impossible⟩ | ⟨_, impossible⟩ <;> cases impossible

namespace LinksOk

variable {points : Thread → TfsPoint} {roles : Thread → Role Int}

theorem entriesHeld (ok : LinksOk state points roles) : state.EntriesHeld := by
  intro slot live
  obtain ⟨inode, same, nonzero, taken⟩ := State.ledger_allocated.mp
    (ok.links.allocated slot _ (State.ledger_holder.mpr ⟨live, rfl⟩))
  exact ⟨inode, same, nonzero, taken⟩

/-- An inode with a link counter may be worked on. -/
theorem allocated (ok : LinksOk state points roles) {inum : Int}
    (counted : state.ledger.links inum ≠ none) :
    ∃ inode : Nat, inum = (inode : Int) ∧ NodeOk state inode ∧ state.InodeTaken inode := by
  obtain ⟨inode, same, nonzero, taken⟩ := State.ledger_allocated.mp counted
  exact ⟨inode, same, ok.store.nodes inode taken nonzero, taken⟩

theorem linked (ok : LinksOk state points roles) {inum : Int}
    (linked : state.ledger.Linked inum) :
    ∃ inode : Nat, inum = (inode : Int) ∧ NodeOk state inode ∧ state.InodeTaken inode := by
  obtain ⟨count, counted⟩ := linked
  exact ok.allocated (by rw [counted]; exact Option.some_ne_none _)

theorem used (ok : LinksOk state points roles) {slot : Nat} {inum : Int} {name : CString}
    (holds : state.ledger.holder slot = some inum) (short : validSubName name)
    (named : state.EntryNamed slot name) :
    ∃ inode slot : Nat, inum = (inode : Int) ∧ NodeOk state inode ∧ state.InodeTaken inode ∧
      state.EntryBinds slot name inode := by
  obtain ⟨inode, rfl, node, taken⟩ := ok.allocated (ok.links.allocated slot inum holds)
  obtain ⟨live, held⟩ := State.ledger_holder.mp holds
  exact ⟨inode, slot, rfl, node, taken, short, live, named, held⟩

/-- A thread works on inodes that are what its role says. -/
theorem sound (ok : LinksOk state points roles) (thread : Thread) :
    (points thread).Sound state := by
  have plays := ok.plays thread
  have admitted := ok.links.admits thread
  have resolved := ok.resolved thread
  cases at_ : points thread with
  | openFound _ _ inum | openReady inum _ | openChecked inum _ =>
      rw [at_] at resolved
      exact resolved inum rfl
  | openCreated _ inum | openFailed inum | symCreated _ _ inum | symStored _ inum
  | symFailed inum =>
      rw [at_] at plays
      change roles thread = .made inum at plays
      rw [plays] at admitted
      exact ok.allocated admitted.1
  | linkFound _ inum =>
      rw [at_] at plays
      change roles thread = .targeted inum at plays
      rw [plays] at admitted
      exact ok.linked admitted
  | unlinkCleared inum =>
      rw [at_] at plays
      change roles thread = .dropping inum at plays
      rw [plays] at admitted
      exact ok.allocated admitted
  | linkWithdraw _ inum | linkCount _ inum =>
      rw [at_] at plays
      obtain ⟨slot, role, short, named⟩ := plays
      rw [role] at admitted
      exact ok.used admitted.1 short named
  | unlinkFound _ inum =>
      rw [at_] at plays
      obtain ⟨slot, role, short, named⟩ := plays
      rw [role] at admitted
      exact ok.used admitted short named
  | _ => trivial

/-- Another thread than the removing one has no part in the links. -/
theorem unshared (ok : LinksOk state points roles)
    (free : ∀ other, ¬ (points other).WritesLinkLock ∧ ¬ (points other).ReadsLinkLock)
    (other : Thread) : ¬ (roles other).Removes ∧ ∀ node, ¬ (roles other).Shares node :=
  ⟨fun removes => (free other).1 ((ok.plays other).writes removes),
    fun _ shares => (free other).2 ((ok.plays other).reads shares)⟩

end LinksOk

/-! ### Sections -/

theorem enterOpen_plays (name : Option CString) (mode : TfsFileMode) :
    (enterOpen name mode).Plays state .none := by
  unfold enterOpen
  split <;> rfl

theorem enterOpen_resolved (name : Option CString) (mode : TfsFileMode) :
    (enterOpen name mode).resolved = none := by
  unfold enterOpen
  split <;> rfl

/-- The one live slot that carries the name -/
theorem StoreOk.entry_unique (ok : StoreOk state) {left right inode : Nat} {name : CString}
    (binds : state.EntryBinds left name inode) (live : state.EntryLive right)
    (named : state.EntryNamed right name) : left = right :=
  ok.directory.distinct left right name binds.2.1 live binds.1 binds.2.2.1 named

theorem State.Accepts.vacant {slot : Nat} {name : CString} (accepts : state.Accepts slot name) :
    state.ledger.holder slot = none :=
  State.ledger_vacant.mpr (fun live => live.2 accepts.2.2.2.1)

variable [DecidableEq Thread] {points : Thread → TfsPoint} {roles : Thread → Role Int}

omit [DecidableEq Thread] in
/-- The counter never comes near the end of its range. -/
theorem LinksOk.links_lt (ok : LinksOk state points roles) {inode : Nat}
    (node : NodeOk state inode) (taken : state.InodeTaken inode) :
    (state.inodeTable inode).iHardLinks + 1 < 2 ^ 64 := by
  have bounded := ok.links.count_le (State.ledger_links_of_taken node.nonRoot taken)
  have range := state.fsParams.sizeRange.2.2.2
  change _ ≤ state.maxDirEntries + 1 at bounded
  unfold State.maxDirEntries State.blockSize dirEntrySize at bounded
  omega

/-- The counter of an inode under removal includes the removed link. -/
theorem LinksOk.droppedLinks (ok : LinksOk state points roles) {thread : Thread} {inode : Nat}
    (role : roles thread = .dropping (inode : Int)) (node : NodeOk state inode)
    (taken : state.InodeTaken inode) :
    Consistent (state.linkDropped inode).ledger (Function.update roles thread .none) := by
  have counted := State.ledger_links_of_taken node.nonRoot taken
  have positive : 0 < (state.inodeTable inode).iHardLinks := by
    have owes : (roles thread).Owes (inode : Int) := Or.inr role
    have exact_ := ok.links.counted _ _ counted
    rw [LinkLedger.owed_of_owes owes] at exact_
    omega
  have small := ok.links_lt node taken
  unfold State.linkDropped
  rw [State.ledger_setLinks node.nonRoot taken, sizeSub_of_le positive (by omega)]
  exact ok.links.discount role counted

/-- A section changes the ledger the way the role of its thread allows. -/
theorem SectionEffect.links {thread : Thread} {next : TfsPoint} {after : State}
    (effect : SectionEffect state (points thread) next after) (ok : LinksOk state points roles)
    (free : LockFree points (points thread)) :
    ∃ role, next.Plays after role ∧
      Consistent after.ledger (Function.update roles thread role) := by
  have plays := ok.plays thread
  have admitted := ok.links.admits thread
  generalize at_ : points thread = point at effect plays free
  cases effect with
  | openFinds _ | openAbsent _ _ | openMissing _ _ | openNoInode _ | openGone _ | openChecks _
  | openNoHandle _ | closeInvalid _ | closeFinds _ | symNoInode _ | linkMissing _
  | unlinkMissing _ => exact ⟨.none, rfl, ok.links.keep plays⟩
  | openFollows _ _ => exact ⟨.none, enterOpen_plays _ _, ok.links.keep plays⟩
  | openTruncates _ =>
      refine ⟨.none, rfl, ?_⟩
      rw [State.ledger_truncated]
      exact ok.links.keep plays
  | openReturns _ | closes _ _ _ _ => exact ⟨.none, rfl, ok.links.keep plays⟩
  | openCreates first | symCreates first =>
      have nonRoot := ok.store.free_nonRoot first
      refine ⟨_, rfl, ?_⟩
      rw [State.ledger_takeInode nonRoot first.2.1]
      refine ok.links.make plays ?_
      by_contra taken
      obtain ⟨inode, same, _, inodeTaken⟩ := State.ledger_allocated.mp taken
      cases Int.ofNat_inj.mp same
      have marked := inodeTaken.2
      rw [first.2.2.1] at marked
      cases marked
  | @openEnters _ inode slot accepts | @symEnters _ inode slot accepts =>
      change roles thread = .made inode at plays
      rw [plays] at admitted
      obtain ⟨held, same, _, taken⟩ := ok.allocated admitted.1
      cases Int.ofNat_inj.mp same
      refine ⟨.none, rfl, ?_⟩
      rw [State.ledger_bindEntry (ok.store.fits inode taken) accepts]
      exact ok.links.bindMade plays (accepts.vacant) accepts.2.2.1
  | openDeclined _ | symDeclined _ | symNoBlock _ => exact ⟨_, rfl, ok.links.keep plays⟩
  | symStores first _ =>
      refine ⟨_, rfl, ?_⟩
      rw [State.ledger_linkStored ok.store first]
      exact ok.links.keep plays
  | openDeletes | symDeletes =>
      refine ⟨.none, rfl, ?_⟩
      rw [State.ledger_deleteInode]
      exact ok.links.unmake plays
  | @closesLast handle inode opened refers taken unlinked _ =>
      obtain ⟨held, refers', node⟩ := ok.store.handles handle opened
      cases Int.ofNat_inj.mp (refers.symm.trans refers')
      refine ⟨.none, rfl, ?_⟩
      rw [State.ledger_deleteInode]
      refine (ok.links.keep plays).discard ?_
      exact State.ledger_links.mpr ⟨inode, rfl, node.nonRoot, taken, unlinked⟩
  | linkFinds binds =>
      obtain ⟨_, slot, live, _, holds⟩ := binds
      exact ⟨_, rfl, ok.links.target plays (State.ledger_holder.mpr ⟨live, holds⟩)
        (fun other removes => free other ((ok.plays other).writes removes))⟩
  | linkDeclined _ => exact ⟨.none, rfl, ok.links.untarget plays⟩
  | @linkPublishes link inode slot accepts _ | @linkRetracts link inode slot accepts _ =>
      change roles thread = .targeted inode at plays
      rw [plays] at admitted
      obtain ⟨held, same, _, taken⟩ := ok.linked admitted
      cases Int.ofNat_inj.mp same
      have fits := ok.store.fits inode taken
      refine ⟨.pending slot inode, ⟨slot, rfl, accepts.1, ?_⟩, ?_⟩
      · rw [State.bindEntry_entryNamed _ _ _ _ _ _ accepts.1 accepts.1, if_pos rfl]
      · rw [State.ledger_bindEntry fits accepts]
        exact ok.links.bindTargeted plays accepts.vacant accepts.2.2.1
  | linkClears binds =>
      obtain ⟨slot, role, _, named⟩ := plays
      rw [role] at admitted
      have same := ok.store.entry_unique binds (State.ledger_holder.mp admitted.1).1 named
      subst same
      refine ⟨.none, rfl, ?_⟩
      rw [State.ledger_scrubEntry]
      exact ok.links.unbindPending role
  | @linkCounts link inode =>
      obtain ⟨slot, role, _, _⟩ := plays
      rw [role] at admitted
      obtain ⟨held, same, node, taken⟩ := ok.linked admitted.2
      cases Int.ofNat_inj.mp same
      refine ⟨.none, rfl, ?_⟩
      rw [State.ledger_setLinks node.nonRoot taken, sizeAdd_of_lt (ok.links_lt node taken)]
      exact ok.links.countPending role (State.ledger_links_of_taken node.nonRoot taken)
  | unlinkFinds binds =>
      obtain ⟨short, slot, live, named, holds⟩ := binds
      exact ⟨_, ⟨slot, rfl, short, named⟩, ok.links.find plays
        (State.ledger_holder.mpr ⟨live, holds⟩) (ok.unshared free)⟩
  | unlinkClears binds =>
      obtain ⟨slot, role, _, named⟩ := plays
      rw [role] at admitted
      have same := ok.store.entry_unique binds (State.ledger_holder.mp admitted).1 named
      subst same
      refine ⟨_, rfl, ?_⟩
      rw [State.ledger_scrubEntry]
      exact ok.links.unbindFound role
  | @unlinkDrops inode _ =>
      change roles thread = .dropping inode at plays
      rw [plays] at admitted
      obtain ⟨held, same, node, taken⟩ := ok.allocated admitted
      cases Int.ofNat_inj.mp same
      exact ⟨.none, rfl, ok.droppedLinks plays node taken⟩
  | @unlinkDeletes inode unlinked _ =>
      change roles thread = .dropping inode at plays
      rw [plays] at admitted
      obtain ⟨held, same, node, taken⟩ := ok.allocated admitted
      cases Int.ofNat_inj.mp same
      refine ⟨.none, rfl, ?_⟩
      rw [State.ledger_deleteInode]
      refine (ok.droppedLinks plays node taken).discard ?_
      refine State.ledger_links.mpr ⟨inode, rfl, node.nonRoot, taken, ?_⟩
      unfold State.linkDropped
      rw [State.setLinks_apply, if_pos rfl]
      exact unlinked

omit [DecidableEq Thread] in
/-- A slot that stays live keeps its name. -/
theorem SectionEffect.named {point next : TfsPoint} {after : State}
    (effect : SectionEffect state point next after) (ok : StoreOk state) {slot : Nat}
    {name : CString} (short : validSubName name) (live : state.EntryLive slot)
    (still : after.EntryLive slot) (named : state.EntryNamed slot name) :
    after.EntryNamed slot name := by
  have deleted (before : State) (inode : Nat) (kept : before.EntryNamed slot name) :
      (before.deleteInode inode).EntryNamed slot name := by
    unfold State.EntryNamed at kept ⊢
    rw [State.deleteInode_fsData]
    exact kept
  cases effect with
  | openTruncates _ =>
      unfold State.truncated State.releaseBlock
      split
      · split <;> exact named
      · exact named
  | openEnters accepts | symEnters accepts | linkPublishes accepts _ | linkRetracts accepts _ =>
      rw [State.bindEntry_entryNamed _ _ _ _ _ _ accepts.1 short, if_neg]
      · exact named
      · intro same
        rw [same] at live
        exact live.2 accepts.2.2.2.1
  | openDeletes | symDeletes => exact deleted _ _ named
  | closesLast _ _ _ _ _ => exact deleted _ _ named
  | unlinkDeletes _ _ => exact deleted _ _ named
  | @symStores target link inode block first _ =>
      exact ((@State.sameEntries_store ((state.setFreeBlock block .taken).setInode inode
        { state.inodeTable inode with iDataBlock := block }) _ _ (ok.linkStored_past first) slot
          live.1).2 name short).mpr named
  | linkClears _ | unlinkClears _ =>
      exact (State.scrubEntry_entryNamed _ _ _ _ short).mpr
        ⟨(State.scrubEntry_live.mp still).1, named⟩
  | _ => exact named

omit [DecidableEq Thread] in
theorem LinksOk.binds_node (ok : LinksOk state points roles) {name : CString} {inode : Nat}
    (binds : state.Binds name inode) : NodeOk state inode ∧ state.InodeTaken inode := by
  obtain ⟨_, slot, live, _, holds⟩ := binds
  obtain ⟨held, same, nonzero, taken⟩ := ok.entriesHeld slot live
  cases Int.ofNat_inj.mp (holds.symm.trans same)
  exact ⟨ok.store.nodes inode taken nonzero, taken⟩

omit [DecidableEq Thread] in
/-- The inode that `tfs_open` resolved is one that threads may work on. -/
theorem SectionEffect.resolved {thread : Thread} {next : TfsPoint} {after : State}
    (effect : SectionEffect state (points thread) next after) (ok : LinksOk state points roles)
    {inum : Int} (resolves : next.resolved = some inum) :
    ∃ inode : Nat, inum = (inode : Int) ∧ NodeOk after inode := by
  have sound := ok.sound thread
  have kept := effect.kept ok.store sound
  generalize points thread = point at effect sound
  cases effect with
  | openFinds binds =>
      cases resolves
      exact ⟨_, rfl, (ok.binds_node binds).1⟩
  | openFollows _ _ =>
      rw [enterOpen_resolved] at resolves
      cases resolves
  | openTruncates _ | openChecks _ =>
      cases resolves
      obtain ⟨inode, same, node⟩ := sound
      exact ⟨inode, same, kept.nodes inode node⟩
  | openEnters _ =>
      cases resolves
      obtain ⟨inode, same, node, _⟩ := sound
      exact ⟨inode, same, kept.nodes inode node⟩
  | _ => cases resolves

omit [DecidableEq Thread] in
/-- A thread that takes no step keeps its role. -/
theorem TfsPoint.Plays.kept {point : TfsPoint} {role : Role Int} {after : State}
    (plays : point.Plays state role) (admitted : state.ledger.Admits role)
    (still : after.ledger.Admits role)
    (named : ∀ slot name, validSubName name → state.EntryLive slot → after.EntryLive slot →
      state.EntryNamed slot name → after.EntryNamed slot name) : point.Plays after role := by
  cases point with
  | linkWithdraw _ _ | linkCount _ _ =>
      obtain ⟨slot, rfl, short, isNamed⟩ := plays
      exact ⟨slot, rfl, short, named slot _ short (State.ledger_holder.mp admitted.1).1
        (State.ledger_holder.mp still.1).1 isNamed⟩
  | unlinkFound _ _ =>
      obtain ⟨slot, rfl, short, isNamed⟩ := plays
      exact ⟨slot, rfl, short, named slot _ short (State.ledger_holder.mp admitted).1
        (State.ledger_holder.mp still).1 isNamed⟩
  | _ => exact plays

/-- Every section keeps the links exact up to the roles. -/
theorem LinksOk.section {thread : Thread} {next : TfsPoint} {after : State}
    (ok : LinksOk state points roles) (free : LockFree points (points thread))
    (effect : SectionEffect state (points thread) next after) :
    ∃ role, LinksOk after (Function.update points thread next)
      (Function.update roles thread role) := by
  obtain ⟨role, plays, links⟩ := effect.links ok free
  have kept := effect.kept ok.store (ok.sound thread)
  refine ⟨role, kept.store, links, ?_, ?_⟩
  · intro other
    by_cases same : other = thread
    · rw [same, Function.update_self, Function.update_self]
      exact plays
    · have still := links.admits other
      rw [Function.update_of_ne same] at still ⊢
      rw [Function.update_of_ne same]
      exact (ok.plays other).kept (ok.links.admits other) still
        (fun _ _ short live => effect.named ok.store short live)
  · intro other inum resolves
    by_cases same : other = thread
    · rw [same, Function.update_self] at resolves
      exact effect.resolved ok resolves
    · rw [Function.update_of_ne same] at resolves
      obtain ⟨inode, sameInode, node⟩ := ok.resolved other inum resolves
      exact ⟨inode, sameInode, kept.nodes inode node⟩

/-- A call starts without a role. -/
theorem Call.enter_plays {request : Call} {point : TfsPoint} (enters : request.enter = some point) :
    point.Plays state .none ∧ point.resolved = none := by
  cases Call.enter_start enters with
  | _ => exact ⟨rfl, rfl⟩

theorem LinksOk.call {thread : Thread} {request : Call} {point : TfsPoint}
    (ok : LinksOk state points roles) (quiet : (points thread).Quiet)
    (enters : request.enter = some point) :
    LinksOk state (Function.update points thread point) roles := by
  obtain ⟨plays, unresolved⟩ := @Call.enter_plays state _ _ enters
  refine ⟨ok.store, ok.links, ?_, ?_⟩
  · intro other
    by_cases same : other = thread
    · rw [same, Function.update_self, (ok.plays thread).quiet quiet]
      exact plays
    · rw [Function.update_of_ne same]
      exact ok.plays other
  · intro other inum resolves
    by_cases same : other = thread
    · rw [same, Function.update_self, unresolved] at resolves
      cases resolves
    · rw [Function.update_of_ne same] at resolves
      exact ok.resolved other inum resolves

end TecnicoFS.FileSystem
