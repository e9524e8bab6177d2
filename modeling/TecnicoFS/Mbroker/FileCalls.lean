/-
When the calls of the handlers return and succeed.

The directory always has room for another name, since there are fewer inodes than
directory slots and no second names; an inode that no name and no handle leads to is free.
-/

import Mathlib.Data.Finset.Card
import TecnicoFS.FileSystem.Leaks
import TecnicoFS.Mbroker.Files

set_option autoImplicit false

namespace TecnicoFS.Mbroker

open FileSystem

variable {params : MbrokerParams} {fs fs' : FileSystem.State} {model model' : Model Nat}

/-- The root directory has a file under the path of the box. -/
def Server.HasFile {Thread : Type} (server : Server Thread) (boxName : CString) : Prop :=
  ValidPathname boxName ∧ ∃ inode, server.fs.Binds boxName.tail inode

/-- Opening a named file and closing it again changes nothing. -/
theorem closeHandle_setHandle {name : CString} {id handle offset : Nat}
    (closed : model.handles handle = none) (named : model.names name = some id) :
    ((model.setHandle handle id offset).closeHandle handle).collect id = model := by
  have used : ((model.setHandle handle id offset).closeHandle handle).Used id :=
    Or.inl ⟨name, named⟩
  have handles : Function.update model.handles handle none = model.handles := by
    rw [← closed]
    exact Function.update_eq_self handle _
  unfold Model.collect
  rw [if_pos used]
  unfold Model.closeHandle Model.setHandle
  rw [Function.update_idem, handles]

namespace Files

theorem inodeFree (files : Files params fs model) {id : Nat} (nonzero : 0 < id) (inside : id < 64)
    (unused : ¬ model.Used id) : fs.resources.inodeFree := by
  rw [← files.inodeTableSize] at inside
  refine ⟨id, inside, ?_⟩
  cases mark : fs.freeinodeTs id with
  | free => rfl
  | taken =>
      have inv := files.invariant.1
      have used := inv.counts.used id ⟨inside, mark⟩ (Nat.pos_iff_ne_zero.mp nonzero)
        (fun impossible => impossible)
      exact (unused ((files.represents.used_iff inv id).mpr used)).elim

/-- Live directory slots hold different inodes. -/
theorem entries_differ (files : Files params fs model) {left right inode : Nat}
    (leftLive : fs.EntryLive left) (rightLive : fs.EntryLive right)
    (leftHolds : fs.entryInumber left = (inode : Int))
    (rightHolds : fs.entryInumber right = (inode : Int)) : left = right := by
  have inv := files.invariant.1
  obtain ⟨leftName, leftShort, leftNamed⟩ := inv.directory.named left leftLive
  obtain ⟨rightName, rightShort, rightNamed⟩ := inv.directory.named right rightLive
  have same : leftName = rightName := by
    apply files.oneName _ _ inode
    · exact (files.represents.names _ _).mpr
        ⟨leftShort, left, leftLive, leftNamed, leftHolds⟩
    · exact (files.represents.names _ _).mpr
        ⟨rightShort, right, rightLive, rightNamed, rightHolds⟩
  rw [← same] at rightNamed
  exact inv.directory.distinct left right leftName leftLive rightLive leftShort leftNamed
    rightNamed

theorem entryFree (files : Files params fs model) : fs.resources.entryFree := by
  by_contra full
  have inv := files.invariant.1
  have entries : 64 < fs.maxDirEntries := by
    unfold State.maxDirEntries dirEntrySize
    rw [files.blockSize]
    decide
  have live (slot : Fin 65) : fs.EntryLive slot := by
    have inside : (slot : Nat) < fs.maxDirEntries := by omega
    exact ⟨inside, fun dead => full ⟨slot, inside, dead⟩⟩
  choose inode holds using fun slot : Fin 65 => inv.holders.entryHolds slot (live slot)
  have small (slot : Fin 65) : inode slot < 64 := by
    rw [← files.inodeTableSize]
    exact (holds slot).2.2.1
  obtain ⟨left, right, different, same⟩ := Fintype.exists_ne_map_eq_of_card_lt
    (fun slot => (⟨inode slot, small slot⟩ : Fin 64)) (by decide)
  apply different
  apply Fin.ext
  have sameInode := congrArg Fin.val same
  have rightHolds := (holds right).1
  rw [← show inode left = inode right from sameInode] at rightHolds
  exact files.entries_differ (live left) (live right) (holds left).1 rightHolds

/-- The handlers lose no block, since they make no link. -/
theorem noLeak (files : Files params fs model) : NoLeak fs := by
  have reachable := files.reachable
  clear files
  have both : NoLeak fs ∧ ∃ model, Files params fs model := by
    induction reachable with
    | init returned => exact ⟨(tfsInit_initial returned).1.noLeak, _, Files.init returned⟩
    | @call state _ call _ _ served returned inductionHypothesis =>
        obtain ⟨noLeak, model, files⟩ := inductionHypothesis
        obtain ⟨model', _, files'⟩ := files.step served returned
        refine ⟨?_, model', files'⟩
        have effect := call_effect files.invariant.1 returned (fun _ _ _ isCopy => by
          rw [isCopy] at served
          cases served)
        refine effect.noLeak noLeak files.invariant.1 ?_
        cases served with
        | unlinks boxName =>
            intro _ inode binds isLink
            obtain ⟨contents, holds⟩ :=
              files.name_file ((files.represents.names _ _).mpr binds)
            have isFile := ((files.represents.files inode contents).mp holds).2.1
            rw [isLink] at isFile
            cases isFile
        | _ => trivial
  exact both.1

/-- There are fewer inodes than blocks, so a write always finds one. -/
theorem blockFree (files : Files params fs model) : fs.resources.blockFree := by
  by_contra full
  have blocks : fs.dataBlocks = 1024 := by
    unfold State.dataBlocks
    rw [files.invariant.2]
    rfl
  have taken (block : Fin 65) : fs.BlockTaken block := by
    have inside : (block : Nat) < fs.dataBlocks := by omega
    refine ⟨inside, ?_⟩
    cases mark : fs.freeBlocks block with
    | free => exact (full ⟨block, inside, mark⟩).elim
    | taken => rfl
  choose inode owns using fun block : Fin 65 => files.noLeak block (taken block)
  have small (block : Fin 65) : inode block < 64 := by
    rw [← files.inodeTableSize]
    exact (owns block).1.1
  obtain ⟨left, right, different, same⟩ := Fintype.exists_ne_map_eq_of_card_lt
    (fun block => (⟨inode block, small block⟩ : Fin 64)) (by decide)
  apply different
  apply Fin.ext
  have sameInode : inode left = inode right := congrArg Fin.val same
  have leftBlock := (owns left).2.1
  rw [sameInode, (owns right).2.1] at leftBlock
  exact (Int.ofNat_inj.mp leftBlock).symm

theorem name_short (files : Files params fs model) {name : CString} {id : Nat}
    (names : model.names name = some id) : validSubName name :=
  ((files.represents.names name id).mp names).1

/-- There are at most as many names as inodes beside the root. -/
theorem few_names (files : Files params fs model)
    {names : Finset CString} (bound : ∀ name ∈ names, model.names name ≠ none) :
    names.card ≤ 63 := by
  have sized : ((Finset.range 64).erase 0).card = 63 := by decide
  rw [← sized]
  apply Finset.card_le_card_of_injOn (fun name => (model.names name).getD 0)
  · intro name member
    obtain ⟨id, named⟩ := Option.ne_none_iff_exists'.mp (bound name member)
    obtain ⟨nonzero, inside⟩ := files.name_inode named
    simp only [named, Option.getD_some, Finset.coe_erase, Finset.coe_range, Set.mem_sdiff,
      Set.mem_Iio, Set.mem_singleton_iff]
    exact ⟨inside, by omega⟩
  · intro left leftMember right rightMember same
    obtain ⟨leftId, leftNamed⟩ := Option.ne_none_iff_exists'.mp (bound left leftMember)
    obtain ⟨rightId, rightNamed⟩ := Option.ne_none_iff_exists'.mp (bound right rightMember)
    simp only [leftNamed, rightNamed, Option.getD_some] at same
    subst same
    exact files.oneName left right leftId leftNamed rightNamed

/-- With no link to follow, no path runs into a cycle. -/
theorem acyclic (files : Files params fs model) (path : CString) : ¬ fs.FollowsCycle path := by
  rintro ⟨_, _, around⟩
  obtain ⟨_, links, _⟩ := Relation.TransGen.head'_iff.mp around
  obtain ⟨_, id, _, linked⟩ := (files.represents.linksTo files.invariant.1).mp links
  rw [files.noLinks id] at linked
  cases linked

theorem fits (files : Files params fs model) (small : params.maxSessions < 2 ^ 31) :
    fs.Fits := by
  rw [State.fits_iff, files.invariant.2]
  change 64 < 2 ^ 31 ∧ 1024 < 2 ^ 31 ∧ params.maxSessions < 2 ^ 31 ∧
    1024 * 1024 / 44 < 2 ^ 31 ∧ 1024 * (1024 * 1024) < 2 ^ 64
  exact ⟨by decide, by decide, small, by decide, by decide⟩

theorem returns (files : Files params fs model) (small : params.maxSessions < 2 ^ 31)
    {call : Call} (served : Served call) : ∃ result fs', call.run fs = .ok (result, fs') := by
  have admissible : call.Admissible fs.blockSize := by
    rw [files.blockSize]
    exact @Served.admissible params _ served
  rcases call_returns files.represents files.invariant.1 (files.fits small) admissible with
    returned | ⟨_, cycle⟩
  · exact returned
  · cases served with
    | opens boxName _ _ => exact (files.acyclic boxName cycle).elim
    | closes _ => exact cycle.elim
    | writes _ _ => exact cycle.elim
    | reads _ => exact cycle.elim
    | unlinks _ => exact cycle.elim

/-! ### Opening -/

theorem opensAbsent {boxName : CString} {append : Bool} {result : CallResult}
    (files : Files params fs model)
    (absent : ¬ ValidPathname boxName ∨ model.names boxName.tail = none)
    (returned : Call.run (.tfsOpen (some boxName) ⟨false, false, append⟩) fs =
      .ok (result, fs')) : result.length = -1 ∧ Files params fs' model := by
  obtain ⟨model', opened, files'⟩ := files.opens returned
  have contradiction {id : Nat} (valid : ValidPathname boxName)
      (names : model.names boxName.tail = some id) : False := by
    rcases absent with invalid | missing
    · exact invalid valid
    · rw [missing] at names
      cases names
  generalize result.length = length at opened ⊢
  cases opened with
  | refused _ _ => exact ⟨rfl, files'⟩
  | stranded impossible _ _ _ _ => cases impossible
  | existing valid names _ _ => exact (contradiction valid names).elim
  | created impossible _ _ _ _ => cases impossible

theorem opensPresent {boxName : CString} {creat append : Bool} {result : CallResult} {id : Nat}
    {contents : List UInt8} (files : Files params fs model) (valid : ValidPathname boxName)
    (names : model.names boxName.tail = some id) (holds : model.files id = some contents)
    (room : ∃ handle, handle < params.maxSessions ∧ model.handles handle = none)
    (returned : Call.run (.tfsOpen (some boxName) ⟨creat, false, append⟩) fs =
      .ok (result, fs')) :
    ∃ handle : Nat, result.length = handle ∧ model.handles handle = none ∧
      Files params fs'
        (model.setHandle handle id (if append = true then contents.length else 0)) := by
  obtain ⟨model', opened, files'⟩ := files.opens returned
  have bound : model.names boxName.tail ≠ none := by
    rw [names]
    exact Option.some_ne_none id
  generalize result.length = length at opened ⊢
  cases opened with
  | refused _ present =>
      obtain ⟨handle, inside, closed⟩ := room
      exact (present valid bound handle inside closed).elim
  | stranded _ _ missing _ _ => exact (bound missing).elim
  | @existing other handle bytes _ names' holds' closed =>
      rw [names, Option.some.injEq] at names'
      subst names'
      rw [holds, Option.some.injEq] at holds'
      subst holds'
      exact ⟨handle, rfl, closed, files'⟩
  | created _ _ missing _ _ => exact (bound missing).elim

theorem opensNew {boxName : CString} {result : CallResult} (files : Files params fs model)
    (valid : ValidPathname boxName) (short : validSubName boxName.tail)
    (missing : model.names boxName.tail = none)
    (unused : ∃ id, 0 < id ∧ id < 64 ∧ ¬ model.Used id)
    (room : ∃ handle, handle < params.maxSessions ∧ model.handles handle = none)
    (returned : (openCreate boxName).run fs = .ok (result, fs')) :
    ∃ (id handle : Nat), result.length = handle ∧ model.Fresh id ∧
      model.handles handle = none ∧
      Files params fs' (((model.setFile id []).bind boxName.tail id).setHandle handle id 0) := by
  obtain ⟨model', opened, files'⟩ := files.opens returned
  generalize result.length = length at opened ⊢
  cases opened with
  | refused absent _ =>
      obtain ⟨id, nonzero, inside, free⟩ := unused
      exact (absent valid short missing rfl
        ⟨files.inodeFree nonzero inside free, files.entryFree⟩).elim
  | stranded _ _ _ _ full =>
      obtain ⟨handle, inside, closed⟩ := room
      exact (full handle inside closed).elim
  | existing _ names _ _ =>
      rw [missing] at names
      cases names
  | @created id handle _ _ _ fresh closed => exact ⟨id, handle, rfl, fresh, closed, files'⟩

/-- `tfs_close` of an open handle -/
theorem closesHandle {handle id offset : Nat} {result : CallResult}
    (files : Files params fs model) (holds : model.handles handle = some (id, offset))
    (returned : Call.run (.tfsClose handle) fs = .ok (result, fs')) :
    Files params fs' ((model.closeHandle handle).collect id) := by
  rcases files.closes returned with ⟨closed, _⟩ | ⟨other, file, place, same, holds', files'⟩
  · rw [closed handle rfl] at holds
    cases holds
  · have same : other = handle := by omega
    subst same
    rw [holds, Option.some.injEq, Prod.mk.injEq] at holds'
    rw [holds'.1]
    exact files'

theorem hasFile {Thread : Type} {server : Server Thread} (files : Files params server.fs model)
    (boxName : CString) :
    server.HasFile boxName ↔ ValidPathname boxName ∧ model.names boxName.tail ≠ none := by
  unfold Server.HasFile
  rw [Option.ne_none_iff_exists']
  exact and_congr_right (fun _ =>
    exists_congr (fun inode => (files.represents.names boxName.tail inode).symm))

end Files

end TecnicoFS.Mbroker
