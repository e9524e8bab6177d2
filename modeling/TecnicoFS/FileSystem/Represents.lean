/-
The tables as a representation of the abstract file system.

The identity of a file is its inumber.  The lemmas say which step of the model each
single write to the tables is; most writes are none.
-/

import TecnicoFS.FileSystem.Model
import TecnicoFS.FileSystem.Runs

set_option autoImplicit false

namespace TecnicoFS.FileSystem

variable {state : State} {slack : Slack} {model : Model Nat}

namespace State

/-- The first byte of the inode's block -/
def blockAddress (state : State) (inode : Nat) : Nat :=
  (state.inodeTable inode).iDataBlock.toNat * state.blockSize

/-- The bytes of a regular file -/
def contents (state : State) (inode : Nat) : List UInt8 :=
  state.fsData.readBytes (state.blockAddress inode) (state.inodeTable inode).iSize

def HoldsFile (state : State) (inode : Nat) (contents : List UInt8) : Prop :=
  state.InodeTaken inode ∧ (state.inodeTable inode).iNodeType = .tFile ∧
    state.contents inode = contents

/-- The block of the symbolic link holds the target with its terminator. -/
def HoldsLink (state : State) (inode : Nat) (target : CString) : Prop :=
  state.InodeTaken inode ∧ (state.inodeTable inode).iNodeType = .tSymLink ∧
    target.strlen < state.blockSize ∧
    state.blockAddress inode + target.strlen < state.dataBytes ∧
    state.fsData.readBytes (state.blockAddress inode) (target.strlen + 1) = target.bytes ++ [0]

def HoldsHandle (state : State) (handle inode offset : Nat) : Prop :=
  state.HandleTaken handle ∧
    state.openFileTable handle = { ofInumber := inode, ofOffset := offset }

end State

/-- Simulation relation between the tables and the abstract file system -/
structure Represents (state : State) (model : Model Nat) : Prop where
  names : ∀ name inode, model.names name = some inode ↔ state.Binds name inode
  files : ∀ inode contents, model.files inode = some contents ↔ state.HoldsFile inode contents
  links : ∀ inode target, model.links inode = some target ↔ state.HoldsLink inode target
  handles : ∀ handle inode offset,
    model.handles handle = some (inode, offset) ↔ state.HoldsHandle handle inode offset
  /-- Every symbolic link has a target. -/
  stored : ∀ inode, state.InodeTaken inode → (state.inodeTable inode).iNodeType = .tSymLink →
    ∃ target, model.links inode = some target

theorem Initial.represents (initial : Initial state) :
    Represents state Model.empty where
  names name inode := by
    constructor
    · intro impossible
      cases impossible
    · rintro ⟨_, slot, live, _⟩
      exact (initial.noEntry slot live).elim
  files inode contents := by
    constructor
    · intro impossible
      cases impossible
    · rintro ⟨taken, isFile, _⟩
      rw [(initial.rootOnly inode).mp taken, initial.root.isDirectory] at isFile
      cases isFile
  links inode target := by
    constructor
    · intro impossible
      cases impossible
    · rintro ⟨taken, isSymLink, _⟩
      rw [(initial.rootOnly inode).mp taken, initial.root.isDirectory] at isSymLink
      cases isSymLink
  handles handle inode offset := by
    constructor
    · intro impossible
      cases impossible
    · rintro ⟨taken, _⟩
      exact (initial.noHandle handle taken).elim
  stored inode taken isSymLink := by
    rw [(initial.rootOnly inode).mp taken, initial.root.isDirectory] at isSymLink
    cases isSymLink

/-! ### Absence -/

theorem Represents.names_none (represents : Represents state model) {name : CString} :
    model.names name = none ↔ ∀ inode, ¬ state.Binds name inode := by
  rw [Option.eq_none_iff_forall_ne_some]
  exact forall_congr' (fun inode => not_congr (represents.names name inode))

theorem Invariant.notFound_iff (inv : Invariant state none) {name : CString} :
    state.NotFound name ↔ ∀ inode, ¬ state.Binds name inode := by
  constructor
  · rintro (invalid | unbound) inode ⟨short, slot, live, named, _⟩
    · exact invalid short
    · exact unbound slot live named
  · intro unbound
    by_cases short : validSubName name
    · refine Or.inr (fun slot live named => ?_)
      obtain ⟨inode, holds, _⟩ := inv.holders.entryHolds slot live
      exact unbound inode ⟨short, slot, live, named, holds⟩
    · exact Or.inl short

theorem Represents.names_none_iff (represents : Represents state model)
    (inv : Invariant state none) {name : CString} :
    model.names name = none ↔ state.NotFound name :=
  represents.names_none.trans inv.notFound_iff.symm

theorem Represents.fresh (represents : Represents state model) {inode : Nat}
    (unused : ¬ state.InodeTaken inode) : model.Fresh inode := by
  constructor
  · rw [Option.eq_none_iff_forall_ne_some]
    intro contents holds
    exact unused ((represents.files inode contents).mp holds).1
  · rw [Option.eq_none_iff_forall_ne_some]
    intro target holds
    exact unused ((represents.links inode target).mp holds).1

theorem Represents.handles_none (represents : Represents state model)
    (inv : Invariant state slack) {handle : Nat} :
    model.handles handle = none ↔ ¬ state.HandleTaken handle := by
  constructor
  · intro absent taken
    obtain ⟨inode, refers, _⟩ := inv.holders.handleHolds handle taken
    have held := (represents.handles handle inode (state.openFileTable handle).ofOffset).mpr
      ⟨taken, by rw [← refers]⟩
    rw [absent] at held
    cases held
  · intro closed
    rw [Option.eq_none_iff_forall_ne_some]
    rintro ⟨held, offset⟩ holds
    exact closed ((represents.handles handle held offset).mp holds).1

/-! ### What is left alone -/

/-- The inode and the bytes of the block it owns are the same in both states. -/
structure State.SameInode (state state' : State) (inode : Nat) : Prop where
  taken : state'.InodeTaken inode ↔ state.InodeTaken inode
  kind : state.InodeTaken inode →
    (state'.inodeTable inode).iNodeType = (state.inodeTable inode).iNodeType
  size : state.InodeTaken inode →
    (state'.inodeTable inode).iSize = (state.inodeTable inode).iSize
  block : state.InodeTaken inode →
    (state'.inodeTable inode).iDataBlock = (state.inodeTable inode).iDataBlock
  bytes : (state.inodeTable inode).iNodeType ≠ .tDirectory →
    state.OwnsBlock inode (state.inodeTable inode).iDataBlock → ∀ offset,
      offset < state.blockSize → state'.fsData (state.blockAddress inode + offset) =
        state.fsData (state.blockAddress inode + offset)

/-- The sizes of the data area are the same in both states. -/
def State.SameArea (state state' : State) : Prop :=
  state'.fsParams = state.fsParams ∧ state'.dataBytes = state.dataBytes

def State.SameNames (state state' : State) : Prop :=
  ∀ name inode, state'.Binds name inode ↔ state.Binds name inode

def State.SameHandles (state state' : State) : Prop :=
  ∀ handle inode offset,
    state'.HoldsHandle handle inode offset ↔ state.HoldsHandle handle inode offset

variable {state' : State}

theorem State.SameInode.refl (inode : Nat) : state.SameInode state inode :=
  ⟨Iff.rfl, fun _ => rfl, fun _ => rfl, fun _ => rfl, fun _ _ _ _ => rfl⟩

theorem State.SameInode.blockAddress {inode : Nat} (same : state.SameInode state' inode)
    (area : state.SameArea state') (taken : state.InodeTaken inode) :
    state'.blockAddress inode = state.blockAddress inode := by
  unfold State.blockAddress State.blockSize
  rw [same.block taken, area.1]

theorem State.SameInode.holdsFile {inode : Nat} (same : state.SameInode state' inode)
    (area : state.SameArea state') (inodes : InodesOk state) (contents : List UInt8) :
    state'.HoldsFile inode contents ↔ state.HoldsFile inode contents := by
  by_cases taken : state.InodeTaken inode
  · have equal (isFile : (state.inodeTable inode).iNodeType = .tFile) :
        state'.contents inode = state.contents inode := by
      unfold State.contents
      rw [same.blockAddress area taken, same.size taken]
      by_cases empty : (state.inodeTable inode).iSize = 0
      · rw [empty]
        rfl
      · have bounded := inodes.fileSize inode taken isFile
        apply ByteMemory.readBytes_congr
        intro position lower upper
        have kept := same.bytes (by rw [isFile]; decide)
          ⟨taken, rfl, fun _ => Nat.pos_of_ne_zero empty⟩
          (position - state.blockAddress inode) (by omega)
        rw [Nat.add_sub_cancel' lower] at kept
        exact kept
    constructor
    · rintro ⟨_, isFile, holds⟩
      rw [same.kind taken] at isFile
      exact ⟨taken, isFile, (equal isFile).symm.trans holds⟩
    · rintro ⟨_, isFile, holds⟩
      exact ⟨same.taken.mpr taken, (same.kind taken).trans isFile, (equal isFile).trans holds⟩
  · constructor
    · rintro ⟨taken', _⟩
      exact (taken (same.taken.mp taken')).elim
    · rintro ⟨taken', _⟩
      exact (taken taken').elim

theorem State.SameInode.holdsLink {inode : Nat} (same : state.SameInode state' inode)
    (area : state.SameArea state') (target : CString) :
    state'.HoldsLink inode target ↔ state.HoldsLink inode target := by
  by_cases taken : state.InodeTaken inode
  · have address := same.blockAddress area taken
    have sizes : state'.blockSize = state.blockSize := congrArg TfsParams.blockSize area.1
    have equal (isSymLink : (state.inodeTable inode).iNodeType = .tSymLink)
        (short : target.strlen < state.blockSize) :
        state'.fsData.readBytes (state.blockAddress inode) (target.strlen + 1) =
          state.fsData.readBytes (state.blockAddress inode) (target.strlen + 1) := by
      apply ByteMemory.readBytes_congr
      intro position lower upper
      have kept := same.bytes (by rw [isSymLink]; decide)
        ⟨taken, rfl, fun isFile => by rw [isSymLink] at isFile; cases isFile⟩
        (position - state.blockAddress inode) (by omega)
      rw [Nat.add_sub_cancel' lower] at kept
      exact kept
    unfold State.HoldsLink
    rw [address, sizes, area.2, same.kind taken, same.taken]
    constructor
    · rintro ⟨_, isSymLink, short, inside, holds⟩
      exact ⟨taken, isSymLink, short, inside, (equal isSymLink short).symm.trans holds⟩
    · rintro ⟨_, isSymLink, short, inside, holds⟩
      exact ⟨taken, isSymLink, short, inside, (equal isSymLink short).trans holds⟩
  · constructor
    · rintro ⟨taken', _⟩
      exact (taken (same.taken.mp taken')).elim
    · rintro ⟨taken', _⟩
      exact (taken taken').elim

/-! ### Steps of the relation -/

/-- Where no inode changes, the files and the links stay represented. -/
private theorem Represents.kept (represents : Represents state model) (inodes : InodesOk state)
    (area : state.SameArea state') (same : ∀ inode, state.SameInode state' inode) :
    (∀ inode contents, model.files inode = some contents ↔ state'.HoldsFile inode contents) ∧
    (∀ inode target, model.links inode = some target ↔ state'.HoldsLink inode target) ∧
    ∀ inode, state'.InodeTaken inode → (state'.inodeTable inode).iNodeType = .tSymLink →
      ∃ target, model.links inode = some target := by
  refine ⟨?_, ?_, ?_⟩
  · intro inode contents
    exact (represents.files inode contents).trans
      ((same inode).holdsFile area inodes contents).symm
  · intro inode target
    exact (represents.links inode target).trans ((same inode).holdsLink area target).symm
  · intro inode taken isSymLink
    have taken' := (same inode).taken.mp taken
    exact represents.stored inode taken' (((same inode).kind taken').symm.trans isSymLink)

theorem Represents.unchanged (represents : Represents state model) (inodes : InodesOk state)
    (area : state.SameArea state') (same : ∀ inode, state.SameInode state' inode)
    (names : state.SameNames state') (handles : state.SameHandles state') :
    Represents state' model := by
  obtain ⟨files, links, stored⟩ := represents.kept inodes area same
  refine ⟨?_, files, links, ?_, stored⟩
  · intro name inode
    exact (represents.names name inode).trans (names name inode).symm
  · intro handle inode offset
    exact (represents.handles handle inode offset).trans (handles handle inode offset).symm

theorem Represents.bind (represents : Represents state model) (inodes : InodesOk state)
    (area : state.SameArea state') (same : ∀ inode, state.SameInode state' inode)
    (handles : state.SameHandles state') {name : CString} {inode : Nat}
    (names : ∀ other held,
      state'.Binds other held ↔ if other = name then held = inode else state.Binds other held) :
    Represents state' (model.bind name inode) := by
  obtain ⟨files, links, stored⟩ := represents.kept inodes area same
  refine ⟨?_, files, links, ?_, stored⟩
  · intro other held
    change Function.update model.names name (some inode) other = some held ↔ _
    rw [names other held]
    by_cases equal : other = name
    · subst other
      rw [Function.update_self, if_pos rfl, Option.some.injEq]
      exact eq_comm
    · rw [Function.update_of_ne equal, if_neg equal]
      exact represents.names other held
  · intro handle inode offset
    exact (represents.handles handle inode offset).trans (handles handle inode offset).symm

theorem Represents.unbind (represents : Represents state model) (inodes : InodesOk state)
    (area : state.SameArea state') (same : ∀ inode, state.SameInode state' inode)
    (handles : state.SameHandles state') {name : CString}
    (names : ∀ other held, state'.Binds other held ↔ other ≠ name ∧ state.Binds other held) :
    Represents state' (model.unbind name) := by
  obtain ⟨files, links, stored⟩ := represents.kept inodes area same
  refine ⟨?_, files, links, ?_, stored⟩
  · intro other held
    change Function.update model.names name none other = some held ↔ _
    rw [names other held]
    by_cases equal : other = name
    · subst other
      rw [Function.update_self]
      constructor
      · intro impossible
        cases impossible
      · rintro ⟨different, _⟩
        exact (different rfl).elim
    · rw [Function.update_of_ne equal, and_iff_right equal]
      exact represents.names other held
  · intro handle inode offset
    exact (represents.handles handle inode offset).trans (handles handle inode offset).symm

/-! ### Handles -/

/-- Everything but the open file table is the same in both states. -/
theorem Represents.setHandle (represents : Represents state model) {handle inode offset : Nat}
    {table : Nat → OpenFileEntry} {marks : Nat → AllocationState}
    (handles : ∀ other held place,
      ({ state with openFileTable := table, freeOpenFileEntries := marks } : State).HoldsHandle
        other held place ↔
      if other = handle then held = inode ∧ place = offset
      else state.HoldsHandle other held place) :
    Represents { state with openFileTable := table, freeOpenFileEntries := marks }
      (model.setHandle handle inode offset) :=
  { represents with
    handles := by
      intro other held place
      change Function.update model.handles handle (some (inode, offset)) other =
        some (held, place) ↔ _
      rw [handles other held place]
      by_cases equal : other = handle
      · subst other
        rw [Function.update_self, if_pos rfl, Option.some.injEq, Prod.mk.injEq]
        constructor
        · rintro ⟨rfl, rfl⟩
          exact ⟨rfl, rfl⟩
        · rintro ⟨rfl, rfl⟩
          exact ⟨rfl, rfl⟩
      · rw [Function.update_of_ne equal, if_neg equal]
        exact represents.handles other held place }

private theorem entry_eq_iff {inode offset held place : Nat} :
    ({ ofInumber := inode, ofOffset := offset } : OpenFileEntry) =
        { ofInumber := held, ofOffset := place } ↔ held = inode ∧ place = offset := by
  rw [OpenFileEntry.mk.injEq]
  omega

theorem Represents.openHandle (represents : Represents state model) {handle inode offset : Nat}
    (inside : handle < state.maxOpenFiles) :
    Represents (state.openHandle handle { ofInumber := inode, ofOffset := offset })
      (model.setHandle handle inode offset) := by
  apply represents.setHandle
  intro other held place
  change (state.openHandle handle _).HandleTaken other ∧
    (state.openHandle handle _).openFileTable other = _ ↔ _
  rw [State.openHandle_taken inside, State.openHandle_apply]
  by_cases equal : other = handle
  · rw [if_pos equal, if_pos equal, and_iff_right (Or.inl equal)]
    exact entry_eq_iff
  · rw [if_neg equal, if_neg equal, or_iff_right equal]
    exact Iff.rfl

theorem Represents.setOffset (represents : Represents state model) {handle inode offset : Nat}
    (taken : state.HandleTaken handle)
    (refers : (state.openFileTable handle).ofInumber = (inode : Int)) :
    Represents (state.setOffset handle offset) (model.setHandle handle inode offset) := by
  apply represents.setHandle
  intro other held place
  change state.HandleTaken other ∧ (state.setOffset handle offset).openFileTable other = _ ↔ _
  rw [State.setOffset_apply]
  by_cases equal : other = handle
  · subst other
    rw [if_pos rfl, if_pos rfl, and_iff_right taken, ← entry_eq_iff, ← refers]
  · rw [if_neg equal, if_neg equal]
    exact Iff.rfl

theorem Represents.closeHandle (represents : Represents state model) (handle : Nat) :
    Represents (state.closeHandle handle) (model.closeHandle handle) :=
  { represents with
    handles := by
      intro other held place
      change Function.update model.handles handle none other = some (held, place) ↔
        (state.closeHandle handle).HandleTaken other ∧ state.openFileTable other = _
      rw [State.closeHandle_taken]
      by_cases equal : other = handle
      · subst other
        simp
      · rw [Function.update_of_ne equal, and_iff_right equal]
        exact represents.handles other held place }

/-! ### Inodes -/

/-- One inode becomes a regular file with the given contents. -/
theorem Represents.setFile (represents : Represents state model) (inodes : InodesOk state)
    (area : state.SameArea state') {inode : Nat} {contents : List UInt8}
    (others : ∀ other, other ≠ inode → state.SameInode state' other)
    (holds : state'.HoldsFile inode contents)
    (notSymLink : state.InodeTaken inode → (state.inodeTable inode).iNodeType ≠ .tSymLink)
    (names : state.SameNames state') (handles : state.SameHandles state') :
    Represents state' (model.setFile inode contents) where
  names name other := (represents.names name other).trans (names name other).symm
  files other bytes := by
    change Function.update model.files inode (some contents) other = some bytes ↔ _
    by_cases same : other = inode
    · subst other
      rw [Function.update_self, Option.some.injEq]
      constructor
      · rintro rfl
        exact holds
      · rintro ⟨_, _, equal⟩
        exact holds.2.2.symm.trans equal
    · rw [Function.update_of_ne same, (others other same).holdsFile area inodes]
      exact represents.files other bytes
  links other target := by
    change model.links other = some target ↔ _
    by_cases same : other = inode
    · subst other
      rw [represents.links]
      constructor
      · rintro ⟨taken, isSymLink, _⟩
        exact (notSymLink taken isSymLink).elim
      · rintro ⟨_, isSymLink, _⟩
        rw [holds.2.1] at isSymLink
        cases isSymLink
    · rw [(others other same).holdsLink area]
      exact represents.links other target
  handles handle other offset := (represents.handles handle other offset).trans
    (handles handle other offset).symm
  stored other taken isSymLink := by
    by_cases same : other = inode
    · subst other
      rw [holds.2.1] at isSymLink
      cases isSymLink
    · have taken' := (others other same).taken.mp taken
      exact represents.stored other taken' (((others other same).kind taken').symm.trans isSymLink)

/-- A free inode becomes a symbolic link with the given target. -/
theorem Represents.setLink (represents : Represents state model) (inodes : InodesOk state)
    (area : state.SameArea state') {inode : Nat} {target : CString}
    (others : ∀ other, other ≠ inode → state.SameInode state' other)
    (holds : state'.HoldsLink inode target) (unused : ¬ state.InodeTaken inode)
    (names : state.SameNames state') (handles : state.SameHandles state') :
    Represents state' (model.setLink inode target) where
  names name other := (represents.names name other).trans (names name other).symm
  files other bytes := by
    change model.files other = some bytes ↔ _
    by_cases same : other = inode
    · subst other
      rw [represents.files]
      constructor
      · rintro ⟨taken, _⟩
        exact (unused taken).elim
      · rintro ⟨_, isFile, _⟩
        rw [holds.2.1] at isFile
        cases isFile
    · rw [(others other same).holdsFile area inodes]
      exact represents.files other bytes
  links other text := by
    change Function.update model.links inode (some target) other = some text ↔ _
    by_cases same : other = inode
    · subst other
      rw [Function.update_self, Option.some.injEq]
      constructor
      · rintro rfl
        exact holds
      · rintro ⟨_, _, _, _, equal⟩
        exact CString.eq_of_terminated holds.2.2.2.2 equal
    · rw [Function.update_of_ne same, (others other same).holdsLink area]
      exact represents.links other text
  handles handle other offset := (represents.handles handle other offset).trans
    (handles handle other offset).symm
  stored other taken isSymLink := by
    by_cases same : other = inode
    · subst other
      exact ⟨target, Function.update_self _ _ _⟩
    · have taken' := (others other same).taken.mp taken
      obtain ⟨text, found⟩ := represents.stored other taken'
        (((others other same).kind taken').symm.trans isSymLink)
      exact ⟨text, (Function.update_of_ne same _ _).trans found⟩

/-- The inode is given back. -/
theorem Represents.remove (represents : Represents state model) (inodes : InodesOk state)
    (area : state.SameArea state') {inode : Nat}
    (others : ∀ other, other ≠ inode → state.SameInode state' other)
    (unused : ¬ state'.InodeTaken inode)
    (names : state.SameNames state') (handles : state.SameHandles state') :
    Represents state' (model.remove inode) where
  names name other := (represents.names name other).trans (names name other).symm
  files other bytes := by
    change Function.update model.files inode none other = some bytes ↔ _
    by_cases same : other = inode
    · subst other
      rw [Function.update_self]
      constructor
      · intro impossible
        cases impossible
      · rintro ⟨taken, _⟩
        exact (unused taken).elim
    · rw [Function.update_of_ne same, (others other same).holdsFile area inodes]
      exact represents.files other bytes
  links other target := by
    change Function.update model.links inode none other = some target ↔ _
    by_cases same : other = inode
    · subst other
      rw [Function.update_self]
      constructor
      · intro impossible
        cases impossible
      · rintro ⟨taken, _⟩
        exact (unused taken).elim
    · rw [Function.update_of_ne same, (others other same).holdsLink area]
      exact represents.links other target
  handles handle other offset := (represents.handles handle other offset).trans
    (handles handle other offset).symm
  stored other taken isSymLink := by
    by_cases same : other = inode
    · subst other
      exact (unused taken).elim
    · have taken' := (others other same).taken.mp taken
      obtain ⟨text, found⟩ := represents.stored other taken'
        (((others other same).kind taken').symm.trans isSymLink)
      exact ⟨text, (Function.update_of_ne same _ _).trans found⟩

end TecnicoFS.FileSystem
