/-
Concurrent calls of `tfs_open` with `TFS_O_CREAT` on a name that is not there.

`open_mutex` is held from the lookup that misses the name until the entry is added, so one
thread at most is between the two.  The first thread that misses the name creates its
inode; every later lookup finds the entry.
-/

import TecnicoFS.FileSystem.ConcurrentLinks
import TecnicoFS.FileSystem.Namespace

set_option autoImplicit false

namespace TecnicoFS.FileSystem

open LinkLedger

variable {Thread : Type} {params : TfsParams} {state : State} {name : CString}

/-! ### The open mutex -/

/-- The path `tfs_open` looks up or creates is one `valid_pathname` accepts. -/
def TfsPoint.PathValid : TfsPoint → Prop
  | .openEnter path _ | .openFound path _ _ | .openAbsent path | .openCreated path _ =>
      ValidPathname path
  | _ => True

/-- One thread at most is between two sections under `open_mutex`. -/
structure OpensOk (points : Thread → TfsPoint) : Prop where
  exclusive : ∀ left right, (points left).HoldsOpenMutex → (points right).HoldsOpenMutex →
    left = right
  valid : ∀ thread, (points thread).PathValid

/-- A call starts outside `open_mutex`, on a valid path. -/
theorem Call.enter_open {request : Call} {point : TfsPoint} (enters : request.enter = some point) :
    ¬ point.HoldsOpenMutex ∧ point.PathValid := by
  cases Call.enter_start enters with
  | opens valid => exact ⟨id, valid⟩
  | _ => exact ⟨id, trivial⟩

/-- A section ends under `open_mutex` only when it took it or held it before. -/
theorem SectionEffect.holds {point next : TfsPoint} {after : State}
    (effect : SectionEffect state point next after) (holds : next.HoldsOpenMutex) :
    point.HoldsOpenMutex ∨ ∃ path mode, point = .openEnter path mode := by
  cases effect with
  | openAbsent => exact Or.inr ⟨_, _, rfl⟩
  | openCreates => exact Or.inl trivial
  | @openFollows _ target mode _ _ _ =>
      rcases enterOpen_cases (some target) mode with failed | ⟨found, _, _, entered⟩
      · rw [failed] at holds
        exact holds.elim
      · rw [entered] at holds
        exact holds.elim
  | _ => exact holds.elim

theorem SectionEffect.pathValid {point next : TfsPoint} {after : State}
    (effect : SectionEffect state point next after) (valid : point.PathValid) : next.PathValid := by
  cases effect with
  | openFinds | openAbsent | openCreates => exact valid
  | @openFollows _ target mode _ _ _ =>
      rcases enterOpen_cases (some target) mode with failed | ⟨found, _, found_valid, entered⟩
      · rw [failed]
        trivial
      · rw [entered]
        exact found_valid
  | _ => trivial

variable [DecidableEq Thread]

/-- Moving one thread keeps the mutex exclusive when nobody else holds it. -/
theorem OpensOk.update {points : Thread → TfsPoint} (ok : OpensOk points) {thread : Thread}
    {next : TfsPoint} (valid : next.PathValid)
    (alone : next.HoldsOpenMutex → ∀ other, other ≠ thread → ¬ (points other).HoldsOpenMutex) :
    OpensOk (Function.update points thread next) := by
  constructor
  · intro left right leftHolds rightHolds
    by_cases isLeft : left = thread
    · by_cases isRight : right = thread
      · rw [isLeft, isRight]
      · rw [isLeft, Function.update_self] at leftHolds
        rw [Function.update_of_ne isRight] at rightHolds
        exact (alone leftHolds right isRight rightHolds).elim
    · rw [Function.update_of_ne isLeft] at leftHolds
      by_cases isRight : right = thread
      · rw [isRight, Function.update_self] at rightHolds
        exact (alone rightHolds left isLeft leftHolds).elim
      · rw [Function.update_of_ne isRight] at rightHolds
        exact ok.exclusive left right leftHolds rightHolds
  · intro other
    by_cases moved : other = thread
    · rw [moved, Function.update_self]
      exact valid
    · rw [Function.update_of_ne moved]
      exact ok.valid other

theorem SharedStep.opensOk {thread : Thread} {before after : SharedFs Thread}
    (step : SharedStep thread before after) {roles : Thread → Role Int}
    (links : LinksOk before.now.fs before.points roles) (ok : OpensOk before.points) :
    OpensOk after.points := by
  cases step with
  | calls _ enters =>
      obtain ⟨outside, valid⟩ := Call.enter_open enters
      exact ok.update valid (fun holds => (outside holds).elim)
  | runs section_ free returned =>
      have effect := links.effect section_ returned
      refine ok.update (effect.pathValid (ok.valid thread)) ?_
      intro holds other different otherHolds
      rcases effect.holds holds with held | ⟨path, mode, entered⟩
      · exact different (ok.exclusive other thread otherHolds held)
      · rw [entered] at free
        exact free other otherHolds

theorem sharedSystem_opensOk {shared : SharedFs Thread}
    (reachable : (sharedSystem Thread params).Reachable shared) : OpensOk shared.points := by
  refine @ThreadSystem.Reachable.preserves_with _ _ _
    (fun shared : SharedFs Thread => ∃ roles, LinksOk shared.now.fs shared.points roles)
    (fun shared => OpensOk shared.points) _ reachable (fun _ => sharedSystem_linksOk) ?_ ?_
  · intro shared initial
    constructor
    · intro left _ holds
      rw [initial.idle left] at holds
      exact holds.elim
    · intro thread
      rw [initial.idle thread]
      trivial
  · rintro _ _ _ ⟨_, links⟩ ok step
    exact step.opensOk links ok

/-! ### Creating one name -/

/-- Inside an operation other than `tfs_open` that may bind the name or unbind it -/
def TfsPoint.Rebinds (name : CString) : TfsPoint → Prop
  | .symEnter _ link | .symCreated _ link _ | .symStored link _ | .linkEnter _ link
  | .linkFound link _ | .linkWithdraw link _ | .linkCount link _ => link.tail = name
  | .unlinkEnter target | .unlinkFound target _ => target.tail = name
  | _ => False

/-- Inside a `tfs_open` of the name, up to its entry in the directory -/
def TfsPoint.Opens (name : CString) : TfsPoint → Prop
  | .openEnter path _ | .openFound path _ _ | .openAbsent path | .openCreated path _ =>
      path.tail = name
  | _ => False

/-- On the way to the entry of the name -/
def TfsPoint.Creates (name : CString) : TfsPoint → Prop
  | .openEnter path mode => path = rootPath name ∧ mode.tfsOCreat = true
  | .openAbsent path | .openCreated path _ => path = rootPath name
  | _ => False

namespace SharedFs

omit [DecidableEq Thread]

/-- The same moment, with the calls and the inodes made so far left out of account -/
def forget (shared : SharedFs Thread) : SharedFs Thread :=
  { shared with
    sessions := fun thread => { shared.sessions thread with request := none }
    created := [] }

/-- The inodes that `tfs_open` created for the name -/
def createdFor (shared : SharedFs Thread) (name : CString) : List Int :=
  (shared.created.filter (fun made => made.1 = rootPath name)).map Prod.snd

/-- An inode is FREE as long as none was created for the name, and a slot is dead as long as
no entry carries it. -/
structure Room (shared : SharedFs Thread) (name : CString) : Prop where
  inode : shared.createdFor name = [] → ¬ shared.now.fs.NoFreeInode
  slot : shared.now.fs.Unbound name → ¬ shared.now.fs.DirectoryFull

end SharedFs

/-- The section takes an inode or a slot for something else than the name. -/
def TfsPoint.Takes (name : CString) : TfsPoint → Prop
  | .openAbsent path | .openCreated path _ => path.tail ≠ name
  | .symEnter _ _ | .symStored _ _ | .linkFound _ _ => True
  | _ => False

/-- Any moment at which the name is absent, no operation on it is in progress and an inode
and a slot are there for it -/
structure CreatingStart (params : TfsParams) (name : CString) (shared : SharedFs Thread) :
    Prop where
  reached : ∃ before, (sharedSystem Thread params).Reachable before ∧ shared = before.forget
  unbound : shared.now.fs.Unbound name
  alone : ∀ thread, ¬ (shared.points thread).Rebinds name ∧ ¬ (shared.points thread).Opens name
  inode : ¬ shared.now.fs.NoFreeInode
  slot : ¬ shared.now.fs.DirectoryFull

/-- The threads from such a moment on, while nobody but `tfs_open` works on the name and
nobody takes the last inode or the last slot for something else -/
def creatingSystem (Thread : Type) [DecidableEq Thread] (params : TfsParams) (name : CString) :
    ThreadSystem Thread (SharedFs Thread) where
  initial := CreatingStart params name
  step thread before after := SharedStep thread before after ∧
    ¬ (after.points thread).Rebinds name ∧ ((before.points thread).Takes name → after.Room name)

/-- How far the creation of the name is -/
inductive CreatePhase (name : CString) (shared : SharedFs Thread) : Prop where
  | absent (unbound : ∀ inode, ¬ shared.now.fs.Binds name inode)
      (nothing : shared.createdFor name = [])
      (nobody : ∀ thread inum, shared.points thread ≠ .openCreated (rootPath name) inum)
  | creating (thread : Thread) (inum : Int) (unbound : ∀ inode, ¬ shared.now.fs.Binds name inode)
      (one : shared.createdFor name = [inum])
      (inside : shared.points thread = .openCreated (rootPath name) inum)
  | present (inode : Nat) (bound : shared.now.fs.Binds name inode)
      (one : shared.createdFor name = [(inode : Int)])
      (nobody : ∀ thread, shared.points thread ≠ .openAbsent (rootPath name) ∧
        ∀ inum, shared.points thread ≠ .openCreated (rootPath name) inum)

structure CreateOk (name : CString) (shared : SharedFs Thread) : Prop where
  links : ∃ roles, LinksOk shared.now.fs shared.points roles
  opens : OpensOk shared.points
  alone : ∀ thread, ¬ (shared.points thread).Rebinds name
  phase : CreatePhase name shared
  room : shared.Room name
  callers : ∀ thread mode,
    (shared.sessions thread).request = some (.tfsOpen (some (rootPath name)) mode) →
    mode.tfsOCreat = true →
    (∃ inode, shared.now.fs.Binds name inode) ∨ (shared.points thread).Creates name

omit [DecidableEq Thread] in
/-- A valid path is the path of its name. -/
theorem rootPath_of_valid {path : CString} (valid : ValidPathname path) (named : path.tail = name) :
    path = rootPath name := by
  subst named
  apply CString.ext_bytes
  change path.bytes = slash :: path.bytes.tail
  obtain ⟨_, head⟩ := valid
  cases bytes : path.bytes with
  | nil =>
      rw [bytes] at head
      cases head
  | cons byte rest =>
      rw [bytes] at head
      cases head
      rfl

omit [DecidableEq Thread] in
theorem State.EntriesHeld.unbound_iff (held : state.EntriesHeld) (short : validSubName name) :
    state.Unbound name ↔ ∀ inode, ¬ state.Binds name inode := by
  constructor
  · rintro unbound inode ⟨_, slot, live, named, _⟩
    exact unbound slot live named
  · intro absent slot live named
    obtain ⟨inode, holds, _⟩ := held slot live
    exact absent inode ⟨short, slot, live, named, holds⟩

omit [DecidableEq Thread] in
/-- Only the section that adds the entry of the name changes what the name is bound to. -/
theorem SectionEffect.names_kept {point next : TfsPoint} {after : State}
    (effect : SectionEffect state point next after) (ok : StoreOk state)
    (sound : point.Sound state) (valid : point.PathValid) (alone : ¬ point.Rebinds name)
    (elsewhere : ∀ inum, point ≠ .openCreated (rootPath name) inum) (inode : Nat) :
    after.Binds name inode ↔ state.Binds name inode := by
  rcases effect.directory ok sound with
    same | ⟨path, made, slot, enters, fits, accepts, rfl⟩ | ⟨path, held, slot, clears, binds, rfl⟩
  · exact same.names name inode
  · rw [State.bindEntry_binds accepts.1 fits accepts.2.2 accepts.2.1]
    have different : name ≠ path.tail := by
      intro equal
      cases point with
      | openCreated other inum =>
          cases enters
          exact elsewhere inum (congrArg (TfsPoint.openCreated · inum)
            (rootPath_of_valid valid equal.symm))
      | symStored | linkFound =>
          cases enters
          exact alone equal.symm
      | _ => cases enters
    rw [if_neg different]
  · obtain ⟨short, live, named, _⟩ := binds
    rw [State.scrubEntry_binds ok.directory short live named]
    have different : name ≠ path.tail := by
      intro equal
      cases point with
      | linkWithdraw | unlinkFound =>
          cases clears
          exact alone equal.symm
      | _ => cases clears
    exact and_iff_right different

/-- A section that is not the one creating the inode of the name creates none for it. -/
theorem SharedFs.createdFor_advance {shared : SharedFs Thread} {thread : Thread}
    {next : TfsPoint} {fs : State}
    (effect : SectionEffect shared.now.fs (shared.points thread) next fs)
    (elsewhere : shared.points thread ≠ .openAbsent (rootPath name)) :
    (shared.advance thread next fs).createdFor name = shared.createdFor name := by
  unfold SharedFs.createdFor SharedFs.advance
  dsimp only
  generalize shared.points thread = point at effect elsewhere
  cases effect with
  | @openCreates path inode _ =>
      have different : path ≠ rootPath name := fun same => elsewhere (congrArg _ same)
      change (List.filter _ ((path, (inode : Int)) :: shared.created)).map _ = _
      rw [List.filter_cons_of_neg]
      rw [decide_eq_true_eq]
      exact different
  | _ => rfl

/-- The inode of the name is recorded when it is created. -/
theorem SharedFs.createdFor_creates {shared : SharedFs Thread} {thread : Thread} {inum : Int}
    {fs : State} (absent : shared.points thread = .openAbsent (rootPath name)) :
    (shared.advance thread (.openCreated (rootPath name) inum) fs).createdFor name =
      inum :: shared.createdFor name := by
  unfold SharedFs.createdFor SharedFs.advance
  dsimp only
  rw [absent]
  change (List.filter _ ((rootPath name, inum) :: shared.created)).map _ = _
  rw [List.filter_cons_of_pos, List.map_cons]
  exact decide_eq_true rfl

omit [DecidableEq Thread] in
/-- A section that creates no inode takes none. -/
theorem SectionEffect.freeInodes {point next : TfsPoint} {after : State}
    (effect : SectionEffect state point next after) (noFile : ∀ path, point ≠ .openAbsent path)
    (noLink : ∀ target link, point ≠ .symEnter target link) (free : ¬ state.NoFreeInode) :
    ¬ after.NoFreeInode := by
  have released (between : State) (inode : Nat) (size : between.inodeTableSize = state.inodeTableSize)
      (marks : between.freeinodeTs = state.freeinodeTs) :
      ¬ (between.deleteInode inode).NoFreeInode := by
    intro full
    apply free
    intro other inside
    have stays : (between.deleteInode inode).InodeTaken other := by
      have sizes : (between.deleteInode inode).inodeTableSize = state.inodeTableSize := by
        unfold State.inodeTableSize at size ⊢
        rw [State.deleteInode_fsParams, size]
      rw [← sizes] at inside
      exact ⟨inside, full other inside⟩
    have taken := (State.deleteInode_taken.mp stays).2.2
    rwa [marks] at taken
  cases effect with
  | openCreates => exact (noFile _ rfl).elim
  | symCreates => exact (noLink _ _ rfl).elim
  | openTruncates _ =>
      intro full
      apply free
      unfold State.truncated State.releaseBlock at full
      split at full
      · split at full
        · exact full
        · exact full
      · exact full
  | openDeletes | symDeletes => exact released state _ rfl rfl
  | @closesLast handle inode _ _ _ _ _ => exact released (state.closeHandle handle) inode rfl rfl
  | @unlinkDeletes inode _ _ => exact released (state.linkDropped inode) inode rfl rfl
  | _ => exact free

omit [DecidableEq Thread] in
/-- A section that adds no entry fills no slot. -/
theorem SectionEffect.deadSlots {point next : TfsPoint} {after : State}
    (effect : SectionEffect state point next after) (ok : StoreOk state)
    (sound : point.Sound state) (adds : point.enters = none) (room : ¬ state.DirectoryFull) :
    ¬ after.DirectoryFull := by
  intro full
  apply room
  intro slot inside
  rcases effect.directory ok sound with
    same | ⟨path, _, _, enters, _⟩ | ⟨_, _, cleared, _, _, rfl⟩
  · exact (same.live slot).mp (full slot (by rw [same.slots]; exact inside))
  · rw [adds] at enters
    cases enters
  · have live := full slot inside
    rw [State.scrubEntry_live] at live
    exact live.2

omit [DecidableEq Thread] in
/-- A section gets between the lookup of the name and its entry only from the lookup or the
creation of the inode. -/
theorem SectionEffect.opening {point next : TfsPoint} {after : State} {path : CString}
    (effect : SectionEffect state point next after) :
    (next = .openAbsent path → ∃ mode, point = .openEnter path mode ∧ state.Missing path) ∧
      ∀ inum, next = .openCreated path inum → point = .openAbsent path := by
  cases effect with
  | openAbsent missing =>
      constructor
      · rintro ⟨⟩
        exact ⟨_, rfl, missing⟩
      · rintro _ ⟨⟩
  | openCreates =>
      constructor
      · rintro ⟨⟩
      · rintro _ ⟨⟩
        rfl
  | @openFollows _ target mode _ _ _ =>
      rcases enterOpen_cases (some target) mode with failed | ⟨found, _, _, entered⟩
      · rw [failed]
        exact ⟨by rintro ⟨⟩, by rintro _ ⟨⟩⟩
      · rw [entered]
        exact ⟨by rintro ⟨⟩, by rintro _ ⟨⟩⟩
  | _ => exact ⟨by rintro ⟨⟩, by rintro _ ⟨⟩⟩

omit [DecidableEq Thread] in
theorem State.Binds.not_missing {inode : Nat} (binds : state.Binds name inode) :
    ¬ state.Missing (rootPath name) := by
  obtain ⟨short, slot, live, named, _⟩ := binds
  rintro (invalid | notFound)
  · exact invalid (rootPath_valid short)
  · rw [rootPath_tail] at notFound
    rcases notFound with long | unbound
    · exact long short
    · exact unbound slot live named

omit [DecidableEq Thread] in
/-- The section that creates the inode of the name -/
theorem SectionEffect.creates {next : TfsPoint} {after : State}
    (effect : SectionEffect state (.openAbsent (rootPath name)) next after)
    (provided : ¬ state.NoFreeInode) :
    ∃ inode : Nat, next = .openCreated (rootPath name) inode ∧
      after = state.takeInode inode (newInode .tFile) := by
  cases effect with
  | openNoInode full => exact (provided full).elim
  | @openCreates _ inode _ => exact ⟨inode, rfl, rfl⟩

omit [DecidableEq Thread] in
/-- The section that adds the entry of the name -/
theorem SectionEffect.enters {next : TfsPoint} {after : State} {inum : Int}
    (effect : SectionEffect state (.openCreated (rootPath name) inum) next after)
    (sound : (TfsPoint.openCreated (rootPath name) inum).Sound state) (ok : StoreOk state)
    (short : validSubName name) (unbound : state.Unbound name) (provided : ¬ state.DirectoryFull) :
    ∃ inode : Nat, inum = (inode : Int) ∧ next = .openReady inode 0 ∧ after.Binds name inode := by
  cases effect with
  | openDeclined declines =>
      rw [rootPath_tail] at declines
      rcases declines with long | bound | full
      · exact (long short).elim
      · exact (bound unbound).elim
      · exact (provided full).elim
  | @openEnters _ inode slot accepts =>
      obtain ⟨node, same, _, taken⟩ := sound
      cases Int.ofNat_inj.mp same
      refine ⟨inode, rfl, rfl, ?_⟩
      rw [State.bindEntry_binds accepts.1 (ok.fits _ taken) accepts.2.2 accepts.2.1, rootPath_tail,
        if_pos rfl]

omit [DecidableEq Thread] in
/-- No inode was created for a name that a thread is about to create one for. -/
theorem CreateOk.nothing_yet {shared : SharedFs Thread} (ok : CreateOk name shared)
    {thread : Thread} (absent : shared.points thread = .openAbsent (rootPath name)) :
    shared.createdFor name = [] := by
  cases ok.phase with
  | absent _ nothing _ => exact nothing
  | creating creator inum _ _ inside =>
      have same := ok.opens.exclusive thread creator (by rw [absent]; trivial)
        (by rw [inside]; trivial)
      rw [same, inside] at absent
      cases absent
  | present _ _ _ nobody => exact ((nobody thread).1 absent).elim

omit [DecidableEq Thread] in
/-- No entry carries a name that a thread is about to add an entry for. -/
theorem CreateOk.unbound_yet {shared : SharedFs Thread} (ok : CreateOk name shared)
    {thread : Thread} {inum : Int}
    (created : shared.points thread = .openCreated (rootPath name) inum) (inode : Nat) :
    ¬ shared.now.fs.Binds name inode := by
  cases ok.phase with
  | absent unbound _ _ => exact unbound inode
  | creating _ _ unbound _ _ => exact unbound inode
  | present _ _ _ nobody => exact ((nobody thread).2 inum created).elim

/-- What the steps rely on -/
structure CreatingStep (name : CString) (shared : SharedFs Thread) (thread : Thread)
    (next : TfsPoint) (fs : State) : Prop where
  short : validSubName name
  store : StoreOk shared.now.fs
  held : shared.now.fs.EntriesHeld
  sound : (shared.points thread).Sound shared.now.fs
  effect : SectionEffect shared.now.fs (shared.points thread) next fs

/-- The creation of the name moves on with every section. -/
theorem CreateOk.phase_advance {shared : SharedFs Thread} (ok : CreateOk name shared)
    {thread : Thread} {next : TfsPoint} {fs : State}
    (step : CreatingStep name shared thread next fs) :
    CreatePhase name (shared.advance thread next fs) := by
  have kept := step.effect.names_kept step.store step.sound (ok.opens.valid thread)
    (ok.alone thread)
  have elsewhere := @SharedFs.createdFor_advance _ name _ _ _ _ _ step.effect
  have opening := @SectionEffect.opening _ _ _ _ (rootPath name) step.effect
  have moved : (shared.advance thread next fs).points thread = next := Function.update_self ..
  have others (other : Thread) (different : other ≠ thread) :
      (shared.advance thread next fs).points other = shared.points other :=
    Function.update_of_ne different ..
  cases ok.phase with
  | absent unbound nothing nobody =>
      by_cases absent : shared.points thread = .openAbsent (rootPath name)
      · have effect := step.effect
        rw [absent] at effect
        obtain ⟨inode, rfl, rfl⟩ := effect.creates (ok.room.inode nothing)
        refine .creating thread inode unbound ?_ moved
        rw [SharedFs.createdFor_creates absent, nothing]
      · refine .absent (fun inode binds => unbound inode ((kept (nobody thread) inode).mp binds))
          ((elsewhere absent).trans nothing) ?_
        intro other inum inside
        by_cases same : other = thread
        · rw [same, moved] at inside
          exact absent (opening.2 inum inside)
        · rw [others other same] at inside
          exact nobody other inum inside
  | creating creator inum unbound one inside =>
      by_cases same : thread = creator
      · subst creator
        have effect := step.effect
        have sound := step.sound
        have unbound := (step.held.unbound_iff step.short).mpr unbound
        rw [inside] at effect sound
        obtain ⟨inode, rfl, rfl, bound⟩ := effect.enters sound step.store step.short unbound
          (ok.room.slot unbound)
        refine .present inode bound ?_ ?_
        · rw [elsewhere (by rw [inside]; rintro ⟨⟩)]
          exact one
        · intro other
          by_cases self : other = thread
          · rw [self, moved]
            exact ⟨by rintro ⟨⟩, by rintro _ ⟨⟩⟩
          · have outside : ¬ (shared.points other).HoldsOpenMutex := by
              intro holds
              exact self (ok.opens.exclusive other thread holds (by rw [inside]; trivial))
            rw [others other self]
            constructor
            · intro absent
              rw [absent] at outside
              exact outside trivial
            · intro inum created
              rw [created] at outside
              exact outside trivial
      · have outside : ¬ (shared.points thread).HoldsOpenMutex := by
          intro holds
          exact same (ok.opens.exclusive thread creator holds (by rw [inside]; trivial))
        have notAbsent : shared.points thread ≠ .openAbsent (rootPath name) := by
          intro absent
          rw [absent] at outside
          exact outside trivial
        have notCreated (inum : Int) : shared.points thread ≠ .openCreated (rootPath name) inum := by
          intro created
          rw [created] at outside
          exact outside trivial
        refine .creating creator inum
          (fun inode binds => unbound inode ((kept notCreated inode).mp binds))
          ((elsewhere notAbsent).trans one) ?_
        rw [others creator (fun equal => same equal.symm)]
        exact inside
  | present inode bound one nobody =>
      refine .present inode ((kept (nobody thread).2 inode).mpr bound)
        ((elsewhere (nobody thread).1).trans one) ?_
      intro other
      by_cases same : other = thread
      · rw [same, moved]
        constructor
        · intro absent
          obtain ⟨_, _, missing⟩ := opening.1 absent
          exact bound.not_missing missing
        · intro inum created
          exact (nobody thread).1 (opening.2 inum created)
      · rw [others other same]
        exact nobody other

omit [DecidableEq Thread] in
/-- Once the name is bound it stays bound. -/
theorem CreateOk.binds_advance {shared : SharedFs Thread} (ok : CreateOk name shared)
    {thread : Thread} {next : TfsPoint} {fs : State}
    (step : CreatingStep name shared thread next fs) (bound : ∃ inode, shared.now.fs.Binds name inode) :
    ∃ inode, fs.Binds name inode := by
  obtain ⟨inode, binds⟩ := bound
  have elsewhere : ∀ inum, shared.points thread ≠ .openCreated (rootPath name) inum := by
    cases ok.phase with
    | absent unbound _ _ => exact (unbound inode binds).elim
    | creating _ _ unbound _ _ => exact (unbound inode binds).elim
    | present _ _ _ nobody => exact (nobody thread).2
  exact ⟨inode, (step.effect.names_kept step.store step.sound (ok.opens.valid thread)
    (ok.alone thread) elsewhere inode).mpr binds⟩

omit [DecidableEq Thread] in
/-- A thread on the way to the entry of the name stays on it or finds the name bound. -/
theorem CreateOk.creates_advance {shared : SharedFs Thread} (ok : CreateOk name shared)
    {thread : Thread} {next : TfsPoint} {fs : State}
    (step : CreatingStep name shared thread next fs) (creates : (shared.points thread).Creates name) :
    (∃ inode, fs.Binds name inode) ∨ next.Creates name := by
  have effect := step.effect
  have sound := step.sound
  cases at_ : shared.points thread with
  | openEnter path mode =>
      rw [at_] at effect creates
      obtain ⟨rfl, creat⟩ := creates
      cases effect with
      | openFinds binds => exact Or.inl ⟨_, binds⟩
      | openAbsent _ _ => exact Or.inr rfl
      | openMissing _ plain => exact absurd (creat.symm.trans plain) (by decide)
  | openAbsent path =>
      rw [at_] at effect creates
      cases creates
      obtain ⟨inode, rfl, _⟩ := effect.creates (ok.room.inode (ok.nothing_yet at_))
      exact Or.inr rfl
  | openCreated path inum =>
      rw [at_] at effect creates sound
      cases creates
      have unbound := (step.held.unbound_iff step.short).mpr (ok.unbound_yet at_)
      obtain ⟨inode, _, _, binds⟩ := effect.enters sound step.store step.short unbound
        (ok.room.slot unbound)
      exact Or.inl ⟨inode, binds⟩
  | _ =>
      rw [at_] at creates
      exact creates.elim

/-- A new call creates nothing yet. -/
theorem CreatePhase.call {shared : SharedFs Thread} (phase : CreatePhase name shared)
    {thread : Thread} {request : Call} {point : TfsPoint} (quiet : (shared.points thread).Quiet)
    (outside : ¬ point.HoldsOpenMutex) : CreatePhase name (shared.call thread request point) := by
  have moved (other : Thread) (at_ : TfsPoint) (inside : at_.HoldsOpenMutex)
      (stands : (shared.call thread request point).points other = at_) :
      shared.points other = at_ := by
    change Function.update shared.points thread point other = at_ at stands
    by_cases same : other = thread
    · rw [same, Function.update_self] at stands
      rw [stands] at outside
      exact (outside inside).elim
    · rwa [Function.update_of_ne same] at stands
  cases phase with
  | absent unbound nothing nobody =>
      exact .absent unbound nothing
        (fun other inum stands => nobody other inum (moved other _ trivial stands))
  | creating creator inum unbound one inside =>
      refine .creating creator inum unbound one ?_
      change Function.update shared.points thread point creator = _
      rw [Function.update_of_ne]
      · exact inside
      · intro same
        rw [← same, inside] at quiet
        exact quiet
  | present inode bound one nobody =>
      refine .present inode bound one (fun other => ⟨?_, ?_⟩)
      · intro stands
        exact (nobody other).1 (moved other _ trivial stands)
      · intro inum stands
        exact (nobody other).2 inum (moved other _ trivial stands)

theorem CreateOk.room_advance {shared : SharedFs Thread} (ok : CreateOk name shared)
    {thread : Thread} {next : TfsPoint} {fs : State}
    (step : CreatingStep name shared thread next fs)
    (spares : (shared.points thread).Takes name → (shared.advance thread next fs).Room name) :
    (shared.advance thread next fs).Room name := by
  by_cases takes : (shared.points thread).Takes name
  · exact spares takes
  have effect := step.effect
  have valid := ok.opens.valid thread
  constructor
  · intro nothing
    by_cases absent : shared.points thread = .openAbsent (rootPath name)
    · rw [absent] at effect
      obtain ⟨inode, rfl, _⟩ := effect.creates (ok.room.inode (ok.nothing_yet absent))
      rw [SharedFs.createdFor_creates absent] at nothing
      cases nothing
    · rw [SharedFs.createdFor_advance effect absent] at nothing
      refine effect.freeInodes ?_ ?_ (ok.room.inode nothing)
      · intro path at_
        rw [at_] at takes valid
        exact absent (at_.trans (congrArg _ (rootPath_of_valid valid (not_not.mp takes))))
      · intro target link at_
        rw [at_] at takes
        exact takes trivial
  · intro unbound
    by_cases created : ∃ inum, shared.points thread = .openCreated (rootPath name) inum
    · obtain ⟨inum, at_⟩ := created
      have sound := step.sound
      have before := (step.held.unbound_iff step.short).mpr (ok.unbound_yet at_)
      rw [at_] at effect sound
      obtain ⟨inode, _, _, _, slot, live, named, _⟩ := effect.enters sound step.store step.short
        before (ok.room.slot before)
      exact (unbound slot live named).elim
    · have adds : (shared.points thread).enters = none := by
        cases at_ : shared.points thread with
        | openCreated path inum =>
            rw [at_] at takes valid
            refine (created ⟨inum, at_.trans (congrArg (TfsPoint.openCreated · inum) ?_)⟩).elim
            exact rootPath_of_valid valid (not_not.mp takes)
        | symStored | linkFound =>
            rw [at_] at takes
            exact (takes trivial).elim
        | _ => rfl
      have before : shared.now.fs.Unbound name := by
        rw [step.held.unbound_iff step.short]
        intro inode binds
        have binds' := (effect.names_kept step.store step.sound valid (ok.alone thread)
          (fun inum at_ => created ⟨inum, at_⟩) inode).mpr binds
        obtain ⟨_, slot, live, named, _⟩ := binds'
        exact unbound slot live named
      exact effect.deadSlots step.store step.sound adds (ok.room.slot before)

theorem CreateOk.step {before after : SharedFs Thread} {thread : Thread} (short : validSubName name)
    (ok : CreateOk name before) (step : (creatingSystem Thread params name).step thread before after) :
    CreateOk name after := by
  obtain ⟨shared, alone, spares⟩ := step
  obtain ⟨roles, links⟩ := ok.links
  have links' := shared.linksOk links
  have opens' := shared.opensOk links ok.opens
  have alone' (other : Thread) : ¬ (after.points other).Rebinds name := by
    by_cases same : other = thread
    · rw [same]
      exact alone
    · have kept : after.points other = before.points other := by
        cases shared with
        | calls => exact Function.update_of_ne same ..
        | runs => exact Function.update_of_ne same ..
      rw [kept]
      exact ok.alone other
  cases shared with
  | @calls request point quiet enters =>
      refine ⟨links', opens', alone', ok.phase.call quiet (Call.enter_open enters).1,
        ⟨ok.room.inode, ok.room.slot⟩, ?_⟩
      intro other mode asked creat
      change (Function.update before.sessions thread _ other).request = _ at asked
      by_cases same : other = thread
      · right
        rw [same, Function.update_self] at asked
        cases asked
        cases enters
        change (Function.update before.points thread _ other).Creates name
        rw [same, Function.update_self, enterOpen_valid (rootPath_valid short)]
        exact ⟨rfl, creat⟩
      · rw [Function.update_of_ne same] at asked
        rcases ok.callers other mode asked creat with bound | creates
        · exact Or.inl bound
        · right
          change (Function.update before.points thread _ other).Creates name
          rw [Function.update_of_ne same]
          exact creates
  | @runs body next fs section_ free returned =>
      have moves : CreatingStep name before thread next fs :=
        { short := short
          store := links.store
          held := links.entriesHeld
          sound := links.sound thread
          effect := links.effect section_ returned }
      refine ⟨links', opens', alone', ok.phase_advance moves, ok.room_advance moves spares, ?_⟩
      intro other mode asked creat
      rcases ok.callers other mode asked creat with bound | creates
      · exact Or.inl (ok.binds_advance moves bound)
      · by_cases same : other = thread
        · subst other
          rcases ok.creates_advance moves creates with bound | creates'
          · exact Or.inl bound
          · right
            change (Function.update before.points thread next thread).Creates name
            rw [Function.update_self]
            exact creates'
        · right
          change (Function.update before.points thread next other).Creates name
          rw [Function.update_of_ne same]
          exact creates

theorem CreatingStart.createOk {shared : SharedFs Thread} (start : CreatingStart params name shared) :
    CreateOk name shared := by
  obtain ⟨⟨before, reached, rfl⟩, unbound, alone, inode, slot⟩ := start
  have opens : OpensOk before.forget.points := (sharedSystem_opensOk reached : OpensOk before.points)
  have links : ∃ roles, LinksOk before.now.fs before.points roles := sharedSystem_linksOk reached
  refine ⟨links, opens, fun thread => (alone thread).1, .absent ?_ rfl ?_,
    ⟨fun _ => inode, fun _ => slot⟩, ?_⟩
  · rintro inode ⟨_, slot, live, named, _⟩
    exact unbound slot live named
  · intro thread inum inside
    have opens := (alone thread).2
    rw [inside] at opens
    exact opens rfl
  · intro thread mode asked
    cases asked

theorem creatingSystem_createOk {shared : SharedFs Thread} (short : validSubName name)
    (reachable : (creatingSystem Thread params name).Reachable shared) : CreateOk name shared :=
  reachable.preserves (fun _ start => start.createOk)
    (fun _ _ _ ok step => CreateOk.step short ok step)

/-! ### A computed run -/

instance (name : CString) : DecidablePred (TfsPoint.Rebinds name)
  | .symEnter _ link | .symCreated _ link _ | .symStored link _ | .linkEnter _ link
  | .linkFound link _ | .linkWithdraw link _ | .linkCount link _ =>
      instDecidableEqCString link.tail name
  | .unlinkEnter target | .unlinkFound target _ => instDecidableEqCString target.tail name
  | .idle | .returned _ | .openEnter _ _ | .openFound _ _ _ | .openAbsent _ | .openCreated _ _
  | .openFailed _ | .openReady _ _ | .openChecked _ _ | .closeEnter _ | .closeFound _
  | .symFailed _ | .unlinkCleared _ => .isFalse not_false

instance (name : CString) : DecidablePred (TfsPoint.Takes name)
  | .openAbsent path | .openCreated path _ =>
      @instDecidableNot _ (instDecidableEqCString path.tail name)
  | .symEnter _ _ | .symStored _ _ | .linkFound _ _ => .isTrue trivial
  | .idle | .returned _ | .openEnter _ _ | .openFound _ _ _ | .openFailed _ | .openReady _ _
  | .openChecked _ _ | .closeEnter _ | .closeFound _ | .symCreated _ _ _ | .symFailed _
  | .linkEnter _ _ | .linkWithdraw _ _ | .linkCount _ _ | .unlinkEnter _ | .unlinkFound _ _
  | .unlinkCleared _ => .isFalse not_false

/-- A turn of a thread that takes nothing for another name -/
def creatingTurn (name : CString) (thread : Bool) (turn : Turn) (shared : SharedFs Bool) :
    Option (SharedFs Bool) :=
  (takeTurn thread turn shared).filter (fun after =>
    decide (¬ (after.points thread).Rebinds name ∧ ¬ (shared.points thread).Takes name))

theorem creatingSystem_of_creatingTurn {thread : Bool} {turn : Turn} {before after : SharedFs Bool}
    (taken : creatingTurn name thread turn before = some after) :
    (creatingSystem Bool params name).step thread before after := by
  obtain ⟨taken, alone⟩ := Option.filter_eq_some_iff.mp taken
  have apart := of_decide_eq_true alone
  exact ⟨.of_takeTurn taken, apart.1, fun takes => (apart.2 takes).elim⟩

/-- The call asks `tfs_open` to create a file at the path. -/
def Call.creates (path : CString) : Call → Bool
  | .tfsOpen (some name) mode => decide (name = path) && mode.tfsOCreat
  | _ => false

theorem Call.of_creates {path : CString} {request : Call} (creates : request.creates path = true) :
    ∃ mode, request = .tfsOpen (some path) mode ∧ mode.tfsOCreat = true := by
  unfold Call.creates at creates
  split at creates
  · rw [Bool.and_eq_true, decide_eq_true_eq] at creates
    obtain ⟨rfl, creat⟩ := creates
    exact ⟨_, rfl, creat⟩
  · cases creates

/-- The name of the path `/a` -/
def nameA : CString := pathA.tail

/-- Both threads create the file, the second one while the first is between its sections. -/
def bothCreate : List (Bool × Turn) :=
  let creates := Turn.calls (.tfsOpen (some (rootPath nameA)) ⟨true, false, false⟩)
  [(false, creates), (true, creates), (false, .runs), (false, .runs), (false, .runs),
    (true, .runs), (true, .runs), (false, .runs), (false, .runs), (true, .runs), (true, .runs)]

/-- A new file system has room for the name. -/
theorem CreatingStart.of_idleAt (reached : Reachable params (fun _ _ => True) state)
    (roomy : state.freeinodeTs 1 = .free ∧ 1 < state.inodeTableSize ∧ 0 < state.maxDirEntries ∧
      ∀ slot, slot < state.maxDirEntries → ¬ state.EntryLive slot) :
    CreatingStart params name (SharedFs.idleAt state) where
  reached := ⟨SharedFs.idleAt state, .initial (SharedFs.idleAt_initial reached), rfl⟩
  unbound slot live := (roomy.2.2.2 slot live.1 live).elim
  alone _ := ⟨id, id⟩
  inode full := by
    have taken := full 1 roomy.2.1
    change state.freeinodeTs 1 = .taken at taken
    rw [roomy.1] at taken
    cases taken
  slot full := roomy.2.2.2 0 roomy.2.2.1 (full 0 roomy.2.2.1)

/-! ### Directory and link counts -/

/-- One live entry carries the name; it holds a TAKEN inode, the only one that `tfs_open`
created for the name. -/
def SharedFs.CreatedOnce (shared : SharedFs Thread) (name : CString) : Prop :=
  ∃ inode slot : Nat, shared.now.fs.EntryLive slot ∧ shared.now.fs.EntryNamed slot name ∧
    shared.now.fs.entryInumber slot = (inode : Int) ∧ shared.now.fs.InodeTaken inode ∧
    shared.createdFor name = [(inode : Int)] ∧
    ∀ other, shared.now.fs.EntryLive other → shared.now.fs.EntryNamed other name → other = slot

omit [DecidableEq Thread] in
/-- A thread that is back from a `tfs_open` of the name with `TFS_O_CREAT` leaves one entry
and one inode. -/
theorem CreateOk.createdOnce {shared : SharedFs Thread} (ok : CreateOk name shared)
    {thread : Thread} {mode : TfsFileMode}
    (asked : (shared.sessions thread).request = some (.tfsOpen (some (rootPath name)) mode))
    (creat : mode.tfsOCreat = true) (quiet : (shared.points thread).Quiet) :
    shared.CreatedOnce name := by
  obtain ⟨roles, links⟩ := ok.links
  have bound : ∃ inode, shared.now.fs.Binds name inode := by
    rcases ok.callers thread mode asked creat with bound | creates
    · exact bound
    · cases at_ : shared.points thread <;> rw [at_] at creates quiet <;>
        first | exact creates.elim | exact quiet.elim
  cases ok.phase with
  | absent unbound _ _ =>
      obtain ⟨inode, binds⟩ := bound
      exact (unbound inode binds).elim
  | creating _ _ unbound _ _ =>
      obtain ⟨inode, binds⟩ := bound
      exact (unbound inode binds).elim
  | present inode binds one _ =>
      obtain ⟨short, slot, live, named, holds⟩ := binds
      obtain ⟨held, same, _, taken⟩ := links.entriesHeld slot live
      cases Int.ofNat_inj.mp (holds.symm.trans same)
      refine ⟨inode, slot, live, named, holds, taken, one, ?_⟩
      intro other otherLive otherNamed
      exact links.store.directory.distinct other slot name otherLive live short otherNamed named

omit [DecidableEq Thread] in
/-- No two live entries have one name, and none holds a FREE inode. -/
theorem LinksOk.entries {points : Thread → TfsPoint} {roles : Thread → Role Int}
    (ok : LinksOk state points roles) :
    (∀ left right name, state.EntryLive left → state.EntryLive right → state.EntryNamed left name →
      state.EntryNamed right name → left = right) ∧ state.EntriesHeld := by
  refine ⟨?_, ok.entriesHeld⟩
  intro left right name leftLive rightLive leftNamed rightNamed
  obtain ⟨stored, short, named⟩ := ok.store.directory.named left leftLive
  cases State.EntryNamed.unique leftNamed named
  exact ok.store.directory.distinct left right name leftLive rightLive short leftNamed rightNamed

omit [DecidableEq Thread] in
/-- With no call in progress every link counter is exact. -/
theorem LinksOk.counts {points : Thread → TfsPoint} {roles : Thread → Role Int}
    (ok : LinksOk state points roles) (quiet : ∀ thread, (points thread).Quiet) {inode : Nat}
    (nonzero : inode ≠ 0) (taken : state.InodeTaken inode) :
    (state.inodeTable inode).iHardLinks = state.entryCount inode := by
  have exact_ := ok.links.exact_of_quiet (fun thread => (ok.plays thread).quiet (quiet thread))
    (State.ledger_links_of_taken nonzero taken)
  rw [State.ledger_total] at exact_
  exact exact_

/-- For any number of threads and every interleaving of their sections: live entries have
different names and hold TAKEN inodes, link counters are exact when no call is in progress,
and concurrent calls of `tfs_open` with `TFS_O_CREAT` leave one entry and one inode. -/
theorem concurrent_links (params : TfsParams) :
    (∀ shared, (sharedSystem Thread params).Reachable shared →
      (∀ left right name, shared.now.fs.EntryLive left → shared.now.fs.EntryLive right →
        shared.now.fs.EntryNamed left name → shared.now.fs.EntryNamed right name →
        left = right) ∧
      (∀ slot, shared.now.fs.EntryLive slot → ∃ inode : Nat,
        shared.now.fs.entryInumber slot = (inode : Int) ∧ shared.now.fs.freeinodeTs inode = .taken) ∧
      ((∀ thread, (shared.points thread).Quiet) → ∀ inode, inode ≠ 0 →
        shared.now.fs.InodeTaken inode →
        (shared.now.fs.inodeTable inode).iHardLinks = shared.now.fs.entryCount inode)) ∧
    ∀ name, validSubName name → ∀ shared, (creatingSystem Thread params name).Reachable shared →
      ∀ thread mode,
        (shared.sessions thread).request = some (.tfsOpen (some (rootPath name)) mode) →
        mode.tfsOCreat = true → (shared.points thread).Quiet → shared.CreatedOnce name := by
  constructor
  · intro shared reachable
    obtain ⟨roles, ok⟩ := sharedSystem_linksOk reachable
    refine ⟨ok.entries.1, ?_, fun quiet _ nonzero taken => ok.counts quiet nonzero taken⟩
    intro slot live
    obtain ⟨inode, holds, _, taken⟩ := ok.entriesHeld slot live
    exact ⟨inode, holds, taken.2⟩
  · intro name short shared reachable thread mode asked creat quiet
    exact (creatingSystem_createOk short reachable).createdOnce asked creat quiet

theorem concurrent_links_bothCreate :
    ∃ shared : SharedFs Bool, (creatingSystem Bool smallParams nameA).Reachable shared ∧
      (∀ thread, (shared.points thread).Quiet) ∧ shared.CreatedOnce nameA := by
  obtain ⟨state, started, computed⟩ := afterCalls_any smallParams [] (fun state =>
    decide (state.freeinodeTs 1 = .free ∧ 1 < state.inodeTableSize ∧ 0 < state.maxDirEntries ∧
      ∀ slot, slot < state.maxDirEntries → ¬ state.EntryLive slot) &&
    (ThreadSystem.run (creatingTurn nameA) bothCreate (SharedFs.idleAt state)).any (fun shared : SharedFs Bool =>
      decide (∀ thread : Bool, (shared.points thread).Quiet) &&
        (shared.sessions true).request.any (Call.creates (rootPath nameA))))
    (by decide +kernel)
  rw [Bool.and_eq_true, decide_eq_true_eq] at computed
  obtain ⟨roomy, ran⟩ := computed
  obtain ⟨shared, ran, computed⟩ := (Option.any_eq_true _ _).mp ran
  rw [Bool.and_eq_true, decide_eq_true_eq] at computed
  obtain ⟨quiet, asked⟩ := computed
  obtain ⟨request, asked, creates⟩ := (Option.any_eq_true _ _).mp asked
  obtain ⟨mode, rfl, creat⟩ := Call.of_creates creates
  have reached : Reachable smallParams (fun _ _ => True) state :=
    .afterCalls (fun _ member => by cases member) started
  have reachable : (creatingSystem Bool smallParams nameA).Reachable shared :=
    ThreadSystem.Reachable.run (fun _ _ _ _ => creatingSystem_of_creatingTurn)
      (.initial (.of_idleAt reached roomy)) ran
  exact ⟨shared, reachable, quiet,
    (concurrent_links smallParams).2 nameA (by decide) shared reachable true mode asked creat
      (quiet true)⟩

end TecnicoFS.FileSystem
