/-
`tfs_open` while other threads delete files.

Between its lookup and its entry in the open file table a `tfs_open` holds no lock.  Handles
refer to the files that were looked up as long as nobody gives back an inode that a `tfs_open`
has rechecked, or a link it is about to follow, and nobody allocates an inode that a
`tfs_open` has resolved and not rechecked.
-/

import TecnicoFS.FileSystem.OpenWindows

set_option autoImplicit false

namespace TecnicoFS.FileSystem

variable {Thread : Type} {params : TfsParams} {state : State}

/-! ### Files and paths -/

/-- At this moment the path is bound to the inode. -/
def Moment.Finds (moment : Moment) (path : CString) (inode : Nat) : Prop :=
  ValidPathname path ∧ moment.fs.Binds path.tail inode

/-- Symbolic links lead from the first path to the second.  A link may be found at one moment
and read at another one, as long as it is the same link. -/
inductive LinksLead (moments : Set Moment) (start : CString) : CString → Prop where
  | refl : LinksLead moments start start
  | link {path target : CString} {inode : Nat} {found read : Moment} :
      LinksLead moments start path → found ∈ moments → read ∈ moments → found.Finds path inode →
      found.generation inode = read.generation inode → read.fs.InodeTaken inode →
      (read.fs.inodeTable inode).iNodeType = .tSymLink → read.fs.targetOf inode = some target →
      LinksLead moments start target

/-- At one of the moments the path, after following links, was bound to the file; a file is
an inode with its generation. -/
def Resolves (moments : Set Moment) (start : CString) (inode generation : Nat) : Prop :=
  ∃ path moment, LinksLead moments start path ∧ moment ∈ moments ∧ moment.Finds path inode ∧
    moment.generation inode = generation

theorem LinksLead.mono {moments moments' : Set Moment} {start path : CString}
    (follows : LinksLead moments start path) (later : moments ⊆ moments') :
    LinksLead moments' start path := by
  induction follows with
  | refl => exact .refl
  | link _ found read finds same taken isLink stored inductionHypothesis =>
      exact .link inductionHypothesis (later found) (later read) finds same taken isLink stored

theorem Resolves.mono {moments moments' : Set Moment} {start : CString} {inode generation : Nat}
    (resolves : Resolves moments start inode generation) (later : moments ⊆ moments') :
    Resolves moments' start inode generation := by
  obtain ⟨path, moment, follows, member, finds⟩ := resolves
  exact ⟨path, moment, follows.mono later, later member, finds⟩

/-! ### The threads -/

/-- What holds of the open file table and of every `tfs_open` -/
structure SharedFs.OpensSafely [DecidableEq Thread] (shared : SharedFs Thread) : Prop where
  /-- Every TAKEN entry refers to a TAKEN inode. -/
  entries : ∀ handle, shared.now.fs.HandleTaken handle → ∃ inode : Nat,
    (shared.now.fs.openFileTable handle).ofInumber = (inode : Int) ∧
      shared.now.fs.InodeTaken inode
  /-- A returned handle refers to a TAKEN inode that the path led to during the call. -/
  returns : ∀ thread after name mode, ∀ handle : Nat, SharedStep thread shared after →
    ¬ (shared.points thread).Quiet →
    (shared.sessions thread).request = some (.tfsOpen name mode) →
    after.points thread = .returned (handle : Int) → ∃ path, ∃ inode : Nat,
      name = some path ∧ after.now.fs.HandleTaken handle ∧
      (after.now.fs.openFileTable handle).ofInumber = (inode : Int) ∧
      after.now.fs.InodeTaken inode ∧
      Resolves (after.sessions thread).moments path inode (after.now.generation inode)
  /-- Only a file that the path led to during the call is truncated. -/
  truncates : ∀ thread after name mode inode, SharedStep thread shared after →
    ¬ (shared.points thread).Quiet →
    (shared.sessions thread).request = some (.tfsOpen name mode) →
    shared.now.fs.InodeTaken inode → after.now.fs.InodeTaken inode →
    (after.now.fs.inodeTable inode).iSize ≠ (shared.now.fs.inodeTable inode).iSize →
    ∃ path, name = some path ∧
      Resolves (shared.sessions thread).moments path inode (shared.now.generation inode)
  /-- No assertion fails. -/
  asserts : ∀ thread body message, (shared.points thread).nextSection = some body →
    LockFree shared.points (shared.points thread) →
    body shared.now.fs ≠ .error (.panic message)

/-- A handle is closed by the thread that obtained it, once. -/
def ClosesOwn (thread : Thread) (before after : SharedFs Thread) : Prop :=
  ∀ fhandle, after.points thread = .closeEnter fhandle →
    ∃ handle : Nat, fhandle = (handle : Int) ∧ before.owners handle = some thread

def closingSystem (Thread : Type) [DecidableEq Thread] (params : TfsParams) :
    ThreadSystem Thread (SharedFs Thread) :=
  (sharedSystem Thread params).restrict ClosesOwn

/-- The inode that `tfs_open` resolved and has not rechecked -/
def TfsPoint.unchecked : TfsPoint → Option Int
  | .openFound _ _ inum | .openReady inum _ => some inum
  | _ => none

/-- The step gives back no inode that a `tfs_open` has rechecked and no link that one has
looked up, and it allocates no inode that one has resolved and not rechecked. -/
structure Undisturbed (before after : SharedFs Thread) : Prop where
  checked : ∀ other, ∀ inode offset : Nat, before.points other = .openChecked inode offset →
    before.now.fs.InodeTaken inode → after.now.fs.InodeTaken inode
  followed : ∀ other path mode, ∀ inode : Nat, before.points other = .openFound path mode inode →
    (before.now.fs.inodeTable inode).iNodeType = .tSymLink →
    before.now.fs.InodeTaken inode → after.now.fs.InodeTaken inode
  resolved : ∀ other, ∀ inode : Nat, (before.points other).unchecked = some (inode : Int) →
    ¬ before.now.fs.InodeTaken inode → ¬ after.now.fs.InodeTaken inode

/-- The threads as long as no step disturbs a `tfs_open` -/
def undisturbedSystem (Thread : Type) [DecidableEq Thread] (params : TfsParams) :
    ThreadSystem Thread (SharedFs Thread) :=
  (closingSystem Thread params).restrict (fun _ => Undisturbed)

/-! ### Sessions -/

/-- The thread is in a `tfs_open` that followed links up to the path. -/
def Session.Reaches (session : Session) (path : CString) : Prop :=
  ∃ start mode, session.request = some (.tfsOpen (some start) mode) ∧
    LinksLead session.moments start path

/-- The thread is in a `tfs_open` whose path led to the file. -/
def Session.Resolves (session : Session) (inode generation : Nat) : Prop :=
  ∃ start mode, session.request = some (.tfsOpen (some start) mode) ∧
    FileSystem.Resolves session.moments start inode generation

/-- What the moments since the call tell a thread at the point -/
def Session.Knows (session : Session) (now : Moment) : TfsPoint → Prop
  | .idle | .returned _ | .openFailed _ => True
  | .openEnter path _ | .openAbsent path | .openCreated path _ => session.Reaches path
  | .openFound path _ inum => session.Reaches path ∧ ∃ inode : Nat, inum = (inode : Int) ∧
      (∃ moment, moment ∈ session.moments ∧ moment.Finds path inode ∧
        moment.generation inode = now.generation inode) ∧
      ((now.fs.inodeTable inode).iNodeType = .tSymLink → now.fs.InodeTaken inode)
  | .openReady inum _ => ∃ inode : Nat, inum = (inode : Int) ∧
      session.Resolves inode (now.generation inode)
  | .openChecked inum _ => ∃ inode : Nat, inum = (inode : Int) ∧
      session.Resolves inode (now.generation inode) ∧ now.fs.InodeTaken inode
  | .closeEnter _ | .closeFound _ | .symEnter _ _ | .symCreated _ _ _ | .symStored _ _
  | .symFailed _ | .linkEnter _ _ | .linkFound _ _ | .linkWithdraw _ _ | .linkCount _ _
  | .unlinkEnter _ | .unlinkFound _ _ | .unlinkCleared _ =>
      ∀ name mode, session.request ≠ some (.tfsOpen name mode)

theorem Session.Reaches.mono {session later : Session} {path : CString}
    (reaches : session.Reaches path) (same : later.request = session.request)
    (more : session.moments ⊆ later.moments) : later.Reaches path := by
  obtain ⟨start, mode, asked, follows⟩ := reaches
  exact ⟨start, mode, same.trans asked, follows.mono more⟩

theorem Session.Resolves.mono {session later : Session} {inode generation : Nat}
    (resolves : session.Resolves inode generation) (same : later.request = session.request)
    (more : session.moments ⊆ later.moments) : later.Resolves inode generation := by
  obtain ⟨start, mode, asked, found⟩ := resolves
  exact ⟨start, mode, same.trans asked, found.mono more⟩

/-- The path leads to the file it is bound to at one of the moments. -/
theorem Session.Reaches.resolves {session : Session} {path : CString} {inode : Nat}
    {moment : Moment} (reaches : session.Reaches path) (member : moment ∈ session.moments)
    (finds : moment.Finds path inode) : session.Resolves inode (moment.generation inode) := by
  obtain ⟨start, mode, asked, follows⟩ := reaches
  exact ⟨start, mode, asked, path, moment, follows, member, finds, rfl⟩

/-- No thread is about to enter the inode. -/
def Unmade (points : Thread → TfsPoint) (inode : Nat) : Prop :=
  ∀ thread, (points thread).made ≠ some (inode : Int)

/-- What keeps every `tfs_open` safe -/
structure OpenOk (shared : SharedFs Thread) : Prop where
  knows : ∀ thread, (shared.sessions thread).Knows shared.now (shared.points thread)
  resolved : ∀ thread, ∀ inode : Nat, (shared.points thread).resolved = some (inode : Int) →
    Unmade shared.points inode
  handles : ∀ handle, shared.now.fs.HandleTaken handle → ∃ inode : Nat,
    (shared.now.fs.openFileTable handle).ofInumber = (inode : Int) ∧
      shared.now.fs.InodeTaken inode ∧ Unmade shared.points inode
  backed : ∀ inode, shared.now.fs.InodeTaken inode →
    (shared.now.fs.inodeTable inode).iNodeType = .tSymLink →
    shared.now.fs.LinkBacked inode ∨ ∃ thread, (shared.points thread).unstored = some (inode : Int)
  owned : ∀ handle thread, shared.owners handle = some thread → shared.now.fs.HandleTaken handle
  closing : ∀ thread fhandle, (shared.points thread).closing = some fhandle →
    ∃ handle : Nat, fhandle = (handle : Int) ∧ shared.now.fs.HandleTaken handle ∧
      shared.owners handle = none ∧
      ∀ other, (shared.points other).closing = some fhandle → other = thread

/-! ### Made inodes -/

section

variable {points : Thread → TfsPoint} {roles : Thread → LinkLedger.Role Int}

theorem LinksOk.made_role (ok : LinksOk state points roles) {thread : Thread} {inum : Int}
    (made : (points thread).made = some inum) : roles thread = .made inum := by
  have plays := ok.plays thread
  cases at_ : points thread with
  | openCreated | openFailed | symCreated | symStored | symFailed =>
      rw [at_] at plays made
      cases made
      exact plays
  | _ =>
      rw [at_] at made
      cases made

/-- An inode that a name is bound to is past being made. -/
theorem LinksOk.unmade_of_binds (ok : LinksOk state points roles) {name : CString} {inode : Nat}
    (binds : state.Binds name inode) : Unmade points inode := by
  intro thread made
  obtain ⟨_, slot, live, _, holds⟩ := binds
  have admitted := ok.links.admits thread
  rw [ok.made_role made] at admitted
  exact admitted.2 slot (State.ledger_holder.mpr ⟨live, holds⟩)

theorem LinksOk.made_unique (ok : LinksOk state points roles) {left right : Thread} {inum : Int}
    (leftMade : (points left).made = some inum) (rightMade : (points right).made = some inum) :
    left = right := by
  by_contra different
  exact ((ok.links.apart left right different).owes inum (Or.inl (ok.made_role leftMade))).1
    (Or.inl (ok.made_role rightMade))

end

/-! ### Generations -/

/-- Only the allocation of an inode starts a new generation. -/
theorem nextMoment_generation {moment : Moment} {fs : State} {inode : Nat}
    (inside : inode < fs.inodeTableSize)
    (old : moment.fs.InodeTaken inode ∨ ¬ fs.InodeTaken inode) :
    (SharedFs.nextMoment moment fs).generation inode = moment.generation inode := by
  unfold SharedFs.nextMoment
  dsimp only
  rw [if_neg]
  rintro ⟨free, taken⟩
  rcases old with was | isnt
  · rw [was.2] at free
    cases free
  · exact isnt ⟨inside, taken⟩

/-- A session goes on knowing what it knows while the inode of its thread stays what it is. -/
theorem Session.Knows.later {session later : Session} {now next : Moment} {point : TfsPoint}
    (knows : session.Knows now point) (same : later.request = session.request)
    (more : session.moments ⊆ later.moments)
    (generation : ∀ inode : Nat, point.resolved = some (inode : Int) →
      next.generation inode = now.generation inode)
    (link : ∀ path mode, ∀ inode : Nat, point = .openFound path mode inode →
      (next.fs.inodeTable inode).iNodeType = .tSymLink →
      (now.fs.inodeTable inode).iNodeType = .tSymLink ∧
        (now.fs.InodeTaken inode → next.fs.InodeTaken inode))
    (checked : ∀ inode offset : Nat, point = .openChecked inode offset →
      now.fs.InodeTaken inode → next.fs.InodeTaken inode) : later.Knows next point := by
  cases point with
  | idle | returned | openFailed => trivial
  | openEnter | openAbsent | openCreated => exact Session.Reaches.mono knows same more
  | openFound path mode inum =>
      obtain ⟨reaches, inode, rfl, ⟨moment, member, finds, equal⟩, taken⟩ := knows
      refine ⟨reaches.mono same more, inode, rfl, ⟨moment, more member, finds, ?_⟩, ?_⟩
      · rw [generation inode rfl, equal]
      · intro isLink
        obtain ⟨wasLink, stays⟩ := link path mode inode rfl isLink
        exact stays (taken wasLink)
  | openReady inum offset =>
      obtain ⟨inode, rfl, resolves⟩ := knows
      refine ⟨inode, rfl, ?_⟩
      rw [generation inode rfl]
      exact resolves.mono same more
  | openChecked inum offset =>
      obtain ⟨inode, rfl, resolves, taken⟩ := knows
      refine ⟨inode, rfl, ?_, checked inode offset rfl taken⟩
      rw [generation inode rfl]
      exact resolves.mono same more
  | closeEnter | closeFound | symEnter | symCreated | symStored | symFailed | linkEnter
  | linkFound | linkWithdraw | linkCount | unlinkEnter | unlinkFound | unlinkCleared =>
      intro name mode
      rw [same]
      exact knows name mode

/-! ### Sections -/

/-- What the steps rely on -/
structure OpenStep (shared : SharedFs Thread) (roles : Thread → LinkLedger.Role Int)
    (thread : Thread) (next : TfsPoint) (fs : State) : Prop where
  links : LinksOk shared.now.fs shared.points roles
  valid : (shared.points thread).PathValid
  effect : SectionEffect shared.now.fs (shared.points thread) next fs

variable [DecidableEq Thread] {shared : SharedFs Thread} {roles : Thread → LinkLedger.Role Int}
  {thread : Thread} {next : TfsPoint} {fs : State}

omit [DecidableEq Thread] in
/-- An inode that a `tfs_open` resolved is not allocated anew. -/
theorem OpenOk.old (ok : OpenOk shared) {after : SharedFs Thread}
    (undisturbed : Undisturbed shared after) {other : Thread} {inode : Nat}
    (resolved : (shared.points other).resolved = some (inode : Int)) :
    shared.now.fs.InodeTaken inode ∨ ¬ after.now.fs.InodeTaken inode := by
  cases at_ : shared.points other with
  | openFound | openReady =>
      rw [at_] at resolved
      by_cases taken : shared.now.fs.InodeTaken inode
      · exact Or.inl taken
      · exact Or.inr (undisturbed.resolved other inode (by rw [at_]; exact resolved) taken)
  | openChecked =>
      rw [at_] at resolved
      cases resolved
      have knows := ok.knows other
      rw [at_] at knows
      obtain ⟨held, same, _, taken⟩ := knows
      rw [Int.ofNat_inj.mp same]
      exact Or.inl taken
  | _ =>
      rw [at_] at resolved
      cases resolved

/-- Only the thread that allocates an inode makes it. -/
theorem OpenStep.unmade (step : OpenStep shared roles thread next fs) {inode : Nat}
    (unmade : Unmade shared.points inode)
    (old : shared.now.fs.InodeTaken inode ∨ ¬ fs.InodeTaken inode) :
    Unmade (Function.update shared.points thread next) inode := by
  intro other made
  by_cases same : other = thread
  · rw [same, Function.update_self] at made
    rcases step.effect.inodes.made made with before | ⟨fresh, equal, free, taken⟩
    · exact unmade thread before
    · rw [← Int.ofNat_inj.mp equal] at free taken
      rcases old with was | isnt
      · exact free was
      · exact isnt taken
  · rw [Function.update_of_ne same] at made
    exact unmade other made

omit [DecidableEq Thread] in
/-- A call gives no handle to a thread. -/
theorem ownersAfterCall_some {owners : Nat → Option Thread} {request : Call} {handle : Nat}
    {owner : Thread} (owned : SharedFs.ownersAfterCall owners request handle = some owner) :
    owners handle = some owner := by
  unfold SharedFs.ownersAfterCall at owned
  split at owned
  · split at owned
    · cases owned
    · exact owned
  · exact owned

/-- A new call knows where it starts. -/
theorem CallStart.knows {request : Call} {point : TfsPoint} (start : CallStart request point)
    (moments : Set Moment) (now : Moment) : Session.Knows ⟨some request, moments⟩ now point := by
  cases start with
  | refused => trivial
  | @opens path mode _ => exact ⟨path, mode, rfl, .refl⟩
  | _ =>
      intro _ _ impossible
      cases impossible

namespace OpenOk

/-- Every TAKEN entry goes on referring to a TAKEN inode. -/
theorem handles_advance (ok : OpenOk shared) (step : OpenStep shared roles thread next fs)
    {handle : Nat} (taken : fs.HandleTaken handle) :
    ∃ inode : Nat, (fs.openFileTable handle).ofInumber = (inode : Int) ∧ fs.InodeTaken inode ∧
      Unmade (Function.update shared.points thread next) inode := by
  have before : ∃ inode : Nat, (fs.openFileTable handle).ofInumber = (inode : Int) ∧
      shared.now.fs.InodeTaken inode ∧ Unmade shared.points inode := by
    rcases step.effect.handles.old_or_new step.effect.inodes.params taken with
      ⟨was, kept⟩ | ⟨inode, offset, at_, refers⟩
    · obtain ⟨inode, refers, held⟩ := ok.handles handle was
      exact ⟨inode, by rw [kept, refers], held⟩
    · have knows := ok.knows thread
      rw [at_] at knows
      obtain ⟨held, same, _, heldTaken⟩ := knows
      rw [← Int.ofNat_inj.mp same] at heldTaken
      exact ⟨inode, refers, heldTaken, ok.resolved thread inode (by rw [at_]; rfl)⟩
  obtain ⟨inode, refers, was, unmade⟩ := before
  refine ⟨inode, refers, ?_, step.unmade unmade (Or.inl was)⟩
  by_contra gone
  rcases step.effect.inodes.freed was gone with made | closed
  · exact unmade thread made
  · exact closed ⟨handle, taken, refers⟩

theorem backed_advance (ok : OpenOk shared) (step : OpenStep shared roles thread next fs)
    {inode : Nat} (taken : fs.InodeTaken inode)
    (isLink : (fs.inodeTable inode).iNodeType = .tSymLink) :
    fs.LinkBacked inode ∨
      ∃ other, (Function.update shared.points thread next other).unstored = some (inode : Int) := by
  by_cases elsewhere : ∃ other, other ≠ thread ∧ (shared.points other).unstored = some (inode : Int)
  · obtain ⟨other, different, unstored⟩ := elsewhere
    exact Or.inr ⟨other, by rw [Function.update_of_ne different]; exact unstored⟩
  · have backed := step.effect.inodes.backed taken isLink (by
      rintro ⟨was, wasLink⟩
      rcases ok.backed inode was wasLink with backed | ⟨other, unstored⟩
      · exact Or.inl backed
      · by_cases same : other = thread
        · rw [same] at unstored
          exact Or.inr unstored
        · exact (elsewhere ⟨other, same, unstored⟩).elim)
    rcases backed with backed | unstored
    · exact Or.inl backed
    · exact Or.inr ⟨thread, by rw [Function.update_self]; exact unstored⟩

theorem owned_advance (ok : OpenOk shared) (step : OpenStep shared roles thread next fs)
    {handle : Nat} {owner : Thread}
    (owned : (shared.advance thread next fs).owners handle = some owner) : fs.HandleTaken handle := by
  rcases step.effect.owners shared.owners thread owned with before | ⟨_, taken⟩
  · have taken := ok.owned handle owner before
    refine step.effect.handles.stays step.effect.inodes.params taken ?_
    intro closes
    obtain ⟨closed, same, _, unowned, _⟩ := ok.closing thread handle (by rw [closes]; rfl)
    rw [← Int.ofNat_inj.mp same, before] at unowned
    cases unowned
  · exact taken

theorem closing_advance (ok : OpenOk shared) (step : OpenStep shared roles thread next fs)
    {closer : Thread} {fhandle : Int}
    (closing : (Function.update shared.points thread next closer).closing = some fhandle) :
    ∃ handle : Nat, fhandle = (handle : Int) ∧ fs.HandleTaken handle ∧
      (shared.advance thread next fs).owners handle = none ∧
      ∀ other, (Function.update shared.points thread next other).closing = some fhandle →
        other = closer := by
  have before (other : Thread)
      (closing : (Function.update shared.points thread next other).closing = some fhandle) :
      (shared.points other).closing = some fhandle ∧
        (other = thread → ∀ fhandle, shared.points thread ≠ .closeFound fhandle) := by
    by_cases same : other = thread
    · rw [same, Function.update_self] at closing
      rw [same]
      cases step.effect.handles with
      | keeps _ _ kept elsewhere => exact ⟨kept fhandle closing, fun _ => elsewhere⟩
      | opens _ ends _ _ =>
          rw [ends] at closing
          cases closing
      | closes _ ends _ _ _ =>
          rw [ends] at closing
          cases closing
    · rw [Function.update_of_ne same] at closing
      exact ⟨closing, fun impossible => (same impossible).elim⟩
  obtain ⟨was, elsewhere⟩ := before closer closing
  obtain ⟨handle, rfl, taken, unowned, alone⟩ := ok.closing closer fhandle was
  refine ⟨handle, rfl, ?_, ?_, fun other closes => alone other (before other closes).1⟩
  · refine step.effect.handles.stays step.effect.inodes.params taken ?_
    intro closes
    have same := alone thread (by rw [closes]; rfl)
    exact elsewhere same.symm handle closes
  · rcases step.effect.owners shared.owners thread rfl with kept | ⟨free, _⟩
    · exact kept.symm.trans unowned
    · exact (free taken).elim

/-- A section that disturbs no `tfs_open` leaves every session what it knows. -/
theorem knows_kept (ok : OpenOk shared) (step : OpenStep shared roles thread next fs)
    (undisturbed : Undisturbed shared (shared.advance thread next fs)) (other : Thread) :
    ((shared.advance thread next fs).sessions other).Knows (SharedFs.nextMoment shared.now fs)
      (shared.points other) := by
  have inside {inode : Nat} (resolved : (shared.points other).resolved = some (inode : Int)) :
      inode < fs.inodeTableSize := by
    obtain ⟨held, same, node⟩ := step.links.resolved other inode resolved
    rw [Int.ofNat_inj.mp same]
    unfold State.inodeTableSize
    rw [step.effect.inodes.params]
    exact node.inside
  refine (ok.knows other).later rfl (Set.subset_insert _ _) ?_ ?_ ?_
  · intro inode resolved
    exact nextMoment_generation (inside resolved) (ok.old undisturbed resolved)
  · intro path mode inode at_ isLink
    have old := @OpenOk.old _ _ ok _ undisturbed other inode (by rw [at_]; rfl)
    have wasLink := (step.effect.inodes.types old).symm.trans isLink
    exact ⟨wasLink, undisturbed.followed other path mode inode at_ wasLink⟩
  · intro inode offset at_
    exact undisturbed.checked other inode offset at_

/-- What the thread of the section knows afterwards -/
theorem knows_next (ok : OpenOk shared) (step : OpenStep shared roles thread next fs)
    (undisturbed : Undisturbed shared (shared.advance thread next fs)) :
    ((shared.advance thread next fs).sessions thread).Knows (SharedFs.nextMoment shared.now fs)
      next := by
  have knows := ok.knows_kept step undisturbed thread
  have present : SharedFs.nextMoment shared.now fs ∈
      ((shared.advance thread next fs).sessions thread).moments := Set.mem_insert _ _
  have effect := step.effect
  have valid := step.valid
  have sound := step.links.sound thread
  generalize (shared.advance thread next fs).sessions thread = session at knows present ⊢
  generalize shared.points thread = point at effect valid sound knows
  cases effect with
  | openFinds binds =>
      exact ⟨knows, _, rfl, ⟨_, present, ⟨valid, binds⟩, rfl⟩,
        fun _ => (step.links.binds_node binds).2⟩
  | @openFollows path target mode inode isLink stored =>
      obtain ⟨⟨start, startMode, asked, leads⟩, held, same, ⟨moment, member, finds, equal⟩, taken⟩ :=
        knows
      rw [← Int.ofNat_inj.mp same] at finds equal taken
      rcases enterOpen_cases (some target) mode with failed | ⟨_, ⟨⟩, _, entered⟩
      · rw [failed]
        trivial
      · rw [entered]
        exact ⟨start, startMode, asked,
          .link leads member present finds equal (taken isLink) isLink stored⟩
  | openTruncates _ =>
      obtain ⟨reaches, held, same, ⟨moment, member, finds, equal⟩, _⟩ := knows
      refine ⟨held, same, ?_⟩
      rw [← equal]
      exact reaches.resolves member finds
  | @openEnters path inode slot accepts =>
      obtain ⟨held, same, _, taken⟩ := sound
      rw [← Int.ofNat_inj.mp same] at taken
      refine ⟨inode, rfl, knows.resolves present ⟨valid, ?_⟩⟩
      exact (State.bindEntry_binds accepts.1 (step.links.store.fits _ taken) accepts.2.2
        accepts.2.1 _ _).mpr (by rw [if_pos rfl])
  | openChecks taken =>
      obtain ⟨held, same, resolves⟩ := knows
      rw [← Int.ofNat_inj.mp same] at resolves
      exact ⟨_, rfl, resolves, taken⟩
  | openAbsent | openCreates | closeFinds | symCreates | symNoBlock | symStores | symDeclined
  | linkFinds | linkPublishes | linkRetracts | unlinkFinds | unlinkClears => exact knows
  | _ => trivial

/-- Nobody makes an inode that a `tfs_open` has resolved. -/
theorem resolved_advance (ok : OpenOk shared) (step : OpenStep shared roles thread next fs)
    (undisturbed : Undisturbed shared (shared.advance thread next fs)) {other : Thread} {inode : Nat}
    (resolved : (Function.update shared.points thread next other).resolved = some (inode : Int)) :
    Unmade (Function.update shared.points thread next) inode := by
  have kept (other : Thread) (resolved : (shared.points other).resolved = some (inode : Int)) :
      Unmade (Function.update shared.points thread next) inode :=
    step.unmade (ok.resolved other inode resolved) (ok.old undisturbed resolved)
  by_cases same : other = thread
  · rw [same, Function.update_self] at resolved
    have effect := step.effect
    generalize at_ : shared.points thread = point at effect
    cases effect with
    | openFinds binds =>
        cases resolved
        exact step.unmade (step.links.unmade_of_binds binds)
          (Or.inl (step.links.binds_node binds).2)
    | openFollows _ _ =>
        rw [enterOpen_resolved] at resolved
        cases resolved
    | openTruncates _ | openChecks _ =>
        cases resolved
        exact kept thread (by rw [at_]; rfl)
    | openEnters _ =>
        cases resolved
        intro maker made
        by_cases self : maker = thread
        · rw [self, Function.update_self] at made
          cases made
        · rw [Function.update_of_ne self] at made
          exact self (step.links.made_unique made (by rw [at_]; rfl))
    | _ => cases resolved
  · rw [Function.update_of_ne same] at resolved
    exact kept other resolved

theorem advance (ok : OpenOk shared) (step : OpenStep shared roles thread next fs)
    (undisturbed : Undisturbed shared (shared.advance thread next fs)) :
    OpenOk (shared.advance thread next fs) where
  knows := by
    intro other
    change Session.Knows _ _ (Function.update shared.points thread next other)
    by_cases same : other = thread
    · rw [same, Function.update_self]
      exact ok.knows_next step undisturbed
    · rw [Function.update_of_ne same]
      exact ok.knows_kept step undisturbed other
  resolved _ _ resolved := ok.resolved_advance step undisturbed resolved
  handles _ taken := ok.handles_advance step taken
  backed _ taken isLink := ok.backed_advance step taken isLink
  owned _ _ owned := ok.owned_advance step owned
  closing _ _ closing := ok.closing_advance step closing

/-- A new call knows its path and disturbs nobody. -/
theorem call {request : Call} {point : TfsPoint} (ok : OpenOk shared)
    (quiet : (shared.points thread).Quiet) (enters : request.enter = some point)
    (own : ClosesOwn thread shared (shared.call thread request point)) :
    OpenOk (shared.call thread request point) := by
  have start := Call.enter_start enters
  have nothing : point.made = none := by cases start <;> rfl
  have unmade {inode : Nat} (unmade : Unmade shared.points inode) :
      Unmade (Function.update shared.points thread point) inode := by
    intro maker made
    by_cases same : maker = thread
    · rw [same, Function.update_self, nothing] at made
      cases made
    · rw [Function.update_of_ne same] at made
      exact unmade maker made
  constructor
  · intro other
    change Session.Knows (Function.update shared.sessions thread _ other) _
      (Function.update shared.points thread point other)
    by_cases same : other = thread
    · rw [same, Function.update_self, Function.update_self]
      exact start.knows _ _
    · rw [Function.update_of_ne same, Function.update_of_ne same]
      exact ok.knows other
  · intro other inode resolved
    change (Function.update shared.points thread point other).resolved = _ at resolved
    by_cases same : other = thread
    · rw [same, Function.update_self, (@Call.enter_plays shared.now.fs _ _ enters).2] at resolved
      cases resolved
    · rw [Function.update_of_ne same] at resolved
      exact unmade (ok.resolved other inode resolved)
  · intro handle taken
    obtain ⟨inode, refers, held, free⟩ := ok.handles handle taken
    exact ⟨inode, refers, held, unmade free⟩
  · intro inode taken isLink
    rcases ok.backed inode taken isLink with backed | ⟨other, unstored⟩
    · exact Or.inl backed
    · refine Or.inr ⟨other, ?_⟩
      change (Function.update shared.points thread point other).unstored = _
      rw [Function.update_of_ne]
      · exact unstored
      · intro same
        rw [same] at unstored
        cases at_ : shared.points thread with
        | idle | returned =>
            rw [at_] at unstored
            cases unstored
        | _ =>
            rw [at_] at quiet
            exact quiet.elim
  · intro handle owner owned
    exact ok.owned handle owner (ownersAfterCall_some owned)
  · intro closer fhandle closing
    have unowned {handle : Nat} (free : shared.owners handle = none) :
        SharedFs.ownersAfterCall shared.owners request handle = none := by
      rw [Option.eq_none_iff_forall_ne_some]
      intro owner owned
      rw [ownersAfterCall_some owned] at free
      cases free
    change (Function.update shared.points thread point closer).closing = some fhandle at closing
    by_cases same : closer = thread
    · rw [same, Function.update_self] at closing
      cases start with
      | closes =>
          cases closing
          obtain ⟨handle, rfl, owned⟩ := own fhandle (Function.update_self ..)
          refine ⟨handle, rfl, ok.owned handle thread owned, if_pos rfl, ?_⟩
          intro other closes
          change (Function.update shared.points thread _ other).closing = _ at closes
          by_contra different
          rw [same] at different
          rw [Function.update_of_ne different] at closes
          obtain ⟨held, equal, _, free, _⟩ := ok.closing other handle closes
          rw [← Int.ofNat_inj.mp equal, owned] at free
          cases free
      | _ => cases closing
    · rw [Function.update_of_ne same] at closing
      obtain ⟨handle, rfl, taken, free, alone⟩ := ok.closing closer fhandle closing
      refine ⟨handle, rfl, taken, unowned free, ?_⟩
      intro other closes
      change (Function.update shared.points thread _ other).closing = _ at closes
      by_cases moved : other = thread
      · rw [moved, Function.update_self] at closes
        cases start with
        | closes =>
            cases closes
            obtain ⟨held, equal, owned⟩ := own handle (Function.update_self ..)
            rw [← Int.ofNat_inj.mp equal, free] at owned
            cases owned
        | _ => cases closes
      · rw [Function.update_of_ne moved] at closes
        exact alone other closes

end OpenOk

/-! ### Reachable states -/

omit [DecidableEq Thread] in
theorem SharedFs.Initial.openOk (initial : SharedFs.Initial params shared) : OpenOk shared := by
  obtain ⟨inv, _⟩ := initial.reached.invariant
  have unmade (inode : Nat) : Unmade shared.points inode := by
    intro thread made
    rw [initial.idle thread] at made
    cases made
  constructor
  · intro thread
    rw [initial.idle thread]
    trivial
  · intro _ inode _
    exact unmade inode
  · intro handle taken
    obtain ⟨inode, refers, _, held, _⟩ := inv.holders.handleHolds handle taken
    exact ⟨inode, refers, held, unmade inode⟩
  · intro inode taken isLink
    left
    have nonzero : inode ≠ 0 := by
      rintro rfl
      rw [inv.root.isDirectory] at isLink
      cases isLink
    have owns : shared.now.fs.OwnsBlock inode (shared.now.fs.inodeTable inode).iDataBlock := by
      refine ⟨taken, rfl, ?_⟩
      intro isFile
      rw [isLink] at isFile
      cases isFile
    obtain ⟨block, holds, _, blockTaken⟩ := inv.blocks.owned inode _ owns nonzero
    exact ⟨block, holds, blockTaken.1⟩
  · exact initial.owned
  · intro thread fhandle closing
    rw [initial.idle thread] at closing
    cases closing

theorem OpenOk.step {before after : SharedFs Thread} (ok : OpenOk before)
    (links : LinksOk before.now.fs before.points roles) (opens : OpensOk before.points)
    (step : (undisturbedSystem Thread params).step thread before after) : OpenOk after := by
  obtain ⟨⟨shared, own⟩, undisturbed⟩ := step
  cases shared with
  | calls quiet enters => exact ok.call quiet enters own
  | runs section_ free returned =>
      exact ok.advance ⟨links, opens.valid thread, links.effect section_ returned⟩ undisturbed

theorem undisturbedSystem_shared (reachable : (undisturbedSystem Thread params).Reachable shared) :
    (sharedSystem Thread params).Reachable shared := reachable.of_restrict.of_restrict

theorem undisturbedSystem_openOk (reachable : (undisturbedSystem Thread params).Reachable shared) :
    OpenOk shared := by
  refine @ThreadSystem.Reachable.preserves_with _ _ _
    (fun shared : SharedFs Thread => (∃ roles, LinksOk shared.now.fs shared.points roles) ∧
      OpensOk shared.points) OpenOk _ reachable ?_ ?_ ?_
  · intro _ reachable
    have shared := undisturbedSystem_shared reachable
    exact ⟨sharedSystem_linksOk shared, sharedSystem_opensOk shared⟩
  · intro _ initial
    exact initial.openOk
  · rintro _ _ _ ⟨⟨_, links⟩, opens⟩ ok step
    exact ok.step links opens step

/-! ### Safety of `tfs_open` -/

omit [DecidableEq Thread] in
/-- The path that a session resolved is the one of its call. -/
theorem Session.Resolves.asked {session : Session} {inode generation : Nat}
    (resolves : session.Resolves inode generation) {name : Option CString} {mode : TfsFileMode}
    (asked : session.request = some (.tfsOpen name mode)) :
    ∃ path, name = some path ∧ FileSystem.Resolves session.moments path inode generation := by
  obtain ⟨start, _, asked', found⟩ := resolves
  cases asked.symm.trans asked'
  exact ⟨start, rfl, found⟩

namespace OpenOk

/-- The entry that `tfs_open` takes refers to the file that was looked up. -/
theorem returns (ok : OpenOk shared) {name : Option CString} {mode : TfsFileMode}
    {handle : Nat} (effect : SectionEffect shared.now.fs (shared.points thread) next fs)
    (asked : (shared.sessions thread).request = some (.tfsOpen name mode))
    (ended : next = .returned (handle : Int)) : ∃ path, ∃ inode : Nat,
      name = some path ∧ fs.HandleTaken handle ∧
      (fs.openFileTable handle).ofInumber = (inode : Int) ∧ fs.InodeTaken inode ∧
      FileSystem.Resolves ((shared.advance thread next fs).sessions thread).moments path inode
        ((SharedFs.nextMoment shared.now fs).generation inode) := by
  have knows := ok.knows thread
  have failed : TfsPoint.returned (-1) ≠ .returned (handle : Int) := by
    intro same
    have impossible := TfsPoint.returned.inj same
    omega
  have more : (shared.sessions thread).moments ⊆
      ((shared.advance thread next fs).sessions thread).moments := Set.subset_insert _ _
  generalize ((shared.advance thread next fs).sessions thread).moments = moments at more ⊢
  generalize shared.points thread = point at effect knows
  cases effect with
  | @openReturns inode offset opened first =>
      cases Int.ofNat_inj.mp (TfsPoint.returned.inj ended)
      obtain ⟨held, same, resolves, taken⟩ := knows
      cases Int.ofNat_inj.mp same
      obtain ⟨path, named, found⟩ := resolves.asked asked
      refine ⟨path, inode, named, (State.openHandle_taken first.2.1).mpr (Or.inl rfl), ?_, taken, ?_⟩
      · rw [State.openHandle_apply, if_pos rfl]
      · rw [@nextMoment_generation shared.now (shared.now.fs.openHandle handle
          { ofInumber := inode, ofOffset := offset }) inode taken.1 (Or.inl taken)]
        exact found.mono more
  | @openFollows path target followed _ _ _ =>
      rcases enterOpen_cases (some target) followed with refused | ⟨_, _, _, entered⟩
      · exact (failed (refused.symm.trans ended)).elim
      · cases entered.symm.trans ended
  | openMissing | openNoInode | openDeletes | openGone | openNoHandle | closeInvalid | symNoInode
  | symDeletes | linkMissing | linkDeclined | linkClears | unlinkMissing => exact (failed ended).elim
  | closes | closesLast | symEnters | linkCounts | unlinkDrops | unlinkDeletes =>
      exact (knows name mode asked).elim
  | _ => cases ended

omit [DecidableEq Thread] in
/-- The assertions that another thread could break hold. -/
theorem guarded (ok : OpenOk shared) (thread : Thread) :
    (shared.points thread).Guarded shared.now.fs := by
  have knows := ok.knows thread
  cases at_ : shared.points thread with
  | openFound path mode inum =>
      rw [at_] at knows
      obtain ⟨_, inode, rfl, _, taken⟩ := knows
      intro isLink
      rw [Int.toNat_natCast] at isLink ⊢
      have unmade := ok.resolved thread inode (by rw [at_]; rfl)
      rcases ok.backed inode (taken isLink) isLink with backed | ⟨other, unstored⟩
      · exact backed
      · refine (unmade other ?_).elim
        cases made : shared.points other with
        | symCreated | symFailed =>
            rw [made] at unstored
            exact unstored
        | _ =>
            rw [made] at unstored
            cases unstored
  | closeFound fhandle =>
      obtain ⟨handle, rfl, taken, _⟩ := ok.closing thread fhandle (by rw [at_]; rfl)
      obtain ⟨inode, refers, held, _⟩ := ok.handles handle taken
      exact ⟨handle, inode, rfl, taken, refers, held⟩
  | _ => trivial

theorem opensSafely (ok : OpenOk shared) (links : LinksOk shared.now.fs shared.points roles) :
    shared.OpensSafely where
  entries := by
    intro handle taken
    obtain ⟨inode, refers, held, _⟩ := ok.handles handle taken
    exact ⟨inode, refers, held⟩
  returns := by
    intro thread after name mode handle step running asked ended
    cases step with
    | calls quiet _ => exact (running quiet).elim
    | runs section_ _ returned =>
        change Function.update shared.points thread _ thread = _ at ended
        rw [Function.update_self] at ended
        exact ok.returns (links.effect section_ returned) asked ended
  truncates := by
    intro thread after name mode inode step running asked taken stays resized
    cases step with
    | calls quiet _ => exact (running quiet).elim
    | runs section_ _ returned =>
        obtain ⟨path, mode, at_⟩ := (links.effect section_ returned).sizes taken stays resized
        have knows := ok.knows thread
        rw [at_] at knows
        obtain ⟨reaches, held, same, ⟨moment, member, finds, equal⟩, _⟩ := knows
        rw [← Int.ofNat_inj.mp same] at finds equal
        rw [← equal]
        exact (reaches.resolves member finds).asked asked
  asserts := by
    intro thread body message section_ _ stopped
    have outcome := @outcome_section NoPanic _ (Or.inl rfl) links.store links.entriesHeld _
      (links.sound thread) (Or.inr (ok.guarded thread)) _ section_
    rcases outcome.of_error stopped with impossible | impossible <;> cases impossible

end OpenOk

/-! ### Computed runs -/

/-- The thread closes only handles of its own. -/
def closesOwn (thread : Bool) (before after : SharedFs Bool) : Bool :=
  match after.points thread with
  | .closeEnter fhandle => decide (0 ≤ fhandle) && before.owners fhandle.toNat == some thread
  | _ => true

def closingTurn (thread : Bool) (turn : Turn) (shared : SharedFs Bool) : Option (SharedFs Bool) :=
  (takeTurn thread turn shared).filter (closesOwn thread shared)

theorem closingSystem_of_closingTurn {thread : Bool} {turn : Turn} {before after : SharedFs Bool}
    (taken : closingTurn thread turn before = some after) :
    (closingSystem Bool params).step thread before after := by
  obtain ⟨taken, own⟩ := Option.filter_eq_some_iff.mp taken
  refine ⟨.of_takeTurn taken, ?_⟩
  intro fhandle closes
  unfold closesOwn at own
  rw [closes] at own
  obtain ⟨natural, owner⟩ := Bool.and_eq_true_iff.mp own
  exact ⟨fhandle.toNat, (Int.toNat_of_nonneg (of_decide_eq_true natural)).symm, eq_of_beq owner⟩

/-- A turn that neither allocates an inode nor gives one back -/
def settledTurn (thread : Bool) (turn : Turn) (shared : SharedFs Bool) : Option (SharedFs Bool) :=
  (closingTurn thread turn shared).filter (fun after =>
    decide (after.now.fs.inodeTableSize = shared.now.fs.inodeTableSize ∧
      ∀ inode, inode < shared.now.fs.inodeTableSize →
        after.now.fs.freeinodeTs inode = shared.now.fs.freeinodeTs inode))

theorem undisturbedSystem_of_settledTurn {thread : Bool} {turn : Turn}
    {before after : SharedFs Bool} (taken : settledTurn thread turn before = some after) :
    (undisturbedSystem Bool params).step thread before after := by
  obtain ⟨taken, settled⟩ := Option.filter_eq_some_iff.mp taken
  obtain ⟨size, marks⟩ := of_decide_eq_true settled
  have same (inode : Nat) : after.now.fs.InodeTaken inode ↔ before.now.fs.InodeTaken inode := by
    unfold State.InodeTaken
    rw [size]
    exact and_congr_right (fun inside => by rw [marks inode inside])
  refine ⟨closingSystem_of_closingTurn taken, ?_, ?_, ?_⟩
  · intro _ inode _ _
    exact (same inode).mpr
  · intro _ _ _ inode _ _
    exact (same inode).mpr
  · intro _ inode _ free now
    exact free ((same inode).mp now)

/-- The next section of the thread fails an assertion. -/
def SharedFs.panics (shared : SharedFs Bool) (thread : Bool) : Bool :=
  (shared.points thread).nextSection.any (fun body =>
    match body shared.now.fs with
    | .error (.panic _) => true
    | _ => false)

theorem SharedFs.of_panics {shared : SharedFs Bool} {thread : Bool}
    (panics : shared.panics thread = true) : ∃ body message,
      (shared.points thread).nextSection = some body ∧
      body shared.now.fs = .error (.panic message) := by
  obtain ⟨body, section_, panics⟩ := (Option.any_eq_true _ _).mp panics
  split at panics
  · rename_i message stopped
    exact ⟨body, message, section_, stopped⟩
  · cases panics

/-- The calls that leave `/a` behind, closed -/
def createA : List Call := [.tfsOpen (some pathA) ⟨true, false, false⟩, .tfsClose 0]

/-- While no step disturbs a `tfs_open`, every entry and every handle that `tfs_open` returns
refers to a TAKEN inode, that of a file the path led to during the call; only such a file is
truncated, and no assertion fails. -/
theorem opens_safe (params : TfsParams) (shared : SharedFs Thread)
    (reachable : (undisturbedSystem Thread params).Reachable shared) : shared.OpensSafely := by
  obtain ⟨_, links⟩ := sharedSystem_linksOk (undisturbedSystem_shared reachable)
  exact (undisturbedSystem_openOk reachable).opensSafely links

/-- Both threads open `/a`. -/
theorem opens_safe_bothOpen : ∃ shared : SharedFs Bool,
    shared.now.fs.HandleTaken 0 ∧ shared.now.fs.HandleTaken 1 ∧ shared.OpensSafely := by
  let opensA := Turn.calls (.tfsOpen (some pathA) ⟨false, true, false⟩)
  obtain ⟨state, started, computed⟩ := afterCalls_any smallParams createA (fun state =>
    (ThreadSystem.run settledTurn [(false, opensA), (true, opensA), (false, .runs), (true, .runs),
      (false, .runs), (false, .runs), (true, .runs), (true, .runs), (false, .runs), (true, .runs)]
      (SharedFs.idleAt state)).any (fun shared : SharedFs Bool =>
        decide (shared.now.fs.HandleTaken 0 ∧ shared.now.fs.HandleTaken 1))) (by decide +kernel)
  obtain ⟨shared, ran, computed⟩ := (Option.any_eq_true _ _).mp computed
  obtain ⟨first, second⟩ := of_decide_eq_true computed
  have reached : Reachable smallParams (fun _ _ => True) state :=
    .afterCalls (fun _ _ _ => trivial) started
  have reachable : (undisturbedSystem Bool smallParams).Reachable shared :=
    ThreadSystem.Reachable.run (fun _ _ _ _ => undisturbedSystem_of_settledTurn)
      (.initial (SharedFs.idleAt_initial reached)) ran
  exact ⟨shared, first, second, opens_safe smallParams shared reachable⟩

/-- One thread has rechecked the inode of `/a` when the other one unlinks it: the first one
gets a handle to a FREE inode, and its `tfs_close` fails an assertion. -/
theorem opens_unsafe : ∃ shared : SharedFs Bool, (closingSystem Bool smallParams).Reachable shared ∧
    (shared.now.fs.HandleTaken 0 ∧ (shared.now.fs.openFileTable 0).ofInumber = 1 ∧
      ¬ shared.now.fs.InodeTaken 1) ∧
    (∃ body message, (shared.points false).nextSection = some body ∧
      body shared.now.fs = .error (.panic message)) ∧
    ¬ shared.OpensSafely := by
  obtain ⟨state, started, computed⟩ := afterCalls_any smallParams createA (fun state =>
    (ThreadSystem.run closingTurn [
      (false, .calls (.tfsOpen (some pathA) ⟨false, false, false⟩)), (false, .runs),
      (false, .runs), (false, .runs),
      (true, .calls (.tfsUnlink (some pathA))), (true, .runs), (true, .runs), (true, .runs),
      (false, .runs), (false, .calls (.tfsClose 0)), (false, .runs)]
      (SharedFs.idleAt state)).any (fun shared : SharedFs Bool =>
        decide (shared.now.fs.HandleTaken 0 ∧ (shared.now.fs.openFileTable 0).ofInumber = 1 ∧
          ¬ shared.now.fs.InodeTaken 1) && shared.panics false)) (by decide +kernel)
  obtain ⟨shared, ran, computed⟩ := (Option.any_eq_true _ _).mp computed
  obtain ⟨stale, panics⟩ := Bool.and_eq_true_iff.mp computed
  have stale := of_decide_eq_true stale
  have reached : Reachable smallParams (fun _ _ => True) state :=
    .afterCalls (fun _ _ _ => trivial) started
  have reachable : (closingSystem Bool smallParams).Reachable shared :=
    ThreadSystem.Reachable.run (fun _ _ _ _ => closingSystem_of_closingTurn)
      (.initial (SharedFs.idleAt_initial reached)) ran
  refine ⟨shared, reachable, stale, SharedFs.of_panics panics, ?_⟩
  intro safe
  obtain ⟨inode, refers, taken⟩ := safe.entries 0 stale.1
  have one : inode = 1 := by
    have same := refers.symm.trans stale.2.1
    omega
  rw [one] at taken
  exact stale.2.2 taken

end TecnicoFS.FileSystem
