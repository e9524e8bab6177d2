/-
The root directory as a finite map from names to inodes.

The map is read off the log of a run: the last call that installed a name decides what
the name is bound to, unless a later one removed it.  The slots of the directory, with
their three different matching rules, always hold this map.
-/

import TecnicoFS.FileSystem.Rebinding

set_option autoImplicit false

namespace TecnicoFS.FileSystem

open FaultAction

/-- One call of a run, with the state it was made in -/
structure LoggedCall where
  before : State
  call : Call
  result : CallResult

variable {params : TfsParams} {allowed : State → Call → Prop} {state state' : State}
  {model : Model Nat} {log : List LoggedCall}

/-! ### Logged runs -/

/-- A run with its calls, the last one first -/
inductive Run (params : TfsParams) (allowed : State → Call → Prop) :
    List LoggedCall → State → Prop where
  | init {succeeds : Nat → Bool} {garbage : Garbage} {state : State} :
      tfsInit succeeds garbage params = .ok (0, some state) → Run params allowed [] state
  | call {log : List LoggedCall} {state state' : State} {call : Call} {result : CallResult} :
      Run params allowed log state → allowed state call →
      call.run state = .ok (result, state') →
      Run params allowed ({ before := state, call := call, result := result } :: log) state'

theorem Run.reachable (run : Run params allowed log state) : Reachable params allowed state := by
  induction run with
  | init started => exact .init started
  | call _ permitted returned inductionHypothesis =>
      exact .call inductionHypothesis permitted returned

/-- Every reachable state has a log. -/
theorem Reachable.run (reachable : Reachable params allowed state) :
    ∃ log, Run params allowed log state := by
  induction reachable with
  | init started => exact ⟨[], .init started⟩
  | call _ permitted returned inductionHypothesis =>
      obtain ⟨log, run⟩ := inductionHypothesis
      exact ⟨_, .call run permitted returned⟩

/-- The last call of the log that installed or removed the name installed the inode. -/
inductive LastBound (name : CString) (inode : Nat) : List LoggedCall → Prop where
  | installed {entry : LoggedCall} {log : List LoggedCall} :
      Installs entry.before entry.call entry.result name inode →
      LastBound name inode (entry :: log)
  | kept {entry : LoggedCall} {log : List LoggedCall} :
      (∀ held, ¬ Installs entry.before entry.call entry.result name held) →
      ¬ Removes entry.call entry.result name → LastBound name inode log →
      LastBound name inode (entry :: log)

theorem Initial.not_binds (initial : Initial state) (name : CString) (inode : Nat) :
    ¬ state.Binds name inode := by
  rintro ⟨_, slot, live, _⟩
  exact initial.noEntry slot live

/-- The directory holds the map of the log. -/
theorem Run.binds (run : Run params (AdmissibleIn params) log state) (name : CString)
    (inode : Nat) : LastBound name inode log ↔ state.Binds name inode := by
  induction run generalizing inode with
  | init started =>
      constructor
      · rintro ⟨⟩
      · intro binds
        exact ((tfsInit_initial started).1.not_binds name inode binds).elim
  | call before permitted returned inductionHypothesis =>
      obtain ⟨_, represents, _⟩ := before.reachable.represents
      rw [call_rebinds represents before.reachable.invariant.1 returned name inode]
      constructor
      · rintro (installs | ⟨never, notRemoved, bound⟩)
        · exact Or.inl installs
        · exact Or.inr ⟨never, notRemoved, (inductionHypothesis inode).mp bound⟩
      · rintro (installs | ⟨never, notRemoved, binds⟩)
        · exact .installed installs
        · exact .kept never notRemoved ((inductionHypothesis inode).mpr binds)

/-! ### Looking names up -/

/-- The path of a name in the root directory -/
def rootPath (name : CString) : CString where
  bytes := slash :: name.bytes
  noNul := by
    intro member
    rcases List.mem_cons.mp member with impossible | member
    · cases impossible
    · exact name.noNul member

theorem rootPath_tail (name : CString) : (rootPath name).tail = name := rfl

theorem rootPath_injective {left right : CString} (same : rootPath left = rootPath right) :
    left = right := by
  have tails := congrArg CString.tail same
  rwa [rootPath_tail, rootPath_tail] at tails

theorem rootPath_valid {name : CString} (short : validSubName name) :
    ValidPathname (rootPath name) := by
  refine ⟨?_, rfl⟩
  have nonempty : name.strlen ≠ 0 := fun empty => short (Or.inl empty)
  change 1 < name.bytes.length + 1
  exact Nat.lt_add_of_pos_left (Nat.pos_of_ne_zero nonempty)

/-- `tfs_lookup` answers with the binding of the name. -/
theorem lookup_binds (inv : Invariant state none) {name : CString} {inum : Int}
    (returned : tfsLookup (rootPath name) 0 state = .ok (inum, state')) :
    state' = state ∧ ((∃ inode : Nat, inum = inode ∧ state.Binds name inode) ∨
      (inum = -1 ∧ ∀ inode, ¬ state.Binds name inode)) := by
  obtain ⟨same, ⟨failed, missing⟩ | found⟩ :=
    (@outcome_tfsLookup (fun _ => True) _ _ inv (Or.inl trivial) (rootPath name)).of_ok returned
  · refine ⟨same, Or.inr ⟨failed, ?_⟩⟩
    rcases missing with invalid | notFound
    · intro inode binds
      exact invalid (rootPath_valid binds.1)
    · exact inv.notFound_iff.mp notFound
  · exact ⟨same, Or.inl found⟩

theorem lookup_returns (inv : Invariant state none) (fits : state.Fits) (name : CString) :
    ∃ inum, tfsLookup name 0 state = .ok (inum, state) := by
  obtain ⟨inum, _, returned, same, _⟩ :=
    (@outcome_tfsLookup (fun _ => False) _ _ inv (Or.inr fits.2.2.2.1) name).returns
  subst same
  exact ⟨inum, returned⟩

/-! ### The size of the map -/

theorem State.Binds.short {name : CString} {inode : Nat} (binds : state.Binds name inode) :
    1 ≤ name.strlen ∧ name.strlen ≤ 39 := by
  have valid := binds.1
  unfold validSubName maxFileName at valid
  omega

/-- Different bound names have slots of their own. -/
theorem bound_names_length {names : List CString} (different : names.Nodup)
    (bound : ∀ name, name ∈ names → ∃ inode, state.Binds name inode) :
    names.length ≤ state.maxDirEntries := by
  have slots : ∀ name, ∃ slot, name ∈ names →
      state.EntryLive slot ∧ state.EntryNamed slot name := by
    intro name
    by_cases member : name ∈ names
    · obtain ⟨_, _, slot, live, named, _⟩ := bound name member
      exact ⟨slot, fun _ => ⟨live, named⟩⟩
    · exact ⟨0, fun impossible => (member impossible).elim⟩
  choose slotOf holds using slots
  have distinct : (names.map slotOf).Nodup := by
    refine different.map_on (fun left leftMember right rightMember same => ?_)
    have leftNamed := (holds left leftMember).2
    rw [same] at leftNamed
    exact leftNamed.unique (holds right rightMember).2
  have inside : names.map slotOf ⊆ List.range state.maxDirEntries := by
    intro slot member
    obtain ⟨name, nameMember, rfl⟩ := List.mem_map.mp member
    exact List.mem_range.mpr (holds name nameMember).1.1
  have counted := (List.subperm_of_subset distinct inside).length_le
  rwa [List.length_map, List.length_range] at counted

theorem Invariant.name_once (inv : Invariant state none) {left right : Nat} {name : CString}
    (leftLive : state.EntryLive left) (rightLive : state.EntryLive right)
    (leftNamed : state.EntryNamed left name) (rightNamed : state.EntryNamed right name) :
    left = right := by
  obtain ⟨own, short, ownNamed⟩ := inv.directory.named left leftLive
  rw [← leftNamed.unique ownNamed] at short
  exact inv.directory.distinct left right name leftLive rightLive short leftNamed rightNamed

/-! ### Linking and unlinking -/

/-- When `tfs_link` makes the second name a name of the first one's file -/
def LinksFile (state : State) (target link : CString) : Prop :=
  (ValidPathname target ∧ ∃ inode, state.Binds target.tail inode ∧
    (state.inodeTable inode).iNodeType = .tFile) ∧
  ValidPathname link ∧ validSubName link.tail ∧ state.Unbound link.tail ∧
  ∃ slot, slot < state.maxDirEntries ∧ state.entryInumber slot = -1

/-- A free slot of a directory, taken with the first one -/
theorem State.firstDead_of_dead {slot : Nat} (inside : slot < state.maxDirEntries)
    (dead : state.entryInumber slot = -1) : ∃ first, state.FirstDead first := by
  have found : ∃ place, place < state.maxDirEntries ∧ state.entryInumber place = -1 :=
    ⟨slot, inside, dead⟩
  classical
  refine ⟨Nat.find found, (Nat.find_spec found).1, (Nat.find_spec found).2, ?_⟩
  intro earlier lower
  have before := Nat.lt_trans lower (Nat.find_spec found).1
  exact ⟨before, fun isDead => Nat.find_min found lower ⟨before, isDead⟩⟩

theorem tfsLink_links (represents : Represents state model) (inv : Invariant state none)
    {target link : CString} {result : CallResult}
    (returned : Call.run (.tfsLink (some target) (some link)) state = .ok (result, state')) :
    (result.length = 0 ↔ LinksFile state target link) ∧
      (result.length = 0 → ∀ inode, state'.Binds link.tail inode ↔
        state.Binds target.tail inode) := by
  have rebinds := call_rebinds represents inv returned
  obtain ⟨trace, expands, effects⟩ := call_effects inv returned
  cases expands with
  | single _ _ =>
  cases effects with
  | cons effect rest =>
  cases rest
  have unique {left right : Nat} (leftBinds : state.Binds target.tail left)
      (rightBinds : state.Binds target.tail right) : left = right :=
    Option.some.inj (((represents.names _ _).mpr leftBinds).symm.trans
      ((represents.names _ _).mpr rightBinds))
  -- A refused link misses one of the conditions.
  have refused (unmet : ¬ LinksFile state target link) :
      ((-1 : Int) = 0 ↔ LinksFile state target link) ∧
        ((-1 : Int) = 0 → ∀ inode, state'.Binds link.tail inode ↔
          state.Binds target.tail inode) :=
    ⟨⟨fun impossible => (by cases impossible), fun holds => (unmet holds).elim⟩,
      fun impossible => (by cases impossible)⟩
  cases effect with
  | linkInvalid invalid =>
      apply refused
      rintro ⟨⟨targetValid, _⟩, linkValid, _⟩
      rcases invalid with invalid | invalid
      · exact validPathname_none invalid targetValid
      · exact validPathname_none invalid linkValid
  | links targetValid linkValid linked =>
      cases linked with
      | missing notFound =>
          apply refused
          rintro ⟨⟨_, inode, binds, _⟩, _⟩
          exact inv.notFound_iff.mp notFound inode binds
      | refused _ refuses =>
          apply refused
          rintro ⟨_, _, short, unbound, slot, inside, dead⟩
          rcases refuses with invalid | bound | full
          · exact invalid short
          · exact bound unbound
          · exact (full slot inside).2 dead
      | symLink binds isSymLink _ _ _ =>
          apply refused
          rintro ⟨⟨_, inode, found, isFile⟩, _⟩
          rw [unique found binds, isSymLink] at isFile
          cases isFile
      | @linked inode slot binds notSymLink short unbound dead =>
          have taken := inv.binds_taken binds
          have isFile : (state.inodeTable inode).iNodeType = .tFile := by
            cases kind : (state.inodeTable inode).iNodeType with
            | tFile => rfl
            | tDirectory => exact (inv.inodes.onlyRoot inode taken.2 taken.1 kind).elim
            | tSymLink => exact (notSymLink kind).elim
          refine ⟨iff_of_true rfl ⟨⟨targetValid, inode, binds, isFile⟩, linkValid, short, unbound,
            slot, dead.1, dead.2.1⟩, ?_⟩
          intro _ held
          rw [rebinds]
          constructor
          · rintro (installs | ⟨_, _, bound⟩)
            · cases installs with
              | links found => exact found
            · obtain ⟨_, place, live, named, _⟩ := bound
              exact (unbound place live named).elim
          · intro found
            exact Or.inl (.links found)

/-- The slot is emptied and every other one is left as it was. -/
structure State.SlotRemoved (state : State) (slot : Nat) (state' : State) : Prop where
  emptied : ¬ state'.EntryLive slot
  live : ∀ other, other ≠ slot → (state'.EntryLive other ↔ state.EntryLive other)
  inumber : ∀ other, other ≠ slot → state'.entryInumber other = state.entryInumber other
  named : ∀ other name, other ≠ slot → validSubName name →
    (state'.EntryNamed other name ↔ state.EntryNamed other name)

theorem State.scrubEntry_removed (slot : Nat) :
    state.SlotRemoved slot (state.scrubEntry slot) where
  emptied live := (State.scrubEntry_live.mp live).1 rfl
  live other different := State.scrubEntry_live.trans (and_iff_right different)
  inumber other different := by
    rw [State.scrubEntry_entryInumber, if_neg different]
  named other name different short :=
    (State.scrubEntry_entryNamed state slot other name short).trans (and_iff_right different)

theorem State.SlotRemoved.of_memory {slot : Nat} {middle : State}
    (removed : state.SlotRemoved slot middle) (memory : state'.fsData = middle.fsData)
    (sizes : state'.fsParams = middle.fsParams) : state.SlotRemoved slot state' := by
  have inumber (other : Nat) : state'.entryInumber other = middle.entryInumber other := by
    unfold State.entryInumber State.dInumber
    rw [memory]
  have live (other : Nat) : state'.EntryLive other ↔ middle.EntryLive other := by
    unfold State.EntryLive State.maxDirEntries State.blockSize
    rw [inumber, sizes]
  have named (other : Nat) (name : CString) :
      state'.EntryNamed other name ↔ middle.EntryNamed other name := by
    unfold State.EntryNamed
    rw [memory]
  refine ⟨?_, ?_, ?_, ?_⟩
  · exact fun isLive => removed.emptied ((live slot).mp isLive)
  · exact fun other different => (live other).trans (removed.live other different)
  · exact fun other different => (inumber other).trans (removed.inumber other different)
  · exact fun other name different short =>
      (named other name).trans (removed.named other name different short)

/-- `tfs_unlink` removes the slot that `tfs_lookup` finds, and no other one. -/
theorem tfsUnlink_removes (inv : Invariant state none) {target : CString} {result : CallResult}
    (returned : Call.run (.tfsUnlink (some target)) state = .ok (result, state')) :
    (result.length = 0 ↔ ValidPathname target ∧ ∃ inode, state.Binds target.tail inode) ∧
      (result.length = 0 → ∃ slot, state.EntryLive slot ∧ state.EntryNamed slot target.tail ∧
        state.SlotRemoved slot state' ∧ ∀ inum after,
          tfsLookup target 0 state = .ok (inum, after) → inum = state.entryInumber slot) := by
  obtain ⟨trace, expands, effects⟩ := call_effects inv returned
  cases expands with
  | single _ _ =>
  cases effects with
  | cons effect rest =>
  cases rest
  have refused (unmet : ¬ (ValidPathname target ∧ ∃ inode, state.Binds target.tail inode)) :
      ((-1 : Int) = 0 ↔ ValidPathname target ∧ ∃ inode, state.Binds target.tail inode) ∧
        ((-1 : Int) = 0 → ∃ slot, state.EntryLive slot ∧ state.EntryNamed slot target.tail ∧
          state.SlotRemoved slot state' ∧ ∀ inum after,
            tfsLookup target 0 state = .ok (inum, after) → inum = state.entryInumber slot) :=
    ⟨⟨fun impossible => (by cases impossible), fun holds => (unmet holds).elim⟩,
      fun impossible => (by cases impossible)⟩
  have finds {slot inode : Nat} (valid : ValidPathname target) (short : validSubName target.tail)
      (live : state.EntryLive slot) (named : state.EntryNamed slot target.tail)
      (holds : state.entryInumber slot = (inode : Int)) (inum : Int) (after : State)
      (found : tfsLookup target 0 state = .ok (inum, after)) :
      inum = state.entryInumber slot := by
    obtain ⟨_, ⟨_, missing⟩ | ⟨held, same, _, place, placeLive, placeNamed, placeHolds⟩⟩ :=
      (@outcome_tfsLookup (fun _ => True) _ _ inv (Or.inl trivial) target).of_ok found
    · have notFound := missing.resolve_left (fun invalid => invalid valid)
      exact (inv.notFound_iff.mp notFound inode ⟨short, slot, live, named, holds⟩).elim
    · rw [inv.name_once live placeLive named placeNamed, placeHolds, same]
  cases effect with
  | unlinkInvalid invalid => exact refused (fun met => validPathname_none invalid met.1)
  | unlinks valid unlinked =>
      cases unlinked with
      | missing notFound =>
          apply refused
          rintro ⟨_, inode, binds⟩
          exact inv.notFound_iff.mp notFound inode binds
      | @deleted inode slot short live named holds _ _ =>
          refine ⟨iff_of_true rfl ⟨valid, inode, short, slot, live, named, holds⟩, ?_⟩
          intro _
          refine ⟨slot, live, named, ?_, finds valid short live named holds⟩
          exact (State.scrubEntry_removed slot).of_memory State.deleteInode_fsData
            State.deleteInode_fsParams
      | @kept inode slot short live named holds _ =>
          refine ⟨iff_of_true rfl ⟨valid, inode, short, slot, live, named, holds⟩, ?_⟩
          intro _
          refine ⟨slot, live, named, ?_, finds valid short live named holds⟩
          exact (State.scrubEntry_removed slot).of_memory rfl rfl

/-! ### Failed calls -/

/-- The calls that look names up and may bind them -/
def Call.IsNaming : Call → Prop
  | .tfsOpen _ _ => True
  | .tfsSymLink _ _ => True
  | .tfsLink _ _ => True
  | .tfsUnlink _ => True
  | _ => False

/-- A failed call leaves the map alone, unless it is a `tfs_open` that created its file and
then found the open file table full. -/
theorem failed_sameNames (represents : Represents state model) (inv : Invariant state none)
    {call : Call} {result : CallResult} (returned : call.run state = .ok (result, state'))
    (naming : call.IsNaming) (failed : result.length = -1) :
    state.SameNames state' ∨ ∃ path mode name inode, call = .tfsOpen (some path) mode ∧
      Creates state path mode name inode ∧ state.NoFreeHandle ∧
      ∀ other held, state'.Binds other held ↔
        if other = name then held = inode else state.Binds other held := by
  have rebinds := call_rebinds represents inv returned
  obtain ⟨trace, expands, effects⟩ := call_effects inv returned
  have quiet (never : ∀ name inode, ¬ Installs state call result name inode) :
      state.SameNames state' := by
    intro name inode
    rw [rebinds]
    constructor
    · rintro (installs | ⟨_, _, binds⟩)
      · exact (never name inode installs).elim
      · exact binds
    · intro binds
      refine Or.inr ⟨never name, ?_, binds⟩
      rintro ⟨⟩
      cases failed
  cases call with
  | tfsSymLink target link =>
      left
      apply quiet
      rintro name inode ⟨⟩
      cases failed
  | tfsLink target link =>
      left
      apply quiet
      rintro name inode ⟨⟩
      cases failed
  | tfsUnlink target =>
      left
      apply quiet
      rintro name inode ⟨⟩
  | tfsOpen name mode =>
      cases expands with
      | single _ _ =>
      cases effects with
      | cons effect rest =>
      cases rest
      cases effect with
      | openNull _ => exact Or.inl (fun _ _ => Iff.rfl)
      | opens resolves opened =>
          rcases opened.quiet_or_creates resolves inv with
            ⟨names, _⟩ | ⟨created, inode, creates, names, full⟩
          · exact Or.inl names
          · exact Or.inr ⟨_, mode, created, inode, rfl, (creates created inode).mpr ⟨rfl, rfl⟩,
              full failed, names⟩
  | _ => exact naming.elim

/-! ### The directory as a map -/

/-- The directory after a run is the map of its log. -/
structure NamespaceRefined (params : TfsParams) (log : List LoggedCall) (state : State) :
    Prop where
  lookup : ∀ name inum after, tfsLookup (rootPath name) 0 state = .ok (inum, after) →
    after = state ∧ ((∃ inode : Nat, inum = inode ∧ LastBound name inode log) ∨
      (inum = -1 ∧ ∀ inode, ¬ LastBound name inode log))
  lookupReturns : params.Fits → ∀ name, ∃ inum,
    tfsLookup (rootPath name) 0 state = .ok (inum, state)
  binds : ∀ name inode, LastBound name inode log ↔ state.Binds name inode
  short : ∀ name inode, LastBound name inode log → 1 ≤ name.strlen ∧ name.strlen ≤ 39
  capacity : ∀ names : List CString, names.Nodup →
    (∀ name, name ∈ names → ∃ inode, LastBound name inode log) →
    names.length ≤ params.blockSize / dirEntrySize
  once : ∀ left right name, state.EntryLive left → state.EntryLive right →
    state.EntryNamed left name → state.EntryNamed right name → left = right
  links : ∀ target link result after,
    Call.run (.tfsLink (some target) (some link)) state = .ok (result, after) →
    (result.length = 0 ↔ LinksFile state target link) ∧
      (result.length = 0 → ∀ inode, after.Binds link.tail inode ↔
        state.Binds target.tail inode)
  unlinks : ∀ target result after,
    Call.run (.tfsUnlink (some target)) state = .ok (result, after) →
    (result.length = 0 ↔ ValidPathname target ∧ ∃ inode, LastBound target.tail inode log) ∧
      (result.length = 0 → ∃ slot, state.EntryLive slot ∧
        state.EntryNamed slot target.tail ∧ state.SlotRemoved slot after ∧
        ∀ inum found, tfsLookup target 0 state = .ok (inum, found) →
          inum = state.entryInumber slot)
  failed : ∀ call result after, Call.run call state = .ok (result, after) → call.IsNaming →
    result.length = -1 →
    state.SameNames after ∨ ∃ path mode name inode, call = .tfsOpen (some path) mode ∧
      Creates state path mode name inode ∧ state.NoFreeHandle ∧
      ∀ other held, after.Binds other held ↔
        if other = name then held = inode else state.Binds other held

theorem namespace_refinement (run : Run params (AdmissibleIn params) log state) :
    NamespaceRefined params log state := by
  obtain ⟨inv, same⟩ := run.reachable.invariant
  obtain ⟨model, represents, _⟩ := run.reachable.represents
  have bound (name : CString) (inode : Nat) := run.binds name inode
  subst same
  refine ⟨?_, ?_, bound, ?_, ?_, ?_, ?_, ?_, ?_⟩
  · intro name inum after returned
    obtain ⟨unchanged, found⟩ := lookup_binds inv returned
    simp only [bound]
    exact ⟨unchanged, found⟩
  · intro fits name
    exact lookup_returns inv fits (rootPath name)
  · intro name inode last
    exact ((bound name inode).mp last).short
  · intro names different all
    simp only [bound] at all
    exact bound_names_length different all
  · intro left right name leftLive rightLive leftNamed rightNamed
    exact inv.name_once leftLive rightLive leftNamed rightNamed
  · intro target link result after returned
    exact tfsLink_links represents inv returned
  · intro target result after returned
    simp only [bound]
    exact tfsUnlink_removes inv returned
  · intro call result after returned naming failed
    exact failed_sameNames represents inv returned naming failed

/-- A linked and an unlinked name -/
theorem namespace_refinement_unlinked :
    ∃ log state, afterCalls smallParams
      [.tfsOpen (some pathA) ⟨true, false, false⟩, .tfsLink (some pathA) (some pathB),
        .tfsUnlink (some pathA)] = some state ∧ NamespaceRefined smallParams log state := by
  obtain ⟨state, returned, _⟩ := afterCalls_any smallParams
    [.tfsOpen (some pathA) ⟨true, false, false⟩, .tfsLink (some pathA) (some pathB),
      .tfsUnlink (some pathA)]
    (fun _ => true) (by decide +kernel)
  have reachable : Reachable smallParams (AdmissibleIn smallParams) state :=
    .afterCalls (fun call member state => by
      simp only [List.mem_cons, List.not_mem_nil, or_false] at member
      rcases member with rfl | rfl | rfl <;> trivial) returned
  obtain ⟨log, run⟩ := reachable.run
  exact ⟨log, state, returned, namespace_refinement run⟩

end TecnicoFS.FileSystem
