/-
How `tfs_open` follows symbolic links.

Opening a link is opening its target with one recursive call less to spend, and a run
that ends does not depend on how many were left.  Around a cycle no number is enough.
-/

import TecnicoFS.FileSystem.CallSpec

set_option autoImplicit false

namespace TecnicoFS.FileSystem

open FaultAction TableSearch

variable {faults : Fault → Prop} {state : State}

/-! ### Names -/

/-- A path is a slash and a name. -/
theorem ValidPathname.eq_of_tail {left right : CString} (leftValid : ValidPathname left)
    (rightValid : ValidPathname right) (same : left.tail = right.tail) : left = right := by
  apply CString.ext_bytes
  have tails : left.bytes.tail = right.bytes.tail := congrArg CString.bytes same
  rw [← List.cons_head?_tail leftValid.2, ← List.cons_head?_tail rightValid.2, tails]

theorem Invariant.binds_unique (inv : Invariant state none) {name : CString} {left right : Nat}
    (leftBinds : state.Binds name left) (rightBinds : state.Binds name right) : left = right := by
  obtain ⟨short, leftSlot, leftLive, leftNamed, leftHolds⟩ := leftBinds
  obtain ⟨_, rightSlot, rightLive, rightNamed, rightHolds⟩ := rightBinds
  have same := inv.directory.distinct leftSlot rightSlot name leftLive rightLive short leftNamed
    rightNamed
  rw [same, rightHolds] at leftHolds
  exact (Int.ofNat_inj.mp leftHolds).symm

theorem Invariant.linksTo_unique (inv : Invariant state none) :
    Relator.RightUnique state.LinksTo := by
  rintro path left right ⟨_, leftInode, leftBinds, _, leftTarget⟩
    ⟨_, rightInode, rightBinds, _, rightTarget⟩
  rw [inv.binds_unique leftBinds rightBinds, rightTarget] at leftTarget
  exact (Option.some.inj leftTarget).symm

/-- `tfs_open` stops at a name that is no symbolic link. -/
theorem OpenEffect.final {path : CString} {mode : TfsFileMode} {result : Int} {state' : State}
    (effect : OpenEffect state path mode result state') (inv : Invariant state none)
    (target : CString) : ¬ state.LinksTo path target := by
  rintro ⟨valid, inode, binds, isSymLink, _⟩
  have missing (notFound : state.NotFound path.tail) : False := by
    obtain ⟨short, slot, live, named, _⟩ := binds
    rcases notFound with invalid | unbound
    · exact invalid short
    · exact unbound slot live named
  cases effect with
  | invalid invalid => exact invalid valid
  | missing _ notFound _ => exact missing notFound
  | noInode _ notFound _ _ => exact missing notFound
  | refused _ notFound _ _ _ => exact missing notFound
  | created _ unbound _ _ _ _ _ => exact missing (Or.inr unbound)
  | existing _ found isFile _ =>
      rw [inv.binds_unique found binds, isSymLink] at isFile
      cases isFile

/-- Two names that are no symbolic links and are reached from one path are the same. -/
theorem Invariant.final_unique (inv : Invariant state none) {path left right : CString}
    (leftResolves : state.Resolves path left) (rightResolves : state.Resolves path right)
    (leftFinal : ∀ target, ¬ state.LinksTo left target)
    (rightFinal : ∀ target, ¬ state.LinksTo right target) : left = right := by
  have stuck {first last : CString} (final : ∀ target, ¬ state.LinksTo first target)
      (reached : Relation.ReflTransGen state.LinksTo first last) : first = last := by
    rcases Relation.ReflTransGen.cases_head reached with same | ⟨next, linksTo, _⟩
    · exact same
    · exact (final next linksTo).elim
  rcases Relation.ReflTransGen.total_of_right_unique (inv.linksTo_unique)
    leftResolves rightResolves with later | earlier
  · exact stuck leftFinal later
  · exact (stuck rightFinal earlier).symm

/-! ### One link -/

theorem validPathname_of_valid {path : CString} (valid : ValidPathname path) :
    validPathname (some path) = some path := by
  unfold validPathname
  rw [Option.filter_some, if_pos (decide_eq_true valid)]

/-- Looking a bound name up finds its inode, unless the search passes 2 ^ 31 slots. -/
theorem tfsLookup_binds (inv : Invariant state none) {path : CString} {inode : Nat}
    (valid : ValidPathname path) (binds : state.Binds path.tail inode) :
    tfsLookup path 0 state = .ok ((inode : Int), state) ∨
      (2 ^ 31 ≤ state.maxDirEntries ∧ tfsLookup path 0 state = .error .undefined) := by
  have outcome := @outcome_tfsLookup
    (fun fault => 2 ^ 31 ≤ state.maxDirEntries ∧ fault = .undefined) _ _ inv
    ((Nat.lt_or_ge state.maxDirEntries (2 ^ 31)).symm.imp (fun tooWide => ⟨tooWide, rfl⟩) id)
    path
  cases run : tfsLookup path 0 state with
  | error fault =>
      obtain ⟨tooWide, same⟩ := outcome.of_error run
      exact Or.inr ⟨tooWide, by rw [same]⟩
  | ok pair =>
      left
      obtain ⟨same, ⟨_, missing⟩ | ⟨found, inumEq, foundBinds⟩⟩ := outcome.of_ok run
      · obtain ⟨short, slot, live, named, _⟩ := binds
        rcases missing with invalid | tooLong | unbound
        · exact (invalid valid).elim
        · exact (tooLong short).elim
        · exact (unbound slot live named).elim
      · rw [inv.binds_unique binds foundBinds, ← inumEq, ← same]

theorem symLinkTarget_targetOf (inv : Invariant state none) {inode : Nat} {target : CString}
    (taken : state.InodeTaken inode) (nonzero : inode ≠ 0)
    (isSymLink : (state.inodeTable inode).iNodeType = .tSymLink)
    (stored : state.targetOf inode = some target) :
    symLinkTarget inode state = .ok (target, state) := by
  have owns : state.OwnsBlock inode (state.inodeTable inode).iDataBlock := by
    refine ⟨taken, rfl, ?_⟩
    intro isFile
    rw [isSymLink] at isFile
    cases isFile
  obtain ⟨block, blockEq, _, blockTaken⟩ := inv.blocks.owned inode _ owns nonzero
  obtain ⟨address, after, returned, addressEq, same⟩ :=
    (@outcome_dataBlockGet (fun _ => False) _ block blockTaken.1).returns
  subst after
  have found : CString.ofMemory state.fsData address (state.dataBytes - address) = some target := by
    rw [addressEq]
    unfold State.targetOf at stored
    rw [blockEq, Int.toNat_natCast] at stored
    exact stored
  rw [← blockEq] at returned
  unfold symLinkTarget
  rw [bind_of_ok (get_apply state), bind_of_ok returned, found]
  rfl

/-- Opening a link is opening its target. -/
theorem tfsOpenFuel_follows (inv : Invariant state none) {path target : CString}
    (links : state.LinksTo path target) (mode : TfsFileMode) (fuel : Nat) :
    tfsOpenFuel (fuel + 1) (some path) mode state = tfsOpenFuel fuel (some target) mode state ∨
      (2 ^ 31 ≤ state.maxDirEntries ∧ tfsOpenFuel (fuel + 1) (some path) mode state = .error .undefined) := by
  obtain ⟨valid, inode, binds, isSymLink, stored⟩ := links
  obtain ⟨nonzero, taken⟩ := inv.binds_taken binds
  have place {number : Nat} (inside : number < state.inodeTableSize) :
      inodeGet (number : Int) state = .ok (number, state) := by
    obtain ⟨found, after, returned, foundEq, same⟩ :=
      (@outcome_inodeGet (fun _ => False) _ _ inside).returns
    rw [returned, foundEq, same]
  have atRoot : inodeGet rootDirInum state = .ok (0, state) := place inv.root.inodeTaken.1
  rw [tfsOpenFuel]
  simp only [validPathname_of_valid valid]
  rw [bind_of_ok atRoot]
  rcases tfsLookup_binds inv valid binds with found | ⟨tooWide, stopped⟩
  · left
    rw [bind_of_ok found, if_pos (by omega), bind_of_ok (place taken.1),
      bind_of_ok (get_apply state)]
    have notDirectory : (state.inodeTable inode).iNodeType ≠ .tDirectory := by
      rw [isSymLink]
      decide
    have passes : require ((state.inodeTable inode).iNodeType ≠ .tDirectory)
        (Fault.panic "tfs_open: directories cannot be opened this way") state =
          .ok ((), state) := by
      unfold require
      rw [if_pos notDirectory]
      rfl
    rw [bind_of_ok passes, if_pos isSymLink,
      bind_of_ok (symLinkTarget_targetOf inv taken nonzero isSymLink stored)]
  · right
    exact ⟨tooWide, bind_of_error stopped⟩

/-! ### The number of recursive calls -/

/-- `tfs_open` with what it does about the target of a link left open -/
def tfsOpenStep (follow : CString → TfsAction Int) (name : Option CString) (mode : TfsFileMode) :
    TfsAction Int :=
  match validPathname name with
  | none => pure (-1)
  | some path => do
      let rootDirInode ← inodeGet rootDirInum
      let inum ← tfsLookup path rootDirInode
      if 0 ≤ inum then
        let inode ← inodeGet inum
        let state ← get
        require ((state.inodeTable inode).iNodeType ≠ .tDirectory)
          (.panic "tfs_open: directories cannot be opened this way")
        if (state.inodeTable inode).iNodeType = .tSymLink then
          let target ← symLinkTarget inode
          follow target
        else
          openExisting inum inode mode
      else if mode.tfsOCreat = true then
        let inum ← createFile rootDirInode path
        if inum = -1 then pure (-1) else addToOpenFileTable inum 0
      else
        pure (-1)

theorem tfsOpenFuel_succ (fuel : Nat) (name : Option CString) (mode : TfsFileMode) :
    tfsOpenFuel (fuel + 1) name mode =
      tfsOpenStep (fun target => tfsOpenFuel fuel (some target) mode) name mode := rfl

theorem bind_congr_of_ends {α β : Type} {action : TfsAction α} {left right : α → TfsAction β}
    (agree : ∀ value state, left value state ≠ .error .diverges →
      right value state = left value state)
    (ends : (action >>= left) state ≠ .error .diverges) :
    (action >>= right) state = (action >>= left) state := by
  cases run : action state with
  | error fault => rw [bind_of_error run, bind_of_error run]
  | ok pair =>
      rw [bind_of_ok run] at ends ⊢
      rw [bind_of_ok run]
      exact agree _ _ ends

theorem ite_congr_of_ends {α : Type} {condition : Prop} [Decidable condition]
    {left right other other' : TfsAction α}
    (first : condition → left state ≠ .error .diverges → right state = left state)
    (second : ¬ condition → other state ≠ .error .diverges → other' state = other state)
    (ends : (if condition then left else other) state ≠ .error .diverges) :
    (if condition then right else other') state = (if condition then left else other) state := by
  by_cases holds : condition
  · rw [if_pos holds] at ends ⊢
    rw [if_pos holds]
    exact first holds ends
  · rw [if_neg holds] at ends ⊢
    rw [if_neg holds]
    exact second holds ends

theorem tfsOpenStep_congr {left right : CString → TfsAction Int} {name : Option CString}
    {mode : TfsFileMode}
    (agree : ∀ target state, left target state ≠ .error .diverges →
      right target state = left target state)
    (ends : tfsOpenStep left name mode state ≠ .error .diverges) :
    tfsOpenStep right name mode state = tfsOpenStep left name mode state := by
  unfold tfsOpenStep at ends ⊢
  generalize validPathname name = accepted at ends ⊢
  cases accepted with
  | none => rfl
  | some path =>
      refine bind_congr_of_ends (fun root _ => bind_congr_of_ends (fun inum _ =>
        ite_congr_of_ends (fun _ => ?_) (fun _ _ => rfl))) ends
      refine bind_congr_of_ends (fun inode _ => bind_congr_of_ends (fun now _ =>
        bind_congr_of_ends (fun _ _ => ite_congr_of_ends (fun _ => ?_) (fun _ _ => rfl))))
      exact bind_congr_of_ends agree

/-- A run that ends makes no use of further recursive calls. -/
theorem tfsOpenFuel_stable {fuel : Nat} {name : Option CString} {mode : TfsFileMode}
    (ends : tfsOpenFuel fuel name mode state ≠ .error .diverges) :
    tfsOpenFuel (fuel + 1) name mode state = tfsOpenFuel fuel name mode state := by
  induction fuel generalizing name state with
  | zero => exact (ends rfl).elim
  | succ fuel inductionHypothesis =>
      rw [tfsOpenFuel_succ] at ends ⊢
      rw [tfsOpenFuel_succ]
      exact tfsOpenStep_congr (fun _ _ => inductionHypothesis) ends

/-! ### Cycles -/

theorem State.FollowsCycle.head {path target : CString} (cycle : state.FollowsCycle path)
    (inv : Invariant state none) (links : state.LinksTo path target) :
    state.FollowsCycle target := by
  obtain ⟨base, toBase, around⟩ := cycle
  rcases Relation.ReflTransGen.cases_head toBase with same | ⟨next, first, rest⟩
  · subst same
    obtain ⟨next, first, rest⟩ := Relation.TransGen.head'_iff.mp around
    have same := inv.linksTo_unique first links
    subst same
    exact ⟨path, rest, around⟩
  · have same := inv.linksTo_unique first links
    subst same
    exact ⟨base, rest, around⟩

theorem State.FollowsCycle.along {path target : CString} (cycle : state.FollowsCycle path)
    (inv : Invariant state none) (resolves : state.Resolves path target) :
    state.FollowsCycle target := by
  induction resolves with
  | refl => exact cycle
  | tail _ links inductionHypothesis => exact inductionHypothesis.head inv links

/-- Around a cycle of symbolic links no number of recursive calls is enough. -/
theorem tfsOpenFuel_diverges (inv : Invariant state none) (few : state.maxDirEntries < 2 ^ 31)
    {path : CString} (cycle : state.FollowsCycle path) (mode : TfsFileMode) (fuel : Nat) :
    tfsOpenFuel fuel (some path) mode state = .error .diverges := by
  induction fuel generalizing path with
  | zero => rfl
  | succ fuel inductionHypothesis =>
      obtain ⟨target, links⟩ := cycle.continues inv.linksTo_unique .refl
      rcases tfsOpenFuel_follows inv links mode fuel with same | ⟨tooWide, _⟩
      · rw [same]
        exact inductionHypothesis (cycle.head inv links)
      · exact (Nat.not_le_of_lt few tooWide).elim

/-- A path that leads into a cycle is never opened. -/
theorem tfsOpenFuel_not_ok (inv : Invariant state none) {path : CString}
    (cycle : state.FollowsCycle path) (mode : TfsFileMode) (fuel : Nat) (result : Int)
    (state' : State) : tfsOpenFuel fuel (some path) mode state ≠ .ok (result, state') := by
  intro returned
  obtain ⟨final, resolves, effect⟩ := (@outcome_tfsOpenFuel (fun _ => True) _ inv (Or.inl trivial)
    (Or.inl trivial) mode fuel path (fun _ => trivial)).of_ok returned
  obtain ⟨next, links⟩ := cycle.continues inv.linksTo_unique resolves
  exact effect.final inv next links

/-- Without a cycle `tfs_open` has recursive calls to spare. -/
theorem tfsOpenFuel_ends (inv : Invariant state none) {path target : CString}
    (links : state.LinksTo path target) (acyclic : ¬ state.FollowsCycle target)
    (mode : TfsFileMode) :
    tfsOpenFuel state.inodeTableSize (some target) mode state ≠ .error .diverges := by
  intro stopped
  have chain := (@outcome_tfsOpenFuel (fun fault => fault = .diverges →
      Chains.Chain state.LinksTo state.inodeTableSize target) _ inv
    (Or.inl (fun impossible => by cases impossible))
    (Or.inl (fun impossible => by cases impossible)) mode _ target
    (fun chain _ => chain)).of_error stopped rfl
  exact acyclic ((inv.followsCycle ⟨target, links, chain⟩).head inv links)

/-! ### Opening through links -/

/-- `tfs_open` of a link and of its target are one computation. -/
theorem tfsOpen_linksTo (inv : Invariant state none) {path target : CString}
    (links : state.LinksTo path target) (acyclic : ¬ state.FollowsCycle target)
    (mode : TfsFileMode) :
    tfsOpen (some path) mode state = tfsOpen (some target) mode state ∨
      (2 ^ 31 ≤ state.maxDirEntries ∧ tfsOpen (some path) mode state = .error .undefined) := by
  unfold tfsOpen
  rw [bind_of_ok (get_apply state), bind_of_ok (get_apply state)]
  rcases tfsOpenFuel_follows inv links mode state.inodeTableSize with same | wrong
  · rw [same, tfsOpenFuel_stable (tfsOpenFuel_ends inv links acyclic mode)]
    exact Or.inl rfl
  · exact Or.inr wrong

/-- A chain of links of any length opens what its last name opens. -/
theorem tfsOpen_resolves (inv : Invariant state none) {path final : CString}
    (resolves : state.Resolves path final) (acyclic : ¬ state.FollowsCycle final)
    (mode : TfsFileMode) :
    tfsOpen (some path) mode state = tfsOpen (some final) mode state ∨
      (2 ^ 31 ≤ state.maxDirEntries ∧ tfsOpen (some path) mode state = .error .undefined) := by
  induction resolves using Relation.ReflTransGen.head_induction_on with
  | refl => exact Or.inl rfl
  | @head path target links rest inductionHypothesis =>
      have targetAcyclic : ¬ state.FollowsCycle target := by
        intro cycle
        exact acyclic (cycle.along inv rest)
      rcases tfsOpen_linksTo inv links targetAcyclic mode with same | wrong
      · rw [same]
        exact inductionHypothesis
      · exact Or.inr wrong

end TecnicoFS.FileSystem
