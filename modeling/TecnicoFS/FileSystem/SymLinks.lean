/-
Symbolic links over runs.

A link leads to the target it was made with until it is unlinked, whatever happens to the
name it leads to.  `tfs_sym_link` compares nothing but the two texts, so links may lead to
each other; then `tfs_open` calls itself without end.
-/

import TecnicoFS.FileSystem.Namespace

set_option autoImplicit false

namespace TecnicoFS.FileSystem

open FaultAction

variable {params : TfsParams} {state state' : State} {model model' : Model Nat}
  {resources : Resources} {blockSize : Nat} {call : Call} {result : CallResult}

/-! ### Links of the abstract file system -/

theorem Model.LinksTo.of_same {before after : Model Nat} {path target : CString}
    (links : before.LinksTo path target) (names : after.names = before.names)
    (targets : after.links = before.links) : after.LinksTo path target := by
  unfold Model.LinksTo at links ⊢
  rw [names, targets]
  exact links

/-- The name of a link keeps its inode in use. -/
theorem Model.LinksTo.collect {path target : CString} (links : model.LinksTo path target)
    (id : Nat) : (model.collect id).LinksTo path target := by
  unfold Model.collect
  split
  · exact links
  · rename_i unused
    obtain ⟨valid, held, names, stored⟩ := links
    have different : held ≠ id := by
      intro same
      subst same
      exact unused (Or.inl ⟨path.tail, names⟩)
    exact ⟨valid, held, names, (Function.update_of_ne different _ _).trans stored⟩

theorem Model.LinksTo.bind {path target name : CString} (links : model.LinksTo path target)
    (missing : model.names name = none) (id : Nat) :
    (model.bind name id).LinksTo path target := by
  obtain ⟨valid, held, names, stored⟩ := links
  have different : path.tail ≠ name := by
    intro same
    rw [same, missing] at names
    cases names
  exact ⟨valid, held, (Function.update_of_ne different _ _).trans names, stored⟩

/-- A step keeps a link unless it unlinks it. -/
theorem Model.Step.linksTo_kept {path target : CString}
    (step : model.Step resources blockSize call result model')
    (links : model.LinksTo path target) (kept : call ≠ .tfsUnlink (some path)) :
    model'.LinksTo path target := by
  cases step with
  | opens _ opened =>
      cases opened with
      | @created id _ _ _ missing _ _ _ _ _ handle =>
          have bound : ((model.setFile id []).bind _ id).LinksTo path target :=
            Model.LinksTo.bind links missing id
          exact bound.of_same handle.names.1 handle.names.2
      | existing _ _ _ _ handle => exact links.of_same handle.names.1 handle.names.2
      | _ => exact links
  | @closes handle id _ _ =>
      have closed : (model.closeHandle handle).LinksTo path target := links
      exact closed.collect id
  | writes _ _ written => cases written <;> exact links
  | reads _ _ _ => exact links
  | @symLinks other link id _ _ _ _ _ _ missing _ fresh =>
      refine @Model.LinksTo.bind (model.setLink id other) _ _ _ ?_ missing id
      obtain ⟨valid, held, names, stored⟩ := links
      have different : held ≠ id := by
        intro same
        rw [same, fresh.2] at stored
        cases stored
      exact ⟨valid, held, names, (Function.update_of_ne different _ _).trans stored⟩
  | links _ _ _ _ _ missing _ => exact links.bind missing _
  | @unlinks other id otherValid _ =>
      refine Model.LinksTo.collect ?_ id
      obtain ⟨valid, held, names, stored⟩ := links
      have different : path.tail ≠ other.tail := by
        intro same
        exact kept (by rw [valid.eq_of_tail otherValid same])
      exact ⟨valid, held, (Function.update_of_ne different _ _).trans names, stored⟩
  | _ => exact links

theorem Model.LinksTo.of_collect {path target : CString} {id : Nat}
    (links : (model.collect id).LinksTo path target) : model.LinksTo path target := by
  unfold Model.collect at links
  split at links
  · exact links
  · obtain ⟨valid, held, names, stored⟩ := links
    refine ⟨valid, held, names, ?_⟩
    change Function.update model.links id none held = some target at stored
    rw [Function.update_apply] at stored
    split at stored
    · cases stored
    · exact stored

/-- A name bound to an inode that is no link leads nowhere. -/
theorem Model.LinksTo.of_bind {path target name : CString} {id : Nat}
    (links : (model.bind name id).LinksTo path target) :
    model.LinksTo path target ∨ path.tail = name ∧ model.links id = some target := by
  obtain ⟨valid, held, names, stored⟩ := links
  change Function.update model.names name (some id) path.tail = some held at names
  rw [Function.update_apply] at names
  split at names
  · rename_i same
    rw [Option.some.injEq] at names
    subst names
    exact Or.inr ⟨same, stored⟩
  · exact Or.inl ⟨valid, held, names, stored⟩

theorem Model.LinksTo.of_unbind {path target name : CString}
    (links : (model.unbind name).LinksTo path target) : model.LinksTo path target := by
  obtain ⟨valid, held, names, stored⟩ := links
  change Function.update model.names name none path.tail = some held at names
  rw [Function.update_apply] at names
  split at names
  · cases names
  · exact ⟨valid, held, names, stored⟩

/-- A step makes no link but the one `tfs_sym_link` is asked for. -/
theorem Model.Step.linksTo_from {path target : CString}
    (step : model.Step resources blockSize call result model')
    (kinds : ∀ id contents, model.files id = some contents → model.links id = none)
    (named : ∀ name id, model.names name = some id → ¬ model.Fresh id)
    (links : model'.LinksTo path target) :
    model.LinksTo path target ∨
      call = .tfsSymLink (some target) (some path) ∧ model.names path.tail = none := by
  cases step with
  | opens _ opened =>
      left
      cases opened with
      | @created id _ _ _ _ _ _ _ _ fresh handle =>
          have before := links.of_same handle.names.1.symm handle.names.2.symm
          rcases Model.LinksTo.of_bind before with old | ⟨_, stored⟩
          · exact old
          · rw [show (model.setFile id []).links id = none from fresh.2] at stored
            cases stored
      | existing _ _ _ _ handle =>
          exact links.of_same handle.names.1.symm handle.names.2.symm
      | _ => exact links
  | @closes handle id _ _ =>
      exact Or.inl (@Model.LinksTo.of_collect (model.closeHandle handle) _ _ id links)
  | writes _ _ written =>
      left
      cases written <;> exact links
  | reads _ _ _ => exact Or.inl links
  | @symLinks other link id _ linkValid _ _ _ _ missing _ fresh =>
      have target_of {held : Nat} (stored : (model.setLink id other).links held = some target) :
          (held = id ∧ other = target) ∨ model.links held = some target := by
        change Function.update model.links id (some other) held = some target at stored
        rw [Function.update_apply] at stored
        split at stored
        · rename_i same
          exact Or.inl ⟨same, Option.some.inj stored⟩
        · exact Or.inr stored
      rcases Model.LinksTo.of_bind links with ⟨valid, held, names, stored⟩ | ⟨same, stored⟩
      · left
        rcases target_of stored with ⟨rfl, _⟩ | before
        · exact (named path.tail held names fresh).elim
        · exact ⟨valid, held, names, before⟩
      · right
        rcases target_of stored with ⟨_, rfl⟩ | before
        · rw [links.1.eq_of_tail linkValid same]
          exact ⟨rfl, missing⟩
        · rw [fresh.2] at before
          cases before
  | @links _ _ id _ _ _ _ holds _ _ _ =>
      left
      rcases Model.LinksTo.of_bind links with old | ⟨_, stored⟩
      · exact old
      · rw [kinds id _ holds] at stored
        cases stored
  | unlinks _ _ => exact Or.inl (Model.LinksTo.of_unbind (Model.LinksTo.of_collect links))
  | _ => exact Or.inl links

/-! ### Links of the tables -/

theorem Represents.kinds (represents : Represents state model) (id : Nat) (contents : List UInt8)
    (holds : model.files id = some contents) : model.links id = none := by
  rw [Option.eq_none_iff_forall_ne_some]
  intro target links
  have isFile := ((represents.files id contents).mp holds).2.1
  rw [((represents.links id target).mp links).2.1] at isFile
  cases isFile

theorem Represents.named (represents : Represents state model) (inv : Invariant state none)
    (name : CString) (id : Nat) (names : model.names name = some id) : ¬ model.Fresh id := by
  rintro ⟨noFile, noLink⟩
  obtain ⟨nonzero, taken⟩ := inv.binds_taken ((represents.names name id).mp names)
  cases kind : (state.inodeTable id).iNodeType with
  | tFile =>
      rw [(represents.files id _).mpr ⟨taken, kind, rfl⟩] at noFile
      cases noFile
  | tDirectory => exact inv.inodes.onlyRoot id taken nonzero kind
  | tSymLink =>
      obtain ⟨target, links⟩ := represents.stored id taken kind
      rw [links] at noLink
      cases noLink

/-- Neither the call nor a call it is made of unlinks the path. -/
theorem Expands.keeps_link {trace : List (Call × CallResult)} {path : CString}
    (expands : Expands call result trace) (kept : call ≠ .tfsUnlink (some path)) :
    ∀ entry, entry ∈ trace → entry.1 ≠ .tfsUnlink (some path) := by
  rintro entry member
  rcases expands.single_or_isData with one | all
  · subst one
    rw [List.mem_singleton] at member
    subst entry
    exact kept
  · intro same
    have isData := all entry member
    rw [same] at isData
    exact isData

theorem RefinedTrace.linksTo_kept {trace : List (Call × CallResult)} {path target : CString}
    (refined : RefinedTrace blockSize state model trace state' model')
    (kept : ∀ entry, entry ∈ trace → entry.1 ≠ .tfsUnlink (some path))
    (links : model.LinksTo path target) : model'.LinksTo path target := by
  induction refined with
  | nil => exact links
  | cons step _ _ inductionHypothesis =>
      exact inductionHypothesis (fun entry member => kept entry (List.mem_cons_of_mem _ member))
        (step.linksTo_kept links (kept _ List.mem_cons_self))

/-- A returned call keeps a link unless it unlinks it. -/
theorem linksTo_kept {path target : CString} (represents : Represents state model)
    (inv : Invariant state none) (admissible : call.Admissible state.blockSize)
    (returned : call.run state = .ok (result, state')) (kept : call ≠ .tfsUnlink (some path))
    (links : state.LinksTo path target) : state'.LinksTo path target := by
  obtain ⟨trace, expands, effects⟩ := call_effects inv returned
  obtain ⟨model', refined, represents'⟩ :=
    effects.refines represents inv rfl (expands.backed admissible)
  rw [represents'.linksTo (effects.invariant inv)]
  exact refined.linksTo_kept (expands.keeps_link kept) ((represents.linksTo inv).mp links)

/-- A successful `tfs_sym_link` makes its link. -/
theorem linksTo_made {target link : CString} (represents : Represents state model)
    (inv : Invariant state none) (short : target.strlen < state.blockSize)
    (returned : tfsSymLink (some target) (some link) state = .ok (0, state')) :
    state'.LinksTo link target := by
  have ran : Call.run (.tfsSymLink (some target) (some link)) state = .ok (⟨0, []⟩, state') := by
    change (tfsSymLink (some target) (some link) >>= _) state = _
    rw [bind_of_ok returned]
    rfl
  obtain ⟨trace, expands, effects⟩ := call_effects inv ran
  obtain ⟨model', refined, represents'⟩ :=
    effects.refines represents inv rfl (expands.backed short)
  rw [represents'.linksTo (effects.invariant inv)]
  cases expands with
  | single _ _ =>
      cases refined with
      | cons step _ rest =>
          cases rest
          cases step with
          | @symLinks _ _ id _ linkValid _ _ _ _ _ _ _ =>
              exact ⟨linkValid, id, Function.update_self _ _ _, Function.update_self _ _ _⟩

/-! ### Opening a link -/

/-- An open of a missing name that returns a handle creates the file at the end of the
links. -/
theorem tfsOpen_creates (inv : Invariant state none) {path final : CString} {mode : TfsFileMode}
    {handle : Int} (resolves : state.Resolves path final)
    (missing : ∀ inode, ¬ state.Binds final.tail inode)
    (returned : tfsOpen (some path) mode state = .ok (handle, state')) (opened : handle ≠ -1) :
    ∃ inode : Nat, ¬ state.InodeTaken inode ∧ state'.Binds final.tail inode ∧
      state'.inodeTable inode = newInode .tFile ∧
      (state'.openFileTable handle.toNat).ofInumber = (inode : Int) := by
  have effect := (@outcome_tfsOpen (fun _ => True) _ inv (Or.inl trivial) (Or.inl trivial)
    (some path) mode (fun _ _ _ => trivial)).of_ok returned
  cases effect with
  | @opens _ last _ _ _ lastResolves effect =>
      have same := inv.final_unique resolves lastResolves
        (fun next links => missing _ links.2.choose_spec.1) (effect.final inv)
      subst same
      cases effect with
      | existing _ binds _ _ => exact (missing _ binds).elim
      | @created inode slot _ _ _ unbound _ first short dead handleEffect =>
          cases handleEffect with
          | full _ => exact (opened rfl).elim
          | @opened place _ =>
              refine ⟨inode, first.unused, ?_, ?_, ?_⟩
              · exact (@State.bindEntry_binds (state.takeInode inode (newInode .tFile)) _ _ _
                  short first.1 dead unbound _ _).mpr (by rw [if_pos rfl])
              · exact Function.update_self _ _ _
              · rw [Int.toNat_natCast]
                have entry : (((state.created inode slot final.tail).openHandle place
                    { ofInumber := inode, ofOffset := 0 }).openFileTable place) =
                      { ofInumber := inode, ofOffset := 0 } := Function.update_self _ _ _
                rw [entry]
      | _ => exact (opened rfl).elim

theorem Reachable.symLinks {before after : State} {target link : CString} {made : Int}
    (reachable : Reachable params (AdmissibleIn params) before)
    (short : target.strlen < params.blockSize)
    (returned : tfsSymLink (some target) (some link) before = .ok (made, after)) :
    Reachable params (AdmissibleIn params) after := by
  have ran : Call.run (.tfsSymLink (some target) (some link)) before =
      .ok (⟨made, []⟩, after) := by
    change (tfsSymLink (some target) (some link) >>= _) before = _
    rw [bind_of_ok returned]
    rfl
  exact @Reachable.call _ _ _ _ (.tfsSymLink (some target) (some link)) _ reachable short ran

theorem Reachable.linksTo_made {before after : State} {target link : CString}
    (reachable : Reachable params (AdmissibleIn params) before)
    (short : target.strlen < params.blockSize)
    (made : tfsSymLink (some target) (some link) before = .ok (0, after)) :
    after.LinksTo link target := by
  obtain ⟨_, represents, _⟩ := reachable.represents
  obtain ⟨inv, same⟩ := reachable.invariant
  subst same
  exact FileSystem.linksTo_made represents inv short made

theorem Reachable.linksTo_kept {path target : CString}
    (reachable : Reachable params (AdmissibleIn params) state)
    (admissible : AdmissibleIn params state call)
    (returned : call.run state = .ok (result, state')) (kept : call ≠ .tfsUnlink (some path))
    (links : state.LinksTo path target) : state'.LinksTo path target := by
  obtain ⟨_, represents, _⟩ := reachable.represents
  obtain ⟨inv, same⟩ := reachable.invariant
  subst same
  exact FileSystem.linksTo_kept represents inv admissible returned kept links

/-- From the `tfs_sym_link` that made it until it is unlinked, a symbolic link opens as its
target does.  Only a directory of 2 ^ 31 slots makes the search for a name undefined. -/
theorem symLink_transparent {before after : State} {target link : CString}
    (reachable : Reachable params (AdmissibleIn params) before)
    (short : target.strlen < params.blockSize)
    (made : tfsSymLink (some target) (some link) before = .ok (0, after))
    (later : Later (fun now call => AdmissibleIn params now call ∧
      call ≠ .tfsUnlink (some link)) after state) :
    state.LinksTo link target ∧
    (∀ mode, ¬ state.FollowsCycle target →
      tfsOpen (some link) mode state = tfsOpen (some target) mode state ∨
        (2 ^ 31 ≤ params.blockSize / dirEntrySize ∧
          tfsOpen (some link) mode state = .error .undefined)) ∧
    (∀ mode final, state.Resolves target final → ¬ state.FollowsCycle final →
      tfsOpen (some link) mode state = tfsOpen (some final) mode state ∨
        (2 ^ 31 ≤ params.blockSize / dirEntrySize ∧
          tfsOpen (some link) mode state = .error .undefined)) ∧
    (∀ mode final handle opened, state.Resolves target final →
      (∀ inode, ¬ state.Binds final.tail inode) →
      tfsOpen (some link) mode state = .ok (handle, opened) → handle ≠ -1 →
      ∃ inode : Nat, ¬ state.InodeTaken inode ∧ opened.Binds final.tail inode ∧
        opened.inodeTable inode = newInode .tFile ∧
        (opened.openFileTable handle.toNat).ofInumber = (inode : Int)) := by
  have reached := reachable.symLinks short made
  have links : state.LinksTo link target := by
    induction later with
    | refl => exact reachable.linksTo_made short made
    | call earlier permitted returned inductionHypothesis =>
        exact (reached.later (fun _ _ allowed => allowed.1) earlier).linksTo_kept permitted.1
          returned permitted.2 inductionHypothesis
  obtain ⟨invNow, sameNow⟩ := (reached.later (fun _ _ permitted => permitted.1) later).invariant
  subst sameNow
  refine ⟨links, ?_, ?_, ?_⟩
  · intro mode acyclic
    exact tfsOpen_linksTo invNow links acyclic mode
  · intro mode final resolves acyclic
    exact tfsOpen_resolves invNow (.head links resolves) acyclic mode
  · intro mode final handle opened resolves missing returned obtained
    exact tfsOpen_creates invNow (.head links resolves) missing returned obtained

/-- The link `/b` to `/a`, made before the file was, opened after `/a` was created, written,
removed and created again -/
theorem symLink_transparent_recreated :
    ∃ before after state, tfsSymLink (some pathA) (some pathB) before = .ok (0, after) ∧
      Later (fun now call => AdmissibleIn smallParams now call ∧
        call ≠ .tfsUnlink (some pathB)) after state ∧
      tfsOpen (some pathB) ⟨false, true, false⟩ state =
        tfsOpen (some pathA) ⟨false, true, false⟩ state := by
  let calls : List Call := [.tfsOpen (some pathA) ⟨true, false, false⟩,
    .tfsWrite 0 (some [1, 2]) 2, .tfsClose 0, .tfsUnlink (some pathA),
    .tfsOpen (some pathA) ⟨true, false, false⟩]
  obtain ⟨before, started, computed⟩ := afterCalls_any smallParams [] (fun before =>
    returnsWith (tfsSymLink (some pathA) (some pathB) before) (fun result after =>
      result == 0 && (runCalls calls after).any (fun state =>
        returnsWith (tfsOpenFuel 1 (some pathA) ⟨false, true, false⟩ state) (fun _ _ => true))))
    (by decide +kernel)
  obtain ⟨result, after, made, computed⟩ := of_returnsWith computed
  rw [Bool.and_eq_true, beq_iff_eq] at computed
  rw [computed.1] at made
  obtain ⟨state, ran, opens⟩ := (Option.any_eq_true _ _).mp computed.2
  have later := @Later.runCalls (fun now call => AdmissibleIn smallParams now call ∧
    call ≠ .tfsUnlink (some pathB)) after calls after state .refl (fun call member now => by
      simp only [calls, List.mem_cons, List.not_mem_nil, or_false] at member
      rcases member with rfl | rfl | rfl | rfl | rfl
      · exact ⟨trivial, by simp⟩
      · exact ⟨⟨by decide, by decide⟩, by simp⟩
      · exact ⟨trivial, by simp⟩
      · exact ⟨trivial, by simp [pathA, pathB]⟩
      · exact ⟨trivial, by simp⟩) ran
  have reachable : Reachable smallParams (AdmissibleIn smallParams) before :=
    .afterCalls (fun _ member => by cases member) started
  have transparent := symLink_transparent reachable (by decide) made later
  refine ⟨before, after, state, made, later, ?_⟩
  obtain ⟨handle, opened', opened, _⟩ := of_returnsWith opens
  have acyclic : ¬ state.FollowsCycle pathA := by
    intro cycle
    have now := (reachable.symLinks (by decide) made).later (fun _ _ permitted => permitted.1)
      later
    exact tfsOpenFuel_not_ok now.invariant.1 cycle _ _ _ _ opened
  rcases transparent.2.1 _ acyclic with same | ⟨tooWide, _⟩
  · exact same
  · exact (Nat.not_le_of_lt (by decide) tooWide).elim

/-! ### Links that lead to each other -/

/-- The call makes no link whose target leads to the new name. -/
def ClosesNoCycle (params : TfsParams) (state : State) (call : Call) : Prop :=
  AdmissibleIn params state call ∧ ∀ target link,
    call = .tfsSymLink (some target) (some link) →
      (∀ inode, ¬ state.Binds link.tail inode) → ¬ state.Resolves target link

theorem Represents.resolves_of_model (represents : Represents state model)
    (inv : Invariant state none) {path final : CString} (resolves : model.Resolves path final) :
    state.Resolves path final :=
  Relation.ReflTransGen.mono (fun _ _ linksTo => (represents.linksTo inv).mpr linksTo) path final
    resolves

/-- A step that closes no cycle leaves none. -/
theorem CallEffect.acyclic (effect : CallEffect state call result state')
    (represents : Represents state model) (inv : Invariant state none)
    (backed : call.Backed state.blockSize)
    (apart : ∀ target link, call = .tfsSymLink (some target) (some link) →
      (∀ inode, ¬ state.Binds link.tail inode) → ¬ state.Resolves target link)
    (acyclic : ∀ path, ¬ state.FollowsCycle path) (path : CString) :
    ¬ state'.FollowsCycle path := by
  obtain ⟨model', step, represents'⟩ := effect.refines represents inv backed
  have from_before {first last : CString} (links : state'.LinksTo first last) :
      state.LinksTo first last ∨
        call = .tfsSymLink (some last) (some first) ∧ model.names first.tail = none := by
    rw [represents'.linksTo (effect.invariant inv)] at links
    exact (step.linksTo_from represents.kinds (represents.named inv) links).imp
      (represents.linksTo inv).mpr id
  by_cases makes : ∃ target link, call = .tfsSymLink (some target) (some link) ∧
      model.names link.tail = none
  · obtain ⟨target, link, same, missing⟩ := makes
    refine Chains.not_reachesCycle_of_added (fun left right links => ?_)
      (apart target link same (represents.names_none.mp missing)) acyclic path
    refine (from_before links).imp id ?_
    rintro ⟨again, _⟩
    rw [same] at again
    injection again with targets links
    exact ⟨(Option.some.inj links).symm, (Option.some.inj targets).symm⟩
  · intro cycle
    refine acyclic path ?_
    obtain ⟨point, toPoint, around⟩ := cycle
    have old {first last : CString} (links : state'.LinksTo first last) :
        state.LinksTo first last :=
      (from_before links).resolve_right (fun made => makes ⟨_, _, made⟩)
    exact ⟨point, Relation.ReflTransGen.mono (fun _ _ => old) _ _ toPoint,
      Relation.TransGen.mono (fun _ _ => old) _ _ around⟩

theorem TraceEffect.acyclic {trace : List (Call × CallResult)}
    (effects : TraceEffect state trace state') (represents : Represents state model)
    (inv : Invariant state none)
    (all : ∀ entry, entry ∈ trace → entry.1.IsData ∧ entry.1.Backed state.blockSize)
    (acyclic : ∀ path, ¬ state.FollowsCycle path) (path : CString) :
    ¬ state'.FollowsCycle path := by
  have kept := @TraceEffect.preserves _ _ _
    (fun now => now.blockSize = state.blockSize ∧ (∃ model, Represents now model) ∧
      ∀ path, ¬ now.FollowsCycle path)
    (fun call => call.IsData ∧ call.Backed state.blockSize) ?_ effects inv all
    ⟨rfl, ⟨model, represents⟩, acyclic⟩
  · exact kept.2.2 path
  · rintro before call result after held ⟨isData, backed⟩ effect ⟨size, ⟨now, holds⟩, none⟩
    rw [← size] at backed
    refine ⟨(congrArg TfsParams.blockSize effect.fsParams).trans size, ?_, ?_⟩
    · obtain ⟨later, _, represents'⟩ := effect.refines holds held backed
      exact ⟨later, represents'⟩
    · refine effect.acyclic holds held backed ?_ none
      rintro target link rfl
      exact isData.elim

/-- Without a `tfs_sym_link` that closes a cycle no path leads into one. -/
theorem Reachable.acyclic (reachable : Reachable params (ClosesNoCycle params) state) :
    ∀ path, ¬ state.FollowsCycle path := by
  induction reachable with
  | init returned =>
      rintro path ⟨point, _, around⟩
      obtain ⟨_, links, _⟩ := Relation.TransGen.head'_iff.mp around
      obtain ⟨_, inode, binds, _⟩ := links
      exact (tfsInit_initial returned).1.not_binds _ _ binds
  | call before permitted returned inductionHypothesis =>
      obtain ⟨model, represents, _⟩ := (before.mono (fun _ _ allowed => allowed.1)).represents
      obtain ⟨inv, same⟩ := before.invariant
      subst same
      obtain ⟨trace, expands, effects⟩ := call_effects inv returned
      have backed := expands.backed permitted.1
      rcases expands.single_or_isData with one | all
      · subst one
        cases effects with
        | cons effect rest =>
            cases rest
            exact effect.acyclic represents inv (backed _ List.mem_cons_self) permitted.2
              inductionHypothesis
      · exact effects.acyclic represents inv
          (fun entry member => ⟨all entry member, backed entry member⟩) inductionHypothesis

/-- `tfs_open` returns exactly where no cycle of symbolic links is met, and a run whose
`tfs_sym_link` calls close no cycle meets none. -/
theorem tfs_open_terminates (params : TfsParams) :
    (∀ state, Reachable params (AdmissibleIn params) state → params.Fits → ∀ name mode,
      (∃ fuel result state', tfsOpenFuel fuel name mode state = .ok (result, state')) ↔
        ∀ path, name = some path → ¬ state.FollowsCycle path) ∧
    (∀ state, Reachable params (ClosesNoCycle params) state → params.Fits → ∀ name mode,
      ∃ result state', tfsOpen name mode state = .ok (result, state')) ∧
    (∀ state, Reachable params (fun _ _ => True) state → ∀ path mode,
      (state.FollowsCycle path → ∀ fuel result state',
        tfsOpenFuel fuel (some path) mode state ≠ .ok (result, state')) ∧
      (¬ state.FollowsCycle path → tfsOpen (some path) mode state = .error .undefined ∨
        ∃ result state', tfsOpen (some path) mode state = .ok (result, state'))) := by
  have returns {state : State} (reachable : Reachable params (AdmissibleIn params) state)
      (fits : params.Fits) (name : Option CString) (mode : TfsFileMode)
      (acyclic : ∀ path, name = some path → ¬ state.FollowsCycle path) :
      ∃ result state', tfsOpen name mode state = .ok (result, state') := by
    obtain ⟨model, represents, _⟩ := reachable.represents
    obtain ⟨inv, same⟩ := reachable.invariant
    subst same
    obtain ⟨result, state', returned, _⟩ := (@outcome_tfsOpen (fun _ => False) _ inv (Or.inr fits)
      (represents.readable inv.geometry) name mode acyclic).returns
    exact ⟨result, state', returned⟩
  refine ⟨?_, ?_, ?_⟩
  · intro state reachable fits name mode
    constructor
    · rintro ⟨fuel, result, state', returned⟩ path rfl cycle
      exact tfsOpenFuel_not_ok reachable.invariant.1 cycle mode fuel result state' returned
    · intro acyclic
      obtain ⟨result, state', returned⟩ := returns reachable fits name mode acyclic
      exact ⟨_, result, state', returned⟩
  · intro state reachable fits name mode
    exact returns (reachable.mono (fun _ _ allowed => allowed.1)) fits name mode
      (fun path _ => reachable.acyclic path)
  · intro state reachable path mode
    have inv := reachable.invariant.1
    constructor
    · intro cycle fuel result state' returned
      exact tfsOpenFuel_not_ok inv cycle mode fuel result state' returned
    · intro acyclic
      have outcome := @outcome_tfsOpen (fun fault => fault = .undefined) _ inv (Or.inl rfl)
        (Or.inl rfl) (some path) mode (fun other same cycle => by
          cases same
          exact (acyclic cycle).elim)
      cases run : tfsOpen (some path) mode state with
      | error fault =>
          rw [outcome.of_error run]
          exact Or.inl rfl
      | ok pair => exact Or.inr ⟨pair.1, pair.2, rfl⟩

/-- Opening `/a` after `/b` was linked to `/a` and `/a` to `/b` never ends. -/
theorem tfs_open_cycle :
    ¬ ∀ state, Reachable smallParams (fun _ _ => True) state → ∀ name mode,
      ∃ fuel result state', tfsOpenFuel fuel name mode state = .ok (result, state') := by
  intro claimed
  obtain ⟨before, started, computed⟩ := afterCalls_any smallParams [] (fun before =>
    returnsWith (tfsSymLink (some pathA) (some pathB) before) (fun result middle =>
      result == 0 && returnsWith (tfsSymLink (some pathB) (some pathA) middle)
        (fun result _ => result == 0))) (by decide +kernel)
  have reachable : Reachable smallParams (AdmissibleIn smallParams) before :=
    .afterCalls (fun _ member => by cases member) started
  obtain ⟨result, middle, first, computed⟩ := of_returnsWith computed
  rw [Bool.and_eq_true, beq_iff_eq] at computed
  rw [computed.1] at first
  obtain ⟨result', after, second, passed⟩ := of_returnsWith computed.2
  rw [eq_of_beq passed] at second
  have reachedMiddle := reachable.symLinks (by decide) first
  have reached := reachedMiddle.symLinks (by decide) second
  have ran : Call.run (.tfsSymLink (some pathB) (some pathA)) middle = .ok (⟨0, []⟩, after) := by
    change (tfsSymLink (some pathB) (some pathA) >>= _) middle = _
    rw [bind_of_ok second]
    rfl
  have forth := reachedMiddle.linksTo_made (by decide) second
  have short : AdmissibleIn smallParams middle (.tfsSymLink (some pathB) (some pathA)) :=
    (by decide : pathB.strlen < smallParams.blockSize)
  have back := reachedMiddle.linksTo_kept short ran (by simp)
    (reachable.linksTo_made (by decide) first)
  obtain ⟨fuel, result, state', returned⟩ := claimed after
    (reached.mono (fun _ _ _ => trivial)) (some pathA) ⟨false, false, false⟩
  exact tfsOpenFuel_not_ok reached.invariant.1 ⟨pathA, .refl, .head forth (.single back)⟩ _ _ _ _
    returned

end TecnicoFS.FileSystem
