/-
The file system under the broker.

The handlers open, close, read, write and unlink and never make a link, so every path
names its file directly and every file has one name at most.  The lemmas say what each
call of a handler does to the abstract file system.
-/

import TecnicoFS.Mbroker.Handlers

set_option autoImplicit false

namespace TecnicoFS.Mbroker

open FileSystem

/-- The calls the handlers make -/
inductive Served : Call → Prop where
  | opens (boxName : CString) (creat append : Bool) :
      Served (.tfsOpen (some boxName) ⟨creat, false, append⟩)
  | closes (f : Int) : Served (.tfsClose f)
  | writes (f : Int) (message : Message) : Served (writeCall f message)
  | reads (f : Int) : Served (readCall f)
  | unlinks (boxName : CString) : Served (.tfsUnlink (some boxName))

/-- The tables the handlers can reach, with the abstract file system they represent -/
structure Files (params : MbrokerParams) (fs : FileSystem.State) (model : Model Nat) :
    Prop where
  reachable : FileSystem.Reachable params.tfsParams (fun _ call => Served call) fs
  represents : Represents fs model
  noLinks : ∀ id, model.links id = none
  oneName : ∀ left right id, model.names left = some id → model.names right = some id →
    left = right

variable {params : MbrokerParams} {fs fs' : FileSystem.State} {model model' : Model Nat}

theorem Served.admissible {call : Call} (served : Served call) :
    call.Admissible params.tfsParams.blockSize := by
  cases served with
  | writes _ message =>
      constructor
      · exact Nat.le_of_eq message.length_eq.symm
      · change 1024 + 1024 * 1024 < 2 ^ 64
        decide
  | opens _ _ _ => trivial
  | closes _ => trivial
  | reads _ => trivial
  | unlinks _ => trivial

namespace Files

theorem invariant (files : Files params fs model) :
    Invariant fs none ∧ fs.fsParams = params.tfsParams := files.reachable.invariant

theorem inodeTableSize (files : Files params fs model) : fs.inodeTableSize = 64 := by
  unfold State.inodeTableSize
  rw [files.invariant.2]
  rfl

theorem blockSize (files : Files params fs model) : fs.blockSize = 1024 * 1024 := by
  unfold State.blockSize
  rw [files.invariant.2]
  rfl

theorem maxOpenFiles (files : Files params fs model) : fs.maxOpenFiles = params.maxSessions := by
  unfold State.maxOpenFiles
  rw [files.invariant.2]
  rfl

/-- What `tfs_init` leaves -/
theorem init {succeeds : Nat → Bool} {garbage : Garbage}
    (returned : tfsInit succeeds garbage params.tfsParams = .ok (0, some fs)) :
    Files params fs Model.empty where
  reachable := .init returned
  represents := (tfsInit_initial returned).1.represents
  noLinks _ := rfl
  oneName _ _ _ impossible := by cases impossible

/-! ### Names and handles -/

/-- Names of files lead to inodes other than the root's. -/
theorem name_inode (files : Files params fs model) {name : CString} {id : Nat}
    (names : model.names name = some id) : 0 < id ∧ id < 64 := by
  obtain ⟨nonzero, taken⟩ :=
    files.invariant.1.binds_taken ((files.represents.names name id).mp names)
  constructor
  · exact Nat.pos_of_ne_zero nonzero
  · rw [← files.inodeTableSize]
    exact taken.1

theorem handle_lt (files : Files params fs model) {handle : Nat}
    (opened : model.handles handle ≠ none) : handle < params.maxSessions := by
  rw [Ne, files.represents.handles_none files.invariant.1, not_not] at opened
  rw [← files.maxOpenFiles]
  exact opened.1

theorem handleFree (files : Files params fs model) {handle : Nat}
    (inside : handle < params.maxSessions) (closed : model.handles handle = none) :
    fs.resources.handleFree := by
  rw [files.represents.handles_none files.invariant.1] at closed
  rw [← files.maxOpenFiles] at inside
  refine ⟨handle, inside, ?_⟩
  cases mark : fs.freeOpenFileEntries handle with
  | free => rfl
  | taken => exact (closed ⟨inside, mark⟩).elim

theorem handle_file (files : Files params fs model) {handle id offset : Nat}
    (holds : model.handles handle = some (id, offset)) :
    ∃ contents, model.files id = some contents :=
  ⟨_, files.represents.handles_files files.invariant.1 holds⟩

theorem resolves (files : Files params fs model) {path final : CString}
    (resolves : model.Resolves path final) : final = path := by
  rcases Relation.ReflTransGen.cases_head resolves with same | ⟨_, ⟨_, id, _, links⟩, _⟩
  · exact same.symm
  · rw [files.noLinks id] at links
    cases links

end Files

/-! ### Calls -/

theorem collect_names (model : Model Nat) (id : Nat) : (model.collect id).names = model.names := by
  unfold Model.collect
  split
  · rfl
  · rfl

theorem collect_links (model : Model Nat) (id other : Nat)
    (unlinked : model.links other = none) : (model.collect id).links other = none := by
  unfold Model.collect
  split
  · exact unlinked
  · by_cases same : other = id
    · subst other
      exact Function.update_self _ _ _
    · exact (Function.update_of_ne same _ _).trans unlinked

theorem collect_handles (model : Model Nat) (id : Nat) :
    (model.collect id).handles = model.handles := by
  unfold Model.collect
  split
  · rfl
  · rfl

/-- A new name for a file that had none -/
theorem bind_oneName {model : Model Nat} {name : CString} {id : Nat}
    (oneName : ∀ left right id, model.names left = some id → model.names right = some id →
      left = right)
    (unnamed : ∀ other, model.names other ≠ some id) :
    ∀ left right other, (model.bind name id).names left = some other →
      (model.bind name id).names right = some other → left = right := by
  intro left right other leftNames rightNames
  change Function.update model.names name (some id) left = some other at leftNames
  change Function.update model.names name (some id) right = some other at rightNames
  rw [Function.update_apply] at leftNames rightNames
  by_cases leftNew : left = name
  · by_cases rightNew : right = name
    · rw [leftNew, rightNew]
    · rw [if_pos leftNew, Option.some.injEq] at leftNames
      rw [if_neg rightNew, ← leftNames] at rightNames
      exact (unnamed right rightNames).elim
  · by_cases rightNew : right = name
    · rw [if_pos rightNew, Option.some.injEq] at rightNames
      rw [if_neg leftNew, ← rightNames] at leftNames
      exact (unnamed left leftNames).elim
    · rw [if_neg leftNew] at leftNames
      rw [if_neg rightNew] at rightNames
      exact oneName left right other leftNames rightNames

theorem unbind_oneName {model : Model Nat} {name : CString}
    (oneName : ∀ left right id, model.names left = some id → model.names right = some id →
      left = right) :
    ∀ left right other, (model.unbind name).names left = some other →
      (model.unbind name).names right = some other → left = right := by
  have before {path : CString} {other : Nat}
      (holds : (model.unbind name).names path = some other) :
      model.names path = some other := by
    change Function.update model.names name none path = some other at holds
    rw [Function.update_apply] at holds
    by_cases gone : path = name
    · rw [if_pos gone] at holds
      cases holds
    · rwa [if_neg gone] at holds
  intro left right other leftNames rightNames
  exact oneName left right other (before leftNames) (before rightNames)

/-- Without links a name leads to a file. -/
theorem Files.name_file (files : Files params fs model) {name : CString} {id : Nat}
    (named : model.names name = some id) : ∃ contents, model.files id = some contents := by
  obtain ⟨_, taken⟩ := files.invariant.1.binds_taken ((files.represents.names name id).mp named)
  cases kind : (fs.inodeTable id).iNodeType with
  | tFile => exact ⟨_, (files.represents.files id _).mpr ⟨taken, kind, rfl⟩⟩
  | tDirectory =>
      exact (files.invariant.1.inodes.onlyRoot id taken
        (Nat.pos_iff_ne_zero.mp (files.name_inode named).1) kind).elim
  | tSymLink =>
      obtain ⟨target, links⟩ := files.represents.stored id taken kind
      rw [files.noLinks id] at links
      cases links

theorem Files.unnamed (files : Files params fs model) {id : Nat} (fresh : model.Fresh id)
    (name : CString) : model.names name ≠ some id := by
  intro named
  obtain ⟨contents, holds⟩ := files.name_file named
  rw [fresh.1] at holds
  cases holds

/-- No call of a handler makes a link or a second name. -/
theorem Files.plain {call : Call} {result : CallResult} {resources : Resources}
    {blockSize : Nat} (files : Files params fs model) (served : Served call)
    (step : model.Step resources blockSize call result model') :
    (∀ id, model'.links id = none) ∧ ∀ left right id, model'.names left = some id →
      model'.names right = some id → left = right := by
  have same {after : Model Nat} (names : after.names = model.names)
      (links : after.links = model.links) :
      (∀ id, after.links id = none) ∧ ∀ left right id, after.names left = some id →
        after.names right = some id → left = right := by
    rw [names, links]
    exact ⟨files.noLinks, files.oneName⟩
  cases step with
  | opens _ opened =>
      cases opened with
      | created _ _ _ _ _ _ fresh handle =>
          obtain ⟨names, links⟩ := Model.Handle.names handle
          rw [names, links]
          exact ⟨files.noLinks, bind_oneName files.oneName (files.unnamed fresh)⟩
      | existing _ _ _ _ handle =>
          obtain ⟨names, links⟩ := Model.Handle.names handle
          exact same names links
      | _ => exact same rfl rfl
  | closes _ =>
      constructor
      · intro id
        exact collect_links _ _ _ (files.noLinks id)
      · rw [collect_names]
        exact files.oneName
  | writes _ _ written =>
      cases written with
      | _ => exact same rfl rfl
  | reads _ _ _ => exact same rfl rfl
  | unlinks _ _ =>
      constructor
      · intro id
        exact collect_links _ _ _ (files.noLinks id)
      · rw [collect_names]
        exact unbind_oneName files.oneName
  | symLinks _ _ _ _ _ _ _ _ _ => cases served
  | links _ _ _ _ _ _ _ => cases served
  | _ => exact same rfl rfl

theorem Files.step {call : Call} {result : CallResult} (files : Files params fs model)
    (served : Served call) (returned : call.run fs = .ok (result, fs')) :
    ∃ model', model.Step fs.resources (1024 * 1024) call result model' ∧
      Files params fs' model' := by
  have admissible : call.Admissible fs.blockSize := by
    rw [files.blockSize]
    exact @Served.admissible params _ served
  obtain ⟨trace, model', expands, refined, represents⟩ :=
    call_refines files.represents files.invariant.1 admissible returned
  cases expands with
  | single _ _ =>
      cases refined with
      | cons step _ rest =>
          cases rest
          rw [files.blockSize] at step
          obtain ⟨noLinks, oneName⟩ := files.plain served step
          exact ⟨_, step, .call files.reachable served returned, represents, noLinks, oneName⟩
  | _ => cases served

/-- What `tfs_open` does for the path of a box.  A file it creates stays behind when the
open file table is full. -/
inductive OpensBox (params : MbrokerParams) (resources : Resources) (model : Model Nat)
    (boxName : CString) (creat append : Bool) : Int → Model Nat → Prop where
  | refused :
      (ValidPathname boxName → validSubName boxName.tail → model.names boxName.tail = none →
        creat = true → ¬ (resources.inodeFree ∧ resources.entryFree)) →
      (ValidPathname boxName → model.names boxName.tail ≠ none →
        ∀ handle, handle < params.maxSessions → model.handles handle ≠ none) →
      OpensBox params resources model boxName creat append (-1) model
  | stranded {id : Nat} : creat = true → ValidPathname boxName →
      model.names boxName.tail = none → model.Fresh id →
      (∀ handle, handle < params.maxSessions → model.handles handle ≠ none) →
      OpensBox params resources model boxName creat append (-1)
        ((model.setFile id []).bind boxName.tail id)
  | existing {id handle : Nat} {contents : List UInt8} : ValidPathname boxName →
      model.names boxName.tail = some id → model.files id = some contents →
      model.handles handle = none →
      OpensBox params resources model boxName creat append handle
        (model.setHandle handle id (if append = true then contents.length else 0))
  | created {id handle : Nat} : creat = true → ValidPathname boxName →
      model.names boxName.tail = none → model.Fresh id → model.handles handle = none →
      OpensBox params resources model boxName creat append handle
        (((model.setFile id []).bind boxName.tail id).setHandle handle id 0)

theorem setFile_same {id : Nat} {contents : List UInt8} (holds : model.files id = some contents) :
    model.setFile id contents = model := by
  have same : Function.update model.files id (some contents) = model.files := by
    rw [← holds]
    exact Function.update_eq_self _ _
  unfold Model.setFile
  rw [same]

namespace Files

theorem allOpen (files : Files params fs model) (full : ¬ fs.resources.handleFree) :
    ∀ handle, handle < params.maxSessions → model.handles handle ≠ none :=
  fun _ inside closed => full (files.handleFree inside closed)

theorem opens {boxName : CString} {creat append : Bool} {result : CallResult}
    (files : Files params fs model)
    (returned : Call.run (.tfsOpen (some boxName) ⟨creat, false, append⟩) fs =
      .ok (result, fs')) :
    ∃ model', OpensBox params fs.resources model boxName creat append result.length model' ∧
      Files params fs' model' := by
  obtain ⟨model', step, files'⟩ := files.step (.opens boxName creat append) returned
  refine ⟨model', ?_, files'⟩
  cases step with
  | opens resolves opened =>
      have same := files.resolves resolves
      subst same
      cases opened with
      | invalid invalid =>
          exact .refused (fun valid => (invalid valid).elim) (fun valid => (invalid valid).elim)
      | missing _ missing notCreat =>
          apply OpensBox.refused
          · intro _ _ _ isCreat
            rw [show creat = false from notCreat] at isCreat
            cases isCreat
          · intro _ present
            exact (present missing).elim
      | refused _ missing _ refusal =>
          apply OpensBox.refused
          · rintro _ short _ _ ⟨inodeFree, entryFree⟩
            rcases refusal with noInode | tooLong | noEntry
            · exact noInode inodeFree
            · exact tooLong short
            · exact noEntry entryFree
          · intro _ present
            exact (present missing).elim
      | created valid missing isCreat _ _ _ fresh handle =>
          cases handle with
          | full full => exact .stranded isCreat valid missing fresh (files.allOpen full)
          | opened _ closed => exact .created isCreat valid missing fresh closed
      | @existing _ contents bytes _ _ valid names holds kept handle =>
          replace kept : bytes = contents := kept
          subst kept
          rw [setFile_same holds] at handle
          cases handle with
          | full full =>
              apply OpensBox.refused
              · intro _ _ missing
                rw [names] at missing
                cases missing
              · intro _ _
                exact files.allOpen full
          | opened _ closed => exact .existing valid names holds closed

/-- `tfs_close` of a handle, or of -1 -/
theorem closes {f : Int} {result : CallResult} (files : Files params fs model)
    (returned : Call.run (.tfsClose f) fs = .ok (result, fs')) :
    ((∀ handle : Nat, f = handle → model.handles handle = none) ∧ Files params fs' model) ∨
      ∃ (handle id offset : Nat), f = handle ∧ model.handles handle = some (id, offset) ∧
        Files params fs' ((model.closeHandle handle).collect id) := by
  obtain ⟨model', step, files'⟩ := files.step (.closes f) returned
  cases step with
  | closeInvalid closed => exact Or.inl ⟨closed, files'⟩
  | closes holds => exact Or.inr ⟨_, _, _, rfl, holds, files'⟩

/-- `tfs_unlink` of a box -/
theorem unlinks {boxName : CString} {result : CallResult} (files : Files params fs model)
    (returned : Call.run (.tfsUnlink (some boxName)) fs = .ok (result, fs')) :
    ((¬ ValidPathname boxName ∨ model.names boxName.tail = none) ∧ result.length = -1 ∧
        Files params fs' model) ∨
      ∃ id, ValidPathname boxName ∧ model.names boxName.tail = some id ∧ result.length = 0 ∧
        Files params fs' ((model.unbind boxName.tail).collect id) := by
  obtain ⟨model', step, files'⟩ := files.step (.unlinks boxName) returned
  cases step with
  | unlinkInvalid invalid =>
      exact Or.inl ⟨Or.inl (validPathname_none invalid), rfl, files'⟩
  | unlinkMissing missing => exact Or.inl ⟨Or.inr missing, rfl, files'⟩
  | unlinks valid names => exact Or.inr ⟨_, valid, names, rfl, files'⟩

/-- A read or a write moves the offset of its handle and leaves names and handles alone. -/
theorem transfers {call : Call} {result : CallResult} (files : Files params fs model)
    (transfer : (∃ f message, call = writeCall f message) ∨ ∃ f, call = readCall f)
    (returned : call.run fs = .ok (result, fs')) :
    ∃ model', model.Step fs.resources (1024 * 1024) call result model' ∧
      Files params fs' model' ∧ model'.names = model.names ∧
      ∀ handle, (model'.handles handle).map Prod.fst = (model.handles handle).map Prod.fst := by
  have served : Served call := by
    rcases transfer with ⟨f, message, same⟩ | ⟨f, same⟩
    · subst same
      exact .writes f message
    · subst same
      exact .reads f
  obtain ⟨model', step, files'⟩ := files.step served returned
  have moved {handle id offset place : Nat} (holds : model.handles handle = some (id, offset))
      (after : Model Nat) (handles : after.handles = model.handles) (other : Nat) :
      ((after.setHandle handle id place).handles other).map Prod.fst =
        (model.handles other).map Prod.fst := by
    change (Function.update after.handles handle (some (id, place)) other).map Prod.fst = _
    rw [handles, Function.update_apply]
    by_cases same : other = handle
    · rw [if_pos same, same, holds]
      rfl
    · rw [if_neg same]
  refine ⟨model', step, files', ?_⟩
  rcases transfer with ⟨f, message, same⟩ | ⟨f, same⟩
  · subst same
    cases step with
    | writeInvalid _ _ => exact ⟨rfl, fun _ => rfl⟩
    | writes holds _ written =>
        cases written with
        | nothing _ => exact ⟨rfl, moved holds model rfl⟩
        | noBlock _ _ _ => exact ⟨rfl, moved holds model rfl⟩
        | stored _ _ _ => exact ⟨rfl, moved holds _ rfl⟩
  · subst same
    cases step with
    | readInvalid _ _ => exact ⟨rfl, fun _ => rfl⟩
    | reads holds _ _ => exact ⟨rfl, moved holds model rfl⟩

end Files

end TecnicoFS.Mbroker
