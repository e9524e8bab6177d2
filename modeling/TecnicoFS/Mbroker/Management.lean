/-
Managing boxes with one request after another refines a set of names.

The server keeps the names twice, in its box table and in the root directory.  Between two
requests both hold the same names, nobody has a file open and no slot is taken twice, so
what the checks of one table find holds of the other one too.
-/

import TecnicoFS.Mbroker.FileCalls
import TecnicoFS.Mbroker.Listing
import TecnicoFS.Library.FaultAction

set_option autoImplicit false

namespace TecnicoFS.Mbroker

open FileSystem Manager TableSearch

/-! ### Handlers that run on their own -/

inductive ManagerRequest where
  | create (name : CString)
  | remove (name : CString)
  | list
deriving DecidableEq

/-- The name on the wire: 30 bytes at most -/
def ManagerRequest.Short : ManagerRequest → Prop
  | .create name => name.strlen ≤ 30
  | .remove name => name.strlen ≤ 30
  | .list => True

instance : (request : ManagerRequest) → Decidable request.Short
  | .create _ => inferInstanceAs (Decidable (_ ≤ _))
  | .remove _ => inferInstanceAs (Decidable (_ ≤ _))
  | .list => inferInstanceAs (Decidable True)

/-- A return code, or the packets of a listing -/
inductive ManagerAnswer where
  | returnCode (code : Int)
  | boxes (sent : List (List UInt8))

variable {Thread : Type}

/-- `box_create` with both of its sections -/
def Server.boxCreate (server : Server Thread) (boxName : CString) : Int × Server Thread :=
  match server.firstFreeBox with
  | some boxI => (0, (server.takeBox boxI boxName).fillBox boxI boxName)
  | none => (-1, server)

/-- `box_delete` -/
def Server.boxDelete (server : Server Thread) (boxName : CString) : Int × Server Thread :=
  match server.boxFind boxName with
  | some boxI => (0, server.deleteBox boxI boxName)
  | none => (-1, server)

/-- `tfs_close` in front of the answer -/
def Server.closeFile (server : Server Thread) (f returnCode : Int) :
    Except Fault (Int × Server Thread) := do
  let (_, fs) ← Call.run (.tfsClose f) server.fs
  pure (returnCode, server.setFs fs)

/-- `workers_handle_manager_create` -/
def workersHandleManagerCreate (server : Server Thread) (boxName : CString) :
    Except Fault (Int × Server Thread) := do
  let (existing, fs) ← (openPlain boxName).run server.fs
  let server := server.setFs fs
  if 0 ≤ existing.length then
    server.closeFile existing.length (-1)
  else
    let (opened, fs) ← (openCreate boxName).run server.fs
    let server := server.setFs fs
    if opened.length < 0 then
      server.closeFile opened.length (-1)
    else
      let (created, server) := server.boxCreate boxName
      server.closeFile opened.length (if created ≠ 0 then -1 else 0)

/-- `workers_handle_manager_remove` -/
def workersHandleManagerRemove (server : Server Thread) (boxName : CString) :
    Except Fault (Int × Server Thread) := do
  let (deleted, server) := server.boxDelete boxName
  if deleted ≠ 0 then
    pure (-1, server)
  else
    let (result, fs) ← Call.run (.tfsUnlink (some boxName)) server.fs
    pure (if result.length ≠ 0 then -1 else 0, server.setFs fs)

/-- The handler of a request from the manager -/
def handleRequest (server : Server Thread) :
    ManagerRequest → Except Fault (ManagerAnswer × Server Thread)
  | .create name => do
      let (returnCode, server) ← workersHandleManagerCreate server (rootPath name)
      pure (.returnCode returnCode, server)
  | .remove name => do
      let (returnCode, server) ← workersHandleManagerRemove server (rootPath name)
      pure (.returnCode returnCode, server)
  | .list => do
      let (_, sent) ← workersHandleManagerListing server (fun _ => true)
      pure (.boxes sent, server)

/-- Requests handled one after another -/
inductive ManagementRun (start : Server Thread) : List ManagerRequest → Server Thread → Prop where
  | start : ManagementRun start [] start
  | next {requests : List ManagerRequest} {request : ManagerRequest} {answer : ManagerAnswer}
      {server server' : Server Thread} : ManagementRun start requests server →
      handleRequest server request = .ok (answer, server') →
      ManagementRun start (requests ++ [request]) server'

/-! ### The set of names -/

/-- The requests that are answered with 0 -/
def Grants (names : Finset CString) : ManagerRequest → Prop
  | .create name => name.bytes ≠ [] ∧ name ∉ names ∧ names.card < tfsDefaultParams.maxInodeCount - 1
  | .remove name => name ∈ names
  | .list => True

instance (names : Finset CString) :
    (request : ManagerRequest) → Decidable (Grants names request)
  | .create _ => inferInstanceAs (Decidable (_ ∧ _ ∧ _))
  | .remove _ => inferInstanceAs (Decidable (_ ∈ _))
  | .list => inferInstanceAs (Decidable True)

/-- What a request that is granted does to the names -/
def granted (names : Finset CString) : ManagerRequest → Finset CString
  | .create name => insert name names
  | .remove name => names.erase name
  | .list => names

def handleNames (names : Finset CString) (request : ManagerRequest) : Finset CString :=
  if Grants names request then granted names request else names

/-- The names after the requests -/
def namesAfter (requests : List ManagerRequest) : Finset CString :=
  requests.foldl handleNames ∅

/-! ### What holds between two requests -/

/-- Both tables hold exactly the names, and no file is open. -/
structure HoldsNames (server : Server Thread) (names : Finset CString) : Prop where
  boxes : ∀ name, name ∈ names ↔
    ∃ boxI, server.IsTaken boxI ∧ (server.boxesTable boxI).name = rootPath name
  directory : ∀ name, name ∈ names ↔ ∃ inode, server.fs.Binds name inode
  closed : ∀ handle, handle < server.fs.maxOpenFiles →
    server.fs.freeOpenFileEntries handle = .free

/-- The box table and the directory are the same. -/
structure SameTables (server server' : Server Thread) : Prop where
  nBoxes : server'.nBoxes = server.nBoxes
  freeBoxes : server'.freeBoxes = server.freeBoxes
  boxesTable : server'.boxesTable = server.boxesTable
  directory : ∀ name inode, server'.fs.Binds name inode ↔ server.fs.Binds name inode

/-- The answer is that of the set of names. -/
inductive AnswersAs (names : Finset CString) (server server' : Server Thread) :
    ManagerRequest → ManagerAnswer → Prop where
  | granted {request : ManagerRequest} : request ≠ .list → Grants names request →
      AnswersAs names server server' request (.returnCode 0)
  | refused {request : ManagerRequest} : request ≠ .list → ¬ Grants names request →
      SameTables server server' → AnswersAs names server server' request (.returnCode (-1))
  | lists {sent : List (List UInt8)} : SameTables server server' →
      (∀ stack extra rest, ∃ printed, ListsBoxes server stack extra rest sent printed ∧
        (printed.map Line.name).Nodup ∧ ∀ name, name ∈ printed.map Line.name ↔ name ∈ names) →
      AnswersAs names server server' .list (.boxes sent)

/-! ### The invariant -/

variable {params : MbrokerParams} {server server' : Server Thread} {model : Model Nat}
  {names : Finset CString} {name : CString}

/-- The tables between two requests, with the abstract file system -/
structure Manages (params : MbrokerParams) (server : Server Thread) (model : Model Nat)
    (names : Finset CString) : Prop where
  files : Files params server.fs model
  closed : ∀ handle, model.handles handle = none
  bound : ∀ name, name ∈ names ↔ model.names name ≠ none
  taken : ∀ boxI, server.IsTaken boxI →
    boxI < 64 ∧ ∃ name ∈ names, (server.boxesTable boxI).name = rootPath name
  named : ∀ name ∈ names, ∃ boxI, server.IsTaken boxI ∧
    (server.boxesTable boxI).name = rootPath name
  once : ∀ left right, server.IsTaken left → server.IsTaken right →
    (server.boxesTable left).name = (server.boxesTable right).name → left = right
  short : ∀ name ∈ names, name.bytes ≠ [] ∧ name.strlen ≤ 30
  counts : server.CountsBoxes

namespace Manages

theorem present (manages : Manages params server model names) (member : name ∈ names) :
    ∃ id, model.names name = some id :=
  Option.ne_none_iff_exists'.mp ((manages.bound name).mp member)

theorem absent (manages : Manages params server model names) (missing : name ∉ names) :
    model.names name = none := by
  by_contra bound
  exact missing ((manages.bound name).mpr bound)

/-- `box_find` and the search of `box_delete` find the slot of a name. -/
theorem finds (manages : Manages params server model names) (member : name ∈ names) :
    ∃ boxI, server.boxFind (rootPath name) = some boxI := by
  obtain ⟨boxI, taken, named⟩ := manages.named name member
  cases found : server.boxFind (rootPath name) with
  | some other => exact ⟨other, rfl⟩
  | none =>
      have inside := (manages.taken boxI taken).1
      rw [← manages.files.inodeTableSize] at inside
      have fails := firstSlot_eq_none.mp found boxI inside
      rw [Bool.and_eq_false_iff, beq_eq_false_iff_ne, beq_eq_false_iff_ne] at fails
      rcases fails with free | other
      · exact (free taken).elim
      · exact (other named).elim

theorem notFound (manages : Manages params server model names) (missing : name ∉ names) :
    server.boxFind (rootPath name) = none := by
  cases found : server.boxFind (rootPath name) with
  | none => rfl
  | some boxI =>
      obtain ⟨_, taken, named⟩ := server.boxFind_eq_some found
      obtain ⟨_, other, member, otherNamed⟩ := manages.taken boxI taken
      rw [named] at otherNamed
      rw [rootPath_injective otherNamed] at missing
      exact (missing member).elim

/-- With fewer names than slots there is a free slot. -/
theorem slotFree (manages : Manages params server model names) (few : names.card < 64) :
    ∃ boxI, server.firstFreeBox = some boxI := by
  cases found : server.firstFreeBox with
  | some boxI => exact ⟨boxI, rfl⟩
  | none =>
      have allTaken (boxI : Fin 64) : server.IsTaken boxI := by
        have inside : (boxI : Nat) < server.fs.inodeTableSize := by
          rw [manages.files.inodeTableSize]
          exact boxI.isLt
        have fails := firstSlot_eq_none.mp found boxI inside
        rw [beq_eq_false_iff_ne] at fails
        cases mark : server.freeBoxes boxI with
        | free => exact (fails mark).elim
        | taken => exact mark
      choose inside slotName member slotNamed using fun boxI : Fin 64 =>
        manages.taken boxI (allTaken boxI)
      have injective : Function.Injective slotName := by
        intro left right same
        apply Fin.ext
        apply manages.once _ _ (allTaken left) (allTaken right)
        rw [slotNamed, slotNamed, same]
      have many : 64 ≤ names.card := by
        rw [← Fintype.card_fin 64, ← Finset.card_univ]
        exact Finset.card_le_card_of_injOn slotName (fun boxI _ => member boxI)
          (injective.injOn)
      omega

/-- With fewer names than inodes there is a free inode. -/
theorem inodeUnused (manages : Manages params server model names) (few : names.card < 63) :
    ∃ id, 0 < id ∧ id < 64 ∧ ¬ model.Used id := by
  by_contra allUsed
  push Not at allUsed
  have hasName (id : Fin 63) : ∃ name, model.names name = some ((id : Nat) + 1) := by
    rcases allUsed (id + 1) (by omega) (by omega) with named | ⟨handle, offset, holds⟩
    · exact named
    · rw [manages.closed handle] at holds
      cases holds
  choose idName idNamed using hasName
  have injective : Function.Injective idName := by
    intro left right same
    have leftNamed := idNamed left
    rw [same, idNamed right, Option.some.injEq] at leftNamed
    exact Fin.ext (by omega)
  have member (id : Fin 63) : idName id ∈ names := by
    rw [manages.bound, idNamed]
    exact Option.some_ne_none _
  have many : 63 ≤ names.card := by
    rw [← Fintype.card_fin 63, ← Finset.card_univ]
    exact Finset.card_le_card_of_injOn idName (fun id _ => member id) (injective.injOn)
  omega

end Manages

/-! ### Creating -/

/-- Closing the handle of a named file brings back what was before it was opened. -/
theorem Files.reopened {fs fs' : FileSystem.State} {handle id offset : Nat} {result : CallResult}
    (files : Files params fs (model.setHandle handle id offset))
    (closed : model.handles handle = none) (named : model.names name = some id)
    (returned : Call.run (.tfsClose handle) fs = .ok (result, fs')) :
    Files params fs' model := by
  have files' := files.closesHandle (Function.update_self _ _ _) returned
  rw [closeHandle_setHandle closed named] at files'
  exact files'

theorem Manages.sameTables (manages : Manages params server model names)
    (manages' : Manages params server' model names) (nBoxes : server'.nBoxes = server.nBoxes)
    (freeBoxes : server'.freeBoxes = server.freeBoxes)
    (boxesTable : server'.boxesTable = server.boxesTable) : SameTables server server' := by
  refine ⟨nBoxes, freeBoxes, boxesTable, ?_⟩
  intro name inode
  rw [← manages.files.represents.names, ← manages'.files.represents.names]

/-- Only the file system moved, and it represents what it did. -/
theorem Manages.setFs (manages : Manages params server model names) {fs : FileSystem.State}
    (files : Files params fs model) : Manages params (server.setFs fs) model names where
  files := files
  closed := manages.closed
  bound := manages.bound
  taken := manages.taken
  named := manages.named
  once := manages.once
  short := manages.short
  counts := manages.counts.same
    (files.inodeTableSize.trans manages.files.inodeTableSize.symm) rfl rfl

theorem Server.firstFreeBox_setFs {fs : FileSystem.State}
    (size : fs.inodeTableSize = server.fs.inodeTableSize) :
    (server.setFs fs).firstFreeBox = server.firstFreeBox := by
  unfold Server.firstFreeBox
  rw [← size]
  rfl

/-- `closeFile` answers with its code whatever `tfs_close` says. -/
theorem Server.closeFile_eq_ok {f returnCode code : Int}
    (returned : server.closeFile f returnCode = .ok (code, server')) :
    code = returnCode ∧ ∃ result fs, Call.run (.tfsClose f) server.fs = .ok (result, fs) ∧
      server' = server.setFs fs := by
  unfold Server.closeFile at returned
  obtain ⟨⟨result, fs⟩, ran, finished⟩ := Except.bind_eq_ok_iff.mp returned
  cases finished
  exact ⟨rfl, result, fs, ran, rfl⟩

/-- The box took its slot and its file was made. -/
theorem Manages.boxAdded (manages : Manages params server model names) {fs : FileSystem.State}
    {id boxI : Nat} (nonempty : name.bytes ≠ []) (short : name.strlen ≤ 30)
    (missing : name ∉ names) (found : server.firstFreeBox = some boxI)
    (files : Files params fs ((model.setFile id []).bind name id)) :
    Manages params (((server.takeBox boxI (rootPath name)).fillBox boxI (rootPath name)).setFs fs)
      ((model.setFile id []).bind name id) (insert name names) := by
  obtain ⟨inside, free⟩ := server.firstFreeBox_eq_some found
  rw [manages.files.inodeTableSize] at inside
  generalize after : ((server.takeBox boxI (rootPath name)).fillBox boxI (rootPath name)).setFs fs =
    server'
  have takenNew : server'.IsTaken boxI := by
    rw [← after]
    exact server.takeBox_isTaken boxI (rootPath name)
  have namedNew : (server'.boxesTable boxI).name = rootPath name := by
    rw [← after]
    exact Server.fillBox_name _ boxI (rootPath name)
  have takenOther {other : Nat} (different : other ≠ boxI) :
      server'.IsTaken other ↔ server.IsTaken other := by
    rw [← after]
    exact server.takeBox_other (rootPath name) different
  have namedOther {other : Nat} (different : other ≠ boxI) :
      (server'.boxesTable other).name = (server.boxesTable other).name := by
    rw [← after]
    exact congrArg Box.name (Server.fillBox_other _ (rootPath name) different)
  have notOther {other : Nat} (taken : server.IsTaken other) :
      (server.boxesTable other).name ≠ rootPath name := by
    obtain ⟨_, held, member, named⟩ := manages.taken other taken
    intro same
    rw [named] at same
    rw [rootPath_injective same] at member
    exact missing member
  constructor
  · rw [← after]
    exact files
  · exact manages.closed
  · intro other
    change _ ↔ Function.update model.names name (some id) other ≠ none
    rw [Finset.mem_insert, Function.update_apply]
    by_cases same : other = name
    · simp [same]
    · rw [if_neg same, ← manages.bound]
      simp [same]
  · intro other taken
    by_cases same : other = boxI
    · subst same
      exact ⟨inside, name, Finset.mem_insert_self _ _, namedNew⟩
    · obtain ⟨bounded, held, member, named⟩ := manages.taken other ((takenOther same).mp taken)
      refine ⟨bounded, held, Finset.mem_insert_of_mem member, ?_⟩
      rw [namedOther same, named]
  · intro other member
    rcases Finset.mem_insert.mp member with same | member
    · subst same
      exact ⟨boxI, takenNew, namedNew⟩
    · obtain ⟨slot, taken, named⟩ := manages.named other member
      have different : slot ≠ boxI := by
        intro same
        subst same
        exact free taken
      refine ⟨slot, (takenOther different).mpr taken, ?_⟩
      rw [namedOther different, named]
  · intro left right leftTaken rightTaken same
    by_cases leftNew : left = boxI
    · by_cases rightNew : right = boxI
      · rw [leftNew, rightNew]
      · rw [leftNew, namedNew, namedOther rightNew] at same
        exact (notOther ((takenOther rightNew).mp rightTaken) same.symm).elim
    · by_cases rightNew : right = boxI
      · rw [rightNew, namedNew, namedOther leftNew] at same
        exact (notOther ((takenOther leftNew).mp leftTaken) same).elim
      · rw [namedOther leftNew, namedOther rightNew] at same
        exact manages.once left right ((takenOther leftNew).mp leftTaken)
          ((takenOther rightNew).mp rightTaken) same
  · intro other member
    rcases Finset.mem_insert.mp member with same | member
    · subst same
      exact ⟨nonempty, short⟩
    · exact manages.short other member
  · rw [← after]
    exact (manages.counts.takeBox found (rootPath name)).same
      (files.inodeTableSize.trans manages.files.inodeTableSize.symm) rfl rfl

theorem validSubName_short {name : CString} (nonempty : name.bytes ≠ [])
    (short : name.strlen ≤ 30) : validSubName name := by
  rintro (empty | long)
  · exact nonempty (List.length_eq_zero_iff.mp empty)
  · rw [show maxFileName - 1 = 39 from rfl] at long
    omega

/-- What a request for a box is answered, and what it leaves. -/
inductive Manages.Outcome (params : MbrokerParams) (server : Server Thread) (model : Model Nat)
    (names : Finset CString) (request : ManagerRequest) : Int → Server Thread → Prop where
  | granted {server' : Server Thread} {model' : Model Nat} : Grants names request →
      Manages params server' model' (granted names request) →
      Manages.Outcome params server model names request 0 server'
  | refused {fs : FileSystem.State} : ¬ Grants names request → Files params fs model →
      Manages.Outcome params server model names request (-1) (server.setFs fs)

theorem Manages.create (manages : Manages params server model names) (short : name.strlen ≤ 30)
    {code : Int}
    (returned : workersHandleManagerCreate server (rootPath name) = .ok (code, server')) :
    Manages.Outcome params server model names (.create name) code server' := by
  unfold workersHandleManagerCreate at returned
  obtain ⟨⟨existing, fs⟩, openedPlain, returned⟩ := Except.bind_eq_ok_iff.mp returned
  have room : ∃ handle, handle < params.maxSessions ∧ model.handles handle = none :=
    ⟨0, params.positive, manages.closed 0⟩
  by_cases member : name ∈ names
  · obtain ⟨id, named⟩ := manages.present member
    obtain ⟨nonempty, _⟩ := manages.short name member
    have valid := rootPath_valid (validSubName_short nonempty short)
    obtain ⟨contents, holds⟩ := manages.files.name_file named
    obtain ⟨handle, length, closed, files⟩ :=
      manages.files.opensPresent valid named holds room openedPlain
    dsimp only at returned
    rw [length, if_pos (Int.natCast_nonneg handle)] at returned
    obtain ⟨code, result, after, ran, server'⟩ := Server.closeFile_eq_ok returned
    subst code server'
    exact .refused (fun grants => grants.2.1 member) (files.reopened closed named ran)
  · have missing : model.names (rootPath name).tail = none := manages.absent member
    obtain ⟨length, files⟩ := manages.files.opensAbsent (Or.inr missing) openedPlain
    dsimp only at returned
    rw [length, if_neg (by decide)] at returned
    obtain ⟨⟨opened, fsNew⟩, openedNew, returned⟩ := Except.bind_eq_ok_iff.mp returned
    obtain ⟨model', opens, files'⟩ := files.opens openedNew
    dsimp only at returned
    generalize opened.length = f at opens returned
    cases opens with
    | refused absent _ =>
        rw [if_pos (by decide)] at returned
        obtain ⟨code, result, after, ran, server'⟩ := Server.closeFile_eq_ok returned
        subst code server'
        rcases files'.closes ran with ⟨_, files''⟩ | ⟨handle, _, _, minus, _⟩
        · refine .refused ?_ files''
          rintro ⟨nonempty, _, few⟩
          have short := validSubName_short nonempty short
          obtain ⟨id, nonzero, inside, unused⟩ := manages.inodeUnused few
          exact absent (rootPath_valid short) short missing rfl
            ⟨files.inodeFree nonzero inside unused, files.entryFree⟩
        · omega
    | stranded _ _ _ _ full =>
        obtain ⟨handle, inside, closed⟩ := room
        exact (full handle inside closed).elim
    | existing _ named _ _ =>
        rw [missing] at named
        cases named
    | @created id handle _ valid _ _ closed =>
        rw [if_neg (by omega)] at returned
        -- the new name fits among the inodes, so there are fewer names than slots
        have bound : ∀ other ∈ insert name names,
            ((model.setFile id []).bind name id).names other ≠ none := by
          intro other inserted
          change Function.update model.names name (some id) other ≠ none
          rw [Function.update_apply]
          by_cases same : other = name
          · rw [if_pos same]
            exact Option.some_ne_none id
          · rw [if_neg same, ← manages.bound]
            exact Finset.mem_of_mem_insert_of_ne inserted same
        have few := files'.few_names bound
        rw [Finset.card_insert_of_notMem member] at few
        obtain ⟨boxI, found⟩ := manages.slotFree (by omega)
        have size : fsNew.inodeTableSize = server.fs.inodeTableSize :=
          files'.inodeTableSize.trans manages.files.inodeTableSize.symm
        have created : ((server.setFs fs).setFs fsNew).boxCreate (rootPath name) =
            (0, ((server.setFs fsNew).takeBox boxI (rootPath name)).fillBox boxI
              (rootPath name)) := by
          unfold Server.boxCreate
          rw [show (server.setFs fs).setFs fsNew = server.setFs fsNew from rfl,
            Server.firstFreeBox_setFs size, found]
        rw [created, if_neg (fun impossible => impossible rfl)] at returned
        obtain ⟨code, result, after, ran, server'⟩ := Server.closeFile_eq_ok returned
        subst code server'
        have nonempty : name.bytes ≠ [] := by
          have long : 1 < name.bytes.length + 1 := valid.1
          exact List.length_pos_iff.mp (by omega)
        have named : ((model.setFile id []).bind name id).names name = some id :=
          Function.update_self _ _ _
        refine .granted ⟨nonempty, member, ?_⟩
          (manages.boxAdded nonempty short member found (files'.reopened closed named ran))
        change names.card < 64 - 1
        omega

/-! ### Removing -/

/-- The slot of the box was given back and its file was unlinked. -/
theorem Manages.boxRemoved (manages : Manages params server model names) {fs : FileSystem.State}
    {id boxI : Nat} (found : server.boxFind (rootPath name) = some boxI)
    (files : Files params fs ((model.unbind name).collect id)) :
    Manages params ((server.deleteBox boxI (rootPath name)).setFs fs)
      ((model.unbind name).collect id) (names.erase name) := by
  obtain ⟨inside, taken, named⟩ := server.boxFind_eq_some found
  generalize after : (server.deleteBox boxI (rootPath name)).setFs fs = server'
  have boxes : server'.boxesTable = server.boxesTable := by
    rw [← after]
    rfl
  have freed : ¬ server'.IsTaken boxI := by
    rw [← after]
    exact server.deleteBox_notTaken boxI (rootPath name)
  have takenOther {other : Nat} (different : other ≠ boxI) :
      server'.IsTaken other ↔ server.IsTaken other := by
    rw [← after]
    exact server.deleteBox_other (rootPath name) different
  have takenBefore {other : Nat} (takenAfter : server'.IsTaken other) :
      other ≠ boxI ∧ server.IsTaken other := by
    have different : other ≠ boxI := by
      intro same
      subst same
      exact freed takenAfter
    exact ⟨different, (takenOther different).mp takenAfter⟩
  constructor
  · rw [← after]
    exact files
  · intro handle
    rw [collect_handles]
    exact manages.closed handle
  · intro other
    rw [collect_names]
    change _ ↔ Function.update model.names name none other ≠ none
    rw [Finset.mem_erase, Function.update_apply]
    by_cases same : other = name
    · simp [same]
    · rw [if_neg same, ← manages.bound]
      simp [same]
  · intro other takenAfter
    obtain ⟨different, takenOther⟩ := takenBefore takenAfter
    obtain ⟨bounded, held, member, heldName⟩ := manages.taken other takenOther
    rw [boxes]
    refine ⟨bounded, held, Finset.mem_erase.mpr ⟨?_, member⟩, heldName⟩
    intro same
    apply different
    apply manages.once other boxI takenOther taken
    rw [heldName, same, named]
  · intro other member
    obtain ⟨otherName, member⟩ := Finset.mem_erase.mp member
    obtain ⟨slot, slotTaken, slotNamed⟩ := manages.named other member
    have different : slot ≠ boxI := by
      intro same
      rw [same, named] at slotNamed
      exact otherName (rootPath_injective slotNamed).symm
    rw [boxes]
    exact ⟨slot, (takenOther different).mpr slotTaken, slotNamed⟩
  · intro left right leftTaken rightTaken same
    rw [boxes] at same
    exact manages.once left right (takenBefore leftTaken).2 (takenBefore rightTaken).2 same
  · intro other member
    exact manages.short other (Finset.mem_of_mem_erase member)
  · rw [← after]
    exact (manages.counts.deleteBox found).same
      (files.inodeTableSize.trans manages.files.inodeTableSize.symm) rfl rfl

theorem Manages.remove (manages : Manages params server model names) {code : Int}
    (returned : workersHandleManagerRemove server (rootPath name) = .ok (code, server')) :
    Manages.Outcome params server model names (.remove name) code server' := by
  unfold workersHandleManagerRemove at returned
  by_cases member : name ∈ names
  · obtain ⟨boxI, found⟩ := manages.finds member
    have deleted : server.boxDelete (rootPath name) = (0, server.deleteBox boxI (rootPath name)) := by
      unfold Server.boxDelete
      rw [found]
    rw [deleted] at returned
    dsimp only at returned
    rw [if_neg (fun impossible => impossible rfl)] at returned
    obtain ⟨⟨result, fs⟩, ran, finished⟩ := Except.bind_eq_ok_iff.mp returned
    obtain ⟨id, named⟩ := manages.present member
    obtain ⟨nonempty, short⟩ := manages.short name member
    rcases manages.files.unlinks ran with ⟨absent, _, _⟩ | ⟨other, _, _, length, files⟩
    · rcases absent with invalid | missing
      · exact (invalid (rootPath_valid (validSubName_short nonempty short))).elim
      · rw [rootPath_tail, named] at missing
        cases missing
    · dsimp only at finished
      rw [length, if_neg (fun impossible => impossible rfl)] at finished
      cases finished
      exact .granted member (manages.boxRemoved found files)
  · have deleted : server.boxDelete (rootPath name) = (-1, server) := by
      unfold Server.boxDelete
      rw [manages.notFound member]
    rw [deleted] at returned
    dsimp only at returned
    rw [if_pos (by decide)] at returned
    cases returned
    exact .refused (fun grants => member grants) manages.files

/-! ### Listing -/

/-- The names in a listing are those of the boxes, each one once. -/
theorem Manages.lines (manages : Manages params server model names) :
    (server.lines.map Line.name).Nodup ∧ ∀ name, name ∈ server.lines.map Line.name ↔ name ∈ names := by
  have size := manages.files.inodeTableSize
  have listed : server.lines.map Line.name =
      ((List.range' 0 64).filter (fun boxI => server.freeBoxes boxI == .taken)).map
        (fun boxI => (server.boxesTable boxI).name.tail) := by
    unfold Server.lines Server.takenBoxes
    rw [size, List.map_map, List.map_map]
    rfl
  have slot {boxI : Nat}
      (member : boxI ∈ (List.range' 0 64).filter (fun boxI => server.freeBoxes boxI == .taken)) :
      server.IsTaken boxI := by
    have passes := (List.mem_filter.mp member).2
    rwa [beq_iff_eq] at passes
  rw [listed]
  constructor
  · apply List.Nodup.map_on
    · intro left leftMember right rightMember same
      obtain ⟨_, leftName, _, leftNamed⟩ := manages.taken left (slot leftMember)
      obtain ⟨_, rightName, _, rightNamed⟩ := manages.taken right (slot rightMember)
      apply manages.once left right (slot leftMember) (slot rightMember)
      rw [leftNamed, rightNamed, rootPath_tail, rootPath_tail] at same
      rw [leftNamed, rightNamed, same]
    · exact (List.nodup_range').filter _
  · intro name
    constructor
    · intro member
      obtain ⟨boxI, inside, same⟩ := List.mem_map.mp member
      obtain ⟨_, held, heldMember, named⟩ := manages.taken boxI (slot inside)
      rw [named, rootPath_tail] at same
      rwa [← same]
    · intro member
      obtain ⟨boxI, taken, named⟩ := manages.named name member
      have inside := (manages.taken boxI taken).1
      refine List.mem_map.mpr ⟨boxI, List.mem_filter.mpr ⟨?_, ?_⟩, ?_⟩
      · rw [List.mem_range'_1]
        omega
      · rw [beq_iff_eq]
        exact taken
      · rw [named, rootPath_tail]

theorem Manages.list (manages : Manages params server model names) (stack : Nat → ClientBox)
    (extra : Nat) (rest : List UInt8) :
    ∃ sent printed, ListsBoxes server stack extra rest sent printed ∧
      (printed.map Line.name).Nodup ∧
      ∀ name, name ∈ printed.map Line.name ↔ name ∈ names := by
  have created : ∀ boxI, server.IsTaken boxI →
      ∃ name, (server.boxesTable boxI).Created name := by
    intro boxI taken
    obtain ⟨_, name, member, named⟩ := manages.taken boxI taken
    exact ⟨name, named, manages.short name member⟩
  obtain ⟨_, sent, printed, lists⟩ :=
    manages.counts.listing manages.files.inodeTableSize created stack extra rest
  obtain ⟨nodup, members⟩ := manages.lines
  have perm := lists.lines.map Line.name
  refine ⟨sent, printed, lists, perm.nodup_iff.mpr nodup, ?_⟩
  intro name
  rw [perm.mem_iff, members]

/-! ### Requests -/

theorem Manages.init (started : MbrokerInit params server) :
    Manages params server Model.empty ∅ where
  files := by
    obtain ⟨succeeds, garbage, returned⟩ := started.tfsStarted
    exact Files.init returned
  closed _ := rfl
  bound _ := by simp [Model.empty]
  taken boxI taken := by
    have free := started.freeBoxes boxI
    rw [show server.freeBoxes boxI = .taken from taken] at free
    cases free
  named _ member := (Finset.notMem_empty _ member).elim
  once left _ taken := by
    have free := started.freeBoxes left
    rw [show server.freeBoxes left = .taken from taken] at free
    cases free
  short _ member := (Finset.notMem_empty _ member).elim
  counts := started.countsBoxes

theorem Manages.holdsNames (manages : Manages params server model names) :
    HoldsNames server names where
  boxes name := by
    constructor
    · exact manages.named name
    · rintro ⟨boxI, taken, named⟩
      obtain ⟨_, held, member, heldName⟩ := manages.taken boxI taken
      rw [named] at heldName
      rwa [rootPath_injective heldName]
  directory name := by
    rw [manages.bound, Option.ne_none_iff_exists']
    exact exists_congr (fun id => manages.files.represents.names name id)
  closed handle inside := by
    have closed := (manages.files.represents.handles_none manages.files.invariant.1).mp
      (manages.closed handle)
    cases mark : server.fs.freeOpenFileEntries handle with
    | free => rfl
    | taken => exact (closed ⟨inside, mark⟩).elim

theorem Manages.handle (manages : Manages params server model names) {request : ManagerRequest}
    {answer : ManagerAnswer} (short : request.Short)
    (returned : handleRequest server request = .ok (answer, server')) :
    (∃ model', Manages params server' model' (handleNames names request)) ∧
      AnswersAs names server server' request answer := by
  have finish {code : Int} {after : Server Thread} (notList : request ≠ .list)
      (outcome : Manages.Outcome params server model names request code after) :
      (∃ model', Manages params after model' (handleNames names request)) ∧
        AnswersAs names server after request (.returnCode code) := by
    unfold handleNames
    cases outcome with
    | granted grants manages' =>
        rw [if_pos grants]
        exact ⟨⟨_, manages'⟩, .granted notList grants⟩
    | refused refuses files =>
        rw [if_neg refuses]
        have manages' := manages.setFs files
        exact ⟨⟨_, manages'⟩, .refused notList refuses (manages.sameTables manages' rfl rfl rfl)⟩
  unfold handleRequest at returned
  cases request with
  | create name =>
      obtain ⟨⟨code, after⟩, ran, finished⟩ := Except.bind_eq_ok_iff.mp returned
      cases finished
      exact finish (fun impossible => by cases impossible) (manages.create short ran)
  | remove name =>
      obtain ⟨⟨code, after⟩, ran, finished⟩ := Except.bind_eq_ok_iff.mp returned
      cases finished
      exact finish (fun impossible => by cases impossible) (manages.remove ran)
  | list =>
      obtain ⟨⟨code, sent⟩, ran, finished⟩ := Except.bind_eq_ok_iff.mp returned
      cases finished
      refine ⟨⟨model, ?_⟩, .lists (manages.sameTables manages rfl rfl rfl) ?_⟩
      · unfold handleNames
        rw [if_pos (show Grants names .list from trivial)]
        exact manages
      · intro stack extra rest
        obtain ⟨other, printed, lists, facts⟩ := manages.list stack extra rest
        have same := lists.handler
        rw [ran, Except.ok.injEq, Prod.mk.injEq] at same
        rw [same.2]
        exact ⟨printed, lists, facts⟩

/-! ### Every request returns -/

theorem Server.closeFile_returns (files : Files params server.fs model)
    (small : params.maxSessions < 2 ^ 31) (f returnCode : Int) :
    ∃ server', server.closeFile f returnCode = .ok (returnCode, server') := by
  obtain ⟨result, fs, ran⟩ := files.returns small (.closes f)
  unfold Server.closeFile
  rw [ran]
  exact ⟨server.setFs fs, rfl⟩

theorem Manages.create_returns (manages : Manages params server model names)
    (small : params.maxSessions < 2 ^ 31) (boxName : CString) :
    ∃ code server', workersHandleManagerCreate server boxName = .ok (code, server') := by
  obtain ⟨existing, fs, ranPlain⟩ := manages.files.returns small (.opens boxName false false)
  obtain ⟨_, _, files⟩ := manages.files.opens ranPlain
  unfold workersHandleManagerCreate openPlain openCreate
  rw [ranPlain]
  simp only [bind, Except.bind]
  by_cases there : 0 ≤ existing.length
  · rw [if_pos there]
    obtain ⟨server', closed⟩ :=
      @Server.closeFile_returns _ _ (server.setFs fs) _ files small existing.length (-1)
    exact ⟨_, server', closed⟩
  · rw [if_neg there]
    obtain ⟨opened, fsNew, ranCreate⟩ := files.returns small (.opens boxName true false)
    obtain ⟨_, _, filesNew⟩ := files.opens ranCreate
    rw [show (server.setFs fs).fs = fs from rfl, ranCreate]
    dsimp only
    by_cases refused : opened.length < 0
    · rw [if_pos refused]
      obtain ⟨server', closed⟩ :=
        @Server.closeFile_returns _ _ ((server.setFs fs).setFs fsNew) _ filesNew small
          opened.length (-1)
      exact ⟨_, server', closed⟩
    · rw [if_neg refused]
      have same : (((server.setFs fs).setFs fsNew).boxCreate boxName).2.fs = fsNew := by
        unfold Server.boxCreate
        split
        · rfl
        · rfl
      rw [← same] at filesNew
      obtain ⟨server', closed⟩ := Server.closeFile_returns filesNew small opened.length
        (if (((server.setFs fs).setFs fsNew).boxCreate boxName).1 ≠ 0 then -1 else 0)
      exact ⟨_, server', closed⟩

theorem Manages.remove_returns (manages : Manages params server model names)
    (small : params.maxSessions < 2 ^ 31) (boxName : CString) :
    ∃ code server', workersHandleManagerRemove server boxName = .ok (code, server') := by
  unfold workersHandleManagerRemove
  have same : (server.boxDelete boxName).2.fs = server.fs := by
    unfold Server.boxDelete
    split
    · rfl
    · rfl
  obtain ⟨result, fs, ran⟩ := manages.files.returns small (.unlinks boxName)
  dsimp only
  split
  · exact ⟨_, _, rfl⟩
  · rw [same, ran]
    exact ⟨_, _, rfl⟩

theorem Manages.handle_returns (manages : Manages params server model names)
    (small : params.maxSessions < 2 ^ 31) (request : ManagerRequest) :
    ∃ answer server', handleRequest server request = .ok (answer, server') := by
  unfold handleRequest
  cases request with
  | create name =>
      obtain ⟨code, server', ran⟩ := manages.create_returns small (rootPath name)
      simp only [ran, bind, Except.bind]
      exact ⟨_, _, rfl⟩
  | remove name =>
      obtain ⟨code, server', ran⟩ := manages.remove_returns small (rootPath name)
      simp only [ran, bind, Except.bind]
      exact ⟨_, _, rfl⟩
  | list =>
      obtain ⟨sent, printed, lists, _⟩ := manages.list (fun _ => ⟨.zeroed _, 0, 0, 0⟩) 0 []
      simp only [lists.handler, bind, Except.bind]
      exact ⟨_, _, rfl⟩

/-! ### Runs -/

theorem ManagementRun.manages {requests : List ManagerRequest}
    (started : MbrokerInit params server) (run : ManagementRun server requests server')
    (short : ∀ request ∈ requests, request.Short) :
    ∃ model, Manages params server' model (namesAfter requests) := by
  induction run with
  | start => exact ⟨_, .init started⟩
  | @next requests request answer before after earlier returned inductionHypothesis =>
      obtain ⟨model, manages⟩ := inductionHypothesis
        (fun other member => short other (List.mem_append_left _ member))
      obtain ⟨manages', _⟩ :=
        manages.handle (short request (List.mem_append_right _ List.mem_cons_self)) returned
      unfold namesAfter
      rw [List.foldl_append]
      exact manages'

theorem ManagementRun.exists (started : MbrokerInit params server)
    (small : params.maxSessions < 2 ^ 31) {requests : List ManagerRequest}
    (short : ∀ request ∈ requests, request.Short) :
    ∃ server', ManagementRun server requests server' := by
  induction requests using List.reverseRecOn with
  | nil => exact ⟨server, .start⟩
  | append_singleton requests request inductionHypothesis =>
      have shortBefore : ∀ request ∈ requests, request.Short :=
        fun other member => short other (List.mem_append_left _ member)
      obtain ⟨before, run⟩ := inductionHypothesis shortBefore
      obtain ⟨model, manages⟩ := run.manages started shortBefore
      obtain ⟨answer, after, returned⟩ := manages.handle_returns small request
      exact ⟨after, .next run returned⟩

/-- After any requests both tables hold the set of names the requests make, no file is
open, and the next request is answered as that set says. -/
theorem management_refines {requests : List ManagerRequest} (started : MbrokerInit params server)
    (run : ManagementRun server requests server')
    (short : ∀ request ∈ requests, request.Short) :
    HoldsNames server' (namesAfter requests) ∧
      ∀ request, request.Short →
        (∀ answer after, handleRequest server' request = .ok (answer, after) →
          AnswersAs (namesAfter requests) server' after request answer ∧
            HoldsNames after (handleNames (namesAfter requests) request)) ∧
        (params.maxSessions < 2 ^ 31 →
          ∃ answer after, handleRequest server' request = .ok (answer, after)) := by
  obtain ⟨model, manages⟩ := run.manages started short
  refine ⟨manages.holdsNames, ?_⟩
  intro request requestShort
  constructor
  · intro answer after returned
    obtain ⟨⟨_, manages'⟩, answers⟩ := manages.handle requestShort returned
    exact ⟨answers, manages'.holdsNames⟩
  · intro small
    exact manages.handle_returns small request

/-- A box is made, refused a second time, and removed. -/
theorem management_refines_boxA :
    namesAfter [.create boxA, .create boxA] = {boxA} ∧
      namesAfter [.create boxA, .create boxA, .remove boxA] = ∅ ∧
      ∃ server : Server (Fin twoSessions.maxSessions), HoldsNames server ∅ := by
  refine ⟨by decide, by decide, ?_⟩
  obtain ⟨fs, _, started⟩ := exists_started (fun _ => ⟨boxA, 0, 0, 0⟩)
  have short : ∀ request ∈ [ManagerRequest.create boxA, .create boxA, .remove boxA],
      request.Short := by decide
  obtain ⟨server, run⟩ := ManagementRun.exists started (by decide) short
  exact ⟨server, (management_refines started run short).1⟩

/-! ### Requests as steps of a worker -/

/-- The points of `workers_handle_manager_create` follow the function. -/
theorem Broker.reaches_managerCreate {broker : Broker (Fin params.maxSessions)}
    {thread : Fin params.maxSessions} {server server' : Server (Fin params.maxSessions)}
    {boxName : CString} {code : Int}
    (reachable : ((brokerSystem .calls params).restrict (fun _ _ _ => True)).Reachable
      (broker.goto thread server (.create (.openExisting boxName))))
    (unlocked : ∀ boxI, server.Unlocked boxI)
    (returned : workersHandleManagerCreate server boxName = .ok (code, server')) :
    ((brokerSystem .calls params).restrict (fun _ _ _ => True)).Reachable
      (broker.goto thread server' .idle) ∧ ∀ boxI, server'.Unlocked boxI := by
  have finish {f returnCode : Int} {before : Server (Fin params.maxSessions)}
      (reached : ((brokerSystem .calls params).restrict (fun _ _ _ => True)).Reachable
        (broker.goto thread before (.create (.closeFile f returnCode))))
      (unlockedBefore : ∀ boxI, before.Unlocked boxI)
      (closed : before.closeFile f returnCode = .ok (code, server')) :
      ((brokerSystem .calls params).restrict (fun _ _ _ => True)).Reachable
        (broker.goto thread server' .idle) ∧ ∀ boxI, server'.Unlocked boxI := by
    obtain ⟨code, result, fs, ran, server'⟩ := Server.closeFile_eq_ok closed
    subst code server'
    have answering := reaches_create reached (.closes ran) (fun _ => trivial)
    exact ⟨reaches_create answering .answers (fun _ => trivial), unlockedBefore⟩
  unfold workersHandleManagerCreate at returned
  obtain ⟨⟨existing, fs⟩, ranPlain, returned⟩ := Except.bind_eq_ok_iff.mp returned
  dsimp only at returned
  by_cases there : 0 ≤ existing.length
  · rw [if_pos there] at returned
    have closing := reaches_create reachable (.exists ranPlain there) (fun _ => trivial)
    exact finish closing unlocked returned
  · rw [if_neg there] at returned
    have opening := reaches_create reachable (.absent ranPlain (by omega)) (fun _ => trivial)
    obtain ⟨⟨opened, fsNew⟩, ranCreate, returned⟩ := Except.bind_eq_ok_iff.mp returned
    dsimp only at returned
    by_cases refused : opened.length < 0
    · rw [if_pos refused] at returned
      have closing := reaches_create opening (.openFails ranCreate refused) (fun _ => trivial)
      exact finish closing unlocked returned
    · rw [if_neg refused] at returned
      have taking := reaches_create opening (.opens ranCreate (by omega)) (fun _ => trivial)
      unfold Server.boxCreate at returned
      cases found : ((server.setFs fs).setFs fsNew).firstFreeBox with
      | none =>
          rw [found] at returned
          exact finish (reaches_create taking (.full found) (fun _ => trivial)) unlocked returned
      | some boxI =>
          rw [found] at returned
          exact finish (reaches_create taking (.creates rfl found (unlocked boxI))
            (fun _ => trivial)) unlocked returned

theorem Broker.reaches_managerRemove {broker : Broker (Fin params.maxSessions)}
    {thread : Fin params.maxSessions} {server server' : Server (Fin params.maxSessions)}
    {boxName : CString} {code : Int}
    (reachable : ((brokerSystem .calls params).restrict (fun _ _ _ => True)).Reachable
      (broker.goto thread server (.remove (.deleteBox boxName))))
    (unlocked : ∀ boxI, server.Unlocked boxI)
    (returned : workersHandleManagerRemove server boxName = .ok (code, server')) :
    ((brokerSystem .calls params).restrict (fun _ _ _ => True)).Reachable
      (broker.goto thread server' .idle) ∧ ∀ boxI, server'.Unlocked boxI := by
  unfold workersHandleManagerRemove Server.boxDelete at returned
  cases found : server.boxFind boxName with
  | none =>
      rw [found] at returned
      cases returned
      have answering := reaches_remove reachable (.notFound found) (fun _ => trivial)
      exact ⟨reaches_remove answering .answers (fun _ => trivial), unlocked⟩
  | some boxI =>
      rw [found] at returned
      obtain ⟨⟨result, fs⟩, ran, finished⟩ := Except.bind_eq_ok_iff.mp returned
      cases finished
      have unlinking := reaches_remove reachable (.deletes found (unlocked boxI))
        (fun _ => trivial)
      have answering := reaches_remove unlinking (.unlinks ran) (fun _ => trivial)
      exact ⟨reaches_remove answering .answers (fun _ => trivial), unlocked⟩

/-- Requests handled one after another are a run of the broker in which one worker takes
them all. -/
theorem ManagementRun.reachable {server server' : Server (Fin params.maxSessions)}
    {requests : List ManagerRequest} (started : MbrokerInit params server)
    (run : ManagementRun server requests server') (thread : Fin params.maxSessions) :
    (brokerSystem .calls params).Reachable
      (Broker.goto ⟨server, fun _ => .idle⟩ thread server' .idle) := by
  suffices reached : ((brokerSystem .calls params).restrict (fun _ _ _ => True)).Reachable
      (Broker.goto ⟨server, fun _ => .idle⟩ thread server' .idle) ∧
        ∀ boxI, server'.Unlocked boxI from reached.1.of_restrict
  induction run with
  | start =>
      constructor
      · rw [Broker.goto_same _ thread rfl]
        exact .initial ⟨started, fun _ => rfl⟩
      · exact started.boxMutex
  | @next requests request answer before after earlier returned inductionHypothesis =>
      obtain ⟨reached, unlocked⟩ := inductionHypothesis
      unfold handleRequest at returned
      cases request with
      | create name =>
          obtain ⟨⟨code, _⟩, ran, finished⟩ := Except.bind_eq_ok_iff.mp returned
          cases finished
          exact Broker.reaches_managerCreate (Broker.reaches_request reached
            (.createRequest name) (fun _ => trivial)) unlocked ran
      | remove name =>
          obtain ⟨⟨code, _⟩, ran, finished⟩ := Except.bind_eq_ok_iff.mp returned
          cases finished
          exact Broker.reaches_managerRemove (Broker.reaches_request reached
            (.removeRequest name) (fun _ => trivial)) unlocked ran
      | list =>
          obtain ⟨_, _, finished⟩ := Except.bind_eq_ok_iff.mp returned
          cases finished
          exact ⟨reached, unlocked⟩

end TecnicoFS.Mbroker
