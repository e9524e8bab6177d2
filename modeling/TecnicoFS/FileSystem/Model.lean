/-
What the file system is for, without tables, blocks and bytes of directory slots.

A regular file is a byte string shared by all of its names and handles, a symbolic
link is a path, and a handle is a file with an offset.  Files are told apart by
identities of any type.  A file without names and handles does not exist.  Whether
a call finds a free inode, block, directory entry or handle is given to each step
from outside.
-/

import Mathlib.Logic.Relation
import TecnicoFS.FileSystem.Operations

set_option autoImplicit false

namespace TecnicoFS.FileSystem

/-- The contents with a part replaced; the part may pass the old end. -/
def overwrite (contents : List UInt8) (offset : Nat) (bytes : List UInt8) : List UInt8 :=
  contents.take offset ++ bytes ++ contents.drop (offset + bytes.length)

theorem overwrite_length (contents bytes : List UInt8) (offset : Nat)
    (inside : offset ≤ contents.length) :
    (overwrite contents offset bytes).length = max contents.length (offset + bytes.length) := by
  unfold overwrite
  rw [List.length_append, List.length_append, List.length_take, List.length_drop]
  omega

structure Model (Id : Type) where
  names : CString → Option Id
  files : Id → Option (List UInt8)
  links : Id → Option CString
  handles : Nat → Option (Id × Nat)

/-- What a step finds free -/
structure Resources where
  inodeFree : Prop
  blockFree : Prop
  entryFree : Prop
  handleFree : Prop

namespace Model

variable {Id : Type} [DecidableEq Id]

/-- No names, files and handles -/
def empty : Model Id where
  names := fun _ => none
  files := fun _ => none
  links := fun _ => none
  handles := fun _ => none

def bind (model : Model Id) (name : CString) (id : Id) : Model Id :=
  { model with names := Function.update model.names name (some id) }

def unbind (model : Model Id) (name : CString) : Model Id :=
  { model with names := Function.update model.names name none }

def setFile (model : Model Id) (id : Id) (contents : List UInt8) : Model Id :=
  { model with files := Function.update model.files id (some contents) }

def setLink (model : Model Id) (id : Id) (target : CString) : Model Id :=
  { model with links := Function.update model.links id (some target) }

def setHandle (model : Model Id) (handle : Nat) (id : Id) (offset : Nat) : Model Id :=
  { model with handles := Function.update model.handles handle (some (id, offset)) }

def closeHandle (model : Model Id) (handle : Nat) : Model Id :=
  { model with handles := Function.update model.handles handle none }

/-- A name or a handle still leads to the file. -/
def Used (model : Model Id) (id : Id) : Prop :=
  (∃ name, model.names name = some id) ∨ ∃ handle offset, model.handles handle = some (id, offset)

def Fresh (model : Model Id) (id : Id) : Prop := model.files id = none ∧ model.links id = none

def remove (model : Model Id) (id : Id) : Model Id :=
  { model with
    files := Function.update model.files id none
    links := Function.update model.links id none }

open Classical in
/-- The file goes when nothing leads to it. -/
noncomputable def collect (model : Model Id) (id : Id) : Model Id :=
  if model.Used id then model else model.remove id

/-- The path names a symbolic link to the target. -/
def LinksTo (model : Model Id) (path target : CString) : Prop :=
  ValidPathname path ∧ ∃ id, model.names path.tail = some id ∧ model.links id = some target

/-- Following symbolic links from the first path leads to the second. -/
def Resolves (model : Model Id) : CString → CString → Prop :=
  Relation.ReflTransGen model.LinksTo

/-- A new handle on the file, or -1 when there is none left -/
inductive Handle (model : Model Id) (resources : Resources) (id : Id) (offset : Nat) :
    Int → Model Id → Prop where
  | full : ¬ resources.handleFree → Handle model resources id offset (-1) model
  | opened {handle : Nat} : resources.handleFree → model.handles handle = none →
      Handle model resources id offset handle (model.setHandle handle id offset)

omit [DecidableEq Id] in
theorem Handle.names {model model' : Model Id} {resources : Resources} {id : Id} {offset : Nat}
    {result : Int} (opened : Handle model resources id offset result model') :
    model'.names = model.names ∧ model'.links = model.links := by
  cases opened with
  | full _ => exact ⟨rfl, rfl⟩
  | opened _ _ => exact ⟨rfl, rfl⟩

/-- `tfs_open` of a name that is no symbolic link -/
inductive Open (model : Model Id) (resources : Resources) (path : CString) (mode : TfsFileMode) :
    Int → Model Id → Prop where
  | invalid : ¬ ValidPathname path → Open model resources path mode (-1) model
  | missing : ValidPathname path → model.names path.tail = none → mode.tfsOCreat = false →
      Open model resources path mode (-1) model
  | refused : ValidPathname path → model.names path.tail = none → mode.tfsOCreat = true →
      (¬ resources.inodeFree ∨ ¬ validSubName path.tail ∨ ¬ resources.entryFree) →
      Open model resources path mode (-1) model
  | created {id : Id} {result : Int} {model' : Model Id} :
      ValidPathname path → model.names path.tail = none → mode.tfsOCreat = true →
      resources.inodeFree → validSubName path.tail → resources.entryFree → model.Fresh id →
      Handle ((model.setFile id []).bind path.tail id) resources id 0 result model' →
      Open model resources path mode result model'
  | existing {id : Id} {contents kept : List UInt8} {result : Int} {model' : Model Id} :
      ValidPathname path → model.names path.tail = some id → model.files id = some contents →
      kept = (if mode.tfsOTrunc = true then [] else contents) →
      Handle (model.setFile id kept) resources id
        (if mode.tfsOAppend = true then kept.length else 0) result model' →
      Open model resources path mode result model'

/-- `tfs_write` of `data` through an open handle -/
inductive Write (model : Model Id) (resources : Resources) (blockSize handle : Nat) (id : Id)
    (offset : Nat) (contents data : List UInt8) : Int → Model Id → Prop where
  | nothing : min data.length (blockSize - min offset contents.length) = 0 →
      Write model resources blockSize handle id offset contents data 0
        (model.setHandle handle id (min offset contents.length))
  | noBlock : min data.length (blockSize - min offset contents.length) ≠ 0 → contents = [] →
      ¬ resources.blockFree →
      Write model resources blockSize handle id offset contents data (-1)
        (model.setHandle handle id (min offset contents.length))
  | stored {length : Nat} :
      length = min data.length (blockSize - min offset contents.length) → length ≠ 0 →
      (contents = [] → resources.blockFree) →
      Write model resources blockSize handle id offset contents data length
        ((model.setFile id (overwrite contents (min offset contents.length)
          (data.take length))).setHandle handle id (min offset contents.length + length))

/-- One public call other than `tfs_copy_from_external_fs` -/
inductive Step (resources : Resources) (blockSize : Nat) (model : Model Id) :
    Call → CallResult → Model Id → Prop where
  | openNull (mode : TfsFileMode) :
      Step resources blockSize model (.tfsOpen none mode) ⟨-1, []⟩ model
  | opens {path final : CString} {mode : TfsFileMode} {result : Int} {model' : Model Id} :
      model.Resolves path final → Open model resources final mode result model' →
      Step resources blockSize model (.tfsOpen (some path) mode) ⟨result, []⟩ model'
  | closeInvalid {fhandle : Int} :
      (∀ handle : Nat, fhandle = (handle : Int) → model.handles handle = none) →
      Step resources blockSize model (.tfsClose fhandle) ⟨-1, []⟩ model
  | closes {handle : Nat} {id : Id} {offset : Nat} : model.handles handle = some (id, offset) →
      Step resources blockSize model (.tfsClose handle) ⟨0, []⟩
        ((model.closeHandle handle).collect id)
  | writeInvalid {fhandle : Int} {buffer : Option (List UInt8)} (toWrite : Nat) :
      (buffer = none ∨ ∀ handle : Nat, fhandle = (handle : Int) → model.handles handle = none) →
      Step resources blockSize model (.tfsWrite fhandle buffer toWrite) ⟨-1, []⟩ model
  | writes {handle offset toWrite : Nat} {id : Id} {contents data : List UInt8} {result : Int}
      {model' : Model Id} : model.handles handle = some (id, offset) →
      model.files id = some contents →
      Write model resources blockSize handle id offset contents (data.take toWrite) result
        model' →
      Step resources blockSize model (.tfsWrite handle (some data) toWrite) ⟨result, []⟩ model'
  | readInvalid {fhandle : Int} {buffered : Bool} (len : Nat) :
      (buffered = false ∨ ∀ handle : Nat, fhandle = (handle : Int) → model.handles handle = none) →
      Step resources blockSize model (.tfsRead fhandle buffered len) ⟨-1, []⟩ model
  | reads {handle offset len length : Nat} {id : Id} {contents : List UInt8} :
      model.handles handle = some (id, offset) → model.files id = some contents →
      length = min len (contents.length - min offset contents.length) →
      Step resources blockSize model (.tfsRead handle true len)
        ⟨length, (contents.drop (min offset contents.length)).take length⟩
        (model.setHandle handle id (min offset contents.length + length))
  | symLinkInvalid {target link : Option CString} :
      (validPathname target = none ∨ validPathname link = none) →
      Step resources blockSize model (.tfsSymLink target link) ⟨-1, []⟩ model
  | symLinkRefused {target link : CString} :
      (target = link ∨ ¬ resources.inodeFree ∨ ¬ resources.blockFree ∨
        ¬ validSubName link.tail ∨ model.names link.tail ≠ none ∨ ¬ resources.entryFree) →
      Step resources blockSize model (.tfsSymLink (some target) (some link)) ⟨-1, []⟩ model
  | symLinks {target link : CString} {id : Id} : ValidPathname target → ValidPathname link →
      target ≠ link → resources.inodeFree → resources.blockFree → validSubName link.tail →
      model.names link.tail = none → resources.entryFree → model.Fresh id →
      Step resources blockSize model (.tfsSymLink (some target) (some link)) ⟨0, []⟩
        ((model.setLink id target).bind link.tail id)
  | linkInvalid {target link : Option CString} :
      (validPathname target = none ∨ validPathname link = none) →
      Step resources blockSize model (.tfsLink target link) ⟨-1, []⟩ model
  | linkRefused {target link : CString} :
      ((∀ id, model.names target.tail = some id → model.files id = none) ∨
        ¬ validSubName link.tail ∨ model.names link.tail ≠ none ∨ ¬ resources.entryFree) →
      Step resources blockSize model (.tfsLink (some target) (some link)) ⟨-1, []⟩ model
  | links {target link : CString} {id : Id} {contents : List UInt8} : ValidPathname target →
      ValidPathname link → model.names target.tail = some id → model.files id = some contents →
      validSubName link.tail → model.names link.tail = none → resources.entryFree →
      Step resources blockSize model (.tfsLink (some target) (some link)) ⟨0, []⟩
        (model.bind link.tail id)
  | unlinkInvalid {target : Option CString} : validPathname target = none →
      Step resources blockSize model (.tfsUnlink target) ⟨-1, []⟩ model
  | unlinkMissing {target : CString} : model.names target.tail = none →
      Step resources blockSize model (.tfsUnlink (some target)) ⟨-1, []⟩ model
  | unlinks {target : CString} {id : Id} : ValidPathname target →
      model.names target.tail = some id →
      Step resources blockSize model (.tfsUnlink (some target)) ⟨0, []⟩
        ((model.unbind target.tail).collect id)

end Model

end TecnicoFS.FileSystem
