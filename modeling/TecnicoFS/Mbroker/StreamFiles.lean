/-
The file of a box and the calls of the handlers.

Publishers append whole messages and subscribers read them one by one, so every offset falls
between two messages.  The file keeps its name and its bytes through all other calls, and a
handle moves only when its own worker uses it.
-/

import TecnicoFS.Library.Records
import TecnicoFS.Mbroker.FileCalls
import TecnicoFS.Mbroker.OpenFiles

set_option autoImplicit false

namespace TecnicoFS.Mbroker

open FileSystem

variable {params : MbrokerParams} {fs fs' : FileSystem.State} {model model' : Model Nat}
  {boxName : CString} {id : Nat} {stored : List Message}

/-! ### Messages one after the other -/

def messageBytes (messages : List Message) : List UInt8 :=
  (messages.map Message.bytes).flatten

theorem messages_uniform (messages : List Message) :
    Records.Uniform msgMaxLen (messages.map Message.bytes) := by
  intro record member
  obtain ⟨message, _, same⟩ := List.mem_map.mp member
  rw [← same]
  exact message.length_eq

theorem messageBytes_length (messages : List Message) :
    (messageBytes messages).length = msgMaxLen * messages.length := by
  unfold messageBytes
  rw [Records.flatten_length (messages_uniform messages), List.length_map]

theorem messageBytes_append (messages : List Message) (message : Message) :
    messageBytes (messages ++ [message]) = messageBytes messages ++ message.bytes := by
  unfold messageBytes
  rw [List.map_append, List.flatten_append]
  exact congrArg _ (List.append_nil _)

/-- What a reader that has read some messages reads next -/
theorem messageBytes_next (messages rest : List Message) (message : Message) :
    ((messageBytes (messages ++ message :: rest)).drop (msgMaxLen * messages.length)).take
      msgMaxLen = message.bytes := by
  apply Records.flatten_read (messages_uniform _)
  rw [List.getElem?_map, List.getElem?_append_right (Nat.le_refl _), Nat.sub_self]
  rfl

/-! ### Handles -/

/-- The handle leads to the place in the file. -/
def AtOffset (model : Model Nat) (id : Nat) (f : Int) (offset : Nat) : Prop :=
  ∃ handle : Nat, f = handle ∧ model.handles handle = some (id, offset)

/-- The open handles are where they were, but for the one in use. -/
def HandlesKept (model model' : Model Nat) (file : Option Int) : Prop :=
  ∀ (handle : Nat) (place : Nat × Nat), file ≠ some (handle : Int) →
    model.handles handle = some place → model'.handles handle = some place

theorem HandlesKept.refl (model : Model Nat) (file : Option Int) : HandlesKept model model file :=
  fun _ _ _ holds => holds

theorem handle_ne {handle other : Nat} (different : some (handle : Int) ≠ some (other : Int)) :
    other ≠ handle := by
  intro same
  rw [same] at different
  exact different rfl

theorem HandlesKept.setHandle {handle file offset : Nat} :
    HandlesKept model (model.setHandle handle file offset) (some handle) := by
  intro other place different holds
  exact (Function.update_of_ne (handle_ne different) _ _).trans holds

theorem HandlesKept.open {handle file offset : Nat} (closed : model.handles handle = none) :
    HandlesKept model (model.setHandle handle file offset) none := by
  intro other place _ holds
  have moved : other ≠ handle := by
    intro same
    rw [same, closed] at holds
    cases holds
  exact (Function.update_of_ne moved _ _).trans holds

theorem atOffset_setHandle {handle file offset : Nat} :
    AtOffset (model.setHandle handle file offset) file handle offset :=
  ⟨handle, rfl, Function.update_self _ _ _⟩

theorem not_atOffset_setHandle {handle file offset : Nat} (different : file ≠ id) (place : Nat) :
    ¬ AtOffset (model.setHandle handle file offset) id handle place := by
  rintro ⟨other, same, holds⟩
  rw [← Int.ofNat_inj.mp same] at holds
  have moved : (model.setHandle handle file offset).handles handle = some (file, offset) :=
    Function.update_self _ _ _
  rw [moved, Option.some.injEq, Prod.mk.injEq] at holds
  exact different holds.1

/-- A file with a name is not collected. -/
theorem collect_named {name : CString} (named : model.names name = some id) (other : Nat) :
    (model.collect other).files id = model.files id := by
  unfold Model.collect
  split
  · rfl
  · rename_i unused
    have different : id ≠ other := by
      intro same
      rw [← same] at unused
      exact unused (Or.inl ⟨name, named⟩)
    exact Function.update_of_ne different _ _

/-! ### The file of a box -/

/-- The file under the path of the box holds the messages, and nothing else. -/
structure StreamFiles (params : MbrokerParams) (boxName : CString) (id : Nat)
    (fs : FileSystem.State) (stored : List Message) (model : Model Nat) : Prop where
  files : Files params fs model
  valid : ValidPathname boxName
  names : model.names boxName.tail = some id
  contents : model.files id = some (messageBytes stored)
  fits : msgMaxLen * stored.length ≤ 1024 * 1024

namespace StreamFiles

/-- The tables changed and the file did not. -/
theorem change (stream : StreamFiles params boxName id fs stored model)
    (files : Files params fs' model')
    (names : model'.names boxName.tail = model.names boxName.tail)
    (contents : model'.files id = model.files id) :
    StreamFiles params boxName id fs' stored model' where
  files := files
  valid := stream.valid
  names := names.trans stream.names
  contents := contents.trans stream.contents
  fits := stream.fits

theorem tail_ne (stream : StreamFiles params boxName id fs stored model) {name : CString}
    (missing : model.names name = none) : boxName.tail ≠ name := by
  intro same
  rw [← same, stream.names] at missing
  cases missing

theorem fresh_ne (stream : StreamFiles params boxName id fs stored model) {file : Nat}
    (fresh : model.Fresh file) : id ≠ file := by
  intro same
  have gone := fresh.1
  rw [← same, stream.contents] at gone
  cases gone

/-- The file of another path is another file. -/
theorem other_ne (stream : StreamFiles params boxName id fs stored model) {path : CString}
    {file : Nat} (valid : ValidPathname path) (named : model.names path.tail = some file)
    (different : path ≠ boxName) : file ≠ id := by
  intro same
  rw [same] at named
  have tails := stream.files.oneName _ _ id named stream.names
  exact different (valid.eq_of_tail stream.valid tails)

/-- An open that succeeds gives a handle at the start or at the end of the file of its path. -/
theorem opens {path : CString} {creat append : Bool} {result : CallResult}
    (stream : StreamFiles params boxName id fs stored model)
    (returned : Call.run (.tfsOpen (some path) ⟨creat, false, append⟩) fs = .ok (result, fs')) :
    ∃ model', StreamFiles params boxName id fs' stored model' ∧ HandlesKept model model' none ∧
      (0 ≤ result.length →
        (path = boxName → AtOffset model' id result.length
          (if append = true then msgMaxLen * stored.length else 0)) ∧
        (path ≠ boxName → ∀ offset, ¬ AtOffset model' id result.length offset)) := by
  obtain ⟨model', opened, files'⟩ := stream.files.opens returned
  refine ⟨model', ?_⟩
  generalize result.length = length at opened ⊢
  cases opened with
  | refused _ _ => exact ⟨stream.change files' rfl rfl, .refl _ _, fun success => by omega⟩
  | stranded _ _ missing fresh _ =>
      refine ⟨stream.change files' ?_ ?_, .refl _ _, fun success => by omega⟩
      · exact Function.update_of_ne (stream.tail_ne missing) _ _
      · exact Function.update_of_ne (stream.fresh_ne fresh) _ _
  | @existing file handle contents valid named holds closed =>
      refine ⟨stream.change files' rfl rfl, .open closed, fun _ => ⟨?_, ?_⟩⟩
      · intro same
        rw [same, stream.names, Option.some.injEq] at named
        subst named
        rw [stream.contents, Option.some.injEq] at holds
        rw [← holds, messageBytes_length]
        exact atOffset_setHandle
      · intro different
        exact not_atOffset_setHandle (stream.other_ne valid named different)
  | created _ _ missing fresh closed =>
      refine ⟨stream.change files' ?_ ?_, .open closed, fun _ => ⟨?_, ?_⟩⟩
      · exact Function.update_of_ne (stream.tail_ne missing) _ _
      · exact Function.update_of_ne (stream.fresh_ne fresh) _ _
      · intro same
        rw [same] at missing
        exact (stream.tail_ne missing rfl).elim
      · intro _
        exact not_atOffset_setHandle (Ne.symm (stream.fresh_ne fresh))

theorem closes {f : Int} {result : CallResult}
    (stream : StreamFiles params boxName id fs stored model)
    (returned : Call.run (.tfsClose f) fs = .ok (result, fs')) :
    ∃ model', StreamFiles params boxName id fs' stored model' ∧
      HandlesKept model model' (some f) := by
  rcases stream.files.closes returned with ⟨_, files'⟩ | ⟨handle, file, _, same, _, files'⟩
  · exact ⟨model, stream.change files' rfl rfl, .refl _ _⟩
  · subst same
    have named : (model.closeHandle handle).names boxName.tail = some id := stream.names
    refine ⟨_, stream.change files' ?_ ?_, ?_⟩
    · rw [collect_names]
      rfl
    · rw [collect_named named]
      rfl
    · intro other place different holds
      rw [collect_handles]
      exact (Function.update_of_ne (handle_ne different) _ _).trans holds

theorem unlinks {path : CString} {result : CallResult}
    (stream : StreamFiles params boxName id fs stored model) (different : path ≠ boxName)
    (returned : Call.run (.tfsUnlink (some path)) fs = .ok (result, fs')) :
    ∃ model', StreamFiles params boxName id fs' stored model' ∧
      HandlesKept model model' none := by
  rcases stream.files.unlinks returned with ⟨_, _, files'⟩ | ⟨file, valid, _, _, files'⟩
  · exact ⟨model, stream.change files' rfl rfl, .refl _ _⟩
  · have kept : (model.unbind path.tail).names boxName.tail = model.names boxName.tail := by
      apply Function.update_of_ne
      intro same
      exact different (valid.eq_of_tail stream.valid same.symm)
    refine ⟨_, stream.change files' ?_ ?_, ?_⟩
    · rw [collect_names]
      exact kept
    · rw [collect_named (kept.trans stream.names)]
      rfl
    · intro other place _ holds
      rw [collect_handles]
      exact holds

/-! ### Reading and writing messages -/

/-- A read gets the next message, or nothing when there is none. -/
theorem reads {f : Int} {result : CallResult}
    (stream : StreamFiles params boxName id fs stored model)
    (returned : (readCall f).run fs = .ok (result, fs')) :
    ∃ model', StreamFiles params boxName id fs' stored model' ∧
      HandlesKept model model' (some f) ∧
      ∀ messages, messages <+: stored → AtOffset model id f (msgMaxLen * messages.length) →
        (result.length = msgMaxLen → ∃ message : Message, result.bytes = message.bytes ∧
          messages ++ [message] <+: stored ∧
          AtOffset model' id f (msgMaxLen * (messages ++ [message]).length)) ∧
        (result.length ≠ msgMaxLen → messages = stored ∧
          AtOffset model' id f (msgMaxLen * messages.length)) := by
  obtain ⟨model', step, files'⟩ := stream.files.step (.reads f) returned
  refine ⟨model', ?_⟩
  cases step with
  | readInvalid _ invalid =>
      refine ⟨stream.change files' rfl rfl, .refl _ _, ?_⟩
      rintro messages _ ⟨handle, same, holds⟩
      rcases invalid with unbuffered | closed
      · cases unbuffered
      · rw [closed handle same] at holds
        cases holds
  | @reads handle offset _ length file contents holds isFile count =>
      refine ⟨stream.change files' rfl rfl, .setHandle, ?_⟩
      rintro messages ⟨rest, whole⟩ ⟨other, same, atOffset⟩
      rw [← Int.ofNat_inj.mp same, holds, Option.some.injEq, Prod.mk.injEq] at atOffset
      obtain ⟨rfl, rfl⟩ := atOffset
      rw [stream.contents, Option.some.injEq] at isFile
      subst isFile
      have total := messageBytes_length stored
      rw [← whole, List.length_append] at total
      rw [whole] at total
      have inside : min (msgMaxLen * messages.length) (messageBytes stored).length =
          msgMaxLen * messages.length := by
        rw [total, Nat.mul_add]
        omega
      rw [inside] at count ⊢
      have full : msgMaxLen ≠ 0 := by decide
      cases rest with
      | nil =>
          rw [List.append_nil] at whole
          have nothing : length = 0 := by
            rw [count, total, List.length_nil, Nat.add_zero, Nat.sub_self, Nat.min_zero]
          subst nothing
          constructor
          · intro read
            exact (full (Int.ofNat_inj.mp read).symm).elim
          · intro _
            exact ⟨whole, atOffset_setHandle⟩
      | cons message rest =>
          have one : length = msgMaxLen := by
            rw [count, total, List.length_cons, Nat.mul_add, Nat.mul_succ]
            omega
          subst one
          constructor
          · intro _
            refine ⟨message, ?_, ⟨rest, ?_⟩, ?_⟩
            · rw [← whole]
              exact messageBytes_next messages rest message
            · rw [List.append_assoc]
              exact whole
            · rw [List.length_append, Nat.mul_add]
              exact atOffset_setHandle
          · intro short
            exact (short rfl).elim

/-- A write at the end stores the whole message, or none of it when the block is full. -/
theorem appends {f : Int} {message : Message} {result : CallResult}
    (stream : StreamFiles params boxName id fs stored model)
    (atEnd : AtOffset model id f (msgMaxLen * stored.length))
    (returned : (writeCall f message).run fs = .ok (result, fs')) :
    ∃ model', HandlesKept model model' (some f) ∧
      (result.length = msgMaxLen →
        StreamFiles params boxName id fs' (stored ++ [message]) model' ∧
        AtOffset model' id f (msgMaxLen * (stored ++ [message]).length)) ∧
      (result.length ≠ msgMaxLen → StreamFiles params boxName id fs' stored model' ∧
        AtOffset model' id f (msgMaxLen * stored.length) ∧
        1024 * 1024 < msgMaxLen * (stored.length + 1)) := by
  obtain ⟨model', step, files'⟩ := stream.files.step (.writes f message) returned
  obtain ⟨place, same, atEnd⟩ := atEnd
  refine ⟨model', ?_⟩
  cases step with
  | writeInvalid _ invalid =>
      rcases invalid with unbuffered | closed
      · cases unbuffered
      · rw [closed place same] at atEnd
        cases atEnd
  | @writes handle offset _ file contents _ written _ holds isFile write =>
      rw [← Int.ofNat_inj.mp same, holds, Option.some.injEq, Prod.mk.injEq] at atEnd
      obtain ⟨rfl, rfl⟩ := atEnd
      rw [stream.contents, Option.some.injEq] at isFile
      subst isFile
      have whole : message.bytes.take msgMaxLen = message.bytes :=
        List.take_of_length_le (Nat.le_of_eq message.length_eq)
      have size := messageBytes_length stored
      have fits := stream.fits
      have inside : min (msgMaxLen * stored.length) (messageBytes stored).length =
          msgMaxLen * stored.length := by
        rw [size, Nat.min_self]
      rw [whole] at write
      -- Both the block and the file are made of whole messages.
      cases write with
      | nothing full =>
          rw [inside, message.length_eq] at full
          rw [inside] at files' ⊢
          refine ⟨.setHandle, ?_, fun _ => ⟨stream.change files' rfl rfl, atOffset_setHandle, ?_⟩⟩
          · intro impossible
            have refused : (0 : Int) ≠ msgMaxLen := by decide
            exact (refused impossible).elim
          · rw [Nat.mul_succ]
            unfold msgMaxLen at full ⊢
            omega
      | noBlock _ _ blocked => exact (blocked stream.files.blockFree).elim
      | @stored length room nonzero _ =>
          rw [inside, message.length_eq] at room
          have one : length = msgMaxLen ∧
              msgMaxLen * stored.length + msgMaxLen ≤ 1024 * 1024 := by
            unfold msgMaxLen at room fits ⊢
            omega
          obtain ⟨rfl, block⟩ := one
          have appended : overwrite (messageBytes stored) (msgMaxLen * stored.length)
              (message.bytes.take msgMaxLen) = messageBytes (stored ++ [message]) := by
            unfold overwrite
            rw [whole, messageBytes_append, List.take_of_length_le (Nat.le_of_eq size),
              List.drop_of_length_le (by omega), List.append_nil]
          rw [inside, appended] at files' ⊢
          refine ⟨.setHandle, fun _ => ?_, fun short => (short rfl).elim⟩
          rw [List.length_append, Nat.mul_add]
          refine ⟨?_, atOffset_setHandle⟩
          constructor
          · exact files'
          · exact stream.valid
          · exact stream.names
          · exact Function.update_self _ _ _
          · rw [List.length_append, Nat.mul_add]
            exact block

theorem writesElsewhere {f : Int} {message : Message} {result : CallResult}
    (stream : StreamFiles params boxName id fs stored model)
    (elsewhere : ∀ offset, ¬ AtOffset model id f offset)
    (returned : (writeCall f message).run fs = .ok (result, fs')) :
    ∃ model', StreamFiles params boxName id fs' stored model' ∧
      HandlesKept model model' (some f) ∧ ∀ offset, ¬ AtOffset model' id f offset := by
  obtain ⟨model', step, files'⟩ := stream.files.step (.writes f message) returned
  refine ⟨model', ?_⟩
  cases step with
  | writeInvalid _ _ => exact ⟨stream.change files' rfl rfl, .refl _ _, elsewhere⟩
  | @writes handle offset _ file contents _ written _ holds isFile write =>
      have different : file ≠ id := by
        intro same
        rw [same] at holds
        exact elsewhere offset ⟨handle, rfl, holds⟩
      cases write with
      | nothing _ =>
          exact ⟨stream.change files' rfl rfl, .setHandle, not_atOffset_setHandle different⟩
      | noBlock _ _ _ =>
          exact ⟨stream.change files' rfl rfl, .setHandle, not_atOffset_setHandle different⟩
      | stored _ _ _ =>
          refine ⟨stream.change files' rfl ?_, .setHandle, not_atOffset_setHandle different⟩
          exact Function.update_of_ne (Ne.symm different) _ _

end StreamFiles

end TecnicoFS.Mbroker
