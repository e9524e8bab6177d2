/-
The answers to the requests that create and remove a box: what the handlers of `mbroker.c`
send and `manager_handle_box_management` prints.
-/

import TecnicoFS.Library.LittleEndian
import TecnicoFS.Mbroker.Management
import TecnicoFS.Protocol.RegisterPipe

set_option autoImplicit false

namespace TecnicoFS.Manager

open FileSystem Protocol Mbroker LittleEndian

def protocolCodeCreateAnswer : UInt8 := 4

def protocolCodeRemoveAnswer : UInt8 := 6

/-! ### The handlers -/

/-- `packet_len` of both handlers -/
def answerPacketLen : Nat := 1 + 4 + msgMaxLen

/-- "Couldn't create box" -/
def createFailure : CString where
  bytes := [67, 111, 117, 108, 100, 110, 39, 116, 32, 99, 114, 101, 97, 116, 101, 32, 98, 111,
    120]
  noNul := by decide

/-- "Couldn't remove box" -/
def removeFailure : CString where
  bytes := [67, 111, 117, 108, 100, 110, 39, 116, 32, 114, 101, 109, 111, 118, 101, 32, 98, 111,
    120]
  noNul := by decide

/-- `error_message`, into which the failure is copied when there is one -/
def errorMessage (failure : CString) (returnCode : Int) : Except Fault (CharArray msgMaxLen) :=
  if returnCode = 0 then
    pure (.zeroed msgMaxLen)
  else
    orUndefined ((CharArray.zeroed msgMaxLen).memcpy 0 (failure.bytes ++ [0]))

/-- The packet of a handler that answers with the code -/
def answerPacket (code : UInt8) (failure : CString) (returnCode : Int) :
    Except Fault (List UInt8) := do
  let packet ← (Packet.empty answerPacketLen).write [code]
  let message ← errorMessage failure returnCode
  let packet ← packet.write (encodeSigned 4 returnCode)
  let text ← orUndefined message.string?
  let packet ← packet.write text.bytes
  pure packet.array.bytes

/-- The packet `workers_handle_manager_create` sends -/
def createAnswer (returnCode : Int) : Except Fault (List UInt8) :=
  answerPacket protocolCodeCreateAnswer createFailure returnCode

/-- The packet `workers_handle_manager_remove` sends -/
def removeAnswer (returnCode : Int) : Except Fault (List UInt8) :=
  answerPacket protocolCodeRemoveAnswer removeFailure returnCode

/-! ### The manager -/

/-- What the manager prints of an answer -/
inductive Reply where
  | ok
  | error (message : CString)
deriving DecidableEq

/-- `manager_handle_box_management`, given whether `client_request_connection` succeeds and the
session pipe opens, and what arrives on the pipe -/
def managerHandleBoxManagement (connects opens : Bool) (pipe : List UInt8) :
    Except Fault (Int × Option Reply) :=
  if ¬ connects then
    pure (-1, none)
  else if ¬ opens then
    pure (-1, none)
  else
    let (bytesRead, code, pipe) := pipeRead pipe 1
    if bytesRead ≤ 0 then
      pure (-1, none)
    else if code.head? ≠ some protocolCodeCreateAnswer ∧
        code.head? ≠ some protocolCodeRemoveAnswer then
      pure (-1, none)
    else
      let (bytesRead, returnCode, pipe) := pipeRead pipe 4
      if bytesRead ≤ 0 then
        pure (-1, none)
      else if decodeSigned returnCode = 0 then
        pure (0, some .ok)
      else
        match readArray pipe msgMaxLen with
        | none => pure (-1, none)
        | some (message, _) => do
            let text ← orUndefined message.string?
            pure (0, some (.error text))

/-! ### An answer and what is printed of it -/

/-- The bytes of an answer -/
def answerBytes (code : UInt8) (failure : CString) (returnCode : Int) : List UInt8 :=
  let text := if returnCode = 0 then [] else failure.bytes
  code :: (encodeSigned 4 returnCode ++ (text ++ List.replicate (msgMaxLen - text.length) 0))

variable {code : UInt8} {failure : CString} {returnCode : Int}

theorem errorMessage_string (short : failure.strlen < msgMaxLen) :
    ∃ message, errorMessage failure returnCode = .ok message ∧ ∃ text, message.string? = some text ∧
      text.bytes = if returnCode = 0 then [] else failure.bytes := by
  unfold errorMessage
  by_cases success : returnCode = 0
  · rw [if_pos success, if_pos success]
    have stored : (CharArray.zeroed msgMaxLen).bytes =
        ([] : List UInt8) ++ 0 :: List.replicate (msgMaxLen - 1) 0 := rfl
    exact ⟨_, rfl, ⟨[], List.not_mem_nil⟩, CharArray.string?_eq_some stored, rfl⟩
  · rw [if_neg success, if_neg success]
    have fits : 0 + (failure.bytes ++ [0]).length ≤ msgMaxLen := by
      rw [List.length_append, Nat.zero_add]
      exact short
    obtain ⟨message, copied, bytes⟩ := (CharArray.zeroed msgMaxLen).memcpy_eq_some fits
    have stored : message.bytes = failure.bytes ++
        0 :: (CharArray.zeroed msgMaxLen).bytes.drop (0 + (failure.bytes ++ [0]).length) := by
      rw [bytes, List.append_assoc]
      rfl
    refine ⟨message, ?_, failure, CharArray.string?_eq_some stored, rfl⟩
    rw [copied]
    rfl

theorem answerPacket_eq (short : failure.strlen < msgMaxLen) :
    answerPacket code failure returnCode = .ok (answerBytes code failure returnCode) := by
  obtain ⟨message, filled, text, found, bytes⟩ := @errorMessage_string failure returnCode short
  have inside : text.bytes.length < msgMaxLen := CharArray.string?_strlen found
  have four := encodeSigned_length 4 returnCode
  obtain ⟨coded, wroteCode, holdsCode⟩ := (Packet.empty_holds answerPacketLen).write [code]
    (show 0 + 1 ≤ answerPacketLen by decide)
  obtain ⟨returned, wroteReturn, holdsReturn⟩ := holdsCode.write (encodeSigned 4 returnCode) (by
    rw [four]
    exact (by decide : 1 + 4 ≤ answerPacketLen))
  obtain ⟨ended, wroteText, holdsText⟩ := holdsReturn.write text.bytes (by
    rw [List.length_append, four]
    change 1 + 4 + text.bytes.length ≤ 1 + 4 + msgMaxLen
    omega)
  have padding : answerPacketLen -
      ([] ++ [code] ++ encodeSigned 4 returnCode ++ text.bytes).length =
        msgMaxLen - text.bytes.length := by
    rw [List.length_append, List.length_append, four]
    change 1 + 4 + msgMaxLen - (1 + 4 + text.bytes.length) = _
    omega
  unfold answerPacket
  simp only [wroteCode, filled, wroteReturn, found, orUndefined, wroteText, bind, Except.bind]
  change Except.ok ended.array.bytes = _
  rw [holdsText.bytes, padding]
  unfold answerBytes
  dsimp only
  rw [← bytes, List.append_assoc, List.append_assoc]
  rfl

/-- The manager prints the answer it is sent, whatever comes behind it. -/
theorem managerHandleBoxManagement_answer (short : failure.strlen < msgMaxLen)
    (isAnswer : code = protocolCodeCreateAnswer ∨ code = protocolCodeRemoveAnswer)
    (lower : -(2 ^ 31) ≤ returnCode) (upper : returnCode < 2 ^ 31) (rest : List UInt8) :
    managerHandleBoxManagement true true (answerBytes code failure returnCode ++ rest) =
      .ok (0, some (if returnCode = 0 then .ok else .error failure)) := by
  have decoded : decodeSigned (encodeSigned 4 returnCode) = returnCode :=
    decodeSigned_encodeSigned 4 returnCode (by omega) (by omega)
  have four := encodeSigned_length 4 returnCode
  have first (behind : List UInt8) : pipeRead (code :: behind) 1 =
      (((1 : Nat) : Int), [code], behind) := @pipeRead_whole [code] behind 1 rfl
  have known : ¬ ([code].head? ≠ some protocolCodeCreateAnswer ∧
      [code].head? ≠ some protocolCodeRemoveAnswer) := by
    rintro ⟨notCreate, notRemove⟩
    rcases isAnswer with rfl | rfl
    · exact notCreate rfl
    · exact notRemove rfl
  have one : ¬ ((1 : Nat) : Int) ≤ 0 := by decide
  have next : ¬ ((4 : Nat) : Int) ≤ 0 := by decide
  unfold managerHandleBoxManagement answerBytes
  rw [if_neg (fun refused => refused rfl), if_neg (fun refused => refused rfl)]
  dsimp only
  rw [List.cons_append]
  simp only [first, List.append_assoc, pipeRead_whole four]
  rw [if_neg one, if_neg known, if_neg next, decoded]
  by_cases success : returnCode = 0
  · rw [if_pos success, if_pos success]
    rfl
  · rw [if_neg success, if_neg success]
    have bound : failure.bytes.length < msgMaxLen := short
    have whole : (failure.bytes ++ List.replicate (msgMaxLen - failure.bytes.length) 0).length =
        msgMaxLen := by
      rw [List.length_append, List.length_replicate]
      omega
    have room : msgMaxLen - failure.bytes.length = msgMaxLen - failure.bytes.length - 1 + 1 := by
      omega
    have found : CharArray.string?
        ⟨failure.bytes ++ List.replicate (msgMaxLen - failure.bytes.length) 0, whole⟩ =
          some failure := by
      apply CharArray.string?_eq_some
      dsimp only
      rw [room, List.replicate_succ]
    rw [if_neg success, ← List.append_assoc, readArray_whole (by decide) whole]
    dsimp only
    rw [found]
    rfl

/-! ### Requests and what is printed of them -/

theorem createFailure_short : createFailure.strlen < msgMaxLen := by decide

theorem removeFailure_short : removeFailure.strlen < msgMaxLen := by decide

theorem createAnswer_eq (returnCode : Int) : createAnswer returnCode =
    .ok (answerBytes protocolCodeCreateAnswer createFailure returnCode) :=
  answerPacket_eq createFailure_short

theorem removeAnswer_eq (returnCode : Int) : removeAnswer returnCode =
    .ok (answerBytes protocolCodeRemoveAnswer removeFailure returnCode) :=
  answerPacket_eq removeFailure_short

/-- The handler returns a code, and the manager prints the reply of the packet sent for it. -/
def PrintedAs {α : Type} (handled : Except Fault (Int × α))
    (answer : Int → Except Fault (List UInt8)) (reply : Reply) : Prop :=
  ∃ returnCode after packet, handled = .ok (returnCode, after) ∧ answer returnCode = .ok packet ∧
    ∀ rest, managerHandleBoxManagement true true (packet ++ rest) = .ok (0, some reply)

theorem printedAs_create {α : Type} {after : α} {handled : Except Fault (Int × α)}
    (returned : handled = .ok (returnCode, after)) (small : returnCode = 0 ∨ returnCode = -1) :
    PrintedAs handled createAnswer (if returnCode = 0 then .ok else .error createFailure) := by
  refine ⟨returnCode, after, _, returned, createAnswer_eq returnCode, ?_⟩
  intro rest
  apply managerHandleBoxManagement_answer createFailure_short (Or.inl rfl)
  · omega
  · omega

theorem printedAs_remove {α : Type} {after : α} {handled : Except Fault (Int × α)}
    (returned : handled = .ok (returnCode, after)) (small : returnCode = 0 ∨ returnCode = -1) :
    PrintedAs handled removeAnswer (if returnCode = 0 then .ok else .error removeFailure) := by
  refine ⟨returnCode, after, _, returned, removeAnswer_eq returnCode, ?_⟩
  intro rest
  apply managerHandleBoxManagement_answer removeFailure_short (Or.inr rfl)
  · omega
  · omega

variable {Thread : Type} {params : MbrokerParams} {server server' : Server Thread}
  {model : FileSystem.Model Nat} {names : Finset CString}

theorem outcome_code {request : ManagerRequest} {after : Server Thread}
    (outcome : Manages.Outcome params server model names request returnCode after) :
    (returnCode = 0 ∨ returnCode = -1) ∧ (returnCode = 0 ↔ Grants names request) := by
  cases outcome with
  | granted grants _ => exact ⟨Or.inl rfl, fun _ => grants, fun _ => rfl⟩
  | refused refuses _ =>
      refine ⟨Or.inr rfl, fun impossible => absurd impossible (by decide), ?_⟩
      intro grants
      exact absurd grants refuses

/-- After any requests, a manager that asks for a box to be created or removed prints OK when
the set of names grants the request, and the failure of its request otherwise. -/
theorem management_printed {requests : List ManagerRequest} (started : MbrokerInit params server)
    (small : params.maxSessions < 2 ^ 31) (run : ManagementRun server requests server')
    (short : ∀ request ∈ requests, request.Short) (name : CString) (fits : name.strlen ≤ 30) :
    PrintedAs (workersHandleManagerCreate server' (rootPath name)) createAnswer
        (if Grants (namesAfter requests) (.create name) then .ok else .error createFailure) ∧
      PrintedAs (workersHandleManagerRemove server' (rootPath name)) removeAnswer
        (if Grants (namesAfter requests) (.remove name) then .ok else .error removeFailure) := by
  obtain ⟨model, manages⟩ := run.manages started short
  constructor
  · obtain ⟨code, after, returned⟩ := manages.create_returns small (rootPath name)
    obtain ⟨range, grants⟩ := outcome_code (manages.create fits returned)
    simp only [← grants]
    exact printedAs_create returned range
  · obtain ⟨code, after, returned⟩ := manages.remove_returns small (rootPath name)
    obtain ⟨range, grants⟩ := outcome_code (manages.remove returned)
    simp only [← grants]
    exact printedAs_remove returned range

/-- A box that was just created is refused the second time and may be removed. -/
theorem management_printed_boxA :
    ∃ server : Server (Fin twoSessions.maxSessions),
      PrintedAs (workersHandleManagerCreate server (rootPath boxA)) createAnswer
          (.error createFailure) ∧
        PrintedAs (workersHandleManagerRemove server (rootPath boxA)) removeAnswer .ok := by
  obtain ⟨fs, _, started⟩ := exists_started (fun _ => ⟨boxA, 0, 0, 0⟩)
  have short : ∀ request ∈ [ManagerRequest.create boxA], request.Short := by decide
  obtain ⟨server, run⟩ := ManagementRun.exists started (by decide) short
  have printed := management_printed started (by decide) run short boxA (by decide)
  have refused : ¬ Grants (namesAfter [.create boxA]) (.create boxA) := by decide
  have granted : Grants (namesAfter [.create boxA]) (.remove boxA) := by decide
  rw [if_neg refused, if_pos granted] at printed
  exact ⟨server, printed⟩

end TecnicoFS.Manager
