/-
The requests on the register pipe: `client_request_connection` writes them and the
listener loop of `mbroker.c` reads them.

The listener puts a slash in front of the box name and copies both into a field as long as
the name's field on the wire, so a name that fills its field on the wire does not fit.
-/

import TecnicoFS.FileSystem.Namespace
import TecnicoFS.Protocol.Packet

set_option autoImplicit false

namespace TecnicoFS.Protocol

open FileSystem

/-- The protocol codes of the requests -/
inductive RequestCode where
  | pubRegister
  | subRegister
  | createRequest
  | removeRequest
  | listRequest
deriving DecidableEq

/-- `PROTOCOL_CODE_PUB_REGISTER` and so on -/
def RequestCode.code : RequestCode → Int
  | .pubRegister => 1
  | .subRegister => 2
  | .createRequest => 3
  | .removeRequest => 5
  | .listRequest => 7

def protocolCodes : List UInt8 := [1, 2, 3, 5, 7]

def protocolCodeListRequest : UInt8 := 7

/-! ### Clients -/

/-- The arguments a client calls `client_request_connection` with: every request but a
listing has a box name, and the path ends inside its buffer. -/
structure ClientRequest where
  code : RequestCode
  sessionPipename : CharArray clientNamedPipeMaxLen
  path : CString
  boxName : Option CString
  terminated : sessionPipename.string? = some path
  named : boxName = none ↔ code = .listRequest
  short : ∀ name, boxName = some name → name.strlen < boxNameMaxLen

/-- `packet_len` of `client_request_connection` -/
def ClientRequest.packetLen (request : ClientRequest) : Nat :=
  1 + clientNamedPipeMaxLen + if request.boxName.isSome then boxNameMaxLen else 0

/-- `client_request_connection` up to its `pipe_write`: the packet, if it is not too long -/
def clientRequestConnection (request : ClientRequest) : Except Fault (Option (List UInt8)) :=
  if request.packetLen > pipeBufferMaxLen then
    pure none
  else do
    let packet := Packet.empty request.packetLen
    let packet ← packet.write ((ByteMemory.encodeInt32 request.code.code).take 1)
    let packet ← packet.write request.sessionPipename.bytes
    let packet ←
      match request.boxName with
      | some boxName => packet.write boxName.bytes
      | none => pure packet
    pure (some packet.array.bytes)

/-! ### The listener -/

/-- `request_t` -/
structure Request where
  code : UInt8
  clientNamedPipePath : CharArray clientNamedPipeMaxLen
  boxName : CharArray boxNameMaxLen
deriving DecidableEq

/-- What the listener reads from and where it puts the requests -/
structure Listener where
  registerPipe : List UInt8
  requestsQueue : List Request

/-- A string function that left its array -/
def orUndefined {α : Type} : Option α → Except Fault α
  | some value => .ok value
  | none => .error .undefined

/-- `strcpy(array + offset, buffer)` from the buffer filled by a read -/
def strcpyFrom {size : Nat} (array : CharArray size) (offset : Nat) (buffer : List UInt8) :
    Except Fault (CharArray size) :=
  orUndefined (array.strcpy offset (⟨buffer, rfl⟩ : CharArray buffer.length))

/-- `mbroker_receive_connection`; `malloc` returned `request` with whatever was in it. -/
def mbrokerReceiveConnection (code : UInt8) (request : Request) (listener : Listener) :
    Except Fault (Int × Listener) := do
  let request := { request with code := code }
  let (bytesRead, buffer, pipe) := pipeRead listener.registerPipe clientNamedPipeMaxLen
  if bytesRead ≤ 0 then
    pure (-1, { listener with registerPipe := pipe })
  else
    let path ← strcpyFrom request.clientNamedPipePath 0 buffer
    let request := { request with clientNamedPipePath := path }
    if request.code ≠ protocolCodeListRequest then
      let (bytesRead, buffer, pipe) := pipeRead pipe boxNameMaxLen
      if bytesRead ≤ 0 then
        pure (-1, { listener with registerPipe := pipe })
      else
        let boxName ← orUndefined (request.boxName.memcpy 0 [slash])
        let boxName ← strcpyFrom boxName 1 buffer
        let request := { request with boxName := boxName }
        pure (0, { registerPipe := pipe, requestsQueue := listener.requestsQueue ++ [request] })
    else
      pure (0, { registerPipe := pipe, requestsQueue := listener.requestsQueue ++ [request] })

/-- The inner loop of `main`, with what its last read returned and the code it read.  An
unknown code is looked at again and again. -/
def listenerLoop (mallocs : Nat → Request) : Nat → Int → UInt8 → Listener →
    Except Fault (Int × Listener)
  | 0, _, _, _ => .error .diverges
  | fuel + 1, bytesRead, code, listener =>
      if ¬ bytesRead > 0 then
        pure (bytesRead, listener)
      else if code ∉ protocolCodes then
        listenerLoop mallocs fuel bytesRead code listener
      else do
        let (result, listener) ←
          mbrokerReceiveConnection code (mallocs listener.requestsQueue.length) listener
        if result ≠ 0 then
          pure (result, listener)
        else
          let (bytesRead, buffer, pipe) := pipeRead listener.registerPipe 1
          listenerLoop mallocs fuel bytesRead (buffer.headD code)
            { listener with registerPipe := pipe }

/-- `main` reads the register pipe until it is empty. -/
def listen (mallocs : Nat → Request) (fuel : Nat) (listener : Listener) :
    Except Fault (Int × Listener) :=
  let (bytesRead, buffer, pipe) := pipeRead listener.registerPipe 1
  listenerLoop mallocs fuel bytesRead (buffer.headD 0) { listener with registerPipe := pipe }

/-! ### One packet -/

/-- The bytes behind the path on the wire -/
def ClientRequest.wireName (request : ClientRequest) : List UInt8 :=
  match request.boxName with
  | some name => name.bytes ++ List.replicate (boxNameMaxLen - name.strlen) 0
  | none => []

/-- The bytes of the request on the wire -/
def ClientRequest.wire (request : ClientRequest) : List UInt8 :=
  UInt8.ofNat request.code.code.toNat :: (request.sessionPipename.bytes ++ request.wireName)

/-- The name's field has room for the slash. -/
def ClientRequest.Fits (request : ClientRequest) : Prop :=
  ∀ name, request.boxName = some name → name.strlen + 1 < boxNameMaxLen

/-- What the listener makes of a request -/
structure Request.Decodes (received : Request) (request : ClientRequest) : Prop where
  code : (received.code.toNat : Int) = request.code.code
  path : received.clientNamedPipePath.string? = some request.path
  boxName : ∀ name, request.boxName = some name → received.boxName.string? = some (rootPath name)

theorem RequestCode.encode (code : RequestCode) :
    (ByteMemory.encodeInt32 code.code).take 1 = [UInt8.ofNat code.code.toNat] := by
  cases code <;> rfl

theorem RequestCode.code_facts (code : RequestCode) :
    UInt8.ofNat code.code.toNat ∈ protocolCodes ∧
      ((UInt8.ofNat code.code.toNat).toNat : Int) = code.code ∧
      (UInt8.ofNat code.code.toNat = protocolCodeListRequest ↔ code = .listRequest) := by
  cases code <;> decide

/-- The client writes the packet and nothing else. -/
theorem clientRequestConnection_wire (request : ClientRequest) :
    clientRequestConnection request = .ok (some request.wire) := by
  have small : ¬ request.packetLen > pipeBufferMaxLen := by
    unfold ClientRequest.packetLen
    split <;> decide
  have head : 1 + clientNamedPipeMaxLen ≤ request.packetLen := Nat.le_add_right _ _
  have whole := request.sessionPipename.length_eq
  obtain ⟨coded, wroteCode, holdsCode⟩ := (Packet.empty_holds request.packetLen).write
    [UInt8.ofNat request.code.code.toNat] (Nat.le_trans (Nat.le_add_right _ _) head)
  obtain ⟨pathed, wrotePath, holdsPath⟩ := holdsCode.write request.sessionPipename.bytes (by
    rw [whole]
    exact head)
  unfold clientRequestConnection
  rw [if_neg small, request.code.encode]
  simp only [wroteCode, wrotePath, bind, Except.bind]
  unfold ClientRequest.wire ClientRequest.wireName
  cases named : request.boxName with
  | none =>
      have length : request.packetLen = 1 + clientNamedPipeMaxLen := by
        unfold ClientRequest.packetLen
        rw [named]
        rfl
      have full : ([] ++ [UInt8.ofNat request.code.code.toNat] ++
          request.sessionPipename.bytes).length = 1 + clientNamedPipeMaxLen := by
        rw [List.length_append, whole]
        rfl
      change Except.ok (some pathed.array.bytes) = _
      rw [holdsPath.bytes, length, full, Nat.sub_self]
      rfl
  | some name =>
      have short := request.short name named
      have length : request.packetLen = 1 + clientNamedPipeMaxLen + boxNameMaxLen := by
        unfold ClientRequest.packetLen
        rw [named]
        rfl
      obtain ⟨filled, wroteName, holdsName⟩ := holdsPath.write name.bytes (by
        rw [length, List.length_append, whole]
        unfold CString.strlen at short
        change 1 + clientNamedPipeMaxLen + name.bytes.length ≤ _
        omega)
      simp only [wroteName]
      change Except.ok (some filled.array.bytes) = _
      rw [holdsName.bytes, length, List.length_append, List.length_append, whole]
      change Except.ok (some (_ ++ List.replicate (1 + clientNamedPipeMaxLen + boxNameMaxLen -
        (1 + clientNamedPipeMaxLen + name.strlen)) 0)) = _
      rw [Nat.add_sub_add_left, List.append_assoc, List.append_assoc]
      rfl

/-! ### The listener on packets -/

/-- A buffer filled with bytes that hold a string -/
theorem strcpyFrom_ok {size offset : Nat} (array : CharArray size) {text : CString}
    {rest : List UInt8} (inside : offset + text.strlen < size) :
    ∃ written, strcpyFrom array offset (text.bytes ++ 0 :: rest) = .ok written ∧
      ∃ rest, written.bytes = array.bytes.take offset ++ (text.bytes ++ 0 :: rest) := by
  have found : CharArray.string? ⟨text.bytes ++ 0 :: rest, rfl⟩ = some text :=
    CharArray.string?_eq_some rfl
  obtain ⟨written, copied, bytes⟩ := CharArray.strcpy_eq_some array found inside
  refine ⟨written, ?_, bytes⟩
  unfold strcpyFrom
  rw [copied]
  rfl

theorem strcpyFrom_undefined {size offset : Nat} (array : CharArray size) {text : CString}
    {rest : List UInt8} (outside : size ≤ offset + text.strlen) :
    strcpyFrom array offset (text.bytes ++ 0 :: rest) = .error .undefined := by
  unfold strcpyFrom
  rw [CharArray.strcpy_eq_none array (CharArray.string?_eq_some rfl) outside]
  rfl

/-- The path is copied whole into its field. -/
theorem strcpyFrom_path (request : ClientRequest) (array : CharArray clientNamedPipeMaxLen) :
    ∃ path, strcpyFrom array 0 request.sessionPipename.bytes = .ok path ∧
      path.string? = some request.path := by
  obtain ⟨rest, stored⟩ := CharArray.string?_stored request.terminated
  have inside := CharArray.string?_strlen request.terminated
  have fits : 0 + request.path.strlen < clientNamedPipeMaxLen := by
    rw [Nat.zero_add]
    exact inside
  rw [stored]
  obtain ⟨path, copied, rest', bytes⟩ := strcpyFrom_ok array fits
  exact ⟨path, copied, CharArray.string?_eq_some bytes⟩

/-- The name's field on the wire holds the name and its end. -/
theorem ClientRequest.wireName_some (request : ClientRequest) {name : CString}
    (named : request.boxName = some name) : request.wireName.length = boxNameMaxLen ∧
      ∃ rest, request.wireName = name.bytes ++ 0 :: rest := by
  have short := request.short name named
  unfold ClientRequest.wireName
  rw [named]
  constructor
  · rw [List.length_append, List.length_replicate]
    unfold CString.strlen at short ⊢
    omega
  · refine ⟨List.replicate (boxNameMaxLen - name.strlen - 1) 0, ?_⟩
    have padded : boxNameMaxLen - name.strlen = boxNameMaxLen - name.strlen - 1 + 1 := by omega
    change name.bytes ++ List.replicate (boxNameMaxLen - name.strlen) 0 = _
    rw [padded, List.replicate_succ]
    rfl

/-- The slash goes in front of the name. -/
theorem memcpy_slash (array : CharArray boxNameMaxLen) :
    ∃ slashed, orUndefined (array.memcpy 0 [slash]) = .ok slashed ∧
      slashed.bytes.take 1 = [slash] := by
  have inside : 0 + [slash].length ≤ boxNameMaxLen := by decide
  obtain ⟨slashed, copied, bytes⟩ := CharArray.memcpy_eq_some array inside
  refine ⟨slashed, ?_, ?_⟩
  · rw [copied]
    rfl
  · rw [bytes]
    rfl

/-- A request whose name leaves room for the slash is received as it was sent. -/
theorem mbrokerReceiveConnection_fits (request : ClientRequest) (fits : request.Fits)
    (malloc : Request) (rest : List UInt8) (queue : List Request) :
    ∃ received, received.Decodes request ∧
      mbrokerReceiveConnection (UInt8.ofNat request.code.code.toNat) malloc
          ⟨request.sessionPipename.bytes ++ (request.wireName ++ rest), queue⟩ =
        .ok (0, ⟨rest, queue ++ [received]⟩) := by
  obtain ⟨_, decoded, isList⟩ := request.code.code_facts
  obtain ⟨path, copiedPath, pathString⟩ := strcpyFrom_path request malloc.clientNamedPipePath
  unfold mbrokerReceiveConnection
  simp only [pipeRead_whole request.sessionPipename.length_eq, copiedPath, bind, Except.bind]
  have positive : ¬ (clientNamedPipeMaxLen : Int) ≤ 0 := by decide
  rw [if_neg positive]
  cases named : request.boxName with
  | none =>
      have listing := isList.mpr (request.named.mp named)
      have wireName : request.wireName = [] := by
        unfold ClientRequest.wireName
        rw [named]
      rw [if_neg (fun different => different listing), wireName]
      refine ⟨_, ⟨decoded, pathString, ?_⟩, rfl⟩
      intro name some
      rw [named] at some
      cases some
  | some name =>
      have other : UInt8.ofNat request.code.code.toNat ≠ protocolCodeListRequest := by
        intro listing
        rw [request.named.mpr (isList.mp listing)] at named
        cases named
      obtain ⟨length, wireRest, stored⟩ := request.wireName_some named
      obtain ⟨slashed, copiedSlash, front⟩ := memcpy_slash malloc.boxName
      have inside : 1 + name.strlen < boxNameMaxLen := by
        have room := fits name named
        omega
      obtain ⟨boxName, copiedName, fieldRest, bytes⟩ :
          ∃ boxName, strcpyFrom slashed 1 (name.bytes ++ 0 :: wireRest) = .ok boxName ∧ _ :=
        strcpyFrom_ok slashed inside
      rw [← stored] at copiedName
      have positiveName : ¬ (boxNameMaxLen : Int) ≤ 0 := by decide
      simp only [pipeRead_whole length]
      rw [if_pos other, if_neg positiveName]
      simp only [copiedSlash, copiedName]
      refine ⟨_, ⟨decoded, pathString, ?_⟩, rfl⟩
      intro name' some
      rw [named, Option.some.injEq] at some
      subst some
      rw [front] at bytes
      exact CharArray.string?_eq_some bytes

/-- A request whose name leaves no room for the slash is copied past the end of its field. -/
theorem mbrokerReceiveConnection_overflows (request : ClientRequest) (overflows : ¬ request.Fits)
    (malloc : Request) (rest : List UInt8) (queue : List Request) :
    mbrokerReceiveConnection (UInt8.ofNat request.code.code.toNat) malloc
        ⟨request.sessionPipename.bytes ++ (request.wireName ++ rest), queue⟩ =
      .error .undefined := by
  obtain ⟨_, _, isList⟩ := request.code.code_facts
  obtain ⟨path, copiedPath, _⟩ := strcpyFrom_path request malloc.clientNamedPipePath
  unfold ClientRequest.Fits at overflows
  push Not at overflows
  obtain ⟨name, named, long⟩ := overflows
  have other : UInt8.ofNat request.code.code.toNat ≠ protocolCodeListRequest := by
    intro listing
    rw [request.named.mpr (isList.mp listing)] at named
    cases named
  obtain ⟨length, wireRest, stored⟩ := request.wireName_some named
  obtain ⟨slashed, copiedSlash, _⟩ := memcpy_slash malloc.boxName
  have overflow : strcpyFrom slashed 1 (name.bytes ++ 0 :: wireRest) = .error .undefined :=
    strcpyFrom_undefined slashed (by omega)
  rw [← stored] at overflow
  have positive : ¬ (clientNamedPipeMaxLen : Int) ≤ 0 := by decide
  have positiveName : ¬ (boxNameMaxLen : Int) ≤ 0 := by decide
  unfold mbrokerReceiveConnection
  simp only [pipeRead_whole request.sessionPipename.length_eq, copiedPath, bind, Except.bind]
  rw [if_neg positive]
  simp only [pipeRead_whole length]
  rw [if_pos other, if_neg positiveName]
  simp only [copiedSlash, overflow]

/-! ### The listener on the whole pipe -/

/-- The packets of the requests, one behind the other -/
def clientPackets : List ClientRequest → Except Fault (List UInt8)
  | [] => pure []
  | request :: requests => do
      let packet ← clientRequestConnection request
      let packets ← clientPackets requests
      pure (packet.getD [] ++ packets)

theorem clientPackets_wire (requests : List ClientRequest) :
    clientPackets requests = .ok (requests.map ClientRequest.wire).flatten := by
  induction requests with
  | nil => rfl
  | cons request requests inductionHypothesis =>
      unfold clientPackets
      rw [clientRequestConnection_wire, inductionHypothesis]
      rfl

variable {mallocs : Nat → Request} {fuel : Nat}

/-- The code does not matter when nothing was read. -/
theorem listenerLoop_code (code : UInt8) (pipe : List UInt8) (listener : Listener) :
    listenerLoop mallocs fuel (pipeRead pipe 1).1 ((pipeRead pipe 1).2.1.headD code) listener =
      listenerLoop mallocs fuel (pipeRead pipe 1).1 ((pipeRead pipe 1).2.1.headD 0) listener := by
  cases pipe with
  | nil =>
      cases fuel with
      | zero => rfl
      | succ fuel => rfl
  | cons byte rest => rfl

/-- One turn of the listener loop -/
theorem listen_request (request : ClientRequest) (rest : List UInt8) (queue : List Request) :
    listen mallocs (fuel + 1) ⟨request.wire ++ rest, queue⟩ =
      (mbrokerReceiveConnection (UInt8.ofNat request.code.code.toNat) (mallocs queue.length)
        ⟨request.sessionPipename.bytes ++ (request.wireName ++ rest), queue⟩).bind (fun received =>
          if received.1 ≠ 0 then .ok received else listen mallocs fuel received.2) := by
  obtain ⟨known, _⟩ := request.code.code_facts
  unfold listen
  have read : pipeRead (request.wire ++ rest) 1 = (((1 : Nat) : Int), [UInt8.ofNat request.code.code.toNat],
      request.sessionPipename.bytes ++ (request.wireName ++ rest)) := by
    have split : request.wire ++ rest = [UInt8.ofNat request.code.code.toNat] ++
        (request.sessionPipename.bytes ++ (request.wireName ++ rest)) := by
      unfold ClientRequest.wire
      rw [List.cons_append, List.append_assoc]
      rfl
    rw [split]
    exact pipeRead_whole rfl
  simp only [read]
  change listenerLoop mallocs (fuel + 1) ((1 : Nat) : Int) (UInt8.ofNat request.code.code.toNat) _ = _
  rw [listenerLoop, if_neg (by decide), if_neg (by exact fun unknown => unknown known)]
  simp only [bind]
  congr 1
  funext received
  obtain ⟨result, listener⟩ := received
  dsimp only
  by_cases failed : result ≠ 0
  · rw [if_pos failed, if_pos failed]
    rfl
  · rw [if_neg failed, if_neg failed]
    exact listenerLoop_code _ _ _

theorem listen_nil (queue : List Request) :
    listen mallocs (fuel + 1) ⟨[], queue⟩ = .ok (0, ⟨[], queue⟩) := rfl

/-- Requests that fit are received in their order. -/
theorem listen_fits (mallocs : Nat → Request) {requests : List ClientRequest}
    (fits : ∀ request ∈ requests, request.Fits) (queue : List Request) (extra : Nat) :
    ∃ received, List.Forall₂ Request.Decodes received requests ∧
      listen mallocs (requests.length + 1 + extra)
        ⟨(requests.map ClientRequest.wire).flatten, queue⟩ = .ok (0, ⟨[], queue ++ received⟩) := by
  induction requests generalizing queue with
  | nil =>
      refine ⟨[], .nil, ?_⟩
      rw [List.append_nil, List.length_nil, Nat.zero_add, Nat.add_comm]
      exact listen_nil queue
  | cons request requests inductionHypothesis =>
      obtain ⟨first, decodes, returned⟩ := mbrokerReceiveConnection_fits request
        (fits request List.mem_cons_self) (mallocs queue.length)
        (requests.map ClientRequest.wire).flatten queue
      obtain ⟨received, decodesRest, listened⟩ := inductionHypothesis
        (fun other member => fits other (List.mem_cons_of_mem _ member)) (queue ++ [first])
      refine ⟨first :: received, .cons decodes decodesRest, ?_⟩
      have turns : (request :: requests).length + 1 + extra = requests.length + 1 + extra + 1 := by
        rw [List.length_cons]
        omega
      rw [turns, List.map_cons, List.flatten_cons, listen_request, returned]
      change listen mallocs (requests.length + 1 + extra) _ = _
      rw [listened, List.append_assoc]
      rfl

/-- A request that does not fit stops the listener. -/
theorem listen_overflows {requests : List ClientRequest}
    (overflows : ∃ request ∈ requests, ¬ request.Fits) (queue : List Request) (extra : Nat) :
    listen mallocs (requests.length + 1 + extra)
      ⟨(requests.map ClientRequest.wire).flatten, queue⟩ = .error .undefined := by
  induction requests generalizing queue with
  | nil =>
      obtain ⟨request, member, _⟩ := overflows
      cases member
  | cons request requests inductionHypothesis =>
      have turns : (request :: requests).length + 1 + extra = requests.length + 1 + extra + 1 := by
        rw [List.length_cons]
        omega
      rw [turns, List.map_cons, List.flatten_cons, listen_request]
      by_cases fits : request.Fits
      · obtain ⟨first, _, returned⟩ := mbrokerReceiveConnection_fits request fits
          (mallocs queue.length) (requests.map ClientRequest.wire).flatten queue
        rw [returned]
        change listen mallocs (requests.length + 1 + extra) _ = _
        apply inductionHypothesis
        obtain ⟨other, member, long⟩ := overflows
        rcases List.mem_cons.mp member with same | inRest
        · rw [same] at long
          exact (long fits).elim
        · exact ⟨other, inRest, long⟩
      · rw [mbrokerReceiveConnection_overflows request fits]
        rfl

/-- The listener receives exactly the requests, reads exactly their bytes and copies
nothing past the end of a field. -/
def ReceivedAsSent (mallocs : Nat → Request) (fuel : Nat) (requests : List ClientRequest) :
    Prop :=
  ∃ pipe received, clientPackets requests = .ok pipe ∧
    listen mallocs fuel ⟨pipe, []⟩ = .ok (0, ⟨[], received⟩) ∧
    List.Forall₂ Request.Decodes received requests

theorem not_receivedAsSent {requests : List ClientRequest} {extra : Nat}
    (overflows : ∃ request ∈ requests, ¬ request.Fits) :
    ¬ ReceivedAsSent mallocs (requests.length + 1 + extra) requests := by
  intro received
  obtain ⟨pipe, queue, sent, listened, _⟩ := received
  rw [clientPackets_wire, Except.ok.injEq] at sent
  subst sent
  rw [listen_overflows overflows] at listened
  cases listened

/-- Whatever `malloc` returns, the requests are received as they were sent exactly when
every box name leaves room for the slash: 30 bytes at most. -/
theorem register_pipe_codec (mallocs : Nat → Request) (requests : List ClientRequest)
    (extra : Nat) :
    ReceivedAsSent mallocs (requests.length + 1 + extra) requests ↔
      ∀ request ∈ requests, ∀ name, request.boxName = some name → name.strlen ≤ 30 := by
  have room (request : ClientRequest) :
      request.Fits ↔ ∀ name, request.boxName = some name → name.strlen ≤ 30 := by
    apply forall_congr'
    intro name
    apply imp_congr_right
    intro _
    change name.strlen + 1 < 32 ↔ _
    omega
  constructor
  · intro received request member
    by_contra long
    exact not_receivedAsSent ⟨request, member, fun fits => long ((room request).mp fits)⟩ received
  · intro short
    obtain ⟨received, decodes, listened⟩ := listen_fits mallocs
      (fun request member => (room request).mpr (short request member)) [] extra
    exact ⟨_, received, clientPackets_wire requests, listened, decodes⟩

/-- A request to create a box whose name fills its field on the wire -/
def longNameRequest : ClientRequest where
  code := .createRequest
  sessionPipename := .zeroed clientNamedPipeMaxLen
  path := ⟨[], by decide⟩
  boxName := some ⟨List.replicate 31 97, by decide⟩
  terminated := by decide
  named := by decide
  short := by
    intro name same
    cases same
    decide

/-- The slash and a name of 31 bytes do not fit in the field of the box name. -/
theorem register_pipe_overflow :
    ∃ mallocs, ∀ extra, ¬ ReceivedAsSent mallocs (1 + 1 + extra) [longNameRequest] := by
  refine ⟨fun _ => ⟨0, .zeroed _, .zeroed _⟩, fun extra => ?_⟩
  refine not_receivedAsSent ⟨longNameRequest, List.mem_singleton_self _, ?_⟩
  intro fits
  exact absurd (fits _ rfl) (by decide)

end TecnicoFS.Protocol
