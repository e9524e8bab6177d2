/-
The command lines of the clients: `main` of `pub.c`, `sub.c` and `manager.c` up to the request.

Nobody looks at the lengths of the arguments, and the manager does not miss the box name of a
create or remove request.  Without one it writes a packet that ends in front of the name, and the
listener reads a name out of what the next client writes.
-/

import TecnicoFS.Protocol.RegisterPipe

set_option autoImplicit false

namespace TecnicoFS.Protocol

open FileSystem

/-- `packet_len` of `client_request_connection` -/
def packetLen (boxName : Option CString) : Nat :=
  1 + clientNamedPipeMaxLen + if boxName.isSome then boxNameMaxLen else 0

/-- `client_request_connection` with any arguments, up to its `pipe_write` -/
def requestPacket (code : RequestCode) (sessionPipename : CharArray clientNamedPipeMaxLen)
    (boxName : Option CString) : Except Fault (Option (List UInt8)) :=
  if packetLen boxName > pipeBufferMaxLen then
    pure none
  else do
    let packet := Packet.empty (packetLen boxName)
    let packet ← packet.write ((ByteMemory.encodeInt32 code.code).take 1)
    let packet ← packet.write sessionPipename.bytes
    let packet ←
      match boxName with
      | some boxName => packet.write boxName.bytes
      | none => pure packet
    pure (some packet.array.bytes)

theorem clientRequestConnection_eq (request : ClientRequest) :
    clientRequestConnection request =
      requestPacket request.code request.sessionPipename request.boxName := rfl

/-- `strcpy(session_pipename, argv[2])` into the buffer of zeros -/
def copySessionPipename (argument : CString) : Except Fault (CharArray clientNamedPipeMaxLen) :=
  strcpyFrom (.zeroed clientNamedPipeMaxLen) 0 (argument.bytes ++ [0])

/-! ### The programs -/

/-- `main` of a program that opens a session: the request it writes, if it comes to that.
`created` says whether the session pipe could be created. -/
def sessionMain (code : RequestCode) (created : Bool) (argv : List CString) :
    Except Fault (Option (List UInt8)) :=
  match argv with
  | [_, _, session, boxName] => do
      let sessionPipename ← copySessionPipename session
      if created then
        requestPacket code sessionPipename (some boxName)
      else
        pure none
  | _ => pure none

/-- `main` of `pub.c` -/
def publisherMain : Bool → List CString → Except Fault (Option (List UInt8)) :=
  sessionMain .pubRegister

/-- `main` of `sub.c` -/
def subscriberMain : Bool → List CString → Except Fault (Option (List UInt8)) :=
  sessionMain .subRegister

/-- "create" -/
def createWord : CString where
  bytes := [99, 114, 101, 97, 116, 101]
  noNul := by decide

/-- "remove" -/
def removeWord : CString where
  bytes := [114, 101, 109, 111, 118, 101]
  noNul := by decide

/-- "list" -/
def listWord : CString where
  bytes := [108, 105, 115, 116]
  noNul := by decide

/-- `main` of `manager.c`; `argv[4]` is `NULL` when there are four arguments. -/
def managerMain (created : Bool) (argv : List CString) : Except Fault (Option (List UInt8)) :=
  match argv with
  | _ :: _ :: session :: operation :: others =>
      if others.length > 1 then
        pure none
      else if operation ≠ createWord ∧ operation ≠ removeWord ∧ operation ≠ listWord then
        pure none
      else do
        let sessionPipename ← copySessionPipename session
        if created then
          match operation.bytes.head? with
          | some 99 => requestPacket .createRequest sessionPipename others.head?
          | some 114 => requestPacket .removeRequest sessionPipename others.head?
          | some 108 => requestPacket .listRequest sessionPipename none
          | _ => pure none
        else
          pure none
  | _ => pure none

/-- The programs a client is run with -/
inductive ClientProgram where
  | publisher
  | subscriber
  | manager
deriving DecidableEq

def ClientProgram.main : ClientProgram → Bool → List CString →
    Except Fault (Option (List UInt8))
  | publisher => publisherMain
  | subscriber => subscriberMain
  | manager => managerMain

/-! ### What a command line asks for -/

/-- The command line is a request with the code, the session pipe and the box name. -/
inductive Spells : ClientProgram → List CString → RequestCode → CString → Option CString → Prop
    where
  | publisher {program registerPipe session boxName : CString} :
      Spells .publisher [program, registerPipe, session, boxName] .pubRegister session
        (some boxName)
  | subscriber {program registerPipe session boxName : CString} :
      Spells .subscriber [program, registerPipe, session, boxName] .subRegister session
        (some boxName)
  | create {program registerPipe session boxName : CString} :
      Spells .manager [program, registerPipe, session, createWord, boxName] .createRequest session
        (some boxName)
  | remove {program registerPipe session boxName : CString} :
      Spells .manager [program, registerPipe, session, removeWord, boxName] .removeRequest session
        (some boxName)
  | list {program registerPipe session : CString} {others : List CString} :
      others.length ≤ 1 →
      Spells .manager (program :: registerPipe :: session :: listWord :: others) .listRequest session
        none

/-- The arguments fit into the fields of the listener. -/
def ArgumentsFit (session : CString) (boxName : Option CString) : Prop :=
  session.strlen ≤ 255 ∧ ∀ name, boxName = some name → name.strlen ≤ 30

/-- The listener reads one request from the bytes and leaves the rest. -/
def ListenerReads (malloc : Request) (bytes rest : List UInt8) (received : Request) : Prop :=
  ∃ code pipe, pipeRead bytes 1 = (1, [code], pipe) ∧ code ∈ protocolCodes ∧
    mbrokerReceiveConnection code malloc ⟨pipe, []⟩ = .ok (0, ⟨rest, [received]⟩)

/-- What the listener makes of the arguments -/
structure Request.ReceivedAs (received : Request) (code : RequestCode) (session : CString)
    (boxName : Option CString) : Prop where
  code : (received.code.toNat : Int) = code.code
  path : received.clientNamedPipePath.string? = some session
  boxName : ∀ name, boxName = some name → received.boxName.string? = some (rootPath name)

/-! ### Copies -/

theorem copySessionPipename_fits {session : CString} (short : session.strlen ≤ 255) :
    ∃ array, copySessionPipename session = .ok array ∧ array.string? = some session := by
  have inside : 0 + session.strlen < clientNamedPipeMaxLen := by
    rw [Nat.zero_add]
    exact Nat.lt_succ_of_le short
  obtain ⟨array, copied, rest, bytes⟩ :
      ∃ array, copySessionPipename session = .ok array ∧ _ :=
    strcpyFrom_ok (.zeroed clientNamedPipeMaxLen) inside
  exact ⟨array, copied, CharArray.string?_eq_some bytes⟩

theorem copySessionPipename_overflows {session : CString} (long : ¬ session.strlen ≤ 255) :
    copySessionPipename session = .error .undefined := by
  apply strcpyFrom_undefined
  rw [Nat.zero_add]
  exact Nat.lt_of_not_le long

/-- The field of the box name -/
def nameField : Option CString → List UInt8
  | some name => name.bytes ++ List.replicate (boxNameMaxLen - name.strlen) 0
  | none => []

theorem packetLen_le (boxName : Option CString) : ¬ packetLen boxName > pipeBufferMaxLen := by
  unfold packetLen
  split <;> decide

/-- The packet up to the field of the box name -/
theorem packet_head (code : RequestCode) (sessionPipename : CharArray clientNamedPipeMaxLen)
    (boxName : Option CString) : ∃ coded packet : Packet (packetLen boxName),
      (Packet.empty (packetLen boxName)).write ((ByteMemory.encodeInt32 code.code).take 1) =
          .ok coded ∧
        coded.write sessionPipename.bytes = .ok packet ∧
        packet.Holds (UInt8.ofNat code.code.toNat :: sessionPipename.bytes) := by
  have whole := sessionPipename.length_eq
  have room : 1 + clientNamedPipeMaxLen ≤ packetLen boxName := Nat.le_add_right _ _
  obtain ⟨coded, wroteCode, holdsCode⟩ := (Packet.empty_holds (packetLen boxName)).write
    [UInt8.ofNat code.code.toNat] (Nat.le_trans (Nat.le_add_right _ _) room)
  obtain ⟨packet, wrotePath, holdsPath⟩ := holdsCode.write sessionPipename.bytes (by
    rw [whole]
    exact room)
  refine ⟨coded, packet, ?_, wrotePath, holdsPath⟩
  rw [code.encode]
  exact wroteCode

/-- The packet of a name that fits into its field, which need not have room for an end -/
theorem requestPacket_bytes (code : RequestCode)
    (sessionPipename : CharArray clientNamedPipeMaxLen) {boxName : Option CString}
    (short : ∀ name, boxName = some name → name.strlen ≤ boxNameMaxLen) :
    requestPacket code sessionPipename boxName = .ok (some
      (UInt8.ofNat code.code.toNat :: (sessionPipename.bytes ++ nameField boxName))) := by
  obtain ⟨coded, packet, wroteCode, wrotePath, holds⟩ :=
    packet_head code sessionPipename boxName
  have head : (UInt8.ofNat code.code.toNat :: sessionPipename.bytes).length = 257 :=
    congrArg (· + 1) sessionPipename.length_eq
  unfold requestPacket
  rw [if_neg (packetLen_le boxName)]
  simp only [wroteCode, wrotePath, bind, Except.bind]
  cases boxName with
  | none =>
      have length : packetLen none = 257 := rfl
      change Except.ok (some packet.array.bytes) = _
      rw [holds.bytes, length, head]
      rfl
  | some name =>
      have length : packetLen (some name) = 257 + 32 := rfl
      have inField : name.bytes.length ≤ 32 := short name rfl
      obtain ⟨filled, wroteName, holdsName⟩ := holds.write name.bytes (by omega)
      simp only [wroteName]
      change Except.ok (some filled.array.bytes) = _
      rw [holdsName.bytes, length, List.length_append, head, Nat.add_sub_add_left,
        List.append_assoc]
      rfl

/-- A name longer than its field is copied past the end of the packet. -/
theorem requestPacket_overflows (code : RequestCode)
    (sessionPipename : CharArray clientNamedPipeMaxLen) {name : CString}
    (long : ¬ name.strlen ≤ boxNameMaxLen) :
    requestPacket code sessionPipename (some name) = .error .undefined := by
  obtain ⟨coded, packet, wroteCode, wrotePath, holds⟩ :=
    packet_head code sessionPipename (some name)
  have head : (UInt8.ofNat code.code.toNat :: sessionPipename.bytes).length = 257 :=
    congrArg (· + 1) sessionPipename.length_eq
  have length : packetLen (some name) = 257 + 32 := rfl
  have outside : packet.write name.bytes = .error .undefined := by
    unfold Packet.write
    rw [CharArray.memcpy_eq_none]
    rw [holds.offset, head, length, Nat.add_le_add_iff_left]
    exact long
  unfold requestPacket
  rw [if_neg (packetLen_le _)]
  simp only [wroteCode, wrotePath, outside, bind, Except.bind]

/-! ### The listener -/

section
variable {code : RequestCode} {sessionPipename : CharArray clientNamedPipeMaxLen}
  {session : CString} {malloc : Request} {rest : List UInt8}

/-- The code is read in front of the rest of the request. -/
theorem listenerReads_code {bytes : List UInt8} {received : Request} :
    ListenerReads malloc (UInt8.ofNat code.code.toNat :: bytes) rest received ↔
      mbrokerReceiveConnection (UInt8.ofNat code.code.toNat) malloc ⟨bytes, []⟩ =
        .ok (0, ⟨rest, [received]⟩) := by
  have read : pipeRead (UInt8.ofNat code.code.toNat :: bytes) 1 =
      (1, [UInt8.ofNat code.code.toNat], bytes) := @pipeRead_whole [_] bytes 1 rfl
  constructor
  · intro reads
    obtain ⟨first, pipe, parts, _, returned⟩ := reads
    rw [read] at parts
    cases parts
    exact returned
  · intro returned
    exact ⟨_, bytes, read, code.code_facts.1, returned⟩

/-- The path is copied as soon as it has been read. -/
theorem receive_path (malloc : Request) (stored : sessionPipename.string? = some session) :
    ∃ path : CharArray clientNamedPipeMaxLen,
      strcpyFrom malloc.clientNamedPipePath 0 sessionPipename.bytes = .ok path := by
  have inside : 0 + session.strlen < clientNamedPipeMaxLen := by
    rw [Nat.zero_add]
    exact CharArray.string?_strlen stored
  obtain ⟨after, bytes⟩ := CharArray.string?_stored stored
  obtain ⟨path, copied, _⟩ := strcpyFrom_ok malloc.clientNamedPipePath inside
  rw [bytes]
  exact ⟨path, copied⟩

/-- A name as long as its field has no end there. -/
theorem receive_unended (stored : sessionPipename.string? = some session)
    (other : code ≠ .listRequest) {name : CString} (full : name.strlen = boxNameMaxLen) :
    mbrokerReceiveConnection (UInt8.ofNat code.code.toNat) malloc
      ⟨sessionPipename.bytes ++ (name.bytes ++ rest), []⟩ = .error .undefined := by
  obtain ⟨path, copiedPath⟩ := receive_path malloc stored
  obtain ⟨slashed, copiedSlash, _⟩ := memcpy_slash malloc.boxName
  have listed : UInt8.ofNat code.code.toNat ≠ protocolCodeListRequest :=
    fun same => other (code.code_facts.2.2.mp same)
  have unended : strcpyFrom slashed 1 name.bytes = .error .undefined := by
    unfold strcpyFrom CharArray.strcpy CharArray.string?
    rw [if_neg name.noNul]
    rfl
  have positive : ¬ (clientNamedPipeMaxLen : Int) ≤ 0 := by decide
  have positiveName : ¬ (boxNameMaxLen : Int) ≤ 0 := by decide
  unfold mbrokerReceiveConnection
  simp only [pipeRead_whole sessionPipename.length_eq, copiedPath, bind, Except.bind]
  rw [if_neg positive]
  simp only [pipeRead_whole full]
  rw [if_pos listed, if_neg positiveName]
  simp only [copiedSlash, unended]

/-- Without a name the listener does not leave the rest as it is. -/
theorem receive_nameless (stored : sessionPipename.string? = some session)
    (other : code ≠ .listRequest) (received : Request) :
    mbrokerReceiveConnection (UInt8.ofNat code.code.toNat) malloc
      ⟨sessionPipename.bytes ++ rest, []⟩ ≠ .ok (0, ⟨rest, [received]⟩) := by
  obtain ⟨path, copiedPath⟩ := receive_path malloc stored
  obtain ⟨slashed, copiedSlash, _⟩ := memcpy_slash malloc.boxName
  have listed : UInt8.ofNat code.code.toNat ≠ protocolCodeListRequest :=
    fun same => other (code.code_facts.2.2.mp same)
  have positive : ¬ (clientNamedPipeMaxLen : Int) ≤ 0 := by decide
  intro returned
  unfold mbrokerReceiveConnection at returned
  simp only [pipeRead_whole sessionPipename.length_eq, copiedPath, bind, Except.bind] at returned
  rw [if_neg positive, if_pos listed] at returned
  obtain ⟨bytesRead, parts⟩ := pipeRead_bytes rest boxNameMaxLen
  simp only [parts] at returned
  by_cases nothing : bytesRead ≤ 0
  · rw [if_pos nothing] at returned
    cases returned
  · rw [if_neg nothing] at returned
    simp only [copiedSlash] at returned
    cases copied : strcpyFrom slashed 1 (rest.take boxNameMaxLen) with
    | error fault =>
        rw [copied] at returned
        cases returned
    | ok boxName =>
        rw [copied] at returned
        have left := congrArg (fun result => result.2.registerPipe) (Except.ok.inj returned)
        change rest.drop boxNameMaxLen = rest at left
        cases rest with
        | nil =>
            rw [pipeRead_nil] at parts
            cases parts
            exact nothing (Int.le_refl 0)
        | cons first others =>
            have shorter := congrArg List.length left
            rw [List.length_drop, List.length_cons] at shorter
            change others.length + 1 - 32 = others.length + 1 at shorter
            omega

end

/-! ### Command lines -/

/-- What a program does when its session pipe could be created -/
def askFor (code : RequestCode) (session : CString) (boxName : Option CString) :
    Except Fault (Option (List UInt8)) := do
  let sessionPipename ← copySessionPipename session
  requestPacket code sessionPipename boxName

/-- A name is asked for by every request but a listing. -/
theorem Spells.named {program : ClientProgram} {argv : List CString} {code : RequestCode}
    {session : CString} {boxName : Option CString}
    (spells : Spells program argv code session boxName) :
    boxName = none ↔ code = .listRequest := by
  cases spells <;> simp

theorem Spells.main {program : ClientProgram} {argv : List CString} {code : RequestCode}
    {session : CString} {boxName : Option CString}
    (spells : Spells program argv code session boxName) :
    program.main true argv = askFor code session boxName := by
  cases spells with
  | publisher => rfl
  | subscriber => rfl
  | create => rfl
  | remove => rfl
  | list few =>
      have inside : ¬ 1 < (_ : List CString).length := Nat.not_lt.mpr few
      change (if _ > 1 then _ else _) = _
      rw [if_neg inside]
      rfl

theorem sessionMain_cases {code : RequestCode} {argv : List CString} {packet : List UInt8}
    (wrote : sessionMain code true argv = .ok (some packet)) :
    ∃ program registerPipe session boxName, argv = [program, registerPipe, session, boxName] := by
  unfold sessionMain at wrote
  split at wrote
  · exact ⟨_, _, _, _, rfl⟩
  · cases wrote

theorem managerMain_cases {argv : List CString} {packet : List UInt8}
    (wrote : managerMain true argv = .ok (some packet)) :
    ∃ program registerPipe session operation others,
      argv = program :: registerPipe :: session :: operation :: others ∧ others.length ≤ 1 ∧
        (operation = createWord ∨ operation = removeWord ∨ operation = listWord) := by
  unfold managerMain at wrote
  split at wrote
  · rename_i program registerPipe session operation others
    by_cases many : others.length > 1
    · rw [if_pos many] at wrote
      cases wrote
    · rw [if_neg many] at wrote
      by_cases unknown : operation ≠ createWord ∧ operation ≠ removeWord ∧ operation ≠ listWord
      · rw [if_pos unknown] at wrote
        cases wrote
      · refine ⟨program, registerPipe, session, operation, others, rfl, Nat.not_lt.mp many, ?_⟩
        by_contra none
        simp only [not_or] at none
        exact unknown none
  · cases wrote

/-- A program that writes a request was asked for it, or it is a manager that was given no box
name. -/
theorem ClientProgram.main_cases {program : ClientProgram} {argv : List CString}
    {packet : List UInt8} (wrote : program.main true argv = .ok (some packet)) :
    (∃ code session boxName, Spells program argv code session boxName) ∨
      ∃ code session, code ≠ .listRequest ∧
        program.main true argv = askFor code session none := by
  cases program with
  | publisher =>
      obtain ⟨_, _, _, _, line⟩ := sessionMain_cases wrote
      rw [line]
      exact Or.inl ⟨_, _, _, .publisher⟩
  | subscriber =>
      obtain ⟨_, _, _, _, line⟩ := sessionMain_cases wrote
      rw [line]
      exact Or.inl ⟨_, _, _, .subscriber⟩
  | manager =>
      obtain ⟨_, _, session, operation, others, line, few, known⟩ := managerMain_cases wrote
      rw [line]
      cases others with
      | nil =>
          rcases known with named | named | named
          · rw [named]
            exact Or.inr ⟨.createRequest, session, RequestCode.noConfusion, rfl⟩
          · rw [named]
            exact Or.inr ⟨.removeRequest, session, RequestCode.noConfusion, rfl⟩
          · rw [named]
            exact Or.inl ⟨_, _, _, .list few⟩
      | cons boxName others =>
          have one : others = [] :=
            List.length_eq_zero_iff.mp (Nat.le_zero.mp (Nat.le_of_succ_le_succ few))
          rw [one] at few ⊢
          rcases known with named | named | named
          · rw [named]
            exact Or.inl ⟨_, _, _, .create⟩
          · rw [named]
            exact Or.inl ⟨_, _, _, .remove⟩
          · rw [named]
            exact Or.inl ⟨_, _, _, .list few⟩

section
variable {code : RequestCode} {session : CString} {boxName : Option CString} {malloc : Request}
  {rest : List UInt8}

/-- What is written for a session pipe that fits into its buffer -/
theorem askFor_packet {sessionPipename : CharArray clientNamedPipeMaxLen}
    (copied : copySessionPipename session = .ok sessionPipename)
    (short : ∀ name, boxName = some name → name.strlen ≤ boxNameMaxLen) :
    askFor code session boxName = .ok (some
      (UInt8.ofNat code.code.toNat :: (sessionPipename.bytes ++ nameField boxName))) := by
  unfold askFor
  rw [copied]
  exact requestPacket_bytes code sessionPipename short

/-- A request is written when the arguments fit into the packet. -/
theorem askFor_copies {packet : List UInt8}
    (wrote : askFor code session boxName = .ok (some packet)) :
    ∃ sessionPipename, copySessionPipename session = .ok sessionPipename ∧
      sessionPipename.string? = some session ∧ session.strlen ≤ 255 ∧
      ∀ name, boxName = some name → name.strlen ≤ boxNameMaxLen := by
  unfold askFor at wrote
  by_cases path : session.strlen ≤ 255
  · obtain ⟨sessionPipename, copied, stored⟩ := copySessionPipename_fits path
    refine ⟨sessionPipename, copied, stored, path, ?_⟩
    intro name given
    by_contra long
    rw [copied, given] at wrote
    cases (requestPacket_overflows code sessionPipename long).symm.trans wrote
  · rw [copySessionPipename_overflows path] at wrote
    cases wrote

/-- The listener does not read a request without a name as one. -/
theorem askFor_nameless (other : code ≠ .listRequest) {packet : List UInt8} {received : Request}
    (wrote : askFor code session none = .ok (some packet))
    (reads : ListenerReads malloc (packet ++ rest) rest received) : False := by
  obtain ⟨sessionPipename, copied, stored, _, inField⟩ := askFor_copies wrote
  rw [askFor_packet copied inField, Except.ok.injEq, Option.some.injEq] at wrote
  rw [← wrote, List.cons_append, List.append_assoc, listenerReads_code] at reads
  exact receive_nameless stored other received reads

/-- Arguments that fit make a request as `client_request_connection` wants it. -/
theorem askFor_request (named : boxName = none ↔ code = .listRequest)
    (fits : ArgumentsFit session boxName) : ∃ request : ClientRequest, request.Fits ∧
      request.code = code ∧ request.path = session ∧ request.boxName = boxName ∧
      askFor code session boxName = clientRequestConnection request := by
  obtain ⟨sessionPipename, copied, stored⟩ := copySessionPipename_fits fits.1
  have short (name : CString) (given : boxName = some name) : name.strlen < boxNameMaxLen :=
    Nat.lt_of_le_of_lt (fits.2 name given) (by decide)
  refine ⟨⟨code, sessionPipename, session, boxName, stored, named, short⟩, ?_, rfl, rfl, rfl, ?_⟩
  · intro name given
    exact Nat.lt_of_le_of_lt (Nat.succ_le_succ (fits.2 name given)) (by decide)
  · unfold askFor
    rw [copied, clientRequestConnection_eq]
    rfl

/-- The listener reads a request whose arguments fit. -/
theorem askFor_fits (named : boxName = none ↔ code = .listRequest)
    (fits : ArgumentsFit session boxName) : ∃ packet received,
      askFor code session boxName = .ok (some packet) ∧
        ListenerReads malloc (packet ++ rest) rest received := by
  obtain ⟨request, room, _, _, _, asked⟩ := askFor_request named fits
  obtain ⟨received, _, returned⟩ := mbrokerReceiveConnection_fits request room malloc rest []
  refine ⟨request.wire, received, ?_, ?_⟩
  · rw [asked]
    exact clientRequestConnection_wire request
  · unfold ClientRequest.wire
    rw [List.cons_append, List.append_assoc]
    exact listenerReads_code.mpr returned

/-- A request that the listener reads is the one that was asked for, and its arguments fit. -/
theorem askFor_reads (named : boxName = none ↔ code = .listRequest) {packet : List UInt8}
    {received : Request} (wrote : askFor code session boxName = .ok (some packet))
    (reads : ListenerReads malloc (packet ++ rest) rest received) :
    ArgumentsFit session boxName ∧ received.ReceivedAs code session boxName := by
  obtain ⟨sessionPipename, copied, stored, path, inField⟩ := askFor_copies wrote
  rw [askFor_packet copied inField, Except.ok.injEq, Option.some.injEq] at wrote
  rw [← wrote, List.cons_append, List.append_assoc, listenerReads_code] at reads
  by_cases short : ∀ name, boxName = some name → name.strlen < boxNameMaxLen
  · let request : ClientRequest :=
      ⟨code, sessionPipename, session, boxName, stored, named, short⟩
    by_cases fits : request.Fits
    · obtain ⟨received', decodes, returned⟩ :=
        mbrokerReceiveConnection_fits request fits malloc rest []
      have same := reads.symm.trans returned
      simp only [Except.ok.injEq, Prod.mk.injEq, Listener.mk.injEq, List.nil_append,
        List.cons.injEq, and_true, true_and] at same
      rw [same]
      refine ⟨⟨path, ?_⟩, decodes.code, decodes.path, decodes.boxName⟩
      intro name given
      exact Nat.le_of_succ_le_succ (Nat.le_of_lt_succ (fits name given))
    · have overflows := mbrokerReceiveConnection_overflows request fits malloc rest []
      cases reads.symm.trans overflows
  · simp only [not_forall] at short
    obtain ⟨name, given, long⟩ := short
    have full : name.strlen = boxNameMaxLen :=
      Nat.le_antisymm (inField name given) (Nat.not_lt.mp long)
    have field : nameField boxName = name.bytes := by
      rw [given]
      change name.bytes ++ List.replicate (boxNameMaxLen - name.strlen) 0 = name.bytes
      rw [full, Nat.sub_self, List.replicate_zero, List.append_nil]
    have other : code ≠ .listRequest := by
      intro listed
      rw [named.mpr listed] at given
      cases given
    rw [field, receive_unended stored other full] at reads
    cases reads

/-- Whatever follows on the register pipe, a command line gets exactly its own request read by the
listener when and only when it asks for one with arguments that fit.  Otherwise nothing is
written, a copy leaves its array, or what follows is not left as it is. -/
theorem command_line_received (program : ClientProgram) (argv : List CString)
    (malloc : Request) (rest : List UInt8) :
    ((∃ packet received, program.main true argv = .ok (some packet) ∧
        ListenerReads malloc (packet ++ rest) rest received) ↔
      ∃ code session boxName, Spells program argv code session boxName ∧
        ArgumentsFit session boxName) ∧
    ∀ code session boxName packet received, Spells program argv code session boxName →
      program.main true argv = .ok (some packet) →
      ListenerReads malloc (packet ++ rest) rest received →
      received.ReceivedAs code session boxName := by
  refine ⟨⟨?_, ?_⟩, ?_⟩
  · intro received
    obtain ⟨packet, received, wrote, reads⟩ := received
    rcases ClientProgram.main_cases wrote with ⟨code, session, boxName, spells⟩ |
      ⟨code, session, other, nameless⟩
    · rw [spells.main] at wrote
      exact ⟨code, session, boxName, spells, (askFor_reads spells.named wrote reads).1⟩
    · rw [nameless] at wrote
      exact (askFor_nameless other wrote reads).elim
  · intro proper
    obtain ⟨code, session, boxName, spells, fits⟩ := proper
    rw [spells.main]
    exact askFor_fits spells.named fits
  · intro code session boxName packet received spells wrote reads
    rw [spells.main] at wrote
    exact (askFor_reads spells.named wrote reads).2

end

end TecnicoFS.Protocol
