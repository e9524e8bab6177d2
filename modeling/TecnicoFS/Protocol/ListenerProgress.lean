/-
The loops of `main` in `mbroker.c` on whatever arrives on the register pipe.

Any process may write to the pipe, in any pieces, and close it in between.  A turn of the
inner loop either leaves the loop or reads on, unless the code it looks at is unknown: that
code is looked at again without another read.
-/

import TecnicoFS.Protocol.RegisterPipe

set_option autoImplicit false

namespace TecnicoFS.Protocol

open FileSystem

/-! ### What arrives -/

/-- The pieces in which the bytes arrive.  A read finds the bytes of one piece; a piece
without bytes is a moment when no process has the pipe open for writing. -/
abbrev Arrivals := List (List UInt8)

/-- What is left of a piece comes before the later pieces. -/
def behind (bytes : List UInt8) (later : Arrivals) : Arrivals :=
  if bytes = [] then later else bytes :: later

/-- `pipe_read` from a pipe on which bytes arrive in pieces -/
def pipeReadArrived (pipe : Arrivals) (bufLen : Nat) : Int × List UInt8 × Arrivals :=
  match pipe with
  | [] => (0, [], [])
  | arrived :: later =>
      let (bytesRead, bytes, rest) := pipeRead arrived bufLen
      (bytesRead, bytes, behind rest later)

/-- The bytes that have not been read -/
def unread (pipe : Arrivals) : Nat := pipe.flatten.length

/-- The bytes and the pieces that are left -/
def Arrivals.size (pipe : Arrivals) : Nat := unread pipe + pipe.length

/-! ### The loops -/

/-- What the listener reads from and where it puts the requests -/
structure PublicListener where
  registerPipe : Arrivals
  requestsQueue : List Request

/-- `mbroker_receive_connection` on a pipe on which bytes arrive in pieces -/
def receiveConnection (code : UInt8) (request : Request) (listener : PublicListener) :
    Except Fault (Int × PublicListener) := do
  let request := { request with code := code }
  let (bytesRead, buffer, pipe) := pipeReadArrived listener.registerPipe clientNamedPipeMaxLen
  if bytesRead ≤ 0 then
    pure (-1, { listener with registerPipe := pipe })
  else
    let path ← strcpyFrom request.clientNamedPipePath 0 buffer
    let request := { request with clientNamedPipePath := path }
    if request.code ≠ protocolCodeListRequest then
      let (bytesRead, buffer, pipe) := pipeReadArrived pipe boxNameMaxLen
      if bytesRead ≤ 0 then
        pure (-1, { listener with registerPipe := pipe })
      else
        let boxName ← orUndefined (request.boxName.memcpy 0 [slash])
        let boxName ← strcpyFrom boxName 1 buffer
        let request := { request with boxName := boxName }
        pure (0, { registerPipe := pipe, requestsQueue := listener.requestsQueue ++ [request] })
    else
      pure (0, { registerPipe := pipe, requestsQueue := listener.requestsQueue ++ [request] })

/-- Where `main` stands -/
inductive ListenerPoint where
  /-- before the read in front of the inner loop -/
  | reading
  /-- at the test of the inner loop, with what the last read returned and the code it read -/
  | testing (bytesRead : Int) (code : UInt8)
  /-- returned `EXIT_FAILURE` -/
  | stopped

structure ListenerState where
  point : ListenerPoint
  listener : PublicListener

/-- The test of the inner loop succeeds. -/
def ListenerState.InLoop (state : ListenerState) : Prop :=
  ∃ bytesRead code, state.point = .testing bytesRead code ∧ bytesRead > 0

/-- The read of the next code; a read of nothing leaves the code as it was. -/
def PublicListener.readCode (listener : PublicListener) (code : UInt8) : ListenerState :=
  let (bytesRead, buffer, pipe) := pipeReadArrived listener.registerPipe 1
  { point := .testing bytesRead (buffer.headD code)
    listener := { listener with registerPipe := pipe } }

/-- `main` up to the next test of the inner loop: a whole turn of the inner loop, or what
the outer loop does around it.  The dummy `open` waits until somebody writes. -/
def ListenerState.step (mallocs : Nat → Request) (state : ListenerState) :
    Except Fault ListenerState :=
  match state.point with
  | .reading => pure (state.listener.readCode 0)
  | .testing bytesRead code =>
      if bytesRead > 0 then
        if code ∉ protocolCodes then
          pure state
        else do
          let (result, listener) ←
            receiveConnection code (mallocs state.listener.requestsQueue.length) state.listener
          if result ≠ 0 then
            pure { point := .stopped, listener := listener }
          else
            pure (listener.readCode code)
      else if bytesRead < 0 then
        pure { state with point := .stopped }
      else if state.listener.registerPipe = [] then
        pure state
      else
        pure { state with point := .reading }
  | .stopped => pure state

/-- A run of `main` -/
def ListenerReaches (mallocs : Nat → Request) : ListenerState → ListenerState → Prop :=
  Relation.ReflTransGen (fun state next => state.step mallocs = .ok next)

/-- The listener has read the stream and waits, it has returned, or a copy left its
array. -/
inductive ListenerState.Ends (mallocs : Nat → Request) (state : ListenerState) : Prop where
  | waits (code : UInt8) (point : state.point = .testing 0 code)
      (read : state.listener.registerPipe = [])
  | stops (point : state.point = .stopped)
  | overflows (undefined : state.step mallocs = .error .undefined)

/-- The first bytes of the stream, when they have arrived together -/
def nextField (pipe : Arrivals) (length : Nat) : Option (List UInt8 × Arrivals) :=
  match pipe with
  | [] => none
  | arrived :: later =>
      if 0 < length ∧ length ≤ arrived.length then
        some (arrived.take length, behind (arrived.drop length) later)
      else
        none

/-- What comes behind a request whose fields arrive whole and whose strings end where they
are copied to -/
def nextRequest (code : UInt8) (pipe : Arrivals) : Option Arrivals :=
  match nextField pipe clientNamedPipeMaxLen with
  | none => none
  | some (path, pipe) =>
      if 0 ∉ path then
        none
      else if code = protocolCodeListRequest then
        some pipe
      else
        match nextField pipe boxNameMaxLen with
        | none => none
        | some (name, pipe) => if 0 ∈ name.take (boxNameMaxLen - 1) then some pipe else none

theorem behind_size_le (bytes : List UInt8) (later : Arrivals) :
    (behind bytes later).size ≤ bytes.length + Arrivals.size later + 1 := by
  unfold behind
  split
  · omega
  · unfold Arrivals.size unread
    rw [List.flatten_cons, List.length_append, List.length_cons]
    omega

theorem behind_unread (bytes : List UInt8) (later : Arrivals) :
    unread (behind bytes later) = bytes.length + unread later := by
  unfold behind unread
  split
  case isTrue none =>
      rw [none, List.length_nil, Nat.zero_add]
  case isFalse =>
      rw [List.flatten_cons, List.length_append]

theorem nextField_smaller {pipe rest : Arrivals} {length : Nat} {field : List UInt8}
    (found : nextField pipe length = some (field, rest)) :
    rest.size < pipe.size ∧ unread rest < unread pipe := by
  cases pipe with
  | nil => cases found
  | cons arrived later =>
      unfold nextField at found
      by_cases whole : 0 < length ∧ length ≤ arrived.length
      · simp only [if_pos whole, Option.some.injEq, Prod.mk.injEq] at found
        obtain ⟨_, rfl⟩ := found
        have size := behind_size_le (arrived.drop length) later
        have bytes := behind_unread (arrived.drop length) later
        rw [List.length_drop] at size bytes
        unfold Arrivals.size unread at *
        rw [List.flatten_cons, List.length_append, List.length_cons]
        omega
      · simp only [if_neg whole] at found
        cases found

theorem nextRequest_smaller {code : UInt8} {pipe rest : Arrivals}
    (found : nextRequest code pipe = some rest) :
    rest.size < pipe.size ∧ unread rest < unread pipe := by
  unfold nextRequest at found
  split at found
  case h_1 => cases found
  case h_2 path middle first =>
      have smaller := nextField_smaller first
      split at found
      case isTrue => cases found
      case isFalse =>
          split at found
          case isTrue =>
              cases found
              exact smaller
          case isFalse =>
              split at found
              case h_1 => cases found
              case h_2 name last second =>
                  have smaller' := nextField_smaller second
                  split at found
                  case isTrue =>
                      cases found
                      exact ⟨smaller'.1.trans smaller.1, smaller'.2.trans smaller.2⟩
                  case isFalse => cases found

/-- The code bytes of the stream: its first byte, and the first byte behind each request
up to the first one that does not arrive whole or does not fit in its fields -/
def requestCodes : Arrivals → List UInt8
  | [] => []
  | [] :: later => requestCodes later
  | (code :: bytes) :: later =>
      code ::
        match _found : nextRequest code (behind bytes later) with
        | none => []
        | some rest => requestCodes rest
termination_by pipe => Arrivals.size pipe
decreasing_by
  · unfold Arrivals.size unread
    rw [List.flatten_cons, List.nil_append, List.length_cons]
    exact Nat.lt_succ_self _
  · have smaller := (nextRequest_smaller _found).1
    have size := behind_size_le bytes later
    unfold Arrivals.size unread at *
    rw [List.flatten_cons, List.length_append, List.length_cons, List.length_cons]
    omega

theorem requestCodes_closed (later : Arrivals) : requestCodes ([] :: later) = requestCodes later := by
  rw [requestCodes]

theorem requestCodes_request (code : UInt8) (bytes : List UInt8) (later : Arrivals) :
    requestCodes ((code :: bytes) :: later) =
      code :: ((nextRequest code (behind bytes later)).map requestCodes).getD [] := by
  rw [requestCodes]
  split
  case h_1 none =>
      rw [none]
      rfl
  case h_2 rest some =>
      rw [some]
      rfl

/-! ### Reads -/

/-- A read of a positive number of bytes finds a field, nothing, or a part of a field. -/
theorem pipeReadArrived_cases (pipe : Arrivals) (bufLen : Nat) (positive : 0 < bufLen) :
    (∃ field rest, nextField pipe bufLen = some (field, rest) ∧ field.length = bufLen ∧
        pipeReadArrived pipe bufLen = ((bufLen : Int), field, rest)) ∨
      nextField pipe bufLen = none ∧ (pipeReadArrived pipe bufLen).1 ≤ 0 := by
  cases pipe with
  | nil => exact Or.inr ⟨rfl, Int.le_refl 0⟩
  | cons arrived later =>
      unfold nextField pipeReadArrived pipeRead
      by_cases whole : bufLen ≤ arrived.length
      · have length : (arrived.take bufLen).length = bufLen := by
          rw [List.length_take]
          omega
        left
        refine ⟨_, _, if_pos ⟨positive, whole⟩, length, ?_⟩
        dsimp only
        rw [if_neg (fun both => both.2 length), length]
      · right
        refine ⟨if_neg (fun both => whole both.2), ?_⟩
        have length : (arrived.take bufLen).length = arrived.length := by
          rw [List.length_take]
          omega
        dsimp only
        rw [length]
        split
        case isTrue => exact (by decide : (-1 : Int) ≤ 0)
        case isFalse both =>
            change ((arrived.length : Nat) : Int) ≤ 0
            omega

/-- The slash and the name are copied when the name ends early enough, as the path is. -/
theorem strcpyFrom_cases {size : Nat} (array : CharArray size) (offset : Nat)
    (buffer : List UInt8) :
    (0 ∈ buffer.take (size - offset) ∧ ∃ written, strcpyFrom array offset buffer = .ok written) ∨
      0 ∉ buffer.take (size - offset) ∧ strcpyFrom array offset buffer = .error .undefined := by
  cases found : CharArray.string? ⟨buffer, rfl⟩ with
  | none =>
      right
      constructor
      · intro member
        unfold CharArray.string? at found
        rw [if_pos (List.mem_of_mem_take member)] at found
        cases found
      · unfold strcpyFrom CharArray.strcpy
        rw [found]
        rfl
  | some text =>
      obtain ⟨rest, stored⟩ := CharArray.string?_stored found
      change buffer = _ at stored
      subst stored
      have ends : 0 ∈ (text.bytes ++ 0 :: rest).take (size - offset) ↔
          offset + text.strlen < size := by
        unfold CString.strlen
        rw [List.take_append, List.mem_append]
        constructor
        · intro member
          rcases member with inText | behindText
          · exact (text.noNul (List.mem_of_mem_take inText)).elim
          · cases room : size - offset - text.bytes.length with
            | zero =>
                rw [room, List.take_zero] at behindText
                cases behindText
            | succ more => omega
        · intro fits
          right
          obtain ⟨more, room⟩ : ∃ more, size - offset - text.bytes.length = more + 1 :=
            ⟨size - offset - text.bytes.length - 1, by omega⟩
          rw [room, List.take_succ_cons]
          exact List.mem_cons_self
      by_cases fits : offset + text.strlen < size
      · left
        obtain ⟨written, copied, _⟩ := @strcpyFrom_ok _ _ array text rest fits
        exact ⟨ends.mpr fits, written, copied⟩
      · right
        exact ⟨fun member => fits (ends.mp member), strcpyFrom_undefined array (by omega)⟩

/-! ### One request -/

/-- A request is received when it arrives whole and fits; otherwise the listener returns or
a copy leaves its array. -/
theorem receiveConnection_cases (code : UInt8) (request : Request) (listener : PublicListener) :
    (∃ rest received, nextRequest code listener.registerPipe = some rest ∧
        receiveConnection code request listener =
          .ok (0, ⟨rest, listener.requestsQueue ++ [received]⟩)) ∨
      nextRequest code listener.registerPipe = none ∧
        (receiveConnection code request listener = .error .undefined ∨
          ∃ left, receiveConnection code request listener = .ok (-1, left)) := by
  unfold receiveConnection nextRequest
  rcases pipeReadArrived_cases listener.registerPipe clientNamedPipeMaxLen (by decide)
    with ⟨path, pipe, field, length, read⟩ | ⟨short, nothing⟩
  · have positive : ¬ (clientNamedPipeMaxLen : Int) ≤ 0 := by decide
    simp only [read, field, if_neg positive]
    rcases strcpyFrom_cases request.clientNamedPipePath 0 path
      with ⟨ended, written, copied⟩ | ⟨unended, copied⟩
    · rw [Nat.sub_zero, ← length, List.take_length] at ended
      simp only [copied, bind, Except.bind]
      rw [if_neg (fun absent => absent ended)]
      by_cases listing : code = protocolCodeListRequest
      · left
        rw [if_pos listing, if_neg (fun different => different listing)]
        exact ⟨pipe, _, rfl, rfl⟩
      · rw [if_neg listing, if_pos listing]
        rcases pipeReadArrived_cases pipe boxNameMaxLen (by decide)
          with ⟨name, rest, field, length, read⟩ | ⟨short, nothing⟩
        · have positive : ¬ (boxNameMaxLen : Int) ≤ 0 := by decide
          obtain ⟨slashed, copiedSlash, _⟩ := memcpy_slash request.boxName
          simp only [read, field, if_neg positive, copiedSlash]
          rcases strcpyFrom_cases slashed 1 name
            with ⟨ended, written, copied⟩ | ⟨unended, copied⟩
          · left
            simp only [copied, if_pos ended]
            exact ⟨rest, _, rfl, rfl⟩
          · right
            simp only [copied, if_neg unended]
            exact ⟨trivial, Or.inl trivial⟩
        · right
          simp only [short, if_pos nothing]
          exact ⟨trivial, Or.inr ⟨_, rfl⟩⟩
    · right
      rw [Nat.sub_zero, ← length, List.take_length] at unended
      simp only [copied, bind, Except.bind, if_pos unended]
      exact ⟨trivial, Or.inl trivial⟩
  · right
    simp only [short, if_pos nothing]
    exact ⟨trivial, Or.inr ⟨_, rfl⟩⟩

/-! ### Turns -/

/-- The code bytes ahead are codes of requests. -/
def CodesKnown (pipe : Arrivals) : Prop :=
  ∀ code ∈ requestCodes pipe, code ∈ protocolCodes

/-- What is known ahead of a point of the loops -/
def ListenerState.Known (state : ListenerState) : Prop :=
  match state.point with
  | .reading => CodesKnown state.listener.registerPipe
  | .testing bytesRead code =>
      if bytesRead > 0 then
        code ∈ protocolCodes ∧ ∀ rest,
          nextRequest code state.listener.registerPipe = some rest → CodesKnown rest
      else
        CodesKnown state.listener.registerPipe
  | .stopped => True

variable {mallocs : Nat → Request} {listener : PublicListener} {state next : ListenerState}

/-- The next read finds the end, a gap or a code byte. -/
theorem readCode_cases (listener : PublicListener) (code : UInt8) :
    (∃ rest, listener.readCode code = ⟨.testing 0 code, { listener with registerPipe := rest }⟩ ∧
        requestCodes rest = requestCodes listener.registerPipe ∧
        unread rest = unread listener.registerPipe ∧
        (rest.size < Arrivals.size listener.registerPipe ∨ rest = [])) ∨
      ∃ byte rest, listener.readCode code =
          ⟨.testing 1 byte, { listener with registerPipe := rest }⟩ ∧
        requestCodes listener.registerPipe = byte :: ((nextRequest byte rest).map requestCodes).getD [] ∧
        unread rest < unread listener.registerPipe ∧
        rest.size < Arrivals.size listener.registerPipe := by
  obtain ⟨pipe, queue⟩ := listener
  match pipe with
  | [] => exact Or.inl ⟨[], rfl, rfl, rfl, Or.inr rfl⟩
  | [] :: later =>
      refine Or.inl ⟨later, rfl, (requestCodes_closed later).symm, rfl, Or.inl ?_⟩
      change unread later + later.length < unread later + (later.length + 1)
      omega
  | (byte :: bytes) :: later =>
      refine Or.inr ⟨byte, behind bytes later, rfl, requestCodes_request byte bytes later, ?_, ?_⟩
      · rw [behind_unread]
        change bytes.length + unread later < ((byte :: bytes) ++ later.flatten).length
        rw [List.length_append, List.length_cons]
        change _ < bytes.length + 1 + unread later
        omega
      · have size := behind_size_le bytes later
        have whole : Arrivals.size ((byte :: bytes) :: later) =
            bytes.length + 1 + unread later + (later.length + 1) := by
          unfold Arrivals.size unread
          rw [List.flatten_cons, List.length_append, List.length_cons, List.length_cons]
        change _ < Arrivals.size ((byte :: bytes) :: later)
        rw [whole]
        unfold Arrivals.size at size ⊢
        omega

theorem readCode_unread (listener : PublicListener) (code : UInt8) :
    unread (listener.readCode code).listener.registerPipe ≤ unread listener.registerPipe := by
  rcases readCode_cases listener code with ⟨rest, read, _, same, _⟩ | ⟨byte, rest, read, _, less, _⟩
  · rw [read]
    exact same.le
  · rw [read]
    exact less.le

theorem readCode_size (listener : PublicListener) (code : UInt8) :
    Arrivals.size (listener.readCode code).listener.registerPipe ≤
      Arrivals.size listener.registerPipe := by
  rcases readCode_cases listener code with ⟨rest, read, _, _, less | empty⟩ | ⟨byte, rest, read, _, _, less⟩
  · rw [read]
    exact less.le
  · rw [read, empty]
    exact Nat.zero_le _
  · rw [read]
    exact less.le

theorem readCode_known (code : UInt8) (known : CodesKnown listener.registerPipe) :
    (listener.readCode code).Known := by
  rcases readCode_cases listener code with ⟨rest, read, codes, _⟩ | ⟨byte, rest, read, codes, _⟩
  · rw [read]
    change CodesKnown rest
    unfold CodesKnown
    rw [codes]
    exact known
  · unfold CodesKnown at known
    rw [codes] at known
    rw [read]
    constructor
    · exact known byte List.mem_cons_self
    · intro left found
      change nextRequest byte rest = some left at found
      rw [found] at known
      intro other member
      exact known other (List.mem_cons_of_mem _ member)

/-- A turn of the inner loop on a known code -/
theorem step_request {bytesRead : Int} {code : UInt8} (positive : bytesRead > 0)
    (known : code ∈ protocolCodes) (listener : PublicListener) :
    (∃ rest received, nextRequest code listener.registerPipe = some rest ∧
        ListenerState.step mallocs ⟨.testing bytesRead code, listener⟩ =
          .ok (PublicListener.readCode ⟨rest, listener.requestsQueue ++ [received]⟩ code)) ∨
      nextRequest code listener.registerPipe = none ∧
        (ListenerState.step mallocs ⟨.testing bytesRead code, listener⟩ = .error .undefined ∨
          ∃ left, ListenerState.step mallocs ⟨.testing bytesRead code, listener⟩ =
            .ok ⟨.stopped, left⟩) := by
  have recognised : ¬ code ∉ protocolCodes := fun unknown => unknown known
  unfold ListenerState.step
  simp only [if_pos positive, if_neg recognised]
  rcases receiveConnection_cases code (mallocs listener.requestsQueue.length) listener with
    ⟨rest, received, found, returned⟩ | ⟨absent, undefined | ⟨left, returned⟩⟩
  · left
    refine ⟨rest, received, found, ?_⟩
    rw [returned]
    rfl
  · right
    refine ⟨absent, Or.inl ?_⟩
    rw [undefined]
    rfl
  · right
    refine ⟨absent, Or.inr ⟨left, ?_⟩⟩
    rw [returned]
    rfl

theorem ListenerState.Known.step (known : state.Known) (stepped : state.step mallocs = .ok next) :
    next.Known := by
  obtain ⟨point, listener⟩ := state
  cases point with
  | reading =>
      cases stepped
      exact readCode_known 0 known
  | testing bytesRead code =>
      by_cases positive : bytesRead > 0
      · change if bytesRead > 0 then _ else _ at known
        rw [if_pos positive] at known
        rcases step_request positive known.1 listener with
          ⟨rest, received, found, stepped'⟩ | ⟨_, undefined | ⟨left, stopped⟩⟩
        · rw [stepped'] at stepped
          cases stepped
          exact readCode_known code (known.2 rest found)
        · rw [undefined] at stepped
          cases stepped
        · rw [stopped] at stepped
          cases stepped
          trivial
      · have ahead : CodesKnown listener.registerPipe := by
          change if bytesRead > 0 then _ else _ at known
          rw [if_neg positive] at known
          exact known
        unfold ListenerState.step at stepped
        simp only [if_neg positive] at stepped
        split at stepped
        case isTrue =>
            cases stepped
            trivial
        case isFalse =>
            split at stepped
            case isTrue =>
                cases stepped
                exact known
            case isFalse =>
                cases stepped
                exact ahead
  | stopped =>
      cases stepped
      trivial

theorem ListenerReaches.known (reaches : ListenerReaches mallocs state next)
    (known : state.Known) : next.Known := by
  induction reaches with
  | refl => exact known
  | tail _ stepped inductionHypothesis => exact inductionHypothesis.step stepped

/-- A turn on a known code reads on or leaves the inner loop. -/
theorem ListenerState.Known.turn (known : state.Known) (inLoop : state.InLoop)
    (stepped : state.step mallocs = .ok next) :
    unread next.listener.registerPipe < unread state.listener.registerPipe ∨ ¬ next.InLoop := by
  obtain ⟨point, listener⟩ := state
  obtain ⟨bytesRead, code, at_, positive⟩ := inLoop
  change point = _ at at_
  subst at_
  change if bytesRead > 0 then _ else _ at known
  rw [if_pos positive] at known
  rcases step_request positive known.1 listener with
    ⟨rest, received, found, stepped'⟩ | ⟨_, undefined | ⟨left, stopped⟩⟩
  · left
    rw [stepped'] at stepped
    cases stepped
    exact (readCode_unread _ code).trans_lt (nextRequest_smaller found).2
  · rw [undefined] at stepped
    cases stepped
  · right
    rw [stopped] at stepped
    cases stepped
    intro inLoop
    obtain ⟨_, _, at_, _⟩ := inLoop
    cases at_

theorem pipeReadArrived_whole (bytes : List UInt8) (bufLen : Nat) :
    pipeReadArrived (behind bytes []) bufLen =
      ((pipeRead bytes bufLen).1, (pipeRead bytes bufLen).2.1,
        behind (pipeRead bytes bufLen).2.2 []) := by
  unfold behind
  split
  case isTrue empty =>
      subst empty
      rw [pipeRead_nil]
      rfl
  case isFalse => rfl

/-- What arrives at once is received as one piece of the pipe. -/
theorem receiveConnection_whole (code : UInt8) (request : Request) (bytes : List UInt8)
    (queue : List Request) :
    receiveConnection code request ⟨behind bytes [], queue⟩ =
      (mbrokerReceiveConnection code request ⟨bytes, queue⟩).map (fun received =>
        (received.1, ⟨behind received.2.registerPipe [], received.2.requestsQueue⟩)) := by
  unfold receiveConnection mbrokerReceiveConnection
  simp only [pipeReadArrived_whole]
  split
  case isTrue => rfl
  case isFalse =>
      cases strcpyFrom request.clientNamedPipePath 0 (pipeRead bytes clientNamedPipeMaxLen).2.1 with
      | error fault => rfl
      | ok path =>
          simp only [bind, Except.bind]
          split
          case isFalse => rfl
          case isTrue =>
              split
              case isTrue => rfl
              case isFalse =>
                  cases orUndefined (request.boxName.memcpy 0 [slash]) with
                  | error fault => rfl
                  | ok slashed =>
                      simp only
                      cases strcpyFrom slashed 1 (pipeRead (pipeRead bytes
                        clientNamedPipeMaxLen).2.2 boxNameMaxLen).2.1 with
                      | error fault => rfl
                      | ok boxName => rfl

/-- When the inner loop of one piece returns, the loops of `main` get to the same point. -/
theorem listenerLoop_reaches {fuel : Nat} {bytesRead result : Int} {code : UInt8}
    {bytes : List UInt8} {queue : List Request} {left : Listener}
    (returned : listenerLoop mallocs fuel bytesRead code ⟨bytes, queue⟩ = .ok (result, left)) :
    ∃ last, ListenerReaches mallocs ⟨.testing bytesRead code, ⟨behind bytes [], queue⟩⟩ last ∧
      last.listener = ⟨behind left.registerPipe [], left.requestsQueue⟩ ∧ ¬ last.InLoop := by
  induction fuel generalizing bytesRead code bytes queue with
  | zero => cases returned
  | succ fuel inductionHypothesis =>
      rw [listenerLoop] at returned
      by_cases positive : bytesRead > 0
      · rw [if_neg (fun none => none positive)] at returned
        by_cases known : code ∈ protocolCodes
        · rw [if_neg (fun unknown => unknown known)] at returned
          cases received : mbrokerReceiveConnection code (mallocs queue.length) ⟨bytes, queue⟩ with
          | error fault =>
              rw [received] at returned
              cases returned
          | ok pair =>
              obtain ⟨answer, rest⟩ := pair
              rw [received] at returned
              have whole := receiveConnection_whole code (mallocs queue.length) bytes queue
              rw [received] at whole
              have stepped : ListenerState.step mallocs
                  ⟨.testing bytesRead code, ⟨behind bytes [], queue⟩⟩ =
                    if answer ≠ 0 then
                      .ok ⟨.stopped, ⟨behind rest.registerPipe [], rest.requestsQueue⟩⟩
                    else
                      .ok (PublicListener.readCode
                        ⟨behind rest.registerPipe [], rest.requestsQueue⟩ code) := by
                unfold ListenerState.step
                simp only [if_pos positive, whole]
                rw [if_neg (fun unknown => unknown known)]
                rfl
              change (if answer ≠ 0 then _ else _) = _ at returned
              by_cases failed : answer ≠ 0
              · rw [if_pos failed] at returned stepped
                cases returned
                refine ⟨_, .single stepped, rfl, ?_⟩
                intro inLoop
                obtain ⟨_, _, same, _⟩ := inLoop
                cases same
              · rw [if_neg failed] at returned stepped
                obtain ⟨last, reaches, facts⟩ := inductionHypothesis returned
                refine ⟨last, .head stepped ?_, facts⟩
                unfold PublicListener.readCode
                rw [pipeReadArrived_whole]
                exact reaches
        · rw [if_pos known] at returned
          exact inductionHypothesis returned
      · rw [if_pos positive] at returned
        cases returned
        refine ⟨_, .refl, rfl, ?_⟩
        intro inLoop
        obtain ⟨_, _, same, positive'⟩ := inLoop
        cases same
        exact positive positive'

end TecnicoFS.Protocol
