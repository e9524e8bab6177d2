/-
What a worker does with a request it has taken from the queue: `workers_reception`.
-/

import TecnicoFS.Mbroker.Listing
import TecnicoFS.Mbroker.Sessions
import TecnicoFS.Protocol.RegisterPipe

set_option autoImplicit false

namespace TecnicoFS.Mbroker

open FileSystem Protocol

/-- The outcome of the `switch` on the code: the start of a handler, the listing, or the
default -/
inductive Reception where
  | handler (point : Point)
  | listing
  | ignored

/-- `workers_reception` up to the call of a handler -/
def workersReception (request : Protocol.Request) : Except Fault Reception :=
  if request.code = 1 then do
    let boxName ← orUndefined request.boxName.string?
    pure (.handler (.publisher (.openPipe boxName)))
  else if request.code = 2 then do
    let boxName ← orUndefined request.boxName.string?
    pure (.handler (.subscriber (.openPipe boxName)))
  else if request.code = 3 then do
    let boxName ← orUndefined request.boxName.string?
    pure (.handler (.create (.openExisting boxName)))
  else if request.code = 5 then do
    let boxName ← orUndefined request.boxName.string?
    pure (.handler (.remove (.deleteBox boxName)))
  else if request.code = protocolCodeListRequest then
    pure .listing
  else
    pure .ignored

/-! ### The requests of clients -/

/-- The request a client makes, when it is not a listing -/
def serverRequest? (request : ClientRequest) : Option Request :=
  match request.code with
  | .pubRegister => request.boxName.map .pubRegister
  | .subRegister => request.boxName.map .subRegister
  | .createRequest => request.boxName.map .createRequest
  | .removeRequest => request.boxName.map .removeRequest
  | .listRequest => none

theorem serverRequest_none (request : ClientRequest) :
    serverRequest? request = none ↔ request.code = .listRequest := by
  have named := request.named
  unfold serverRequest?
  cases code : request.code with
  | listRequest => exact ⟨fun _ => rfl, fun _ => rfl⟩
  | _ =>
      rw [code] at named
      simpa using named

/-- A registration is asked for with its code. -/
theorem serverRequest_registers {request : ClientRequest} {name : CString} :
    (serverRequest? request = some (.pubRegister name) → request.code = .pubRegister) ∧
      (serverRequest? request = some (.subRegister name) → request.code = .subRegister) := by
  unfold serverRequest?
  cases request.code <;> simp

/-- A worker starts the handler of the request that was received. -/
theorem workersReception_decodes {received : Protocol.Request} {request : ClientRequest}
    (decodes : received.Decodes request) :
    workersReception received =
      .ok ((serverRequest? request).elim .listing (fun request => .handler request.start)) := by
  have code := decodes.code
  have boxName := decodes.boxName
  have named := request.named
  have number (value : UInt8) (same : (received.code.toNat : Int) = value.toNat) :
      received.code = value := UInt8.toNat_inj.mp (Int.ofNat_inj.mp same)
  unfold serverRequest? workersReception
  cases kind : request.code with
  | listRequest =>
      rw [kind] at code
      rw [number 7 code]
      rfl
  | pubRegister =>
      rw [kind] at code named
      obtain ⟨name, same⟩ := Option.ne_none_iff_exists'.mp
        (fun none => RequestCode.noConfusion (named.mp none))
      rw [number 1 code, if_pos rfl, boxName name same, same]
      rfl
  | subRegister =>
      rw [kind] at code named
      obtain ⟨name, same⟩ := Option.ne_none_iff_exists'.mp
        (fun none => RequestCode.noConfusion (named.mp none))
      rw [number 2 code, if_neg (by decide), if_pos rfl, boxName name same, same]
      rfl
  | createRequest =>
      rw [kind] at code named
      obtain ⟨name, same⟩ := Option.ne_none_iff_exists'.mp
        (fun none => RequestCode.noConfusion (named.mp none))
      rw [number 3 code, if_neg (by decide), if_neg (by decide), if_pos rfl, boxName name same,
        same]
      rfl
  | removeRequest =>
      rw [kind] at code named
      obtain ⟨name, same⟩ := Option.ne_none_iff_exists'.mp
        (fun none => RequestCode.noConfusion (named.mp none))
      rw [number 5 code, if_neg (by decide), if_neg (by decide), if_neg (by decide), if_pos rfl,
        boxName name same, same]
      rfl

/-! ### The listing -/

/-- A packet copies its bytes from the box, whatever the name of the box. -/
theorem Box.copied_length (box : Box) :
    ((box.memory.drop 1).take boxNameMaxLen).length = boxNameMaxLen := by
  have length : box.memory.length =
      box.name.strlen + (boxNameMaxLen - box.name.strlen) + (8 + (8 + 8)) := by
    unfold memory
    simp only [List.length_append, List.length_replicate, LittleEndian.encode_length]
    rfl
  rw [List.length_take, List.length_drop, length]
  unfold boxNameMaxLen
  omega

theorem listingPacket_returns (box : Option Box) (last : UInt8) :
    ∃ packet, listingPacket box last = .ok packet := by
  cases box with
  | some box => exact ⟨_, listingPacket_some box.copied_length last⟩
  | none =>
      obtain ⟨coded, wroteCode, holdsCode⟩ := (Packet.empty_holds listingPacketLen).write
        [protocolCodeListAnswer] (by decide)
      obtain ⟨flagged, wroteLast, _⟩ := holdsCode.write [last] (by
        change 1 + 1 ≤ 58
        decide)
      refine ⟨flagged.array.bytes, ?_⟩
      unfold listingPacket
      simp only [wroteCode, wroteLast, bind, Except.bind]
      rfl

/-- A listing comes to its end. -/
theorem listing_returns {Thread : Type} (server : Server Thread) (accepts : Nat → Bool) :
    ∃ returnCode packets, workersHandleManagerListing server accepts =
      .ok (returnCode, packets) := by
  have loop (remaining i : Nat) (nBoxesListed : Int) (last : UInt8) (sent : List (List UInt8)) :
      ∃ returnCode packets, listingLoop server accepts remaining i nBoxesListed last sent =
        .ok (returnCode, packets) := by
    induction remaining generalizing i nBoxesListed last sent with
    | zero => exact ⟨0, sent, rfl⟩
    | succ remaining inductionHypothesis =>
        obtain ⟨packet, written⟩ := listingPacket_returns
          (if server.nBoxes > 0 then some (server.boxesTable i) else none)
          (if server.nBoxes = 0 ∨ nBoxesListed + 1 = server.nBoxes then 1 else last)
        unfold listingLoop
        simp only [written, bind, Except.bind]
        split
        case isTrue => exact ⟨0, sent, rfl⟩
        case isFalse =>
            split
            case isTrue => exact inductionHypothesis _ _ _ _
            case isFalse =>
                split
                case isTrue => exact inductionHypothesis _ _ _ _
                case isFalse => exact ⟨-1, sent, rfl⟩
  exact loop _ _ _ _ _

/-! ### The handler of a request -/

def PublisherPoint.boxName : PublisherPoint → CString
  | .openPipe boxName | .findBox boxName => boxName
  | .register box => box.boxName
  | .readCode session | .checkBox session | .readMessage session | .writeMessage session _
  | .publish session | .unregister session | .closeFile session => session.boxName

def SubscriberPoint.boxName : SubscriberPoint → CString
  | .openPipe boxName | .findBox boxName => boxName
  | .register box => box.boxName
  | .awaitMessage session | .blocked session | .checkBox session | .sendMessage session
  | .readNext session | .unregister session | .closeFile session => session.boxName

/-- The box name at a point of `workers_handle_manager_create` that still needs it -/
def CreatePoint.boxName? : CreatePoint → Option CString
  | .openExisting boxName | .openNew boxName | .takeBox boxName _ | .fillBox boxName _ _ =>
      some boxName
  | .closeFile _ _ | .answer _ => none

def RemovePoint.boxName? : RemovePoint → Option CString
  | .deleteBox boxName | .unlink boxName => some boxName
  | .answer _ => none

/-- The worker is in the handler of the request. -/
def Point.Handles : Point → Request → Prop
  | .publisher point, .pubRegister name => point.boxName = rootPath name
  | .subscriber point, .subRegister name => point.boxName = rootPath name
  | .create point, .createRequest name =>
      ∀ boxName, point.boxName? = some boxName → boxName = rootPath name
  | .remove point, .removeRequest name =>
      ∀ boxName, point.boxName? = some boxName → boxName = rootPath name
  | _, _ => False

theorem Request.start_handles (request : Request) : request.start.Handles request := by
  cases request with
  | pubRegister name => rfl
  | subRegister name => rfl
  | createRequest name => exact fun boxName same => (Option.some.inj same).symm
  | removeRequest name => exact fun boxName same => (Option.some.inj same).symm

variable {Thread : Type} {atomicity : Atomicity} {server server' : Server Thread}

theorem PublisherStep.boxName {point next : PublisherPoint}
    (step : PublisherStep server point server' (some next)) : next.boxName = point.boxName := by
  cases step <;> rfl

theorem SubscriberStep.boxName [DecidableEq Thread] {thread : Thread}
    {point next : SubscriberPoint}
    (step : SubscriberStep thread server point server' (some next)) :
    next.boxName = point.boxName := by
  cases step <;> rfl

theorem CreateStep.boxName {point next : CreatePoint} {boxName : CString}
    (step : CreateStep atomicity server point server' (some next))
    (named : next.boxName? = some boxName) : point.boxName? = some boxName := by
  cases step with
  | absent _ _ => exact named
  | opens _ _ => exact named
  | takes _ _ => exact named
  | _ => cases named

theorem RemoveStep.boxName {point next : RemovePoint} {boxName : CString}
    (step : RemoveStep server point server' (some next))
    (named : next.boxName? = some boxName) : point.boxName? = some boxName := by
  cases step with
  | deletes _ _ => exact named
  | _ => cases named

/-- A worker stays in its handler until it returns. -/
theorem Broker.Step.handles [DecidableEq Thread] {broker broker' : Broker Thread}
    {thread : Thread} {request : Request} (step : broker.Step atomicity thread broker')
    (handles : (broker.workers thread).Handles request) :
    broker'.workers thread = .idle ∨ (broker'.workers thread).Handles request := by
  cases step with
  | dequeue other atIdle =>
      rw [atIdle] at handles
      cases request <;> exact handles.elim
  | @publisher point _ next atPoint taken =>
      rw [atPoint] at handles
      rw [Broker.goto_self]
      cases next with
      | none => exact Or.inl rfl
      | some next =>
          right
          cases request with
          | pubRegister name => exact taken.boxName.trans handles
          | _ => exact handles.elim
  | @subscriber point _ next atPoint taken =>
      rw [atPoint] at handles
      rw [Broker.goto_self]
      cases next with
      | none => exact Or.inl rfl
      | some next =>
          right
          cases request with
          | subRegister name => exact taken.boxName.trans handles
          | _ => exact handles.elim
  | @create point _ next atPoint taken =>
      rw [atPoint] at handles
      rw [Broker.goto_self]
      cases next with
      | none => exact Or.inl rfl
      | some next =>
          right
          cases request with
          | createRequest name =>
              intro boxName named
              exact handles boxName (taken.boxName named)
          | _ => exact handles.elim
  | @remove point _ next atPoint taken =>
      rw [atPoint] at handles
      rw [Broker.goto_self]
      cases next with
      | none => exact Or.inl rfl
      | some next =>
          right
          cases request with
          | removeRequest name =>
              intro boxName named
              exact handles boxName (taken.boxName named)
          | _ => exact handles.elim

end TecnicoFS.Mbroker
