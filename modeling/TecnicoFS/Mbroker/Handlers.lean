/-
The request handlers of `mbroker.c` and the workers that run them.

A handler is at a point of its code and takes one file system call, one critical section
or one pipe operation at a time.  What a pipe delivers is up to the client: a read or a
write transfers everything or fails.  A file system call that does not return stops the
server, so it has no step.
-/

import TecnicoFS.Mbroker.Server

set_option autoImplicit false

namespace TecnicoFS.Mbroker

open FileSystem

def protocolCodeMessageReceive : UInt8 := 9

/-! ### Points -/

/-- The box `box_find` found for a request, with the number of the box in its slot -/
structure FoundBox where
  boxName : CString
  boxI : Nat
  occupant : Nat

/-- A registered session and its file handle -/
structure Session extends FoundBox where
  boxF : Int

/-- A subscriber session with its buffer and what it sent to its client -/
structure SubscriberSession extends Session where
  message : Message
  sent : List Message

/-- The buffer after a read -/
def SubscriberSession.receive (session : SubscriberSession) (bytes : List UInt8) :
    SubscriberSession :=
  { session with message := session.message.receive bytes }

/-- The buffer was written to the pipe. -/
def SubscriberSession.send (session : SubscriberSession) : SubscriberSession :=
  { session with sent := session.sent ++ [session.message] }

/-- What `workers_handle_pub_register` does next -/
inductive PublisherPoint where
  | openPipe (boxName : CString)
  | findBox (boxName : CString)
  | register (box : FoundBox)
  | readCode (session : Session)
  | checkBox (session : Session)
  | readMessage (session : Session)
  | writeMessage (session : Session) (message : Message)
  | publish (session : Session)
  | unregister (session : Session)
  | closeFile (session : Session)

/-- What `workers_handle_sub_register` does next; `blocked` is inside `cond_wait`. -/
inductive SubscriberPoint where
  | openPipe (boxName : CString)
  | findBox (boxName : CString)
  | register (box : FoundBox)
  | awaitMessage (session : SubscriberSession)
  | blocked (session : SubscriberSession)
  | checkBox (session : SubscriberSession)
  | sendMessage (session : SubscriberSession)
  | readNext (session : SubscriberSession)
  | unregister (session : SubscriberSession)
  | closeFile (session : SubscriberSession)

/-- What `workers_handle_manager_create` does next; `f` is its local variable. -/
inductive CreatePoint where
  | openExisting (boxName : CString)
  | openNew (boxName : CString)
  | takeBox (boxName : CString) (f : Int)
  | fillBox (boxName : CString) (f : Int) (boxI : Nat)
  | closeFile (f : Int) (returnCode : Int)
  | answer (returnCode : Int)

/-- What `workers_handle_manager_remove` does next -/
inductive RemovePoint where
  | deleteBox (boxName : CString)
  | unlink (boxName : CString)
  | answer (returnCode : Int)

/-- Where a worker is; an idle one is in `pcq_dequeue`. -/
inductive Point where
  | idle
  | publisher (point : PublisherPoint)
  | subscriber (point : SubscriberPoint)
  | create (point : CreatePoint)
  | remove (point : RemovePoint)

/-- A request other than a listing, with the box name read from the pipe -/
inductive Request where
  | pubRegister (name : CString)
  | subRegister (name : CString)
  | createRequest (name : CString)
  | removeRequest (name : CString)

/-- The handler of the request; the listener has put a slash in front of the name. -/
def Request.start : Request → Point
  | .pubRegister name => .publisher (.openPipe (rootPath name))
  | .subRegister name => .subscriber (.openPipe (rootPath name))
  | .createRequest name => .create (.openExisting (rootPath name))
  | .removeRequest name => .remove (.deleteBox (rootPath name))

/-! ### Sessions -/

variable {Thread : Type}

def Server.foundBox (server : Server Thread) (boxName : CString) (boxI : Nat) : FoundBox where
  boxName := boxName
  boxI := boxI
  occupant := server.occupants boxI

/-- `tfs_open(box_name, TFS_O_APPEND)` -/
def openAppend (boxName : CString) : Call := .tfsOpen (some boxName) ⟨false, false, true⟩

/-- `tfs_open(box_name, 0)` -/
def openPlain (boxName : CString) : Call := .tfsOpen (some boxName) ⟨false, false, false⟩

/-- `tfs_open(box_name, TFS_O_CREAT)` -/
def openCreate (boxName : CString) : Call := .tfsOpen (some boxName) ⟨true, false, false⟩

/-- `tfs_write(box_f, message, to_write)` -/
def writeCall (boxF : Int) (message : Message) : Call :=
  .tfsWrite boxF (some message.bytes) msgMaxLen

/-- `tfs_read(box_f, message, to_read)` -/
def readCall (boxF : Int) : Call := .tfsRead boxF true msgMaxLen

/-- One step of `workers_handle_pub_register`; the next point is absent when it returns. -/
inductive PublisherStep :
    Server Thread → PublisherPoint → Server Thread → Option PublisherPoint → Prop where
  | pipeFails {server : Server Thread} {boxName : CString} :
      PublisherStep server (.openPipe boxName) server none
  | pipeOpens {server : Server Thread} {boxName : CString} :
      PublisherStep server (.openPipe boxName) server (some (.findBox boxName))
  | notFound {server : Server Thread} {boxName : CString} : server.boxFind boxName = none →
      PublisherStep server (.findBox boxName) server none
  | found {server : Server Thread} {boxName : CString} {boxI : Nat} :
      server.boxFind boxName = some boxI →
      PublisherStep server (.findBox boxName) server
        (some (.register (server.foundBox boxName boxI)))
  | busy {server : Server Thread} {box : FoundBox} : server.Unlocked box.boxI →
      0 < (server.boxesTable box.boxI).nPublishers →
      PublisherStep server (.register box) server none
  | openFails {server : Server Thread} {box : FoundBox} {result : CallResult}
      {fs : FileSystem.State} : server.Unlocked box.boxI →
      ¬ 0 < (server.boxesTable box.boxI).nPublishers →
      (openAppend box.boxName).run server.fs = .ok (result, fs) → result.length < 0 →
      PublisherStep server (.register box)
        (((server.addPublisher box.boxI).setFs fs).dropPublisher box.boxI) none
  | registers {server : Server Thread} {box : FoundBox} {result : CallResult}
      {fs : FileSystem.State} : server.Unlocked box.boxI →
      ¬ 0 < (server.boxesTable box.boxI).nPublishers →
      (openAppend box.boxName).run server.fs = .ok (result, fs) → 0 ≤ result.length →
      PublisherStep server (.register box) ((server.addPublisher box.boxI).setFs fs)
        (some (.readCode { toFoundBox := box, boxF := result.length }))
  | codeArrives {server : Server Thread} {session : Session} {code : UInt8} :
      code = protocolCodeMessageReceive →
      PublisherStep server (.readCode session) server (some (.checkBox session))
  | codeMissing {server : Server Thread} {session : Session} {received : Option UInt8} :
      received ≠ some protocolCodeMessageReceive →
      PublisherStep server (.readCode session) server (some (.unregister session))
  | boxThere {server : Server Thread} {session : Session} : server.IsTaken session.boxI →
      PublisherStep server (.checkBox session) server (some (.readMessage session))
  | boxGone {server : Server Thread} {session : Session} : ¬ server.IsTaken session.boxI →
      PublisherStep server (.checkBox session) server (some (.unregister session))
  | messageArrives {server : Server Thread} {session : Session} {message : Message} :
      PublisherStep server (.readMessage session) server
        (some (.writeMessage session message))
  | messageMissing {server : Server Thread} {session : Session} :
      PublisherStep server (.readMessage session) server (some (.unregister session))
  | writes {server : Server Thread} {session : Session} {message : Message}
      {result : CallResult} {fs : FileSystem.State} :
      (writeCall session.boxF message).run server.fs = .ok (result, fs) →
      result.length = msgMaxLen →
      PublisherStep server (.writeMessage session message)
        ((server.setFs fs).recordStored session.boxI message) (some (.publish session))
  | writeFails {server : Server Thread} {session : Session} {message : Message}
      {result : CallResult} {fs : FileSystem.State} :
      (writeCall session.boxF message).run server.fs = .ok (result, fs) →
      result.length ≠ msgMaxLen →
      PublisherStep server (.writeMessage session message) (server.setFs fs)
        (some (.unregister session))
  | publishes {server : Server Thread} {session : Session} : server.Unlocked session.boxI →
      PublisherStep server (.publish session)
        ((server.addSize session.boxI).broadcast session.boxI) (some (.readCode session))
  | unregisters {server : Server Thread} {session : Session} : server.Unlocked session.boxI →
      PublisherStep server (.unregister session) (server.dropPublisher session.boxI)
        (some (.closeFile session))
  | closes {server : Server Thread} {session : Session} {result : CallResult}
      {fs : FileSystem.State} :
      Call.run (.tfsClose session.boxF) server.fs = .ok (result, fs) →
      PublisherStep server (.closeFile session) (server.setFs fs) none

/-- One step of `workers_handle_sub_register`.  A failed `tfs_open` returns with the mutex
of the box locked. -/
inductive SubscriberStep [DecidableEq Thread] (thread : Thread) :
    Server Thread → SubscriberPoint → Server Thread → Option SubscriberPoint → Prop where
  | pipeFails {server : Server Thread} {boxName : CString} :
      SubscriberStep thread server (.openPipe boxName) server none
  | pipeOpens {server : Server Thread} {boxName : CString} :
      SubscriberStep thread server (.openPipe boxName) server (some (.findBox boxName))
  | notFound {server : Server Thread} {boxName : CString} : server.boxFind boxName = none →
      SubscriberStep thread server (.findBox boxName) server none
  | found {server : Server Thread} {boxName : CString} {boxI : Nat} :
      server.boxFind boxName = some boxI →
      SubscriberStep thread server (.findBox boxName) server
        (some (.register (server.foundBox boxName boxI)))
  | openFails {server : Server Thread} {box : FoundBox} {result : CallResult}
      {fs : FileSystem.State} : server.Unlocked box.boxI →
      (openPlain box.boxName).run server.fs = .ok (result, fs) → result.length < 0 →
      SubscriberStep thread server (.register box)
        ((((server.addSubscriber box.boxI).setFs fs).dropSubscriber box.boxI).leaveLocked
          box.boxI thread) none
  | registers {server : Server Thread} {box : FoundBox} {result : CallResult}
      {fs : FileSystem.State} {message : Message} : server.Unlocked box.boxI →
      (openPlain box.boxName).run server.fs = .ok (result, fs) → 0 ≤ result.length →
      SubscriberStep thread server (.register box) ((server.addSubscriber box.boxI).setFs fs)
        (some (.awaitMessage
          { toFoundBox := box, boxF := result.length, message := message, sent := [] }))
  | noWait {server : Server Thread} {session : SubscriberSession} :
      server.Unlocked session.boxI → ¬ server.IsTaken session.boxI →
      SubscriberStep thread server (.awaitMessage session) server (some (.checkBox session))
  | reads {server : Server Thread} {session : SubscriberSession} {result : CallResult}
      {fs : FileSystem.State} : server.Unlocked session.boxI → server.IsTaken session.boxI →
      (readCall session.boxF).run server.fs = .ok (result, fs) → result.length = msgMaxLen →
      SubscriberStep thread server (.awaitMessage session) (server.setFs fs)
        (some (.checkBox (session.receive result.bytes)))
  | blocks {server : Server Thread} {session : SubscriberSession} {result : CallResult}
      {fs : FileSystem.State} : server.Unlocked session.boxI → server.IsTaken session.boxI →
      (readCall session.boxF).run server.fs = .ok (result, fs) → result.length ≠ msgMaxLen →
      SubscriberStep thread server (.awaitMessage session)
        ((server.setFs fs).setWaiting session.boxI thread true)
        (some (.blocked (session.receive result.bytes)))
  | wakes {server : Server Thread} {session : SubscriberSession} :
      server.waiting session.boxI thread = false →
      SubscriberStep thread server (.blocked session) server (some (.awaitMessage session))
  /-- A wake-up nobody asked for -/
  | wakesSpuriously {server : Server Thread} {session : SubscriberSession} :
      server.waiting session.boxI thread = true →
      SubscriberStep thread server (.blocked session)
        (server.setWaiting session.boxI thread false) (some (.awaitMessage session))
  | boxThere {server : Server Thread} {session : SubscriberSession} :
      server.IsTaken session.boxI →
      SubscriberStep thread server (.checkBox session) server (some (.sendMessage session))
  | boxGone {server : Server Thread} {session : SubscriberSession} :
      ¬ server.IsTaken session.boxI →
      SubscriberStep thread server (.checkBox session) server (some (.unregister session))
  | sends {server : Server Thread} {session : SubscriberSession} :
      SubscriberStep thread server (.sendMessage session) server
        (some (.readNext session.send))
  | sendFails {server : Server Thread} {session : SubscriberSession} :
      SubscriberStep thread server (.sendMessage session) server (some (.unregister session))
  | readsNext {server : Server Thread} {session : SubscriberSession} {result : CallResult}
      {fs : FileSystem.State} :
      (readCall session.boxF).run server.fs = .ok (result, fs) → result.length = msgMaxLen →
      SubscriberStep thread server (.readNext session) (server.setFs fs)
        (some (.sendMessage (session.receive result.bytes)))
  | readsLast {server : Server Thread} {session : SubscriberSession} {result : CallResult}
      {fs : FileSystem.State} :
      (readCall session.boxF).run server.fs = .ok (result, fs) → result.length ≠ msgMaxLen →
      SubscriberStep thread server (.readNext session) (server.setFs fs)
        (some (.awaitMessage (session.receive result.bytes)))
  | unregisters {server : Server Thread} {session : SubscriberSession} :
      server.Unlocked session.boxI →
      SubscriberStep thread server (.unregister session) (server.dropSubscriber session.boxI)
        (some (.closeFile session))
  | closes {server : Server Thread} {session : SubscriberSession} {result : CallResult}
      {fs : FileSystem.State} :
      Call.run (.tfsClose session.boxF) server.fs = .ok (result, fs) →
      SubscriberStep thread server (.closeFile session) (server.setFs fs) none

/-! ### Managing boxes -/

/-- Whether the two critical sections of `box_create` are one step or two -/
inductive Atomicity where
  | calls
  | sections
deriving DecidableEq

/-- One step of `workers_handle_manager_create` -/
inductive CreateStep (atomicity : Atomicity) :
    Server Thread → CreatePoint → Server Thread → Option CreatePoint → Prop where
  | exists {server : Server Thread} {boxName : CString} {result : CallResult}
      {fs : FileSystem.State} :
      (openPlain boxName).run server.fs = .ok (result, fs) → 0 ≤ result.length →
      CreateStep atomicity server (.openExisting boxName) (server.setFs fs)
        (some (.closeFile result.length (-1)))
  | absent {server : Server Thread} {boxName : CString} {result : CallResult}
      {fs : FileSystem.State} :
      (openPlain boxName).run server.fs = .ok (result, fs) → result.length < 0 →
      CreateStep atomicity server (.openExisting boxName) (server.setFs fs)
        (some (.openNew boxName))
  | openFails {server : Server Thread} {boxName : CString} {result : CallResult}
      {fs : FileSystem.State} :
      (openCreate boxName).run server.fs = .ok (result, fs) → result.length < 0 →
      CreateStep atomicity server (.openNew boxName) (server.setFs fs)
        (some (.closeFile result.length (-1)))
  | opens {server : Server Thread} {boxName : CString} {result : CallResult}
      {fs : FileSystem.State} :
      (openCreate boxName).run server.fs = .ok (result, fs) → 0 ≤ result.length →
      CreateStep atomicity server (.openNew boxName) (server.setFs fs)
        (some (.takeBox boxName result.length))
  | full {server : Server Thread} {boxName : CString} {f : Int} : server.firstFreeBox = none →
      CreateStep atomicity server (.takeBox boxName f) server (some (.closeFile f (-1)))
  | takes {server : Server Thread} {boxName : CString} {f : Int} {boxI : Nat} :
      atomicity = .sections → server.firstFreeBox = some boxI →
      CreateStep atomicity server (.takeBox boxName f) (server.takeBox boxI boxName)
        (some (.fillBox boxName f boxI))
  | fills {server : Server Thread} {boxName : CString} {f : Int} {boxI : Nat} :
      server.Unlocked boxI →
      CreateStep atomicity server (.fillBox boxName f boxI) (server.fillBox boxI boxName)
        (some (.closeFile f 0))
  | creates {server : Server Thread} {boxName : CString} {f : Int} {boxI : Nat} :
      atomicity = .calls → server.firstFreeBox = some boxI → server.Unlocked boxI →
      CreateStep atomicity server (.takeBox boxName f)
        ((server.takeBox boxI boxName).fillBox boxI boxName) (some (.closeFile f 0))
  | closes {server : Server Thread} {f returnCode : Int} {result : CallResult}
      {fs : FileSystem.State} : Call.run (.tfsClose f) server.fs = .ok (result, fs) →
      CreateStep atomicity server (.closeFile f returnCode) (server.setFs fs)
        (some (.answer returnCode))
  | answers {server : Server Thread} {returnCode : Int} :
      CreateStep atomicity server (.answer returnCode) server none

/-- One step of `workers_handle_manager_remove` -/
inductive RemoveStep :
    Server Thread → RemovePoint → Server Thread → Option RemovePoint → Prop where
  | notFound {server : Server Thread} {boxName : CString} : server.boxFind boxName = none →
      RemoveStep server (.deleteBox boxName) server (some (.answer (-1)))
  | deletes {server : Server Thread} {boxName : CString} {boxI : Nat} :
      server.boxFind boxName = some boxI → server.Unlocked boxI →
      RemoveStep server (.deleteBox boxName) (server.deleteBox boxI boxName)
        (some (.unlink boxName))
  | unlinks {server : Server Thread} {boxName : CString} {result : CallResult}
      {fs : FileSystem.State} :
      Call.run (.tfsUnlink (some boxName)) server.fs = .ok (result, fs) →
      RemoveStep server (.unlink boxName) (server.setFs fs)
        (some (.answer (if result.length = 0 then 0 else -1)))
  | answers {server : Server Thread} {returnCode : Int} :
      RemoveStep server (.answer returnCode) server none

/-! ### Workers -/

/-- The server with its workers -/
structure Broker (Thread : Type) where
  server : Server Thread
  workers : Thread → Point

namespace Broker

variable [DecidableEq Thread]

/-- The worker goes on at the point. -/
def goto (broker : Broker Thread) (thread : Thread) (server : Server Thread) (point : Point) :
    Broker Thread where
  server := server
  workers := Function.update broker.workers thread point

/-- One step of a worker -/
inductive Step (atomicity : Atomicity) (thread : Thread) (broker : Broker Thread) :
    Broker Thread → Prop where
  | dequeue (request : Request) : broker.workers thread = .idle →
      Step atomicity thread broker (broker.goto thread broker.server request.start)
  | publisher {point : PublisherPoint} {server : Server Thread} {next : Option PublisherPoint} :
      broker.workers thread = .publisher point →
      PublisherStep broker.server point server next →
      Step atomicity thread broker (broker.goto thread server (next.elim .idle .publisher))
  | subscriber {point : SubscriberPoint} {server : Server Thread}
      {next : Option SubscriberPoint} : broker.workers thread = .subscriber point →
      SubscriberStep thread broker.server point server next →
      Step atomicity thread broker (broker.goto thread server (next.elim .idle .subscriber))
  | create {point : CreatePoint} {server : Server Thread} {next : Option CreatePoint} :
      broker.workers thread = .create point →
      CreateStep atomicity broker.server point server next →
      Step atomicity thread broker (broker.goto thread server (next.elim .idle .create))
  | remove {point : RemovePoint} {server : Server Thread} {next : Option RemovePoint} :
      broker.workers thread = .remove point →
      RemoveStep broker.server point server next →
      Step atomicity thread broker (broker.goto thread server (next.elim .idle .remove))

end Broker

/-- The broker with its `max_sessions` workers -/
def brokerSystem (atomicity : Atomicity) (params : MbrokerParams) :
    ThreadSystem (Fin params.maxSessions) (Broker (Fin params.maxSessions)) where
  initial broker := MbrokerInit params broker.server ∧ ∀ thread, broker.workers thread = .idle
  step thread broker broker' := broker.Step atomicity thread broker'

end TecnicoFS.Mbroker
