/-
Where the workers are in the message stream of a box.

A publisher of the box is at the end of its file and a subscriber right behind what it has
read; sessions of other boxes are in other files.  Every step of a handler keeps its worker
there, and none enters the box a second time.
-/

import TecnicoFS.Mbroker.BoxNames
import TecnicoFS.Mbroker.StreamFiles

set_option autoImplicit false

namespace TecnicoFS.Mbroker

open FileSystem

/-! ### Where a worker is in the stream -/

section
variable (model : Model Nat) (boxName : CString) (boxI id : Nat) (stored : List Message)

/-- A publisher of the box is at the end of its file, and one of another box is not in it. -/
structure Session.Appends (session : Session) : Prop where
  inside : session.boxI = boxI → AtOffset model id session.boxF (msgMaxLen * stored.length)
  outside : session.boxI ≠ boxI → ∀ offset, ¬ AtOffset model id session.boxF offset

/-- A subscriber of the box has read the messages and is right behind them. -/
def SubscriberSession.HasRead (session : SubscriberSession) (messages : List Message) : Prop :=
  session.boxI = boxI → messages <+: stored ∧
    AtOffset model id session.boxF (msgMaxLen * messages.length)

def PublisherPoint.InStream : PublisherPoint → Prop
  | .openPipe _ | .findBox _ | .closeFile _ => True
  | .register box => box.boxI = boxI ↔ box.boxName = boxName
  | .readCode session | .checkBox session | .readMessage session | .writeMessage session _
  | .publish session | .unregister session => session.Appends model boxI id stored

def SubscriberPoint.InStream : SubscriberPoint → Prop
  | .openPipe _ | .findBox _ => True
  | .register box => box.boxI = boxI ↔ box.boxName = boxName
  | .awaitMessage session | .blocked session | .readNext session =>
      session.HasRead model boxI id stored session.sent
  | .checkBox session | .sendMessage session =>
      session.HasRead model boxI id stored (session.sent ++ [session.message])
  | .unregister session | .closeFile session => session.boxI = boxI → session.sent <+: stored

def Point.InStream : Point → Prop
  | .publisher point => point.InStream model boxName boxI id stored
  | .subscriber point => point.InStream model boxName boxI id stored
  | .idle | .create _ | .remove _ => True

end

section
variable {model model' : Model Nat} {boxName : CString} {boxI id : Nat}
  {stored stored' : List Message}

theorem atOffset_congr {f : Int} {offset : Nat}
    (own : ∀ handle : Nat, f = handle → model'.handles handle = model.handles handle) :
    AtOffset model' id f offset ↔ AtOffset model id f offset := by
  constructor
  · rintro ⟨handle, same, holds⟩
    rw [own handle same] at holds
    exact ⟨handle, same, holds⟩
  · rintro ⟨handle, same, holds⟩
    rw [← own handle same] at holds
    exact ⟨handle, same, holds⟩

theorem Session.Appends.kept {session : Session}
    (appends : session.Appends model boxI id stored)
    (own : ∀ handle : Nat, session.boxF = handle → model'.handles handle = model.handles handle)
    (alone : session.boxI = boxI → stored' = stored) :
    session.Appends model' boxI id stored' := by
  constructor
  · intro here
    rw [atOffset_congr own, alone here]
    exact appends.inside here
  · intro elsewhere offset
    rw [atOffset_congr own]
    exact appends.outside elsewhere offset

theorem SubscriberSession.HasRead.kept {session : SubscriberSession} {messages : List Message}
    (read : session.HasRead model boxI id stored messages)
    (own : ∀ handle : Nat, session.boxF = handle → model'.handles handle = model.handles handle)
    (grows : stored <+: stored') : session.HasRead model' boxI id stored' messages := by
  intro here
  rw [atOffset_congr own]
  exact ⟨(read here).1.trans grows, (read here).2⟩

/-- The steps of others leave a worker where it is in the stream. -/
theorem Point.InStream.kept {point : Point}
    (inStream : point.InStream model boxName boxI id stored)
    (own : ∀ handle : Nat, point.file? = some (handle : Int) →
      model'.handles handle = model.handles handle)
    (grows : stored <+: stored') (alone : point.publishes? = some boxI → stored' = stored) :
    point.InStream model' boxName boxI id stored' := by
  have moved {f : Int} (file : point.file? = some f) (handle : Nat) (same : f = handle) :
      model'.handles handle = model.handles handle := own handle (by rw [file, same])
  cases point with
  | publisher point =>
      have appends {session : Session} (appends : session.Appends model boxI id stored)
          (file : (Point.publisher point).file? = some session.boxF)
          (publishes : point.slot? = some session.boxI) :
          session.Appends model' boxI id stored' :=
        appends.kept (moved file) (fun here => alone (by rw [← here]; exact publishes))
      cases point with
      | openPipe _ => trivial
      | findBox _ => trivial
      | register _ => exact inStream
      | closeFile _ => trivial
      | _ => exact appends inStream rfl rfl
  | subscriber point =>
      cases point with
      | openPipe _ => trivial
      | findBox _ => trivial
      | register _ => exact inStream
      | unregister _ => exact fun here => (inStream here).trans grows
      | closeFile _ => exact fun here => (inStream here).trans grows
      | _ => exact SubscriberSession.HasRead.kept inStream (moved rfl) grows
  | _ => trivial

end

/-! ### Steps of the sessions -/

section
variable {Thread : Type} {params : MbrokerParams} {server server' : Server Thread}
  {model : Model Nat} {boxName : CString} {boxI id : Nat}

/-- The slot is the only TAKEN one with the name of the box. -/
structure Server.HasEntry (server : Server Thread) (boxName : CString) (boxI : Nat) : Prop where
  isTaken : server.IsTaken boxI
  single : ∀ other, server.IsTaken other →
    ((server.boxesTable other).name = boxName ↔ other = boxI)

theorem Server.HasEntry.found (entry : server.HasEntry boxName boxI) {other : CString}
    {place : Nat} (found : server.boxFind other = some place) :
    place = boxI ↔ other = boxName := by
  obtain ⟨_, taken, named⟩ := server.boxFind_eq_some found
  rw [← entry.single place taken, named]

/-- The write of a publisher: a message for the box is stored unless its block is full. -/
theorem StreamFiles.writes {fs : FileSystem.State} {session : Session} {message : Message}
    {result : CallResult}
    (stream : StreamFiles params boxName id server.fs (server.stored boxI) model)
    (appends : session.Appends model boxI id (server.stored boxI))
    (returned : (writeCall session.boxF message).run server.fs = .ok (result, fs)) :
    ∃ model' stored', StreamFiles params boxName id fs stored' model' ∧
      HandlesKept model model' (some session.boxF) ∧ session.Appends model' boxI id stored' ∧
      (session.boxI = boxI → result.length = msgMaxLen →
        stored' = server.stored boxI ++ [message]) ∧
      (session.boxI = boxI → result.length ≠ msgMaxLen → stored' = server.stored boxI ∧
        1024 * 1024 < msgMaxLen * ((server.stored boxI).length + 1)) ∧
      (session.boxI ≠ boxI → stored' = server.stored boxI) := by
  by_cases here : session.boxI = boxI
  · obtain ⟨model', kept, stores, refuses⟩ := stream.appends (appends.inside here) returned
    have elsewhere {conclusion : Prop} (other : session.boxI ≠ boxI) : conclusion :=
      (other here).elim
    by_cases written : result.length = msgMaxLen
    · obtain ⟨stream', atEnd⟩ := stores written
      exact ⟨model', _, stream', kept, ⟨fun _ => atEnd, elsewhere⟩, fun _ _ => rfl,
        fun _ refused => (refused written).elim, elsewhere⟩
    · obtain ⟨stream', atEnd, full⟩ := refuses written
      exact ⟨model', _, stream', kept, ⟨fun _ => atEnd, elsewhere⟩,
        fun _ stored => (written stored).elim, fun _ _ => ⟨rfl, full⟩, elsewhere⟩
  · obtain ⟨model', stream', kept, elsewhere⟩ :=
      stream.writesElsewhere (appends.outside here) returned
    exact ⟨model', _, stream', kept, ⟨fun inside => (here inside).elim, fun _ => elsewhere⟩,
      fun inside => (here inside).elim, fun inside => (here inside).elim, fun _ => rfl⟩

theorem Server.recordStored_stored (server : Server Thread) (fs : FileSystem.State)
    (place : Nat) (message : Message) :
    ((server.setFs fs).recordStored place message).stored boxI =
      if place = boxI then server.stored boxI ++ [message] else server.stored boxI := by
  change Function.update server.stored place (server.stored place ++ [message]) boxI = _
  rw [Function.update_apply]
  by_cases here : boxI = place
  · rw [if_pos here, if_pos here.symm, here]
  · rw [if_neg here, if_neg (Ne.symm here)]

theorem PublisherStep.inStream {point : PublisherPoint} {next : Option PublisherPoint}
    (step : PublisherStep server point server' next) (entry : server.HasEntry boxName boxI)
    (stream : StreamFiles params boxName id server.fs (server.stored boxI) model)
    (inStream : point.InStream model boxName boxI id (server.stored boxI)) :
    ∃ model', StreamFiles params boxName id server'.fs (server'.stored boxI) model' ∧
      HandlesKept model model' (Point.publisher point).file? ∧
      (next.elim Point.idle Point.publisher).InStream model' boxName boxI id
        (server'.stored boxI) := by
  cases step with
  | pipeFails => exact ⟨model, stream, .refl _ _, trivial⟩
  | pipeOpens => exact ⟨model, stream, .refl _ _, trivial⟩
  | notFound _ => exact ⟨model, stream, .refl _ _, trivial⟩
  | found found => exact ⟨model, stream, .refl _ _, entry.found found⟩
  | busy _ _ => exact ⟨model, stream, .refl _ _, trivial⟩
  | openFails _ _ returned _ =>
      obtain ⟨model', stream', kept, _⟩ := stream.opens returned
      exact ⟨model', stream', kept, trivial⟩
  | registers _ _ returned opened =>
      obtain ⟨model', stream', kept, place⟩ := stream.opens returned
      refine ⟨model', stream', kept, ?_, ?_⟩
      · intro here
        exact (place opened).1 (inStream.mp here)
      · intro elsewhere
        exact (place opened).2 (fun same => elsewhere (inStream.mpr same))
  | @writes session message _ fs returned written =>
      obtain ⟨model', stored', stream', kept, appends, stores, _, outside⟩ :=
        stream.writes inStream returned
      have recorded : stored' = ((server.setFs fs).recordStored session.boxI message).stored
          boxI := by
        rw [server.recordStored_stored]
        by_cases here : session.boxI = boxI
        · rw [if_pos here]
          exact stores here written
        · rw [if_neg here]
          exact outside here
      rw [← recorded]
      exact ⟨model', stream', kept, appends⟩
  | @writeFails session _ _ _ returned refused =>
      obtain ⟨model', stored', stream', kept, appends, _, refuses, outside⟩ :=
        stream.writes inStream returned
      have same : stored' = server.stored boxI := by
        by_cases here : session.boxI = boxI
        · exact (refuses here refused).1
        · exact outside here
      subst same
      exact ⟨model', stream', kept, appends⟩
  | unregisters _ => exact ⟨model, stream, .refl _ _, trivial⟩
  | closes returned =>
      obtain ⟨model', stream', kept⟩ := stream.closes returned
      exact ⟨model', stream', kept, trivial⟩
  | _ => exact ⟨model, stream, .refl _ _, inStream⟩

/-- A read that fills the buffer adds its message to those that were read, and one that
does not has read them all. -/
theorem StreamFiles.readsNext {fs : FileSystem.State} {session : SubscriberSession}
    {result : CallResult}
    (stream : StreamFiles params boxName id server.fs (server.stored boxI) model)
    (read : session.HasRead model boxI id (server.stored boxI) session.sent)
    (returned : (readCall session.boxF).run server.fs = .ok (result, fs)) :
    ∃ model', StreamFiles params boxName id fs (server.stored boxI) model' ∧
      HandlesKept model model' (some session.boxF) ∧
      (result.length = msgMaxLen → (session.receive result.bytes).HasRead model' boxI id
        (server.stored boxI) (session.sent ++ [(session.receive result.bytes).message])) ∧
      (result.length ≠ msgMaxLen →
        (session.receive result.bytes).HasRead model' boxI id (server.stored boxI)
          session.sent ∧
        (session.boxI = boxI → session.sent = server.stored boxI)) := by
  obtain ⟨model', stream', kept, next⟩ := stream.reads returned
  refine ⟨model', stream', kept, ?_, ?_⟩
  · intro full here
    obtain ⟨message, bytes, grows, place⟩ :=
      (next session.sent (read here).1 (read here).2).1 full
    have received : (session.receive result.bytes).message = message := by
      rw [bytes]
      exact session.message.receive_full message
    rw [received]
    exact ⟨grows, place⟩
  · intro short
    have last (here : session.boxI = boxI) :=
      (next session.sent (read here).1 (read here).2).2 short
    exact ⟨fun here => ⟨(read here).1, (last here).2⟩, fun here => (last here).1⟩

theorem SubscriberStep.inStream [DecidableEq Thread] {thread : Thread} {point : SubscriberPoint}
    {next : Option SubscriberPoint} (step : SubscriberStep thread server point server' next)
    (entry : server.HasEntry boxName boxI)
    (stream : StreamFiles params boxName id server.fs (server.stored boxI) model)
    (inStream : point.InStream model boxName boxI id (server.stored boxI)) :
    ∃ model', StreamFiles params boxName id server'.fs (server'.stored boxI) model' ∧
      HandlesKept model model' (Point.subscriber point).file? ∧
      (next.elim Point.idle Point.subscriber).InStream model' boxName boxI id
        (server'.stored boxI) := by
  cases step with
  | pipeFails => exact ⟨model, stream, .refl _ _, trivial⟩
  | pipeOpens => exact ⟨model, stream, .refl _ _, trivial⟩
  | notFound _ => exact ⟨model, stream, .refl _ _, trivial⟩
  | found found => exact ⟨model, stream, .refl _ _, entry.found found⟩
  | openFails _ returned _ =>
      obtain ⟨model', stream', kept, _⟩ := stream.opens returned
      exact ⟨model', stream', kept, trivial⟩
  | registers _ returned opened =>
      obtain ⟨model', stream', kept, place⟩ := stream.opens returned
      refine ⟨model', stream', kept, ?_⟩
      intro here
      exact ⟨List.nil_prefix, (place opened).1 (inStream.mp here)⟩
  | noWait _ gone =>
      refine ⟨model, stream, .refl _ _, ?_⟩
      intro here
      rw [here] at gone
      exact (gone entry.isTaken).elim
  | reads _ _ returned full =>
      obtain ⟨model', stream', kept, next, _⟩ := stream.readsNext inStream returned
      exact ⟨model', stream', kept, next full⟩
  | blocks _ _ returned short =>
      obtain ⟨model', stream', kept, _, next⟩ := stream.readsNext inStream returned
      exact ⟨model', stream', kept, (next short).1⟩
  | boxGone _ =>
      refine ⟨model, stream, .refl _ _, ?_⟩
      intro here
      exact (List.prefix_append _ _).trans (inStream here).1
  | sendFails =>
      refine ⟨model, stream, .refl _ _, ?_⟩
      intro here
      exact (List.prefix_append _ _).trans (inStream here).1
  | readsNext returned full =>
      obtain ⟨model', stream', kept, next, _⟩ := stream.readsNext inStream returned
      exact ⟨model', stream', kept, next full⟩
  | readsLast returned short =>
      obtain ⟨model', stream', kept, _, next⟩ := stream.readsNext inStream returned
      exact ⟨model', stream', kept, (next short).1⟩
  | closes returned =>
      obtain ⟨model', stream', kept⟩ := stream.closes returned
      exact ⟨model', stream', kept, trivial⟩
  | _ => exact ⟨model, stream, .refl _ _, inStream⟩

/-- A subscriber goes to sleep only when it has sent every message. -/
theorem SubscriberStep.blocked [DecidableEq Thread] {thread : Thread} {point : SubscriberPoint}
    {session : SubscriberSession}
    (step : SubscriberStep thread server point server' (some (.blocked session)))
    (stream : StreamFiles params boxName id server.fs (server.stored boxI) model)
    (inStream : point.InStream model boxName boxI id (server.stored boxI))
    (here : session.boxI = boxI) : session.sent = server'.stored boxI := by
  cases step with
  | blocks _ _ returned short =>
      obtain ⟨_, _, _, _, next⟩ := stream.readsNext inStream returned
      exact (next short).2 here

end

/-! ### Steps of the managers -/

/-- The worker creates or removes the box, or fills its slot. -/
def Point.Changes (boxName : CString) (boxI : Nat) : Point → Prop
  | .create (.openNew other) => other = boxName
  | .create (.takeBox other _) => other = boxName
  | .create (.fillBox other _ place) => other = boxName ∨ place = boxI
  | .remove (.unlink other) => other = boxName
  | _ => False

section
variable {Thread : Type} {atomicity : Atomicity} {params : MbrokerParams}
  {server server' : Server Thread} {model : Model Nat} {boxName : CString} {boxI id : Nat}

theorem Server.HasEntry.same (entry : server.HasEntry boxName boxI)
    (same : SameNames server server') : server'.HasEntry boxName boxI := by
  constructor
  · exact (same.taken boxI).mpr entry.isTaken
  · intro other taken
    rw [same.names]
    exact entry.single other ((same.taken other).mp taken)

/-- An entry that is FREE is not that of the box. -/
theorem Server.HasEntry.free_ne (entry : server.HasEntry boxName boxI) {place : Nat}
    (free : server.firstFreeBox = some place) : place ≠ boxI := by
  intro same
  rw [same] at free
  exact (server.firstFreeBox_eq_some free).2 entry.isTaken

theorem Server.takeBox_stored (server : Server Thread) (other : CString) {place : Nat}
    (different : place ≠ boxI) :
    (server.takeBox place other).stored boxI = server.stored boxI :=
  Function.update_of_ne (Ne.symm different) _ _

theorem CreateStep.inStream {point : CreatePoint} {next : Option CreatePoint}
    (step : CreateStep atomicity server point server' next) (entry : server.HasEntry boxName boxI)
    (stream : StreamFiles params boxName id server.fs (server.stored boxI) model) :
    ∃ model', StreamFiles params boxName id server'.fs (server'.stored boxI) model' ∧
      HandlesKept model model' (Point.create point).file? := by
  have opened {path : CString} {creat append : Bool} {result : CallResult}
      {fs : FileSystem.State}
      (returned : Call.run (.tfsOpen (some path) ⟨creat, false, append⟩) server.fs =
        .ok (result, fs)) :
      ∃ model', StreamFiles params boxName id fs (server.stored boxI) model' ∧
        HandlesKept model model' none := by
    obtain ⟨model', stream', kept, _⟩ := stream.opens returned
    exact ⟨model', stream', kept⟩
  cases step with
  | «exists» returned _ => exact opened returned
  | absent returned _ => exact opened returned
  | openFails returned _ => exact opened returned
  | opens returned _ => exact opened returned
  | takes _ free =>
      rw [server.takeBox_stored _ (entry.free_ne free)]
      exact ⟨model, stream, .refl _ _⟩
  | @creates boxName _ place _ free _ =>
      have stored : ((server.takeBox place boxName).fillBox place boxName).stored boxI =
          server.stored boxI := server.takeBox_stored boxName (entry.free_ne free)
      rw [stored]
      exact ⟨model, stream, .refl _ _⟩
  | closes returned => exact stream.closes returned
  | _ => exact ⟨model, stream, .refl _ _⟩

theorem RemoveStep.inStream {point : RemovePoint} {next : Option RemovePoint}
    (step : RemoveStep server point server' next)
    (manages : ¬ (Point.remove point).Changes boxName boxI)
    (stream : StreamFiles params boxName id server.fs (server.stored boxI) model) :
    ∃ model', StreamFiles params boxName id server'.fs (server'.stored boxI) model' ∧
      HandlesKept model model' (Point.remove point).file? := by
  cases step with
  | unlinks returned => exact stream.unlinks manages returned
  | _ => exact ⟨model, stream, .refl _ _⟩

/-- A box that is entered in another slot under another name -/
theorem Server.HasEntry.fill (entry : server.HasEntry boxName boxI) {other : CString}
    {place : Nat} (otherName : other ≠ boxName) (different : place ≠ boxI) :
    (server.fillBox place other).HasEntry boxName boxI := by
  constructor
  · exact entry.isTaken
  · intro slot taken
    by_cases here : slot = place
    · subst here
      rw [server.fillBox_name]
      exact ⟨fun same => (otherName same).elim, fun same => (different same).elim⟩
    · rw [server.fillBox_other other here]
      exact entry.single slot taken

theorem CreateStep.hasEntry {point : CreatePoint} {next : Option CreatePoint}
    (step : CreateStep atomicity server point server' next) (entry : server.HasEntry boxName boxI)
    (manages : ¬ (Point.create point).Changes boxName boxI)
    (taking : atomicity = .sections → ∀ other f place, point = .takeBox other f →
      server.firstFreeBox = some place → (server.boxesTable place).name ≠ boxName) :
    server'.HasEntry boxName boxI := by
  cases step with
  | @takes other _ place sections free =>
      have different := entry.free_ne free
      constructor
      · exact (server.takeBox_other other (Ne.symm different)).mpr entry.isTaken
      · intro slot taken
        by_cases here : slot = place
        · subst here
          exact ⟨fun same => (taking sections _ _ _ rfl free same).elim,
            fun same => (different same).elim⟩
        · exact entry.single slot ((server.takeBox_other other here).mp taken)
  | fills _ => exact entry.fill (fun same => manages (Or.inl same)) (fun same =>
      manages (Or.inr same))
  | @creates other _ place _ free _ =>
      have different := entry.free_ne free
      constructor
      · exact (server.takeBox_other other (Ne.symm different)).mpr entry.isTaken
      · intro slot taken
        by_cases here : slot = place
        · subst here
          rw [Server.fillBox_name]
          exact ⟨fun same => (manages same).elim, fun same => (different same).elim⟩
        · rw [Server.fillBox_other _ other here]
          exact entry.single slot ((server.takeBox_other other here).mp taken)
  | _ => exact ⟨entry.isTaken, entry.single⟩

theorem RemoveStep.hasEntry {point : RemovePoint} {next : Option RemovePoint}
    (step : RemoveStep server point server' next) (entry : server.HasEntry boxName boxI)
    (removing : point ≠ .deleteBox boxName) : server'.HasEntry boxName boxI := by
  cases step with
  | @deletes other place found _ =>
      have different : boxI ≠ place := by
        intro same
        exact removing (congrArg _ ((entry.found found).mp same.symm))
      constructor
      · exact (server.deleteBox_other other different).mpr entry.isTaken
      · intro slot taken
        have elsewhere : slot ≠ place := by
          intro same
          rw [same] at taken
          exact server.deleteBox_notTaken place other taken
        exact entry.single slot ((server.deleteBox_other other elsewhere).mp taken)
  | _ => exact ⟨entry.isTaken, entry.single⟩

/-- A create request for the box finds its file, so nobody creates the box again. -/
theorem CreateStep.manages {point : CreatePoint} {next : Option CreatePoint}
    (step : CreateStep atomicity server point server' next) (entry : server.HasEntry boxName boxI)
    (manages : ¬ (Point.create point).Changes boxName boxI)
    (stream : StreamFiles params boxName id server.fs (server.stored boxI) model)
    (room : (Point.create point).file? = none →
      ∃ handle, handle < params.maxSessions ∧ model.handles handle = none) :
    ¬ (next.elim Point.idle Point.create).Changes boxName boxI := by
  cases step with
  | absent returned failed =>
      intro same
      rw [show _ = boxName from same] at returned
      obtain ⟨handle, opened, _⟩ := stream.files.opensPresent stream.valid stream.names
        stream.contents (room rfl) returned
      rw [opened] at failed
      omega
  | opens _ _ => exact manages
  | takes _ free =>
      rintro (same | same)
      · exact manages same
      · exact entry.free_ne free same
  | _ => exact not_false

theorem RemoveStep.manages {point : RemovePoint} {next : Option RemovePoint}
    (step : RemoveStep server point server' next) (removing : point ≠ .deleteBox boxName) :
    ¬ (next.elim Point.idle Point.remove).Changes boxName boxI := by
  cases step with
  | deletes _ _ => exact fun same => removing (congrArg _ same)
  | _ => exact not_false

end

end TecnicoFS.Mbroker
