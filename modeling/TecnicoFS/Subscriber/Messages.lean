/-
`subscriber_read_messages` of `sub.c` on whatever arrives on its session pipe.

The loop prints a message as a string and stops at the first packet that is not a whole
message, or when a signal was caught or cut a read short.  A message without a NUL is printed
beyond its buffer, and the counter is an `int`.
-/

import TecnicoFS.Mbroker.Handlers
import TecnicoFS.Protocol.RegisterPipe

set_option autoImplicit false

namespace TecnicoFS.Subscriber

open FileSystem Protocol Mbroker

/-! ### The packets of the broker -/

def protocolCodeMessageSend : UInt8 := 10

/-- `packet_len` of `workers_handle_sub_register` -/
def packetLen : Nat := 1 + msgMaxLen

/-- The packet `workers_handle_sub_register` writes for a message -/
def messagePacket (message : Message) : Except Fault (List UInt8) := do
  let packet ← (Packet.empty packetLen).write [protocolCodeMessageSend]
  let packet ← packet.write message.bytes
  pure packet.array.bytes

/-- The bytes of a packet with the message -/
def packetOf (message : Message) : List UInt8 := protocolCodeMessageSend :: message.bytes

theorem messagePacket_eq (message : Message) : messagePacket message = .ok (packetOf message) := by
  have whole := message.length_eq
  obtain ⟨coded, wroteCode, holdsCode⟩ := (Packet.empty_holds packetLen).write
    [protocolCodeMessageSend] (by decide)
  obtain ⟨filled, wroteMessage, holdsMessage⟩ := holdsCode.write message.bytes (by
    rw [whole]
    exact Nat.le_refl packetLen)
  have full : packetLen - ([] ++ [protocolCodeMessageSend] ++ message.bytes).length = 0 := by
    rw [List.nil_append, List.length_append, whole]
    rfl
  unfold messagePacket
  simp only [wroteCode, wroteMessage, bind, Except.bind]
  change Except.ok filled.array.bytes = _
  rw [holdsMessage.bytes, full, List.replicate_zero, List.append_nil]
  rfl

/-! ### The subscriber -/

/-- What signals do to the turns of the loop: whether one was caught before the test of the
turn, and whether one cuts a read of the turn short -/
structure Signals where
  caught : Nat → Bool
  cutsCode : Nat → Bool
  cutsMessage : Nat → Bool

/-- `read` from the session pipe: what it returns, the bytes read and the rest of the pipe -/
def read (cut : Bool) (pipe : List UInt8) (bufLen : Nat) : Int × List UInt8 × List UInt8 :=
  if cut then
    (-1, [], pipe)
  else
    ((pipe.take bufLen).length, pipe.take bufLen, pipe.drop bufLen)

/-- `read` of a message -/
def readMessage (cut : Bool) (pipe : List UInt8) : Option (Message × List UInt8) :=
  let (bytesRead, bytes, rest) := read cut pipe msgMaxLen
  if bytesRead ≠ msgMaxLen then
    none
  else if whole : bytes.length = msgMaxLen then
    some (⟨bytes, whole⟩, rest)
  else
    none

/-- The string `fprintf` prints -/
def string? (message : Message) : Option CString :=
  (⟨message.bytes, message.length_eq⟩ : CharArray msgMaxLen).string?

/-- `INT_MAX` -/
def intMax : Nat := 2 ^ 31 - 1

/-- The loop, with the messages printed so far; `n_messages` is their number. -/
def subscriberLoop (signals : Signals) :
    Nat → List CString → List UInt8 → Except Fault (List CString)
  | 0, _, _ => .error .diverges
  | fuel + 1, printed, pipe =>
      if signals.caught printed.length then
        pure printed
      else
        let (bytesRead, code, pipe) := read (signals.cutsCode printed.length) pipe 1
        if bytesRead ≠ 1 ∨ code.head? ≠ some protocolCodeMessageSend then
          pure printed
        else
          match readMessage (signals.cutsMessage printed.length) pipe with
          | none => pure printed
          | some (message, pipe) => do
              let text ← orUndefined (string? message)
              if printed.length < intMax then
                subscriberLoop signals fuel (printed ++ [text]) pipe
              else
                .error .undefined

/-- What the subscriber prints: the messages, and their number at the end -/
structure Printed where
  messages : List CString
  nMessages : Nat
deriving DecidableEq

/-- `subscriber_read_messages` -/
def subscriberReadMessages (opens : Bool) (signals : Signals) (fuel : Nat) (pipe : List UInt8) :
    Except Fault (Int × Option Printed) :=
  if ¬ opens then
    pure (-1, none)
  else do
    let printed ← subscriberLoop signals fuel [] pipe
    pure (0, some { messages := printed, nMessages := printed.length })

/-! ### Whole messages -/

/-- The bytes start with the packet of a message. -/
def StartsPacket (pipe : List UInt8) : Prop :=
  ∃ message : Message, packetOf message <+: pipe

/-- The bytes are the packets of the messages and then none. -/
structure Carries (pipe : List UInt8) (messages : List Message) (rest : List UInt8) : Prop where
  bytes : pipe = (messages.map packetOf).flatten ++ rest
  ended : ¬ StartsPacket rest

/-- Every stream of bytes carries some messages. -/
theorem exists_carries (pipe : List UInt8) : ∃ messages rest, Carries pipe messages rest := by
  induction length : pipe.length using Nat.strong_induction_on generalizing pipe with
  | h n inductionHypothesis =>
      by_cases starts : StartsPacket pipe
      · obtain ⟨message, behind, rfl⟩ := starts
        rw [List.length_append] at length
        have shorter : behind.length < n := by
          have positive : 0 < (packetOf message).length := Nat.succ_pos _
          omega
        obtain ⟨messages, rest, carries⟩ := inductionHypothesis _ shorter behind rfl
        refine ⟨message :: messages, rest, ?_, carries.ended⟩
        rw [List.map_cons, List.flatten_cons, List.append_assoc, ← carries.bytes]
      · exact ⟨[], pipe, rfl, starts⟩

variable {signals : Signals} {fuel : Nat} {printed : List CString} {pipe rest : List UInt8}

/-! ### One turn -/

/-- A signal is caught or cuts a read short in the turn. -/
def Signals.disturb (signals : Signals) (turn : Nat) : Bool :=
  signals.caught turn || signals.cutsCode turn || signals.cutsMessage turn

/-- The turns up to the first one that is disturbed, or to the bound -/
def Signals.quietTurns (signals : Signals) : Nat → Nat → Nat
  | _, 0 => 0
  | turn, bound + 1 =>
      if signals.disturb turn then 0 else signals.quietTurns (turn + 1) bound + 1

theorem read_whole {bytes : List UInt8} {bufLen : Nat} (whole : bytes.length = bufLen)
    (rest : List UInt8) : read false (bytes ++ rest) bufLen = ((bufLen : Int), bytes, rest) := by
  unfold read
  rw [if_neg Bool.false_ne_true, List.take_left' whole, List.drop_left' whole, whole]

theorem readMessage_cut (pipe : List UInt8) : readMessage true pipe = none := rfl

theorem readMessage_whole (message : Message) (rest : List UInt8) :
    readMessage false (message.bytes ++ rest) = some (message, rest) := by
  unfold readMessage
  simp only [read_whole message.length_eq]
  rw [if_neg (fun different => different rfl), dif_pos message.length_eq]

theorem readMessage_some {message : Message}
    (arrived : readMessage false pipe = some (message, rest)) :
    pipe = message.bytes ++ rest := by
  unfold readMessage at arrived
  have split := List.take_append_drop msgMaxLen pipe
  unfold read at arrived
  rw [if_neg Bool.false_ne_true] at arrived
  dsimp only at arrived
  split at arrived
  · cases arrived
  · split at arrived
    · rw [Option.some.injEq, Prod.mk.injEq] at arrived
      rw [← arrived.1, ← arrived.2]
      exact split.symm
    · cases arrived

/-- Nothing is printed in a turn that is disturbed. -/
theorem subscriberLoop_disturbed (disturbed : signals.disturb printed.length = true) :
    subscriberLoop signals (fuel + 1) printed pipe = .ok printed := by
  rw [subscriberLoop]
  by_cases caught : signals.caught printed.length = true
  · rw [if_pos caught]
    rfl
  · rw [if_neg caught]
    cases cutsCode : signals.cutsCode printed.length with
    | true => rfl
    | false =>
        have cutsMessage : signals.cutsMessage printed.length = true := by
          unfold Signals.disturb at disturbed
          rw [cutsCode, Bool.eq_false_iff.mpr caught] at disturbed
          exact disturbed
        rw [cutsMessage]
        simp only [readMessage_cut]
        split <;> rfl

/-- Nothing is printed when no whole message arrives. -/
theorem subscriberLoop_ended (ended : ¬ StartsPacket rest) :
    subscriberLoop signals (fuel + 1) printed rest = .ok printed := by
  by_cases disturbed : signals.disturb printed.length = true
  · exact subscriberLoop_disturbed disturbed
  · unfold Signals.disturb at disturbed
    simp only [Bool.or_eq_true, not_or, Bool.not_eq_true] at disturbed
    rw [subscriberLoop, disturbed.1.1, disturbed.1.2, disturbed.2, if_neg Bool.false_ne_true]
    cases rest with
    | nil => rfl
    | cons code rest =>
        have first : read false (code :: rest) 1 = (((1 : Nat) : Int), [code], rest) :=
          @read_whole [code] 1 rfl rest
        simp only [first]
        by_cases send : code = protocolCodeMessageSend
        · cases arrived : readMessage false rest with
          | none => split <;> rfl
          | some read =>
              have bytes := readMessage_some arrived
              refine (ended ⟨read.1, read.2, ?_⟩).elim
              rw [bytes, send]
              rfl
        · have other : [code].head? ≠ some protocolCodeMessageSend := by
            intro same
            exact send (Option.some.inj same)
          rw [if_pos (Or.inr other)]
          rfl

/-- A message that arrives whole is printed. -/
theorem subscriberLoop_message (message : Message)
    (quiet : signals.disturb printed.length = false) :
    subscriberLoop signals (fuel + 1) printed (packetOf message ++ rest) =
      (orUndefined (string? message)).bind (fun text =>
        if printed.length < intMax then
          subscriberLoop signals fuel (printed ++ [text]) rest
        else
          .error .undefined) := by
  unfold Signals.disturb at quiet
  simp only [Bool.or_eq_false_iff] at quiet
  have first : read false (packetOf message ++ rest) 1 =
      (((1 : Nat) : Int), [protocolCodeMessageSend], message.bytes ++ rest) :=
    @read_whole [protocolCodeMessageSend] 1 rfl (message.bytes ++ rest)
  have goes : ¬ (((1 : Nat) : Int) ≠ 1 ∨
      [protocolCodeMessageSend].head? ≠ some protocolCodeMessageSend) := by decide
  rw [subscriberLoop, quiet.1.1, quiet.1.2, quiet.2, if_neg Bool.false_ne_true]
  simp only [first, readMessage_whole]
  rw [if_neg goes]
  rfl

/-! ### The session -/

/-- What the strings of the messages are printed as, behind what is printed already -/
def printAll : List CString → List Message → Except Fault (List CString)
  | printed, [] => pure printed
  | printed, message :: messages => do
      let text ← orUndefined (string? message)
      if printed.length < intMax then
        printAll (printed ++ [text]) messages
      else
        .error .undefined

theorem subscriberLoop_prints {messages : List Message} (ended : ¬ StartsPacket rest)
    (enough : messages.length < fuel) :
    subscriberLoop signals fuel printed ((messages.map packetOf).flatten ++ rest) =
      printAll printed
        (messages.take (signals.quietTurns printed.length messages.length)) := by
  induction messages generalizing fuel printed with
  | nil =>
      obtain ⟨fuel, rfl⟩ : ∃ less, fuel = less + 1 := ⟨fuel - 1, by omega⟩
      exact subscriberLoop_ended ended
  | cons message messages inductionHypothesis =>
      obtain ⟨fuel, rfl⟩ : ∃ less, fuel = less + 1 := ⟨fuel - 1, by omega⟩
      rw [List.length_cons] at enough ⊢
      rw [Signals.quietTurns]
      by_cases disturbed : signals.disturb printed.length = true
      · rw [if_pos disturbed, subscriberLoop_disturbed disturbed]
        rfl
      · rw [if_neg disturbed, List.take_succ_cons, List.map_cons, List.flatten_cons,
          List.append_assoc, subscriberLoop_message message (Bool.eq_false_iff.mpr disturbed)]
        rw [printAll]
        congr 1
        funext text
        by_cases room : printed.length < intMax
        · rw [if_pos room, if_pos room, inductionHypothesis (by omega), List.length_append]
          rfl
        · rw [if_neg room, if_neg room]

/-- The messages are printed exactly when all of them have strings and the counter does not
overflow. -/
theorem printAll_eq_ok {messages : List Message} {result : List CString} :
    printAll printed messages = .ok result ↔
      ∃ texts, result = printed ++ texts ∧ messages.map string? = texts.map some ∧
        (texts = [] ∨ printed.length + texts.length ≤ intMax) := by
  induction messages generalizing printed with
  | nil =>
      rw [printAll]
      constructor
      · intro same
        cases same
        exact ⟨[], (List.append_nil _).symm, rfl, Or.inl rfl⟩
      · rintro ⟨texts, rfl, none, _⟩
        rw [List.map_nil, eq_comm, List.map_eq_nil_iff] at none
        rw [none, List.append_nil]
        rfl
  | cons message messages inductionHypothesis =>
      rw [printAll, List.map_cons]
      cases found : string? message with
      | none =>
          constructor
          · intro impossible
            cases impossible
          · rintro ⟨texts, _, same, _⟩
            cases texts with
            | nil => cases same
            | cons text texts => cases same
      | some text =>
          change (if printed.length < intMax then printAll (printed ++ [text]) messages
            else .error .undefined) = _ ↔ _
          by_cases room : printed.length < intMax
          · rw [if_pos room, inductionHypothesis]
            constructor
            · rintro ⟨texts, rfl, same, fits⟩
              refine ⟨text :: texts, List.append_assoc _ _ _, ?_, Or.inr ?_⟩
              · rw [same]
                rfl
              · rcases fits with rfl | fits
                · exact room
                · rw [List.length_append, List.length_singleton] at fits
                  rw [List.length_cons]
                  omega
            · rintro ⟨texts, rfl, same, fits⟩
              cases texts with
              | nil => cases same
              | cons first texts =>
                  rw [List.map_cons, List.cons.injEq, Option.some.injEq] at same
                  obtain ⟨rfl, same⟩ := same
                  refine ⟨texts, List.append_cons _ _ _, same, Or.inr ?_⟩
                  rcases fits with impossible | fits
                  · cases impossible
                  · rw [List.length_cons] at fits
                    rw [List.length_append, List.length_singleton]
                    omega
          · rw [if_neg room]
            constructor
            · intro impossible
              cases impossible
            · rintro ⟨texts, _, same, fits⟩
              rcases fits with rfl | fits
              · cases same
              · cases texts with
                | nil => cases same
                | cons first texts =>
                    rw [List.length_cons] at fits
                    exact absurd fits (by omega)

theorem Carries.length_le {messages : List Message} (carries : Carries pipe messages rest) :
    messages.length ≤ pipe.length := by
  rw [carries.bytes, List.length_append]
  have packets : messages.length ≤ (messages.map packetOf).flatten.length := by
    clear carries
    induction messages with
    | nil => exact Nat.zero_le _
    | cons message messages inductionHypothesis =>
        have head : 1 ≤ (packetOf message).length := Nat.le_add_left 1 _
        rw [List.map_cons, List.flatten_cons, List.length_append, List.length_cons]
        omega
  omega

/-- What the subscriber prints of a stream that carries the messages -/
theorem Carries.subscriberReadMessages {messages : List Message}
    (carries : Carries pipe messages rest) (enough : pipe.length < fuel)
    {result : Int × Option Printed} :
    subscriberReadMessages true signals fuel pipe = .ok result ↔
      ∃ texts, result = (0, some ⟨texts, texts.length⟩) ∧
        (messages.take (signals.quietTurns 0 messages.length)).map string? = texts.map some ∧
        texts.length ≤ intMax := by
  have more : messages.length < fuel := Nat.lt_of_le_of_lt carries.length_le enough
  have loop := @subscriberLoop_prints signals fuel [] rest messages carries.ended more
  rw [← carries.bytes] at loop
  unfold Subscriber.subscriberReadMessages
  rw [if_neg (fun closed => closed rfl), loop]
  constructor
  · intro returned
    cases printed : printAll [] (messages.take (signals.quietTurns 0 messages.length)) with
    | error fault =>
        change (printAll [] (messages.take (signals.quietTurns 0 messages.length))).bind _ = _
          at returned
        rw [printed] at returned
        cases returned
    | ok texts =>
        change (printAll [] (messages.take (signals.quietTurns 0 messages.length))).bind _ = _
          at returned
        rw [printed] at returned
        obtain ⟨texts, rfl, same, fits⟩ := printAll_eq_ok.mp printed
        refine ⟨texts, (Except.ok.inj returned).symm, same, ?_⟩
        rcases fits with rfl | fits
        · exact Nat.zero_le _
        · rw [List.length_nil, Nat.zero_add] at fits
          exact fits
  · rintro ⟨texts, rfl, same, fits⟩
    have printed := @printAll_eq_ok [] (messages.take (signals.quietTurns 0 messages.length)) texts
    have all := printed.mpr ⟨texts, rfl, same, Or.inr (by rw [List.length_nil]; omega)⟩
    change (printAll [] (messages.take (signals.quietTurns 0 messages.length))).bind _ = _
    rw [all]
    rfl

/-- Whatever arrives on the session pipe, the subscriber prints the messages in front of the
first packet that is not a whole message, up to the first turn that a signal disturbs, and
their number; it runs out of a buffer or of the counter exactly when one of them has no NUL or
they are more than an `int` counts. -/
theorem subscriber_prints (signals : Signals) (pipe : List UInt8) (extra : Nat) :
    ∃ messages rest, Carries pipe messages rest ∧ ∀ result,
      subscriberReadMessages true signals (pipe.length + 1 + extra) pipe = .ok result ↔
        ∃ texts, result = (0, some ⟨texts, texts.length⟩) ∧
          (messages.take (signals.quietTurns 0 messages.length)).map string? = texts.map some ∧
          texts.length ≤ intMax := by
  obtain ⟨messages, rest, carries⟩ := exists_carries pipe
  exact ⟨messages, rest, carries, fun _ => carries.subscriberReadMessages (by omega)⟩

end TecnicoFS.Subscriber
