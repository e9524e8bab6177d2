/-
`publisher_write_messages` of `pub.c`, with the standard input as the list of its bytes.

The inner loop stops for three reasons: the buffer is full, the line ends, or `c` equals
`EOF`.  It narrows what `getchar` returned to a `char` before it looks for `EOF`, and it
leaves the newline behind a full buffer for the next message.
-/

import TecnicoFS.Mbroker.Handlers
import TecnicoFS.Protocol.RegisterPipe

set_option autoImplicit false

namespace TecnicoFS.Publisher

open FileSystem Protocol Mbroker

/-! ### The publisher -/

/-- `EOF` -/
def eof : Int := -1

def newline : UInt8 := 10

/-- `(char)` of what `getchar` returned, with a signed `char` of 8 bits -/
def narrowed (char : Int) : Int8 := Int8.ofInt char

/-- The variables of the inner loop -/
structure Reading where
  message : CharArray msgMaxLen
  c : Int8
  messageLen : Nat

/-- The inner loop: what is left of the variables and of the input -/
def readMessage : List UInt8 → Reading → Except Fault (Reading × List UInt8)
  | [], reading =>
      if reading.messageLen < msgMaxLen - 1 then
        -- `getchar` returns `EOF`, which ends the loop
        pure ({ reading with c := narrowed eof }, [])
      else
        pure (reading, [])
  | char :: stdin, reading =>
      if reading.messageLen < msgMaxLen - 1 then
        let c := narrowed char.toNat
        if c.toUInt8 ≠ newline ∧ c.toInt ≠ eof then do
          let message ← orUndefined (reading.message.memcpy reading.messageLen [c.toUInt8])
          readMessage stdin { message := message, c := c, messageLen := reading.messageLen + 1 }
        else
          pure ({ reading with c := c }, stdin)
      else
        pure (reading, char :: stdin)

/-- `packet_len` of `publisher_write_messages` -/
def packetLen : Nat := 1 + msgMaxLen

/-- The packet of a message -/
def messagePacket (message : CharArray msgMaxLen) : Except Fault (List UInt8) := do
  let text ← orUndefined message.string?
  let packet ← (Packet.empty packetLen).write [protocolCodeMessageReceive]
  let packet ← packet.write text.bytes
  pure packet.array.bytes

/-- The session pipe: whether it opens, and for each packet whether `pipe_write` returns a
positive number and leaves `errno` off `EPIPE` -/
structure SessionPipe where
  opens : Bool
  writes : Nat → Bool

/-- A pipe on which every call succeeds -/
def SessionPipe.working : SessionPipe where
  opens := true
  writes := fun _ => true

/-- The outer loop: what the function returns and the packets it has sent -/
def publisherLoop (pipe : SessionPipe) : Nat → CharArray msgMaxLen → Int8 → List UInt8 →
    List (List UInt8) → Except Fault (Int × List (List UInt8))
  | 0, _, _, _, _ => .error .diverges
  | fuel + 1, message, c, stdin, sent => do
      let (reading, stdin) ← readMessage stdin { message := message, c := c, messageLen := 0 }
      let message ← orUndefined (reading.message.memcpy reading.messageLen [0])
      if reading.c.toInt = eof then
        pure (0, sent)
      else
        let packet ← messagePacket message
        if pipe.writes sent.length then
          publisherLoop pipe fuel message reading.c stdin (sent ++ [packet])
        else
          pure (-1, sent)

/-- `publisher_write_messages` -/
def publisherWriteMessages (pipe : SessionPipe) (fuel : Nat) (stdin : List UInt8) :
    Except Fault (Int × List (List UInt8)) :=
  if packetLen > pipeBufferMaxLen then
    pure (-1, [])
  else if ¬ pipe.opens then
    pure (-1, [])
  else
    publisherLoop pipe fuel (.zeroed msgMaxLen) 0 stdin []

/-! ### The broker -/

/-- The reads of `workers_handle_pub_register` from the session pipe, while the box is
there and takes the messages -/
def receiveMessages : Nat → List UInt8 → List (CharArray msgMaxLen)
  | 0, _ => []
  | fuel + 1, pipe =>
      let (bytesRead, buffer, pipe) := pipeRead pipe 1
      if bytesRead ≤ 0 ∨ buffer.head? ≠ some protocolCodeMessageReceive then
        []
      else
        match readArray pipe msgMaxLen with
        | none => []
        | some (message, pipe) => message :: receiveMessages fuel pipe

/-! ### Lines -/

/-- A line that fits in a message -/
structure Line where
  bytes : List UInt8
  noNewline : newline ∉ bytes
  noNul : (0 : UInt8) ∉ bytes
  short : bytes.length ≤ msgMaxLen - 1

/-- The lines as they are typed -/
def typed (lines : List Line) : List UInt8 :=
  lines.flatMap (fun line => line.bytes ++ [newline])

/-- The message of a line -/
def Line.text (line : Line) : CString where
  bytes := line.bytes
  noNul := line.noNul

/-- The packet a line should be sent in -/
def Line.packet (line : Line) : List UInt8 :=
  protocolCodeMessageReceive ::
    (line.bytes ++ List.replicate (msgMaxLen - line.bytes.length) 0)

/-- Every line is sent in a packet of its own, nothing else is sent, and the broker decodes
the lines. -/
def OneMessagePerLine (fuel : Nat) (lines : List Line) : Prop :=
  ∃ sent, publisherWriteMessages .working fuel (typed lines) = .ok (0, sent) ∧
    sent = lines.map Line.packet ∧
    (receiveMessages sent.flatten.length sent.flatten).map CharArray.string? =
      lines.map (fun line => some line.text)

/-- The line keeps clear of the byte that narrows to `EOF` and of the length at which the
newline stays unread. -/
def Line.Plain (line : Line) : Prop :=
  255 ∉ line.bytes ∧ line.bytes.length ≠ msgMaxLen - 1

/-! ### Narrowing -/

theorem narrowed_byte (char : UInt8) : narrowed char.toNat = char.toInt8 := by
  unfold narrowed
  rw [Int8.ofInt_eq_ofNat]
  apply Int8.toBitVec.inj
  change BitVec.ofNat 8 char.toBitVec.toNat = char.toBitVec
  rw [BitVec.ofNat_toNat, BitVec.setWidth_eq]

/-- One byte narrows to `EOF`. -/
theorem toInt8_eof (char : UInt8) : char.toInt8.toInt = eof ↔ char = 255 := by
  have last : eof = (255 : UInt8).toInt8.toInt := by decide
  rw [last, Int8.toInt_inj]
  constructor
  · intro same
    exact congrArg Int8.toUInt8 same
  · intro same
    rw [same]

theorem narrowed_eof : (narrowed eof).toInt = eof := by decide

/-! ### The inner loop -/

variable {message : CharArray msgMaxLen} {c : Int8} {messageLen : Nat}

/-- The loop stores the characters of a line, one behind the other. -/
theorem readMessage_stores {bytes : List UInt8} (rest : List UInt8) (noNewline : newline ∉ bytes)
    (noEof : 255 ∉ bytes) (room : messageLen + bytes.length ≤ msgMaxLen - 1) :
    ∃ message' c', readMessage (bytes ++ rest) ⟨message, c, messageLen⟩ =
        readMessage rest ⟨message', c', messageLen + bytes.length⟩ ∧
      message'.bytes.take (messageLen + bytes.length) =
        message.bytes.take messageLen ++ bytes ∧
      (c.toInt ≠ eof ∨ bytes ≠ [] → c'.toInt ≠ eof) := by
  induction bytes generalizing message c messageLen with
  | nil =>
      refine ⟨message, c, rfl, (List.append_nil _).symm, ?_⟩
      intro either
      rcases either with kept | more
      · exact kept
      · exact (more rfl).elim
  | cons char bytes inductionHypothesis =>
      rw [List.length_cons] at room
      rw [List.mem_cons, not_or] at noNewline noEof
      have inside : messageLen < msgMaxLen - 1 := by omega
      have fits : messageLen + [char].length ≤ msgMaxLen := by
        change messageLen + 1 ≤ msgMaxLen
        omega
      obtain ⟨stored, copied, bytesStored⟩ := message.memcpy_eq_some fits
      have unequal : char.toInt8.toInt ≠ eof := fun same =>
        noEof.1 ((toInt8_eof char).mp same).symm
      obtain ⟨message', c', read, holds, ended⟩ := @inductionHypothesis stored char.toInt8
        (messageLen + 1) noNewline.2 noEof.2 (by omega)
      have length : messageLen + (char :: bytes).length = messageLen + 1 + bytes.length := by
        rw [List.length_cons]
        omega
      refine ⟨message', c', ?_, ?_, ?_⟩
      · rw [List.cons_append, readMessage, if_pos inside, narrowed_byte]
        dsimp only
        rw [if_pos ⟨fun same => noNewline.1 same.symm, unequal⟩]
        change (orUndefined (message.memcpy messageLen [char])).bind _ = _
        rw [copied, length]
        exact read
      · rw [length, holds, bytesStored, List.take_append, List.length_take,
          message.length_eq, Nat.min_eq_left (by omega), Nat.add_sub_cancel_left]
        rw [List.take_of_length_le (by rw [List.length_take]; omega)]
        rw [List.append_assoc]
        rfl
      · intro _
        exact ended (Or.inl unequal)

/-- A newline ends the loop while there is room. -/
theorem readMessage_newline (rest : List UInt8) (room : messageLen < msgMaxLen - 1) :
    readMessage (newline :: rest) ⟨message, c, messageLen⟩ =
      .ok (⟨message, newline.toInt8, messageLen⟩, rest) := by
  rw [readMessage, if_pos room, narrowed_byte]
  dsimp only
  rw [if_neg (fun both => both.1 rfl)]
  rfl

/-- So does the byte that narrows to `EOF`. -/
theorem readMessage_eof (rest : List UInt8) (room : messageLen < msgMaxLen - 1) :
    readMessage (255 :: rest) ⟨message, c, messageLen⟩ =
      .ok (⟨message, (255 : UInt8).toInt8, messageLen⟩, rest) := by
  rw [readMessage, if_pos room, narrowed_byte]
  dsimp only
  rw [if_neg (fun both => both.2 ((toInt8_eof 255).mpr rfl))]
  rfl

/-- A full buffer ends the loop before another character is read. -/
theorem readMessage_full (stdin : List UInt8) :
    readMessage stdin ⟨message, c, msgMaxLen - 1⟩ =
      .ok (⟨message, c, msgMaxLen - 1⟩, stdin) := by
  cases stdin with
  | nil =>
      rw [readMessage, if_neg (Nat.lt_irrefl _)]
      rfl
  | cons char stdin =>
      rw [readMessage, if_neg (Nat.lt_irrefl _)]
      rfl

/-! ### The outer loop -/

/-- The end of the string goes behind the characters. -/
theorem memcpy_end {bytes : List UInt8} (holds : message.bytes.take bytes.length = bytes)
    (short : bytes.length ≤ msgMaxLen - 1) :
    ∃ ended rest, orUndefined (message.memcpy bytes.length [0]) = .ok ended ∧
      ended.bytes = bytes ++ 0 :: rest := by
  have fits : bytes.length + [(0 : UInt8)].length ≤ msgMaxLen := by
    have positive : 0 < msgMaxLen := by decide
    change bytes.length + 1 ≤ msgMaxLen
    omega
  obtain ⟨ended, copied, stored⟩ := message.memcpy_eq_some fits
  rw [holds] at stored
  refine ⟨ended, _, ?_, stored⟩
  rw [copied]
  rfl

/-- The packet of a message is the packet of the line in front of its end. -/
theorem messagePacket_line (line : Line) {rest : List UInt8}
    (stored : message.bytes = line.bytes ++ 0 :: rest) :
    messagePacket message = .ok line.packet := by
  have positive : 0 < msgMaxLen := by decide
  have short := line.short
  obtain ⟨coded, wroteCode, holdsCode⟩ := (Packet.empty_holds packetLen).write
    [protocolCodeMessageReceive] (by decide)
  obtain ⟨filled, wroteText, holdsText⟩ := holdsCode.write line.text.bytes (by
    change 1 + line.bytes.length ≤ 1 + msgMaxLen
    omega)
  have found : message.string? = some line.text := CharArray.string?_eq_some stored
  unfold messagePacket
  rw [found]
  simp only [orUndefined, wroteCode, wroteText, bind, Except.bind]
  change Except.ok filled.array.bytes = _
  rw [holdsText.bytes]
  have padding : packetLen - ([] ++ [protocolCodeMessageReceive] ++ line.text.bytes).length =
      msgMaxLen - line.bytes.length := by
    unfold packetLen
    rw [List.nil_append, List.length_append, List.length_singleton, Nat.add_sub_add_left]
    rfl
  rw [padding]
  rfl

variable {stdin rest : List UInt8} {fuel : Nat} {sent : List (List UInt8)}

/-- A turn that reads a line and not `EOF` sends the line's packet. -/
theorem publisherLoop_sends (line : Line) {message' : CharArray msgMaxLen} {c' : Int8}
    (read : readMessage stdin ⟨message, c, 0⟩ = .ok (⟨message', c', line.bytes.length⟩, rest))
    (holds : message'.bytes.take line.bytes.length = line.bytes) (more : c'.toInt ≠ eof) :
    ∃ ended, publisherLoop .working (fuel + 1) message c stdin sent =
      publisherLoop .working fuel ended c' rest (sent ++ [line.packet]) := by
  obtain ⟨ended, behind, copied, stored⟩ := memcpy_end holds line.short
  refine ⟨ended, ?_⟩
  rw [publisherLoop, read]
  change (orUndefined (message'.memcpy line.bytes.length [0])).bind _ = _
  rw [copied]
  change (if c'.toInt = eof then _ else (messagePacket ended).bind _) = _
  rw [if_neg more, messagePacket_line line stored]
  rfl

/-- A turn that reads `EOF` is the last one. -/
theorem publisherLoop_stops {bytes : List UInt8} {message' : CharArray msgMaxLen} {c' : Int8}
    (read : readMessage stdin ⟨message, c, 0⟩ = .ok (⟨message', c', bytes.length⟩, rest))
    (holds : message'.bytes.take bytes.length = bytes) (short : bytes.length ≤ msgMaxLen - 1)
    (last : c'.toInt = eof) :
    publisherLoop .working (fuel + 1) message c stdin sent = .ok (0, sent) := by
  obtain ⟨ended, behind, copied, _⟩ := memcpy_end holds short
  rw [publisherLoop, read]
  change (orUndefined (message'.memcpy bytes.length [0])).bind _ = _
  rw [copied]
  change (if c'.toInt = eof then _ else _) = _
  rw [if_pos last]
  rfl

theorem newline_more : newline.toInt8.toInt ≠ eof := by decide

/-- A line with room behind it is sent. -/
theorem publisherLoop_line (line : Line) (noEof : 255 ∉ line.bytes)
    (room : line.bytes.length < msgMaxLen - 1) (rest : List UInt8) :
    ∃ ended c', publisherLoop .working (fuel + 1) message c (line.bytes ++ newline :: rest) sent =
      publisherLoop .working fuel ended c' rest (sent ++ [line.packet]) := by
  obtain ⟨stored, last, read, holds, _⟩ := @readMessage_stores message c 0 line.bytes
    (newline :: rest) line.noNewline noEof (by omega)
  rw [Nat.zero_add] at read holds
  rw [readMessage_newline rest room] at read
  obtain ⟨ended, turned⟩ := publisherLoop_sends line read holds newline_more
  exact ⟨ended, _, turned⟩

theorem nil_noNul : (0 : UInt8) ∉ ([] : List UInt8) := List.not_mem_nil

/-- The empty line -/
def Line.empty : Line where
  bytes := []
  noNewline := List.not_mem_nil
  noNul := nil_noNul
  short := Nat.zero_le _

/-- A line that fills the buffer is sent, and its newline is taken for a line of its own. -/
theorem publisherLoop_full (line : Line) (noEof : 255 ∉ line.bytes)
    (full : line.bytes.length = msgMaxLen - 1) (rest : List UInt8) :
    ∃ ended c', publisherLoop .working (fuel + 2) message c (line.bytes ++ newline :: rest) sent =
      publisherLoop .working fuel ended c' rest (sent ++ [line.packet] ++ [Line.empty.packet]) := by
  obtain ⟨stored, last, read, holds, more⟩ := @readMessage_stores message c 0 line.bytes
    (newline :: rest) line.noNewline noEof (by omega)
  have nonempty : line.bytes ≠ [] := by
    intro none
    rw [none] at full
    exact absurd full (by decide)
  rw [Nat.zero_add] at read holds
  rw [full, readMessage_full, ← full] at read
  obtain ⟨first, turned⟩ := publisherLoop_sends line read holds (more (Or.inr nonempty))
  obtain ⟨ended, c', again⟩ := publisherLoop_line Line.empty List.not_mem_nil (by decide) rest
  exact ⟨ended, c', turned.trans again⟩

/-- A line with the byte that narrows to `EOF` ends the session. -/
theorem publisherLoop_eof (line : Line) (hasEof : 255 ∈ line.bytes) (rest : List UInt8) :
    publisherLoop .working (fuel + 1) message c (line.bytes ++ newline :: rest) sent =
      .ok (0, sent) := by
  obtain ⟨front, back, split, noEof⟩ := List.eq_append_cons_of_mem hasEof
  have short := line.short
  have noNewline := line.noNewline
  rw [split] at short noNewline
  rw [List.length_append, List.length_cons] at short
  obtain ⟨stored, last, read, holds, _⟩ := @readMessage_stores message c 0 front
    (255 :: (back ++ newline :: rest)) (fun member => noNewline (List.mem_append_left _ member)) noEof
    (by omega)
  rw [Nat.zero_add] at read holds
  rw [readMessage_eof _ (by omega)] at read
  rw [split, List.append_assoc, List.cons_append]
  exact publisherLoop_stops read holds (by omega) ((toInt8_eof 255).mpr rfl)

/-- What is sent for the lines -/
def published : List Line → List (List UInt8)
  | [] => []
  | line :: lines =>
      if 255 ∈ line.bytes then
        []
      else if line.bytes.length = msgMaxLen - 1 then
        line.packet :: Line.empty.packet :: published lines
      else
        line.packet :: published lines

/-- Every byte of the input is enough for the turns it takes. -/
theorem publisherLoop_published (lines : List Line) (enough : (typed lines).length < fuel) :
    publisherLoop .working fuel message c (typed lines) sent = .ok (0, sent ++ published lines) := by
  induction lines generalizing fuel message c sent with
  | nil =>
      obtain ⟨fuel, rfl⟩ : ∃ less, fuel = less + 1 := ⟨fuel - 1, by omega⟩
      change publisherLoop .working (fuel + 1) message c [] sent = .ok (0, sent ++ [])
      rw [List.append_nil]
      have read : readMessage [] ⟨message, c, 0⟩ =
          .ok (⟨message, narrowed eof, ([] : List UInt8).length⟩, []) := rfl
      exact publisherLoop_stops read rfl (Nat.zero_le _) narrowed_eof
  | cons line lines inductionHypothesis =>
      have input : typed (line :: lines) = line.bytes ++ newline :: typed lines := by
        unfold typed
        rw [List.flatMap_cons, List.append_assoc]
        rfl
      rw [input, List.length_append, List.length_cons] at enough
      rw [input, published]
      by_cases hasEof : 255 ∈ line.bytes
      · obtain ⟨fuel, rfl⟩ : ∃ less, fuel = less + 1 := ⟨fuel - 1, by omega⟩
        rw [if_pos hasEof, List.append_nil]
        exact publisherLoop_eof line hasEof _
      · rw [if_neg hasEof]
        by_cases full : line.bytes.length = msgMaxLen - 1
        · have positive : 0 < msgMaxLen - 1 := by decide
          obtain ⟨fuel, rfl⟩ : ∃ less, fuel = less + 2 := ⟨fuel - 2, by omega⟩
          obtain ⟨ended, c', turned⟩ := publisherLoop_full line hasEof full (typed lines)
          rw [if_pos full, turned, inductionHypothesis (by omega)]
          simp only [List.append_assoc, List.cons_append, List.nil_append]
        · obtain ⟨fuel, rfl⟩ : ∃ less, fuel = less + 1 := ⟨fuel - 1, by omega⟩
          have room : line.bytes.length < msgMaxLen - 1 := Nat.lt_of_le_of_ne line.short full
          obtain ⟨ended, c', turned⟩ := publisherLoop_line line hasEof room (typed lines)
          rw [if_neg full, turned, inductionHypothesis (by omega)]
          simp only [List.append_assoc, List.singleton_append]

theorem publisherWriteMessages_published (lines : List Line) (extra : Nat) :
    publisherWriteMessages .working ((typed lines).length + 1 + extra) (typed lines) =
      .ok (0, published lines) := by
  have small : ¬ packetLen > pipeBufferMaxLen := by decide
  unfold publisherWriteMessages
  rw [if_neg small, if_neg (fun closed => closed rfl)]
  exact publisherLoop_published lines (by omega)

/-! ### Packets and lines -/

theorem Line.packet_empty {line : Line} (same : line.packet = Line.empty.packet) :
    line.bytes = [] := by
  unfold Line.packet at same
  rw [List.cons.injEq] at same
  cases bytes : line.bytes with
  | nil => rfl
  | cons char rest =>
      rw [bytes] at same
      have zero : char ∈ List.replicate msgMaxLen (0 : UInt8) := by
        have member : char ∈ Line.empty.bytes ++
            List.replicate (msgMaxLen - Line.empty.bytes.length) 0 := by
          rw [← same.2]
          exact List.mem_cons_self
        exact member
      have inside : char ∈ line.bytes := by
        rw [bytes]
        exact List.mem_cons_self
      rw [List.eq_of_mem_replicate zero] at inside
      exact (line.noNul inside).elim

/-- An empty packet too many is never made up for. -/
theorem published_extra (lines : List Line) :
    Line.empty.packet :: published lines ≠ lines.map Line.packet := by
  induction lines with
  | nil => exact List.cons_ne_nil _ _
  | cons line lines inductionHypothesis =>
      intro same
      rw [List.map_cons, List.cons.injEq] at same
      have none := Line.packet_empty same.1.symm
      have noEof : 255 ∉ line.bytes := by
        rw [none]
        exact List.not_mem_nil
      have room : line.bytes.length ≠ msgMaxLen - 1 := by
        rw [none]
        decide
      rw [published, if_neg noEof, if_neg room, ← same.1] at same
      exact inductionHypothesis same.2

/-- The packets are those of the lines exactly when every line is plain. -/
theorem published_eq_iff (lines : List Line) :
    published lines = lines.map Line.packet ↔ ∀ line ∈ lines, line.Plain := by
  induction lines with
  | nil => exact ⟨fun _ line member => absurd member List.not_mem_nil, fun _ => rfl⟩
  | cons line lines inductionHypothesis =>
      rw [List.forall_mem_cons, ← inductionHypothesis, published, List.map_cons]
      by_cases hasEof : 255 ∈ line.bytes
      · rw [if_pos hasEof]
        constructor
        · intro same
          cases same
        · intro plain
          exact (plain.1.1 hasEof).elim
      · rw [if_neg hasEof]
        by_cases full : line.bytes.length = msgMaxLen - 1
        · rw [if_pos full]
          constructor
          · intro same
            rw [List.cons.injEq] at same
            exact (published_extra lines same.2).elim
          · intro plain
            exact (plain.1.2 full).elim
        · rw [if_neg full, List.cons.injEq]
          constructor
          · intro same
            exact ⟨⟨hasEof, full⟩, same.2⟩
          · intro plain
            exact ⟨rfl, plain.2⟩

/-- The field of the message in the packet of a line -/
def Line.field (line : Line) : CharArray msgMaxLen where
  bytes := line.bytes ++ List.replicate (msgMaxLen - line.bytes.length) 0
  length_eq := by
    have short := line.short
    rw [List.length_append, List.length_replicate]
    omega

theorem Line.field_string (line : Line) : line.field.string? = some line.text := by
  have short := line.short
  have positive : 0 < msgMaxLen := by decide
  obtain ⟨more, room⟩ : ∃ more, msgMaxLen - line.bytes.length = more + 1 :=
    ⟨msgMaxLen - line.bytes.length - 1, by omega⟩
  have stored : line.field.bytes = line.text.bytes ++ 0 :: List.replicate more 0 := by
    change line.bytes ++ List.replicate (msgMaxLen - line.bytes.length) 0 = _
    rw [room, List.replicate_succ]
    rfl
  exact CharArray.string?_eq_some stored

theorem packets_length (lines : List Line) :
    lines.length ≤ (lines.map Line.packet).flatten.length := by
  induction lines with
  | nil => exact Nat.zero_le _
  | cons line lines inductionHypothesis =>
      have head : 1 ≤ line.packet.length := Nat.le_add_left 1 _
      rw [List.map_cons, List.flatten_cons, List.length_append, List.length_cons]
      omega

/-- The broker receives the messages of the packets it is sent. -/
theorem receiveMessages_packets (lines : List Line) (enough : lines.length ≤ fuel) :
    receiveMessages fuel (lines.map Line.packet).flatten = lines.map Line.field := by
  induction lines generalizing fuel with
  | nil =>
      cases fuel with
      | zero => rfl
      | succ fuel => rfl
  | cons line lines inductionHypothesis =>
      obtain ⟨fuel, rfl⟩ : ∃ less, fuel = less + 1 := by
        rw [List.length_cons] at enough
        exact ⟨fuel - 1, by omega⟩
      have split : ((line :: lines).map Line.packet).flatten =
          [protocolCodeMessageReceive] ++
            (line.field.bytes ++ (lines.map Line.packet).flatten) := rfl
      rw [split, receiveMessages]
      have code : pipeRead ([protocolCodeMessageReceive] ++
          (line.field.bytes ++ (lines.map Line.packet).flatten)) 1 = (((1 : Nat) : Int),
            [protocolCodeMessageReceive],
            line.field.bytes ++ (lines.map Line.packet).flatten) := pipeRead_whole rfl
      simp only [code, readArray_whole (by decide : 0 < msgMaxLen) line.field.length_eq]
      have more : lines.length ≤ fuel := Nat.le_of_succ_le_succ enough
      have read : ¬ (((1 : Nat) : Int) ≤ 0 ∨
          [protocolCodeMessageReceive].head? ≠ some protocolCodeMessageReceive) := by decide
      rw [if_neg read, List.map_cons, inductionHypothesis more]

theorem OneMessagePerLine.plain {lines : List Line} {extra : Nat}
    (holds : OneMessagePerLine ((typed lines).length + 1 + extra) lines) :
    ∀ line ∈ lines, line.Plain := by
  obtain ⟨sent, returned, packets, _⟩ := holds
  rw [publisherWriteMessages_published, Except.ok.injEq, Prod.mk.injEq] at returned
  rw [← returned.2] at packets
  exact (published_eq_iff lines).mp packets

/-- Every line typed is sent in one packet, and nothing else is sent, exactly when no line
has the byte 255 and none fills the buffer. -/
theorem one_message_per_line (lines : List Line) (extra : Nat) :
    OneMessagePerLine ((typed lines).length + 1 + extra) lines ↔
      ∀ line ∈ lines, 255 ∉ line.bytes ∧ line.bytes.length ≠ 1023 := by
  constructor
  · intro holds
    exact holds.plain
  · intro plain
    have packets := (published_eq_iff lines).mpr plain
    refine ⟨published lines, publisherWriteMessages_published lines extra, packets, ?_⟩
    rw [packets, receiveMessages_packets lines (packets_length lines), List.map_map]
    apply List.map_congr_left
    intro line _
    exact line.field_string

/-- A line with the byte 255 -/
def eofLine : Line where
  bytes := [255]
  noNewline := by decide
  noNul := by decide
  short := by decide

/-- A line that fills the buffer -/
def fullLine : Line where
  bytes := List.replicate 1023 97
  noNewline := by
    intro member
    exact absurd (List.eq_of_mem_replicate member) (by decide)
  noNul := by
    intro member
    exact absurd (List.eq_of_mem_replicate member) (by decide)
  short := by
    rw [List.length_replicate]
    exact Nat.le_refl 1023

/-- The line with the byte 255 is not sent, and one more message follows the full line. -/
theorem lines_lost_and_added :
    (∀ extra, ¬ OneMessagePerLine ((typed [eofLine]).length + 1 + extra) [eofLine]) ∧
      ∀ extra, ¬ OneMessagePerLine ((typed [fullLine]).length + 1 + extra) [fullLine] := by
  constructor
  · intro extra holds
    exact (holds.plain eofLine (List.mem_singleton_self _)).1 (List.mem_singleton_self _)
  · intro extra holds
    exact (holds.plain fullLine (List.mem_singleton_self _)).2 List.length_replicate

end TecnicoFS.Publisher
