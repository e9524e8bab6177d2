/-
`publisher_write_messages` on any standard input and any failures of the session pipe.

The publisher takes its input up to the first byte that narrows to `EOF`.  It sends a line
that does not fit in a message in pieces, and it does not send what stands behind the last
newline unless that fills a message.
-/

import TecnicoFS.Library.TextPieces
import TecnicoFS.Publisher.Messages

set_option autoImplicit false

namespace TecnicoFS.Publisher

open FileSystem Protocol Mbroker TextPieces

/-! ### The messages of an input -/

/-- The packet of `PROTOCOL_CODE_MESSAGE_RECEIVE` with the message -/
def packetOf (message : Message) : List UInt8 := protocolCodeMessageReceive :: message.bytes

/-- The message of a piece, which ends at the first NUL of the piece -/
def pieceMessage (piece : List UInt8) : Message where
  bytes := (piece.takeWhile (fun char => char != 0) ++ List.replicate msgMaxLen 0).take msgMaxLen
  length_eq := by
    rw [List.length_take, List.length_append, List.length_replicate]
    omega

/-- The input up to the byte that narrows to `EOF` -/
def entered (stdin : List UInt8) : List UInt8 := stdin.takeWhile (fun char => char != 255)

/-- The messages in which the input is sent -/
def publishedMessages (stdin : List UInt8) : List Message :=
  (textPieces (msgMaxLen - 1) newline (entered stdin)).map pieceMessage

/-- What is sent of the packets when the writes fail in this way, and what is returned -/
def delivered (writes : Nat → Bool) :
    List (List UInt8) → List (List UInt8) → Int × List (List UInt8)
  | sent, [] => (0, sent)
  | sent, packet :: packets =>
      if writes sent.length then
        delivered writes (sent ++ [packet]) packets
      else
        (-1, sent)

/-! ### The input -/

variable {piece rest stdin : List UInt8}

theorem entered_append (noEof : 255 ∉ piece) : entered (piece ++ rest) = piece ++ entered rest := by
  unfold entered
  apply List.takeWhile_append_of_pos
  intro char member
  have different : char ≠ 255 := by
    intro same
    rw [same] at member
    exact noEof member
  simp [different]

theorem entered_eof (rest : List UInt8) : entered (255 :: rest) = [] := rfl

theorem publishedMessages_full (noNewline : newline ∉ piece) (noEof : 255 ∉ piece)
    (full : piece.length = msgMaxLen - 1) :
    publishedMessages (piece ++ rest) = pieceMessage piece :: publishedMessages rest := by
  unfold publishedMessages
  rw [entered_append noEof, textPieces_full (by decide) noNewline full]
  rfl

theorem publishedMessages_line (noNewline : newline ∉ piece) (noEof : 255 ∉ piece)
    (short : piece.length < msgMaxLen - 1) :
    publishedMessages (piece ++ newline :: rest) =
      pieceMessage piece :: publishedMessages rest := by
  have end_entered : entered (newline :: rest) = newline :: entered rest := rfl
  unfold publishedMessages
  rw [entered_append noEof, end_entered, textPieces_line noNewline short]
  rfl

theorem publishedMessages_last (noNewline : newline ∉ piece) (noEof : 255 ∉ piece)
    (short : piece.length < msgMaxLen - 1) (ends : entered rest = []) :
    publishedMessages (piece ++ rest) = [] := by
  unfold publishedMessages
  rw [entered_append noEof, ends, List.append_nil, textPieces_rest noNewline short]
  rfl

/-- The inner loop does not go beyond the character. -/
def EndsReading (char : UInt8) : Prop := char = newline ∨ char = 255

instance (char : UInt8) : Decidable (EndsReading char) := inferInstanceAs (Decidable (_ ∨ _))

/-- The input starts with a message that fills the buffer, or with a shorter one and what ends
it. -/
theorem input_cases (stdin : List UInt8) :
    ∃ piece rest, stdin = piece ++ rest ∧ newline ∉ piece ∧ 255 ∉ piece ∧
      (piece.length = msgMaxLen - 1 ∨
        piece.length < msgMaxLen - 1 ∧
          (rest = [] ∨ ∃ char behind, rest = char :: behind ∧ EndsReading char)) := by
  have split := List.takeWhile_append_dropWhile (p := fun char => !decide (EndsReading char))
    (l := stdin)
  have plain : ∀ char ∈ stdin.takeWhile (fun char => !decide (EndsReading char)),
      ¬ EndsReading char := by
    intro char member
    have passes := List.mem_takeWhile_imp member
    simpa using passes
  rcases short_or_full (msgMaxLen - 1)
      (stdin.takeWhile (fun char => !decide (EndsReading char))) with
    short | ⟨piece, more, isPiece, full⟩
  · refine ⟨_, _, split.symm, ?_, ?_, Or.inr ⟨short, ?_⟩⟩
    · intro member
      exact plain _ member (Or.inl rfl)
    · intro member
      exact plain _ member (Or.inr rfl)
    · cases dropped : stdin.dropWhile (fun char => !decide (EndsReading char)) with
      | nil => exact Or.inl rfl
      | cons char behind =>
          have stops := List.head?_dropWhile_not (fun char => !decide (EndsReading char)) stdin
          rw [dropped] at stops
          simp at stops
          exact Or.inr ⟨char, behind, rfl, stops⟩
  · refine ⟨piece, more ++ stdin.dropWhile (fun char => !decide (EndsReading char)), ?_, ?_, ?_,
      Or.inl full⟩
    · rw [← List.append_assoc, ← isPiece, split]
    · intro member
      rw [isPiece] at plain
      exact plain _ (List.mem_append_left _ member) (Or.inl rfl)
    · intro member
      rw [isPiece] at plain
      exact plain _ (List.mem_append_left _ member) (Or.inr rfl)

/-! ### The packet of a piece -/

/-- The line a piece is sent as -/
def pieceLine (piece : List UInt8) (noNewline : newline ∉ piece)
    (short : piece.length ≤ msgMaxLen - 1) : Line where
  bytes := piece.takeWhile (fun char => char != 0)
  noNewline := by
    intro member
    exact noNewline (List.takeWhile_subset _ member)
  noNul := by
    intro member
    have passes := List.mem_takeWhile_imp member
    simp at passes
  short := Nat.le_trans (List.takeWhile_sublist _).length_le short

/-- A string that stands behind a piece ends at the first NUL of the piece. -/
theorem piece_stored (piece rest : List UInt8) :
    ∃ behind, piece ++ 0 :: rest = piece.takeWhile (fun char => char != 0) ++ 0 :: behind := by
  have split := List.takeWhile_append_dropWhile (p := fun char : UInt8 => char != 0) (l := piece)
  cases dropped : piece.dropWhile (fun char => char != 0) with
  | nil =>
      rw [dropped, List.append_nil] at split
      exact ⟨rest, by rw [split]⟩
  | cons char more =>
      have stops := List.head?_dropWhile_not (fun char : UInt8 => char != 0) piece
      rw [dropped] at split stops
      simp at stops
      refine ⟨more ++ 0 :: rest, ?_⟩
      rw [stops] at split
      rw [← List.cons_append, ← List.append_assoc, split]

/-- The message holds the text of the piece and zeros. -/
theorem pieceMessage_bytes (short : piece.length ≤ msgMaxLen - 1) :
    (pieceMessage piece).bytes = piece.takeWhile (fun char => char != 0) ++
      List.replicate (msgMaxLen - (piece.takeWhile (fun char => char != 0)).length) 0 := by
  have inside := (List.takeWhile_sublist (fun char : UInt8 => char != 0) (l := piece)).length_le
  change (_ ++ List.replicate msgMaxLen 0).take msgMaxLen = _
  rw [List.take_append, List.take_of_length_le (by omega), List.take_replicate]
  congr 2
  omega

/-- The packet of a buffer that holds a piece and its end -/
theorem messagePacket_piece {message : CharArray msgMaxLen} (noNewline : newline ∉ piece)
    (short : piece.length ≤ msgMaxLen - 1) (stored : message.bytes = piece ++ 0 :: rest) :
    messagePacket message = .ok (packetOf (pieceMessage piece)) := by
  obtain ⟨behind, text⟩ := piece_stored piece rest
  rw [text] at stored
  rw [messagePacket_line (pieceLine piece noNewline short) stored]
  unfold packetOf
  rw [pieceMessage_bytes short]
  rfl

/-! ### The loop -/

variable {pipe : SessionPipe} {message : CharArray msgMaxLen} {c : Int8} {fuel : Nat}
  {sent : List (List UInt8)}

/-- A turn that reads a piece and not `EOF` sends the packet of the piece. -/
theorem publisherLoop_turn {message' : CharArray msgMaxLen} {c' : Int8}
    (read : readMessage stdin ⟨message, c, 0⟩ = .ok (⟨message', c', piece.length⟩, rest))
    (holds : message'.bytes.take piece.length = piece) (noNewline : newline ∉ piece)
    (short : piece.length ≤ msgMaxLen - 1) (more : c'.toInt ≠ eof) :
    ∃ ended, publisherLoop pipe (fuel + 1) message c stdin sent =
      if pipe.writes sent.length then
        publisherLoop pipe fuel ended c' rest (sent ++ [packetOf (pieceMessage piece)])
      else
        .ok (-1, sent) := by
  obtain ⟨ended, behind, copied, stored⟩ := memcpy_end holds short
  refine ⟨ended, ?_⟩
  rw [publisherLoop, read]
  change (orUndefined (message'.memcpy piece.length [0])).bind _ = _
  rw [copied]
  change (if c'.toInt = eof then _ else (messagePacket ended).bind _) = _
  rw [if_neg more, messagePacket_piece noNewline short stored]
  rfl

/-- A turn that reads `EOF` is the last one, whatever the pipe does. -/
theorem publisherLoop_last {message' : CharArray msgMaxLen} {c' : Int8}
    (read : readMessage stdin ⟨message, c, 0⟩ = .ok (⟨message', c', piece.length⟩, rest))
    (holds : message'.bytes.take piece.length = piece) (short : piece.length ≤ msgMaxLen - 1)
    (last : c'.toInt = eof) :
    publisherLoop pipe (fuel + 1) message c stdin sent = .ok (0, sent) := by
  obtain ⟨ended, behind, copied, _⟩ := memcpy_end holds short
  rw [publisherLoop, read]
  change (orUndefined (message'.memcpy piece.length [0])).bind _ = _
  rw [copied]
  change (if c'.toInt = eof then _ else _) = _
  rw [if_pos last]
  rfl

/-- One turn on each kind of input: the piece is sent, or the input ends. -/
theorem publisherLoop_step (stdin : List UInt8) :
    (publishedMessages stdin = [] ∧
        publisherLoop pipe (fuel + 1) message c stdin sent = .ok (0, sent)) ∨
      ∃ first rest ended c', publishedMessages stdin = first :: publishedMessages rest ∧
        rest.length < stdin.length ∧
        publisherLoop pipe (fuel + 1) message c stdin sent =
          if pipe.writes sent.length then
            publisherLoop pipe fuel ended c' rest (sent ++ [packetOf first])
          else
            .ok (-1, sent) := by
  obtain ⟨piece, rest, rfl, noNewline, noEof, filled⟩ := input_cases stdin
  have room : 0 + piece.length ≤ msgMaxLen - 1 := by
    rcases filled with full | ⟨short, _⟩ <;> omega
  obtain ⟨stored, last, read, holds, more⟩ :=
    @readMessage_stores message c 0 piece rest noNewline noEof room
  rw [Nat.zero_add] at read holds room
  rcases filled with full | ⟨short, ends⟩
  · right
    rw [full, readMessage_full, ← full] at read
    have nonempty : piece ≠ [] := by
      intro none
      rw [none] at full
      exact absurd full (by decide)
    obtain ⟨ended, turned⟩ := publisherLoop_turn read holds noNewline room (more (Or.inr nonempty))
    refine ⟨_, rest, ended, last, publishedMessages_full noNewline noEof full, ?_, turned⟩
    have positive : 0 < piece.length := List.length_pos_of_ne_nil nonempty
    rw [List.length_append]
    omega
  · rcases ends with rfl | ⟨char, behind, rfl, rfl | rfl⟩
    · left
      have ended : readMessage [] ⟨stored, last, piece.length⟩ =
          .ok (⟨stored, narrowed eof, piece.length⟩, []) := by
        rw [readMessage, if_pos short]
        rfl
      rw [ended] at read
      exact ⟨publishedMessages_last noNewline noEof short rfl,
        publisherLoop_last read holds room narrowed_eof⟩
    · right
      rw [readMessage_newline behind short] at read
      obtain ⟨ended, turned⟩ := publisherLoop_turn read holds noNewline room newline_more
      refine ⟨_, behind, ended, _, publishedMessages_line noNewline noEof short, ?_, turned⟩
      rw [List.length_append, List.length_cons]
      omega
    · left
      rw [readMessage_eof behind short] at read
      exact ⟨publishedMessages_last noNewline noEof short (entered_eof behind),
        publisherLoop_last read holds room ((toInt8_eof 255).mpr rfl)⟩

/-- Every byte of the input is enough for the turns it takes. -/
theorem publisherLoop_delivered (enough : stdin.length < fuel) :
    publisherLoop pipe fuel message c stdin sent =
      .ok (delivered pipe.writes sent ((publishedMessages stdin).map packetOf)) := by
  induction fuel generalizing stdin message c sent with
  | zero => exact absurd enough (Nat.not_lt_zero _)
  | succ fuel inductionHypothesis =>
      rcases @publisherLoop_step pipe message c fuel sent stdin with
        ⟨nothing, ended⟩ | ⟨first, rest, ended, c', messages, shorter, turned⟩
      · rw [nothing, ended]
        rfl
      · rw [messages, turned, List.map_cons, delivered]
        by_cases writes : pipe.writes sent.length
        · rw [if_pos writes, if_pos writes]
          exact inductionHypothesis (by omega)
        · rw [if_neg writes, if_neg writes]

/-! ### What is sent -/

/-- The packets that were sent are the first ones, and the loop stops at the first write that
fails. -/
structure SendsFirst (writes : Nat → Bool) (packets : List (List UInt8)) (code : Int)
    (sent : List (List UInt8)) : Prop where
  inOrder : sent <+: packets
  written : ∀ place, place < sent.length → writes place = true
  complete : code = 0 ↔ sent = packets
  stops : code ≠ 0 → code = -1 ∧ writes sent.length = false

theorem delivered_first {writes : Nat → Bool} {sent packets : List (List UInt8)}
    (written : ∀ place, place < sent.length → writes place = true) :
    SendsFirst writes (sent ++ packets) (delivered writes sent packets).1
      (delivered writes sent packets).2 := by
  induction packets generalizing sent with
  | nil =>
      rw [List.append_nil]
      refine ⟨List.prefix_rfl, written, ⟨fun _ => rfl, fun _ => rfl⟩, ?_⟩
      intro failed
      exact absurd rfl failed
  | cons packet packets inductionHypothesis =>
      rw [delivered]
      by_cases writes' : writes sent.length = true
      · rw [if_pos writes', List.append_cons]
        apply inductionHypothesis
        intro place inside
        rw [List.length_append] at inside
        rcases Nat.lt_succ_iff_lt_or_eq.mp inside with before | last
        · exact written place before
        · rw [last]
          exact writes'
      · rw [if_neg writes']
        refine ⟨List.prefix_append _ _, written, ?_, ?_⟩
        · constructor
          · intro impossible
            cases impossible
          · intro same
            change sent = sent ++ packet :: packets at same
            have longer := congrArg List.length same
            rw [List.length_append, List.length_cons] at longer
            omega
        · intro _
          exact ⟨rfl, Bool.eq_false_iff.mpr writes'⟩

/-- The text of a message, in front of its first NUL -/
def text (message : Message) : List UInt8 := message.bytes.takeWhile (fun char => char != 0)

theorem text_pieceMessage (noNul : 0 ∉ piece) (short : piece.length ≤ msgMaxLen - 1) :
    text (pieceMessage piece) = piece := by
  have plain : ∀ char ∈ piece, (char != 0) = true := by
    intro char member
    have different : char ≠ 0 := by
      intro same
      rw [same] at member
      exact noNul member
    simp [different]
  have all : piece.takeWhile (fun char => char != 0) = piece := by
    rw [List.takeWhile_eq_self_iff]
    exact plain
  have room : msgMaxLen - piece.length = msgMaxLen - piece.length - 1 + 1 := by
    unfold msgMaxLen at short ⊢
    omega
  unfold text
  rw [pieceMessage_bytes short, all, room, List.replicate_succ,
    List.takeWhile_append_of_pos plain]
  simp

theorem texts_pieceMessage {pieces : List (List UInt8)}
    (plain : ∀ piece ∈ pieces, 0 ∉ piece ∧ piece.length ≤ msgMaxLen - 1) :
    (pieces.map pieceMessage).flatMap text = pieces.flatten := by
  induction pieces with
  | nil => rfl
  | cons piece pieces inductionHypothesis =>
      rw [List.forall_mem_cons] at plain
      rw [List.map_cons, List.flatMap_cons, inductionHypothesis plain.2,
        text_pieceMessage plain.1.1 plain.1.2]
      rfl

/-- The messages, and less than a message behind the last newline, hold the input without its
newlines. -/
theorem publishedMessages_text (noNul : 0 ∉ entered stdin) :
    ∃ lost, lost.length < msgMaxLen - 1 ∧ lost <:+ entered stdin ∧ newline ∉ lost ∧
      (publishedMessages stdin).flatMap text ++ lost =
        (entered stdin).filter (fun char => !decide (char = newline)) := by
  have positive : 0 < msgMaxLen - 1 := by decide
  have whole := @textPieces_flatten _ (msgMaxLen - 1) _ newline positive (entered stdin)
  obtain ⟨noNewline, atEnd⟩ := @splitLines_rest _ _ newline (entered stdin)
  have inRest := List.drop_suffix ((msgMaxLen - 1) *
    ((splitLines newline (entered stdin)).2.length / (msgMaxLen - 1)))
    (splitLines newline (entered stdin)).2
  refine ⟨lastPiece (msgMaxLen - 1) (splitLines newline (entered stdin)).2,
    lastPiece_length positive _, inRest.trans atEnd, ?_, ?_⟩
  · intro member
    exact noNewline (inRest.subset member)
  · rw [← whole]
    congr 1
    apply texts_pieceMessage
    intro piece member
    refine ⟨?_, textPieces_fit positive member⟩
    intro nul
    have inText : 0 ∈ (entered stdin).filter (fun char => !decide (char = newline)) := by
      rw [← whole]
      exact List.mem_append_left _ (List.mem_flatten.mpr ⟨piece, member, nul⟩)
    exact noNul (List.mem_of_mem_filter inText)

/-! ### The broker on the packets -/

theorem readArray_message (message : Message) (rest : List UInt8) :
    readArray (message.bytes ++ rest) msgMaxLen =
      some (⟨message.bytes, message.length_eq⟩, rest) :=
  readArray_whole (by decide) message.length_eq

/-- The broker receives the messages of the packets it is sent. -/
theorem receiveMessages_packetOf (messages : List Message) (enough : messages.length ≤ fuel) :
    (receiveMessages fuel (messages.map packetOf).flatten).map CharArray.bytes =
      messages.map Message.bytes := by
  induction messages generalizing fuel with
  | nil =>
      cases fuel with
      | zero => rfl
      | succ fuel => rfl
  | cons message messages inductionHypothesis =>
      obtain ⟨fuel, rfl⟩ : ∃ less, fuel = less + 1 := by
        rw [List.length_cons] at enough
        exact ⟨fuel - 1, by omega⟩
      have split : ((message :: messages).map packetOf).flatten =
          [protocolCodeMessageReceive] ++
            (message.bytes ++ (messages.map packetOf).flatten) := rfl
      have code : pipeRead ([protocolCodeMessageReceive] ++
          (message.bytes ++ (messages.map packetOf).flatten)) 1 = (((1 : Nat) : Int),
            [protocolCodeMessageReceive],
            message.bytes ++ (messages.map packetOf).flatten) := pipeRead_whole rfl
      have read : ¬ (((1 : Nat) : Int) ≤ 0 ∨
          [protocolCodeMessageReceive].head? ≠ some protocolCodeMessageReceive) := by decide
      rw [split, receiveMessages]
      simp only [code, readArray_message]
      rw [if_neg read, List.map_cons, List.map_cons,
        inductionHypothesis (Nat.le_of_succ_le_succ enough)]

theorem messages_length (messages : List Message) :
    messages.length ≤ (messages.map packetOf).flatten.length := by
  induction messages with
  | nil => exact Nat.zero_le _
  | cons message messages inductionHypothesis =>
      have head : 1 ≤ (packetOf message).length := Nat.le_add_left 1 _
      rw [List.map_cons, List.flatten_cons, List.length_append, List.length_cons]
      omega

theorem receiveMessages_first {messages : List Message} {sent : List (List UInt8)}
    (first : sent <+: messages.map packetOf) :
    (receiveMessages sent.flatten.length sent.flatten).map CharArray.bytes =
      (messages.take sent.length).map Message.bytes := by
  have taken := List.prefix_iff_eq_take.mp first
  have received := receiveMessages_packetOf (messages.take sent.length) (messages_length _)
  rw [← List.map_take] at taken
  rw [← taken] at received
  exact received

/-- On every input and whatever writes fail, the packets of the first pieces are sent and the
broker receives their messages; without NULs in the input, the messages of all pieces hold what
was entered up to its last unfinished line. -/
theorem publisher_sends_pieces (pipe : SessionPipe) (opens : pipe.opens = true)
    (stdin : List UInt8) (extra : Nat) :
    ∃ code sent, publisherWriteMessages pipe (stdin.length + 1 + extra) stdin = .ok (code, sent) ∧
      SendsFirst pipe.writes ((publishedMessages stdin).map packetOf) code sent ∧
      (receiveMessages sent.flatten.length sent.flatten).map CharArray.bytes =
        ((publishedMessages stdin).take sent.length).map Message.bytes ∧
      (0 ∉ entered stdin → ∃ lost, lost.length < msgMaxLen - 1 ∧ lost <:+ entered stdin ∧
        newline ∉ lost ∧ (publishedMessages stdin).flatMap text ++ lost =
          (entered stdin).filter (fun char => !decide (char = newline))) := by
  have small : ¬ packetLen > pipeBufferMaxLen := by decide
  have first := @delivered_first pipe.writes [] ((publishedMessages stdin).map packetOf)
    (fun place impossible => absurd impossible (Nat.not_lt_zero place))
  refine ⟨_, _, ?_, first, ?_, publishedMessages_text⟩
  · unfold publisherWriteMessages
    rw [if_neg small, if_neg (fun closed => closed opens)]
    exact publisherLoop_delivered (by omega)
  · exact receiveMessages_first first.inOrder

/-- One line, on a pipe on which every write succeeds -/
theorem publisher_sends_line :
    ∃ sent, publisherWriteMessages .working 4 [72, 105, newline] = .ok (0, sent) ∧
      sent = [packetOf (pieceMessage [72, 105])] := by
  obtain ⟨code, sent, returned, first, _⟩ :=
    publisher_sends_pieces .working rfl [72, 105, newline] 0
  have worked : code = 0 := by
    by_contra failed
    have failure : true = false := (first.stops failed).2
    cases failure
  subst worked
  exact ⟨sent, returned, first.complete.mp rfl⟩

end TecnicoFS.Publisher
