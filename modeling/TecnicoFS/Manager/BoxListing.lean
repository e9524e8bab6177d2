/-
The listing of boxes on the client's side: `manager_handle_box_listing` and the sorted
insertion it uses.

The client reads one packet after another, inserts each box into its sorted array and
prints the array when the last packet came.
-/

import TecnicoFS.Library.LittleEndian
import TecnicoFS.Library.SortedInsertion
import TecnicoFS.Protocol.Packet

set_option autoImplicit false

namespace TecnicoFS.Manager

open FileSystem Protocol SortedInsertion

def maxBoxAmount : Nat := 64

/-- The fields of `box_t` the client reads -/
structure ClientBox where
  name : CharArray boxNameMaxLen
  size : UInt64
  nPublishers : UInt64
  nSubscribers : UInt64
deriving DecidableEq

/-! ### Comparing names -/

/-- `strcmp` on strings without their ends -/
def strcmpBytes : List UInt8 → List UInt8 → Int
  | [], [] => 0
  | [], right :: _ => -right.toNat
  | left :: _, [] => left.toNat
  | left :: lefts, right :: rights =>
      if left = right then strcmpBytes lefts rights else (left.toNat : Int) - right.toNat

/-- `strcmp`; a name that does not end in its array is read past it. -/
def strcmp (left right : CharArray boxNameMaxLen) : Except Fault Int :=
  match left.string?, right.string? with
  | some left, some right => pure (strcmpBytes left.bytes right.bytes)
  | _, _ => .error .undefined

/-- A positive result is that of a string behind the other in the order of the bytes. -/
theorem strcmpBytes_pos (left right : List UInt8) (noNul : (0 : UInt8) ∉ left) :
    0 < strcmpBytes left right ↔ right < left := by
  induction left generalizing right with
  | nil =>
      cases right with
      | nil => simp [strcmpBytes]
      | cons byte rest =>
          simp [strcmpBytes]
  | cons byte rest inductionHypothesis =>
      rw [List.mem_cons, not_or] at noNul
      cases right with
      | nil =>
          have positive : byte.toNat ≠ 0 := by
            intro zero
            exact noNul.1 (UInt8.toNat_inj.mp zero).symm
          simp [strcmpBytes]
          omega
      | cons other others =>
          rw [strcmpBytes, List.cons_lt_cons_iff]
          by_cases same : byte = other
          · subst same
            simp [inductionHypothesis others noNul.2]
          · rw [if_neg same, or_iff_left (fun both => same both.1.symm), UInt8.lt_iff_toNat_lt]
            omega

/-! ### `sorted_insert` -/

/-- The loop of `sorted_insert`, with `right + 1` -/
def sortedInsertLoop (newBox : ClientBox) :
    Nat → (Nat → ClientBox) → Except Fault (Nat → ClientBox)
  | 0, boxes => pure (Function.update boxes 0 newBox)
  | right + 1, boxes => do
      if 0 < (← strcmp (boxes right).name newBox.name) then
        sortedInsertLoop newBox right (Function.update boxes (right + 1) (boxes right))
      else
        pure (Function.update boxes (right + 1) newBox)

/-- `sorted_insert` on an array of `MAX_BOX_AMOUNT` boxes -/
def sortedInsert (boxes : Nat → ClientBox) (right : Int) (newBox : ClientBox) :
    Except Fault (Nat → ClientBox) :=
  if right < -1 then
    pure boxes
  else if maxBoxAmount ≤ (right + 1).toNat then
    .error .undefined
  else
    sortedInsertLoop newBox (right + 1).toNat boxes

/-! ### The printed lines -/

/-- What `printf` prints for a box -/
structure Line where
  name : CString
  size : UInt64
  nPublishers : UInt64
  nSubscribers : UInt64
deriving DecidableEq

/-- The name of the first line stands behind that of the second in the order of the bytes. -/
def Line.above (left right : Line) : Bool := decide (right.name.bytes < left.name.bytes)

theorem Line.above_total (left right : Line) (above : left.above right = true) :
    right.above left = false := by
  unfold Line.above at above ⊢
  rw [decide_eq_true_eq] at above
  rw [decide_eq_false_iff_not]
  exact List.lt_asymm above

theorem Line.above_trans (left middle right : Line) (first : left.above middle = false)
    (second : middle.above right = false) : left.above right = false := by
  unfold Line.above at first second ⊢
  rw [decide_eq_false_iff_not, List.not_lt] at first second ⊢
  exact List.le_trans first second

/-- The box prints as the line. -/
structure ClientBox.Shows (box : ClientBox) (line : Line) : Prop where
  name : box.name.string? = some line.name
  size : box.size = line.size
  nPublishers : box.nPublishers = line.nPublishers
  nSubscribers : box.nSubscribers = line.nSubscribers

/-- The array starts with boxes that print as the lines. -/
def ArrayShows (boxes : Nat → ClientBox) (lines : List Line) : Prop :=
  ∀ index line, lines[index]? = some line → (boxes index).Shows line

theorem ArrayShows.concat {boxes : Nat → ClientBox} {lines : List Line} {box : ClientBox}
    {line : Line} (shows : ArrayShows boxes lines) (shown : box.Shows line) :
    ArrayShows (Function.update boxes lines.length box) (lines ++ [line]) := by
  intro index other found
  rw [List.getElem?_append] at found
  by_cases inside : index < lines.length
  · rw [if_pos inside] at found
    rw [Function.update_of_ne (Nat.ne_of_lt inside)]
    exact shows index other found
  · rw [if_neg inside] at found
    have last : index = lines.length := by
      have short := (List.getElem?_eq_some_iff.mp found).1
      rw [List.length_singleton] at short
      omega
    subst last
    rw [Nat.sub_self] at found
    cases found
    rw [Function.update_self]
    exact shown

theorem ArrayShows.front {boxes : Nat → ClientBox} {lines rest : List Line}
    (shows : ArrayShows boxes (lines ++ rest)) : ArrayShows boxes lines := by
  intro index line found
  apply shows index line
  rw [List.getElem?_append_left (List.getElem?_eq_some_iff.mp found).1]
  exact found

theorem strcmp_shows {left right : ClientBox} {leftLine rightLine : Line}
    (leftShows : left.Shows leftLine) (rightShows : right.Shows rightLine) :
    ∃ result, strcmp left.name right.name = .ok result ∧
      (0 < result ↔ leftLine.above rightLine = true) := by
  refine ⟨strcmpBytes leftLine.name.bytes rightLine.name.bytes, ?_, ?_⟩
  · unfold strcmp
    rw [leftShows.name, rightShows.name]
    rfl
  · rw [strcmpBytes_pos _ _ leftLine.name.noNul]
    unfold Line.above
    rw [decide_eq_true_eq]

/-- The loop inserts the new box from the right and leaves the array behind it alone. -/
theorem sortedInsertLoop_shows {boxes : Nat → ClientBox} {lines : List Line}
    {newBox : ClientBox} {line : Line} (shows : ArrayShows boxes lines)
    (shown : newBox.Shows line) :
    ∃ boxes', sortedInsertLoop newBox lines.length boxes = .ok boxes' ∧
      ArrayShows boxes' (insertRight Line.above lines line) ∧
      ∀ index, lines.length < index → boxes' index = boxes index := by
  induction lines using List.reverseRecOn generalizing boxes with
  | nil =>
      refine ⟨Function.update boxes 0 newBox, rfl, ?_, ?_⟩
      · exact ArrayShows.concat shows shown
      · intro index behind
        exact Function.update_of_ne (Nat.ne_of_gt behind) _ _
  | append_singleton lines last inductionHypothesis =>
      have lastShows : (boxes lines.length).Shows last :=
        shows lines.length last List.getElem?_concat_length
      obtain ⟨result, compared, positive⟩ := strcmp_shows lastShows shown
      rw [List.length_append, List.length_singleton, sortedInsertLoop, compared]
      simp only [bind, Except.bind]
      cases above : last.above line with
      | true =>
          rw [if_pos (positive.mpr above), insertRight_above above]
          have moved : ArrayShows
              (Function.update boxes (lines.length + 1) (boxes lines.length)) lines := by
            intro index other found
            have inside := (List.getElem?_eq_some_iff.mp found).1
            rw [Function.update_of_ne (by omega)]
            exact shows.front index other found
          obtain ⟨boxes', returned, front, behind⟩ := inductionHypothesis moved
          refine ⟨boxes', returned, ?_, ?_⟩
          · have length : (insertRight Line.above lines line).length = lines.length + 1 := by
              rw [insertRight_perm.length_eq, List.length_cons]
            have kept : boxes' (lines.length + 1) = boxes lines.length := by
              rw [behind _ (Nat.lt_succ_self _), Function.update_self]
            have whole := front.concat lastShows
            rw [length, ← kept, Function.update_eq_self] at whole
            exact whole
          · intro index beyond
            rw [behind index (by omega), Function.update_of_ne (by omega)]
      | false =>
          have notPositive : ¬ 0 < result := by
            rw [positive, above]
            exact Bool.false_ne_true
          rw [if_neg notPositive, insertRight_below above]
          refine ⟨_, rfl, ?_, ?_⟩
          · have whole := shows.concat shown
            rw [List.length_append, List.length_singleton] at whole
            exact whole
          · intro index beyond
            exact Function.update_of_ne (by omega) _ _

/-! ### `manager_handle_box_listing` -/

/-- The fields of one packet, when every read delivers and the code is right -/
def readPacket (pipe : List UInt8) : Option (UInt8 × ClientBox × List UInt8) := do
  let (code, pipe) ← readArray pipe 1
  if code.bytes ≠ [protocolCodeListAnswer] then
    none
  else
    let (last, pipe) ← readArray pipe 1
    let (name, pipe) ← readArray pipe boxNameMaxLen
    let (size, pipe) ← readArray pipe 8
    let (nPublishers, pipe) ← readArray pipe 8
    let (nSubscribers, pipe) ← readArray pipe 8
    pure
      (UInt8.ofNat (LittleEndian.decode last.bytes),
        { name := name
          size := UInt64.ofNat (LittleEndian.decode size.bytes)
          nPublishers := UInt64.ofNat (LittleEndian.decode nPublishers.bytes)
          nSubscribers := UInt64.ofNat (LittleEndian.decode nSubscribers.bytes) },
        pipe)

/-- The loop that reads the packets: the boxes with the index of the last one and the rest of
the pipe, unless it returns -1 -/
def receiveLoop : Nat → List UInt8 → (Nat → ClientBox) → Int →
    Except Fault (Option ((Nat → ClientBox) × Int × List UInt8))
  | 0, _, _, _ => .error .diverges
  | fuel + 1, pipe, boxes, size =>
      match readPacket pipe with
      | none => pure none
      | some (last, newBox, pipe) =>
          if last = 1 ∧ newBox.name.bytes.head? = some 0 then
            pure (some (boxes, size, pipe))
          else do
            let boxes ← sortedInsert boxes size newBox
            if last = 0 then
              receiveLoop fuel pipe boxes (size + 1)
            else
              pure (some (boxes, size + 1, pipe))

/-- What the client prints -/
inductive Printed where
  | box (line : Line)
  | noBoxesFound
deriving DecidableEq

/-- `printf` of a box; a name that does not end in its array is read past it. -/
def ClientBox.print (box : ClientBox) : Except Fault Printed :=
  match box.name.string? with
  | some name =>
      pure (.box
        { name := name
          size := box.size
          nPublishers := box.nPublishers
          nSubscribers := box.nSubscribers })
  | none => .error .undefined

/-- The loop that prints the boxes from an index on, with the number of boxes left -/
def printLoop (boxes : Nat → ClientBox) : Nat → Nat → Except Fault (List Printed)
  | 0, _ => pure []
  | remaining + 1, index => do
      let line ← (boxes index).print
      let lines ← printLoop boxes remaining (index + 1)
      pure (line :: lines)

def printBoxes (boxes : Nat → ClientBox) (size : Int) : Except Fault (List Printed) := do
  let lines ← printLoop boxes (size + 1).toNat 0
  pure (if size = -1 then lines ++ [.noBoxesFound] else lines)

/-- `manager_handle_box_listing` behind its request: what it prints and what it leaves in the
pipe, unless it returns -1.  The array starts with whatever is on the stack. -/
def managerHandleBoxListing (stack : Nat → ClientBox) (fuel : Nat) (pipe : List UInt8) :
    Except Fault (Option (List Printed × List UInt8)) := do
  match ← receiveLoop fuel pipe stack (-1) with
  | none => pure none
  | some (boxes, size, pipe) => do
      let printed ← printBoxes boxes size
      pure (some (printed, pipe))

/-! ### One packet -/

/-- The bytes of a packet with the bytes of its name field -/
def packetBytes (last : UInt8) (name : List UInt8) (size nPublishers nSubscribers : UInt64) :
    List UInt8 :=
  [protocolCodeListAnswer] ++ ([last] ++ (name ++ (LittleEndian.encode 8 size.toNat ++
    (LittleEndian.encode 8 nPublishers.toNat ++ LittleEndian.encode 8 nSubscribers.toNat))))

theorem readPacket_bytes {last : UInt8} {name : CharArray boxNameMaxLen}
    {size nPublishers nSubscribers : UInt64} {rest : List UInt8} :
    readPacket (packetBytes last name.bytes size nPublishers nSubscribers ++ rest) =
      some (last, ⟨name, size, nPublishers, nSubscribers⟩, rest) := by
  have one (byte : UInt8) (rest : List UInt8) :
      readArray ([byte] ++ rest) 1 = some (⟨[byte], rfl⟩, rest) :=
    readArray_whole Nat.one_pos rfl
  have thirtyTwo (rest : List UInt8) :
      readArray (name.bytes ++ rest) boxNameMaxLen = some (name, rest) :=
    readArray_whole (by decide) name.length_eq
  have eight (value : UInt64) (rest : List UInt8) :
      readArray (LittleEndian.encode 8 value.toNat ++ rest) 8 =
        some (⟨LittleEndian.encode 8 value.toNat, LittleEndian.encode_length 8 _⟩, rest) :=
    readArray_whole (by decide) (LittleEndian.encode_length 8 _)
  unfold readPacket packetBytes
  simp only [List.append_assoc, one, thirtyTwo, eight, bind, Option.bind,
    LittleEndian.decode_encode_uint64]
  rw [if_neg (fun different => different rfl)]
  have byte : UInt8.ofNat (LittleEndian.decode [last]) = last := by
    simp [LittleEndian.decode]
  rw [byte]
  rfl

/-! ### All packets -/

/-- The packet of a box -/
def ClientBox.packet (last : UInt8) (box : ClientBox) : List UInt8 :=
  packetBytes last box.name.bytes box.size box.nPublishers box.nSubscribers

/-- The packets of the boxes: the last one, and only that one, carries the flag. -/
def packets : List ClientBox → List (List UInt8)
  | [] => []
  | [box] => [box.packet 1]
  | box :: next :: rest => box.packet 0 :: packets (next :: rest)

theorem sortedInsert_shows {boxes : Nat → ClientBox} {lines : List Line} {newBox : ClientBox}
    {line : Line} (shows : ArrayShows boxes lines) (shown : newBox.Shows line)
    (room : lines.length < maxBoxAmount) :
    ∃ boxes', sortedInsert boxes ((lines.length : Int) - 1) newBox = .ok boxes' ∧
      ArrayShows boxes' (insertRight Line.above lines line) := by
  obtain ⟨boxes', returned, inserted, _⟩ := sortedInsertLoop_shows shows shown
  have index : ((lines.length : Int) - 1 + 1).toNat = lines.length := by omega
  refine ⟨boxes', ?_, inserted⟩
  unfold sortedInsert
  rw [if_neg (by omega), index, if_neg (by omega), returned]

/-- A name that is not empty does not start with NUL. -/
theorem ClientBox.Shows.nonempty {box : ClientBox} {line : Line} (shows : box.Shows line)
    (nonempty : line.name.bytes ≠ []) : box.name.bytes.head? ≠ some 0 := by
  obtain ⟨rest, stored⟩ := CharArray.string?_stored shows.name
  rw [stored]
  cases bytes : line.name.bytes with
  | nil => exact (nonempty bytes).elim
  | cons byte others =>
      intro zero
      have noNul := line.name.noNul
      rw [bytes] at noNul
      cases zero
      exact noNul List.mem_cons_self

/-- The client reads the packets up to the last one and inserts every box. -/
theorem receiveLoop_packets {items : List ClientBox} {news : List Line}
    (shown : List.Forall₂ ClientBox.Shows items news) (nonempty : items ≠ [])
    (named : ∀ line ∈ news, line.name.bytes ≠ []) {boxes : Nat → ClientBox} {lines : List Line}
    (shows : ArrayShows boxes lines) (room : lines.length + items.length ≤ maxBoxAmount)
    (rest : List UInt8) (extra : Nat) :
    ∃ boxes', receiveLoop (items.length + extra) ((packets items).flatten ++ rest) boxes
        ((lines.length : Int) - 1) =
      .ok (some (boxes', ((lines.length + items.length : Nat) : Int) - 1, rest)) ∧
      ArrayShows boxes' (news.foldl (insertRight Line.above) lines) := by
  induction shown generalizing boxes lines with
  | nil => exact (nonempty rfl).elim
  | @cons box line items news first others inductionHypothesis =>
      have started := first.nonempty (named line List.mem_cons_self)
      rw [List.length_cons] at room
      obtain ⟨boxes', inserted, shows'⟩ := sortedInsert_shows shows first (by omega)
      have turns : (box :: items).length + extra = items.length + extra + 1 := by
        rw [List.length_cons]
        omega
      have length : (insertRight Line.above lines line).length = lines.length + 1 := by
        rw [insertRight_perm.length_eq, List.length_cons]
      rw [turns, receiveLoop]
      cases items with
      | nil =>
          cases others
          simp only [packets, List.flatten_cons, List.flatten_nil, List.append_nil,
            ClientBox.packet, readPacket_bytes]
          rw [if_neg (fun both => started both.2), inserted]
          refine ⟨boxes', ?_, shows'⟩
          simp only [bind, Except.bind]
          rw [if_neg (by decide)]
          have index : (lines.length : Int) - 1 + 1 = ((lines.length + 1 : Nat) : Int) - 1 := by
            omega
          rw [index]
          rfl
      | cons next items =>
          simp only [packets, List.flatten_cons, ClientBox.packet, List.append_assoc,
            readPacket_bytes]
          rw [if_neg (fun both => started both.2), inserted]
          simp only [bind, Except.bind]
          rw [if_pos trivial]
          obtain ⟨boxes'', received, shows''⟩ := inductionHypothesis (List.cons_ne_nil _ _)
            (fun other member => named other (List.mem_cons_of_mem _ member)) shows' (by
              rw [length]
              omega)
          have index : (lines.length : Int) - 1 + 1 =
              ((insertRight Line.above lines line).length : Int) - 1 := by
            rw [length]
            omega
          have total : lines.length + (box :: next :: items).length =
              (insertRight Line.above lines line).length + (next :: items).length := by
            rw [length, List.length_cons]
            omega
          rw [index, total]
          exact ⟨boxes'', received, shows''⟩

theorem printLoop_shows {boxes : Nat → ClientBox} {lines : List Line} {index : Nat}
    (shows : ∀ offset line, lines[offset]? = some line → (boxes (index + offset)).Shows line) :
    printLoop boxes lines.length index = .ok (lines.map .box) := by
  induction lines generalizing index with
  | nil => rfl
  | cons line lines inductionHypothesis =>
      have first : (boxes index).Shows line := shows 0 line rfl
      have printed : (boxes index).print = .ok (.box line) := by
        unfold ClientBox.print
        rw [first.name, first.size, first.nPublishers, first.nSubscribers]
        rfl
      have rest : printLoop boxes lines.length (index + 1) = _ := inductionHypothesis (by
        intro offset other found
        rw [Nat.add_assoc, Nat.add_comm 1 offset]
        exact shows (offset + 1) other found)
      rw [List.length_cons, printLoop, printed, rest]
      rfl

/-- The client prints the boxes sorted by their names and leaves what follows the last
packet in the pipe. -/
theorem managerHandleBoxListing_packets {items : List ClientBox} {news : List Line}
    (shown : List.Forall₂ ClientBox.Shows items news) (nonempty : items ≠ [])
    (named : ∀ line ∈ news, line.name.bytes ≠ []) (room : items.length ≤ maxBoxAmount)
    (stack : Nat → ClientBox) (rest : List UInt8) (extra : Nat) :
    ∃ lines, lines.Perm news ∧ Sorted Line.above lines ∧
      managerHandleBoxListing stack (items.length + extra) ((packets items).flatten ++ rest) =
        .ok (some (lines.map .box, rest)) := by
  have start : ArrayShows stack [] := by
    intro index line found
    cases found
  obtain ⟨boxes, received, shows⟩ := receiveLoop_packets shown nonempty named start
    (by rw [List.length_nil, Nat.zero_add]; exact room) rest extra
  have perm : (news.foldl (insertRight Line.above) []).Perm news := foldl_insertRight_perm news
  refine ⟨news.foldl (insertRight Line.above) [], perm, ?_, ?_⟩
  · exact Sorted.foldl_insertRight List.Pairwise.nil Line.above_total Line.above_trans news
  · have positive : 0 < items.length := List.length_pos_iff.mpr nonempty
    have length : (news.foldl (insertRight Line.above) []).length = items.length := by
      rw [perm.length_eq, shown.length_eq]
    have printed : printLoop boxes _ 0 = _ := printLoop_shows (by
      intro offset line found
      rw [Nat.zero_add]
      exact shows offset line found)
    unfold managerHandleBoxListing
    rw [List.length_nil, Nat.zero_add] at received
    have start : receiveLoop (items.length + extra) ((packets items).flatten ++ rest) stack (-1) =
        .ok (some (boxes, (items.length : Int) - 1, rest)) := received
    have index : ((items.length : Int) - 1 + 1).toNat = items.length := by omega
    rw [start]
    simp only [bind, Except.bind]
    unfold printBoxes
    rw [index, ← length, printed]
    simp only [bind, Except.bind]
    rw [if_neg (by omega)]
    rfl

/-- The packet of an empty listing -/
def emptyPacket : List UInt8 :=
  packetBytes 1 (CharArray.zeroed boxNameMaxLen).bytes 0 0 0

theorem managerHandleBoxListing_empty (stack : Nat → ClientBox) (rest : List UInt8)
    (extra : Nat) : managerHandleBoxListing stack (1 + extra) (emptyPacket ++ rest) =
      .ok (some ([.noBoxesFound], rest)) := by
  have turns : 1 + extra = extra + 1 := Nat.add_comm 1 extra
  unfold managerHandleBoxListing emptyPacket
  rw [turns, receiveLoop, readPacket_bytes]
  rfl

end TecnicoFS.Manager
