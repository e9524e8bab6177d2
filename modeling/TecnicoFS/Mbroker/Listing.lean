/-
The listing of boxes from end to end: `workers_handle_manager_listing` and its client.

The handler keeps `free_boxes_lock` over its loop, so it lists one box table.  A name of
`box_t` is copied from behind its slash, one byte past its field; a name of at most 30
characters ends before that byte.
-/

import TecnicoFS.Manager.BoxListing
import TecnicoFS.Mbroker.FirstBox
import TecnicoFS.Mbroker.OpenFiles

set_option autoImplicit false

namespace TecnicoFS.Mbroker

open FileSystem Manager Protocol TableSearch SortedInsertion

variable {Thread : Type}

/-! ### The handler -/

/-- The bytes of `box_t` up to its mutex; `box_create` cleared the name before it set it. -/
def Box.memory (box : Box) : List UInt8 :=
  (box.name.bytes ++ List.replicate (boxNameMaxLen - box.name.strlen) 0) ++
    (LittleEndian.encode 8 box.size.toNat ++ (LittleEndian.encode 8 box.nPublishers.toNat ++
      LittleEndian.encode 8 box.nSubscribers.toNat))

def listingPacketLen : Nat := 1 * 2 + boxNameMaxLen + 8 * 3

/-- The packet of a box, or that of an empty listing -/
def listingPacket (box : Option Box) (last : UInt8) : Except Fault (List UInt8) := do
  let packet := Packet.empty listingPacketLen
  let packet ← packet.write [protocolCodeListAnswer]
  let packet ← packet.write [last]
  match box with
  | some box => do
      let packet ← packet.write ((box.memory.drop 1).take boxNameMaxLen)
      let packet ← packet.write (LittleEndian.encode 8 box.size.toNat)
      let packet ← packet.write (LittleEndian.encode 8 box.nPublishers.toNat)
      let packet ← packet.write (LittleEndian.encode 8 box.nSubscribers.toNat)
      pure packet.array.bytes
  | none => pure packet.array.bytes

/-- The loop of `workers_handle_manager_listing` with the number of slots left, `i`,
`n_boxes_listed`, `last` and what was sent; `accepts` says whether a `pipe_write` succeeds. -/
def listingLoop (server : Server Thread) (accepts : Nat → Bool) :
    Nat → Nat → Int → UInt8 → List (List UInt8) → Except Fault (Int × List (List UInt8))
  | 0, _, _, _, sent => pure (0, sent)
  | remaining + 1, i, nBoxesListed, last, sent =>
      if ¬ nBoxesListed ≤ server.nBoxes then
        pure (0, sent)
      else if server.nBoxes > 0 ∧ server.freeBoxes i = .free then
        listingLoop server accepts remaining (i + 1) nBoxesListed last sent
      else do
        let last := if server.nBoxes = 0 ∨ nBoxesListed + 1 = server.nBoxes then 1 else last
        let packet ←
          listingPacket (if server.nBoxes > 0 then some (server.boxesTable i) else none) last
        if accepts sent.length then
          listingLoop server accepts remaining (i + 1) (nBoxesListed + 1) last (sent ++ [packet])
        else
          pure (-1, sent)

/-- `workers_handle_manager_listing` behind the opening of the pipe: what it returns and the
packets it sent -/
def workersHandleManagerListing (server : Server Thread) (accepts : Nat → Bool) :
    Except Fault (Int × List (List UInt8)) :=
  listingLoop server accepts server.fs.inodeTableSize 0 0 0 []

/-! ### One box -/

/-- A box under the name of a created one, without its slash -/
def Box.Created (box : Box) (name : CString) : Prop :=
  box.name = rootPath name ∧ name.bytes ≠ [] ∧ name.strlen ≤ 30

/-- The line of a box -/
def Box.line (box : Box) : Line where
  name := box.name.tail
  size := box.size
  nPublishers := box.nPublishers
  nSubscribers := box.nSubscribers

/-- The packet of the box is that of a box of the client, which prints as its line. -/
structure Box.Arrives (box : Box) (received : ClientBox) : Prop where
  packet : ∀ last, listingPacket (some box) last = .ok (received.packet last)
  shows : received.Shows box.line
  nonempty : box.line.name.bytes ≠ []

/-- The bytes a packet copies from behind the slash -/
theorem Box.Created.copied {box : Box} {name : CString} (created : box.Created name) :
    ((box.memory.drop 1).take boxNameMaxLen).length = boxNameMaxLen ∧
      ∃ rest, (box.memory.drop 1).take boxNameMaxLen = name.bytes ++ 0 :: rest := by
  obtain ⟨named, _, short⟩ := created
  have strlen : box.name.strlen = name.strlen + 1 := by
    rw [named]
    rfl
  have padding : boxNameMaxLen - box.name.strlen = boxNameMaxLen - box.name.strlen - 1 + 1 := by
    rw [strlen]
    change 32 - (name.strlen + 1) = 32 - (name.strlen + 1) - 1 + 1
    omega
  have memory : box.memory.drop 1 = name.bytes ++ (0 ::
      (List.replicate (boxNameMaxLen - box.name.strlen - 1) 0 ++
        (LittleEndian.encode 8 box.size.toNat ++ (LittleEndian.encode 8 box.nPublishers.toNat ++
          LittleEndian.encode 8 box.nSubscribers.toNat)))) := by
    unfold Box.memory
    rw [padding, List.replicate_succ, named, List.append_assoc]
    rfl
  have length := congrArg List.length memory
  constructor
  · rw [List.length_take, length, List.length_append, List.length_cons, List.length_append,
      List.length_replicate, List.length_append, LittleEndian.encode_length, strlen]
    change min 32 (name.strlen + _) = 32
    change min 32 (name.strlen + (32 - (name.strlen + 1) - 1 + (8 + _) + 1)) = 32
    omega
  · rw [memory, List.take_append]
    have inside : boxNameMaxLen - name.bytes.length = boxNameMaxLen - name.bytes.length - 1 + 1 := by
      change 32 - name.strlen = 32 - name.strlen - 1 + 1
      omega
    rw [inside, List.take_succ_cons, List.take_of_length_le]
    · exact ⟨_, rfl⟩
    · change name.strlen ≤ 32
      omega

/-- The packet of a box whose name is copied whole -/
theorem listingPacket_some {box : Box}
    (length : ((box.memory.drop 1).take boxNameMaxLen).length = boxNameMaxLen) (last : UInt8) :
    listingPacket (some box) last = .ok (packetBytes last ((box.memory.drop 1).take boxNameMaxLen)
      box.size box.nPublishers box.nSubscribers) := by
  have eight (value : UInt64) : (LittleEndian.encode 8 value.toNat).length = 8 :=
    LittleEndian.encode_length 8 _
  obtain ⟨coded, wroteCode, holdsCode⟩ := (Packet.empty_holds listingPacketLen).write
    [protocolCodeListAnswer] (by decide)
  obtain ⟨flagged, wroteLast, holdsLast⟩ := holdsCode.write [last] (by
    change 1 + 1 ≤ 58
    decide)
  have lastLength : ([] ++ [protocolCodeListAnswer] ++ [last]).length = 2 := rfl
  obtain ⟨named, wroteName, holdsName⟩ := holdsLast.write
    ((box.memory.drop 1).take boxNameMaxLen) (by
      rw [lastLength, length]
      decide)
  obtain ⟨sized, wroteSize, holdsSize⟩ := holdsName.write
    (LittleEndian.encode 8 box.size.toNat) (by
      rw [List.length_append, lastLength, length, eight]
      decide)
  obtain ⟨published, wrotePublishers, holdsPublishers⟩ := holdsSize.write
    (LittleEndian.encode 8 box.nPublishers.toNat) (by
      rw [List.length_append, List.length_append, lastLength, length, eight, eight]
      decide)
  obtain ⟨subscribed, wroteSubscribers, holdsSubscribers⟩ := holdsPublishers.write
    (LittleEndian.encode 8 box.nSubscribers.toNat) (by
      rw [List.length_append, List.length_append, List.length_append, lastLength, length, eight,
        eight, eight]
      decide)
  unfold listingPacket
  simp only [wroteCode, wroteLast, wroteName, wroteSize, wrotePublishers, wroteSubscribers, bind,
    Except.bind]
  change Except.ok subscribed.array.bytes = _
  rw [holdsSubscribers.bytes, List.length_append, List.length_append, List.length_append,
    List.length_append, lastLength, length, eight, eight, eight]
  change Except.ok (_ ++ []) = _
  unfold packetBytes
  simp only [List.append_nil, List.nil_append, List.append_assoc]

theorem Box.Created.arrives {box : Box} {name : CString} (created : box.Created name) :
    ∃ received, box.Arrives received := by
  obtain ⟨length, rest, copied⟩ := created.copied
  refine ⟨⟨⟨_, length⟩, box.size, box.nPublishers, box.nSubscribers⟩, ?_, ?_, ?_⟩
  · exact listingPacket_some length
  · have tail : box.name.tail = name := by
      rw [created.1]
      rfl
    constructor
    · change CharArray.string? _ = some box.name.tail
      rw [tail]
      exact CharArray.string?_eq_some copied
    · rfl
    · rfl
    · rfl
  · have tail : box.name.tail = name := by
      rw [created.1]
      rfl
    change box.name.tail.bytes ≠ []
    rw [tail]
    exact created.2.1

theorem listingPacket_empty : listingPacket none 1 = .ok emptyPacket := by
  decide

/-! ### The loop -/

variable {server : Server Thread} {accepts : Nat → Bool}

/-- The boxes in the taken slots among the next ones -/
def Server.takenBoxes (server : Server Thread) (i remaining : Nat) : List Box :=
  ((List.range' i remaining).filter (fun boxI => server.freeBoxes boxI == .taken)).map
    server.boxesTable

theorem Server.takenBoxes_succ (server : Server Thread) (i remaining : Nat) :
    server.takenBoxes i (remaining + 1) =
      (if server.freeBoxes i = .taken then [server.boxesTable i] else []) ++
        server.takenBoxes (i + 1) remaining := by
  unfold Server.takenBoxes
  rw [List.range'_succ, List.filter_cons]
  cases server.freeBoxes i <;> rfl

theorem takenBoxes_length (server : Server Thread) (size : Nat) :
    (server.takenBoxes 0 size).length = Nat.count server.IsTaken size := by
  unfold Server.takenBoxes
  rw [List.length_map, ← List.range_eq_range']
  induction size with
  | zero => rfl
  | succ size inductionHypothesis =>
      rw [List.range_succ, List.filter_append, List.length_append, inductionHypothesis,
        Nat.count_succ]
      congr 1
      by_cases taken : server.freeBoxes size = .taken
      · simp [Server.IsTaken, taken]
      · simp [Server.IsTaken, taken]

/-- The loop sends the boxes in the slots ahead of it, the flag with the last one. -/
theorem listingLoop_taken (takes : ∀ packet, accepts packet = true) {remaining i : Nat}
    {nBoxesListed : Int} {last : UInt8} {sent : List (List UInt8)} {items : List ClientBox}
    (arrives : List.Forall₂ Box.Arrives (server.takenBoxes i remaining) items)
    (counted : nBoxesListed + items.length = server.nBoxes) (positive : 0 < server.nBoxes)
    (started : items ≠ [] → last = 0) :
    listingLoop server accepts remaining i nBoxesListed last sent =
      .ok (0, sent ++ packets items) := by
  induction remaining generalizing i nBoxesListed last sent items with
  | zero =>
      cases arrives
      rw [listingLoop, packets, List.append_nil]
      rfl
  | succ remaining inductionHypothesis =>
      rw [Server.takenBoxes_succ] at arrives
      have within : nBoxesListed ≤ server.nBoxes := by omega
      rw [listingLoop, if_neg (fun beyond => beyond within)]
      by_cases taken : server.freeBoxes i = .taken
      · rw [if_pos taken] at arrives
        have notSkipped : ¬ (server.nBoxes > 0 ∧ server.freeBoxes i = .free) := by
          rw [taken]
          intro both
          cases both.2
        rw [if_neg notSkipped, if_pos positive]
        have arrivesNext : List.Forall₂ Box.Arrives
            (server.boxesTable i :: server.takenBoxes (i + 1) remaining) items := arrives
        cases arrivesNext with
        | @cons _ received _ rest first others =>
            simp only [first.packet, bind, Except.bind, takes]
            rw [if_pos trivial]
            rw [List.length_cons] at counted
            cases rest with
            | nil =>
                rw [List.length_nil] at counted
                have flag : server.nBoxes = 0 ∨ nBoxesListed + 1 = server.nBoxes :=
                  Or.inr (by omega)
                rw [if_pos flag, inductionHypothesis others (by rw [List.length_nil]; omega)
                  (fun impossible => (impossible rfl).elim)]
                change Except.ok (0, sent ++ [received.packet 1] ++ []) = _
                rw [List.append_nil]
                rfl
            | cons next rest =>
                have noFlag : ¬ (server.nBoxes = 0 ∨ nBoxesListed + 1 = server.nBoxes) := by
                  rw [List.length_cons] at counted
                  omega
                have unset : last = 0 := started (List.cons_ne_nil _ _)
                rw [if_neg noFlag, unset, inductionHypothesis others (by omega) (fun _ => rfl),
                  List.append_assoc]
                rfl
      · have isFree : server.freeBoxes i = .free := by
          cases mark : server.freeBoxes i with
          | free => rfl
          | taken => exact (taken mark).elim
        rw [if_neg taken, List.nil_append] at arrives
        rw [if_pos ⟨positive, isFree⟩]
        exact inductionHypothesis arrives counted started

/-- A server without boxes sends the empty packet. -/
theorem workersHandleManagerListing_empty (takes : ∀ packet, accepts packet = true)
    (none : server.nBoxes = 0) (slots : 0 < server.fs.inodeTableSize) :
    workersHandleManagerListing server accepts = .ok (0, [emptyPacket]) := by
  obtain ⟨remaining, size⟩ := Nat.exists_eq_succ_of_ne_zero (Nat.ne_of_gt slots)
  have notPositive : ¬ server.nBoxes > 0 := by omega
  unfold workersHandleManagerListing
  rw [size, Nat.succ_eq_add_one, listingLoop, if_neg (by omega),
    if_neg (fun both => notPositive both.1), if_pos (Or.inl none), if_neg notPositive]
  simp only [listingPacket_empty, bind, Except.bind, takes]
  rw [if_pos trivial]
  cases remaining with
  | zero => rfl
  | succ remaining =>
      rw [listingLoop, if_pos (by omega)]
      rfl

/-- A server with created boxes sends the packets of its boxes. -/
theorem workersHandleManagerListing_taken (takes : ∀ packet, accepts packet = true)
    {items : List ClientBox}
    (arrives : List.Forall₂ Box.Arrives (server.takenBoxes 0 server.fs.inodeTableSize) items)
    (counted : server.nBoxes = items.length) (nonempty : items ≠ []) :
    workersHandleManagerListing server accepts = .ok (0, packets items) := by
  have positive : 0 < items.length := List.length_pos_iff.mpr nonempty
  unfold workersHandleManagerListing
  rw [listingLoop_taken takes arrives (by omega) (by omega) (fun _ => rfl)]
  rfl

/-! ### The number of boxes -/

/-- `n_boxes` is the number of taken slots. -/
def Server.CountsBoxes (server : Server Thread) : Prop :=
  server.nBoxes = Nat.count server.IsTaken server.fs.inodeTableSize

theorem Server.CountsBoxes.takeBox (counts : server.CountsBoxes) {boxI : Nat}
    (found : server.firstFreeBox = some boxI) (boxName : CString) :
    (server.takeBox boxI boxName).CountsBoxes := by
  obtain ⟨inside, free⟩ := server.firstFreeBox_eq_some found
  have counted : Nat.count (server.takeBox boxI boxName).IsTaken server.fs.inodeTableSize =
      Nat.count server.IsTaken server.fs.inodeTableSize + 1 := by
    apply count_insert inside free (server.takeBox_isTaken boxI boxName)
    intro other _ different
    have same : (server.takeBox boxI boxName).freeBoxes other = server.freeBoxes other :=
      Function.update_of_ne different _ _
    unfold Server.IsTaken
    rw [same]
  unfold Server.CountsBoxes at counts ⊢
  change server.nBoxes + 1 =
    (Nat.count (server.takeBox boxI boxName).IsTaken server.fs.inodeTableSize : Int)
  rw [counted, counts]
  rfl

theorem Server.CountsBoxes.deleteBox (counts : server.CountsBoxes) {boxI : Nat}
    {boxName : CString} (found : server.boxFind boxName = some boxI) :
    (server.deleteBox boxI boxName).CountsBoxes := by
  obtain ⟨inside, taken, _⟩ := server.boxFind_eq_some found
  have freed := server.deleteBox_notTaken boxI boxName
  have counted : Nat.count server.IsTaken server.fs.inodeTableSize =
      Nat.count (server.deleteBox boxI boxName).IsTaken server.fs.inodeTableSize + 1 := by
    apply count_insert inside freed taken
    intro other _ different
    have same : (server.deleteBox boxI boxName).freeBoxes other = server.freeBoxes other :=
      Function.update_of_ne different _ _
    unfold Server.IsTaken
    rw [same]
  unfold Server.CountsBoxes at counts ⊢
  change server.nBoxes - 1 =
    (Nat.count (server.deleteBox boxI boxName).IsTaken server.fs.inodeTableSize : Int)
  rw [counts, counted]
  omega

/-- A step that leaves the table alone -/
theorem Server.CountsBoxes.same {server' : Server Thread} (counts : server.CountsBoxes)
    (size : server'.fs.inodeTableSize = server.fs.inodeTableSize)
    (nBoxes : server'.nBoxes = server.nBoxes) (freeBoxes : server'.freeBoxes = server.freeBoxes) :
    server'.CountsBoxes := by
  have counted : Nat.count server'.IsTaken server'.fs.inodeTableSize =
      Nat.count server.IsTaken server.fs.inodeTableSize := by
    rw [size]
    apply count_congr
    intro boxI _
    unfold Server.IsTaken
    rw [freeBoxes]
  unfold Server.CountsBoxes at counts ⊢
  rw [nBoxes, counted, counts]

/-- Every step keeps the number of boxes exact. -/
theorem Broker.Step.countsBoxes [DecidableEq Thread] {atomicity : Atomicity} {thread : Thread}
    {broker broker' : Broker Thread} (step : broker.Step atomicity thread broker')
    (counts : broker.server.CountsBoxes)
    (size : broker'.server.fs.inodeTableSize = broker.server.fs.inodeTableSize) :
    broker'.server.CountsBoxes := by
  cases step with
  | dequeue _ _ => exact counts
  | publisher _ taken => cases taken <;> exact counts.same size rfl rfl
  | subscriber _ taken => cases taken <;> exact counts.same size rfl rfl
  | create _ taken =>
      cases taken with
      | takes _ found => exact counts.takeBox found _
      | @creates boxName _ _ _ found _ => exact (counts.takeBox found boxName).same rfl rfl rfl
      | _ => exact counts.same size rfl rfl
  | remove _ taken =>
      cases taken with
      | deletes found _ => exact counts.deleteBox found
      | _ => exact counts.same size rfl rfl

theorem MbrokerInit.countsBoxes {params : MbrokerParams} (started : MbrokerInit params server) :
    server.CountsBoxes := by
  have nobody : Nat.count server.IsTaken server.fs.inodeTableSize = 0 := by
    by_contra positive
    obtain ⟨boxI, _, taken⟩ := Nat.count_ne_iff_exists.mp positive
    have free := started.freeBoxes boxI
    rw [show server.freeBoxes boxI = .taken from taken] at free
    cases free
  unfold Server.CountsBoxes
  rw [started.nBoxes, nobody]
  rfl

theorem Broker.reachable_countsBoxes {params : MbrokerParams} {atomicity : Atomicity}
    {broker : Broker (Fin params.maxSessions)}
    (reachable : (brokerSystem atomicity params).Reachable broker) :
    broker.server.CountsBoxes ∧ broker.server.fs.inodeTableSize = 64 := by
  have size : ∀ broker, (brokerSystem atomicity params).Reachable broker →
      broker.server.fs.inodeTableSize = 64 := by
    intro broker reachable
    obtain ⟨model, held⟩ := Broker.reachable_filesHeld reachable
    exact held.files.inodeTableSize
  refine ⟨?_, size broker reachable⟩
  induction reachable with
  | initial started => exact started.1.countsBoxes
  | step before taken inductionHypothesis =>
      apply Broker.Step.countsBoxes taken inductionHypothesis
      rw [size _ before, size _ (.step before taken)]

/-! ### End to end -/

/-- The lines of the boxes of the server -/
def Server.lines (server : Server Thread) : List Line :=
  (server.takenBoxes 0 server.fs.inodeTableSize).map Box.line

/-- What the listing of the server leads to: the handler sends one packet for each box, or
one for none, and only the last one carries the flag; the client reads just these packets
and prints the boxes in the order of their names. -/
structure ListsBoxes (server : Server Thread) (stack : Nat → ClientBox) (extra : Nat)
    (rest : List UInt8) (sent : List (List UInt8)) (printed : List Line) : Prop where
  handler : workersHandleManagerListing server (fun _ => true) = .ok (0, sent)
  length : sent.length = max 1 server.lines.length
  flags : sent.map (fun packet => packet[1]?) =
    List.replicate (sent.length - 1) (some 0) ++ [some 1]
  client : managerHandleBoxListing stack (sent.length + extra) (sent.flatten ++ rest) =
    .ok (some (if printed = [] then [.noBoxesFound] else printed.map .box, rest))
  lines : printed.Perm server.lines
  sorted : Sorted Line.above printed

theorem packets_length (items : List ClientBox) : (packets items).length = items.length := by
  fun_induction packets items with
  | case1 => rfl
  | case2 box => rfl
  | case3 box next rest inductionHypothesis =>
      rw [List.length_cons, inductionHypothesis]
      rfl

theorem packets_flags {items : List ClientBox} (nonempty : items ≠ []) :
    (packets items).map (fun packet => packet[1]?) =
      List.replicate (items.length - 1) (some 0) ++ [some 1] := by
  fun_induction packets items with
  | case1 => exact (nonempty rfl).elim
  | case2 box => rfl
  | case3 box next rest inductionHypothesis =>
      rw [List.map_cons, inductionHypothesis (List.cons_ne_nil _ _), List.length_cons,
        List.length_cons, Nat.add_sub_cancel, Nat.add_sub_cancel, List.length_cons,
        List.replicate_succ]
      rfl

theorem exists_arrives {boxes : List Box}
    (created : ∀ box ∈ boxes, ∃ name, box.Created name) :
    ∃ items, List.Forall₂ Box.Arrives boxes items := by
  induction boxes with
  | nil => exact ⟨[], .nil⟩
  | cons box boxes inductionHypothesis =>
      obtain ⟨name, first⟩ := created box List.mem_cons_self
      obtain ⟨received, arrives⟩ := first.arrives
      obtain ⟨items, others⟩ := inductionHypothesis
        (fun other member => created other (List.mem_cons_of_mem _ member))
      exact ⟨received :: items, .cons arrives others⟩

/-- A server that counts its boxes right lists every one of them once. -/
theorem Server.CountsBoxes.listing (counts : server.CountsBoxes)
    (size : server.fs.inodeTableSize = 64)
    (created : ∀ boxI, server.IsTaken boxI → ∃ name, (server.boxesTable boxI).Created name)
    (stack : Nat → ClientBox) (extra : Nat) (rest : List UInt8) :
    server.nBoxes = server.lines.length ∧
      ∃ sent printed, ListsBoxes server stack extra rest sent printed := by
  have length : server.lines.length =
      Nat.count server.IsTaken server.fs.inodeTableSize := by
    unfold Server.lines
    rw [List.length_map, takenBoxes_length]
  have nBoxes : server.nBoxes = server.lines.length := by
    rw [length]
    exact counts
  refine ⟨nBoxes, ?_⟩
  have boxes : ∀ box ∈ server.takenBoxes 0 server.fs.inodeTableSize,
      ∃ name, box.Created name := by
    intro box member
    obtain ⟨boxI, inside, same⟩ := List.mem_map.mp member
    have taken := (List.mem_filter.mp inside).2
    rw [beq_iff_eq] at taken
    rw [← same]
    exact created boxI taken
  obtain ⟨items, arrives⟩ := exists_arrives boxes
  have itemsLength : items.length = server.lines.length := by
    unfold Server.lines
    rw [List.length_map, arrives.length_eq]
  have shown : List.Forall₂ ClientBox.Shows items server.lines := by
    unfold Server.lines
    rw [List.forall₂_map_right_iff]
    exact arrives.flip.imp (fun _ _ arrives => arrives.shows)
  have takes : ∀ packet : Nat, (fun _ : Nat => true) packet = true := fun _ => rfl
  by_cases none : items = []
  · subst none
    have noLines : server.lines = [] := List.length_eq_zero_iff.mp itemsLength.symm
    rw [noLines] at nBoxes
    refine ⟨[emptyPacket], [], ?_, ?_, ?_, ?_, ?_, ?_⟩
    · exact workersHandleManagerListing_empty takes nBoxes (by rw [size]; decide)
    · rw [noLines]
      rfl
    · decide
    · have client := managerHandleBoxListing_empty stack rest extra
      rw [List.flatten_cons, List.flatten_nil, List.append_nil]
      exact client
    · rw [noLines]
    · exact List.Pairwise.nil
  · have named : ∀ line ∈ server.lines, line.name.bytes ≠ [] := by
      intro line member
      obtain ⟨box, inside, same⟩ := List.mem_map.mp member
      obtain ⟨name, named, nonempty, _⟩ := boxes box inside
      rw [← same]
      change box.name.tail.bytes ≠ []
      rw [named]
      exact nonempty
    have room : items.length ≤ maxBoxAmount := by
      rw [itemsLength, length, size]
      exact Nat.count_le _
    obtain ⟨printed, perm, sorted, client⟩ :=
      managerHandleBoxListing_packets shown none named room stack rest extra
    have positive : 0 < items.length := List.length_pos_iff.mpr none
    have printedSome : printed ≠ [] := by
      intro empty
      rw [empty] at perm
      rw [itemsLength, ← perm.length_eq] at positive
      cases positive
    refine ⟨packets items, printed, ?_, ?_, ?_, ?_, perm, sorted⟩
    · exact workersHandleManagerListing_taken takes arrives (by rw [nBoxes, itemsLength]) none
    · rw [packets_length, ← itemsLength]
      omega
    · rw [packets_length]
      exact packets_flags none
    · rw [packets_length, if_neg printedSome]
      exact client

/-- In every reachable state whose taken slots hold created boxes, `n_boxes` is the number
of taken slots and a listing shows every box once, in the order of the names. -/
theorem box_listing {params : MbrokerParams} {atomicity : Atomicity}
    {broker : Broker (Fin params.maxSessions)}
    (reachable : (brokerSystem atomicity params).Reachable broker)
    (created : ∀ boxI, broker.server.IsTaken boxI →
      ∃ name, (broker.server.boxesTable boxI).Created name)
    (stack : Nat → ClientBox) (extra : Nat) (rest : List UInt8) :
    broker.server.nBoxes = broker.server.lines.length ∧
      ∃ sent printed, ListsBoxes broker.server stack extra rest sent printed := by
  obtain ⟨counts, size⟩ := Broker.reachable_countsBoxes reachable
  exact counts.listing size created stack extra rest

/-- The server with one box lists it. -/
theorem box_listing_first :
    ∃ broker : Broker (Fin twoSessions.maxSessions), broker.server.IsTaken 0 ∧
      ∃ sent printed, ListsBoxes broker.server (fun _ => ⟨.zeroed _, 0, 0, 0⟩) 0 [] sent printed := by
  obtain ⟨fs, id, _, reachable⟩ := exists_firstBox .sections (fun _ => ⟨boxA, 0, 0, 0⟩)
    boxA_short workerA (fun _ _ _ => True) (fun _ _ _ => trivial)
  refine ⟨_, firstBoxServer_isTaken _ _ _, (box_listing reachable.of_restrict ?_ _ 0 []).2⟩
  intro boxI taken
  have first : boxI = 0 := by
    by_contra other
    have free : Function.update (fun _ => AllocationState.free) 0 .taken boxI = .free :=
      Function.update_of_ne other _ _
    have marked : Function.update (fun _ => AllocationState.free) 0 .taken boxI = .taken := taken
    rw [free] at marked
    cases marked
  subst first
  exact ⟨boxA, rfl, by decide, by decide⟩

end TecnicoFS.Mbroker
