/-
A flat byte memory with block reads, block writes, little-endian 32-bit integers
and NUL-terminated strings.

Addresses are natural numbers, so a range is compared before it is narrowed to a
machine address.  A string never contains NUL: `CString` carries that as a field.
The comparisons follow `strcmp` and `strncmp` byte by byte and read no byte past
the first difference.
-/

set_option autoImplicit false

/-- The byte stored at every address. -/
abbrev ByteMemory : Type := Nat → UInt8

namespace ByteMemory

def readBytes (memory : ByteMemory) (address length : Nat) : List UInt8 :=
  (List.range length).map (fun offset => memory (address + offset))

def writeBytes (memory : ByteMemory) (address : Nat) (bytes : List UInt8) : ByteMemory :=
  fun position =>
    if address ≤ position then (bytes[position - address]?).getD (memory position)
    else memory position

theorem readBytes_length (memory : ByteMemory) (address length : Nat) :
    (memory.readBytes address length).length = length := by
  simp only [readBytes, List.length_map, List.length_range]

theorem readBytes_getElem (memory : ByteMemory) (address length offset : Nat)
    (inside : offset < (memory.readBytes address length).length) :
    (memory.readBytes address length)[offset] = memory (address + offset) := by
  simp only [readBytes, List.getElem_map, List.getElem_range]

theorem readBytes_congr {memory memory' : ByteMemory} {address length : Nat}
    (same : ∀ position, address ≤ position → position < address + length →
      memory position = memory' position) :
    memory.readBytes address length = memory'.readBytes address length := by
  apply List.ext_getElem
  · rw [readBytes_length, readBytes_length]
  · intro offset left right
    rw [readBytes_getElem, readBytes_getElem]
    rw [readBytes_length] at left
    exact same _ (by omega) (by omega)

theorem readBytes_zero (memory : ByteMemory) (address : Nat) :
    memory.readBytes address 0 = [] := rfl

theorem readBytes_succ (memory : ByteMemory) (address length : Nat) :
    memory.readBytes address (length + 1) =
      memory address :: memory.readBytes (address + 1) length := by
  apply List.ext_getElem
  · simp only [readBytes_length, List.length_cons]
  · intro offset left right
    rw [readBytes_getElem]
    cases offset with
    | zero => rfl
    | succ offset =>
        rw [List.getElem_cons_succ, readBytes_getElem]
        congr 1
        omega

theorem readBytes_append (memory : ByteMemory) (address first second : Nat) :
    memory.readBytes address (first + second) =
      memory.readBytes address first ++ memory.readBytes (address + first) second := by
  simp only [readBytes, List.range_add, List.map_append, List.map_map]
  congr 1
  apply List.map_congr_left
  intro offset _
  simp only [Function.comp_apply, Nat.add_assoc]

theorem readBytes_take (memory : ByteMemory) (address length count : Nat) :
    (memory.readBytes address length).take count =
      memory.readBytes address (min count length) := by
  apply List.ext_getElem
  · simp only [List.length_take, readBytes_length]
  · intro offset left right
    rw [List.getElem_take, readBytes_getElem, readBytes_getElem]

theorem readBytes_drop (memory : ByteMemory) (address length count : Nat) :
    (memory.readBytes address length).drop count =
      memory.readBytes (address + count) (length - count) := by
  apply List.ext_getElem
  · simp only [List.length_drop, readBytes_length]
  · intro offset left right
    rw [List.getElem_drop, readBytes_getElem, readBytes_getElem]
    congr 1
    omega

theorem writeBytes_outside (memory : ByteMemory) (address position : Nat) (bytes : List UInt8)
    (outside : position < address ∨ address + bytes.length ≤ position) :
    memory.writeBytes address bytes position = memory position := by
  unfold writeBytes
  rcases outside with before | after
  · rw [if_neg (by omega)]
  · rw [if_pos (by omega), List.getElem?_eq_none (by omega), Option.getD_none]

theorem writeBytes_inside (memory : ByteMemory) (address offset : Nat) (bytes : List UInt8)
    (inside : offset < bytes.length) :
    memory.writeBytes address bytes (address + offset) = bytes[offset] := by
  have position : address + offset - address = offset := by omega
  unfold writeBytes
  rw [if_pos (by omega), position, List.getElem?_eq_getElem inside, Option.getD_some]

theorem readBytes_writeBytes (memory : ByteMemory) (address : Nat) (bytes : List UInt8) :
    (memory.writeBytes address bytes).readBytes address bytes.length = bytes := by
  apply List.ext_getElem
  · rw [readBytes_length]
  · intro offset left right
    rw [readBytes_getElem, writeBytes_inside _ _ _ _ right]

theorem readBytes_writeBytes_disjoint (memory : ByteMemory) (address length target : Nat)
    (bytes : List UInt8)
    (disjoint : address + length ≤ target ∨ target + bytes.length ≤ address) :
    (memory.writeBytes target bytes).readBytes address length =
      memory.readBytes address length := by
  apply readBytes_congr
  intro position lower upper
  apply writeBytes_outside
  omega

/-- Overwriting inside a stored range splices the new bytes into its contents.
The range may grow by the part of the write that passes its old end. -/
theorem readBytes_writeBytes_splice (memory : ByteMemory) (address length offset : Nat)
    (bytes : List UInt8) (start : offset ≤ length) :
    (memory.writeBytes (address + offset) bytes).readBytes address
        (max length (offset + bytes.length)) =
      (memory.readBytes address length).take offset ++ bytes ++
        (memory.readBytes address length).drop (offset + bytes.length) := by
  have shape : max length (offset + bytes.length) =
      offset + (bytes.length + (length - (offset + bytes.length))) := by omega
  rw [shape, readBytes_append, readBytes_append,
    readBytes_writeBytes_disjoint _ _ _ _ _ (Or.inl (Nat.le_refl _)), readBytes_writeBytes,
    readBytes_writeBytes_disjoint _ _ _ _ _ (Or.inr (Nat.le_refl _)), readBytes_take,
    readBytes_drop, Nat.min_eq_left start, List.append_assoc, Nat.add_assoc]

/-! ### Little-endian 32-bit integers -/

def encodeInt32 (value : Int) : List UInt8 :=
  let word := (value % 4294967296).toNat
  [UInt8.ofNat word, UInt8.ofNat (word / 256), UInt8.ofNat (word / 65536),
    UInt8.ofNat (word / 16777216)]

def readInt32 (memory : ByteMemory) (address : Nat) : Int :=
  let word := (memory address).toNat + 256 * (memory (address + 1)).toNat +
    65536 * (memory (address + 2)).toNat + 16777216 * (memory (address + 3)).toNat
  if word < 2147483648 then (word : Int) else (word : Int) - 4294967296

theorem encodeInt32_length (value : Int) : (encodeInt32 value).length = 4 := rfl

theorem readInt32_congr {memory memory' : ByteMemory} {address : Nat}
    (same : ∀ position, address ≤ position → position < address + 4 →
      memory position = memory' position) :
    memory.readInt32 address = memory'.readInt32 address := by
  unfold readInt32
  rw [same address (by omega) (by omega), same (address + 1) (by omega) (by omega),
    same (address + 2) (by omega) (by omega), same (address + 3) (by omega) (by omega)]

theorem readInt32_writeBytes_disjoint (memory : ByteMemory) (address target : Nat)
    (bytes : List UInt8)
    (disjoint : address + 4 ≤ target ∨ target + bytes.length ≤ address) :
    (memory.writeBytes target bytes).readInt32 address = memory.readInt32 address := by
  apply readInt32_congr
  intro position lower upper
  apply writeBytes_outside
  omega

theorem readInt32_writeBytes (memory : ByteMemory) (address : Nat) (value : Int)
    (lower : -2147483648 ≤ value) (upper : value < 2147483648) :
    (memory.writeBytes address (encodeInt32 value)).readInt32 address = value := by
  have byte (offset : Nat) (inside : offset < (encodeInt32 value).length) :
      memory.writeBytes address (encodeInt32 value) (address + offset) =
        (encodeInt32 value)[offset] :=
    writeBytes_inside memory address offset (encodeInt32 value) inside
  have first := byte 0 (by rw [encodeInt32_length]; omega)
  have second := byte 1 (by rw [encodeInt32_length]; omega)
  have third := byte 2 (by rw [encodeInt32_length]; omega)
  have fourth := byte 3 (by rw [encodeInt32_length]; omega)
  simp only [Nat.add_zero] at first
  unfold readInt32
  rw [first, second, third, fourth]
  simp only [encodeInt32, List.getElem_cons_zero, List.getElem_cons_succ, UInt8.toNat_ofNat']
  split <;> omega

/-! ### NUL-terminated strings -/

/-- `strcmp(memory + address, text) == 0` for the terminated string `text`. -/
def strcmpEqual (memory : ByteMemory) : Nat → List UInt8 → Bool
  | address, [] => memory address == 0
  | address, byte :: rest => memory address == byte && strcmpEqual memory (address + 1) rest

/-- `strncmp(memory + address, text, limit) == 0` for the terminated string `text`. -/
def strncmpEqual (memory : ByteMemory) : Nat → List UInt8 → Nat → Bool
  | _, _, 0 => true
  | address, [], _ + 1 => memory address == 0
  | address, byte :: rest, limit + 1 =>
      memory address == byte && strncmpEqual memory (address + 1) rest limit

theorem strcmpEqual_iff (memory : ByteMemory) (address : Nat) (text : List UInt8) :
    memory.strcmpEqual address text = true ↔
      memory.readBytes address (text.length + 1) = text ++ [0] := by
  induction text generalizing address with
  | nil => simp [strcmpEqual, readBytes_succ, readBytes_zero]
  | cons byte rest ih =>
      rw [strcmpEqual, List.length_cons, readBytes_succ, Bool.and_eq_true, ih, beq_iff_eq]
      simp

/-- A limit past the terminator never cuts the comparison short. -/
theorem strncmpEqual_eq_strcmpEqual (memory : ByteMemory) (address limit : Nat)
    (text : List UInt8) (short : text.length < limit) :
    memory.strncmpEqual address text limit = memory.strcmpEqual address text := by
  induction text generalizing address limit with
  | nil =>
      cases limit with
      | zero => cases short
      | succ limit => rfl
  | cons byte rest ih =>
      cases limit with
      | zero => cases short
      | succ limit =>
          rw [List.length_cons] at short
          rw [strncmpEqual, strcmpEqual, ih _ _ (by omega)]

/-- The bytes before the first NUL, when it stands within `limit` bytes. -/
def scanString (memory : ByteMemory) : Nat → Nat → Option (List UInt8)
  | _, 0 => none
  | address, limit + 1 =>
      if memory address = 0 then some []
      else (scanString memory (address + 1) limit).map (memory address :: ·)

theorem scanString_noNul (memory : ByteMemory) (address limit : Nat) (text : List UInt8)
    (found : memory.scanString address limit = some text) : (0 : UInt8) ∉ text := by
  induction limit generalizing address text with
  | zero => cases found
  | succ limit ih =>
      rw [scanString] at found
      by_cases stop : memory address = 0
      · rw [if_pos stop] at found
        cases found
        exact List.not_mem_nil
      · rw [if_neg stop, Option.map_eq_some_iff] at found
        obtain ⟨rest, restFound, same⟩ := found
        subst same
        rw [List.mem_cons, not_or]
        exact ⟨fun equal => stop equal.symm, ih _ _ restFound⟩

theorem scanString_eq_of_readBytes (memory : ByteMemory) (address limit : Nat)
    (text : List UInt8) (noNul : (0 : UInt8) ∉ text) (inside : text.length < limit)
    (stored : memory.readBytes address (text.length + 1) = text ++ [0]) :
    memory.scanString address limit = some text := by
  induction text generalizing address limit with
  | nil =>
      cases limit with
      | zero => cases inside
      | succ limit =>
          simp only [List.length_nil, readBytes_succ, readBytes_zero, List.nil_append,
            List.cons.injEq, and_true] at stored
          rw [scanString, if_pos stored]
  | cons byte rest ih =>
      cases limit with
      | zero => cases inside
      | succ limit =>
          rw [List.mem_cons, not_or] at noNul
          rw [List.length_cons, readBytes_succ, List.cons_append, List.cons.injEq] at stored
          rw [List.length_cons] at inside
          rw [scanString, stored.1, if_neg (fun equal => noNul.1 equal.symm),
            ih (address + 1) limit noNul.2 (by omega) stored.2, Option.map_some]

theorem scanString_congr {memory memory' : ByteMemory} {address : Nat} (limit : Nat)
    (same : ∀ position, address ≤ position → memory' position = memory position) :
    memory'.scanString address limit = memory.scanString address limit := by
  induction limit generalizing address with
  | zero => rfl
  | succ limit ih =>
      rw [scanString, scanString, same address (Nat.le_refl address),
        ih (fun position past => same position (by omega))]

theorem scanString_stored (memory : ByteMemory) (address limit : Nat) (text : List UInt8)
    (found : memory.scanString address limit = some text) :
    text.length < limit ∧ memory.readBytes address (text.length + 1) = text ++ [0] := by
  induction limit generalizing address text with
  | zero => cases found
  | succ limit ih =>
      rw [scanString] at found
      by_cases stop : memory address = 0
      · rw [if_pos stop] at found
        cases found
        refine ⟨Nat.zero_lt_succ limit, ?_⟩
        rw [List.length_nil, readBytes_succ, readBytes_zero, stop, List.nil_append]
      · rw [if_neg stop, Option.map_eq_some_iff] at found
        obtain ⟨rest, restFound, same⟩ := found
        subst same
        obtain ⟨inside, stored⟩ := ih _ _ restFound
        refine ⟨by rw [List.length_cons]; omega, ?_⟩
        rw [List.length_cons, readBytes_succ, stored, List.cons_append]

end ByteMemory

/-- A string as C passes it: its bytes before the terminator. -/
structure CString where
  bytes : List UInt8
  noNul : (0 : UInt8) ∉ bytes
deriving DecidableEq

namespace CString

theorem ext_bytes {left right : CString} (same : left.bytes = right.bytes) : left = right := by
  cases left
  cases right
  cases same
  rfl

/-- `strlen` -/
def strlen (text : CString) : Nat := text.bytes.length

/-- The string behind a pointer moved one byte forward. -/
def tail (text : CString) : CString :=
  { bytes := text.bytes.tail
    noNul := fun member => text.noNul (List.mem_of_mem_tail member) }

/-- The string stored at an address, when it ends before `limit` bytes. -/
def ofMemory (memory : ByteMemory) (address limit : Nat) : Option CString :=
  match found : memory.scanString address limit with
  | some text => some ⟨text, ByteMemory.scanString_noNul memory address limit text found⟩
  | none => none

theorem ofMemory_eq_of_readBytes (memory : ByteMemory) (address limit : Nat) (text : CString)
    (inside : text.strlen < limit)
    (stored : memory.readBytes address (text.strlen + 1) = text.bytes ++ [0]) :
    ofMemory memory address limit = some text := by
  have found := ByteMemory.scanString_eq_of_readBytes memory address limit text.bytes text.noNul
    inside stored
  unfold ofMemory
  split
  · rename_i scanned same
    rw [found] at same
    cases same
    rfl
  · rename_i missing
    rw [found] at missing
    cases missing

theorem ofMemory_bytes (memory : ByteMemory) (address limit : Nat) :
    (ofMemory memory address limit).map bytes = memory.scanString address limit := by
  unfold ofMemory
  split
  · rename_i text found
    exact found.symm
  · rename_i missing
    exact missing.symm

theorem ofMemory_congr {memory memory' : ByteMemory} {address : Nat} (limit : Nat)
    (same : ∀ position, address ≤ position → memory' position = memory position) :
    ofMemory memory' address limit = ofMemory memory address limit := by
  apply Option.map_injective (fun _ _ => ext_bytes)
  rw [ofMemory_bytes, ofMemory_bytes, ByteMemory.scanString_congr limit same]

theorem stored_of_ofMemory {memory : ByteMemory} {address limit : Nat} {text : CString}
    (found : ofMemory memory address limit = some text) :
    text.strlen < limit ∧ memory.readBytes address (text.strlen + 1) = text.bytes ++ [0] := by
  unfold ofMemory at found
  split at found
  · rename_i scanned same
    cases found
    exact ByteMemory.scanString_stored memory address limit scanned same
  · cases found

/-- Two strings stored with their terminators at one address are the same string. -/
theorem eq_of_terminated {left right : CString} {memory : ByteMemory} {address : Nat}
    (leftStored : memory.readBytes address (left.strlen + 1) = left.bytes ++ [0])
    (rightStored : memory.readBytes address (right.strlen + 1) = right.bytes ++ [0]) :
    left = right := by
  have first := ByteMemory.scanString_eq_of_readBytes memory address
    (left.strlen + right.strlen + 1) left.bytes left.noNul (by unfold strlen; omega) leftStored
  have second := ByteMemory.scanString_eq_of_readBytes memory address
    (left.strlen + right.strlen + 1) right.bytes right.noNul (by unfold strlen; omega) rightStored
  rw [first] at second
  exact ext_bytes (Option.some.inj second)

end CString
