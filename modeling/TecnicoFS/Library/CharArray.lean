/-
Arrays of bytes of a fixed size, as C functions write and read them.

A copy that would leave the array has no result, and so has a string function on bytes
that no NUL ends.
-/

import Mathlib.Data.List.TakeWhile
import TecnicoFS.Library.ByteMemory

set_option autoImplicit false

/-- `char array[size]` -/
structure CharArray (size : Nat) where
  bytes : List UInt8
  length_eq : bytes.length = size
deriving DecidableEq

namespace CharArray

variable {size : Nat}

theorem ext_bytes {left right : CharArray size} (same : left.bytes = right.bytes) :
    left = right := by
  cases left
  cases right
  cases same
  rfl

/-- `memset(array, 0, size)` -/
def zeroed (size : Nat) : CharArray size where
  bytes := List.replicate size 0
  length_eq := List.length_replicate

/-- `memcpy(array + offset, data, length of data)` -/
def memcpy (array : CharArray size) (offset : Nat) (data : List UInt8) : Option (CharArray size) :=
  if inside : offset + data.length ≤ size then
    some
      { bytes := array.bytes.take offset ++ (data ++ array.bytes.drop (offset + data.length))
        length_eq := by
          have whole := array.length_eq
          rw [List.length_append, List.length_append, List.length_take, List.length_drop]
          omega }
  else
    none

/-- The string that starts with the array -/
def string? (array : CharArray size) : Option CString :=
  if (0 : UInt8) ∈ array.bytes then
    some
      { bytes := array.bytes.takeWhile (fun byte => byte != 0)
        noNul := by
          intro member
          have passes := List.mem_takeWhile_imp member
          simp at passes }
  else
    none

/-- `strcpy(array + offset, source)` -/
def strcpy {length : Nat} (array : CharArray size) (offset : Nat) (source : CharArray length) :
    Option (CharArray size) :=
  source.string?.bind (fun text => array.memcpy offset (text.bytes ++ [0]))

theorem string?_eq_some {array : CharArray size} {text : CString} {rest : List UInt8}
    (stored : array.bytes = text.bytes ++ 0 :: rest) : array.string? = some text := by
  have ended : (0 : UInt8) ∈ array.bytes := by
    rw [stored]
    exact List.mem_append_right _ List.mem_cons_self
  have scanned : array.bytes.takeWhile (fun byte => byte != 0) = text.bytes := by
    rw [stored, List.takeWhile_append_of_pos]
    · simp
    · intro byte member
      have different : byte ≠ 0 := by
        intro zero
        rw [zero] at member
        exact text.noNul member
      simp [different]
  unfold string?
  rw [if_pos ended, Option.some.injEq]
  exact CString.ext_bytes scanned

/-- What stands behind the string of an array -/
theorem string?_stored {array : CharArray size} {text : CString}
    (found : array.string? = some text) : ∃ rest, array.bytes = text.bytes ++ 0 :: rest := by
  unfold string? at found
  by_cases ended : (0 : UInt8) ∈ array.bytes
  · rw [if_pos ended, Option.some.injEq] at found
    subst found
    have split := List.takeWhile_append_dropWhile (p := fun byte : UInt8 => byte != 0)
      (l := array.bytes)
    cases dropped : array.bytes.dropWhile (fun byte => byte != 0) with
    | nil =>
        rw [List.dropWhile_eq_nil_iff] at dropped
        have impossible := dropped 0 ended
        simp at impossible
    | cons byte rest =>
        have stops := List.head?_dropWhile_not (fun byte : UInt8 => byte != 0) array.bytes
        rw [dropped] at split stops
        simp at stops
        rw [stops] at split
        exact ⟨rest, split.symm⟩
  · rw [if_neg ended] at found
    cases found

/-- The string of an array is shorter than the array. -/
theorem string?_strlen {array : CharArray size} {text : CString}
    (found : array.string? = some text) : text.strlen < size := by
  obtain ⟨rest, stored⟩ := string?_stored found
  have whole := array.length_eq
  rw [stored, List.length_append, List.length_cons] at whole
  unfold CString.strlen
  omega

variable {length offset : Nat} {source : CharArray length} {text : CString}

theorem memcpy_eq_some (array : CharArray size) {data : List UInt8}
    (inside : offset + data.length ≤ size) :
    ∃ written, array.memcpy offset data = some written ∧
      written.bytes = array.bytes.take offset ++ (data ++ array.bytes.drop (offset + data.length)) := by
  unfold memcpy
  rw [dif_pos inside]
  exact ⟨_, rfl, rfl⟩

theorem memcpy_eq_none (array : CharArray size) {data : List UInt8}
    (outside : ¬ offset + data.length ≤ size) : array.memcpy offset data = none := by
  unfold memcpy
  rw [dif_neg outside]

/-- A string that fits behind the offset is copied with its end. -/
theorem strcpy_eq_some (array : CharArray size) (found : source.string? = some text)
    (inside : offset + text.strlen < size) :
    ∃ written, array.strcpy offset source = some written ∧
      ∃ rest, written.bytes = array.bytes.take offset ++ (text.bytes ++ 0 :: rest) := by
  have fits : offset + (text.bytes ++ [0]).length ≤ size := by
    rw [List.length_append]
    exact inside
  obtain ⟨written, copied, bytes⟩ := array.memcpy_eq_some fits
  have terminated : written.bytes = array.bytes.take offset ++ (text.bytes ++
      0 :: array.bytes.drop (offset + (text.bytes ++ [0]).length)) := by
    rw [bytes, List.append_assoc]
    rfl
  refine ⟨written, ?_, _, terminated⟩
  unfold strcpy
  rw [found]
  exact copied

/-- A string that does not fit is copied past the end of the array. -/
theorem strcpy_eq_none (array : CharArray size) (found : source.string? = some text)
    (outside : size ≤ offset + text.strlen) : array.strcpy offset source = none := by
  unfold strcpy
  rw [found]
  apply memcpy_eq_none
  rw [List.length_append]
  change ¬ offset + (text.strlen + 1) ≤ size
  omega

end CharArray
