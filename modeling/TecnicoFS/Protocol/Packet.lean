/-
Packets and pipes of `protocol.c`.

A pipe is the list of the bytes written to it and not yet read.  Whole packets arrive, so
a read finds everything it asks for, or less because nothing more is coming.
-/

import TecnicoFS.FileSystem.State
import TecnicoFS.Library.CharArray

set_option autoImplicit false

namespace TecnicoFS.Protocol

open FileSystem

def clientNamedPipeMaxLen : Nat := 256

def boxNameMaxLen : Nat := 32

def protocolCodeListAnswer : UInt8 := 8

/-- `PIPE_BUF` -/
def pipeBufferMaxLen : Nat := 4096

/-- `pipe_read`: what it returns, the bytes read and the rest of the pipe -/
def pipeRead (pipe : List UInt8) (bufLen : Nat) : Int × List UInt8 × List UInt8 :=
  let bytes := pipe.take bufLen
  if bytes.length ≠ 0 ∧ bytes.length ≠ bufLen then
    (-1, bytes, pipe.drop bufLen)
  else
    (bytes.length, bytes, pipe.drop bufLen)

/-- A pipe that starts with enough bytes -/
theorem pipeRead_whole {bytes rest : List UInt8} {bufLen : Nat} (whole : bytes.length = bufLen) :
    pipeRead (bytes ++ rest) bufLen = ((bufLen : Int), bytes, rest) := by
  subst whole
  unfold pipeRead
  rw [List.take_left' rfl, List.drop_left' rfl, if_neg (fun both => both.2 rfl)]

theorem pipeRead_nil (bufLen : Nat) : pipeRead [] bufLen = (0, [], []) := by
  unfold pipeRead
  rw [List.take_nil, List.drop_nil, if_neg (fun both => both.1 rfl)]
  rfl

/-- A read takes as many bytes as there are, up to what it asks for. -/
theorem pipeRead_bytes (pipe : List UInt8) (bufLen : Nat) :
    ∃ bytesRead, pipeRead pipe bufLen = (bytesRead, pipe.take bufLen, pipe.drop bufLen) := by
  by_cases part : (pipe.take bufLen).length ≠ 0 ∧ (pipe.take bufLen).length ≠ bufLen
  · exact ⟨-1, if_pos part⟩
  · exact ⟨(pipe.take bufLen).length, if_neg part⟩

/-- `pipe_read` into an array, when it returns a positive number -/
def readArray (pipe : List UInt8) (size : Nat) : Option (CharArray size × List UInt8) :=
  let (bytesRead, bytes, rest) := pipeRead pipe size
  if bytesRead ≤ 0 then
    none
  else if whole : bytes.length = size then
    some (⟨bytes, whole⟩, rest)
  else
    none

theorem readArray_whole {bytes rest : List UInt8} {size : Nat} (positive : 0 < size)
    (whole : bytes.length = size) :
    readArray (bytes ++ rest) size = some (⟨bytes, whole⟩, rest) := by
  unfold readArray
  simp only [pipeRead_whole whole]
  rw [if_neg (by omega), dif_pos whole]

/-- A packet with the offset of what is written next -/
structure Packet (length : Nat) where
  array : CharArray length
  offset : Nat

def Packet.empty (length : Nat) : Packet length where
  array := .zeroed length
  offset := 0

/-- `packet_write` -/
def Packet.write {length : Nat} (packet : Packet length) (data : List UInt8) :
    Except Fault (Packet length) :=
  match packet.array.memcpy packet.offset data with
  | some array => .ok { array := array, offset := packet.offset + data.length }
  | none => .error .undefined

/-- What was written stands in front of the bytes that are still zero. -/
structure Packet.Holds {length : Nat} (packet : Packet length) (written : List UInt8) : Prop where
  offset : packet.offset = written.length
  bytes : packet.array.bytes = written ++ List.replicate (length - written.length) 0

variable {length : Nat} {packet : Packet length} {written : List UInt8}

theorem Packet.empty_holds (length : Nat) : (Packet.empty length).Holds [] := by
  constructor
  · rfl
  · rfl

/-- A packet with room takes what is written next. -/
theorem Packet.Holds.write (holds : packet.Holds written) (data : List UInt8)
    (room : written.length + data.length ≤ length) :
    ∃ packet', packet.write data = .ok packet' ∧ packet'.Holds (written ++ data) := by
  have fits : packet.offset + data.length ≤ length := by
    rw [holds.offset]
    exact room
  obtain ⟨array, copied, bytes⟩ := packet.array.memcpy_eq_some fits
  refine ⟨{ array := array, offset := packet.offset + data.length }, ?_, ?_, ?_⟩
  · unfold Packet.write
    rw [copied]
  · change packet.offset + data.length = _
    rw [holds.offset, List.length_append]
  · change array.bytes = _
    rw [bytes, holds.bytes, holds.offset, List.take_left' rfl, List.append_assoc,
      List.length_append, ← List.drop_drop, List.drop_left' rfl, List.drop_replicate,
      Nat.sub_sub]

end TecnicoFS.Protocol
