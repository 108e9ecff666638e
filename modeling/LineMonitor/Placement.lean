import LineMonitor.Event
import LineMonitor.Memory

/-!
# Verified writing

An instruction is written to memory byte by byte; then its bytes are read back in
the same order until one differs.  `Memory.put` keeps the accesses it makes, so that
the order of writes and reads is part of its result.
-/

namespace LineMonitor

/-- The bytes of an instruction at their address. -/
structure Placement where
  address : Address
  data : List Byte
  deriving DecidableEq, Repr

namespace Placement

/-- The address after the instruction. -/
def next (e : Placement) : Address :=
  e.address.after e.data.length

/-- The bytes as pairs of digits. -/
def hex (e : Placement) : String :=
  Hex.ofBytes e.data

end Placement

/-- An access to memory, in the moment it is made. -/
inductive Access where
  | write (address : Address) (value : Byte)
  | read (address : Address) (value : Byte)
  deriving DecidableEq, Repr

/-- An access as a letter, an address and a byte. -/
def Access.text : Access → String
  | write address value => "W " ++ Hex.ofAddress address ++ " " ++ Hex.ofByte value
  | read address value => "R " ++ Hex.ofAddress address ++ " " ++ Hex.ofByte value

/-- A byte that memory did not keep. -/
structure Mismatch where
  address : Address
  expected : Byte
  actual : Byte
  deriving DecidableEq, Repr

/-- The fault of a byte that memory did not keep. -/
def Mismatch.fault (x : Mismatch) : Fault :=
  .notKept x.address.toNat x.expected.toNat x.actual.toNat

/-- An attempt to write an instruction. -/
structure Attempt where
  memory : Memory
  accesses : List Access
  events : List Event
  result : Except Mismatch Placement

namespace Memory

/-- The memory after writing bytes from an address on. -/
def writeAll (m : Memory) (a : Address) : List Byte → Memory
  | [] => m
  | value :: rest => writeAll (m.write a value) (a.after 1) rest

/-- The writes of bytes from an address on. -/
def writes (a : Address) : List Byte → List Access
  | [] => []
  | value :: rest => .write a value :: writes (a.after 1) rest

/-- The events of those writes that a memory ignores. -/
def ignoredWrites (m : Memory) (a : Address) : List Byte → List Event
  | [] => []
  | value :: rest =>
    if m.isWritable a then ignoredWrites m (a.after 1) rest
    else .ignoredWrite value a :: ignoredWrites m (a.after 1) rest

/-- The first byte of `data` that memory does not hold from an address on. -/
def mismatch? (m : Memory) (a : Address) : List Byte → Option Mismatch
  | [] => none
  | expected :: rest =>
    if m.read a = expected then mismatch? m (a.after 1) rest
    else some ⟨a, expected, m.read a⟩

/-- The reads that look for the first byte that memory does not hold. -/
def verifyingReads (m : Memory) (a : Address) : List Byte → List Access
  | [] => []
  | expected :: rest =>
    .read a (m.read a) ::
      (if m.read a = expected then verifyingReads m (a.after 1) rest else [])

/-- Writes an instruction and reads it back. -/
def put (m : Memory) (a : Address) (opcode : Byte) (operand : List Byte) : Attempt :=
  let data := opcode :: operand
  let ignored := m.ignoredWrites a data
  let written := m.writeAll a data
  let accesses := writes a data ++ written.verifyingReads a data
  match written.mismatch? a data with
  | some x =>
    { memory := written
      accesses
      events := ignored ++ [.notKept x.address x.expected x.actual]
      result := .error x }
  | none =>
    { memory := written
      accesses
      events := ignored ++ [.emitted data a]
      result := .ok ⟨a, data⟩ }

end Memory

end LineMonitor
