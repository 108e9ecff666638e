import LineMonitor.Address
import LineMonitor.Operand

/-!
# Operands as bytes

An operand is encoded in the bytes behind the opcode: numbers with the low byte
first, and the target of a branch as its distance from the next instruction in one
signed byte.
-/

namespace LineMonitor

/-- The distance of a branch at `address` to `target`, counted from the instruction
after it; distances are taken modulo 65536, between -32768 and 32767. -/
def branchDistance (target address length : Int) : Int :=
  (target - (address + length)).bmod 65536

/-- The distance of a branch if it fits one signed byte. -/
def branchOffset (target address length : Int) : Except Fault Int :=
  let offset := branchDistance target address length
  if -128 ≤ offset ∧ offset ≤ 127 then .ok offset
  else .error ⟨.branchOutOfReach target offset, some address⟩

namespace Operand

/-- The bytes of an operand behind the opcode at `address`, in an instruction of
`length` bytes. -/
def encode (o : Operand) (address length : Int) : Except Fault (List Byte) :=
  match o.mode with
  | .relative => (branchOffset o.value address length).map fun offset => [Byte.ofInt offset]
  | mode =>
    match mode.operandLength with
    | 0 => .ok []
    | 1 => .ok [Byte.ofInt o.value]
    | _ => .ok [Byte.ofInt o.value, Byte.ofInt (o.value / 256)]

end Operand

end LineMonitor
