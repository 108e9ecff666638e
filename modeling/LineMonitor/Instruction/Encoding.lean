import LineMonitor.Address
import LineMonitor.Instruction.Mnemonic
import LineMonitor.Instruction.Mode

/-!
# Instruction encodings

The legal combinations of an instruction and an addressing mode, each with its
opcode.  No two of them share the instruction and the mode, and no two share the
opcode, so the table is searched from either side: `Encoding.find?` serves the
assembler and `Encoding.ofOpcode?` the listing.
-/

namespace LineMonitor

/-- A legal combination of an instruction and a mode, with its opcode. -/
structure Encoding where
  mnemonic : Mnemonic
  mode : Mode
  opcode : Byte
  deriving DecidableEq, Repr

namespace Encoding

/-- The length of the instruction in bytes: the opcode and its operand. -/
def length (e : Encoding) : Nat :=
  1 + e.mode.operandLength

/-- The legal combinations, instruction by instruction. -/
def all : List Encoding :=
  [
    ⟨.lda, .immediate, 0xA9⟩,
    ⟨.lda, .zeroPage, 0xA5⟩,
    ⟨.lda, .zeroPageX, 0xB5⟩,
    ⟨.lda, .absolute, 0xAD⟩,
    ⟨.lda, .absoluteX, 0xBD⟩,
    ⟨.lda, .absoluteY, 0xB9⟩,
    ⟨.lda, .indexedIndirect, 0xA1⟩,
    ⟨.lda, .indirectIndexed, 0xB1⟩,
    ⟨.ldx, .immediate, 0xA2⟩,
    ⟨.ldx, .zeroPage, 0xA6⟩,
    ⟨.ldx, .zeroPageY, 0xB6⟩,
    ⟨.ldx, .absolute, 0xAE⟩,
    ⟨.ldx, .absoluteY, 0xBE⟩,
    ⟨.ldy, .immediate, 0xA0⟩,
    ⟨.ldy, .zeroPage, 0xA4⟩,
    ⟨.ldy, .zeroPageX, 0xB4⟩,
    ⟨.ldy, .absolute, 0xAC⟩,
    ⟨.ldy, .absoluteX, 0xBC⟩,
    ⟨.sta, .zeroPage, 0x85⟩,
    ⟨.sta, .zeroPageX, 0x95⟩,
    ⟨.sta, .absolute, 0x8D⟩,
    ⟨.sta, .absoluteX, 0x9D⟩,
    ⟨.sta, .absoluteY, 0x99⟩,
    ⟨.sta, .indexedIndirect, 0x81⟩,
    ⟨.sta, .indirectIndexed, 0x91⟩,
    ⟨.stx, .zeroPage, 0x86⟩,
    ⟨.stx, .zeroPageY, 0x96⟩,
    ⟨.stx, .absolute, 0x8E⟩,
    ⟨.sty, .zeroPage, 0x84⟩,
    ⟨.sty, .zeroPageX, 0x94⟩,
    ⟨.sty, .absolute, 0x8C⟩,
    ⟨.adc, .immediate, 0x69⟩,
    ⟨.adc, .zeroPage, 0x65⟩,
    ⟨.adc, .zeroPageX, 0x75⟩,
    ⟨.adc, .absolute, 0x6D⟩,
    ⟨.adc, .absoluteX, 0x7D⟩,
    ⟨.adc, .absoluteY, 0x79⟩,
    ⟨.adc, .indexedIndirect, 0x61⟩,
    ⟨.adc, .indirectIndexed, 0x71⟩,
    ⟨.sbc, .immediate, 0xE9⟩,
    ⟨.sbc, .zeroPage, 0xE5⟩,
    ⟨.sbc, .zeroPageX, 0xF5⟩,
    ⟨.sbc, .absolute, 0xED⟩,
    ⟨.sbc, .absoluteX, 0xFD⟩,
    ⟨.sbc, .absoluteY, 0xF9⟩,
    ⟨.sbc, .indexedIndirect, 0xE1⟩,
    ⟨.sbc, .indirectIndexed, 0xF1⟩,
    ⟨.and, .immediate, 0x29⟩,
    ⟨.and, .zeroPage, 0x25⟩,
    ⟨.and, .zeroPageX, 0x35⟩,
    ⟨.and, .absolute, 0x2D⟩,
    ⟨.and, .absoluteX, 0x3D⟩,
    ⟨.and, .absoluteY, 0x39⟩,
    ⟨.and, .indexedIndirect, 0x21⟩,
    ⟨.and, .indirectIndexed, 0x31⟩,
    ⟨.ora, .immediate, 0x09⟩,
    ⟨.ora, .zeroPage, 0x05⟩,
    ⟨.ora, .zeroPageX, 0x15⟩,
    ⟨.ora, .absolute, 0x0D⟩,
    ⟨.ora, .absoluteX, 0x1D⟩,
    ⟨.ora, .absoluteY, 0x19⟩,
    ⟨.ora, .indexedIndirect, 0x01⟩,
    ⟨.ora, .indirectIndexed, 0x11⟩,
    ⟨.eor, .immediate, 0x49⟩,
    ⟨.eor, .zeroPage, 0x45⟩,
    ⟨.eor, .zeroPageX, 0x55⟩,
    ⟨.eor, .absolute, 0x4D⟩,
    ⟨.eor, .absoluteX, 0x5D⟩,
    ⟨.eor, .absoluteY, 0x59⟩,
    ⟨.eor, .indexedIndirect, 0x41⟩,
    ⟨.eor, .indirectIndexed, 0x51⟩,
    ⟨.bit, .zeroPage, 0x24⟩,
    ⟨.bit, .absolute, 0x2C⟩,
    ⟨.cmp, .immediate, 0xC9⟩,
    ⟨.cmp, .zeroPage, 0xC5⟩,
    ⟨.cmp, .zeroPageX, 0xD5⟩,
    ⟨.cmp, .absolute, 0xCD⟩,
    ⟨.cmp, .absoluteX, 0xDD⟩,
    ⟨.cmp, .absoluteY, 0xD9⟩,
    ⟨.cmp, .indexedIndirect, 0xC1⟩,
    ⟨.cmp, .indirectIndexed, 0xD1⟩,
    ⟨.cpx, .immediate, 0xE0⟩,
    ⟨.cpx, .zeroPage, 0xE4⟩,
    ⟨.cpx, .absolute, 0xEC⟩,
    ⟨.cpy, .immediate, 0xC0⟩,
    ⟨.cpy, .zeroPage, 0xC4⟩,
    ⟨.cpy, .absolute, 0xCC⟩,
    ⟨.inc, .zeroPage, 0xE6⟩,
    ⟨.inc, .zeroPageX, 0xF6⟩,
    ⟨.inc, .absolute, 0xEE⟩,
    ⟨.inc, .absoluteX, 0xFE⟩,
    ⟨.dec, .zeroPage, 0xC6⟩,
    ⟨.dec, .zeroPageX, 0xD6⟩,
    ⟨.dec, .absolute, 0xCE⟩,
    ⟨.dec, .absoluteX, 0xDE⟩,
    ⟨.asl, .accumulator, 0x0A⟩,
    ⟨.asl, .zeroPage, 0x06⟩,
    ⟨.asl, .zeroPageX, 0x16⟩,
    ⟨.asl, .absolute, 0x0E⟩,
    ⟨.asl, .absoluteX, 0x1E⟩,
    ⟨.lsr, .accumulator, 0x4A⟩,
    ⟨.lsr, .zeroPage, 0x46⟩,
    ⟨.lsr, .zeroPageX, 0x56⟩,
    ⟨.lsr, .absolute, 0x4E⟩,
    ⟨.lsr, .absoluteX, 0x5E⟩,
    ⟨.rol, .accumulator, 0x2A⟩,
    ⟨.rol, .zeroPage, 0x26⟩,
    ⟨.rol, .zeroPageX, 0x36⟩,
    ⟨.rol, .absolute, 0x2E⟩,
    ⟨.rol, .absoluteX, 0x3E⟩,
    ⟨.ror, .accumulator, 0x6A⟩,
    ⟨.ror, .zeroPage, 0x66⟩,
    ⟨.ror, .zeroPageX, 0x76⟩,
    ⟨.ror, .absolute, 0x6E⟩,
    ⟨.ror, .absoluteX, 0x7E⟩,
    ⟨.bpl, .relative, 0x10⟩,
    ⟨.bmi, .relative, 0x30⟩,
    ⟨.bvc, .relative, 0x50⟩,
    ⟨.bvs, .relative, 0x70⟩,
    ⟨.bcc, .relative, 0x90⟩,
    ⟨.bcs, .relative, 0xB0⟩,
    ⟨.bne, .relative, 0xD0⟩,
    ⟨.beq, .relative, 0xF0⟩,
    ⟨.jmp, .absolute, 0x4C⟩,
    ⟨.jmp, .indirect, 0x6C⟩,
    ⟨.jsr, .absolute, 0x20⟩,
    ⟨.brk, .implicit, 0x00⟩,
    ⟨.rti, .implicit, 0x40⟩,
    ⟨.rts, .implicit, 0x60⟩,
    ⟨.nop, .implicit, 0xEA⟩,
    ⟨.php, .implicit, 0x08⟩,
    ⟨.plp, .implicit, 0x28⟩,
    ⟨.pha, .implicit, 0x48⟩,
    ⟨.pla, .implicit, 0x68⟩,
    ⟨.clc, .implicit, 0x18⟩,
    ⟨.sec, .implicit, 0x38⟩,
    ⟨.cli, .implicit, 0x58⟩,
    ⟨.sei, .implicit, 0x78⟩,
    ⟨.clv, .implicit, 0xB8⟩,
    ⟨.cld, .implicit, 0xD8⟩,
    ⟨.sed, .implicit, 0xF8⟩,
    ⟨.txa, .implicit, 0x8A⟩,
    ⟨.txs, .implicit, 0x9A⟩,
    ⟨.tya, .implicit, 0x98⟩,
    ⟨.tay, .implicit, 0xA8⟩,
    ⟨.tax, .implicit, 0xAA⟩,
    ⟨.tsx, .implicit, 0xBA⟩,
    ⟨.dey, .implicit, 0x88⟩,
    ⟨.iny, .implicit, 0xC8⟩,
    ⟨.dex, .implicit, 0xCA⟩,
    ⟨.inx, .implicit, 0xE8⟩]

/-- The encoding of an instruction in a mode, if the combination is legal. -/
def find? (mnemonic : Mnemonic) (mode : Mode) : Option Encoding :=
  all.find? fun e => e.mnemonic == mnemonic && e.mode == mode

/-- The encoding an opcode stands for, if it stands for one. -/
def ofOpcode? (opcode : Byte) : Option Encoding :=
  all.find? (·.opcode == opcode)

/-- The encoding with its opcode, as a diagnostic. -/
def text (e : Encoding) : String :=
  "OpcodeEntry(" ++ e.mnemonic.name ++ " " ++ e.mode.name ++ ", opcode=$" ++
    Hex.ofByte e.opcode ++ ", length=" ++ toString e.length ++ ")"

/-- An opcode determines its encoding. -/
theorem ofOpcode?_opcode {e : Encoding} (h : e ∈ all) : ofOpcode? e.opcode = some e := by
  revert e
  decide +kernel

/-- An instruction and a mode determine their encoding. -/
theorem find?_of_mem {e : Encoding} (h : e ∈ all) : find? e.mnemonic e.mode = some e := by
  revert e
  decide +kernel

theorem mem_of_ofOpcode? {opcode : Byte} {e : Encoding} (h : ofOpcode? opcode = some e) :
    e ∈ all :=
  List.mem_of_find?_eq_some h

theorem opcode_of_ofOpcode? {opcode : Byte} {e : Encoding} (h : ofOpcode? opcode = some e) :
    e.opcode = opcode := by
  simpa using List.find?_some h

end Encoding

namespace Mnemonic

/-- The modes an instruction can be used in. -/
def modes (m : Mnemonic) : List Mode :=
  Mode.all.filter fun mode => (Encoding.find? m mode).isSome

/-- Whether an instruction never takes an operand. -/
def takesNoOperand (m : Mnemonic) : Bool :=
  m.modes == [.implicit]

/-- Whether an instruction is a conditional branch. -/
def branches (m : Mnemonic) : Bool :=
  m.modes.contains .relative

end Mnemonic

end LineMonitor
