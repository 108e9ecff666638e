/-!
# Mnemonics

The 56 instructions of the processor, each named by a mnemonic of three capital
letters.  `Mnemonic.all` lists them in alphabetical order and `Mnemonic.ofName?`
finds the instruction a name stands for.
-/

namespace LineMonitor

/-- An instruction of the processor. -/
inductive Mnemonic where
  | adc | and | asl | bcc | bcs | beq | bit | bmi
  | bne | bpl | brk | bvc | bvs | clc | cld | cli
  | clv | cmp | cpx | cpy | dec | dex | dey | eor
  | inc | inx | iny | jmp | jsr | lda | ldx | ldy
  | lsr | nop | ora | pha | php | pla | plp | rol
  | ror | rti | rts | sbc | sec | sed | sei | sta
  | stx | sty | tax | tay | tsx | txa | txs | tya
  deriving DecidableEq, Repr

namespace Mnemonic

/-- The instructions in alphabetical order. -/
def all : List Mnemonic :=
  [
    .adc, .and, .asl, .bcc, .bcs, .beq, .bit, .bmi, .bne, .bpl,
    .brk, .bvc, .bvs, .clc, .cld, .cli, .clv, .cmp, .cpx, .cpy,
    .dec, .dex, .dey, .eor, .inc, .inx, .iny, .jmp, .jsr, .lda,
    .ldx, .ldy, .lsr, .nop, .ora, .pha, .php, .pla, .plp, .rol,
    .ror, .rti, .rts, .sbc, .sec, .sed, .sei, .sta, .stx, .sty,
    .tax, .tay, .tsx, .txa, .txs, .tya]

/-- The three letters that name an instruction. -/
def name : Mnemonic → String
  | .adc => "ADC"
  | .and => "AND"
  | .asl => "ASL"
  | .bcc => "BCC"
  | .bcs => "BCS"
  | .beq => "BEQ"
  | .bit => "BIT"
  | .bmi => "BMI"
  | .bne => "BNE"
  | .bpl => "BPL"
  | .brk => "BRK"
  | .bvc => "BVC"
  | .bvs => "BVS"
  | .clc => "CLC"
  | .cld => "CLD"
  | .cli => "CLI"
  | .clv => "CLV"
  | .cmp => "CMP"
  | .cpx => "CPX"
  | .cpy => "CPY"
  | .dec => "DEC"
  | .dex => "DEX"
  | .dey => "DEY"
  | .eor => "EOR"
  | .inc => "INC"
  | .inx => "INX"
  | .iny => "INY"
  | .jmp => "JMP"
  | .jsr => "JSR"
  | .lda => "LDA"
  | .ldx => "LDX"
  | .ldy => "LDY"
  | .lsr => "LSR"
  | .nop => "NOP"
  | .ora => "ORA"
  | .pha => "PHA"
  | .php => "PHP"
  | .pla => "PLA"
  | .plp => "PLP"
  | .rol => "ROL"
  | .ror => "ROR"
  | .rti => "RTI"
  | .rts => "RTS"
  | .sbc => "SBC"
  | .sec => "SEC"
  | .sed => "SED"
  | .sei => "SEI"
  | .sta => "STA"
  | .stx => "STX"
  | .sty => "STY"
  | .tax => "TAX"
  | .tay => "TAY"
  | .tsx => "TSX"
  | .txa => "TXA"
  | .txs => "TXS"
  | .tya => "TYA"

/-- The instruction of a name; the case of the letters counts. -/
def ofName? (name : String) : Option Mnemonic :=
  all.find? (·.name == name)

/-- The place of an instruction in alphabetical order, counted from 1. -/
def number (m : Mnemonic) : Nat :=
  all.idxOf m + 1

theorem mem_all (m : Mnemonic) : m ∈ all := by
  cases m <;> decide

/-- An instruction is found under its own name. -/
@[simp] theorem ofName?_name (m : Mnemonic) : ofName? m.name = some m := by
  cases m <;> rfl

/-- What is found under a name has that name. -/
theorem name_of_ofName? {name : String} {m : Mnemonic} (h : ofName? name = some m) :
    m.name = name := by
  simpa using List.find?_some h

end Mnemonic

end LineMonitor
