import LineMonitor.Text.Hex

/-!
# Addressing modes

An addressing mode fixes how many bytes of operand follow the opcode and how the
operand is typed.  The typed form is a `Shape`: fixed text in front, a number of
hexadecimal digits, and fixed text behind.
-/

namespace LineMonitor

/-- How an instruction finds its operand. -/
inductive Mode where
  | implicit
  | accumulator
  | immediate
  | zeroPage
  | zeroPageX
  | zeroPageY
  | absolute
  | absoluteX
  | absoluteY
  | indexedIndirect
  | indirectIndexed
  | indirect
  | relative
  deriving DecidableEq, Repr

/-- The typed form of an operand: `digits` hexadecimal digits between two fixed
texts. -/
structure Shape where
  lead : String
  digits : Nat
  tail : String
  deriving DecidableEq, Repr

namespace Shape

/-- The shape with the letter `n` in the place of every digit. -/
def pattern (s : Shape) : String :=
  s.lead ++ String.ofList (List.replicate s.digits 'n') ++ s.tail

/-- The shape with a number in the place of its digits. -/
def fill (s : Shape) (value : Int) : String :=
  if s.digits = 0 then s.lead ++ s.tail else s.lead ++ Hex.ofInt s.digits value ++ s.tail

/-- The number in the place of the digits, if the text has the shape. -/
def match? (s : Shape) (text : List Char) : Option Nat :=
  let body := text.drop s.lead.length
  if s.lead.toList.isPrefixOf text && body.drop s.digits == s.tail.toList then
    if s.digits = 0 then some 0
    else if body.length < s.digits then none
    else Hex.value? (body.take s.digits)
  else none

end Shape

namespace Mode

/-- The modes, from those without operand to the branches. -/
def all : List Mode :=
  [.implicit, .accumulator, .immediate, .zeroPage, .zeroPageX, .zeroPageY, .absolute,
    .absoluteX, .absoluteY, .indexedIndirect, .indirectIndexed, .indirect, .relative]

/-- The modes in the alphabetical order of their titles. -/
def byTitle : List Mode :=
  [.absolute, .absoluteX, .absoluteY, .accumulator, .immediate, .implicit, .indexedIndirect,
    .indirect, .indirectIndexed, .relative, .zeroPage, .zeroPageX, .zeroPageY]

/-- The number of operand bytes behind the opcode. -/
def operandLength : Mode → Nat
  | .implicit | .accumulator => 0
  | .immediate | .zeroPage | .zeroPageX | .zeroPageY => 1
  | .absolute | .absoluteX | .absoluteY => 2
  | .indexedIndirect | .indirectIndexed => 1
  | .indirect => 2
  | .relative => 1

/-- The form in which the operand is typed; a branch is typed with its target. -/
def shape : Mode → Shape
  | .implicit => ⟨"", 0, ""⟩
  | .accumulator => ⟨"A", 0, ""⟩
  | .immediate => ⟨"#", 2, ""⟩
  | .zeroPage => ⟨"", 2, ""⟩
  | .zeroPageX => ⟨"", 2, ",X"⟩
  | .zeroPageY => ⟨"", 2, ",Y"⟩
  | .absolute => ⟨"", 4, ""⟩
  | .absoluteX => ⟨"", 4, ",X"⟩
  | .absoluteY => ⟨"", 4, ",Y"⟩
  | .indexedIndirect => ⟨"(", 2, ",X)"⟩
  | .indirectIndexed => ⟨"(", 2, "),Y"⟩
  | .indirect => ⟨"(", 4, ")"⟩
  | .relative => ⟨"", 4, ""⟩

/-- The name of a mode in capitals. -/
def name : Mode → String
  | .implicit => "IMPLICIT"
  | .accumulator => "ACCUMULATOR"
  | .immediate => "IMMEDIATE"
  | .zeroPage => "ZERO_PAGE"
  | .zeroPageX => "ZERO_PAGE_X"
  | .zeroPageY => "ZERO_PAGE_Y"
  | .absolute => "ABSOLUTE"
  | .absoluteX => "ABSOLUTE_X"
  | .absoluteY => "ABSOLUTE_Y"
  | .indexedIndirect => "INDEXED_INDIRECT"
  | .indirectIndexed => "INDIRECT_INDEXED"
  | .indirect => "INDIRECT"
  | .relative => "RELATIVE"

/-- The name of a mode as it stands in a sentence. -/
def title : Mode → String
  | .implicit => "implicit"
  | .accumulator => "accumulator"
  | .immediate => "immediate"
  | .zeroPage => "zero page"
  | .zeroPageX => "zero page x"
  | .zeroPageY => "zero page y"
  | .absolute => "absolute"
  | .absoluteX => "absolute x"
  | .absoluteY => "absolute y"
  | .indexedIndirect => "indexed indirect"
  | .indirectIndexed => "indirect indexed"
  | .indirect => "indirect"
  | .relative => "relative"

/-- The mode of a name in capitals. -/
def ofName? (name : String) : Option Mode :=
  all.find? (·.name == name)

/-- The place of a mode in `Mode.all`, counted from 1. -/
def number (m : Mode) : Nat :=
  all.idxOf m + 1

theorem mem_all (m : Mode) : m ∈ all := by
  cases m <;> decide

theorem mem_byTitle (m : Mode) : m ∈ byTitle := by
  cases m <;> decide

/-- A mode is found under its own name. -/
@[simp] theorem ofName?_name (m : Mode) : ofName? m.name = some m := by
  cases m <;> rfl

end Mode

end LineMonitor
