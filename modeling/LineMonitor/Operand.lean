import LineMonitor.Fault

/-!
# Operands

An operand is a mode and a number.  `Operand.text` writes it in the shape of its
mode and `Operand.read` finds mode and number from a text.  A text of four
digits fits both an absolute operand and the target of a branch; it is taken for a
target if the instruction can branch.
-/

namespace LineMonitor

/-- An addressing mode with the number typed in it, which is 0 where none is. -/
structure Operand where
  mode : Mode
  value : Int := 0
  deriving DecidableEq, Repr

namespace Operand

/-- The characters of which operands are typed. -/
def alphabet : List Char :=
  "#(),0123456789ABCDEFXY".toList

/-- The operand as it is typed. -/
def text (o : Operand) : String :=
  o.mode.shape.fill o.value

/-- The modes whose shapes are tried on a text, in order. -/
def typedModes : List Mode :=
  [.accumulator, .immediate, .zeroPage, .zeroPageX, .zeroPageY, .absolute, .absoluteX,
    .absoluteY, .indexedIndirect, .indirectIndexed, .indirect]

/-- The operand of the first shape that fits the text. -/
def ofShape? (text : List Char) : Option Operand :=
  typedModes.findSome? fun mode => (mode.shape.match? text).map fun value => ⟨mode, value⟩

/-- The operand as an instruction with the given modes takes it: an absolute one is
the target of a branch if the instruction can branch. -/
def resolve (modes : List Mode) (o : Operand) : Operand :=
  if o.mode = .absolute ∧ .relative ∈ modes then { o with mode := .relative } else o

/-- The operand that a text means for an instruction with the given modes. -/
def read (modes : List Mode) (text : String) : Except Cause Operand :=
  if text = "" then
    if .accumulator ∈ modes then .ok ⟨.accumulator, 0⟩
    else .error (.badOperand text (some "missing operand"))
  else
    match ofShape? text.toList with
    | some o => .ok (o.resolve modes)
    | none => .error (.badOperand text none)

/-- The number of a text of capital hexadecimal digits. -/
def readHex (text : String) : Except Cause Nat :=
  match Hex.value? text.toList with
  | some value => .ok value
  | none => .error (.badOperand text (some ("'" ++ text ++ "' is not a hex number")))

end Operand

end LineMonitor
