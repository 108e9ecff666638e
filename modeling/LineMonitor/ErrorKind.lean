import LineMonitor.Fault

/-!
# Kinds of errors

The errors of the line assembler are of kinds, and a kind can be a special case of another.
The outcome of a line goes by the first of four kinds that its error is of.
-/

namespace LineMonitor

/-- A kind of errors of the line assembler. -/
inductive ErrorKind where
  /-- Any error of the assembler. -/
  | assembler
  | instruction
  | operand
  /-- An operand that is the target of a branch. -/
  | branchRange
  | mode
  | writing
  deriving DecidableEq, Repr

namespace ErrorKind

/-- The name of a kind. -/
def name : ErrorKind → String
  | assembler => "AssemblerError"
  | instruction => "InvalidInstructionError"
  | operand => "InvalidOperandError"
  | branchRange => "BranchRangeError"
  | mode => "AddressingModeError"
  | writing => "WriteVerificationError"

/-- A kind, and the kinds that it is a special case of. -/
def lineage : ErrorKind → List ErrorKind
  | assembler => [assembler]
  | branchRange => [branchRange, operand, assembler]
  | kind => [kind, assembler]

/-- Whether an error of one kind is also one of another. -/
def isA (kind other : ErrorKind) : Bool :=
  kind.lineage.contains other

/-- The outcome of a line with an error of the kind, if the kind has one. -/
def outcome? (kind : ErrorKind) : Option Outcome :=
  if kind.isA instruction then some .invalidInstruction
  else if kind.isA operand then some .invalidOperand
  else if kind.isA mode then some .invalidMode
  else if kind.isA writing then some .writeFailed
  else none

/-- The complaint about an error of a kind without outcome. -/
def unhandled (kind : ErrorKind) : String :=
  "Unhandled assembler error " ++ kind.name

end ErrorKind

namespace Cause

/-- The kind of the error that a cause gives rise to. -/
def kind : Cause → ErrorKind
  | unknownMnemonic _ => .instruction
  | badOperand _ _ => .operand
  | branchOutOfReach _ _ => .branchRange
  | unsupportedMode _ _ _ => .mode
  | notKept _ _ _ => .writing

/-- Every cause is of a kind that has an outcome. -/
@[simp] theorem outcome?_kind (c : Cause) : c.kind.outcome? = some c.outcome := by
  cases c <;> rfl

end Cause

end LineMonitor
