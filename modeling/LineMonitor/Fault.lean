import LineMonitor.Instruction.Mode
import LineMonitor.Instruction.Mnemonic
import LineMonitor.Outcome

/-!
# Faults of a line

A line is refused for one of five causes.  The monitor prints the short message of
the cause; the detail names what was wrong and goes to the log.
-/

namespace LineMonitor

/-- Why a line was not assembled. -/
inductive Cause where
  /-- The mnemonic names no instruction. -/
  | unknownMnemonic (mnemonic : String)
  /-- The operand has no known shape, for the given reason if there is a special one. -/
  | badOperand (operand : String) (reason : Option String)
  /-- The target of a branch lies `offset` bytes from the next instruction. -/
  | branchOutOfReach (target offset : Int)
  /-- The instruction has no such mode; the supported ones are listed by title. -/
  | unsupportedMode (mnemonic mode : String) (supported : List String)
  /-- Memory did not keep the byte `expected` but gave back `actual`. -/
  | notKept (location expected actual : Int)
  deriving DecidableEq, Repr

namespace Cause

/-- The outcome of a line that is refused for the cause; a branch out of reach is an
invalid operand. -/
def outcome : Cause → Outcome
  | unknownMnemonic _ => .invalidInstruction
  | badOperand _ _ => .invalidOperand
  | branchOutOfReach _ _ => .invalidOperand
  | unsupportedMode _ _ _ => .invalidMode
  | notKept _ _ _ => .writeFailed

/-- The message printed for the line. -/
def message : Cause → String
  | unknownMnemonic _ => "Invalid instruction"
  | badOperand _ _ => "Invalid operand"
  | branchOutOfReach _ _ => "Invalid operand"
  | unsupportedMode _ _ _ => "Invalid addressing mode"
  | notKept location _ _ => "Unable to write to $" ++ Hex.ofInt 4 location

/-- The operand text that is at fault, for a fault of the operand. -/
def operand? : Cause → Option String
  | badOperand operand _ => some operand
  | branchOutOfReach target _ => some (Hex.ofInt 4 target)
  | _ => none

/-- What exactly was wrong. -/
def detail : Cause → String
  | unknownMnemonic mnemonic => "unknown mnemonic '" ++ mnemonic ++ "'"
  | badOperand operand reason =>
    match reason with
    | none | some "" => "unrecognised operand '" ++ operand ++ "'"
    | some reason => reason
  | branchOutOfReach _ offset => "branch offset " ++ toString offset ++ " outside -128..127"
  | unsupportedMode mnemonic mode supported =>
    let refusal := "'" ++ mnemonic ++ "' does not support " ++ mode
    if supported.isEmpty then refusal
    else refusal ++ "; supports: " ++ ", ".intercalate supported
  | notKept _ expected actual =>
    "wrote $" ++ Hex.ofInt 2 expected ++ ", read back $" ++ Hex.ofInt 2 actual

/-- The outcome of a refused line is an error. -/
@[simp] theorem isError_outcome (c : Cause) : c.outcome.isError = true := by
  cases c <;> rfl

end Cause

/-- A message with its detail in parentheses, if there is one. -/
def withDetail (message detail : String) : String :=
  if detail.isEmpty then message else message ++ " (" ++ detail ++ ")"

/-- A cause together with the address it concerns, when one is known. -/
structure Fault where
  cause : Cause
  address : Option Int := none
  deriving DecidableEq, Repr

namespace Fault

/-- The message and the detail of a fault, as the log shows it. -/
def inFull (f : Fault) : String :=
  withDetail f.cause.message f.cause.detail

/-- The fault of a byte that memory did not keep; it concerns the byte's address. -/
def notKept (location expected actual : Int) : Fault where
  cause := .notKept location expected actual
  address := some location

end Fault

end LineMonitor
