/-!
# Outcomes of a line

A line of assembly ends in one of seven ways; four of them are errors.
-/

namespace LineMonitor

/-- How a line ended. -/
inductive Outcome where
  | success
  | invalidInstruction
  | invalidOperand
  | invalidMode
  | writeFailed
  | lineAborted
  | sessionEnded
  deriving DecidableEq, Repr

namespace Outcome

/-- The outcomes in order. -/
def all : List Outcome :=
  [.success, .invalidInstruction, .invalidOperand, .invalidMode, .writeFailed, .lineAborted,
    .sessionEnded]

/-- The name of an outcome in capitals. -/
def name : Outcome → String
  | .success => "SUCCESS"
  | .invalidInstruction => "INVALID_INSTRUCTION"
  | .invalidOperand => "INVALID_OPERAND"
  | .invalidMode => "INVALID_ADDRESSING_MODE"
  | .writeFailed => "WRITE_FAILED"
  | .lineAborted => "LINE_ABORTED"
  | .sessionEnded => "SESSION_ENDED"

/-- The place of an outcome in `Outcome.all`, counted from 1. -/
def number (o : Outcome) : Nat :=
  all.idxOf o + 1

/-- Whether the line is refused. -/
def isError : Outcome → Bool
  | .invalidInstruction | .invalidOperand | .invalidMode | .writeFailed => true
  | .success | .lineAborted | .sessionEnded => false

theorem mem_all (o : Outcome) : o ∈ all := by
  cases o <;> decide

end Outcome

end LineMonitor
