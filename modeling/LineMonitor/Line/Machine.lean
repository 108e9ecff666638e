import LineMonitor.ErrorKind
import LineMonitor.Line

/-!
# The line assembler as a machine

The assembler enters a line in stages.  It works on memory and console, on what it told so
far, on the stage it is in and on what it recognised of the line; all of this outlasts an
error.  An error ends the line wherever it is found, and is reported in one place, when the
line is given up (`Machine.giveUp`).  `Machine.assembleLine` enters a whole line.
-/

namespace LineMonitor

/-- Where the assembler is within a line. -/
inductive Stage where
  | awaitMnemonic
  | mnemonicResolved
  | implicitDone
  | awaitOperand
  | operandClassified
  | validated
  | emitted
  | aborted
  deriving DecidableEq, Repr

/-- The name of a stage in capitals. -/
def Stage.name : Stage → String
  | awaitMnemonic => "AWAIT_MNEMONIC"
  | mnemonicResolved => "MNEMONIC_RESOLVED"
  | implicitDone => "IMPLICIT_DONE"
  | awaitOperand => "AWAIT_OPERAND"
  | operandClassified => "OPERAND_CLASSIFIED"
  | validated => "VALIDATED"
  | emitted => "EMITTED"
  | aborted => "ABORTED"

/-- What a line comes to. -/
structure LineResult where
  outcome : Outcome
  /-- The address of the line. -/
  address : Address
  /-- The address of the next line. -/
  next : Address
  parsed : Option Statement := none
  /-- The bytes that were written, with their address. -/
  emission : Option Placement := none
  /-- The message that was printed. -/
  message : Option String := none
  deriving DecidableEq, Repr

/-- The bytes that were written for a line. -/
def LineResult.data (r : LineResult) : List Byte :=
  match r.emission with
  | some placement => placement.data
  | none => []

/-- What can end a line before it is assembled. -/
inductive Raised where
  /-- The line is at fault. -/
  | fault (fault : Fault)
  /-- There is no outcome for the line. -/
  | unhandled (message : String)
  deriving DecidableEq, Repr

/-- The assembler at work. -/
structure Machine where
  memory : Memory
  console : Console
  told : Transcript := []
  stage : Stage := .awaitMnemonic
  /-- What was recognised of the line. -/
  parsed : Option Statement := none

namespace Machine

/-- A program of the assembler.  What it did when an error is raised stays done. -/
abbrev Act := ExceptT Raised (StateM Machine)

/-- Enters a stage. -/
def enter (stage : Stage) : Act Unit :=
  modify fun s => { s with stage }

/-- Tells something. -/
def tell (entries : Transcript) : Act Unit :=
  modify fun s => { s with told := s.told ++ entries }

/-- Begins a line, or has nothing of it yet. -/
def begin (parsed : Option Statement) : Act Unit :=
  modify fun s => { s with parsed }

/-- Takes down what was recognised. -/
def note (recognised : Statement → Statement) : Act Unit :=
  modify fun s => { s with parsed := s.parsed.map recognised }

/-- What was recognised of the line so far. -/
def parsedSoFar : Act (Option Statement) := do
  return (← get).parsed

/-- Raises the fault of a line. -/
def fail {α : Type} (fault : Fault) : Act α :=
  throw (.fault fault)

/-- Puts a question to the console. -/
def ask (question : Console → Reading) : Act (Option String) := do
  let reading := question (← get).console
  modify fun s => { s with console := reading.console }
  tell reading.transcript
  return reading.answer

/-- Writes an instruction to memory and verifies it. -/
def emit (a : Address) (opcode : Byte) (operand : List Byte) : Act Placement := do
  let attempt := (← get).memory.put a opcode operand
  modify fun s => { s with memory := attempt.memory }
  tell (attempt.events.map .logged)
  match attempt.result with
  | .error mismatch => fail mismatch.fault
  | .ok placement => return placement

/-- Finds the instruction of a mnemonic. -/
def resolve (a : Address) (mnemonic : String) : Act Mnemonic := do
  match Mnemonic.ofName? mnemonic with
  | none => fail ⟨.unknownMnemonic mnemonic, some a.toNat⟩
  | some instruction =>
    note fun parsed => { parsed with instruction := some instruction }
    enter .mnemonicResolved
    return instruction

/-- Finds the operand of an instruction; there is none if Escape was typed in its place. -/
def operand (instruction : Mnemonic) : Act (Option Operand) := do
  if instruction.takesNoOperand then
    note fun parsed => { parsed with operand := some ⟨.implicit, 0⟩ }
    enter .implicitDone
    return some ⟨.implicit, 0⟩
  enter .awaitOperand
  match ← ask Console.takeOperand with
  | none => return none
  | some text =>
    note fun parsed => { parsed with operandText := some text }
    match Operand.read instruction.modes text with
    | .error cause => fail ⟨cause, none⟩
    | .ok operand =>
      note fun parsed => { parsed with operand := some operand }
      enter .operandClassified
      tell [.logged (.classified instruction.name text operand.mode)]
      return some operand

/-- Checks, encodes and writes an instruction with its operand. -/
def place (a : Address) (instruction : Mnemonic) (operand : Operand) : Act Placement := do
  match Encoding.find? instruction operand.mode with
  | none => fail (instruction.unsupported operand.mode a)
  | some encoding =>
    enter .validated
    match operand.encode a.toNat encoding.length with
    | .error fault => fail fault
    | .ok bytes =>
      let placement ← emit a encoding.opcode bytes
      enter .emitted
      return placement

/-- Drops a line for Escape in its operand. -/
def drop (a : Address) : Act LineResult := do
  enter .aborted
  tell [.logged (.dropped a)]
  return { outcome := .lineAborted, address := a, next := a, parsed := ← parsedSoFar }

/-- Finishes a line whose instruction and operand are known. -/
def finish (a : Address) (instruction : Mnemonic) (operand : Operand) : Act LineResult := do
  let placement ← place a instruction operand
  return {
    outcome := .success
    address := a
    next := placement.next
    parsed := ← parsedSoFar
    emission := some placement }

/-- Assembles the line of a mnemonic. -/
def assemble (a : Address) (mnemonic : String) : Act LineResult := do
  let instruction ← resolve a mnemonic
  match ← operand instruction with
  | none => drop a
  | some operand => finish a instruction operand

/-- Gives a line up for its fault; anything else that was raised is not held back. -/
def giveUp (a : Address) : Raised → Act LineResult
  | .fault fault => do
    enter .aborted
    tell [.logged (.refused a fault), .printed (fault.cause.message ++ "\n")]
    match fault.cause.kind.outcome? with
    | none => throw (.unhandled fault.cause.kind.unhandled)
    | some outcome =>
      return {
        outcome
        address := a
        next := a
        parsed := ← parsedSoFar
        message := some fault.cause.message }
  | raised => throw raised

/-- Prompts for a line, reads it and assembles it. -/
def assembleLine (address : Int) : Act LineResult := do
  let a := Address.ofInt address
  begin none
  enter .awaitMnemonic
  tell [addressPrompt a]
  match ← ask Console.takeMnemonic with
  | none =>
    enter .aborted
    tell [.printed "\n", .logged (.ended a)]
    return { outcome := .sessionEnded, address := a, next := a }
  | some mnemonic =>
    begin (some { mnemonic })
    tryCatch (assemble a mnemonic) (giveUp a)

/-- What comes of a program: its answer or what was raised, and the assembler after it. -/
def Act.outcome {α : Type} (act : Act α) (s : Machine) : Except Raised α × Machine :=
  act s

end Machine

end LineMonitor
