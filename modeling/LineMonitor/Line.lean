import LineMonitor.Console
import LineMonitor.Placement
import LineMonitor.Instruction.Encoding
import LineMonitor.Operand.Coding

/-!
# Assembling one line

At the prompt for an address one line is read, its instruction and operand are
recognised, and the bytes are written to memory and verified.  A line that is refused
is reported once; the next line is then assembled at the same address.
-/

namespace LineMonitor

/-- What was recognised of a line. -/
structure Statement where
  mnemonic : String
  instruction : Option Mnemonic := none
  operandText : Option String := none
  operand : Option Operand := none
  deriving DecidableEq, Repr

/-- How a line ended, with what comes of it. -/
inductive Ending where
  /-- The instruction is in memory. -/
  | assembled (placement : Placement)
  /-- The line was at fault. -/
  | refused (fault : Fault)
  /-- Escape was typed in the operand. -/
  | dropped
  /-- Escape was typed in the place of a mnemonic. -/
  | ended
  deriving DecidableEq, Repr

namespace Ending

/-- The outcome of the line. -/
def outcome : Ending → Outcome
  | assembled _ => .success
  | refused fault => fault.cause.outcome
  | dropped => .lineAborted
  | ended => .sessionEnded

/-- The bytes written, if the line was assembled. -/
def placement? : Ending → Option Placement
  | assembled placement => some placement
  | _ => none

/-- The message printed for the line, if it was refused. -/
def message? : Ending → Option String
  | refused fault => some fault.cause.message
  | _ => none

/-- What the end of a line at an address tells. -/
def transcript (a : Address) : Ending → Transcript
  | assembled _ => []
  | refused fault =>
    [.logged (.refused a fault), .printed (fault.cause.message ++ "\n")]
  | dropped => [.logged (.dropped a)]
  | ended => [.printed "\n", .logged (.ended a)]

end Ending

/-- The result of a line at an address. -/
structure Line where
  address : Address
  parsed : Option Statement
  ending : Ending
  deriving DecidableEq, Repr

namespace Line

/-- The outcome of the line. -/
def outcome (r : Line) : Outcome :=
  r.ending.outcome

/-- The bytes assembled from the line. -/
def data (r : Line) : List Byte :=
  match r.ending with
  | .assembled placement => placement.data
  | _ => []

/-- The address of the next line. -/
def next (r : Line) : Address :=
  match r.ending with
  | .assembled placement => placement.next
  | _ => r.address

end Line

/-- A line that was assembled or refused, with memory and console after it. -/
structure LineStep where
  memory : Memory
  console : Console
  transcript : Transcript
  result : Line

/-- The fault of an instruction that does not have a mode. -/
def Mnemonic.unsupported (instruction : Mnemonic) (mode : Mode) (a : Address) : Fault :=
  let supported := (Mode.byTitle.filter instruction.modes.contains).map (·.title)
  ⟨.unsupportedMode instruction.name mode.title supported, some a.toNat⟩

namespace Memory

/-- Assembles an instruction with its operand at an address. -/
def assemble (m : Memory) (a : Address) (instruction : Mnemonic) (operand : Operand) :
    Memory × List Event × Ending :=
  match Encoding.find? instruction operand.mode with
  | none => (m, [], .refused (instruction.unsupported operand.mode a))
  | some encoding =>
    match operand.encode a.toNat encoding.length with
    | .error fault => (m, [], .refused fault)
    | .ok bytes =>
      let attempt := m.put a encoding.opcode bytes
      match attempt.result with
      | .error mismatch => (attempt.memory, attempt.events, .refused mismatch.fault)
      | .ok placement => (attempt.memory, attempt.events, .assembled placement)

end Memory

/-- The prompt for a line at an address. -/
def addressPrompt (a : Address) : Entry :=
  .printed (Hex.ofAddress a ++ ": ")

/-- The step of a line that ends before an instruction is written. -/
def Statement.stop (parsed : Statement) (m : Memory) (c : Console) (a : Address)
    (told : Transcript) (ending : Ending) : LineStep where
  memory := m
  console := c
  transcript := told ++ ending.transcript a
  result := ⟨a, some parsed, ending⟩

/-- The step of a line whose instruction and operand are known. -/
def Statement.complete (parsed : Statement) (m : Memory) (c : Console) (a : Address)
    (told : Transcript) (instruction : Mnemonic) (operand : Operand) : LineStep :=
  let (memory, events, ending) := m.assemble a instruction operand
  { memory
    console := c
    transcript := told ++ events.map .logged ++ ending.transcript a
    result := ⟨a, some { parsed with operand := some operand }, ending⟩ }

/-- Reads the operand of an instruction and assembles the line. -/
def enterOperand (m : Memory) (c : Console) (a : Address) (parsed : Statement)
    (instruction : Mnemonic) : LineStep :=
  let reading := c.takeOperand
  match reading.answer with
  | none => parsed.stop m reading.console a reading.transcript .dropped
  | some text =>
    let parsed := { parsed with operandText := some text }
    match Operand.read instruction.modes text with
    | .error cause =>
      parsed.stop m reading.console a reading.transcript (.refused ⟨cause, none⟩)
    | .ok operand =>
      let event := .classified instruction.name text operand.mode
      parsed.complete m reading.console a (reading.transcript ++ [.logged event]) instruction
        operand

/-- Assembles the line of a mnemonic, of which the operand is still to be read; an
instruction that takes no operand leaves the rest of its line unread. -/
def enterMnemonic (m : Memory) (c : Console) (a : Address) (mnemonic : String) : LineStep :=
  match Mnemonic.ofName? mnemonic with
  | none =>
    Statement.stop { mnemonic } m c a [] (.refused ⟨.unknownMnemonic mnemonic, some a.toNat⟩)
  | some instruction =>
    let parsed : Statement := { mnemonic, instruction := some instruction }
    if instruction.takesNoOperand then parsed.complete m c a [] instruction ⟨.implicit, 0⟩
    else enterOperand m c a parsed instruction

/-- Prompts for a line at an address, reads it and assembles it. -/
def enterLine (m : Memory) (c : Console) (a : Address) : LineStep :=
  let reading := c.takeMnemonic
  match reading.answer with
  | none =>
    ⟨m, reading.console,
      addressPrompt a :: (reading.transcript ++ Ending.ended.transcript a),
      ⟨a, none, .ended⟩⟩
  | some mnemonic =>
    let step := enterMnemonic m reading.console a mnemonic
    { step with transcript := addressPrompt a :: (reading.transcript ++ step.transcript) }

/-! ### How much input is used up -/

theorem unread_enterMnemonic (m : Memory) (c : Console) (a : Address) (mnemonic : String) :
    (enterMnemonic m c a mnemonic).console.unread = c.unread := by
  simp only [enterMnemonic, enterOperand, Statement.stop, Statement.complete]
  repeat' split
  all_goals simp

/-- A line does not add to the input. -/
theorem length_enterLine_le (m : Memory) (c : Console) (a : Address) :
    (enterLine m c a).console.unread.length ≤ c.unread.length := by
  simp only [enterLine]
  split
  · exact c.length_takeMnemonic_le
  · simp only [unread_enterMnemonic]
    exact c.length_takeMnemonic_le

/-- A line that is not the end of assembling uses up a line of the input. -/
theorem length_enterLine_lt (m : Memory) (c : Console) (a : Address)
    (h : (enterLine m c a).result.ending ≠ .ended) :
    (enterLine m c a).console.unread.length < c.unread.length := by
  revert h
  simp only [enterLine]
  split
  · simp
  · rename_i mnemonic hr
    intro _
    simp only [unread_enterMnemonic]
    exact c.length_takeMnemonic_lt (by simp [hr])

end LineMonitor
