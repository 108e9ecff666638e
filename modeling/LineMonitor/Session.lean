import LineMonitor.Assembly
import LineMonitor.Command
import LineMonitor.Listing

/-!
# Monitor sessions

A session is driven by commands that assemble lines, list instructions or stop.
`Session.run` reads and executes them until one of them stops it, or Escape or the
end of the input does.
-/

namespace LineMonitor

/-- The state of the monitor: its memory and input, the current address, and what was
assembled so far. -/
structure Session where
  memory : Memory
  console : Console
  address : Int := 0
  listCount : Int := 20
  assemblies : List Assembly := []

namespace Session

/-- The session of a memory and an input with the given settings. -/
def new (memory : Memory) (console : Console) (settings : Settings) : Session where
  memory := memory
  console := console
  address := settings.start.getD 0
  listCount := settings.listCount

/-- Assembles from an address on and records what was assembled. -/
def assemble (s : Session) (address : Int) : Session × Transcript × Assembly :=
  let start := Address.ofInt address
  let run := enterLines s.memory s.console start
  let assembly : Assembly := ⟨start, run.finish, run.results⟩
  ({ s with
      memory := run.memory
      console := run.console
      address := run.finish.toNat
      assemblies := s.assemblies ++ [assembly] },
    .logged (.assembling start) :: (run.transcript ++
      [.logged (.assembled run.finish assembly.lines assembly.errors)]),
    assembly)

/-! ### Listing and commands -/

/-- The most bytes of an instruction. -/
def longestInstruction : Nat := 3

/-- Lists instructions from an address on; the result is the address after them. -/
def list (s : Session) (address : Int) (count : Option Int := none) : Transcript × Address :=
  let count := count.getD s.listCount
  let code := s.memory.bytes (Address.ofInt address) (count * longestInstruction).toNat
  let listed := listing address code (some count)
  let after :=
    match listed.getLast? with
    | none => Address.ofInt address
    | some row => Address.ofInt (row.address + row.size)
  (listed.map fun row => .printed (row.line ++ "\n"), after)

/-- Executes a command; the last part of the result says whether the monitor goes on. -/
def perform (s : Session) : Command → Session × Transcript × Bool
  | .nothing => (s, [], true)
  | .quit => (s, [], false)
  | .assemble address =>
    let (after, transcript, _) := s.assemble address.toNat
    (after, transcript, true)
  | .list address =>
    let (transcript, after) := s.list address.toNat
    ({ s with address := after.toNat }, transcript, true)

/-- Executes the command that a text stands for. -/
def execute (s : Session) (command : String) :
    Except Rejection (Session × Transcript × Bool) :=
  (Command.read command).map s.perform

/-- The prompt for a command. -/
def commandPrompt : Entry :=
  .printed "* "

/-- Reads one command and executes it; the last part of the result says whether the
monitor goes on. -/
def step (s : Session) : Session × Transcript × Bool :=
  let reading := s.console.takeCommand
  let s := { s with console := reading.console }
  let told := commandPrompt :: reading.transcript
  match reading.answer with
  | none => (s, told ++ [.printed "\n"], false)
  | some command =>
    match s.execute command with
    | .ok (after, transcript, goesOn) => (after, told ++ transcript, goesOn)
    | .error e =>
      (s, told ++ [.logged (.rejected e.command e.reason), .printed (e.reason ++ "\n")], true)

theorem length_perform_le (s : Session) (command : Command) :
    (s.perform command).1.console.unread.length ≤ s.console.unread.length := by
  cases command with
  | assemble address => exact length_enterLines_le s.memory s.console _
  | nothing => exact Nat.le_refl _
  | quit => exact Nat.le_refl _
  | list address => exact Nat.le_refl _

/-- A step after which the monitor goes on uses up a line of the input. -/
theorem length_step_lt (s : Session) (h : s.step.2.2 = true) :
    s.step.1.console.unread.length < s.console.unread.length := by
  revert h
  simp only [step]
  split
  · simp
  · rename_i text hr
    intro _
    have read := s.console.length_takeCommand_lt (by simp [hr])
    split
    · rename_i after transcript goesOn hx
      simp only [execute] at hx
      cases hc : Command.read text with
      | error e => simp [hc, Except.map] at hx
      | ok command =>
        simp only [hc, Except.map, Except.ok.injEq] at hx
        have := length_perform_le { s with console := s.console.takeCommand.console } command
        rw [hx] at this
        exact Nat.lt_of_le_of_lt this read
    · exact read

/-- Reads and executes commands until the monitor stops. -/
def run (s : Session) : Session × Transcript :=
  match h : s.step with
  | (after, transcript, true) =>
    have : after.console.unread.length < s.console.unread.length := by
      simpa [h] using s.length_step_lt (by simp [h])
    let (last, later) := run after
    (last, transcript ++ later)
  | (after, transcript, false) => (after, transcript)
termination_by s.console.unread.length

end Session

end LineMonitor
