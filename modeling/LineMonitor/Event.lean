import LineMonitor.Fault
import LineMonitor.Settings
import LineMonitor.Text.ControlSequence

/-!
# Events and transcripts

What a run tells its surroundings is a list of entries in order: text printed on the
terminal, lines read from the input, and events for the log.  The same list gives
the printed output, with or without the lines that were typed, and the log.
-/

namespace LineMonitor

/-- How important an event is. -/
inductive Level where
  | debug
  | info
  | warning
  deriving DecidableEq, Repr

/-- The name of a level in the log. -/
def Level.name : Level → String
  | debug => "DEBUG"
  | info => "INFO"
  | warning => "WARNING"

/-- An event worth a line in the log. -/
inductive Event where
  /-- A setting was malformed and is ignored. -/
  | ignoredSetting (setting : Setting) (text : String)
  /-- The tool works with these settings. -/
  | configured (settings : Settings)
  /-- An image of `size` bytes was loaded. -/
  | loaded (size : Nat) (address : Address)
  /-- A write to a protected address had no effect. -/
  | ignoredWrite (value : Byte) (address : Address)
  /-- A byte did not read back. -/
  | notKept (address : Address) (expected actual : Byte)
  /-- An instruction was written to memory. -/
  | emitted (data : List Byte) (address : Address)
  /-- The input is at its end. -/
  | endOfInput
  /-- Escape was typed behind an instruction that takes no operand. -/
  | escapeLeftOver
  /-- Escape was typed before the mnemonic was complete. -/
  | escapeAtMnemonic
  /-- Escape was typed in the operand. -/
  | escapeAtOperand
  /-- The operand of a line was recognised. -/
  | classified (mnemonic operand : String) (mode : Mode)
  /-- A line was refused. -/
  | refused (address : Address) (fault : Fault)
  /-- A line was dropped by Escape. -/
  | dropped (address : Address)
  /-- Assembling came to its end at an address prompt. -/
  | ended (address : Address)
  /-- Assembling begins. -/
  | assembling (address : Address)
  /-- Assembling is over. -/
  | assembled (address : Address) (lines errors : Nat)
  /-- A command was not understood. -/
  | rejected (command reason : String)
  deriving Repr

namespace Event

/-- How important an event is. -/
def level : Event → Level
  | ignoredSetting .. | notKept .. => .warning
  | assembling .. | assembled .. => .info
  | _ => .debug

/-- What the log says about an event. -/
def message : Event → String
  | ignoredSetting setting text => "Ignoring invalid " ++ setting.label ++ Text.quoted text
  | configured settings => "Configuration: " ++ settings.text
  | loaded size address =>
    "Loaded " ++ toString size ++ " bytes at $" ++ Hex.ofAddress address
  | ignoredWrite value address =>
    "Ignored write of $" ++ Hex.ofByte value ++ " to $" ++ Hex.ofAddress address
  | notKept address expected actual =>
    "Write verification failed at $" ++ Hex.ofAddress address ++ ": wrote $" ++
      Hex.ofByte expected ++ ", read $" ++ Hex.ofByte actual
  | emitted data address =>
    "Emitted " ++ Hex.ofBytes data ++ " at $" ++ Hex.ofAddress address
  | endOfInput => "End of input"
  | escapeLeftOver => "Escape left over from the previous line"
  | escapeAtMnemonic => "Escape at mnemonic prompt"
  | escapeAtOperand => "Escape at operand prompt"
  | classified mnemonic operand mode =>
    mnemonic ++ " '" ++ operand ++ "' -> " ++ mode.name
  | refused address fault => "$" ++ Hex.ofAddress address ++ ": " ++ fault.inFull
  | dropped address => "$" ++ Hex.ofAddress address ++ ": line aborted"
  | ended address => "Session ended at $" ++ Hex.ofAddress address
  | assembling address => "Assembling at $" ++ Hex.ofAddress address
  | assembled address lines errors =>
    "Assembly ended at $" ++ Hex.ofAddress address ++ ": " ++ toString lines ++ " lines, " ++
      toString errors ++ " errors"
  | rejected command reason => "Rejected command " ++ Text.quoted command ++ ": " ++ reason

end Event

/-- One thing a run tells its surroundings. -/
inductive Entry where
  /-- Text printed on the terminal. -/
  | printed (text : String)
  /-- A line that was read, without its line end and escape characters. -/
  | typed (line : String)
  /-- An event for the log. -/
  | logged (event : Event)
  deriving Repr

/-- What a run tells its surroundings, in order. -/
abbrev Transcript := List Entry

namespace Entry

/-- The entry of a text to be shown as it is, up to control sequences. -/
def ofText (text : String) : Entry :=
  printed (Text.plain text)

/-- The entry of a line of text. -/
def ofLine (text : String) : Entry :=
  ofText (text ++ "\n")

/-- What the entry puts on the terminal; typed lines are shown if they are echoed. -/
def output (echo : Bool) : Entry → String
  | printed text => text
  | typed line => if echo then line ++ "\n" else ""
  | logged _ => ""

/-- The line that was read, if the entry is one. -/
def typed? : Entry → Option String
  | typed line => some line
  | _ => none

/-- The event of an entry, if it is one. -/
def event? : Entry → Option Event
  | logged event => some event
  | _ => none

end Entry

namespace Transcript

/-- The text on the terminal after a run. -/
def output (echo : Bool) (t : Transcript) : String :=
  String.join (t.map (·.output echo))

/-- The lines that were read. -/
def typed (t : Transcript) : List String :=
  t.filterMap (·.typed?)

/-- The events for the log. -/
def events (t : Transcript) : List Event :=
  t.filterMap (·.event?)

@[simp] theorem typed_append (t u : Transcript) : typed (t ++ u) = typed t ++ typed u := by
  simp [typed]

@[simp] theorem events_append (t u : Transcript) : events (t ++ u) = events t ++ events u := by
  simp [events]

end Transcript

end LineMonitor
