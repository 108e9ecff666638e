import LineMonitor.Memory.Region
import LineMonitor.Text.Quoted

/-!
# Settings of the monitor

The settings say where assembling begins, which regions are ROM, how many
instructions a listing shows, and which character is the Escape key.
-/

namespace LineMonitor

/-- A setting that the environment can give. -/
inductive Setting where
  | start
  | romRegion
  | listCount
  deriving DecidableEq, Repr

/-- The words that introduce a given value of a setting. -/
def Setting.label : Setting → String
  | start => "MINIASM_START="
  | romRegion => "MINIASM_ROM region "
  | listCount => "MINIASM_LIST_COUNT="

/-- The settings of a monitor session. -/
structure Settings where
  /-- Where assembling begins at once; without it the monitor waits for a command. -/
  start : Option Int := none
  rom : List Region := []
  listCount : Int := 20
  escape : String := "\x1b"
  deriving Repr

namespace Settings

/-- A region as a pair of decimal numbers. -/
def regionText (r : Region) : String :=
  "(" ++ toString r.first.toNat ++ ", " ++ toString r.last.toNat ++ ")"

/-- The settings on one line, as the log shows them. -/
def text (s : Settings) : String :=
  "MonitorConfig(start_address=" ++ (s.start.map toString).getD "None" ++
    ", rom_regions=[" ++ ", ".intercalate (s.rom.map regionText) ++
    "], list_count=" ++ toString s.listCount ++
    ", escape_char=" ++ Text.quoted s.escape ++ ")"

end Settings

end LineMonitor
