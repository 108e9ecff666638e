import LineMonitor.Settings.Written
import LineMonitor.Tool.Disk

/-!
# Values of options

The values that options of both tools have in common: paths of files, which are looked
up before a tool does anything else, and addresses.
-/

namespace LineMonitor.Tool

/-- The complaint about a path at which there is nothing. -/
def missingFile (text : String) : String :=
  "File " ++ Text.quoted text ++ " does not exist."

/-- The complaint about a path at which there is a directory. -/
def directoryFile (text : String) : String :=
  "File " ++ Text.quoted text ++ " is a directory."

/-- What is wrong with the path of a file to be read, or to be written if it need not
exist. -/
def fileComplaint? (disk : Disk) (mustExist : Bool) (text : String) : Option String :=
  match disk.named? text with
  | none => if mustExist then some (missingFile text) else none
  | some .directory => some (directoryFile text)
  | some (.file _) => none

/-- The address in an option, which the hint names. -/
def optionAddress (text hint : String) : Except Failure Int :=
  match Settings.readAddress text with
  | .ok address => .ok address
  | .error _ => .error (.badValue ("'" ++ text ++ "' is not a 16-bit hex address") (some hint))

end LineMonitor.Tool
