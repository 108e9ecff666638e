import LineMonitor.Event
import LineMonitor.Settings.Written

/-!
# Settings from the environment

Three environment variables give settings.  Each malformed value, and each malformed
region in a list of regions, is reported and ignored; the others keep their effect.
-/

namespace LineMonitor

/-- The environment variables that give settings; an empty one counts as absent. -/
structure Environment where
  start : String := ""
  rom : String := ""
  listCount : String := ""
  deriving Repr

namespace Environment

/-- The start address, if one is given. -/
def startSetting (text : String) : Option Int × List Event :=
  if text.isEmpty then (none, [])
  else
    match Settings.readAddress text with
    | .ok address => (some address, [])
    | .error _ => (none, [.ignoredSetting .start text])

/-- The region an item of the list of regions gives, if it is well formed. -/
def regionItem (item : List Char) : List Region × List Event :=
  match Settings.readRegion (String.ofList (Text.strip item)) with
  | .ok region => ([region], [])
  | .error _ => ([], [.ignoredSetting .romRegion (String.ofList item)])

/-- The regions of a list with commas between its items. -/
def romSetting (text : String) : List Region × List Event :=
  if text.isEmpty then ([], [])
  else
    let items := (Text.pieces ',' text.toList).map regionItem
    (items.flatMap (·.1), items.flatMap (·.2))

/-- The number of instructions in a listing. -/
def listCountSetting (text : String) (default : Int) : Int × List Event :=
  if text.isEmpty then (default, [])
  else
    match Text.Numeral.decimal? text.toList with
    | some count => (count, [])
    | none => (default, [.ignoredSetting .listCount text])

/-- The settings an environment gives, and what was ignored in it. -/
def settings (env : Environment) : Settings × List Event :=
  let default : Settings := {}
  let (start, startEvents) := startSetting env.start
  let (rom, romEvents) := romSetting env.rom
  let (listCount, countEvents) := listCountSetting env.listCount default.listCount
  ({ default with start, rom, listCount }, startEvents ++ romEvents ++ countEvents)

end Environment

end LineMonitor
