import LineMonitor.Address
import LineMonitor.Text.Blank
import LineMonitor.Text.Hex
import LineMonitor.Text.UpperCase

/-!
# Commands of the monitor

`A` with an address assembles from there, `L` with an address lists from there, and
`Q` stops.  An address is typed as exactly four hexadecimal digits.
-/

namespace LineMonitor

/-- Why a command was rejected. -/
structure Rejection where
  command : String
  reason : String := "Invalid command"
  deriving DecidableEq, Repr

/-- The address typed behind a command: four hexadecimal digits of either case. -/
def readAddress (text : List Char) : Except Rejection Address :=
  let digits := Text.upper (Text.strip text)
  let refusal : Rejection := ⟨String.ofList digits, "Invalid address"⟩
  if digits.length ≠ 4 then .error refusal
  else
    match Hex.value? digits with
    | some value => .ok (BitVec.ofNat 16 value)
    | none => .error refusal

/-- What a command asks for. -/
inductive Command where
  | nothing
  | quit
  | assemble (address : Address)
  | list (address : Address)
  deriving DecidableEq, Repr

/-- The command that a text stands for. -/
def Command.read (text : String) : Except Rejection Command :=
  let stripped := Text.strip text.toList
  match stripped with
  | [] => .ok .nothing
  | verb :: rest =>
    let argument := Text.strip rest
    if verb = 'Q' ∧ argument = [] then .ok .quit
    else if verb = 'A' then (readAddress argument).map .assemble
    else if verb = 'L' then (readAddress argument).map .list
    else .error ⟨String.ofList stripped, "Invalid command"⟩

end LineMonitor
