import LineMonitor.Memory.Region
import LineMonitor.Text.Lines
import LineMonitor.Text.Numeral
import LineMonitor.Text.Quoted

/-!
# Addresses and regions as they are written in options

Outside the monitor an address is a hexadecimal numeral, perhaps marked with `$` or
`0x`, and a region is two addresses with a dash between them.  The monitor's own
prompt is stricter.
-/

namespace LineMonitor

/-- Why a text is no address. -/
inductive AddressError where
  | notANumber (text : String)
  | outOfRange (value : Int)
  deriving DecidableEq, Repr

/-- The most characters of a quoted text that a complaint about a number shows. -/
def shownLimit : Nat := 200

/-- The complaint about a text that is no address.  A long text is cut off after it was
quoted, with the closing quote. -/
def AddressError.message : AddressError → String
  | notANumber text =>
    "invalid literal for int() with base 16: " ++
      String.ofList ((Text.quoted text).toList.take shownLimit)
  | outOfRange value => "address $" ++ Hex.ofInt 0 value ++ " out of range"

/-- Why a text is no region. -/
inductive RegionError where
  | noDash (text : String)
  | badAddress (error : AddressError)
  | reversed (text : String)
  deriving DecidableEq, Repr

/-- The complaint about a text that is no region. -/
def RegionError.message : RegionError → String
  | noDash text => "region '" ++ text ++ "' must be START-END"
  | badAddress error => error.message
  | reversed text => "region '" ++ text ++ "' ends before it starts"

namespace Settings

/-- The text without one mark of base sixteen at its front. -/
def dropMark : List Char → List Char
  | '$' :: rest => rest
  | '0' :: x :: rest => if x = 'x' ∨ x = 'X' then rest else '0' :: x :: rest
  | text => text

/-- The number of an address as it is written in an option. -/
def readNumber (text : List Char) : Except AddressError Int :=
  let digits := dropMark (Text.strip text)
  match Text.Numeral.hex? digits with
  | none => .error (.notANumber (String.ofList digits))
  | some value => if 0 ≤ value ∧ value ≤ 0xFFFF then .ok value else .error (.outOfRange value)

/-- The address written in an option. -/
def readAddress (text : String) : Except AddressError Int :=
  readNumber text.toList

/-- The region written in an option. -/
def readRegion (text : String) : Except RegionError Region :=
  let chars := text.toList
  if !chars.contains '-' then .error (.noDash text)
  else
    match readNumber (chars.takeWhile (· != '-')) with
    | .error e => .error (.badAddress e)
    | .ok first =>
      match readNumber ((chars.dropWhile (· != '-')).drop 1) with
      | .error e => .error (.badAddress e)
      | .ok last =>
        match Region.ofBounds? first last with
        | some r => .ok r
        | none => .error (.reversed text)

end Settings

end LineMonitor
