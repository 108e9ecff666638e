import LineMonitor.Instruction.Encoding
import LineMonitor.Operand.Coding
import LineMonitor.Text.Blank
import LineMonitor.Text.Search

/-!
# Listings

A listing shows machine code as instructions in the form in which they are typed, one
row for each.  A byte that is no opcode, and an instruction cut off by the end of the
code, have rows of their own with a comment.
-/

namespace LineMonitor

/-- One row of a listing. -/
structure Row where
  address : Int
  raw : List Byte
  mnemonic : String
  mode : Option Mode := none
  operand : String := ""
  comment : String := ""
  deriving DecidableEq, Repr

namespace Row

/-- The number of bytes of the instruction. -/
def size (r : Row) : Nat :=
  r.raw.length

/-- The instruction as it is typed. -/
def text (r : Row) : String :=
  if r.operand.isEmpty then r.mnemonic else r.mnemonic ++ " " ++ r.operand

/-- The text with blanks behind it up to `width` characters. -/
def padEnd (width : Nat) (text : String) : String :=
  text ++ String.ofList (List.replicate (width - text.length) ' ')

/-- The column in which a comment begins. -/
def commentColumn : Nat := 30

/-- The row with address, bytes and instruction in columns. -/
def line (r : Row) : String :=
  let columns := Hex.ofInt 4 r.address ++ "  " ++ padEnd 8 (Hex.ofBytes r.raw) ++ "  " ++ r.text
  let full :=
    if r.comment.isEmpty then columns
    else padEnd commentColumn columns ++ "; " ++ r.comment
  String.ofList (Text.stripEnd full.toList)

/-- The row without its bytes, as at an address prompt. -/
def promptLine (r : Row) : String :=
  let typed := Hex.ofInt 4 r.address ++ ": " ++ r.text
  if r.comment.isEmpty then typed else typed ++ "  ; " ++ r.comment

/-- The text of the bytes behind an opcode at an address: the target of a branch, and else
the pattern of the mode with the number of the bytes in the place of its digits. -/
def formatOperand (mode : Mode) (data : List Byte) (address : Int) : String :=
  if mode = .relative then Hex.ofInt 4 ((address + 2 + signedLittleEndian data) % 65536)
  else if mode.operandLength = 0 then mode.shape.pattern
  else
    let width := 2 * mode.operandLength
    let digits := Hex.ofInt width (littleEndian data)
    String.ofList
      (Text.replace (List.replicate width 'n') digits.toList mode.shape.pattern.toList)

/-- The row of an opcode at an address; `fetch` gives as many bytes of code from the
opcode on as there are, up to a number. -/
def decode (address : Int) (opcode : Byte) (fetch : Nat → List Byte) : Row :=
  match Encoding.ofOpcode? opcode with
  | none => { address, raw := [opcode], mnemonic := "???", comment := "unknown opcode" }
  | some encoding =>
    let raw := fetch encoding.length
    let row : Row :=
      { address, raw, mnemonic := encoding.mnemonic.name, mode := some encoding.mode }
    if raw.length < encoding.length then { row with comment := "incomplete instruction" }
    else { row with operand := formatOperand encoding.mode (raw.drop 1) address }

/-- The row of the instruction at the front of code that begins with an opcode. -/
def ofCode (address : Int) (opcode : Byte) (rest : List Byte) : Row :=
  decode address opcode fun length => (opcode :: rest).take length

end Row

/-- Up to `limit` rows of code that begins at an address. -/
def rows : Nat → Int → List Byte → List Row
  | 0, _, _ => []
  | _ + 1, _, [] => []
  | limit + 1, address, opcode :: rest =>
    let row := Row.ofCode address opcode rest
    row :: rows limit ((address + row.size) % 65536) (rest.drop (row.size - 1))

/-- The listing of code that begins at an address, of at most `limit` rows if there is a
limit. -/
def listing (address : Int) (code : List Byte) (limit : Option Int := none) : List Row :=
  rows ((limit.map Int.toNat).getD code.length) address code

/-- The rows of a listing as lines of text. -/
def listingText (address : Int) (code : List Byte) (limit : Option Int := none) : String :=
  "\n".intercalate ((listing address code limit).map (·.line))

/-! ### Places inside code -/

/-- Why there is no instruction at a place of the code. -/
inductive PlaceError where
  /-- The code ends before the place. -/
  | beyondEnd (offset : Int) (size : Nat)
  /-- The code begins behind the place. -/
  | beforeStart
  /-- The place is so far before the code that it has no number. -/
  | unnumbered
  deriving DecidableEq, Repr

/-- The complaint about a place outside the code. -/
def PlaceError.message : PlaceError → String
  | beyondEnd offset size =>
    "Offset " ++ toString offset ++ " beyond data length " ++ toString size
  | beforeStart => "index out of range"
  | unnumbered => "cannot fit 'int' into an index-sized integer"

/-- The least number of a place, the least integer of 64 bits. -/
def leastPlace : Int := -9223372036854775808

/-- The number of a place that may be counted from the end with a negative offset, held
between 0 and `size`. -/
def place (size : Nat) (offset : Int) : Nat :=
  if offset < 0 then (size + offset).toNat else min offset.toNat size

/-- The row of the instruction at an offset into code; a negative offset counts from
the end. -/
def rowAt (code : List Byte) (address offset : Int) : Except PlaceError Row :=
  if code.length ≤ offset then .error (.beyondEnd offset code.length)
  else if offset < leastPlace then .error .unnumbered
  else if offset < -code.length then .error .beforeStart
  else
    let start := place code.length offset
    match code[start]? with
    | none => .error .beforeStart
    | some opcode =>
      .ok <| Row.decode address opcode fun length =>
        (code.take (place code.length (offset + length))).drop start

end LineMonitor
