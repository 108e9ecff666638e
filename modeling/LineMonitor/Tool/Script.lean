import LineMonitor.Event
import LineMonitor.Text.Lines
import LineMonitor.Text.Utf8
import LineMonitor.Tool.Failure

/-!
# Scripts

A script is the input of the assembler in a file, which is read block by block as lines
are needed.  Bytes that are not UTF-8 text stop the run where their block is needed; if
only the last character is cut off, that is where more input than there is is needed.
-/

namespace LineMonitor.Tool

/-- The text that can be read as input, and why reading stops at its end. -/
structure Script where
  text : List Char
  /-- Why it cannot be read on; without trouble the input is at its end. -/
  trouble? : Option Trouble := none
  /-- Whether the lines are echoed; those typed on a terminal are seen already. -/
  echo : Bool := true
  deriving DecidableEq, Repr

namespace Script

/-- The text without a carriage return that is its last character. -/
def dropReturn (text : List Char) : List Char :=
  if text.getLast? = some '\r' then text.dropLast else text

/-- The most bytes that are read at a time. -/
def blockSize : Nat := 8192

/-- Bytes in the blocks in which they are read. -/
def blocks (data : List Byte) : List (List Byte) :=
  (List.range ((data.length + blockSize - 1) / blockSize)).map fun i =>
    (data.drop (i * blockSize)).take blockSize

/-- What is wrong with the bytes, in words. -/
def flawText : Text.Utf8.Flaw → String
  | .startByte => "invalid start byte"
  | .continuationByte => "invalid continuation byte"
  | .unfinished => "unexpected end of data"

/-- The complaint about bytes that are not UTF-8 text. -/
def complaint (x : Text.Utf8.Malformed) : String :=
  let last := x.position + x.bytes.length - 1
  let place :=
    match x.bytes with
    | [b] =>
      "byte 0x" ++ String.ofList (Text.codePointDigits 2 b.toNat) ++ " in position " ++
        toString x.position
    | _ => "bytes in position " ++ toString x.position ++ "-" ++ toString last
  "'utf-8' codec can't decode " ++ place ++ ": " ++ flawText x.flaw

/-- The script with the given bytes.  An unfinished line before malformed bytes is never
read. -/
def ofBytes (data : List Byte) : Script :=
  let decoded := Text.Utf8.decodeBlocks [] (blocks data)
  match decoded.malformed with
  | none => { text := Text.universal decoded.text }
  | some x =>
    { text := Text.completeLines (Text.universal (dropReturn decoded.text))
      trouble? := some (.other (complaint x)) }

/-- Whether an entry says that the input is at its end. -/
def isEndOfInput : Entry → Bool
  | .logged .endOfInput => true
  | _ => false

end Script

end LineMonitor.Tool
