import LineMonitor.Text.ControlSequence
import LineMonitor.Text.Quoted
import LineMonitor.Text.Utf8

/-!
# Texts with bytes in them

The system hands names of files over as bytes, and these need not be UTF-8.  In such a text
each byte that is not part of a character stands for itself.  A text with bytes in it cannot
be written as UTF-8.
-/

namespace LineMonitor.Tool

/-- A character, or a byte that is not part of one. -/
inductive RawChar where
  | char (c : Char)
  | byte (b : Byte)
  deriving DecidableEq, Repr

/-- Whether it is a byte. -/
def RawChar.isByte : RawChar → Bool
  | char _ => false
  | byte _ => true

/-- The character; for a byte the one that marks what cannot be shown. -/
def RawChar.shown : RawChar → Char
  | char c => c
  | byte _ => '\uFFFD'

/-- A text that may have bytes in it. -/
abbrev RawText := List RawChar

namespace RawText

/-- A text without bytes. -/
def ofString (text : String) : RawText :=
  text.toList.map .char

/-- The text as it is shown. -/
def shown (t : RawText) : String :=
  String.ofList (t.map (·.shown))

/-- The complaint about bytes from a position on, in a text to be encoded. -/
def complaint (position : Nat) (bytes : RawText) : String :=
  let place :=
    match bytes with
    | [.byte b] =>
      "character '\\udc" ++ String.ofList (Text.codePointDigits 2 b.toNat) ++ "' in position " ++
        toString position
    | _ =>
      "characters in position " ++ toString position ++ "-" ++
        toString (position + bytes.length - 1)
  "'utf-8' codec can't encode " ++ place ++ ": surrogates not allowed"

/-- The text as UTF-8, or the complaint about the first bytes in it. -/
def encode (t : RawText) : Except String (List Byte) :=
  match (t.dropWhile (!·.isByte)).takeWhile (·.isByte) with
  | [] => .ok (Text.Utf8.encode t.shown)
  | bytes => .error (complaint (t.takeWhile (!·.isByte)).length bytes)

/-- The text without control sequences; none goes across a byte. -/
def plain (t : RawText) : RawText :=
  (t.splitBy fun x y => x.isByte == y.isByte).flatMap fun run =>
    if run.any (·.isByte) then run
    else (Text.plainAfter 0 (run.map (·.shown))).map .char

end RawText

end LineMonitor.Tool
