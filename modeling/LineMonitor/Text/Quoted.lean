import LineMonitor.Text.Printable

/-!
# Quoted text

A text is shown between single quotes, or between double quotes if it holds a
single quote and no double one.  Inside, the backslash and the chosen quote carry
a backslash, tab, line feed and carriage return are written with a letter, and
every other character that is not printable is written by its code point.
-/

namespace LineMonitor.Text

/-- The code point `n` in `width` lower-case hexadecimal digits. -/
def codePointDigits (width n : Nat) : List Char :=
  let digits := Nat.toDigits 16 n
  List.replicate (width - digits.length) '0' ++ digits

/-- The escape of a character that is not printable. -/
def codePointEscape (c : Char) : List Char :=
  let n := c.toNat
  if n < 0x100 then '\\' :: 'x' :: codePointDigits 2 n
  else if n < 0x10000 then '\\' :: 'u' :: codePointDigits 4 n
  else '\\' :: 'U' :: codePointDigits 8 n

/-- A character as it is written between quotes of the form `quote`. -/
def quotedChar (quote c : Char) : List Char :=
  if c = quote || c = '\\' then ['\\', c]
  else if c = '\t' then ['\\', 't']
  else if c = '\n' then ['\\', 'n']
  else if c = '\r' then ['\\', 'r']
  else if isPrintable c then [c]
  else codePointEscape c

/-- The quote to put around a text. -/
def chooseQuote (text : List Char) : Char :=
  if text.contains '\x27' && !text.contains '\x22' then '\x22' else '\x27'

/-- The text between quotes. -/
def quoted (text : String) : String :=
  let quote := chooseQuote text.toList
  String.ofList (quote :: text.toList.flatMap (quotedChar quote) ++ [quote])

end LineMonitor.Text
