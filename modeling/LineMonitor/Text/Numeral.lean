import LineMonitor.Text.Blank
import LineMonitor.Text.DecimalDigit

/-!
# Integer numerals

The numerals that options and settings accept: white space around them, an
optional sign, digits of any script with single underscores between them and, in
base sixteen, an optional `0x` in front, which one underscore may follow.
-/

namespace LineMonitor.Text.Numeral

/-- A decimal digit of any script as its ASCII digit, other white space beyond
ASCII as a blank, and every other character as it is. -/
def plainChar (c : Char) : Char :=
  if c.toNat < 0x80 then c
  else if isBlank c then ' '
  else
    match decimalValue? c with
    | some d => Char.ofNat (48 + d)
    | none => c

/-- The white space that may surround a numeral. -/
def isSpace (c : Char) : Bool :=
  c == ' ' || (9 ≤ c.toNat && c.toNat ≤ 13)

/-- The text without the white space around it. -/
def trim (text : List Char) : List Char :=
  ((text.dropWhile isSpace).reverse.dropWhile isSpace).reverse

/-- The value of a digit or of a letter from `a` to `z`, taken as a digit beyond 9. -/
def digitValue? (c : Char) : Option Nat :=
  if '0' ≤ c ∧ c ≤ '9' then some (c.toNat - 48)
  else if 'a' ≤ c ∧ c ≤ 'z' then some (c.toNat - 87)
  else if 'A' ≤ c ∧ c ≤ 'Z' then some (c.toNat - 55)
  else none

/-- The value of a digit of the given base. -/
def digitIn? (base : Nat) (c : Char) : Option Nat :=
  (digitValue? c).filter (· < base)

/-- The value of digits that stand behind digits of value `high`; a single
underscore may precede each of them. -/
def valueAfter? (base high : Nat) : List Char → Option Nat
  | [] => some high
  | '_' :: c :: rest =>
    (digitIn? base c).bind fun d => valueAfter? base (base * high + d) rest
  | c :: rest => (digitIn? base c).bind fun d => valueAfter? base (base * high + d) rest

/-- The value of one or more digits with single underscores between them. -/
def magnitude? (base : Nat) : List Char → Option Nat
  | [] => none
  | c :: rest => (digitIn? base c).bind fun d => valueAfter? base d rest

/-- Digits of base sixteen, with the optional mark `0x` in front. -/
def hexMagnitude? : List Char → Option Nat
  | '0' :: x :: rest =>
    if x = 'x' ∨ x = 'X' then
      match rest with
      | '_' :: digits => magnitude? 16 digits
      | digits => magnitude? 16 digits
    else magnitude? 16 ('0' :: x :: rest)
  | digits => magnitude? 16 digits

/-- The most digits that a decimal numeral may have. -/
def maxDecimalDigits : Nat := 4300

/-- Digits of base ten, at most `maxDecimalDigits` of them. -/
def decimalMagnitude? (digits : List Char) : Option Nat :=
  if (digits.filter (· != '_')).length ≤ maxDecimalDigits then magnitude? 10 digits else none

/-- A magnitude with an optional sign in front. -/
def signed? (magnitude? : List Char → Option Nat) : List Char → Option Int
  | '+' :: rest => (magnitude? rest).map Int.ofNat
  | '-' :: rest => (magnitude? rest).map fun n => -Int.ofNat n
  | rest => (magnitude? rest).map Int.ofNat

/-- The integer a numeral of base sixteen stands for. -/
def hex? (text : List Char) : Option Int :=
  signed? hexMagnitude? (trim (text.map plainChar))

/-- The integer a numeral of base ten stands for. -/
def decimal? (text : List Char) : Option Int :=
  signed? decimalMagnitude? (trim (text.map plainChar))

end LineMonitor.Text.Numeral
