import LineMonitor.Event
import LineMonitor.Operand
import LineMonitor.Text.Blank
import LineMonitor.Text.Lines
import LineMonitor.Text.Search
import LineMonitor.Text.UpperCase

/-!
# Console input

The input is a list of lines.  A line holds a mnemonic, which is its first three
letters, and an operand, which is kept until it is asked for; `;` begins a comment.
The escape character, and the end of the input, take the place of an answer.
-/

namespace LineMonitor

/-- The input of the monitor: the lines still to be read, and what is left of the
line whose mnemonic was read last. -/
structure Console where
  unread : List (List Char)
  escape : List Char
  remainder : Option (List Char) := none
  deriving DecidableEq, Repr

/-- The answer of the console to a question, with the console after it and what it
told its surroundings; no answer means Escape. -/
structure Reading where
  console : Console
  transcript : Transcript
  answer : Option String

namespace Console

/-- A console that reads a text. -/
def ofText (text : List Char) (escape : String) : Console where
  unread := Text.typedLines text
  escape := escape.toList

/-- The entry that echoes a line. -/
def echoed (c : Console) (line : List Char) : Entry :=
  .typed (String.ofList (Text.erase c.escape line))

/-- The part of a line before its comment, in upper case. -/
def uncommented (line : List Char) : List Char :=
  Text.upper (line.takeWhile (· != ';'))

/-- Whether a character is one of the letters of mnemonics. -/
def isLetter (c : Char) : Bool :=
  'A' ≤ c && c ≤ 'Z'

/-- The first `wanted` letters of a line and what stands behind them, unless the
escape character comes before; a line with fewer letters leaves nothing behind. -/
def splitLetters? (escape : List Char) : Nat → List Char → Option (List Char × List Char)
  | 0, rest => some ([], rest)
  | _ + 1, [] => some ([], [])
  | wanted + 1, c :: rest =>
    if escape = [c] then none
    else if isLetter c then
      (splitLetters? escape wanted rest).map fun (letters, behind) => (c :: letters, behind)
    else splitLetters? escape (wanted + 1) rest

/-- The number of letters of a mnemonic. -/
def mnemonicLength : Nat := 3

/-- Reads lines up to the first that is not blank and answers with its mnemonic. -/
def nextMnemonic (c : Console) : List (List Char) → Reading
  | [] => ⟨{ c with unread := [], remainder := none }, [.logged .endOfInput], none⟩
  | line :: rest =>
    let shown := uncommented line
    match splitLetters? c.escape mnemonicLength shown with
    | none =>
      ⟨{ c with unread := rest, remainder := none },
        [c.echoed line, .logged .escapeAtMnemonic], none⟩
    | some (letters, behind) =>
      if letters.isEmpty && shown.all Text.isBlank then
        let later := nextMnemonic c rest
        { later with transcript := c.echoed line :: later.transcript }
      else
        ⟨{ c with unread := rest, remainder := some behind }, [c.echoed line],
          some (String.ofList letters)⟩

/-- The mnemonic of the next line that is not blank.  An escape that was left behind
the last mnemonic answers in its place. -/
def takeMnemonic (c : Console) : Reading :=
  match c.remainder with
  | some behind =>
    if Text.occurs c.escape behind then
      ⟨{ c with remainder := none }, [.logged .escapeLeftOver], none⟩
    else c.nextMnemonic c.unread
  | none => c.nextMnemonic c.unread

/-- The operand behind the last mnemonic, without the characters that no operand
holds; it can be read once. -/
def takeOperand (c : Console) : Reading :=
  let behind := c.remainder.getD []
  let console := { c with remainder := none }
  if Text.occurs c.escape behind then ⟨console, [.logged .escapeAtOperand], none⟩
  else ⟨console, [], some (String.ofList (behind.filter Operand.alphabet.contains))⟩

/-- The next line as a command of the monitor. -/
def takeCommand (c : Console) : Reading :=
  match c.unread with
  | [] => ⟨{ c with remainder := none }, [.logged .endOfInput], none⟩
  | line :: rest =>
    let console := { c with unread := rest, remainder := none }
    if Text.occurs c.escape line then ⟨console, [c.echoed line], none⟩
    else ⟨console, [c.echoed line], some (String.ofList (Text.strip (uncommented line)))⟩

/-! ### How much input is used up -/

theorem length_nextMnemonic_le (c : Console) (lines : List (List Char)) :
    (c.nextMnemonic lines).console.unread.length ≤ lines.length := by
  induction lines with
  | nil => simp [nextMnemonic]
  | cons line rest ih =>
    simp only [nextMnemonic, List.length_cons]
    split
    · simp
    · split
      · exact Nat.le_succ_of_le ih
      · simp

theorem length_nextMnemonic_lt (c : Console) (lines : List (List Char))
    (h : (c.nextMnemonic lines).answer ≠ none) :
    (c.nextMnemonic lines).console.unread.length < lines.length := by
  induction lines with
  | nil => simp [nextMnemonic] at h
  | cons line rest ih =>
    revert h
    simp only [nextMnemonic, List.length_cons]
    split
    · simp
    · split
      · exact fun h => Nat.lt_succ_of_lt (ih h)
      · simp

/-- Reading a mnemonic does not add to the input. -/
theorem length_takeMnemonic_le (c : Console) :
    c.takeMnemonic.console.unread.length ≤ c.unread.length := by
  simp only [takeMnemonic]
  split
  · split
    · simp
    · exact c.length_nextMnemonic_le c.unread
  · exact c.length_nextMnemonic_le c.unread

/-- A mnemonic that is read uses up a line. -/
theorem length_takeMnemonic_lt (c : Console) (h : c.takeMnemonic.answer ≠ none) :
    c.takeMnemonic.console.unread.length < c.unread.length := by
  revert h
  simp only [takeMnemonic]
  split
  · split
    · simp
    · exact c.length_nextMnemonic_lt c.unread
  · exact c.length_nextMnemonic_lt c.unread

@[simp] theorem unread_takeOperand (c : Console) :
    c.takeOperand.console.unread = c.unread := by
  simp only [takeOperand]
  split <;> rfl

/-- A command that is read uses up a line. -/
theorem length_takeCommand_lt (c : Console) (h : c.takeCommand.answer ≠ none) :
    c.takeCommand.console.unread.length < c.unread.length := by
  revert h
  simp only [takeCommand]
  split
  · simp
  · rename_i line rest hc
    split <;> simp [hc]

end Console

end LineMonitor
