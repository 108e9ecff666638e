/-!
# Terminal control sequences

An escape character and a bracket begin a sequence that controls a terminal.
Parameters follow, then intermediate characters, and a final character ends it.
Output that does not go to a terminal is freed of such sequences.
-/

namespace LineMonitor.Text

/-- Whether a character can be a parameter of a control sequence: a digit or one of
`:;<=>?`. -/
def isParameter (c : Char) : Bool :=
  '0' ≤ c && c ≤ '?'

/-- Whether a character can stand between the parameters and the end of a control
sequence: a blank or one of the signs up to the slash. -/
def isIntermediate (c : Char) : Bool :=
  ' ' ≤ c && c ≤ '/'

/-- Whether a character ends a control sequence: a letter or a sign from `@` on. -/
def isFinal (c : Char) : Bool :=
  '@' ≤ c && c ≤ '~'

/-- The length of the control sequence at the front of a text, if there is one. -/
def sequenceLength? : List Char → Option Nat
  | '\x1b' :: '[' :: rest =>
    let parameters := rest.takeWhile isParameter
    let behind := rest.dropWhile isParameter
    let intermediates := behind.takeWhile isIntermediate
    match behind.dropWhile isIntermediate with
    | c :: _ => if isFinal c then some (3 + parameters.length + intermediates.length) else none
    | [] => none
  | _ => none

/-- The text after `skipped` characters, without control sequences. -/
def plainAfter : Nat → List Char → List Char
  | _, [] => []
  | skipped + 1, _ :: rest => plainAfter skipped rest
  | 0, c :: rest =>
    match sequenceLength? (c :: rest) with
    | some length => plainAfter (length - 1) rest
    | none => c :: plainAfter 0 rest

/-- The text without control sequences. -/
def plain (text : String) : String :=
  String.ofList (plainAfter 0 text.toList)

/-- A text without escape characters has no control sequences. -/
theorem plainAfter_eq_self {text : List Char} (h : '\x1b' ∉ text) : plainAfter 0 text = text := by
  induction text with
  | nil => rfl
  | cons c rest ih =>
    simp only [List.mem_cons, not_or] at h
    have none_here : sequenceLength? (c :: rest) = none := by
      unfold sequenceLength?
      split
      · rename_i heq
        exact absurd (List.cons.inj heq).1.symm h.1
      · rfl
    simp [plainAfter, none_here, ih h.2]

end LineMonitor.Text
