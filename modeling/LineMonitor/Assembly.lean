import LineMonitor.Line

/-!
# Assembling line after line

Lines are assembled one after another, each at the address after the instruction
before it, until Escape or the end of the input stands in the place of a mnemonic.
-/

namespace LineMonitor

/-- What was assembled between a start and an end address. -/
structure Assembly where
  start : Address
  finish : Address
  results : List Line
  deriving DecidableEq, Repr

namespace Assembly

/-- The number of lines that were assembled. -/
def lines (s : Assembly) : Nat :=
  s.results.countP fun r => r.outcome == .success

/-- The number of lines that were refused. -/
def errors (s : Assembly) : Nat :=
  s.results.countP fun r => r.outcome.isError

/-- The number of bytes from the start to the end address. -/
def length (s : Assembly) : Nat :=
  (s.finish - s.start).toNat

end Assembly

/-- The lines assembled in one go, with memory and console after them. -/
structure LinesRun where
  memory : Memory
  console : Console
  transcript : Transcript
  results : List Line
  finish : Address

/-- Assembles lines from an address on until Escape or the end of the input. -/
def enterLines (m : Memory) (c : Console) (a : Address) : LinesRun :=
  let step := enterLine m c a
  if h : step.result.ending = .ended then ⟨step.memory, step.console, step.transcript, [], a⟩
  else
    have := length_enterLine_lt m c a h
    let later := enterLines step.memory step.console step.result.next
    { later with
      transcript := step.transcript ++ later.transcript
      results := step.result :: later.results }
termination_by c.unread.length

/-- Assembling does not add to the input. -/
theorem length_enterLines_le (m : Memory) (c : Console) (a : Address) :
    (enterLines m c a).console.unread.length ≤ c.unread.length := by
  fun_induction enterLines m c a with
  | case1 m c a step h => exact length_enterLine_le m c a
  | case2 m c a step h _ later ih => exact Nat.le_trans ih (length_enterLine_le m c a)

end LineMonitor
