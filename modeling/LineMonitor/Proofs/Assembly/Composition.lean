import LineMonitor.Session
import LineMonitor.Proofs.Assembly.Run
import LineMonitor.Proofs.Line.Alone

/-!
# Assembling one text behind another

Between two lines nothing is carried on but memory and the address.  `upshot` is what a run over
given lines comes to; there is an equation for each kind of first line, according to what the
line holds (`upshot_cons_of_blank`, `upshot_cons_of_early`, `upshot_cons_of_not_stops`,
`upshot_cons_of_unasked`).  Lines after which the run goes on may therefore be assembled in a run
of their own, and what stands behind them in a second one (`upshot_append`).
`Session.assemble_append` says this of texts.
-/

namespace LineMonitor

open Console

/-- What a run of lines comes to, apart from what it tells. -/
structure Upshot where
  memory : Memory
  console : Console
  results : List Line
  finish : Address

/-- What a run comes to if these lines were assembled before it. -/
def Upshot.behind (later : Upshot) (front : List Line) : Upshot :=
  { later with results := front ++ later.results }

@[simp] theorem Upshot.behind_nil (later : Upshot) : later.behind [] = later := rfl

@[simp] theorem Upshot.behind_behind (later : Upshot) (front middle : List Line) :
    (later.behind middle).behind front = later.behind (front ++ middle) := by
  simp [behind]

/-- What a run comes to. -/
def LinesRun.upshot (run : LinesRun) : Upshot :=
  ⟨run.memory, run.console, run.results, run.finish⟩

/-- What assembling these lines from an address on comes to. -/
def upshot (m : Memory) (lines : List (List Char)) (a : Address) : Upshot :=
  (enterLines m (holding lines) a).upshot

/-! ## The first line of a run -/

section Equations

variable {m : Memory} {c : Console} {a : Address}

theorem upshot_enterLines_of_ended (h : (enterLine m c a).result.ending = .ended) :
    (enterLines m c a).upshot = ⟨m, (enterLine m c a).console, [], a⟩ := by
  have hmemory := (touching_enterLine m c a).memory_eq_of_ended h
  rw [enterLines_of_ended h, LinesRun.upshot, hmemory]

theorem upshot_enterLines_of_not_ended (h : (enterLine m c a).result.ending ≠ .ended) :
    let step := enterLine m c a
    (enterLines m c a).upshot =
      (enterLines step.memory step.console step.result.next).upshot.behind [step.result] := by
  intro step
  rw [enterLines_of_not_ended h]
  rfl

/-- Nor does it make a difference to the run that goes on from there. -/
theorem Console.Ready.upshot_eq {lines : List (List Char)} (h : c.Ready lines) (m : Memory)
    (a : Address) : (enterLines m c a).upshot = upshot m lines a := by
  have hstep := h.enterLine_eq m a
  unfold upshot
  by_cases hended : (enterLine m c a).result.ending = .ended
  · have hended' : (enterLine m (holding lines) a).result.ending = .ended := by rwa [← hstep]
    rw [upshot_enterLines_of_ended hended, upshot_enterLines_of_ended hended', hstep]
  · have hended' : (enterLine m (holding lines) a).result.ending ≠ .ended := by rwa [← hstep]
    rw [upshot_enterLines_of_not_ended hended, upshot_enterLines_of_not_ended hended', hstep]

end Equations

section FirstLine

variable (m : Memory) (a : Address) {line : List Char} (rest : List (List Char))

/-- Without lines nothing is assembled. -/
theorem upshot_nil : upshot m [] a = ⟨m, holding [], [], a⟩ := by
  have hanswer : (holding []).takeMnemonic.answer = none :=
    (ready_holding []).answer_takeMnemonic_eq_none
  obtain ⟨-, hconsole, hended⟩ := enterLine_of_no_answer hanswer m a
  rw [upshot, upshot_enterLines_of_ended hended, hconsole]
  rfl

/-- A blank line makes no difference. -/
theorem upshot_cons_of_blank (h : IsBlankLine line) :
    upshot m (line :: rest) a = upshot m rest a := by
  obtain ⟨hmemory, hconsole, hresult⟩ := enterLine_holding_of_blank m a rest h
  unfold upshot
  by_cases hended : (enterLine m (holding rest) a).result.ending = .ended
  · have hended' : (enterLine m (holding (line :: rest)) a).result.ending = .ended := by
      rwa [hresult]
    rw [upshot_enterLines_of_ended hended, upshot_enterLines_of_ended hended', hconsole]
  · have hended' : (enterLine m (holding (line :: rest)) a).result.ending ≠ .ended := by
      rwa [hresult]
    rw [upshot_enterLines_of_not_ended hended, upshot_enterLines_of_not_ended hended', hmemory,
      hconsole, hresult]

/-- With Escape before its mnemonic is complete, a line is not assembled, and the last that is
read. -/
theorem upshot_cons_of_early (h : EscapesEarly line) :
    upshot m (line :: rest) a = ⟨m, holding rest, [], a⟩ := by
  obtain ⟨-, hconsole, hended⟩ := enterLine_holding_of_early m a rest h
  rw [upshot, upshot_enterLines_of_ended hended, hconsole]

/-- A line after which the run goes on is assembled as if it were alone, and so are the lines
behind it over the memory and from the address that it leaves. -/
theorem upshot_cons_of_not_stops (hblank : ¬ IsBlankLine line) (h : ¬ Stops line) :
    let alone := enterLine m (holding [line]) a
    upshot m (line :: rest) a =
      (upshot alone.memory rest alone.result.next).behind [alone.result] := by
  intro alone
  obtain ⟨hmemory, hresult, hended, hready⟩ := enterLine_holding_of_not_stops m a rest hblank h
  rw [upshot, upshot_enterLines_of_not_ended hended, hready.upshot_eq, hmemory, hresult]

/-- With Escape behind a mnemonic that asks for no operand, a line is assembled as it would be
without, and the last that is read. -/
theorem upshot_cons_of_unasked (hescape : HasEscape line) (hlate : ¬ EscapesEarly line)
    (hno : ¬ AsksOperand line) :
    let alone := enterLine m (holding [Text.erase ['\x1b'] line]) a
    upshot m (line :: rest) a =
      ⟨alone.memory, holding rest, [alone.result], alone.result.next⟩ := by
  intro alone
  obtain ⟨hmemory, hresult, hended, hconsole⟩ :=
    enterLine_holding_of_unasked m a rest hescape hlate hno
  -- the escape left behind is noticed at the next prompt
  obtain ⟨hanswer, hleft⟩ := takeMnemonic_of_hasEscape hescape hlate rest
  obtain ⟨-, hconsole', hended'⟩ := enterLine_of_no_answer hanswer alone.memory alone.result.next
  rw [upshot, upshot_enterLines_of_not_ended hended, hmemory, hresult, hconsole,
    upshot_enterLines_of_ended hended', hconsole', hleft]
  rfl

end FirstLine

/-! ## One run behind another -/

/-- Lines after which the run goes on may be assembled in a run of their own, and the lines behind
them over the memory and from the address that it leaves. -/
theorem upshot_append (m : Memory) (a : Address) {front : List (List Char)}
    (h : ∀ line ∈ front, ¬ Stops line) (back : List (List Char)) :
    let first := upshot m front a
    upshot m (front ++ back) a = (upshot first.memory back first.finish).behind first.results := by
  intro first
  induction front generalizing m a with
  | nil =>
    have hfirst : first = ⟨m, holding [], [], a⟩ := upshot_nil m a
    rw [hfirst, List.nil_append, Upshot.behind_nil]
  | cons line front ih =>
    obtain ⟨hline, hfront⟩ := List.forall_mem_cons.mp h
    rw [List.cons_append]
    by_cases hblank : IsBlankLine line
    · have hfirst : first = upshot m front a := upshot_cons_of_blank m a front hblank
      rw [upshot_cons_of_blank m a (front ++ back) hblank, ih m a hfront, hfirst]
    · let alone := enterLine m (holding [line]) a
      have hfirst : first = (upshot alone.memory front alone.result.next).behind [alone.result] :=
        upshot_cons_of_not_stops m a front hblank hline
      rw [upshot_cons_of_not_stops m a (front ++ back) hblank hline, ih _ _ hfront,
        Upshot.behind_behind, hfirst]
      rfl

/-! ## One text behind another -/

/-- What a session came to that assembled this. -/
def Assembly.upshot (S : Assembly) (after : Session) : Upshot :=
  ⟨after.memory, after.console, S.results, S.finish⟩

namespace Session

/-- The session with a text to read. -/
def typing (s : Session) (text : List Char) : Session :=
  { s with console := ofText text "\x1b" }

/-- A session comes to what assembling the lines of its text does. -/
theorem upshot_assemble (s : Session) (text : List Char) (address : Int) :
    ((s.typing text).assemble address).2.2.upshot ((s.typing text).assemble address).1 =
      LineMonitor.upshot s.memory (Text.typedLines text) (Address.ofInt address) :=
  rfl

/-- A text without Escape that ends with a line may be assembled in a session of its own, and what
stands behind it in a second one, over the memory and from the address that the first one left:
the lines recorded, the end address, memory, and what is left to read are the same as in a single
session over both. -/
theorem assemble_append (s : Session) (address : Int) {front : List Char}
    (hfree : '\x1b' ∉ front) (hend : front = [] ∨ front.getLast? = some '\n')
    (back : List Char) :
    let whole := (s.typing (front ++ back)).assemble address
    let first := (s.typing front).assemble address
    let second := (first.1.typing back).assemble first.1.address
    whole.2.2.results = first.2.2.results ++ second.2.2.results ∧
      whole.2.2.finish = second.2.2.finish ∧
      whole.1.memory = second.1.memory ∧
      whole.1.console = second.1.console := by
  intro whole first second
  have hgoes : ∀ line ∈ Text.typedLines front, ¬ Stops line := by
    intro line hline hstops
    have hescape : '\x1b' ∈ line := (List.takeWhile_prefix _).subset hstops.1
    exact hfree (Text.mem_of_mem_typedLines hline hescape)
  have hfirst : first.2.2.upshot first.1 =
      LineMonitor.upshot s.memory (Text.typedLines front) (Address.ofInt address) :=
    upshot_assemble s front address
  have hsecond : second.2.2.upshot second.1 =
      LineMonitor.upshot first.1.memory (Text.typedLines back) first.2.2.finish := by
    have hstart : Address.ofInt first.1.address = first.2.2.finish := Address.ofInt_toNat _
    rw [← hstart]
    exact upshot_assemble first.1 back first.1.address
  have hwhole : whole.2.2.upshot whole.1 =
      (second.2.2.upshot second.1).behind first.2.2.results := by
    have hlines := Text.typedLines_append hend back
    calc whole.2.2.upshot whole.1
        = LineMonitor.upshot s.memory (Text.typedLines (front ++ back)) (Address.ofInt address) :=
          upshot_assemble s (front ++ back) address
      _ = (LineMonitor.upshot first.1.memory (Text.typedLines back) first.2.2.finish).behind
            first.2.2.results := by
          rw [hlines, upshot_append _ _ hgoes, ← hfirst]
          rfl
      _ = (second.2.2.upshot second.1).behind first.2.2.results := by rw [hsecond]
  simp only [Upshot.behind, Assembly.upshot, Upshot.mk.injEq] at hwhole
  obtain ⟨hmemory, hconsole, hresults, hfinish⟩ := hwhole
  exact ⟨hresults, hfinish, hmemory, hconsole⟩

/-- The second text has a line that is dropped and one after which no more is read. -/
theorem assemble_append_dropped :
    let front := "LDX #0A\n ; again\nXYZ\n".toList
    let back := "BNE 0\x1b000\nDEX \x1b\nNOP\n".toList
    let s : Session :=
      { memory := Memory.filled [] [] 0
        console := ofText [] "\x1b" }
    let whole := (s.typing (front ++ back)).assemble 0
    let first := (s.typing front).assemble 0
    let second := (first.1.typing back).assemble first.1.address
    '\x1b' ∉ front ∧ (front = [] ∨ front.getLast? = some '\n') ∧
      first.2.2.results.map Line.outcome = [.success, .invalidInstruction] ∧
      second.2.2.results.map Line.outcome = [.lineAborted, .success] ∧
      second.1.console.unread = ["NOP".toList] ∧
      whole.2.2.results = first.2.2.results ++ second.2.2.results ∧
      whole.2.2.finish = second.2.2.finish ∧
      whole.1.memory = second.1.memory ∧
      whole.1.console = second.1.console := by
  intro front back s whole first second
  have hfree : '\x1b' ∉ front := by decide
  have hend : front = [] ∨ front.getLast? = some '\n' := by decide
  refine ⟨hfree, hend, by decide +kernel, by decide +kernel, by decide +kernel, ?_⟩
  exact s.assemble_append 0 hfree hend back

end Session

end LineMonitor
