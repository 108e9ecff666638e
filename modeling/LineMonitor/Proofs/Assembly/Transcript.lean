import LineMonitor.Session
import LineMonitor.Proofs.Assembly.Run
import LineMonitor.Proofs.Line.Transcript
import LineMonitor.Proofs.Text.Digits
import Mathlib.Data.List.Chain

/-!
# What is printed while assembling

Assembling goes from prompt to prompt.  A `Prompt` is memory and input as they stand where a line is
asked for, with the address it is asked at; each is followed by the one that its line leaves, up to
the one at which assembling ends (`Prompt.Asked`).  At each prompt the front of the input is used up
and echoed (`Prompt.step_printed`).  So what is printed is what is printed at the prompts, one after
the other (`Prompt.Asked.output_eq`), and `Session.assemble_told` gives this protocol for every
session.
-/

namespace LineMonitor

/-- A prompt for a line: memory and input as they stand, and the address. -/
structure Prompt where
  memory : Memory
  console : Console
  address : Address

namespace Prompt

/-- The line that is entered at the prompt. -/
def step (p : Prompt) : LineStep :=
  enterLine p.memory p.console p.address

/-- The prompt for the line behind it. -/
def next (p : Prompt) : Prompt :=
  ⟨p.step.memory, p.step.console, p.step.result.next⟩

/-- The lines that are entered from the prompt on. -/
def run (p : Prompt) : LinesRun :=
  enterLines p.memory p.console p.address

/-- The lines of the input that are used up at the prompt. -/
def used (p : Prompt) : List (List Char) :=
  p.console.unread.take (p.console.unread.length - p.step.console.unread.length)

/-- What is shown of a prompt before its line ends: the address, and the lines that are used up if
they are echoed. -/
def shown (echo : Bool) (p : Prompt) : String :=
  Hex.ofAddress p.address ++ ": " ++
    if echo then Console.echoes p.console.escape p.used else ""

/-! ## One prompt -/

/-- Input is used up from the front, and how the line ends is printed behind what is shown. -/
theorem step_printed (p : Prompt) :
    p.console.unread = p.used ++ p.step.console.unread ∧
      ∀ echo, p.step.transcript.output echo = p.shown echo ++ p.step.result.ending.closing := by
  obtain ⟨used, hused, hprinted⟩ := exists_printed_enterLine p.memory p.console p.address
  have hfront : p.used = used := by
    have hlength : p.console.unread.length - p.step.console.unread.length = used.length := by
      rw [hused, List.length_append, step]
      omega
    rw [Prompt.used, hlength, hused, List.take_left]
  rw [hfront]
  refine ⟨hused, fun echo => ?_⟩
  rw [shown, hfront]
  exact hprinted echo

/-! ## From prompt to prompt -/

/-- The prompts from one on, with the last of them apart. -/
inductive Asked : Prompt → List Prompt → Prompt → Prop where
  | last {p : Prompt} (hended : p.step.result.ending = .ended) : Asked p [] p
  | next {p last : Prompt} {later : List Prompt} (hended : p.step.result.ending ≠ .ended)
      (hlater : Asked p.next later last) : Asked p (p :: later) last

/-- There is a last prompt. -/
theorem exists_asked (m : Memory) (c : Console) (a : Address) :
    ∃ prompts last, Asked ⟨m, c, a⟩ prompts last := by
  fun_induction enterLines m c a with
  | case1 m c a step hended => exact ⟨[], _, .last hended⟩
  | case2 m c a step hended _ later ih =>
    obtain ⟨prompts, last, hlater⟩ := ih
    exact ⟨_, last, .next hended hlater⟩

namespace Asked

variable {p last : Prompt} {prompts : List Prompt}

/-- The first prompt is the one it begins with, and each later one is that behind the line before
it. -/
theorem isChain (h : Asked p prompts last) :
    (prompts ++ [last]).head? = some p ∧
      (prompts ++ [last]).IsChain fun q later => later = q.next := by
  induction h with
  | last hended => exact ⟨rfl, .singleton _⟩
  | @next p last later hended hlater ih =>
    obtain ⟨hhead, hlinks⟩ := ih
    refine ⟨rfl, hlinks.cons fun q hq => ?_⟩
    rw [hhead, Option.mem_some_iff] at hq
    exact hq.symm

/-- Assembling ends at the last prompt and at no other. -/
theorem ended (h : Asked p prompts last) :
    (∀ q ∈ prompts, q.step.result.ending ≠ .ended) ∧ last.step.result.ending = .ended := by
  induction h with
  | last hended => exact ⟨by simp, hended⟩
  | next hended hlater ih => exact ⟨List.forall_mem_cons.mpr ⟨hended, ih.1⟩, ih.2⟩

/-- The lines of a run are those of its prompts but for the last, at which it ends. -/
theorem run_eq (h : Asked p prompts last) :
    p.run.results = prompts.map (·.step.result) ∧ p.run.finish = last.address ∧
      p.run.console = last.step.console := by
  induction h with
  | last hended =>
    rw [run, enterLines_of_ended hended]
    exact ⟨rfl, rfl, rfl⟩
  | next hended hlater ih =>
    rw [run, enterLines_of_not_ended hended]
    exact ⟨congrArg (_ :: ·) ih.1, ih.2⟩

/-- The prompts use up the input from the front, each behind the one before it. -/
theorem unread_eq (h : Asked p prompts last) :
    p.console.unread = prompts.flatMap used ++ (last.used ++ last.step.console.unread) := by
  induction h with
  | @last p hended => exact p.step_printed.1
  | @next p last later hended hlater ih =>
    have hrest : p.step.console.unread =
        later.flatMap used ++ (last.used ++ last.step.console.unread) := ih
    rw [p.step_printed.1, hrest, List.flatMap_cons, List.append_assoc]

/-- All prompts have the same escape character. -/
theorem escape_eq (h : Asked p prompts last) :
    ∀ q ∈ prompts ++ [last], q.console.escape = p.console.escape := by
  induction h with
  | last hended => simp
  | @next p last later hended hlater ih =>
    have hstep : p.next.console.escape = p.console.escape :=
      (leaves_enterLine p.memory p.console p.address).escape_eq
    intro q hq
    rcases List.mem_cons.mp hq with rfl | hq
    · rfl
    · rw [ih q hq, hstep]

/-- What is printed is what is printed at the prompts, one after the other. -/
theorem output_eq (h : Asked p prompts last) (echo : Bool) :
    p.run.transcript.output echo =
      String.join (prompts.map fun q => q.shown echo ++ q.step.result.ending.report) ++
        (last.shown echo ++ "\n") := by
  induction h with
  | @last p hended =>
    rw [run, enterLines_of_ended hended, List.map_nil, String.join_nil, String.empty_append]
    have hprinted := p.step_printed.2 echo
    rwa [Ending.closing, if_pos hended] at hprinted
  | @next p last later hended hlater ih =>
    have hprinted := p.step_printed.2 echo
    rw [Ending.closing, if_neg hended] at hprinted
    have htranscript : p.run.transcript = p.step.transcript ++ p.next.run.transcript := by
      rw [run, enterLines_of_not_ended hended]
      rfl
    rw [htranscript, Transcript.output_append, hprinted, ih, List.map_cons, String.join_cons]
    simp only [String.append_assoc]

end Asked

end Prompt

/-! ## What is printed in a session -/

/-- The prompts of an assembly from an address on, the last of them apart, and what is printed at
them. -/
structure Session.Told (s : Session) (address : Int) (prompts : List Prompt) (last : Prompt) :
    Prop where
  /-- The first prompt is for the given address, with memory and input of the session. -/
  head_eq : (prompts ++ [last]).head? = some ⟨s.memory, s.console, Address.ofInt address⟩
  /-- Every later prompt is the one behind the line before it. -/
  links : (prompts ++ [last]).IsChain fun p later => later = p.next
  /-- A line is recorded for every prompt but the last, at which assembling ends. -/
  results_eq : (s.assemble address).2.2.results = prompts.map (·.step.result)
  goes_on : ∀ p ∈ prompts, p.step.result.outcome ≠ .sessionEnded
  ends : last.step.result.outcome = .sessionEnded
  /-- The prompts are for the addresses of their lines, and the last is for the end address. -/
  address_eq : ∀ p ∈ prompts, p.step.result.address = p.address
  finish_eq : (s.assemble address).2.2.finish = last.address
  /-- An address is shown in four digits. -/
  digits : ∀ p ∈ prompts ++ [last], ∃ ds, ds.length = 4 ∧
    (Hex.ofAddress p.address).toList = Hex.write ds ∧ Hex.number ds = p.address.toNat
  /-- The lines of the input are used up in order, each at one prompt, and the escape character
  stays the same. -/
  unread_eq : s.console.unread = prompts.flatMap Prompt.used ++
    (last.used ++ (s.assemble address).1.console.unread)
  escape_eq : ∀ p ∈ prompts ++ [last], p.console.escape = s.console.escape
  /-- The message of a line is that of its outcome. -/
  reported : ∀ p ∈ prompts, p.step.result.Reported p.step.memory
  /-- At each prompt the address is printed, then the lines that are used up if they are echoed, and
  then the message if there is one; a newline ends it all. -/
  output_eq : ∀ echo, (s.assemble address).2.1.output echo =
    String.join (prompts.map fun p => p.shown echo ++ p.step.result.ending.report) ++
      (last.shown echo ++ "\n")

/-- What is printed while assembling is this protocol, for every session and every address. -/
theorem Session.assemble_told (s : Session) (address : Int) :
    ∃ prompts last, s.Told address prompts last := by
  obtain ⟨prompts, last, h⟩ :=
    Prompt.exists_asked s.memory s.console (Address.ofInt address)
  obtain ⟨hhead, hlinks⟩ := h.isChain
  obtain ⟨hgoes, hended⟩ := h.ended
  obtain ⟨hresults, hfinish, hconsole⟩ := h.run_eq
  have hunread := h.unread_eq
  rw [← hconsole] at hunread
  have htouching : ∀ p : Prompt, p.step.result.address = p.address := fun p =>
    (touching_enterLine p.memory p.console p.address).address_next.1
  refine ⟨prompts, last, {
    head_eq := hhead
    links := hlinks
    results_eq := hresults
    goes_on := fun p hp => mt Ending.outcome_eq_sessionEnded_iff.mp (hgoes p hp)
    ends := Ending.outcome_eq_sessionEnded_iff.mpr hended
    address_eq := fun p _ => htouching p
    finish_eq := hfinish
    digits := fun p _ => Hex.ofAddress_eq_write p.address
    unread_eq := hunread
    escape_eq := h.escape_eq
    reported := fun p _ => (entering_enterLine p.memory p.console p.address).reported
    output_eq := fun echo => ?_ }⟩
  have hprinted := h.output_eq echo
  rw [← hprinted]
  simp [Session.assemble, Prompt.run, Entry.output]

example :
    let text := "LDX #0A ; count\n\nINK\nNOP\x1b\nRTS\n".toList
    let s := Session.new (Memory.filled [⟨2, 2, by decide⟩] [] 0) (Console.ofText text "\x1b") {}
    (s.assemble 0).2.1.output true =
      "0000: LDX #0A ; count\n0002: \nINK\nInvalid instruction\n0002: NOP\n" ++
        "Unable to write to $0002\n0002: \n" := by
  decide +kernel

end LineMonitor
