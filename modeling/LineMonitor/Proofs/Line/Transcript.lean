import LineMonitor.Proofs.Console.Usage
import LineMonitor.Proofs.Line.Result
import LineMonitor.Proofs.Memory.Keeping

/-!
# What one line prints

The console echoes the lines that it uses up and prints nothing of its own
(`Console.output_map_echoed`), the operand prints nothing, and the end of the line prints its
message.  So a line prints its address, the lines that are used up, and a message if it is refused,
in this order (`exists_printed_enterLine`).

The message is decided by the outcome.  A line that fails in writing names the first address of its
code that did not read back (`Entering.reported`).
-/

namespace LineMonitor

/-! ## Transcripts and their output -/

namespace Transcript

variable (echo : Bool)

@[simp] theorem output_nil : output echo [] = "" := rfl

@[simp] theorem output_cons (entry : Entry) (t : Transcript) :
    output echo (entry :: t) = entry.output echo ++ output echo t := by
  rw [output, List.map_cons, String.join_cons, output]

@[simp] theorem output_append (t u : Transcript) :
    output echo (t ++ u) = output echo t ++ output echo u := by
  rw [output, List.map_append, String.join_append, output, output]

/-- The log is not printed. -/
@[simp] theorem output_map_logged (events : List Event) :
    output echo (events.map .logged) = "" := by
  induction events with
  | nil => rfl
  | cons event events ih =>
    rw [List.map_cons, output_cons, ih]
    rfl

end Transcript

/-! ## Lines that are echoed -/

namespace Console

/-- Lines as they are echoed, each with a newline. -/
def echoes (escape : List Char) (lines : List (List Char)) : String :=
  String.join (lines.map fun line => shown escape line ++ "\n")

/-- Lines are seen if they are echoed, and not otherwise. -/
theorem output_map_echoed (c : Console) (lines : List (List Char)) (echo : Bool) :
    Transcript.output echo (lines.map c.echoed) = if echo then echoes c.escape lines else "" := by
  induction lines with
  | nil => cases echo <;> rfl
  | cons line lines ih =>
    have hline : echoes c.escape (line :: lines) =
        shown c.escape line ++ "\n" ++ echoes c.escape lines := by
      rw [echoes, List.map_cons, String.join_cons, echoes]
    rw [List.map_cons, Transcript.output_cons, ih, hline, echoed_eq]
    cases echo <;> rfl

/-- An operand is not echoed again. -/
theorem output_takeOperand (c : Console) (echo : Bool) :
    c.takeOperand.transcript.output echo = "" := by
  simp only [takeOperand]
  split <;> rfl

end Console

/-! ## The end of a line -/

namespace Ending

/-- The message of a line with a newline, if there is one. -/
def report (ending : Ending) : String :=
  (ending.message?.map (· ++ "\n")).getD ""

/-- What is printed when a line ends: its message, or a newline when assembling ends. -/
def closing (ending : Ending) : String :=
  if ending = .ended then "\n" else ending.report

theorem output_transcript (ending : Ending) (a : Address) (echo : Bool) :
    (ending.transcript a).output echo = ending.closing := by
  cases ending with
  | refused fault => simp [transcript, closing, report, message?, Entry.output]
  | assembled placement => simp [transcript, closing, report, message?]
  | dropped => simp [transcript, closing, report, message?, Entry.output]
  | ended => simp [transcript, closing, Entry.output]

end Ending

section Steps

variable (m : Memory) (c : Console) (a : Address) {echo : Bool} {told : Transcript}

theorem output_stop (parsed : Statement) (ending : Ending) (h : told.output echo = "") :
    (parsed.stop m c a told ending).transcript.output echo = ending.closing := by
  simp [Statement.stop, h, ending.output_transcript]

theorem output_complete (parsed : Statement) (i : Mnemonic) (o : Operand)
    (h : told.output echo = "") :
    (parsed.complete m c a told i o).transcript.output echo =
      (parsed.complete m c a told i o).result.ending.closing := by
  simp [Statement.complete, h, Ending.output_transcript]

theorem output_enterOperand (parsed : Statement) (i : Mnemonic) :
    (enterOperand m c a parsed i).transcript.output echo =
      (enterOperand m c a parsed i).result.ending.closing := by
  have htold := c.output_takeOperand echo
  simp only [enterOperand]
  cases hanswer : c.takeOperand.answer with
  | none => exact output_stop _ _ _ _ _ htold
  | some text =>
    simp only
    cases hread : Operand.read i.modes text with
    | error cause => exact output_stop _ _ _ _ _ htold
    | ok o =>
      refine output_complete _ _ _ _ _ _ ?_
      rw [Transcript.output_append, htold]
      rfl

/-- From its mnemonic on a line prints nothing until it ends. -/
theorem output_enterMnemonic (mnemonic : String) :
    (enterMnemonic m c a mnemonic).transcript.output echo =
      (enterMnemonic m c a mnemonic).result.ending.closing := by
  simp only [enterMnemonic]
  cases hname : Mnemonic.ofName? mnemonic with
  | none => exact output_stop _ _ _ _ _ rfl
  | some i =>
    simp only
    split
    · exact output_complete _ _ _ _ _ _ rfl
    · exact output_enterOperand _ _ _ _ _

/-- A line prints its address, echoes the lines that it uses up, and prints how it ends. -/
theorem exists_printed_enterLine :
    ∃ used, c.unread = used ++ (enterLine m c a).console.unread ∧
      ∀ echo, (enterLine m c a).transcript.output echo =
        Hex.ofAddress a ++ ": " ++ (if echo then Console.echoes c.escape used else "") ++
          (enterLine m c a).result.ending.closing := by
  obtain ⟨used, events, hused, -, htold⟩ := c.exists_used_takeMnemonic
  have hechoed : ∀ echo, c.takeMnemonic.transcript.output echo =
      if echo then Console.echoes c.escape used else "" := by
    intro echo
    rw [htold, Transcript.output_append, c.output_map_echoed, Transcript.output_map_logged,
      String.append_empty]
  have hprompt : ∀ echo, (addressPrompt a).output echo = Hex.ofAddress a ++ ": " := fun _ => rfl
  refine ⟨used, ?_, fun echo => ?_⟩
  · simp only [enterLine]
    split
    · exact hused
    · rw [hused, unread_enterMnemonic]
  · simp only [enterLine]
    split
    · rw [Transcript.output_cons, Transcript.output_append, hprompt, hechoed echo,
        Ending.output_transcript]
      simp only [String.append_assoc]
    · rw [Transcript.output_cons, Transcript.output_append, hprompt, hechoed echo,
        output_enterMnemonic]
      simp only [String.append_assoc]

end Steps

/-! ## The message -/

/-- The message of a line, with memory as the line leaves it. -/
structure Line.Reported (m' : Memory) (r : Line) : Prop where
  /-- Without an error there is none. -/
  silent : r.outcome.isError = false → r.ending.message? = none
  mnemonic : r.outcome = .invalidInstruction → r.ending.message? = some "Invalid instruction"
  operand : r.outcome = .invalidOperand → r.ending.message? = some "Invalid operand"
  mode : r.outcome = .invalidMode → r.ending.message? = some "Invalid addressing mode"
  /-- A line that failed in writing names the first address of its code that does not read as was
  written. -/
  lost : r.outcome = .writeFailed → ∃ (data : List Byte) (i : Nat) (hi : i < data.length),
    r.Codes data ∧ m'.read (r.address.after i) ≠ data[i] ∧
    (∀ j (hj : j < data.length), j < i → m'.read (r.address.after j) = data[j]) ∧
    r.ending.message? = some ("Unable to write to $" ++ Hex.ofAddress (r.address.after i))

/-- The message of a cause goes by its outcome, but for the address of a byte that is lost. -/
theorem Cause.message_eq (cause : Cause) :
    (cause.outcome = .invalidInstruction → cause.message = "Invalid instruction") ∧
      (cause.outcome = .invalidOperand → cause.message = "Invalid operand") ∧
      (cause.outcome = .invalidMode → cause.message = "Invalid addressing mode") := by
  cases cause <;> refine ⟨?_, ?_, ?_⟩ <;> intro h <;> first | (cases h; done) | rfl

/-- The message of a line that is refused is that of a cause with the outcome of the line. -/
theorem Ending.exists_cause {ending : Ending} {o : Outcome} (h : ending.outcome = o)
    (herror : o.isError = true) :
    ∃ cause : Cause, cause.outcome = o ∧ ending.message? = some cause.message := by
  obtain ⟨fault, rfl⟩ := exists_refused_of_isError (h ▸ herror)
  exact ⟨fault.cause, h, rfl⟩

/-- A line that failed in writing names the first byte that was lost. -/
theorem Entering.lost {m m' : Memory} {a : Address} {r : Line} (h : Entering m a m' r)
    (hfailed : r.outcome = .writeFailed) :
    ∃ (data : List Byte) (i : Nat) (hi : i < data.length),
      r.Codes data ∧ m'.read (r.address.after i) ≠ data[i] ∧
      (∀ j (hj : j < data.length), j < i → m'.read (r.address.after j) = data[j]) ∧
      r.ending.message? = some ("Unable to write to $" ++ Hex.ofAddress (r.address.after i)) := by
  cases h with
  | ended => cases hfailed
  | dropped => cases hfailed
  | @unrecognised parsed fault houtcome =>
    have hcause : fault.cause.outcome = .writeFailed := hfailed
    simp [hcause] at houtcome
  | @recognised _ parsed i o ending hmnemonic hinstruction hoperand hfits h =>
    cases h with
    | unsupported hfind houtcome =>
      rw [Line.outcome, Ending.outcome, houtcome] at hfailed
      cases hfailed
    | outOfReach hfind hencode =>
      rw [Line.outcome, Ending.outcome, Operand.outcome_of_encode_error hencode] at hfailed
      cases hfailed
    | @lost e operand x hfind hencode hlost =>
      obtain ⟨hmem, rfl, hmode⟩ := Encoding.find?_eq_some_iff.mp hfind
      obtain ⟨k, hk, rfl, hne, hbefore⟩ := Memory.exists_first_of_mismatch?_eq_some hlost
      exact ⟨e.opcode :: operand, k, hk, .intro rfl hmnemonic hoperand hfits hmem hmode hencode,
        hne, fun j _ hj => hbefore j hj, rfl⟩
    | kept hfind hencode hkept => cases hfailed

/-- Every line has the message of its outcome. -/
theorem Entering.reported {m m' : Memory} {a : Address} {r : Line} (h : Entering m a m' r) :
    r.Reported m' := by
  refine ⟨fun hsilent => ?_, fun houtcome => ?_, fun houtcome => ?_, fun houtcome => ?_, h.lost⟩
  · have hnone := r.ending.isSome_message?
    rw [show r.ending.outcome.isError = false from hsilent] at hnone
    simpa using hnone
  · obtain ⟨cause, hcause, hmessage⟩ := Ending.exists_cause houtcome rfl
    rw [hmessage, cause.message_eq.1 hcause]
  · obtain ⟨cause, hcause, hmessage⟩ := Ending.exists_cause houtcome rfl
    rw [hmessage, cause.message_eq.2.1 hcause]
  · obtain ⟨cause, hcause, hmessage⟩ := Ending.exists_cause houtcome rfl
    rw [hmessage, cause.message_eq.2.2 hcause]

end LineMonitor
