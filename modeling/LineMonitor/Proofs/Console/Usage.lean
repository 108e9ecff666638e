import LineMonitor.Assembly
import LineMonitor.Proofs.Line.Alone
import Mathlib.Data.List.Infix

/-!
# How the input is used up

Lines are taken from the front of the input and never put back, and the escape character stays the
same: what is left of a console after a question, a line or a run of lines is a `Console.Leaves`.
The lines that the question for a mnemonic uses up are echoed (`Console.exists_used_takeMnemonic`),
and `Console.shown` is how a line is echoed.
A command takes exactly one line, if there is one (`Console.takeCommand_cases`), and every line that
is recorded takes at least one (`length_enterLines_add_le`).
-/

namespace LineMonitor

namespace Console

/-- What is left of a console has its escape character and the last of its lines. -/
structure Leaves (c left : Console) : Prop where
  escape_eq : left.escape = c.escape
  unread_suffix : left.unread <:+ c.unread

theorem Leaves.refl (c : Console) : c.Leaves c :=
  ⟨rfl, List.suffix_refl c.unread⟩

theorem Leaves.trans {c c₁ c₂ : Console} (h : c.Leaves c₁) (h' : c₁.Leaves c₂) : c.Leaves c₂ :=
  ⟨h'.escape_eq.trans h.escape_eq, h'.unread_suffix.trans h.unread_suffix⟩

/-- A line as a console with an escape tells it to its surroundings: without the escape character,
or without the places where an escape of several characters stands. -/
def shown (escape line : List Char) : String :=
  match escape with
  | [e] => String.ofList (line.filter (· != e))
  | _ => String.ofList (Text.erase escape line)

/-- This is what a console tells. -/
theorem echoed_eq (c : Console) (line : List Char) :
    c.echoed line = .typed (shown c.escape line) := by
  unfold echoed shown
  split
  · rename_i e hescape
    rw [hescape, Text.erase_singleton]
  · rfl

/-- The search for a mnemonic uses up the front of the input and echoes the lines that it uses up;
all else that it tells is for the log. -/
theorem exists_used_nextMnemonic (c : Console) (lines : List (List Char)) :
    ∃ (used : List (List Char)) (events : List Event),
      lines = used ++ (c.nextMnemonic lines).console.unread ∧
      (c.nextMnemonic lines).console.escape = c.escape ∧
      (c.nextMnemonic lines).transcript = used.map c.echoed ++ events.map .logged := by
  induction lines with
  | nil => exact ⟨[], [.endOfInput], rfl, rfl, rfl⟩
  | cons line rest ih =>
    simp only [nextMnemonic]
    split
    · exact ⟨[line], [.escapeAtMnemonic], rfl, rfl, rfl⟩
    · split
      · obtain ⟨used, events, hunread, hescape, htold⟩ := ih
        exact ⟨line :: used, events, congrArg (line :: ·) hunread, hescape,
          congrArg (c.echoed line :: ·) htold⟩
      · exact ⟨[line], [], rfl, rfl, rfl⟩

/-- So does the question for a mnemonic, which uses up nothing if Escape was left behind. -/
theorem exists_used_takeMnemonic (c : Console) :
    ∃ (used : List (List Char)) (events : List Event),
      c.unread = used ++ c.takeMnemonic.console.unread ∧
      c.takeMnemonic.console.escape = c.escape ∧
      c.takeMnemonic.transcript = used.map c.echoed ++ events.map .logged := by
  simp only [takeMnemonic]
  split
  · split
    · exact ⟨[], [.escapeLeftOver], rfl, rfl, rfl⟩
    · exact c.exists_used_nextMnemonic c.unread
  · exact c.exists_used_nextMnemonic c.unread

theorem leaves_takeMnemonic (c : Console) : c.Leaves c.takeMnemonic.console := by
  obtain ⟨used, -, hunread, hescape, -⟩ := c.exists_used_takeMnemonic
  exact ⟨hescape, used, hunread.symm⟩

theorem leaves_takeOperand (c : Console) : c.Leaves c.takeOperand.console := by
  rw [console_takeOperand]
  exact ⟨rfl, List.suffix_refl c.unread⟩

/-- A command takes the next line, if there is one.  There is no command in it if it holds the
escape character. -/
theorem takeCommand_cases (c : Console) :
    (c.unread = [] ∧ c.takeCommand.answer = none ∧
      c.takeCommand.console = { c with remainder := none }) ∨
    ∃ line rest, c.unread = line :: rest ∧
      c.takeCommand.console = { c with unread := rest, remainder := none } ∧
      c.takeCommand.answer = if Text.occurs c.escape line then none
        else some (String.ofList (Text.strip (uncommented line))) := by
  unfold takeCommand
  cases hunread : c.unread with
  | nil => exact Or.inl ⟨rfl, rfl, by simp⟩
  | cons line rest =>
    refine Or.inr ⟨line, rest, rfl, ?_⟩
    by_cases hescape : Text.occurs c.escape line = true
    · simp [hescape]
    · simp [hescape]

theorem leaves_takeCommand (c : Console) : c.Leaves c.takeCommand.console := by
  rcases c.takeCommand_cases with ⟨-, -, hconsole⟩ | ⟨line, rest, hunread, hconsole, -⟩
  · rw [hconsole]
    exact ⟨rfl, List.suffix_refl c.unread⟩
  · rw [hconsole]
    refine ⟨rfl, ?_⟩
    rw [hunread]
    exact List.suffix_cons line rest

end Console

/-! ## Lines that are assembled -/

section Lines

variable (m : Memory) (c : Console) (a : Address)

theorem leaves_enterMnemonic (mnemonic : String) :
    c.Leaves (enterMnemonic m c a mnemonic).console := by
  cases following_enterMnemonic m c a mnemonic with
  | unasked hno hconsole hdropped hended =>
    rw [hconsole]
    exact .refl c
  | dropped hasks hanswer hconsole hmemory haddress hending =>
    rw [hconsole]
    exact c.leaves_takeOperand
  | answered hasks hanswer hconsole hdropped hended =>
    rw [hconsole]
    exact c.leaves_takeOperand

theorem leaves_enterLine : c.Leaves (enterLine m c a).console := by
  simp only [enterLine]
  split
  · exact c.leaves_takeMnemonic
  · exact c.leaves_takeMnemonic.trans (leaves_enterMnemonic m _ a _)

theorem leaves_enterLines : c.Leaves (enterLines m c a).console := by
  fun_induction enterLines m c a with
  | case1 m c a step hended => exact leaves_enterLine m c a
  | case2 m c a step hended _ later ih => exact (leaves_enterLine m c a).trans ih

/-- Every line that is recorded uses up a line of the input. -/
theorem length_enterLines_add_le :
    (enterLines m c a).results.length + (enterLines m c a).console.unread.length ≤
      c.unread.length := by
  fun_induction enterLines m c a with
  | case1 m c a step hended =>
    have hleft := length_enterLine_le m c a
    simpa using hleft
  | case2 m c a step hended _ later ih =>
    have hused : step.console.unread.length < c.unread.length := length_enterLine_lt m c a hended
    have hlater : later.results.length + later.console.unread.length ≤
        step.console.unread.length := ih
    show later.results.length + 1 + later.console.unread.length ≤ c.unread.length
    omega

end Lines

end LineMonitor
