import LineMonitor.Session
import LineMonitor.Proofs.Assembly.Recording
import LineMonitor.Proofs.Console.Usage
import LineMonitor.Proofs.Session.Command

/-!
# What one command can do

`Session.Stepping` lists what becomes of a session between one command prompt and the next: which
assemblies are recorded, what the session is afterwards, and whether the monitor goes on.  The
monitor keeps to this list (`Session.exists_stepping`), so what every command keeps is proved by a
case for each entry.
-/

namespace LineMonitor.Session

/-! ## A command that is read -/

/-- The command that a session reads at its prompt; there is none if Escape or the end of the input
takes its place. -/
def command? (s : Session) : Option String :=
  s.console.takeCommand.answer

/-- The session when the next command was read, but not yet executed. -/
def heard (s : Session) : Session :=
  { s with console := s.console.takeCommand.console }

/-- A command that is read uses up a line of the input. -/
theorem length_heard_add_le (s : Session) :
    s.command?.toList.length + s.heard.console.unread.length ≤ s.console.unread.length := by
  cases hanswer : s.command? with
  | none =>
    rw [Option.toList_none, List.length_nil, Nat.zero_add]
    exact s.console.leaves_takeCommand.unread_suffix.length_le
  | some text =>
    have hsome : s.console.takeCommand.answer ≠ none := by
      rw [show s.console.takeCommand.answer = some text from hanswer]
      exact Option.some_ne_none text
    rw [Option.toList_some, List.length_singleton, Nat.add_comm]
    exact s.console.length_takeCommand_lt hsome

/-! ## From one prompt to the next -/

/-- What becomes of a session from one command prompt to the next: the assemblies that it records,
the session afterwards, and whether the monitor goes on. -/
inductive Stepping (s : Session) : List Assembly → Session → Bool → Prop where
  /-- Escape or the end of the input took the place of a command. -/
  | unanswered (hanswer : s.command? = none) : Stepping s [] s.heard false
  /-- The monitor was asked to stop. -/
  | quit {text : String} (hanswer : s.command? = some text)
      (hread : Command.read text = .ok .quit) : Stepping s [] s.heard false
  /-- There was nothing to do, or the command was rejected. -/
  | passed {text : String} (hanswer : s.command? = some text)
      (hread : Command.read text = .ok .nothing ∨ ∃ e, Command.read text = .error e) :
      Stepping s [] s.heard true
  /-- Instructions were listed, and the current address is the one after them. -/
  | listed {text : String} {a : Address} (hanswer : s.command? = some text)
      (hread : Command.read text = .ok (.list a)) :
      Stepping s [] { s.heard with address := (s.heard.list a.toNat).2.toNat } true
  /-- Lines were assembled. -/
  | assembled {text : String} {a : Address} (hanswer : s.command? = some text)
      (hread : Command.read text = .ok (.assemble a)) :
      Stepping s [(s.heard.assemble a.toNat).2.2] (s.heard.assemble a.toNat).1 true

/-- The monitor keeps to the list. -/
theorem exists_stepping (s : Session) : ∃ recorded, s.Stepping recorded s.step.1 s.step.2.2 := by
  cases hcommand : s.command? with
  | none =>
    have hanswer : s.console.takeCommand.answer = none := hcommand
    simp only [step, hanswer]
    exact ⟨[], .unanswered hcommand⟩
  | some text =>
    have hanswer : s.console.takeCommand.answer = some text := hcommand
    cases hread : Command.read text with
    | error e =>
      simp only [step, hanswer, execute, hread, Except.map]
      exact ⟨[], .passed hcommand (Or.inr ⟨e, hread⟩)⟩
    | ok command =>
      simp only [step, hanswer, execute, hread, Except.map]
      cases command with
      | nothing => exact ⟨[], .passed hcommand (Or.inl hread)⟩
      | quit => exact ⟨[], .quit hcommand hread⟩
      | assemble a => exact ⟨_, .assembled hcommand hread⟩
      | list a => exact ⟨[], .listed hcommand hread⟩

/-- The number of lines in assemblies. -/
def lineCount (assemblies : List Assembly) : Nat :=
  (assemblies.map fun S => S.results.length).sum

namespace Stepping

variable {s after : Session} {recorded : List Assembly} {goesOn : Bool}

/-- What was recorded before stays, and the new assemblies come behind it. -/
theorem assemblies_eq (h : s.Stepping recorded after goesOn) :
    after.assemblies = s.assemblies ++ recorded := by
  cases h with
  | unanswered hanswer => exact (List.append_nil _).symm
  | quit hanswer hread => exact (List.append_nil _).symm
  | passed hanswer hread => exact (List.append_nil _).symm
  | listed hanswer hread => exact (List.append_nil _).symm
  | assembled hanswer hread => rfl

/-- Memory is what the new assemblies leave of it. -/
theorem recording (h : s.Stepping recorded after goesOn) :
    Recording s.memory recorded after.memory := by
  cases h with
  | unanswered hanswer => exact .nil _
  | quit hanswer hread => exact .nil _
  | passed hanswer hread => exact .nil _
  | listed hanswer hread => exact .nil _
  | assembled hanswer hread => exact s.heard.recording_assemble _

/-- There is a new assembly if the command asks for one, from the address that it gives. -/
theorem starts_eq (h : s.Stepping recorded after goesOn) :
    recorded.map (·.start) = s.command?.toList.filterMap Command.start? := by
  cases h with
  | unanswered hanswer => simp [hanswer]
  | quit hanswer hread => simp [hanswer, Command.start?_eq_of_read, hread]
  | passed hanswer hread =>
    rcases hread with hread | ⟨e, hread⟩
    · simp [hanswer, Command.start?_eq_of_read, hread]
    · simp [hanswer, Command.start?_eq_of_read, hread]
  | listed hanswer hread => simp [hanswer, Command.start?_eq_of_read, hread]
  | @assembled text a hanswer hread =>
    have hstart : (s.heard.assemble a.toNat).2.2.start = a := Address.ofInt_toNat a
    simp [hanswer, Command.start?_eq_of_read, hread, hstart]

/-- What is left of the input is its end. -/
theorem leaves (h : s.Stepping recorded after goesOn) : s.console.Leaves after.console := by
  have hheard : s.console.Leaves s.heard.console := s.console.leaves_takeCommand
  cases h with
  | unanswered hanswer => exact hheard
  | quit hanswer hread => exact hheard
  | passed hanswer hread => exact hheard
  | listed hanswer hread => exact hheard
  | assembled hanswer hread => exact hheard.trans (leaves_enterLines s.memory s.heard.console _)

/-- A command that is read uses up a line of the input, and so does every line that is recorded. -/
theorem used_le (h : s.Stepping recorded after goesOn) :
    s.command?.toList.length + lineCount recorded + after.console.unread.length ≤
      s.console.unread.length := by
  have hheard := s.length_heard_add_le
  cases h with
  | unanswered hanswer => exact hheard
  | quit hanswer hread => exact hheard
  | passed hanswer hread => exact hheard
  | listed hanswer hread => exact hheard
  | @assembled text a hanswer hread =>
    have hlines := length_enterLines_add_le s.heard.memory s.heard.console (Address.ofInt a.toNat)
    simp only [lineCount, assemble, List.map_cons, List.map_nil, List.sum_cons, List.sum_nil]
    omega

/-- The monitor stops without a command, or as it is asked to, and does nothing any more. -/
theorem eq_heard (h : s.Stepping recorded after false) :
    after = s.heard ∧
      (s.command? = none ∨ ∃ text, s.command? = some text ∧ Command.read text = .ok .quit) := by
  cases h with
  | unanswered hanswer => exact ⟨rfl, Or.inl hanswer⟩
  | quit hanswer hread => exact ⟨rfl, Or.inr ⟨_, hanswer, hread⟩⟩

/-- The monitor stops at the end of the input, at a line with the escape character, and at the
command `Q`; behind the line it leaves the input as it is. -/
theorem stops (h : s.Stepping recorded after false) :
    (s.console.unread = [] ∧ after.console.unread = []) ∨
      ∃ line, s.console.unread = line :: after.console.unread ∧
        (Text.occurs s.console.escape line = true ∨
          Text.strip (Console.uncommented line) = ['Q']) := by
  obtain ⟨hafter, hreason⟩ := h.eq_heard
  rw [hafter, heard]
  rcases s.console.takeCommand_cases with
    ⟨hnone, -, hconsole⟩ | ⟨line, rest, hunread, hconsole, hanswer⟩
  · rw [hconsole]
    exact Or.inl ⟨hnone, hnone⟩
  · rw [hconsole]
    refine Or.inr ⟨line, hunread, ?_⟩
    by_cases hescape : Text.occurs s.console.escape line = true
    · exact Or.inl hescape
    · rw [if_neg hescape] at hanswer
      rw [command?, hanswer] at hreason
      rcases hreason with hnone | ⟨text, htext, hread⟩
      · cases hnone
      · rw [← Option.some.inj htext, Command.read_eq_quit_iff, String.toList_ofList,
          Text.strip_strip] at hread
        exact Or.inr hread

end Stepping

end LineMonitor.Session
