import LineMonitor.Instruction.Encoding
import LineMonitor.Proofs.Console.Line
import LineMonitor.Proofs.Instruction.Table

/-!
# Escape in a line

Escape counts where it stands before the comment of a line.  If it stands before the mnemonic is
complete, the console has no answer (`Console.takeMnemonic_holding_of_early`); if it stands behind
it, the mnemonic is answered and the escape is kept with the rest of the line
(`Console.takeMnemonic_holding_of_not_early`), to be noticed when the operand is asked for or, if
it never is, when the next mnemonic is.  `Console.Stops` says which lines are the last that a run
of lines reads.
-/

namespace LineMonitor

/-- An instruction takes an operand exactly if it has a mode besides the implicit one. -/
theorem Mnemonic.takesNoOperand_eq_false_iff {i : Mnemonic} :
    i.takesNoOperand = false ↔ ∃ mode ∈ i.modes, mode ≠ .implicit := by
  constructor
  · intro htakes
    obtain ⟨e, he, hmnemonic⟩ := i.exists_encoding
    refine ⟨e.mode, mem_modes_iff.mpr ⟨e, he, hmnemonic, rfl⟩, fun himplicit => ?_⟩
    have hkind : i.kind = .implied := by
      rw [← hmnemonic]
      exact (Encoding.mode_of_kind e he).1.mp himplicit
    rw [takesNoOperand_iff.mpr hkind] at htakes
    cases htakes
  · rintro ⟨mode, hmode, hother⟩
    rw [Bool.eq_false_iff]
    intro htakes
    have honly : i.modes = [.implicit] := by simpa [takesNoOperand] using htakes
    rw [honly, List.mem_singleton] at hmode
    exact hother hmode

/-- The text names an instruction whose operand is asked for. -/
def Mnemonic.Asks (name : String) : Prop :=
  ∃ i, ofName? name = some i ∧ i.takesNoOperand = false

namespace Console

/-! ## Where Escape stands -/

/-- Escape stands before the comment of the line. -/
def HasEscape (line : List Char) : Prop :=
  '\x1b' ∈ line.takeWhile (· != ';')

/-- Escape stands before the third letter of the line, or before its comment if there is no
third letter. -/
def EscapesEarly (line : List Char) : Prop :=
  ∃ front back, uncommented line = front ++ '\x1b' :: back ∧
    (front.filter isLetter).length < mnemonicLength

/-- The mnemonic of the line is that of an instruction with a mode besides the implicit one. -/
def AsksOperand (line : List Char) : Prop :=
  ∃ i : Mnemonic, i.name = String.ofList (mnemonicText line) ∧ ∃ mode ∈ i.modes, mode ≠ .implicit

/-- Escape stands where the mnemonic of the line is not complete, or where no operand is asked
for behind it. -/
def Stops (line : List Char) : Prop :=
  HasEscape line ∧ (EscapesEarly line ∨ ¬ AsksOperand line)

theorem EscapesEarly.hasEscape {line : List Char} (h : EscapesEarly line) : HasEscape line := by
  obtain ⟨front, back, hline, -⟩ := h
  refine escape_mem_uncommented_iff.mp ?_
  rw [hline]
  simp

theorem EscapesEarly.stops {line : List Char} (h : EscapesEarly line) : Stops line :=
  ⟨h.hasEscape, Or.inl h⟩

/-- Behind a line with Escape the run goes on if the operand is asked for. -/
theorem HasEscape.not_stops_iff {line : List Char} (h : HasEscape line) :
    ¬ Stops line ↔ ¬ EscapesEarly line ∧ AsksOperand line := by
  rw [Stops, and_iff_right h, not_or, not_not]

theorem IsBlankLine.not_hasEscape {line : List Char} (h : IsBlankLine line) : ¬ HasEscape line :=
  fun hescape => h.escape_notMem (escape_mem_uncommented_iff.mpr hescape)

/-- What a line is to the run that comes to it: blank, or with Escape before its mnemonic is
complete, or with Escape where no operand is asked for, or none of these. -/
theorem line_cases (line : List Char) :
    IsBlankLine line ∨ EscapesEarly line ∨
      (HasEscape line ∧ ¬ EscapesEarly line ∧ ¬ AsksOperand line) ∨
      (¬ IsBlankLine line ∧ ¬ Stops line) := by
  by_cases hblank : IsBlankLine line
  · exact Or.inl hblank
  by_cases hearly : EscapesEarly line
  · exact Or.inr (Or.inl hearly)
  by_cases hstops : Stops line
  · obtain ⟨hescape, hwhy⟩ := hstops
    exact Or.inr (Or.inr (Or.inl ⟨hescape, hearly, hwhy.resolve_left hearly⟩))
  · exact Or.inr (Or.inr (Or.inr ⟨hblank, hstops⟩))

/-- The operand of a line is asked for as its mnemonic has it. -/
theorem asksOperand_iff {line : List Char} :
    AsksOperand line ↔ Mnemonic.Asks (String.ofList (mnemonicText line)) := by
  refine exists_congr fun i => and_congr ?_ ?_
  · exact Mnemonic.ofName?_eq_some_iff.symm
  · exact Mnemonic.takesNoOperand_eq_false_iff.symm

/-! ## Splitting a line that holds Escape -/

theorem splitLetters?_eq_none_iff_early {line : List Char} :
    splitLetters? ['\x1b'] mnemonicLength (uncommented line) = none ↔ EscapesEarly line :=
  splitLetters?_eq_none_iff

/-- An escape that does not stand before the last of the letters stands behind it. -/
theorem mem_behindLetters {e : Char} {line : List Char} {wanted : Nat}
    (h : splitLetters? [e] wanted line ≠ none) (hmem : e ∈ line) :
    e ∈ behindLetters wanted line := by
  induction line generalizing wanted with
  | nil => cases hmem
  | cons c rest ih =>
    cases wanted with
    | zero => exact hmem
    | succ wanted =>
      have hc : c ≠ e := by
        rintro rfl
        exact h (by simp [splitLetters?])
      have hrest : e ∈ rest := (List.mem_cons.mp hmem).resolve_left (Ne.symm hc)
      rw [behindLetters, ← apply_ite fun wanted => behindLetters wanted rest]
      exact ih (mt (splitLetters?_cons_eq_none_iff hc rest wanted).mpr h) hrest

/-- Behind a complete mnemonic Escape stands if it is in the line at all. -/
theorem escape_mem_behindLetters_iff {line : List Char} (h : ¬ EscapesEarly line) :
    '\x1b' ∈ behindLetters mnemonicLength (uncommented line) ↔ HasEscape line := by
  constructor
  · intro hmem
    exact escape_mem_uncommented_iff.mp (mem_of_mem_behindLetters hmem)
  · intro hescape
    exact mem_behindLetters (mt splitLetters?_eq_none_iff_early.mp h)
      (escape_mem_uncommented_iff.mpr hescape)

/-! ## The line without its escapes -/

/-- A line that is freed of its escapes up to its comment is freed of them before its comment. -/
theorem uncommented_erase (line : List Char) :
    uncommented (Text.erase ['\x1b'] line) = (uncommented line).filter (· != '\x1b') := by
  have htaken : ∀ text : List Char, (text.filter (· != '\x1b')).takeWhile (· != ';') =
      (text.takeWhile (· != ';')).filter (· != '\x1b') := by
    intro text
    induction text with
    | nil => rfl
    | cons c rest ih =>
      by_cases hsemicolon : c = ';'
      · subst hsemicolon
        rfl
      · by_cases hescape : c = '\x1b'
        · subst hescape
          simpa using ih
        · simp [hsemicolon, hescape, ih]
  have hupper : ∀ text : List Char, Text.upper (text.filter (· != '\x1b')) =
      (Text.upper text).filter (· != '\x1b') := by
    intro text
    induction text with
    | nil => rfl
    | cons c rest ih =>
      by_cases hescape : c = '\x1b'
      · subst hescape
        have hself : Text.upperChar '\x1b' = ['\x1b'] := by decide
        simp [hself, ih]
      · have hnone : (Text.upperChar c).filter (· != '\x1b') = Text.upperChar c := by
          rw [List.filter_eq_self]
          intro x hx
          rw [bne_iff_ne]
          rintro rfl
          exact hescape ((Text.mem_upperChar_iff (by decide)).mp hx).symm
        simp [hescape, hnone, ih]
  rw [Text.erase_singleton, uncommented, htaken, hupper, uncommented]

/-- Escapes are no part of the mnemonic. -/
theorem mnemonicText_erase (line : List Char) :
    mnemonicText (Text.erase ['\x1b'] line) = mnemonicText line := by
  have hletters : ∀ c, (isLetter c && (c != '\x1b')) = isLetter c := by
    intro c
    by_cases hc : c = '\x1b'
    · subst hc
      rfl
    · simp [hc]
  rw [mnemonicText, mnemonicText, uncommented_erase, List.filter_filter]
  simp only [hletters]

theorem not_hasEscape_erase (line : List Char) : ¬ HasEscape (Text.erase ['\x1b'] line) := by
  intro hescape
  have hmem := escape_mem_uncommented_iff.mpr hescape
  rw [uncommented_erase, List.mem_filter] at hmem
  simp at hmem

/-- Behind a complete mnemonic Escape is not all there is on a line. -/
theorem mnemonicText_ne_nil {line : List Char} (hescape : HasEscape line)
    (hlate : ¬ EscapesEarly line) : mnemonicText line ≠ [] := by
  intro hnil
  obtain ⟨front, back, hline⟩ :=
    List.append_of_mem (escape_mem_uncommented_iff.mpr hescape)
  have hfew : ((uncommented line).filter isLetter).take mnemonicLength = [] := hnil
  have hnone : (uncommented line).filter isLetter = [] := by
    rcases List.take_eq_nil_iff.mp hfew with hzero | hnone
    · cases hzero
    · exact hnone
  refine hlate ⟨front, back, hline, ?_⟩
  rw [hline, List.filter_append, List.append_eq_nil_iff] at hnone
  rw [hnone.1]
  exact Nat.zero_lt_succ _

theorem not_isBlankLine_erase {line : List Char} (hescape : HasEscape line)
    (hlate : ¬ EscapesEarly line) : ¬ IsBlankLine (Text.erase ['\x1b'] line) := by
  intro hblank
  have hnil := hblank.mnemonicText_eq
  rw [mnemonicText_erase] at hnil
  exact mnemonicText_ne_nil hescape hlate hnil

/-! ## A console that holds lines -/

/-- A console with these lines to read and nothing left of a line. -/
def holding (lines : List (List Char)) : Console where
  unread := lines
  escape := ['\x1b']

theorem ready_holding (lines : List (List Char)) : (holding lines).Ready lines := by
  refine ⟨rfl, fun behind hpending => ?_, rfl⟩
  cases hpending

/-- The answer of a console comes from the lines it reads and its escape character alone. -/
theorem nextMnemonic_eq_of_escape {c c' : Console} (h : c.escape = c'.escape)
    (lines : List (List Char)) : c.nextMnemonic lines = c'.nextMnemonic lines := by
  have hset : ∀ unread remainder, ({ c with unread, remainder } : Console) =
      { c' with unread, remainder } := by
    intro unread remainder
    rw [h]
  have hechoed : ∀ line, c.echoed line = c'.echoed line := by
    intro line
    rw [echoed, echoed, h]
  induction lines with
  | nil => simp only [nextMnemonic, hset]
  | cons line rest ih => simp only [nextMnemonic, hechoed, h, ih]

/-- Between two lines the next mnemonic is read as if the console held the lines from the start. -/
theorem Ready.takeMnemonic_eq {c : Console} {lines : List (List Char)} (h : c.Ready lines) :
    c.takeMnemonic = (holding lines).takeMnemonic := by
  rw [takeMnemonic_eq_nextMnemonic h.escape_eq h.not_pending, h.unread_eq]
  exact nextMnemonic_eq_of_escape h.escape_eq lines

/-- The answer to the question for the operand comes from what was left of the line. -/
theorem answer_takeOperand_congr {c c' : Console} (hescape : c.escape = c'.escape)
    (hremainder : c.remainder = c'.remainder) :
    c.takeOperand.answer = c'.takeOperand.answer := by
  simp only [takeOperand, hescape, hremainder]
  split <;> rfl

/-- Nothing is left of a line whose operand was asked for. -/
theorem console_takeOperand (c : Console) :
    c.takeOperand.console = { c with remainder := none } := by
  simp only [takeOperand]
  split <;> rfl

/-! ## Reading a line that holds Escape -/

/-- Escape where the mnemonic is not complete is read as no answer, and nothing of it is left. -/
theorem takeMnemonic_holding_of_early {line : List Char} (h : EscapesEarly line)
    (rest : List (List Char)) :
    (holding (line :: rest)).takeMnemonic.answer = none ∧
      (holding (line :: rest)).takeMnemonic.console = holding rest := by
  have hsplit := splitLetters?_eq_none_iff_early.mpr h
  simp [takeMnemonic, holding, nextMnemonic, hsplit]

/-- Otherwise a line with something on it is read as its mnemonic, and the rest is kept. -/
theorem takeMnemonic_holding_of_not_early {line : List Char} (hblank : ¬ IsBlankLine line)
    (h : ¬ EscapesEarly line) (rest : List (List Char)) :
    (holding (line :: rest)).takeMnemonic.answer = some (String.ofList (mnemonicText line)) ∧
      (holding (line :: rest)).takeMnemonic.console =
        (holding (line :: rest)).afterMnemonic line rest := by
  have hletters := mt splitLetters?_eq_none_iff_early.mp h
  exact nextMnemonic_cons_of_not_blank (c := holding (line :: rest)) rfl hblank hletters rest

/-- A blank line is as good as none. -/
theorem takeMnemonic_holding_of_blank {line : List Char} (h : IsBlankLine line)
    (rest : List (List Char)) :
    (holding (line :: rest)).takeMnemonic.answer = (holding rest).takeMnemonic.answer ∧
      (holding (line :: rest)).takeMnemonic.console = (holding rest).takeMnemonic.console := by
  have hescape : (holding (line :: rest)).escape = (holding rest).escape := rfl
  have hrest := nextMnemonic_eq_of_escape hescape rest
  obtain ⟨hanswer, hconsole⟩ := nextMnemonic_cons_of_blank (c := holding (line :: rest)) rfl h rest
  rw [hrest] at hanswer hconsole
  exact ⟨hanswer, hconsole⟩

/-- Escape behind the mnemonic is read in the place of the operand, and nothing of it is left. -/
theorem takeOperand_of_hasEscape {line : List Char} (hescape : HasEscape line)
    (hlate : ¬ EscapesEarly line) (rest : List (List Char)) :
    ((holding (line :: rest)).afterMnemonic line rest).takeOperand.answer = none ∧
      ((holding (line :: rest)).afterMnemonic line rest).takeOperand.console = holding rest := by
  have hbehind := (escape_mem_behindLetters_iff hlate).mpr hescape
  simp [takeOperand, afterMnemonic, holding, Text.occurs_singleton, hbehind]

/-- If the operand is not asked for, it is read in the place of the next mnemonic, before any
further line. -/
theorem takeMnemonic_of_hasEscape {line : List Char} (hescape : HasEscape line)
    (hlate : ¬ EscapesEarly line) (rest : List (List Char)) :
    ((holding (line :: rest)).afterMnemonic line rest).takeMnemonic.answer = none ∧
      ((holding (line :: rest)).afterMnemonic line rest).takeMnemonic.console = holding rest := by
  have hbehind := (escape_mem_behindLetters_iff hlate).mpr hescape
  simp [takeMnemonic, afterMnemonic, holding, Text.occurs_singleton, hbehind]

end Console

end LineMonitor
