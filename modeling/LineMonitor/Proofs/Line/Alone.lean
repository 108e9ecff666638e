import LineMonitor.Proofs.Console.Escape
import LineMonitor.Proofs.Line.Step

/-!
# A line on its own

What becomes of a line is decided by the line: the lines behind it have no part in it, and the
console is ready for them afterwards (`enterLine_holding_of_not_stops`), unless the line is one of
those after which no more is read.  Where Escape stands behind a mnemonic that asks for an
operand, the line is dropped (`enterLine_holding_of_dropped`); behind any other mnemonic the line
ends as it would without it (`enterLine_holding_of_unasked`).
-/

namespace LineMonitor

/-! ## From the mnemonic on -/

/-- How a line goes on behind its mnemonic, with what it leaves of the console. -/
inductive Following (m : Memory) (c : Console) (a : Address) (mnemonic : String)
    (step : LineStep) : Prop where
  /-- No operand is asked for. -/
  | unasked (hno : ¬ Mnemonic.Asks mnemonic) (hconsole : step.console = c)
      (hdropped : step.result.ending ≠ .dropped) (hended : step.result.ending ≠ .ended)
  /-- The operand is asked for without an answer. -/
  | dropped (hasks : Mnemonic.Asks mnemonic) (hanswer : c.takeOperand.answer = none)
      (hconsole : step.console = c.takeOperand.console)
      (hmemory : step.memory = m) (haddress : step.result.address = a)
      (hending : step.result.ending = .dropped)
  /-- The operand is asked for and answered. -/
  | answered (hasks : Mnemonic.Asks mnemonic) (hanswer : c.takeOperand.answer ≠ none)
      (hconsole : step.console = c.takeOperand.console) (hdropped : step.result.ending ≠ .dropped)
      (hended : step.result.ending ≠ .ended)

/-- An instruction with its operand is assembled or refused. -/
theorem Assembling.ending_ne {m m' : Memory} {a : Address} {i : Mnemonic} {o : Operand}
    {ending : Ending} (h : Assembling m a i o m' ending) : ending ≠ .dropped ∧ ending ≠ .ended := by
  cases h with
  | unsupported hfind houtcome => exact ⟨Ending.noConfusion, Ending.noConfusion⟩
  | outOfReach hfind hencode => exact ⟨Ending.noConfusion, Ending.noConfusion⟩
  | lost hfind hencode hlost => exact ⟨Ending.noConfusion, Ending.noConfusion⟩
  | kept hfind hencode hkept => exact ⟨Ending.noConfusion, Ending.noConfusion⟩

theorem following_enterMnemonic (m : Memory) (c : Console) (a : Address) (mnemonic : String) :
    Following m c a mnemonic (enterMnemonic m c a mnemonic) := by
  unfold enterMnemonic
  cases hname : Mnemonic.ofName? mnemonic with
  | none =>
    have hno : ¬ Mnemonic.Asks mnemonic := by
      rintro ⟨i, hi, -⟩
      rw [hname] at hi
      cases hi
    exact .unasked hno rfl Ending.noConfusion Ending.noConfusion
  | some i =>
    cases htakes : i.takesNoOperand with
    | true =>
      have hno : ¬ Mnemonic.Asks mnemonic := by
        rintro ⟨j, hj, hasks⟩
        rw [hname] at hj
        rw [← Option.some.inj hj, htakes] at hasks
        cases hasks
      have hending := (m.assembling a i ⟨.implicit, 0⟩).ending_ne
      simp only [htakes, if_true]
      exact .unasked hno rfl hending.1 hending.2
    | false =>
      have hasks : Mnemonic.Asks mnemonic := ⟨i, hname, htakes⟩
      simp only [htakes, enterOperand]
      cases hanswer : c.takeOperand.answer with
      | none => exact .dropped hasks hanswer rfl rfl rfl rfl
      | some text =>
        have hsome : c.takeOperand.answer ≠ none := by simp [hanswer]
        simp only
        cases Operand.read i.modes text with
        | error cause => exact .answered hasks hsome rfl Ending.noConfusion Ending.noConfusion
        | ok o =>
          have hending := (m.assembling a i o).ending_ne
          exact .answered hasks hsome rfl hending.1 hending.2

/-- Of the console only the answer to the question for the operand counts, if it is asked for. -/
theorem enterMnemonic_congr {m : Memory} {c c' : Console} {a : Address} {mnemonic : String}
    (h : Mnemonic.Asks mnemonic → c.takeOperand.answer = c'.takeOperand.answer) :
    (enterMnemonic m c a mnemonic).memory = (enterMnemonic m c' a mnemonic).memory ∧
      (enterMnemonic m c a mnemonic).result = (enterMnemonic m c' a mnemonic).result := by
  unfold enterMnemonic
  cases hname : Mnemonic.ofName? mnemonic with
  | none => exact ⟨rfl, rfl⟩
  | some i =>
    cases htakes : i.takesNoOperand with
    | true => simp only [htakes, if_true]; exact ⟨rfl, rfl⟩
    | false =>
      have hanswer := h ⟨i, hname, htakes⟩
      simp only [htakes, enterOperand, hanswer]
      cases c'.takeOperand.answer with
      | none => exact ⟨rfl, rfl⟩
      | some text =>
        simp only
        cases Operand.read i.modes text with
        | error cause => exact ⟨rfl, rfl⟩
        | ok o => exact ⟨rfl, rfl⟩

/-! ## A line of a console that holds lines -/

/-- Between two lines it makes no difference to the next how the console got there. -/
theorem Console.Ready.enterLine_eq {c : Console} {lines : List (List Char)} (h : c.Ready lines)
    (m : Memory) (a : Address) : enterLine m c a = enterLine m (holding lines) a := by
  rw [enterLine, enterLine, h.takeMnemonic_eq]

/-- A line goes on as its mnemonic does. -/
theorem enterLine_of_answer {c : Console} {mnemonic : String}
    (h : c.takeMnemonic.answer = some mnemonic) (m : Memory) (a : Address) :
    (enterLine m c a).memory = (enterMnemonic m c.takeMnemonic.console a mnemonic).memory ∧
      (enterLine m c a).console = (enterMnemonic m c.takeMnemonic.console a mnemonic).console ∧
      (enterLine m c a).result = (enterMnemonic m c.takeMnemonic.console a mnemonic).result := by
  simp only [enterLine, h, and_self]

/-- Without a mnemonic a line is the end. -/
theorem enterLine_of_no_answer {c : Console} (h : c.takeMnemonic.answer = none) (m : Memory)
    (a : Address) :
    (enterLine m c a).memory = m ∧ (enterLine m c a).console = c.takeMnemonic.console ∧
      (enterLine m c a).result.ending = .ended := by
  simp only [enterLine, h, and_self]

section Holding

open Console

variable (m : Memory) (a : Address) {line : List Char} (rest : List (List Char))

/-- A blank line is passed over. -/
theorem enterLine_holding_of_blank (h : IsBlankLine line) :
    (enterLine m (holding (line :: rest)) a).memory = (enterLine m (holding rest) a).memory ∧
      (enterLine m (holding (line :: rest)) a).console =
        (enterLine m (holding rest) a).console ∧
      (enterLine m (holding (line :: rest)) a).result =
        (enterLine m (holding rest) a).result := by
  obtain ⟨hanswer, hconsole⟩ := takeMnemonic_holding_of_blank h rest
  simp only [enterLine, hanswer, hconsole]
  cases (holding rest).takeMnemonic.answer with
  | none => exact ⟨rfl, rfl, rfl⟩
  | some mnemonic => exact ⟨rfl, rfl, rfl⟩

/-- Escape before the mnemonic is complete is the end. -/
theorem enterLine_holding_of_early (h : EscapesEarly line) :
    (enterLine m (holding (line :: rest)) a).memory = m ∧
      (enterLine m (holding (line :: rest)) a).console = holding rest ∧
      (enterLine m (holding (line :: rest)) a).result.ending = .ended := by
  obtain ⟨hanswer, hconsole⟩ := takeMnemonic_holding_of_early h rest
  have hstep := enterLine_of_no_answer hanswer m a
  rwa [hconsole] at hstep

/-- A line with something on it, and without such an escape, goes on as its mnemonic does. -/
theorem enterLine_holding_of_not_early (hblank : ¬ IsBlankLine line) (hlate : ¬ EscapesEarly line) :
    let after := (holding (line :: rest)).afterMnemonic line rest
    let step := enterMnemonic m after a (String.ofList (mnemonicText line))
    (enterLine m (holding (line :: rest)) a).memory = step.memory ∧
      (enterLine m (holding (line :: rest)) a).console = step.console ∧
      (enterLine m (holding (line :: rest)) a).result = step.result := by
  obtain ⟨hanswer, hconsole⟩ := takeMnemonic_holding_of_not_early hblank hlate rest
  have hstep := enterLine_of_answer hanswer m a
  rwa [hconsole] at hstep

/-- A line after which the run goes on ends as it does without the lines behind it, and leaves
the console ready for them. -/
theorem enterLine_holding_of_not_stops (hblank : ¬ IsBlankLine line) (h : ¬ Stops line) :
    (enterLine m (holding (line :: rest)) a).memory = (enterLine m (holding [line]) a).memory ∧
      (enterLine m (holding (line :: rest)) a).result =
        (enterLine m (holding [line]) a).result ∧
      (enterLine m (holding (line :: rest)) a).result.ending ≠ .ended ∧
      (enterLine m (holding (line :: rest)) a).console.Ready rest := by
  have hlate : ¬ EscapesEarly line := fun hearly => h hearly.stops
  obtain ⟨hmemory, hconsole, hresult⟩ := enterLine_holding_of_not_early m a rest hblank hlate
  obtain ⟨hmemory', -, hresult'⟩ := enterLine_holding_of_not_early m a [] hblank hlate
  rw [hmemory, hconsole, hresult, hmemory', hresult']
  have hsame : ((holding (line :: rest)).afterMnemonic line rest).takeOperand.answer =
      ((holding [line]).afterMnemonic line []).takeOperand.answer :=
    answer_takeOperand_congr rfl rfl
  have htaken :
      ((holding (line :: rest)).afterMnemonic line rest).takeOperand.console.Ready rest := by
    rw [console_takeOperand]
    exact ready_holding rest
  refine ⟨(enterMnemonic_congr fun _ => hsame).1, (enterMnemonic_congr fun _ => hsame).2, ?_⟩
  cases following_enterMnemonic m ((holding (line :: rest)).afterMnemonic line rest) a
    (String.ofList (mnemonicText line)) with
  | unasked hno hkept hdropped hended =>
    -- the rest of the line stays behind, so Escape must not be in it
    have hfree : ¬ HasEscape line := fun hescape =>
      h ⟨hescape, Or.inr (mt asksOperand_iff.mp hno)⟩
    refine ⟨hended, ?_⟩
    rw [hkept]
    refine ⟨rfl, fun behind hpending hmem => ?_, rfl⟩
    rw [← Option.some.inj hpending] at hmem
    exact hfree ((escape_mem_behindLetters_iff hlate).mp hmem)
  | dropped hasks hanswer hkept hkeptMemory haddress hending =>
    refine ⟨by rw [hending]; exact Ending.noConfusion, ?_⟩
    rwa [hkept]
  | answered hasks hanswer hkept hdropped hended =>
    refine ⟨hended, ?_⟩
    rwa [hkept]

/-- A line with Escape behind a mnemonic that asks for an operand is dropped. -/
theorem enterLine_holding_of_dropped (hescape : HasEscape line) (hlate : ¬ EscapesEarly line)
    (hasks : AsksOperand line) :
    (enterLine m (holding (line :: rest)) a).memory = m ∧
      (enterLine m (holding (line :: rest)) a).result.address = a ∧
      (enterLine m (holding (line :: rest)) a).result.ending = .dropped := by
  have hblank : ¬ IsBlankLine line := fun hblank => hblank.not_hasEscape hescape
  obtain ⟨hmemory, -, hresult⟩ := enterLine_holding_of_not_early m a rest hblank hlate
  have hnone := (takeOperand_of_hasEscape hescape hlate rest).1
  rw [hmemory, hresult]
  cases following_enterMnemonic m ((holding (line :: rest)).afterMnemonic line rest) a
    (String.ofList (mnemonicText line)) with
  | unasked hno hkept hdropped hended => exact absurd (asksOperand_iff.mp hasks) hno
  | dropped _ hanswer hkept hkeptMemory haddress hending => exact ⟨hkeptMemory, haddress, hending⟩
  | answered _ hanswer hkept hdropped hended => exact absurd hnone hanswer

/-- A line without Escape is not dropped. -/
theorem enterLine_holding_of_free (hblank : ¬ IsBlankLine line) (hfree : ¬ HasEscape line) :
    (enterLine m (holding (line :: rest)) a).result.ending ≠ .dropped := by
  have hlate : ¬ EscapesEarly line := fun hearly => hfree hearly.hasEscape
  obtain ⟨-, -, hresult⟩ := enterLine_holding_of_not_early m a rest hblank hlate
  have hsome := (takeOperand_afterMnemonic (c := holding (line :: rest)) rfl hfree rest).1
  rw [hresult]
  cases following_enterMnemonic m ((holding (line :: rest)).afterMnemonic line rest) a
    (String.ofList (mnemonicText line)) with
  | unasked hno hkept hdropped hended => exact hdropped
  | dropped hasks hanswer hkept hkeptMemory haddress hending =>
    rw [hsome] at hanswer
    cases hanswer
  | answered hasks hanswer hkept hdropped hended => exact hdropped

/-- A line with Escape behind a mnemonic that asks for no operand ends as it would without it, and
the escape is left behind. -/
theorem enterLine_holding_of_unasked (hescape : HasEscape line) (hlate : ¬ EscapesEarly line)
    (hno : ¬ AsksOperand line) :
    let alone := enterLine m (holding [Text.erase ['\x1b'] line]) a
    (enterLine m (holding (line :: rest)) a).memory = alone.memory ∧
      (enterLine m (holding (line :: rest)) a).result = alone.result ∧
      (enterLine m (holding (line :: rest)) a).result.ending ≠ .ended ∧
      (enterLine m (holding (line :: rest)) a).console =
        (holding (line :: rest)).afterMnemonic line rest := by
  intro alone
  have hblank : ¬ IsBlankLine line := fun hblank => hblank.not_hasEscape hescape
  have hunasked : ¬ Mnemonic.Asks (String.ofList (mnemonicText line)) := mt asksOperand_iff.mpr hno
  obtain ⟨hmemory, hconsole, hresult⟩ := enterLine_holding_of_not_early m a rest hblank hlate
  obtain ⟨hmemory', -, hresult'⟩ := enterLine_holding_of_not_early m a []
    (not_isBlankLine_erase hescape hlate) fun hearly => not_hasEscape_erase line hearly.hasEscape
  rw [mnemonicText_erase] at hmemory' hresult'
  rw [hmemory, hconsole, hresult, hmemory', hresult']
  refine ⟨?_, ?_, ?_⟩
  · exact (enterMnemonic_congr fun hasks => absurd hasks hunasked).1
  · exact (enterMnemonic_congr fun hasks => absurd hasks hunasked).2
  cases following_enterMnemonic m ((holding (line :: rest)).afterMnemonic line rest) a
    (String.ofList (mnemonicText line)) with
  | unasked _ hkept hdropped hended => exact ⟨hended, hkept⟩
  | dropped hasks hanswer hkept hkeptMemory haddress hending => exact absurd hasks hunasked
  | answered hasks hanswer hkept hdropped hended => exact absurd hasks hunasked

end Holding

end LineMonitor
