import LineMonitor.Proofs.Console.Line
import LineMonitor.Proofs.Line.Step
import Mathlib.Data.Int.ModEq

/-!
# The verdict on a line

What becomes of a line is decided by its mnemonic, its operand text and the address, against
the table of encodings and the grammar of operands alone: `Mnemonic.Accepts`,
`Mnemonic.LacksMode` and `Mnemonic.Rejects` say when an instruction takes an operand text, when
it has no such mode, and when the text is no operand for it.  `enterLine_verdict` shows that
`enterLine` decides exactly these; memory has no part in it but for whether the bytes read back.
-/

namespace LineMonitor

namespace Mnemonic

/-- A branch at the address reaches the target, by a distance of one signed byte from the next
instruction. -/
def Reaches (a : Address) (target : Nat) : Prop :=
  ∃ d : Int, (-128 ≤ d ∧ d ≤ 127) ∧ (target : Int) ≡ a.toNat + 2 + d [ZMOD 65536]

/-- The instruction takes the operand text at the address: it has an encoding, and takes no
operand at all, or the text is empty and the encoding works on the accumulator, or the text is
typed in the shape of the mode with a number that a branch reaches. -/
def Accepts (i : Mnemonic) (a : Address) (text : List Char) : Prop :=
  ∃ e ∈ Encoding.all, e.mnemonic = i ∧
    (i.modes = [.implicit] ∨ (text = [] ∧ e.mode = .accumulator) ∨
      (e.mode.shape.pattern ≠ "" ∧ ∃ value, e.mode.shape.Typed text value ∧
        (e.mode = .relative → Reaches a value)))

/-- The text is typed in the shape of a mode that the instruction does not have; four digits
alone are a target to a branch and an absolute operand to any other instruction. -/
def LacksMode (i : Mnemonic) (text : List Char) : Prop :=
  text ≠ [] ∧ ∃ mode : Mode, mode.shape.pattern ≠ "" ∧
    (∃ value, mode.shape.Typed text value) ∧
    (∀ e ∈ Encoding.all, e.mnemonic = i → e.mode ≠ mode) ∧
    (mode = .relative → i.branches = true) ∧ (mode = .absolute → i.branches = false)

/-- The text is no operand for the instruction: it is missing, or has no known shape, or is a
target out of reach. -/
def Rejects (i : Mnemonic) (a : Address) (text : List Char) : Prop :=
  (text = [] ∧ ∀ e ∈ Encoding.all, e.mnemonic = i → e.mode ≠ .accumulator) ∨
    (text ≠ [] ∧ ∀ mode : Mode, mode.shape.pattern ≠ "" → ∀ value, ¬ mode.shape.Typed text value) ∨
    (i.branches = true ∧ ∃ value, Mode.relative.shape.Typed text value ∧ ¬ Reaches a value)

theorem branches_iff {i : Mnemonic} : i.branches = true ↔ .relative ∈ i.modes := by
  rw [branches, List.contains_iff_mem]

end Mnemonic

theorem Mode.pattern_ne_iff {mode : Mode} : mode.shape.pattern ≠ "" ↔ mode ≠ .implicit := by
  cases mode <;> decide

namespace Operand

/-- A text means one operand at most. -/
theorem Means.unique {modes : List Mode} {text : List Char} {o p : Operand}
    (ho : Means modes text o) (hp : Means modes text p) : o = p := by
  rw [← String.toList_ofList (l := text), ← read_eq_ok_iff] at ho hp
  rw [ho] at hp
  exact Except.ok.inj hp

/-- A target is encoded exactly if a branch reaches it, and every other operand always is. -/
theorem exists_encode_iff_reaches {e : Encoding} {a : Address} {value : Nat} :
    (∃ data, (Operand.mk e.mode value).encode a.toNat e.length = .ok data) ↔
      (e.mode = .relative → Mnemonic.Reaches a value) := by
  rw [exists_encode_iff]
  refine forall_congr' fun hmode => exists_congr fun d => and_congr_right fun _ => ?_
  have hrelative : e.mode = .relative := hmode
  have hlength : e.length = 2 := by
    rw [Encoding.length, hrelative]
    rfl
  rw [hlength, Int.modEq_comm, Int.modEq_iff_dvd, Int.dvd_iff_emod_eq_zero]
  push_cast
  rfl

/-- A text means nothing if it is empty and the accumulator is no operand, or has no shape. -/
theorem forall_not_means_iff {modes : List Mode} {text : List Char} :
    (∀ o, ¬ Means modes text o) ↔ (text = [] ∧ .accumulator ∉ modes) ∨
      (text ≠ [] ∧ ∀ mode : Mode, mode ≠ .implicit → ∀ v, ¬ mode.shape.Typed text v) := by
  constructor
  · intro hnone
    by_cases hnil : text = []
    · exact Or.inl ⟨hnil, fun hmem => hnone _ (Or.inl ⟨hnil, rfl, hmem⟩)⟩
    · refine Or.inr ⟨hnil, fun mode himplicit v htyped => ?_⟩
      -- four digits mean something to every instruction, in one of the two modes
      by_cases hfour : mode.shape = Mode.absolute.shape
      · rw [hfour] at htyped
        by_cases hbranch : .relative ∈ modes
        · exact hnone ⟨.relative, v⟩
            (Or.inr ⟨by simp, ⟨v, rfl, htyped⟩, by simp, fun _ => hbranch⟩)
        · exact hnone ⟨.absolute, v⟩
            (Or.inr ⟨by simp, ⟨v, rfl, htyped⟩, fun _ => hbranch, by simp⟩)
      · refine hnone ⟨mode, v⟩ (Or.inr ⟨himplicit, ⟨v, rfl, htyped⟩, ?_, ?_⟩)
        · rintro rfl
          exact absurd rfl hfour
        · rintro rfl
          exact absurd rfl hfour
  · rintro (⟨rfl, hmem⟩ | ⟨hne, hshape⟩) o hmeans
    · rcases hmeans with ⟨-, -, haccumulator⟩ | ⟨himplicit, ⟨v, -, htyped⟩, -⟩
      · exact hmem haccumulator
      · exact not_typed_nil himplicit v htyped
    · rcases hmeans with ⟨hnil, -⟩ | ⟨himplicit, ⟨v, -, htyped⟩, -⟩
      · exact hne hnil
      · exact hshape o.mode himplicit v htyped

end Operand

/-! ## The three verdicts in terms of the operand that a text means -/

namespace Mnemonic

variable {i : Mnemonic} {a : Address} {text : List Char}

/-- An instruction that takes an operand accepts a text exactly if the text means an operand
with an encoding. -/
theorem accepts_iff (hi : i.takesNoOperand = false) :
    i.Accepts a text ↔ ∃ o, Operand.Means i.modes text o ∧ ∃ e, Encoding.find? i o.mode = some e ∧
      ∃ data, o.encode a.toNat e.length = .ok data := by
  have hmodes : i.modes ≠ [.implicit] := by
    intro h
    rw [takesNoOperand, h] at hi
    cases hi
  constructor
  · rintro ⟨e, he, rfl, htext⟩
    have hfind : Encoding.find? e.mnemonic e.mode = some e := Encoding.find?_of_mem he
    rcases htext with himplicit | ⟨rfl, hmode⟩ | ⟨hpattern, value, htyped, hreach⟩
    · exact absurd himplicit hmodes
    · refine ⟨⟨.accumulator, 0⟩, Or.inl ⟨rfl, rfl, ?_⟩, e, hmode ▸ hfind, ?_⟩
      · exact mem_modes_iff.mpr ⟨e, he, rfl, hmode⟩
      · exact Operand.exists_encode_iff.mpr (by simp)
    · have hmeans := Operand.Means.of_typed he (Mode.pattern_ne_iff.mp hpattern) htyped
      exact ⟨_, hmeans, e, hfind, Operand.exists_encode_iff_reaches.mpr hreach⟩
  · rintro ⟨⟨mode, value⟩, hmeans, e, hfind, hencode⟩
    obtain ⟨he, rfl, rfl⟩ := Encoding.find?_eq_some_iff.mp hfind
    refine ⟨e, he, rfl, Or.inr ?_⟩
    rcases hmeans with ⟨rfl, ho, -⟩ | ⟨himplicit, ⟨v, hv, htyped⟩, -⟩
    · exact Or.inl ⟨rfl, congrArg Operand.mode ho⟩
    · rw [show value = (v : Int) from hv] at hencode
      exact Or.inr ⟨Mode.pattern_ne_iff.mpr himplicit, v, htyped,
        Operand.exists_encode_iff_reaches.mp hencode⟩

/-- An instruction lacks the mode of a text exactly if the text means an operand without
encoding. -/
theorem lacksMode_iff :
    i.LacksMode text ↔
      ∃ o, Operand.Means i.modes text o ∧ Encoding.find? i o.mode = none := by
  have hbranch : ∀ b : Bool, i.branches = b ↔ (b = true ↔ .relative ∈ i.modes) := by
    intro b
    rw [← branches_iff]
    cases i.branches <;> cases b <;> simp
  constructor
  · rintro ⟨-, mode, hpattern, ⟨value, htyped⟩, hnone, hrelative, habsolute⟩
    have himplicit := Mode.pattern_ne_iff.mp hpattern
    refine ⟨⟨mode, value⟩, Or.inr ⟨himplicit, ⟨value, rfl, htyped⟩, ?_, ?_⟩,
      Encoding.find?_eq_none_iff.mpr hnone⟩
    · intro hmode
      simpa using (hbranch false).mp (habsolute hmode)
    · intro hmode
      exact branches_iff.mp (hrelative hmode)
  · rintro ⟨o, hmeans, hnone⟩
    rcases hmeans with ⟨-, rfl, hmem⟩ | ⟨himplicit, ⟨v, hv, htyped⟩, habsolute, hrelative⟩
    · obtain ⟨e, he, hmnemonic, hmode⟩ := mem_modes_iff.mp hmem
      exact absurd hmode (Encoding.find?_eq_none_iff.mp hnone e he hmnemonic)
    · refine ⟨?_, o.mode, Mode.pattern_ne_iff.mpr himplicit, ⟨v, htyped⟩,
        Encoding.find?_eq_none_iff.mp hnone, ?_, ?_⟩
      · rintro rfl
        exact Operand.not_typed_nil himplicit v htyped
      · intro hmode
        exact branches_iff.mpr (hrelative hmode)
      · intro hmode
        exact (hbranch false).mpr (by simpa using habsolute hmode)

/-- What a text means can only fail to be encoded if it is a target out of reach. -/
theorem outOfReach_iff :
    (∃ o, Operand.Means i.modes text o ∧ ∃ e, Encoding.find? i o.mode = some e ∧
        ¬ ∃ data, o.encode a.toNat e.length = .ok data) ↔
      i.branches = true ∧ ∃ value, Mode.relative.shape.Typed text value ∧ ¬ Reaches a value := by
  constructor
  · rintro ⟨⟨mode, value⟩, hmeans, e, hfind, hencode⟩
    obtain ⟨he, rfl, rfl⟩ := Encoding.find?_eq_some_iff.mp hfind
    rcases hmeans with ⟨-, ho, -⟩ | ⟨himplicit, ⟨v, hv, htyped⟩, habsolute, hrelative⟩
    · have hmode : e.mode = .accumulator := congrArg Operand.mode ho
      refine absurd (Operand.exists_encode_iff.mpr fun hr => ?_) hencode
      rw [show e.mode = .relative from hr] at hmode
      cases hmode
    · rw [show value = (v : Int) from hv, Operand.exists_encode_iff_reaches,
        Classical.not_imp] at hencode
      obtain ⟨hmode, hfar⟩ := hencode
      rw [show Mode.shape (Operand.mk e.mode value).mode = Mode.relative.shape by rw [hmode]]
        at htyped
      exact ⟨branches_iff.mpr (hrelative hmode), v, htyped, hfar⟩
  · rintro ⟨hbranch, value, htyped, hfar⟩
    have hmem : .relative ∈ i.modes := branches_iff.mp hbranch
    obtain ⟨e, he, rfl, hmode⟩ := mem_modes_iff.mp hmem
    have hmeans : Operand.Means e.mnemonic.modes text ⟨.relative, value⟩ :=
      Or.inr ⟨by simp, ⟨value, rfl, htyped⟩, by simp, fun _ => hmem⟩
    refine ⟨_, hmeans, e, hmode ▸ Encoding.find?_of_mem he, ?_⟩
    rw [← hmode, Operand.exists_encode_iff_reaches]
    exact fun hreach => hfar (hreach hmode)

/-- An instruction rejects a text exactly if the text means nothing to it, or a target out of
reach. -/
theorem rejects_iff :
    i.Rejects a text ↔ (∀ o, ¬ Operand.Means i.modes text o) ∨
      ∃ o, Operand.Means i.modes text o ∧ ∃ e, Encoding.find? i o.mode = some e ∧
        ¬ ∃ data, o.encode a.toNat e.length = .ok data := by
  have haccumulator : (∀ e ∈ Encoding.all, e.mnemonic = i → e.mode ≠ .accumulator) ↔
      .accumulator ∉ i.modes := by
    rw [mem_modes_iff]
    simp
  have hshape : (∀ mode : Mode, mode.shape.pattern ≠ "" → ∀ v, ¬ mode.shape.Typed text v) ↔
      ∀ mode : Mode, mode ≠ .implicit → ∀ v, ¬ mode.shape.Typed text v :=
    forall_congr' fun mode => imp_congr_left Mode.pattern_ne_iff
  rw [Operand.forall_not_means_iff, outOfReach_iff, Rejects, haccumulator, hshape, or_assoc]

/-- The outcome of a line is what the instruction and the operand text ask for: the bytes are
written if the text is accepted, a legal shape without encoding is an invalid mode, and the
operand is invalid otherwise, which is when the instruction rejects the text. -/
structure Verdict (i : Mnemonic) (a : Address) (text : List Char) (outcome : Outcome) : Prop where
  written_iff : outcome = .success ∨ outcome = .writeFailed ↔ i.Accepts a text
  invalidMode_iff : outcome = .invalidMode ↔ i.takesNoOperand = false ∧ i.LacksMode text
  invalidOperand_iff : outcome = .invalidOperand ↔
    ¬ i.Accepts a text ∧ ¬ (i.takesNoOperand = false ∧ i.LacksMode text)
  rejected_iff : outcome = .invalidOperand ↔ i.takesNoOperand = false ∧ i.Rejects a text
  decided : outcome = .success ∨ outcome = .writeFailed ∨ outcome = .invalidMode ∨
    outcome = .invalidOperand

/-- What is neither written nor an invalid mode is an invalid operand. -/
theorem Verdict.of_iffs {outcome : Outcome}
    (hwritten : outcome = .success ∨ outcome = .writeFailed ↔ i.Accepts a text)
    (hmode : outcome = .invalidMode ↔ i.takesNoOperand = false ∧ i.LacksMode text)
    (hrejects : outcome = .invalidOperand ↔ i.takesNoOperand = false ∧ i.Rejects a text)
    (hdecided : outcome = .success ∨ outcome = .writeFailed ∨ outcome = .invalidMode ∨
      outcome = .invalidOperand) : i.Verdict a text outcome := by
  refine ⟨hwritten, hmode, ?_, hrejects, hdecided⟩
  rw [← hwritten, ← hmode]
  rcases hdecided with h | h | h | h <;> simp [h]

/-- A text that means nothing to the instruction is an invalid operand. -/
theorem Verdict.of_no_meaning (hi : i.takesNoOperand = false)
    (h : ∀ o, ¬ Operand.Means i.modes text o) : i.Verdict a text .invalidOperand := by
  refine .of_iffs ?_ ?_ ?_ (by simp)
  · rw [accepts_iff hi]
    simp [h]
  · rw [lacksMode_iff]
    simp [h]
  · rw [rejects_iff]
    simp [h, hi]

/-- A text that means an operand ends as the instruction does with this operand. -/
theorem Verdict.of_assembling {m m' : Memory} {o : Operand} {ending : Ending}
    (hi : i.takesNoOperand = false) (hmeans : Operand.Means i.modes text o)
    (h : Assembling m a i o m' ending) : i.Verdict a text ending.outcome := by
  have honly : ∀ P : Operand → Prop, (∃ p, Operand.Means i.modes text p ∧ P p) ↔ P o := by
    intro P
    constructor
    · rintro ⟨p, hp, hP⟩
      rwa [hmeans.unique hp]
    · intro hP
      exact ⟨o, hmeans, hP⟩
  have hsome : ¬ ∀ p, ¬ Operand.Means i.modes text p := fun hnone => hnone o hmeans
  refine .of_iffs ?_ ?_ ?_ h.outcome_cases
  · rw [accepts_iff hi, honly, h.outcome_written_iff]
  · rw [lacksMode_iff, honly, h.outcome_eq_invalidMode_iff, and_iff_right hi]
  · rw [rejects_iff, or_iff_right hsome, honly, h.outcome_eq_invalidOperand_iff,
      and_iff_right hi]

/-- An instruction that takes no operand ignores the text. -/
theorem Verdict.of_takesNoOperand {m m' : Memory} {ending : Ending}
    (hi : i.takesNoOperand = true) (h : Assembling m a i ⟨.implicit, 0⟩ m' ending) :
    i.Verdict a text ending.outcome := by
  obtain ⟨e, he, rfl⟩ := i.exists_encoding
  have hkind := takesNoOperand_iff.mp hi
  have hmode : e.mode = .implicit := (Encoding.mode_of_kind e he).1.mpr hkind
  have hfind : Encoding.find? e.mnemonic .implicit = some e := hmode ▸ Encoding.find?_of_mem he
  have hencode : ∃ operand, (Operand.mk .implicit 0).encode a.toNat e.length = .ok operand :=
    Operand.exists_encode_iff.mpr (by simp)
  have hwritten := h.outcome_written_iff.mpr ⟨e, hfind, hencode⟩
  have honly : e.mnemonic.modes = [.implicit] := by
    rwa [takesNoOperand, beq_iff_eq] at hi
  have haccepts : e.mnemonic.Accepts a text := ⟨e, he, rfl, Or.inl honly⟩
  refine .of_iffs (iff_of_true hwritten haccepts) ?_ ?_ h.outcome_cases
  · rw [hi]
    rcases hwritten with hw | hw <;> simp [hw]
  · rw [hi]
    rcases hwritten with hw | hw <;> simp [hw]

end Mnemonic

/-! ## The line -/

/-- Once the operand text is known the line is decided by it. -/
theorem enterOperand_verdict {c : Console} {text : String} {i : Mnemonic} (m : Memory)
    (a : Address) (parsed : Statement) (hi : i.takesNoOperand = false)
    (hanswer : c.takeOperand.answer = some text) :
    i.Verdict a text.toList (enterOperand m c a parsed i).result.outcome := by
  simp only [enterOperand, hanswer]
  cases hread : Operand.read i.modes text with
  | error cause =>
    have houtcome : (Ending.refused ⟨cause, none⟩).outcome = .invalidOperand :=
      Operand.outcome_of_read_error hread
    simp only [Statement.stop, Line.outcome, houtcome]
    refine .of_no_meaning hi fun o hmeans => ?_
    rw [← Operand.read_eq_ok_iff, hread] at hmeans
    cases hmeans
  | ok o =>
    exact .of_assembling hi (Operand.read_eq_ok_iff.mp hread) (m.assembling a i o)

/-- The outcome of a line is decided by its mnemonic, its operand text and the address: an
instruction of no known name is invalid, and one that is known gets its verdict. -/
theorem enterLine_verdict (m : Memory) (a : Address) {c : Console} {line : List Char}
    {rest : List (List Char)} (h : c.Offers line rest) :
    c.takeMnemonic.answer = some (String.ofList (Console.mnemonicText line)) ∧
      ((enterLine m c a).result.outcome = .invalidInstruction ↔
        ∀ i : Mnemonic, i.name ≠ String.ofList (Console.mnemonicText line)) ∧
      ∀ i : Mnemonic, i.name = String.ofList (Console.mnemonicText line) →
        i.Verdict a (Console.operandText line) (enterLine m c a).result.outcome := by
  obtain ⟨hanswer, hconsole⟩ := h.takeMnemonic_eq
  obtain ⟨hoperand, -⟩ := Console.takeOperand_afterMnemonic h.escape_eq h.free rest
  simp only [enterLine, hanswer, hconsole]
  generalize String.ofList (Console.mnemonicText line) = mnemonic
  have hverdict : ∀ i : Mnemonic, i.name = mnemonic → i.Verdict a (Console.operandText line)
      (enterMnemonic m (c.afterMnemonic line rest) a mnemonic).result.outcome := by
    rintro i rfl
    simp only [enterMnemonic, Mnemonic.ofName?_name]
    split
    · rename_i hi
      exact .of_takesNoOperand hi (m.assembling a i ⟨.implicit, 0⟩)
    · rename_i hi
      have hverdict := enterOperand_verdict m a { mnemonic := i.name, instruction := some i }
        (Bool.eq_false_iff.mpr hi) hoperand
      rwa [String.toList_ofList] at hverdict
  refine ⟨trivial, ⟨?_, ?_⟩, hverdict⟩
  · intro hinvalid i hi
    have hdecided := (hverdict i hi).decided
    rw [hinvalid] at hdecided
    simp at hdecided
  · intro hunknown
    rw [enterMnemonic, Mnemonic.ofName?_eq_none_iff.mpr hunknown]
    rfl

/-- The verdict on a branch to itself, typed in small letters below a blank line. -/
theorem enterLine_verdict_bne :
    let c := Console.ofText "\n bne 0000 ; again\n".toList "\x1b"
    let line := " bne 0000 ; again".toList
    c.Offers line [] ∧ Mnemonic.bne.name = String.ofList (Console.mnemonicText line) ∧
      Mnemonic.bne.Verdict 0 "0000".toList
        (enterLine (Memory.filled [] [] 0) c 0).result.outcome := by
  intro c line
  have hoffers : c.Offers line [] := by
    refine ⟨⟨rfl, ?_, ⟨[[]], by decide +kernel, ?_⟩, ?_⟩, by decide⟩
    · intro behind hbehind
      cases hbehind
    · intro b hb
      rw [List.mem_singleton.mp hb]
      rfl
    · rw [Console.IsBlankLine]
      decide
  have hname : Mnemonic.bne.name = String.ofList (Console.mnemonicText line) := by
    decide
  have htext : Console.operandText line = "0000".toList := by
    decide
  refine ⟨hoffers, hname, ?_⟩
  rw [← htext]
  exact (enterLine_verdict (Memory.filled [] [] 0) 0 hoffers).2.2 .bne hname

end LineMonitor
