import LineMonitor.Proofs.Text.Numeral
import LineMonitor.Settings.Written

/-!
# Addresses in options

An address is written plainly as digits of either case behind at most one mark
(`Settings.WrittenPlainly`).  `Settings.readAddress_exact` says what is read besides: behind the
mark any numeral of base sixteen may stand, with a sign, white space, a mark of its own, underscores
and the digits of any script.  Of the texts with nothing but digits behind the mark those are
read that are written plainly.
-/

namespace LineMonitor.Settings

/-- The marks that may stand in front of an address. -/
def addressMarks : List (List Char) :=
  [[], ['$'], ['0', 'x'], ['0', 'X']]

/-- The text is an address as it is meant to be written: at most one mark and digits of either case
that stand for the number, perhaps with white space around them. -/
def WrittenPlainly (text : List Char) (value : Int) : Prop :=
  ∃ mark ∈ addressMarks, ∃ digits, ∃ n : Nat, Text.strip text = mark ++ digits ∧
    Hex.Spells digits n ∧ n ≤ 0xFFFF ∧ value = n

/-! ## Marks -/

theorem exists_mark (text : List Char) : ∃ mark ∈ addressMarks, text = mark ++ dropMark text := by
  unfold dropMark
  split
  · exact ⟨['$'], by simp [addressMarks], rfl⟩
  · rename_i x rest
    split
    · rename_i hx
      rcases hx with rfl | rfl
      · exact ⟨['0', 'x'], by simp [addressMarks], rfl⟩
      · exact ⟨['0', 'X'], by simp [addressMarks], rfl⟩
    · exact ⟨[], List.mem_cons_self, rfl⟩
  · exact ⟨[], List.mem_cons_self, rfl⟩

/-- Digits are left as they are. -/
theorem dropMark_of_digits {digits : List Char} (h : ∀ c ∈ digits, c ∈ Hex.eitherCase) :
    dropMark digits = digits := by
  unfold dropMark
  split
  · exact absurd (h '$' List.mem_cons_self) (by decide)
  · rename_i x rest
    have hx : x ∈ Hex.eitherCase := h x (by simp)
    rw [if_neg]
    rintro (rfl | rfl)
    · exact absurd hx (by decide)
    · exact absurd hx (by decide)
  · rfl

theorem dropMark_append {mark digits : List Char} (hmark : mark ∈ addressMarks)
    (h : ∀ c ∈ digits, c ∈ Hex.eitherCase) : dropMark (mark ++ digits) = digits := by
  simp only [addressMarks, List.mem_cons, List.not_mem_nil, or_false] at hmark
  rcases hmark with rfl | rfl | rfl | rfl
  · exact dropMark_of_digits h
  · rfl
  · rfl
  · rfl

/-! ## Reading -/

section Number

variable {text : List Char}

theorem readNumber_eq_ok_iff {value : Int} :
    readNumber text = .ok value ↔
      Text.Numeral.hex? (dropMark (Text.strip text)) = some value ∧ 0 ≤ value ∧ value ≤ 0xFFFF := by
  unfold readNumber
  dsimp only
  cases hread : Text.Numeral.hex? (dropMark (Text.strip text)) with
  | none => simp
  | some n =>
    by_cases hrange : 0 ≤ n ∧ n ≤ 0xFFFF
    · simp only [if_pos hrange, Except.ok.injEq, Option.some.injEq]
      exact ⟨fun h => ⟨h, h ▸ hrange⟩, fun h => h.1⟩
    · simp only [if_neg hrange, reduceCtorEq, Option.some.injEq, false_iff]
      rintro ⟨rfl, h⟩
      exact hrange h

theorem readNumber_eq_error_iff {e : AddressError} :
    readNumber text = .error e ↔
      (Text.Numeral.hex? (dropMark (Text.strip text)) = none ∧
        e = .notANumber (String.ofList (dropMark (Text.strip text)))) ∨
      ∃ value, Text.Numeral.hex? (dropMark (Text.strip text)) = some value ∧
        ¬ (0 ≤ value ∧ value ≤ 0xFFFF) ∧ e = .outOfRange value := by
  unfold readNumber
  dsimp only
  cases hread : Text.Numeral.hex? (dropMark (Text.strip text)) with
  | none => simp [eq_comm]
  | some n =>
    by_cases hrange : 0 ≤ n ∧ n ≤ 0xFFFF
    · simp [hrange]
    · simp only [if_neg hrange]
      constructor
      · intro h
        exact Or.inr ⟨n, rfl, hrange, (Except.error.inj h).symm⟩
      · rintro (⟨hnone, -⟩ | ⟨value, hvalue, -, rfl⟩)
        · cases hnone
        · rw [Option.some.inj hvalue]

/-- The texts that are written plainly are those that are read and have nothing but digits behind
the mark. -/
theorem writtenPlainly_iff {value : Int} :
    WrittenPlainly text value ↔ readNumber text = .ok value ∧
      ∀ c ∈ dropMark (Text.strip text), c ∈ Hex.eitherCase := by
  rw [readNumber_eq_ok_iff]
  constructor
  · rintro ⟨mark, hmark, digits, n, htext, hspells, hle, rfl⟩
    have hall := (Hex.exists_spells_iff.mp ⟨n, hspells⟩).2
    rw [htext, dropMark_append hmark hall]
    exact ⟨⟨(Text.Numeral.hex?_eq_some_iff_spells hall).mpr ⟨n, hspells, rfl⟩, by omega, by omega⟩,
      hall⟩
  · rintro ⟨⟨hread, -, hle⟩, hall⟩
    obtain ⟨n, hspells, rfl⟩ := (Text.Numeral.hex?_eq_some_iff_spells hall).mp hread
    obtain ⟨mark, hmark, htext⟩ := exists_mark (Text.strip text)
    exact ⟨mark, hmark, _, n, htext, hspells, by omega, rfl⟩

end Number

/-- What is read as an address is, behind at most one mark, a numeral of base sixteen that is no
less than zero and fits sixteen bits; any other text is refused, as no number or as out of range.
Texts that are written plainly are read as meant, and all others that are read have a character
behind the mark which is no digit. -/
theorem readAddress_exact (text : String) (value : Int) :
    let behind := dropMark (Text.strip text.toList)
    let numeral := Text.Numeral.Written (behind.map Text.Numeral.plainChar)
    (readAddress text = .ok value ↔ numeral value ∧ 0 ≤ value ∧ value ≤ 0xFFFF) ∧
    (readAddress text = .error (.outOfRange value) ↔
      numeral value ∧ ¬ (0 ≤ value ∧ value ≤ 0xFFFF)) ∧
    (readAddress text = .error (.notANumber (String.ofList behind)) ↔ ∀ v, ¬ numeral v) ∧
    (WrittenPlainly text.toList value ↔
      readAddress text = .ok value ∧ ∀ c ∈ behind, c ∈ Hex.eitherCase) := by
  intro behind numeral
  have hnumeral : ∀ v, Text.Numeral.hex? behind = some v ↔ numeral v := fun v =>
    Text.Numeral.hex?_eq_some_iff
  refine ⟨?_, ?_, ?_, writtenPlainly_iff⟩
  · rw [readAddress, readNumber_eq_ok_iff, hnumeral]
  · rw [readAddress, readNumber_eq_error_iff]
    simp [← hnumeral, behind]
  · rw [readAddress, readNumber_eq_error_iff]
    simp [← hnumeral, behind, Option.eq_none_iff_forall_ne_some]

/-- Two marks are read as if there were one. -/
theorem readAddress_two_marks : readAddress "0x0x10" = .ok 16 ∧
    ¬ ∃ value, WrittenPlainly "0x0x10".toList value := by
  refine ⟨by decide, ?_⟩
  rintro ⟨value, hplain⟩
  exact absurd ((writtenPlainly_iff.mp hplain).2 'x' (by decide)) (by decide)

end LineMonitor.Settings
