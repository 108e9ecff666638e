import LineMonitor.Proofs.Text.Digits
import LineMonitor.Proofs.Text.UpperCase
import Mathlib.Data.List.Basic

/-!
# Hexadecimal digits of either case

A text spells a number if it is a row of hexadecimal digits, capitals or not (`Hex.Spells`); its
characters are those of `Hex.eitherCase` (`Hex.exists_spells_iff`).  Upper-casing makes a row of
digits of such texts, and of no others but those with the ligature `ﬀ`, which becomes two digits
(`Text.upper_eq_write_iff`).  A second upper-casing adds nothing (`Text.upper_upper_eq_write_iff`).
-/

namespace LineMonitor

namespace Hex

/-- The text is a row of one or more digits of either case, which stand for the number. -/
def Spells (text : List Char) (value : Nat) : Prop :=
  value? (text.map Char.toUpper) = some value

instance (text : List Char) (value : Nat) : Decidable (Spells text value) :=
  inferInstanceAs (Decidable (_ = _))

/-- The digits of either case. -/
def eitherCase : List Char :=
  "0123456789ABCDEFabcdef".toList

/-- A digit is a character of ASCII and its own capital. -/
theorem toUpper_digit (d : Fin 16) : (digit d).toNat < 0x80 ∧ (digit d).toUpper = digit d := by
  revert d
  decide

theorem isDigit_iff {c : Char} : isDigit c = true ↔ ∃ d : Fin 16, digit d = c := by
  rw [isDigit, Option.isSome_iff_exists]
  constructor
  · rintro ⟨n, hn⟩
    obtain ⟨d, hd, -⟩ := digitValue?_eq_some_iff.mp hn
    exact ⟨d, hd⟩
  · rintro ⟨d, hd⟩
    exact ⟨d, digitValue?_eq_some_iff.mpr ⟨d, hd, rfl⟩⟩

theorem isDigit_of_mem_write {ds : List (Fin 16)} {c : Char} (h : c ∈ write ds) :
    isDigit c = true := by
  obtain ⟨d, -, hd⟩ := List.mem_map.mp h
  exact isDigit_iff.mpr ⟨d, hd⟩

/-- The characters that become a digit are the digits of either case. -/
theorem mem_eitherCase_iff {c : Char} : c ∈ eitherCase ↔ ∃ d : Fin 16, digit d = c.toUpper := by
  have hall : (eitherCase.all fun c => isDigit c.toUpper) = true := by decide
  constructor
  · intro hc
    exact isDigit_iff.mp (List.all_eq_true.mp hall c hc)
  · rintro ⟨d, hd⟩
    by_cases hsmall : 97 ≤ c.toNat ∧ c.toNat ≤ 122
    · have hcapital := Text.toNat_toUpper_of_small hsmall
      have hc : Char.ofNat ((digit d).toNat + 32) = c := by rw [hd, hcapital, Char.ofNat_toNat]
      rw [← hd] at hcapital
      rw [← hc]
      have hlow : 97 ≤ (digit d).toNat + 32 := by omega
      clear hc hcapital hd
      revert d
      decide
    · rw [Text.toUpper_of_not_small hsmall] at hd
      rw [← hd]
      clear hd
      revert d
      decide

theorem spells_iff {text : List Char} {value : Nat} :
    Spells text value ↔ ∃ ds, ds ≠ [] ∧ text.map Char.toUpper = write ds ∧ value = number ds :=
  value?_eq_some_iff

/-- What spells a number is made of digits of either case, and whatever is made of them spells a
number. -/
theorem exists_spells_iff {text : List Char} :
    (∃ value, Spells text value) ↔ text ≠ [] ∧ ∀ c ∈ text, c ∈ eitherCase := by
  have hvalue : (∃ value, Spells text value) ↔ text.map Char.toUpper ≠ [] ∧
      ∀ c ∈ text.map Char.toUpper, ∃ d : Fin 16, digit d = c := exists_value?_iff
  rw [hvalue, List.forall_mem_map, ne_eq, List.map_eq_nil_iff]
  simp only [mem_eitherCase_iff, ne_eq]

end Hex

namespace Text

/-! ## What becomes digits -/

/-- The letter that stands for two of the letters `f`. -/
def ligature : Char := 'ﬀ'

/-- The letters that a character stands for: two for the ligature, itself for every other. -/
def spreadChar (c : Char) : List Char :=
  if c = ligature then ['f', 'f'] else [c]

/-- The text with two letters in the place of each ligature. -/
def spread (text : List Char) : List Char :=
  text.flatMap spreadChar

theorem spread_eq_self {text : List Char} (h : ligature ∉ text) : spread text = text := by
  induction text with
  | nil => rfl
  | cons c rest ih =>
    rw [List.mem_cons, not_or] at h
    rw [spread, List.flatMap_cons, ← spread, ih h.2, spreadChar, if_neg (Ne.symm h.1),
      List.singleton_append]

set_option maxRecDepth 2000 in
/-- No capital of a run is a digit, a small letter or the ligature. -/
theorem misses_letters : ∀ r ∈ capitalRuns,
    r.Misses 65 70 ∧ r.Misses 97 122 ∧ r.Misses ligature.toNat ligature.toNat := by
  decide

/-- Of the capitals in several characters only those of the ligature are digits. -/
theorem wideCapitals_digits : ∀ e ∈ wideCapitals,
    e = (ligature.toNat, [70, 70]) ∨
      e.1 ≠ ligature.toNat ∧ ∃ n ∈ e.2, Hex.isDigit (Char.ofNat n) = false := by
  decide

/-- The capital that a run gives is neither a digit nor a small letter nor the ligature. -/
theorem capital_misses {r : CapitalRun} (hr : r ∈ capitalRuns) {n capital : Nat}
    (h : r.capital? n = some capital) : Hex.isDigit (Char.ofNat capital) = false ∧
      ¬ (97 ≤ (Char.ofNat capital).toNat ∧ (Char.ofNat capital).toNat ≤ 122) ∧
      Char.ofNat capital ≠ ligature := by
  have hlow := le_target r hr
  obtain ⟨hvalue, hbounds⟩ := toNat_capital hr h
  obtain ⟨hdigits, hsmall, hligature⟩ := misses_letters r hr
  unfold CapitalRun.Misses at hdigits hsmall hligature
  refine ⟨?_, by omega, ?_⟩
  · rw [Bool.eq_false_iff]
    intro hdigit
    obtain ⟨d, hd⟩ := Hex.isDigit_iff.mp hdigit
    have hhigh : (Hex.digit d).toNat ≤ 70 := by
      clear hd
      revert d
      decide
    rw [hd, hvalue] at hhigh
    omega
  · intro hc
    rw [hc] at hvalue
    omega

/-- Beyond ASCII only the ligature becomes digits. -/
theorem upperWide_digits {c : Char} (hc : 0x80 ≤ c.toNat)
    (h : ∀ x ∈ upperWide c, Hex.isDigit x = true) : c = ligature := by
  have hwide := wideUpper_upperWide c
  generalize upperWide c = capitals at h hwide
  cases hwide with
  | several hmem =>
    rcases wideCapitals_digits _ hmem with heq | ⟨-, n, hn, hstrange⟩
    · rw [← Char.ofNat_toNat c, (Prod.mk.inj heq).1, Char.ofNat_toNat]
    · rw [h _ (List.mem_map_of_mem hn)] at hstrange
      cases hstrange
  | single hnone hr hcapital =>
    have hdigit := h _ (List.mem_singleton_self _)
    rw [(capital_misses hr hcapital).1] at hdigit
    cases hdigit
  | same hnone =>
    obtain ⟨d, hd⟩ := Hex.isDigit_iff.mp (h c (List.mem_singleton_self c))
    have hascii := (Hex.toUpper_digit d).1
    rw [hd] at hascii
    omega

/-- A character that becomes digits becomes the capitals of the letters that it stands for. -/
theorem upperChar_eq_map {c : Char}
    (h : (∀ x ∈ upperChar c, Hex.isDigit x = true) ∨
      ∀ x ∈ (spreadChar c).map Char.toUpper, Hex.isDigit x = true) :
    upperChar c = (spreadChar c).map Char.toUpper := by
  by_cases hc : c = ligature
  · rw [hc]
    decide
  rw [spreadChar, if_neg hc] at h ⊢
  by_cases hascii : c.toNat < 0x80
  · rw [upperChar_of_ascii hascii, List.map_singleton]
  -- beyond ASCII a character that is its own capital is no digit
  have hself : c.toUpper = c := toUpper_of_not_small (by omega)
  rw [upperChar, if_neg hascii, List.map_singleton, hself] at h
  rcases h with hwide | hsingle
  · exact absurd (upperWide_digits (by omega) hwide) hc
  · obtain ⟨d, hd⟩ := Hex.isDigit_iff.mp (hsingle c (List.mem_singleton_self c))
    have hlow := (Hex.toUpper_digit d).1
    rw [hd] at hlow
    exact absurd hlow hascii

/-- The texts that become a row of digits are the rows of digits of either case, with the ligature
counted as two letters. -/
theorem upper_eq_write_iff {text : List Char} {ds : List (Fin 16)} :
    upper text = Hex.write ds ↔ (spread text).map Char.toUpper = Hex.write ds := by
  rw [upper, spread, List.map_flatMap]
  constructor
  · intro h
    rw [← h]
    refine (List.flatMap_congr fun c hc => upperChar_eq_map (Or.inl fun x hx => ?_)).symm
    have hmem : x ∈ text.flatMap upperChar := List.mem_flatMap.mpr ⟨c, hc, hx⟩
    rw [h] at hmem
    exact Hex.isDigit_of_mem_write hmem
  · intro h
    rw [← h]
    refine List.flatMap_congr fun c hc => upperChar_eq_map (Or.inr fun x hx => ?_)
    have hmem : x ∈ text.flatMap fun c => (spreadChar c).map Char.toUpper :=
      List.mem_flatMap.mpr ⟨c, hc, hx⟩
    rw [h] at hmem
    exact Hex.isDigit_of_mem_write hmem

/-! ## Upper-casing twice -/

/-- Neither small letters nor the ligature are capitals. -/
theorem wideCapitals_miss : ∀ e ∈ wideCapitals, ∀ n ∈ e.2,
    ¬ (97 ≤ (Char.ofNat n).toNat ∧ (Char.ofNat n).toNat ≤ 122) ∧ Char.ofNat n ≠ ligature := by
  decide

/-- Upper-casing leaves no small letter and no ligature. -/
theorem misses_of_mem_upperChar {c x : Char} (h : x ∈ upperChar c) :
    ¬ (97 ≤ x.toNat ∧ x.toNat ≤ 122) ∧ x ≠ ligature := by
  unfold upperChar at h
  split at h
  · rename_i hascii
    rw [List.mem_singleton.mp h]
    have hbound : ¬ (97 ≤ c.toUpper.toNat ∧ c.toUpper.toNat ≤ 122) ∧ c.toUpper.toNat < 0x80 := by
      by_cases hsmall : 97 ≤ c.toNat ∧ c.toNat ≤ 122
      · have hcapital := toNat_toUpper_of_small hsmall
        omega
      · rw [toUpper_of_not_small hsmall]
        exact ⟨hsmall, hascii⟩
    refine ⟨hbound.1, fun hc => ?_⟩
    rw [hc] at hbound
    exact absurd hbound.2 (by decide)
  · have hwide := wideUpper_upperWide c
    generalize upperWide c = capitals at h hwide
    cases hwide with
    | several hmem =>
      obtain ⟨n, hn, rfl⟩ := List.mem_map.mp h
      exact wideCapitals_miss _ hmem n hn
    | single hnone hr hcapital =>
      rw [List.mem_singleton.mp h]
      exact (capital_misses hr hcapital).2
    | same hnone =>
      rw [List.mem_singleton.mp h]
      refine ⟨by omega, fun hc => ?_⟩
      rw [hc] at hnone
      exact absurd hnone (by decide)

theorem upper_write (ds : List (Fin 16)) : upper (Hex.write ds) = Hex.write ds := by
  refine upper_eq_self fun c hc => ?_
  obtain ⟨d, hd⟩ := Hex.isDigit_iff.mp (Hex.isDigit_of_mem_write hc)
  rw [← hd]
  exact Hex.toUpper_digit d

/-- A character in upper case that becomes digits is one. -/
theorem upperChar_of_mem_upperChar {c x : Char} (hx : x ∈ upperChar c)
    (h : ∀ y ∈ upperChar x, Hex.isDigit y = true) : upperChar x = [x] := by
  obtain ⟨hsmall, hligature⟩ := misses_of_mem_upperChar hx
  rw [upperChar_eq_map (Or.inl h), spreadChar, if_neg hligature, List.map_singleton,
    toUpper_of_not_small hsmall]

/-- What becomes a row of digits when it is upper-cased twice becomes one at once. -/
theorem upper_upper_eq_write_iff {text : List Char} {ds : List (Fin 16)} :
    upper (upper text) = Hex.write ds ↔ upper text = Hex.write ds := by
  constructor
  · intro h
    have hself : upper (upper text) = (upper text).flatMap fun x => [x] := by
      refine List.flatMap_congr fun x hx => ?_
      obtain ⟨c, -, hc⟩ := List.mem_flatMap.mp hx
      refine upperChar_of_mem_upperChar hc fun y hy => ?_
      have hmem : y ∈ upper (upper text) := List.mem_flatMap.mpr ⟨x, hx, hy⟩
      rw [h] at hmem
      exact Hex.isDigit_of_mem_write hmem
    rw [← h, hself, List.flatMap_singleton']
  · intro h
    rw [h, upper_write]

end Text

end LineMonitor
