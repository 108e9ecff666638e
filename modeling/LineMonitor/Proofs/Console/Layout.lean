import LineMonitor.Proofs.Console.Escape
import Mathlib.Logic.Relation

/-!
# The layout of a line

The case of letters, the comment, and characters that the console passes over are the layout of a
line (`Relaid`).  To the console two lines that differ in their layout alone are akin: they are both
blank or not, both hold Escape at the same place, and have the same mnemonic and the same operand
(`Relaid.akin`).  The heart of it is a character put into a line at a place where it is passed over
(`akin_insert`), which the carriage returns at the end of a line are as well
(`akin_trimReturns`).
-/

namespace LineMonitor

namespace Text

theorem takeWhile_append_of_mem {x : Char} {front : List Char} (h : x ∈ front)
    (back : List Char) : (front ++ back).takeWhile (· != x) = front.takeWhile (· != x) := by
  induction front with
  | nil => cases h
  | cons c front ih =>
    by_cases hc : c = x
    · simp [hc]
    · have hfront : x ∈ front := (List.mem_cons.mp h).resolve_left (Ne.symm hc)
      simp [hc, ih hfront]

theorem takeWhile_append_of_notMem {x : Char} {front : List Char} (h : x ∉ front)
    (back : List Char) : (front ++ back).takeWhile (· != x) = front ++ back.takeWhile (· != x) :=
  List.takeWhile_append_of_pos fun _ hc => bne_iff_ne.mpr fun heq => h (heq ▸ hc)

theorem takeWhile_of_notMem {x : Char} {text : List Char} (h : x ∉ text) :
    text.takeWhile (· != x) = text := by
  have hwhole := takeWhile_append_of_notMem h []
  rwa [List.append_nil, List.takeWhile_nil, List.append_nil] at hwhole

/-- A line is what it is without the carriage returns at its end, and these. -/
theorem eq_trimReturns_append (line : List Char) :
    ∃ count, line = trimReturns line ++ List.replicate count '\r' := by
  have hreturns : ∀ c ∈ line.reverse.takeWhile (· == '\r'), c = '\r' := fun c hc =>
    eq_of_beq (List.all_eq_true.mp List.all_takeWhile c hc)
  refine ⟨(line.reverse.takeWhile (· == '\r')).length, ?_⟩
  rw [trimReturns, ← List.reverse_replicate, ← List.eq_replicate_of_mem hreturns,
    ← List.reverse_append, List.takeWhile_append_dropWhile, List.reverse_reverse]

/-- Letters of ASCII that differ in their case have the same upper-case form. -/
theorem upperChar_congr {c d : Char} (h : c.toUpper = d.toUpper) : upperChar c = upperChar d := by
  have hrange : ∀ c : Char, c.toUpper.toNat < 0x80 ↔ c.toNat < 0x80 := by
    intro c
    by_cases hsmall : 97 ≤ c.toNat ∧ c.toNat ≤ 122
    · have hupper := toNat_toUpper_of_small hsmall
      omega
    · rw [toUpper_of_not_small hsmall]
  have hself : ∀ c : Char, ¬ c.toNat < 0x80 → c.toUpper = c := fun c hc =>
    toUpper_of_not_small (by omega)
  by_cases hc : c.toNat < 0x80
  · have hd : d.toNat < 0x80 := by rwa [← hrange, ← h, hrange]
    rw [upperChar_of_ascii hc, upperChar_of_ascii hd, h]
  · have hd : ¬ d.toNat < 0x80 := by rwa [← hrange, ← h, hrange]
    rw [← hself c hc, h, hself d hd]

end Text

namespace Console

/-! ## A character that is passed over -/

/-- Behind this much of a line in upper case a character is passed over: it is not Escape, no letter
as long as letters are wanted, and no character of operands when they are all there. -/
structure Passes (wanted : Nat) (front : List Char) (x : Char) : Prop where
  ne_escape : x ≠ '\x1b'
  not_letter : (front.filter isLetter).length < wanted → isLetter x = false
  strange : wanted ≤ (front.filter isLetter).length → x ∉ Operand.alphabet

theorem Passes.of_cons {wanted : Nat} {c x : Char} {front : List Char}
    (h : Passes (wanted + 1) (c :: front) x) :
    Passes (if isLetter c then wanted else wanted + 1) front x := by
  obtain ⟨hescape, hletter, hstrange⟩ := h
  by_cases hc : isLetter c = true
  · rw [List.filter_cons_of_pos hc, List.length_cons] at hletter hstrange
    rw [if_pos hc]
    exact ⟨hescape, fun hfew => hletter (Nat.succ_lt_succ hfew),
      fun hall => hstrange (Nat.succ_le_succ hall)⟩
  · rw [List.filter_cons_of_neg hc] at hletter hstrange
    rw [if_neg hc]
    exact ⟨hescape, hletter, hstrange⟩

theorem behindLetters_cons (wanted : Nat) (c : Char) (rest : List Char) :
    behindLetters (wanted + 1) (c :: rest) =
      behindLetters (if isLetter c then wanted else wanted + 1) rest := by
  rw [behindLetters, ← apply_ite fun wanted => behindLetters wanted rest]

section Insert

variable {wanted : Nat} {front : List Char} {x : Char} (h : Passes wanted front x)
  (back : List Char)

include h

/-- Such a character is not counted among the first letters, -/
theorem letters_insert : ((front ++ x :: back).filter isLetter).take wanted =
    ((front ++ back).filter isLetter).take wanted := by
  rw [List.filter_append, List.filter_append]
  rcases Nat.lt_or_ge (front.filter isLetter).length wanted with hfew | hall
  · rw [List.filter_cons_of_neg (by simp [h.not_letter hfew])]
  · rw [List.take_append_of_le_length hall, List.take_append_of_le_length hall]

/-- it does not stand in the way of Escape, -/
theorem splitLetters?_insert : splitLetters? ['\x1b'] wanted (front ++ x :: back) = none ↔
    splitLetters? ['\x1b'] wanted (front ++ back) = none := by
  induction front generalizing wanted with
  | nil =>
    cases wanted with
    | zero => simp [splitLetters?]
    | succ wanted =>
      have hletter : isLetter x = false := h.not_letter (Nat.zero_lt_succ wanted)
      rw [List.nil_append, List.nil_append, splitLetters?_cons_eq_none_iff h.ne_escape, hletter]
      rfl
  | cons c front ih =>
    cases wanted with
    | zero => simp [splitLetters?]
    | succ wanted =>
      by_cases hc : c = '\x1b'
      · simp [splitLetters?, hc]
      · rw [List.cons_append, List.cons_append, splitLetters?_cons_eq_none_iff hc,
          splitLetters?_cons_eq_none_iff hc]
        exact ih h.of_cons

/-- and it is no part of the operand. -/
theorem operand_insert :
    (behindLetters wanted (front ++ x :: back)).filter Operand.alphabet.contains =
      (behindLetters wanted (front ++ back)).filter Operand.alphabet.contains := by
  induction front generalizing wanted with
  | nil =>
    cases wanted with
    | zero =>
      have hstrange : x ∉ Operand.alphabet := h.strange (Nat.zero_le _)
      simp [behindLetters, hstrange]
    | succ wanted =>
      have hletter : isLetter x = false := h.not_letter (Nat.zero_lt_succ wanted)
      rw [List.nil_append, List.nil_append, behindLetters_cons, hletter]
      rfl
  | cons c front ih =>
    cases wanted with
    | zero =>
      have hstrange : x ∉ Operand.alphabet := h.strange (Nat.zero_le _)
      simp [behindLetters, hstrange, List.filter_cons]
    | succ wanted =>
      rw [List.cons_append, List.cons_append, behindLetters_cons, behindLetters_cons]
      exact ih h.of_cons

end Insert

/-! ## Lines that are the same to the console -/

/-- What the console makes of two lines is the same. -/
structure Akin (line other : List Char) : Prop where
  blank_iff : IsBlankLine line ↔ IsBlankLine other
  escape_iff : HasEscape line ↔ HasEscape other
  early_iff : EscapesEarly line ↔ EscapesEarly other
  mnemonic_eq : mnemonicText line = mnemonicText other
  operand_eq : operandText line = operandText other

namespace Akin

variable {line other third : List Char}

/-- Lines with the same text before the comment are akin. -/
theorem of_uncommented_eq (h : uncommented line = uncommented other) : Akin line other where
  blank_iff := by rw [IsBlankLine, IsBlankLine, h]
  escape_iff := by
    rw [HasEscape, HasEscape, ← escape_mem_uncommented_iff, ← escape_mem_uncommented_iff, h]
  early_iff := by rw [EscapesEarly, EscapesEarly, h]
  mnemonic_eq := by rw [mnemonicText, mnemonicText, h]
  operand_eq := by rw [operandText, operandText, h]

theorem refl (line : List Char) : Akin line line :=
  .of_uncommented_eq rfl

theorem symm (h : Akin line other) : Akin other line :=
  ⟨h.blank_iff.symm, h.escape_iff.symm, h.early_iff.symm, h.mnemonic_eq.symm, h.operand_eq.symm⟩

theorem trans (h : Akin line other) (h' : Akin other third) : Akin line third :=
  ⟨h.blank_iff.trans h'.blank_iff, h.escape_iff.trans h'.escape_iff,
    h.early_iff.trans h'.early_iff, h.mnemonic_eq.trans h'.mnemonic_eq,
    h.operand_eq.trans h'.operand_eq⟩

theorem equivalence : Equivalence Akin :=
  ⟨refl, symm, trans⟩

/-- After which lines the run stops is the same. -/
theorem stops_iff (h : Akin line other) : Stops line ↔ Stops other := by
  rw [Stops, Stops, h.escape_iff, h.early_iff, asksOperand_iff, asksOperand_iff, h.mnemonic_eq]

end Akin

/-! ## Putting a character in -/

theorem uncommented_append_of_mem {front : List Char} (h : ';' ∈ front) (back : List Char) :
    uncommented (front ++ back) = uncommented front := by
  rw [uncommented, Text.takeWhile_append_of_mem h, uncommented]

theorem uncommented_append_of_notMem {front : List Char} (h : ';' ∉ front) (back : List Char) :
    uncommented (front ++ back) = uncommented front ++ uncommented back := by
  rw [uncommented, Text.takeWhile_append_of_notMem h, Text.upper_append, uncommented, uncommented,
    Text.takeWhile_of_notMem h]

theorem uncommented_cons {c : Char} (hsemicolon : c ≠ ';') (rest : List Char) :
    uncommented (c :: rest) = Text.upperChar c ++ uncommented rest := by
  have htaken : (c :: rest).takeWhile (· != ';') = c :: rest.takeWhile (· != ';') :=
    List.takeWhile_cons_of_pos (bne_iff_ne.mpr hsemicolon)
  rw [uncommented, htaken, Text.upper_cons, uncommented]

/-- A character of ASCII that is passed over, and that does not fill an empty line, makes no
difference. -/
theorem akin_insert (front back : List Char) {c : Char} (hascii : c.toNat < 0x80)
    (hsemicolon : c ≠ ';') (hpasses : Passes mnemonicLength (uncommented front) c.toUpper)
    (hfilled : Text.isBlank c.toUpper = true ∨ ¬ IsBlankLine (front ++ back)) :
    Akin (front ++ back) (front ++ c :: back) := by
  by_cases hcomment : ';' ∈ front
  · refine .of_uncommented_eq ?_
    rw [uncommented_append_of_mem hcomment, uncommented_append_of_mem hcomment]
  have hline : uncommented (front ++ back) = uncommented front ++ uncommented back :=
    uncommented_append_of_notMem hcomment back
  have hother : uncommented (front ++ c :: back) =
      uncommented front ++ c.toUpper :: uncommented back := by
    rw [uncommented_append_of_notMem hcomment, uncommented_cons hsemicolon,
      Text.upperChar_of_ascii hascii, List.singleton_append]
  constructor
  · rw [IsBlankLine, hline] at hfilled
    rw [IsBlankLine, IsBlankLine, hline, hother, List.all_append, List.all_append, List.all_cons]
    rcases hfilled with hblank | hfilled
    · rw [hblank, Bool.true_and]
    · rw [List.all_append] at hfilled
      refine iff_of_false hfilled fun hblank => hfilled ?_
      simp only [Bool.and_eq_true] at hblank ⊢
      exact ⟨hblank.1, hblank.2.2⟩
  · rw [HasEscape, HasEscape, ← escape_mem_uncommented_iff, ← escape_mem_uncommented_iff, hline,
      hother]
    simp [hpasses.ne_escape.symm]
  · rw [← splitLetters?_eq_none_iff_early, ← splitLetters?_eq_none_iff_early, hline, hother]
    exact (splitLetters?_insert hpasses _).symm
  · rw [mnemonicText, mnemonicText, hline, hother]
    exact (letters_insert hpasses _).symm
  · rw [operandText, operandText, hline, hother]
    exact (operand_insert hpasses _).symm

/-- The carriage returns at the end of a line make no difference. -/
theorem akin_trimReturns (line : List Char) : Akin (Text.trimReturns line) line := by
  have hreturn : ∀ front, Passes mnemonicLength front '\r' := fun front =>
    ⟨by decide, fun _ => by decide, fun _ => by decide⟩
  have happend : ∀ (front : List Char) (count : Nat),
      Akin front (front ++ List.replicate count '\r') := by
    intro front count
    induction count with
    | zero => rw [List.replicate_zero, List.append_nil]; exact .refl front
    | succ count ih =>
      have hlast := akin_insert (front ++ List.replicate count '\r') [] (c := '\r') (by decide)
        (by decide) (hreturn _) (Or.inl (by decide))
      rw [List.append_nil, List.append_assoc, ← List.replicate_succ'] at hlast
      exact ih.trans hlast
  obtain ⟨count, hline⟩ := Text.eq_trimReturns_append line
  have htrimmed := happend (Text.trimReturns line) count
  rwa [← hline] at htrimmed

/-! ## Layout -/

/-- The letters of a line that stand before its comment and before any Escape, as the console counts
them: in upper case, so that a ligature counts for all letters that it becomes. -/
def lettersAhead (line : List Char) : List Char :=
  ((uncommented line).takeWhile (· != '\x1b')).filter isLetter

/-- The line with one change of its layout. -/
inductive Relaid : List Char → List Char → Prop where
  /-- A letter of ASCII may be small or a capital. -/
  | letterCase (front back : List Char) {c d : Char} (h : c.toUpper = d.toUpper) :
      Relaid (front ++ c :: back) (front ++ d :: back)
  /-- Behind the same text any comment may stand, or none. -/
  | comment {line other : List Char}
      (h : line.takeWhile (· != ';') = other.takeWhile (· != ';')) : Relaid line other
  /-- If the mnemonic is complete before any Escape, a character of ASCII that is no letter may
  stand in front of its last letter, -/
  | padding (front back : List Char) {c : Char} (hascii : c.toNat < 0x80)
      (hsemicolon : c ≠ ';') (hescape : c ≠ '\x1b')
      (hcomplete : mnemonicLength ≤ (lettersAhead (front ++ back)).length)
      (hplace : (lettersAhead front).length < mnemonicLength)
      (hletter : isLetter c.toUpper = false) :
      Relaid (front ++ back) (front ++ c :: back)
  /-- and behind it one that is no character of operands in upper case. -/
  | junk (front back : List Char) {c : Char} (hascii : c.toNat < 0x80)
      (hsemicolon : c ≠ ';') (hescape : c ≠ '\x1b')
      (hplace : mnemonicLength ≤ (lettersAhead front).length)
      (hstrange : c.toUpper ∉ Operand.alphabet) :
      Relaid (front ++ back) (front ++ c :: back)

/-- Upper-casing makes no Escape. -/
theorem toUpper_ne_escape {c : Char} (hascii : c.toNat < 0x80) (h : c ≠ '\x1b') :
    c.toUpper ≠ '\x1b' := by
  intro hupper
  have hmem : '\x1b' ∈ Text.upperChar c := by
    rw [Text.upperChar_of_ascii hascii, hupper]
    exact List.mem_singleton_self _
  exact h ((Text.mem_upperChar_iff (by decide)).mp hmem).symm

/-- The letters before any Escape are among all letters. -/
theorem length_lettersAhead_le (line : List Char) :
    (lettersAhead line).length ≤ ((uncommented line).filter isLetter).length :=
  ((List.takeWhile_sublist _).filter _).length_le

/-- A line with a letter is not blank. -/
theorem not_isBlankLine_of_lettersAhead {line : List Char} (h : 0 < (lettersAhead line).length) :
    ¬ IsBlankLine line := by
  intro hblank
  obtain ⟨c, hc⟩ := List.exists_mem_of_length_pos (h.trans_le (length_lettersAhead_le line))
  obtain ⟨hmem, hletter⟩ := List.mem_filter.mp hc
  have hclear := not_isBlank_of_isLetter hletter
  rw [List.all_eq_true.mp hblank c hmem] at hclear
  cases hclear

/-- Behind a comment or Escape in the front of a line no letters are added; otherwise all letters
of the front are there, and those behind it are added. -/
theorem lettersAhead_append (front back : List Char) :
    lettersAhead (front ++ back) = lettersAhead front ∨
      lettersAhead front = (uncommented front).filter isLetter ∧
        lettersAhead (front ++ back) = lettersAhead front ++ lettersAhead back := by
  by_cases hsemicolon : ';' ∈ front
  · left
    rw [lettersAhead, lettersAhead, uncommented_append_of_mem hsemicolon]
  have hline := uncommented_append_of_notMem hsemicolon back
  by_cases hescape : '\x1b' ∈ uncommented front
  · left
    rw [lettersAhead, lettersAhead, hline, Text.takeWhile_append_of_mem hescape]
  · right
    rw [lettersAhead, lettersAhead, hline, Text.takeWhile_append_of_notMem hescape,
      Text.takeWhile_of_notMem hescape, List.filter_append, lettersAhead]
    exact ⟨rfl, rfl⟩

/-- The case of a letter does not show in upper case. -/
theorem uncommented_letterCase (front back : List Char) {c d : Char}
    (h : c.toUpper = d.toUpper) :
    uncommented (front ++ c :: back) = uncommented (front ++ d :: back) := by
  have hupper := Text.upperChar_congr h
  have hsemicolon : c = ';' ↔ d = ';' := by
    rw [eq_comm, ← Text.mem_upperChar_iff (by decide), hupper,
      Text.mem_upperChar_iff (by decide), eq_comm]
  by_cases hcomment : ';' ∈ front
  · rw [uncommented_append_of_mem hcomment, uncommented_append_of_mem hcomment]
  rw [uncommented_append_of_notMem hcomment, uncommented_append_of_notMem hcomment]
  by_cases hc : c = ';'
  · rw [hc, hsemicolon.mp hc]
  · rw [uncommented_cons hc, uncommented_cons (mt hsemicolon.mpr hc), hupper]

/-- Lines between which there is a change of layout are akin. -/
theorem Relaid.akin {line other : List Char} (h : Relaid line other) : Akin line other := by
  cases h with
  | letterCase front back h => exact .of_uncommented_eq (uncommented_letterCase front back h)
  | comment h =>
    refine .of_uncommented_eq ?_
    rw [uncommented, uncommented, h]
  | padding front back hascii hsemicolon hescape hcomplete hplace hletter =>
    have hmore := hplace.trans_le hcomplete
    refine akin_insert front back hascii hsemicolon ⟨toUpper_ne_escape hascii hescape, ?_, ?_⟩
      (Or.inr (not_isBlankLine_of_lettersAhead (Nat.zero_lt_of_lt hmore)))
    · exact fun _ => hletter
    · -- as there are further letters, the front has no more than those ahead
      have hall : lettersAhead front = (uncommented front).filter isLetter := by
        rcases lettersAhead_append front back with hsame | ⟨hall, -⟩
        · rw [hsame] at hmore
          exact absurd hmore (Nat.lt_irrefl _)
        · exact hall
      rw [hall] at hplace
      exact fun hcount => absurd hplace (Nat.not_lt_of_le hcount)
  | junk front back hascii hsemicolon hescape hplace hstrange =>
    have hall := hplace.trans (length_lettersAhead_le front)
    have hletter : 0 < (lettersAhead (front ++ back)).length := by
      have hfront : 0 < (lettersAhead front).length := Nat.lt_of_lt_of_le (by decide) hplace
      rcases lettersAhead_append front back with hsame | ⟨-, hmore⟩
      · rwa [hsame]
      · rw [hmore, List.length_append]
        exact Nat.add_pos_left hfront _
    refine akin_insert front back hascii hsemicolon ⟨toUpper_ne_escape hascii hescape, ?_, ?_⟩
      (Or.inr (not_isBlankLine_of_lettersAhead hletter))
    · exact fun hfew => absurd hall (Nat.not_le_of_lt hfew)
    · exact fun _ => hstrange

/-- Lines between which there are any number of changes of layout are akin. -/
theorem akin_of_eqvGen {line other : List Char} (h : Relation.EqvGen Relaid line other) :
    Akin line other := by
  rw [← Akin.equivalence.eqvGen_iff]
  exact h.mono fun _ _ hrelaid => hrelaid.akin

end Console

end LineMonitor
