import LineMonitor.Proofs.Session.Step
import LineMonitor.Proofs.Text.EitherCase

/-!
# Addresses in commands

An address in a command is four hexadecimal digits of either case (`FourDigits`).  They are counted
once the text is in upper case, where the ligature `ﬀ` has become two digits.
`Session.starts_exact` says which texts are read as an address for this reason, and from which lines
the monitor begins to assemble.
-/

namespace LineMonitor

/-- The text is four hexadecimal digits of either case, which stand for the address. -/
def FourDigits (text : List Char) (a : Address) : Prop :=
  text.length = 4 ∧ Hex.Spells text a.toNat

instance (text : List Char) (a : Address) : Decidable (FourDigits text a) :=
  inferInstanceAs (Decidable (_ ∧ _))

/-! ## Texts that are read as an address -/

section Text

variable {text : List Char} {a : Address}

/-- What is read is in upper case a row of four digits. -/
theorem readAddress_eq_ok_iff_write : readAddress text = .ok a ↔
    ∃ ds, Text.upper (Text.strip text) = Hex.write ds ∧ ds.length = 4 ∧
      a.toNat = Hex.number ds := by
  unfold readAddress
  dsimp only
  constructor
  · intro h
    split at h
    · cases h
    · rename_i hlength
      split at h
      · rename_i value hvalue
        obtain ⟨ds, -, hds, rfl⟩ := Hex.value?_eq_some_iff.mp hvalue
        rw [hds, Hex.length_write, not_not] at hlength
        have hlt : Hex.number ds < 2 ^ 16 := by simpa [hlength] using Hex.number_lt ds
        refine ⟨ds, hds, hlength, ?_⟩
        rw [← Except.ok.inj h, BitVec.toNat_ofNat, Nat.mod_eq_of_lt hlt]
      · cases h
  · rintro ⟨ds, hds, hlength, ha⟩
    have hvalue : Hex.value? (Hex.write ds) = some a.toNat := by
      refine Hex.value?_eq_some_iff.mpr ⟨ds, ?_, rfl, ha⟩
      rintro rfl
      cases hlength
    rw [hds, if_neg (by rw [Hex.length_write, hlength]; exact not_not.mpr rfl)]
    simp only [hvalue, BitVec.ofNat_toNat, BitVec.setWidth_eq]

/-- What is read is four digits, with the ligature counted as two. -/
theorem readAddress_eq_ok_iff :
    readAddress text = .ok a ↔ FourDigits (Text.spread (Text.strip text)) a := by
  rw [readAddress_eq_ok_iff_write, FourDigits, Hex.spells_iff]
  simp only [Text.upper_eq_write_iff]
  constructor
  · rintro ⟨ds, hds, hlength, ha⟩
    have hspread := congrArg List.length hds
    rw [List.length_map, Hex.length_write, hlength] at hspread
    refine ⟨hspread, ds, ?_, hds, ha⟩
    rintro rfl
    cases hlength
  · rintro ⟨hspread, ds, -, hds, ha⟩
    have hlength := congrArg List.length hds
    rw [List.length_map, Hex.length_write, hspread] at hlength
    exact ⟨ds, hds, hlength.symm, ha⟩

/-- Every other text is refused for the same reason. -/
theorem readAddress_eq_error_iff :
    readAddress text = .error ⟨String.ofList (Text.upper (Text.strip text)), "Invalid address"⟩ ↔
      ∀ b, ¬ FourDigits (Text.spread (Text.strip text)) b := by
  simp only [← readAddress_eq_ok_iff]
  constructor
  · intro h b hb
    rw [h] at hb
    cases hb
  · intro h
    cases hread : readAddress text with
    | ok b => exact (h b hread).elim
    | error e => rw [eq_of_readAddress_eq_error hread]

/-- Four digits are read as meant, and whatever else is read has a ligature in it. -/
theorem fourDigits_strip_iff :
    FourDigits (Text.strip text) a ↔ readAddress text = .ok a ∧ Text.ligature ∉ text := by
  have hligature : Text.ligature ∉ Text.strip text ↔ Text.ligature ∉ text :=
    not_congr ⟨Text.mem_of_mem_strip, Text.mem_strip (by decide)⟩
  rw [readAddress_eq_ok_iff, ← hligature]
  constructor
  · intro h
    have hnot : Text.ligature ∉ Text.strip text := by
      intro hmem
      exact absurd ((Hex.exists_spells_iff.mp ⟨_, h.2⟩).2 _ hmem) (by decide)
    rw [Text.spread_eq_self hnot]
    exact ⟨h, hnot⟩
  · rintro ⟨h, hnot⟩
    rwa [Text.spread_eq_self hnot] at h

/-- The prompt may have put an address into upper case before. -/
theorem readAddress_strip_upper_eq_ok_iff :
    readAddress (Text.strip (Text.upper text)) = .ok a ↔ readAddress text = .ok a := by
  rw [readAddress_eq_ok_iff_write, readAddress_eq_ok_iff_write, Text.strip_strip, Text.strip_upper]
  simp only [Text.upper_upper_eq_write_iff]

end Text

/-! ## Lines typed at the prompt -/

/-- A letter that becomes an `A` in front of a row of digits is an `A` itself. -/
theorem letter_eq_of_upper {letter : Char} {behind rest : List Char} {a : Address}
    (hletter : Text.isBlank letter = false)
    (hupper : Text.upper (letter :: behind) = 'A' :: rest)
    (hread : readAddress (Text.strip rest) = .ok a) :
    (letter = 'A' ∨ letter = 'a') ∧ rest = Text.upper behind := by
  obtain ⟨x, more, hmore⟩ := List.exists_cons_of_ne_nil (Text.upperChar_ne_nil letter)
  rw [Text.upper_cons, hmore, List.cons_append] at hupper
  obtain ⟨rfl, rfl⟩ := List.cons.inj hupper
  obtain ⟨ds, hds, -, -⟩ := readAddress_eq_ok_iff_write.mp hread
  rw [Text.strip_strip] at hds
  -- whatever else the letter becomes is read as digits of the address
  have hdigits : ∀ y ∈ Text.upperChar letter, Hex.isDigit y = true := by
    intro y hy
    rw [hmore] at hy
    rcases List.mem_cons.mp hy with rfl | hy
    · decide
    · have hmem : y ∈ Text.upperChar letter := by
        rw [hmore]
        exact List.mem_cons_of_mem _ hy
      have hclear : Text.isBlank y = false := by
        rw [Bool.eq_false_iff]
        intro hblank
        rw [Text.isBlank_of_mem_upperChar hmem hblank] at hletter
        cases hletter
      have hkept : y ∈ Text.strip (more ++ Text.upper behind) :=
        Text.mem_strip hclear (List.mem_append_left _ hy)
      have hall : ∀ z ∈ Text.upperChar y, Hex.isDigit z = true := by
        intro z hz
        have hz' := List.mem_flatMap.mpr ⟨y, hkept, hz⟩
        rw [← Text.upper, hds] at hz'
        exact Hex.isDigit_of_mem_write hz'
      refine hall y ?_
      rw [Text.upperChar_of_mem_upperChar hmem hall]
      exact List.mem_singleton_self y
  have hsingle := Text.upperChar_eq_map (Or.inl hdigits)
  rw [hmore, Text.spreadChar] at hsingle
  split at hsingle
  · exact absurd (List.cons.inj hsingle).1 (by decide)
  · obtain ⟨hcapital, rfl⟩ := List.cons.inj hsingle
    refine ⟨?_, rfl⟩
    by_cases hsmall : 97 ≤ letter.toNat ∧ letter.toNat ≤ 122
    · right
      have hvalue := Text.toNat_toUpper_of_small hsmall
      rw [← hcapital] at hvalue
      rw [← Char.ofNat_toNat letter, ← hvalue]
      rfl
    · left
      rw [hcapital, Text.toUpper_of_not_small hsmall]

/-- A typed line asks to assemble from an address if an `A` of either case is the first thing on it
and all that stands between it and a comment is read as this address. -/
theorem Command.start?_typed_iff {line : List Char} {a : Address} :
    start? (String.ofList (Text.strip (Console.uncommented line))) = some a ↔
      ∃ letter behind, Text.strip (line.takeWhile (· != ';')) = letter :: behind ∧
        (letter = 'A' ∨ letter = 'a') ∧ readAddress behind = .ok a := by
  rw [start?_eq_some_iff, String.toList_ofList, Text.strip_strip, Console.uncommented,
    Text.strip_upper]
  constructor
  · rintro ⟨rest, hupper, hread⟩
    cases htyped : Text.strip (line.takeWhile (· != ';')) with
    | nil =>
      rw [htyped] at hupper
      cases hupper
    | cons letter behind =>
      rw [htyped] at hupper
      obtain ⟨hcase, rfl⟩ :=
        letter_eq_of_upper (Text.not_isBlank_of_strip_eq_cons htyped) hupper hread
      exact ⟨letter, behind, rfl, hcase, readAddress_strip_upper_eq_ok_iff.mp hread⟩
  · rintro ⟨letter, behind, htyped, hcase, hread⟩
    refine ⟨Text.upper behind, ?_, readAddress_strip_upper_eq_ok_iff.mpr hread⟩
    rw [htyped]
    rcases hcase with rfl | rfl
    · rfl
    · rfl

namespace Session

/-- The monitor begins to assemble from an address if the command at its prompt asks for it. -/
theorem exists_assembly_iff (s : Session) {a : Address} :
    (∃ S, s.step.1.assemblies = s.assemblies ++ [S] ∧ S.start = a) ↔
      ∃ text, s.command? = some text ∧ Command.start? text = some a := by
  obtain ⟨recorded, hstep⟩ := s.exists_stepping
  have hstarts := hstep.starts_eq
  rw [hstep.assemblies_eq]
  constructor
  · rintro ⟨S, hS, rfl⟩
    have hmem : S.start ∈ s.command?.toList.filterMap Command.start? := by
      rw [← hstarts, List.append_cancel_left hS]
      exact List.mem_singleton_self _
    obtain ⟨text, htext, hstart⟩ := List.mem_filterMap.mp hmem
    exact ⟨text, Option.mem_toList.mp htext, hstart⟩
  · rintro ⟨text, hcommand, hstart⟩
    have hsingle : recorded.map (·.start) = [a] := by
      rw [hstarts, hcommand]
      simp [hstart]
    obtain ⟨S, rfl, hS⟩ := List.map_eq_singleton_iff.mp hsingle
    exact ⟨S, rfl, hS⟩

/-- The texts that are read as an address are four hexadecimal digits of either case, with the
ligature `ﬀ` counted as two digits; every other text is refused.  The monitor assembles from an
address if the line at its prompt holds no Escape and is an `A` of either case with such a text
between it and the comment. -/
theorem starts_exact (s : Session) (text : List Char) (a : Address) :
    (readAddress text = .ok a ↔ FourDigits (Text.spread (Text.strip text)) a) ∧
    (readAddress text = .error ⟨String.ofList (Text.upper (Text.strip text)), "Invalid address"⟩ ↔
      ∀ b, ¬ FourDigits (Text.spread (Text.strip text)) b) ∧
    (FourDigits (Text.strip text) a ↔ readAddress text = .ok a ∧ Text.ligature ∉ text) ∧
    ((∃ S, s.step.1.assemblies = s.assemblies ++ [S] ∧ S.start = a) ↔
      ∃ line rest letter behind, s.console.unread = line :: rest ∧
        Text.occurs s.console.escape line = false ∧
        Text.strip (line.takeWhile (· != ';')) = letter :: behind ∧
        (letter = 'A' ∨ letter = 'a') ∧ FourDigits (Text.spread (Text.strip behind)) a) := by
  refine ⟨readAddress_eq_ok_iff, readAddress_eq_error_iff, fourDigits_strip_iff, ?_⟩
  rw [exists_assembly_iff, command?]
  rcases s.console.takeCommand_cases with
    ⟨hunread, hanswer, -⟩ | ⟨line, rest, hunread, -, hanswer⟩
  · rw [hunread, hanswer]
    simp
  · rw [hunread, hanswer]
    by_cases hescape : Text.occurs s.console.escape line = true
    · rw [if_pos hescape]
      refine iff_of_false (by simp) ?_
      rintro ⟨line', rest', letter, behind, hline, hnone, -⟩
      rw [← (List.cons.inj hline).1, hescape] at hnone
      cases hnone
    · rw [if_neg hescape]
      constructor
      · rintro ⟨text, htext, hstart⟩
        rw [← Option.some.inj htext, Command.start?_typed_iff] at hstart
        obtain ⟨letter, behind, htyped, hletter, hread⟩ := hstart
        exact ⟨line, rest, letter, behind, rfl, Bool.eq_false_iff.mpr hescape, htyped, hletter,
          readAddress_eq_ok_iff.mp hread⟩
      · rintro ⟨line', rest', letter, behind, hline, -, htyped, hletter, hdigits⟩
        obtain ⟨rfl, -⟩ := List.cons.inj hline
        exact ⟨_, rfl, Command.start?_typed_iff.mpr
          ⟨letter, behind, htyped, hletter, readAddress_eq_ok_iff.mpr hdigits⟩⟩

/-- Two ligatures are read as four digits. -/
theorem readAddress_ligatures : readAddress ['ﬀ', 'ﬀ'] = .ok 0xFFFF ∧
    ¬ ∃ a, FourDigits (Text.strip ['ﬀ', 'ﬀ']) a := by
  refine ⟨by decide +kernel, ?_⟩
  rintro ⟨a, hdigits⟩
  exact absurd hdigits.1 (by decide)

end Session

end LineMonitor
