import LineMonitor.Text.Numeral
import LineMonitor.Proofs.Text.EitherCase
import LineMonitor.Proofs.Text.Pieces
import Mathlib.Data.List.DropRight

/-!
# Numerals of base sixteen

`Numeral.Written` is the grammar of the numerals of base sixteen: white space around it, a sign, a
mark, and a row of digits of either case in which underscores may stand (`Numeral.Grouped`).  The
reader takes exactly these texts, once every character was replaced by the plain one that it stands
for (`Numeral.hex?_eq_some_iff`).  A row of digits alone is a numeral of its own number
(`Numeral.hex?_eq_some_iff_spells`).
-/

namespace LineMonitor.Text.Numeral

/-! ## Digits and underscores -/

/-- A row of digits of either case that stand for the number.  There may be underscores in it, each
of them between two digits. -/
def Grouped (row : List Char) (value : Nat) : Prop :=
  [] ∉ pieces '_' row ∧ Hex.Spells (row.filter (· != '_')) value

instance (row : List Char) (value : Nat) : Decidable (Grouped row value) :=
  inferInstanceAs (Decidable (_ ∧ _))

/-- Digits of base sixteen are read in either case. -/
theorem digitIn?_sixteen (c : Char) : digitIn? 16 c = Hex.digitValue? c.toUpper := by
  have hle : ∀ a b : Char, a ≤ b ↔ a.toNat ≤ b.toNat := fun a b => by
    rw [Char.le_def, UInt32.le_iff_toNat_le]
    rfl
  simp only [digitIn?, digitValue?, Hex.digitValue?, hle, Char.reduceToNat]
  by_cases hsmall : 97 ≤ c.toNat ∧ c.toNat ≤ 122
  · have hcapital := toNat_toUpper_of_small hsmall
    split_ifs <;> simp [Option.filter] <;> omega
  · rw [toUpper_of_not_small hsmall]
    split_ifs <;> simp [Option.filter] <;> omega

theorem digitIn?_underscore : digitIn? 16 '_' = none := by
  decide

/-- A digit is read in a row as it is without underscores, if what is behind it is. -/
theorem bind_digitIn?_iff {high value : Nat} {c : Char} {rest : List Char} {p : Prop}
    (hc : c ≠ '_') (hrest : ∀ d, valueAfter? 16 (16 * high + d) rest = some value ↔
      p ∧ Hex.valueAfter? (16 * high + d) ((rest.filter (· != '_')).map Char.toUpper) =
        some value) :
    ((digitIn? 16 c).bind fun d => valueAfter? 16 (16 * high + d) rest) = some value ↔
      p ∧ Hex.valueAfter? high (((c :: rest).filter (· != '_')).map Char.toUpper) = some value := by
  have hkept : (c :: rest).filter (· != '_') = c :: rest.filter (· != '_') :=
    List.filter_cons_of_pos (bne_iff_ne.mpr hc)
  rw [hkept, List.map_cons, Hex.valueAfter?_cons, digitIn?_sixteen]
  cases Hex.digitValue? c.toUpper with
  | none => simp
  | some d => exact hrest d

/-- Behind a digit there are further digits, and underscores each of which has a digit behind it. -/
theorem valueAfter?_eq_some_iff {high value : Nat} {text : List Char} :
    valueAfter? 16 high text = some value ↔ [] ∉ (pieces '_' text).tail ∧
      Hex.valueAfter? high ((text.filter (· != '_')).map Char.toUpper) = some value := by
  fun_induction valueAfter? 16 high text with
  | case1 high => simp
  | case2 high c rest ih =>
    by_cases hc : c = '_'
    · rw [hc, digitIn?_underscore]
      simp
    · obtain ⟨first, hpieces⟩ := pieces_cons_of_ne '_' hc rest
      rw [bind_digitIn?_iff hc ih, pieces_cons_self, List.tail_cons, hpieces]
      simp
  | case3 high c rest hnot ih =>
    by_cases hc : c = '_'
    · -- the underscore is the last character
      have hrest : rest = [] := by
        cases rest with
        | nil => rfl
        | cons d rest => exact (hnot d rest hc rfl).elim
      rw [hc, hrest, digitIn?_underscore]
      simp
    · obtain ⟨first, hpieces⟩ := pieces_cons_of_ne '_' hc rest
      rw [bind_digitIn?_iff hc ih, hpieces, List.tail_cons]

theorem magnitude?_eq_some_iff {row : List Char} {value : Nat} :
    magnitude? 16 row = some value ↔ Grouped row value := by
  cases row with
  | nil => simp [magnitude?, Grouped]
  | cons c rest =>
    rw [magnitude?, Grouped]
    by_cases hc : c = '_'
    · rw [hc, digitIn?_underscore]
      simp
    · obtain ⟨first, hpieces⟩ := pieces_cons_of_ne '_' hc rest
      have hread : ((digitIn? 16 c).bind fun d => valueAfter? 16 (16 * 0 + d) rest) = some value ↔
          _ := bind_digitIn?_iff hc fun d => valueAfter?_eq_some_iff
      simp only [Nat.mul_zero, Nat.zero_add] at hread
      rw [hread, hpieces, Hex.Spells]
      simp [hc, Hex.value?]

/-- There are only digits and underscores in such a row, -/
theorem Grouped.mem {row : List Char} {value : Nat} (h : Grouped row value) {c : Char}
    (hc : c ∈ row) : c = '_' ∨ c ∈ Hex.eitherCase := by
  refine or_iff_not_imp_left.mpr fun hne => ?_
  exact (Hex.exists_spells_iff.mp ⟨value, h.2⟩).2 c (List.mem_filter.mpr ⟨hc, bne_iff_ne.mpr hne⟩)

/-- and it does not begin with an underscore. -/
theorem Grouped.ne_underscore {row : List Char} {value : Nat} (h : Grouped row value)
    (rest : List Char) : row ≠ '_' :: rest := by
  rintro rfl
  exact h.1 (by simp)

theorem Grouped.ne_nil {row : List Char} {value : Nat} (h : Grouped row value) : row ≠ [] := by
  rintro rfl
  exact (Hex.exists_spells_iff.mp ⟨value, h.2⟩).1 rfl

/-! ## Marks and signs -/

/-- The marks of base sixteen: none, or one of two letters, behind which there may be an
underscore. -/
def marks : List (List Char) :=
  [[], ['0', 'x'], ['0', 'X'], ['0', 'x', '_'], ['0', 'X', '_']]

/-- A row of digits without a mark is read as it is. -/
theorem hexMagnitude?_of_grouped {row : List Char} {value : Nat} (h : Grouped row value) :
    hexMagnitude? row = magnitude? 16 row := by
  unfold hexMagnitude?
  split
  · rename_i x rest
    have hx := h.mem (show x ∈ '0' :: x :: rest by simp)
    rw [if_neg]
    rintro (rfl | rfl)
    · exact absurd hx (by decide)
    · exact absurd hx (by decide)
  · rfl

/-- Behind the letters of a mark there may be an underscore. -/
theorem hexMagnitude?_marked {x : Char} (hx : x = 'x' ∨ x = 'X') (text : List Char) {value : Nat} :
    hexMagnitude? ('0' :: x :: text) = some value ↔
      Grouped text value ∨ ∃ row, text = '_' :: row ∧ Grouped row value := by
  by_cases hunder : ∃ row, text = '_' :: row
  · obtain ⟨row, rfl⟩ := hunder
    have hread : hexMagnitude? ('0' :: x :: '_' :: row) = magnitude? 16 row := by
      simp [hexMagnitude?, hx]
    rw [hread, magnitude?_eq_some_iff]
    constructor
    · exact fun h => Or.inr ⟨row, rfl, h⟩
    · rintro (h | ⟨row', hrow, h⟩)
      · exact (h.ne_underscore row rfl).elim
      · rwa [(List.cons.inj hrow).2]
  · have hnot : ∀ row, text ≠ '_' :: row := not_exists.mp hunder
    have hread : hexMagnitude? ('0' :: x :: text) = magnitude? 16 text := by
      simp [hexMagnitude?, hx]
    rw [hread, magnitude?_eq_some_iff]
    exact (or_iff_left fun ⟨row, hrow, _⟩ => hnot row hrow).symm

theorem hexMagnitude?_eq_some_iff {text : List Char} {value : Nat} :
    hexMagnitude? text = some value ↔
      ∃ mark ∈ marks, ∃ row, text = mark ++ row ∧ Grouped row value := by
  constructor
  · intro h
    by_cases hmarked : ∃ x rest, text = '0' :: x :: rest ∧ (x = 'x' ∨ x = 'X')
    · obtain ⟨x, rest, rfl, hx⟩ := hmarked
      rcases (hexMagnitude?_marked hx rest).mp h with hrow | ⟨row, rfl, hrow⟩
      · exact ⟨['0', x], by rcases hx with rfl | rfl <;> simp [marks], rest, rfl, hrow⟩
      · exact ⟨['0', x, '_'], by rcases hx with rfl | rfl <;> simp [marks], row, rfl, hrow⟩
    · refine ⟨[], List.mem_cons_self, text, rfl, magnitude?_eq_some_iff.mp ?_⟩
      unfold hexMagnitude? at h
      split at h
      · rename_i x rest
        rwa [if_neg fun hx => hmarked ⟨x, rest, rfl, hx⟩] at h
      · exact h
  · rintro ⟨mark, hmark, row, rfl, hrow⟩
    simp only [marks, List.mem_cons, List.not_mem_nil, or_false] at hmark
    rcases hmark with rfl | rfl | rfl | rfl | rfl
    · rw [List.nil_append, hexMagnitude?_of_grouped hrow]
      exact magnitude?_eq_some_iff.mpr hrow
    · exact (hexMagnitude?_marked (Or.inl rfl) row).mpr (Or.inl hrow)
    · exact (hexMagnitude?_marked (Or.inr rfl) row).mpr (Or.inl hrow)
    · exact (hexMagnitude?_marked (Or.inl rfl) ('_' :: row)).mpr (Or.inr ⟨row, rfl, hrow⟩)
    · exact (hexMagnitude?_marked (Or.inr rfl) ('_' :: row)).mpr (Or.inr ⟨row, rfl, hrow⟩)

/-- A sign, and what it makes of a number. -/
inductive Signed : List Char → Nat → Int → Prop where
  | none (n : Nat) : Signed [] n n
  | plus (n : Nat) : Signed ['+'] n n
  | minus (n : Nat) : Signed ['-'] n (-n)

theorem signed?_hexMagnitude?_eq_some_iff {text : List Char} {value : Int} :
    signed? hexMagnitude? text = some value ↔
      ∃ sign rest n, text = sign ++ rest ∧ Signed sign n value ∧ hexMagnitude? rest = some n := by
  constructor
  · intro h
    unfold signed? at h
    split at h
    · obtain ⟨n, hn, rfl⟩ := Option.map_eq_some_iff.mp h
      exact ⟨['+'], _, n, rfl, .plus n, hn⟩
    · obtain ⟨n, hn, rfl⟩ := Option.map_eq_some_iff.mp h
      exact ⟨['-'], _, n, rfl, .minus n, hn⟩
    · obtain ⟨n, hn, rfl⟩ := Option.map_eq_some_iff.mp h
      exact ⟨[], _, n, rfl, .none n, hn⟩
  · rintro ⟨sign, rest, n, rfl, hsign, hn⟩
    cases hsign with
    | none =>
      -- a magnitude does not begin with a sign
      rw [List.nil_append]
      unfold signed?
      split
      · simp [hexMagnitude?, magnitude?, digitIn?, digitValue?] at hn
      · simp [hexMagnitude?, magnitude?, digitIn?, digitValue?] at hn
      · rw [hn]
        rfl
    | plus => rw [List.singleton_append, signed?, hn]; rfl
    | minus => rw [List.singleton_append, signed?, hn]; rfl

/-! ## White space around it -/

theorem exists_trim (text : List Char) : ∃ before after, text = before ++ trim text ++ after ∧
    (∀ c ∈ before, isSpace c = true) ∧ ∀ c ∈ after, isSpace c = true := by
  refine ⟨text.takeWhile isSpace, (text.dropWhile isSpace).rtakeWhile isSpace, ?_,
    fun c hc => List.mem_takeWhile_imp hc, fun c hc => List.mem_rtakeWhile_imp hc⟩
  have hend : trim text = (text.dropWhile isSpace).rdropWhile isSpace := rfl
  rw [hend, List.append_assoc, List.rdropWhile_append_rtakeWhile,
    List.takeWhile_append_dropWhile]

theorem dropWhile_isSpace_append {before core : List Char}
    (hbefore : ∀ c ∈ before, isSpace c = true) (hcore : ∀ c ∈ core, isSpace c = false)
    (hne : core ≠ []) (rest : List Char) :
    (before ++ (core ++ rest)).dropWhile isSpace = core ++ rest := by
  obtain ⟨c, others, rfl⟩ := List.exists_cons_of_ne_nil hne
  have hc : ¬ isSpace c = true := Bool.eq_false_iff.mp (hcore c List.mem_cons_self)
  rw [List.dropWhile_append_of_pos hbefore, List.cons_append, List.dropWhile_cons_of_neg hc]

theorem trim_append {before core after : List Char} (hbefore : ∀ c ∈ before, isSpace c = true)
    (hafter : ∀ c ∈ after, isSpace c = true) (hcore : ∀ c ∈ core, isSpace c = false)
    (hne : core ≠ []) : trim (before ++ core ++ after) = core := by
  have hback : (after.reverse ++ (core.reverse ++ [])).dropWhile isSpace = core.reverse ++ [] :=
    dropWhile_isSpace_append (by simpa using hafter) (by simpa using hcore) (by simpa using hne) []
  rw [List.append_nil] at hback
  rw [trim, List.append_assoc, dropWhile_isSpace_append hbefore hcore hne, List.reverse_append,
    hback, List.reverse_reverse]

/-! ## Numerals -/

/-- A numeral of base sixteen: a sign, a mark and a row of digits, with white space around them. -/
inductive Written : List Char → Int → Prop where
  | intro {before sign mark row after : List Char} {n : Nat} {value : Int}
      (hbefore : ∀ c ∈ before, isSpace c = true) (hsign : Signed sign n value)
      (hmark : mark ∈ marks) (hrow : Grouped row n) (hafter : ∀ c ∈ after, isSpace c = true) :
      Written (before ++ (sign ++ (mark ++ row)) ++ after) value

/-- There is no white space between the parts of a numeral. -/
theorem not_isSpace_of_parts {sign mark row : List Char} {n : Nat} {value : Int}
    (hsign : Signed sign n value) (hmark : mark ∈ marks) (hrow : Grouped row n) :
    ∀ c ∈ sign ++ (mark ++ row), isSpace c = false := by
  intro c hc
  rw [List.mem_append, List.mem_append] at hc
  rcases hc with hc | hc | hc
  · cases hsign with
    | none => cases hc
    | plus => rw [List.mem_singleton.mp hc]; decide
    | minus => rw [List.mem_singleton.mp hc]; decide
  · have hall : (marks.flatten.all fun c => !isSpace c) = true := by decide
    simpa using List.all_eq_true.mp hall c (List.mem_flatten_of_mem hmark hc)
  · have hall : (Hex.eitherCase.all fun c => !isSpace c) = true := by decide
    rcases hrow.mem hc with rfl | hdigit
    · decide
    · simpa using List.all_eq_true.mp hall c hdigit

/-- The reader takes exactly the numerals. -/
theorem hex?_eq_some_iff {text : List Char} {value : Int} :
    hex? text = some value ↔ Written (text.map plainChar) value := by
  rw [hex?, signed?_hexMagnitude?_eq_some_iff]
  constructor
  · rintro ⟨sign, rest, n, htrim, hsign, hn⟩
    obtain ⟨mark, hmark, row, rfl, hrow⟩ := hexMagnitude?_eq_some_iff.mp hn
    obtain ⟨before, after, htext, hbefore, hafter⟩ := exists_trim (text.map plainChar)
    rw [htext, htrim]
    exact .intro hbefore hsign hmark hrow hafter
  · intro h
    generalize text.map plainChar = plain at h ⊢
    cases h with
    | @intro before sign mark row after n value hbefore hsign hmark hrow hafter =>
      have hne : sign ++ (mark ++ row) ≠ [] := by
        simp [hrow.ne_nil]
      rw [trim_append hbefore hafter (not_isSpace_of_parts hsign hmark hrow) hne]
      exact ⟨sign, mark ++ row, n, rfl, hsign,
        hexMagnitude?_eq_some_iff.mpr ⟨mark, hmark, row, rfl, hrow⟩⟩

/-! ## Digits alone -/

/-- In a row of digits there need not be underscores. -/
theorem grouped_of_spells {digits : List Char} {n : Nat} (h : Hex.Spells digits n) :
    Grouped digits n := by
  obtain ⟨hne, hall⟩ := Hex.exists_spells_iff.mp ⟨n, h⟩
  have hunder : ∀ c ∈ digits, c ≠ '_' := by
    rintro c hc rfl
    exact absurd (hall _ hc) (by decide)
  have hfilter : digits.filter (· != '_') = digits :=
    List.filter_eq_self.mpr fun c hc => bne_iff_ne.mpr (hunder c hc)
  refine ⟨?_, by rwa [hfilter]⟩
  rw [pieces_of_notMem '_' fun hmem => hunder _ hmem rfl, List.mem_singleton]
  exact hne.symm

/-- Of the texts of digits alone the numerals are those that are not empty, and each of them is a
numeral of its own number. -/
theorem hex?_eq_some_iff_spells {digits : List Char} {value : Int}
    (h : ∀ c ∈ digits, c ∈ Hex.eitherCase) :
    hex? digits = some value ↔ ∃ n : Nat, Hex.Spells digits n ∧ value = n := by
  have hall : (Hex.eitherCase.all fun c => plainChar c == c) = true := by decide
  have hplain : digits.map plainChar = digits.map id :=
    List.map_congr_left fun c hc => eq_of_beq (List.all_eq_true.mp hall c (h c hc))
  rw [List.map_id] at hplain
  have hread : ∀ n : Nat, Hex.Spells digits n → hex? digits = some (n : Int) := by
    intro n hn
    have hwritten : Written ([] ++ ([] ++ ([] ++ digits)) ++ []) n :=
      .intro (by simp) (.none n) List.mem_cons_self (grouped_of_spells hn) (by simp)
    rw [hex?_eq_some_iff, hplain]
    simpa using hwritten
  constructor
  · intro hvalue
    have hne : digits ≠ [] := by
      rintro rfl
      cases hvalue
    obtain ⟨n, hn⟩ := Hex.exists_spells_iff.mpr ⟨hne, h⟩
    refine ⟨n, hn, ?_⟩
    rw [hread n hn] at hvalue
    exact (Option.some.inj hvalue).symm
  · rintro ⟨n, hn, rfl⟩
    exact hread n hn

end LineMonitor.Text.Numeral
