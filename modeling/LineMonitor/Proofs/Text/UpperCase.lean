import LineMonitor.Proofs.Text.Blank
import LineMonitor.Text.UpperCase
import Mathlib.Tactic.IntervalCases

/-!
# What upper-casing leaves alone

The signs and digits of ASCII, which lie below its letters, are neither made nor removed by
upper-casing (`Text.mem_upper_iff`): beyond ASCII a character becomes characters beyond ASCII
or letters.  A text of capitals, signs and digits stays what it is (`Text.upper_eq_self`).  White
space stays what it is and nothing else becomes white space, so that it makes no difference whether
it is removed before or after upper-casing (`Text.strip_upper`).
-/

namespace LineMonitor.Text

-- the recursion runs through the whole table
set_option maxRecDepth 2000 in
/-- Every capital of a run lies at or above the letter `A`. -/
theorem le_target : ∀ r ∈ capitalRuns, 65 ≤ r.target := by
  decide

set_option maxRecDepth 2000 in
/-- No capital of a run lies among the surrogates. -/
theorem isValidChar_target : ∀ r ∈ capitalRuns,
    r.target + (r.last - r.first) < 0xD800 ∨
      0xE000 ≤ r.target ∧ r.target + (r.last - r.first) < 0x110000 := by
  decide

/-- The capitals of several characters lie at or above the letter `A`. -/
theorem le_wideCapitals : ∀ e ∈ wideCapitals, ∀ n ∈ e.2, 65 ≤ (Char.ofNat n).toNat := by
  decide

theorem toNat_ofNat_of_valid {n : Nat} (h : n.isValidChar) : (Char.ofNat n).toNat = n := by
  unfold Char.ofNat
  rw [dif_pos h]
  rfl

/-- The capital that a run gives is a character of its own, among the capitals of the run. -/
theorem toNat_capital {r : CapitalRun} (hr : r ∈ capitalRuns) {n capital : Nat}
    (h : r.capital? n = some capital) : (Char.ofNat capital).toNat = capital ∧
      r.target ≤ capital ∧ capital ≤ r.target + (r.last - r.first) := by
  unfold CapitalRun.capital? at h
  split at h
  · have hvalid := isValidChar_target r hr
    have hn : r.target + (n - r.first) = capital := Option.some.inj h
    refine ⟨toNat_ofNat_of_valid ?_, by omega, by omega⟩
    unfold Nat.isValidChar
    omega
  · cases h

/-- What a character beyond ASCII becomes: several capitals, a single one, or what it was. -/
inductive WideUpper (c : Char) : List Char → Prop where
  | several {capitals : List Nat} (hmem : (c.toNat, capitals) ∈ wideCapitals) :
      WideUpper c (capitals.map Char.ofNat)
  | single {r : CapitalRun} {capital : Nat} (hnone : wideCapitals.lookup c.toNat = none)
      (hr : r ∈ capitalRuns) (hcapital : r.capital? c.toNat = some capital) :
      WideUpper c [Char.ofNat capital]
  | same (hnone : wideCapitals.lookup c.toNat = none) : WideUpper c [c]

theorem wideUpper_upperWide (c : Char) : WideUpper c (upperWide c) := by
  unfold upperWide
  split
  · rename_i capitals hlookup
    obtain ⟨front, back, hsplit, -⟩ := List.lookup_eq_some_iff.mp hlookup
    exact .several (by rw [hsplit]; simp)
  · rename_i hnone
    split
    · rename_i capital hfind
      obtain ⟨r, hr, hcapital⟩ := List.exists_of_findSome?_eq_some hfind
      exact .single hnone hr hcapital
    · exact .same hnone

/-- What a character beyond ASCII becomes lies at or above the letter `A`. -/
theorem le_of_mem_upperWide {c x : Char} (hc : 0x80 ≤ c.toNat) (h : x ∈ upperWide c) :
    65 ≤ x.toNat := by
  have hwide := wideUpper_upperWide c
  generalize upperWide c = capitals at h hwide
  cases hwide with
  | several hmem =>
    obtain ⟨n, hn, rfl⟩ := List.mem_map.mp h
    exact le_wideCapitals _ hmem n hn
  | single hnone hr hcapital =>
    have hlow := le_target _ hr
    obtain ⟨hvalue, hbounds⟩ := toNat_capital hr hcapital
    rw [List.mem_singleton.mp h, hvalue]
    exact hlow.trans hbounds.1
  | same hnone =>
    rw [List.mem_singleton.mp h]
    omega

/-- A small letter of ASCII becomes the capital 32 places below it. -/
theorem toNat_toUpper_of_small {c : Char} (h : 97 ≤ c.toNat ∧ c.toNat ≤ 122) :
    c.toUpper.toNat + 32 = c.toNat := by
  have hc : c = Char.ofNat c.toNat := (Char.ofNat_toNat c).symm
  obtain ⟨hlow, hhigh⟩ := h
  generalize c.toNat = n at hc hlow hhigh
  subst hc
  interval_cases n <;> rfl

/-- Every other character of ASCII is its own capital. -/
theorem toUpper_of_not_small {c : Char} (h : ¬ (97 ≤ c.toNat ∧ c.toNat ≤ 122)) :
    c.toUpper = c := by
  unfold Char.toUpper
  rw [dif_neg]
  simpa [UInt32.le_iff_toNat_le] using h

/-- A character below the letters becomes itself, and nothing else becomes it. -/
theorem mem_upperChar_iff {x c : Char} (hx : x.toNat < 65) : x ∈ upperChar c ↔ x = c := by
  unfold upperChar
  split
  · rw [List.mem_singleton]
    by_cases hc : 97 ≤ c.toNat ∧ c.toNat ≤ 122
    · have hupper := toNat_toUpper_of_small hc
      constructor
      · rintro rfl
        omega
      · rintro rfl
        omega
    · rw [toUpper_of_not_small hc]
  · rename_i hc
    constructor
    · intro h
      have := le_of_mem_upperWide (by omega) h
      omega
    · rintro rfl
      omega

/-- A character below the letters is in the upper-case form of a text exactly if it is in the
text. -/
theorem mem_upper_iff {x : Char} {text : List Char} (hx : x.toNat < 65) :
    x ∈ upper text ↔ x ∈ text := by
  simp [upper, List.mem_flatMap, mem_upperChar_iff hx]

/-- A text of ASCII without small letters is its own upper-case form. -/
theorem upper_eq_self {text : List Char} (h : ∀ c ∈ text, c.toNat < 0x80 ∧ c.toUpper = c) :
    upper text = text := by
  induction text with
  | nil => rfl
  | cons c rest ih =>
    obtain ⟨hascii, hupper⟩ := h c List.mem_cons_self
    rw [upper_cons, upperChar_of_ascii hascii, hupper,
      ih fun d hd => h d (List.mem_cons_of_mem c hd)]
    rfl

/-! ## White space -/

/-- All capitals of a run lie below some place, or all of them above another. -/
def CapitalRun.Misses (r : CapitalRun) (low high : Nat) : Prop :=
  r.target + (r.last - r.first) < low ∨ high < r.target

instance (r : CapitalRun) (low high : Nat) : Decidable (r.Misses low high) :=
  inferInstanceAs (Decidable (_ ∨ _))

set_option maxRecDepth 2000 in
/-- No capital of a run is white space beyond ASCII. -/
theorem misses_blanks : ∀ r ∈ capitalRuns, r.Misses 0x85 0xA0 ∧ r.Misses 0x1680 0x1680 ∧
    r.Misses 0x2000 0x205F ∧ r.Misses 0x3000 0x3000 := by
  decide

/-- There are several capitals, and none of them is white space. -/
theorem not_isBlank_wideCapitals : ∀ e ∈ wideCapitals,
    e.2 ≠ [] ∧ ∀ n ∈ e.2, isBlank (Char.ofNat n) = false := by
  decide

theorem not_isBlank_capital {r : CapitalRun} (hr : r ∈ capitalRuns) {n capital : Nat}
    (h : r.capital? n = some capital) : isBlank (Char.ofNat capital) = false := by
  have hlow := le_target r hr
  have hmisses := misses_blanks r hr
  obtain ⟨hvalue, hbounds⟩ := toNat_capital hr h
  unfold CapitalRun.Misses at hmisses
  simp only [isBlank, hvalue]
  simp
  omega

theorem upperChar_ne_nil (c : Char) : upperChar c ≠ [] := by
  unfold upperChar
  split
  · exact List.cons_ne_nil _ _
  · have hwide := wideUpper_upperWide c
    generalize upperWide c = capitals at hwide ⊢
    cases hwide with
    | several hmem => simpa using (not_isBlank_wideCapitals _ hmem).1
    | single hnone hr hcapital => exact List.cons_ne_nil _ _
    | same hnone => exact List.cons_ne_nil _ _

/-- Only white space becomes white space. -/
theorem isBlank_of_mem_upperChar {c x : Char} (h : x ∈ upperChar c) (hx : isBlank x = true) :
    isBlank c = true := by
  unfold upperChar at h
  split at h
  · rw [List.mem_singleton.mp h] at hx
    by_cases hc : 97 ≤ c.toNat ∧ c.toNat ≤ 122
    · have hcapital := toNat_toUpper_of_small hc
      simp [isBlank] at hx
      omega
    · rwa [toUpper_of_not_small hc] at hx
  · have hwide := wideUpper_upperWide c
    generalize upperWide c = capitals at h hwide
    cases hwide with
    | several hmem =>
      obtain ⟨n, hn, rfl⟩ := List.mem_map.mp h
      rw [(not_isBlank_wideCapitals _ hmem).2 n hn] at hx
      cases hx
    | single hnone hr hcapital =>
      rw [List.mem_singleton.mp h, not_isBlank_capital hr hcapital] at hx
      cases hx
    | same hnone => rwa [List.mem_singleton.mp h] at hx

theorem isBlank_of_upper {text : List Char} (h : ∀ x ∈ upper text, isBlank x = true) :
    ∀ c ∈ text, isBlank c = true := by
  intro c hc
  obtain ⟨x, hx⟩ := List.exists_mem_of_ne_nil _ (upperChar_ne_nil c)
  exact isBlank_of_mem_upperChar hx (h x (List.mem_flatMap.mpr ⟨c, hc, hx⟩))

/-- The white space beyond ASCII. -/
def wideBlanks : List Nat :=
  [0x85, 0xA0, 0x1680, 0x2000, 0x2001, 0x2002, 0x2003, 0x2004, 0x2005, 0x2006, 0x2007, 0x2008,
    0x2009, 0x200A, 0x2028, 0x2029, 0x202F, 0x205F, 0x3000]

theorem upperWide_wideBlanks : ∀ n ∈ wideBlanks, upperWide (Char.ofNat n) = [Char.ofNat n] := by
  decide +kernel

/-- White space is its own upper-case form. -/
theorem upperChar_of_isBlank {c : Char} (h : isBlank c = true) : upperChar c = [c] := by
  simp only [isBlank, Bool.or_eq_true, Bool.and_eq_true, decide_eq_true_eq, beq_iff_eq] at h
  unfold upperChar
  split
  · rw [toUpper_of_not_small (by omega)]
  · have hmem : c.toNat ∈ wideBlanks := by
      simp only [wideBlanks, List.mem_cons, List.not_mem_nil, or_false]
      omega
    have hself := upperWide_wideBlanks c.toNat hmem
    rwa [Char.ofNat_toNat] at hself

theorem stripFront_upper (text : List Char) :
    stripFront (upper text) = upper (stripFront text) := by
  induction text with
  | nil => rfl
  | cons c rest ih =>
    by_cases hc : isBlank c = true
    · rw [upper_cons, upperChar_of_isBlank hc, List.singleton_append, stripFront, stripFront,
        List.dropWhile_cons_of_pos hc, List.dropWhile_cons_of_pos hc]
      exact ih
    · obtain ⟨x, others, hupper⟩ := List.exists_cons_of_ne_nil (upperChar_ne_nil c)
      have hx : ¬ isBlank x = true := by
        refine mt (isBlank_of_mem_upperChar ?_) hc
        rw [hupper]
        exact List.mem_cons_self
      rw [stripFront, stripFront, List.dropWhile_cons_of_neg hc, upper_cons, hupper,
        List.cons_append, List.dropWhile_cons_of_neg hx]

theorem stripEnd_upper (text : List Char) : stripEnd (upper text) = upper (stripEnd text) := by
  induction text using List.reverseRecOn with
  | nil => rfl
  | append_singleton front c ih =>
    by_cases hc : isBlank c = true
    · have hleft : stripEnd (upper (front ++ [c])) = stripEnd (upper front) := by
        rw [upper_append, upper_cons, upper_nil, List.append_nil, upperChar_of_isBlank hc]
        exact List.rdropWhile_concat_pos isBlank _ _ hc
      have hright : stripEnd (front ++ [c]) = stripEnd front :=
        List.rdropWhile_concat_pos isBlank _ _ hc
      rw [hleft, hright, ih]
    · obtain ⟨others, x, hupper⟩ : ∃ others x, upperChar c = others ++ [x] :=
        ⟨_, _, (List.dropLast_concat_getLast (upperChar_ne_nil c)).symm⟩
      have hx : ¬ isBlank x = true := by
        refine mt (isBlank_of_mem_upperChar ?_) hc
        rw [hupper]
        simp
      have hright : stripEnd (front ++ [c]) = front ++ [c] :=
        List.rdropWhile_concat_neg isBlank _ _ hc
      rw [hright, upper_append, upper_cons, upper_nil, List.append_nil, hupper, ← List.append_assoc]
      exact List.rdropWhile_concat_neg isBlank _ _ hx

/-- It makes no difference whether white space is removed before or after upper-casing. -/
theorem strip_upper (text : List Char) : strip (upper text) = upper (strip text) := by
  rw [strip, stripFront_upper, stripEnd_upper, strip]

/-! ## Characters that upper-casing leaves alone -/

/-- The character becomes itself, and nothing else becomes it. -/
def Caseless (x : Char) : Prop :=
  ∀ c, x ∈ upperChar c ↔ c = x

/-- The letters with several capitals are not among them, and these are three at most. -/
theorem notMem_wideCapitals : ∀ e ∈ wideCapitals,
    (∀ n ∈ e.2, Char.ofNat n ≠ Char.ofNat e.1) ∧ e.2.length ≤ 3 := by
  decide

/-- A character that is among its capitals is the only one. -/
theorem upperChar_of_mem {c : Char} (h : c ∈ upperChar c) : upperChar c = [c] := by
  by_cases hascii : c.toNat < 0x80
  · rw [upperChar_of_ascii hascii] at h ⊢
    rw [← List.mem_singleton.mp h]
  · rw [upperChar, if_neg hascii] at h ⊢
    have hwide := wideUpper_upperWide c
    generalize upperWide c = capitals at h hwide ⊢
    cases hwide with
    | several hmem =>
      obtain ⟨n, hn, hc⟩ := List.mem_map.mp h
      rw [← Char.ofNat_toNat c] at hc
      exact absurd hc ((notMem_wideCapitals _ hmem).1 n hn)
    | single hnone hr hcapital => rw [← List.mem_singleton.mp h]
    | same hnone => rfl

theorem length_upperChar_le (c : Char) : (upperChar c).length ≤ 3 := by
  unfold upperChar
  split
  · exact Nat.le_add_left 1 2
  · have hwide := wideUpper_upperWide c
    generalize upperWide c = capitals at hwide ⊢
    cases hwide with
    | several hmem =>
      rw [List.length_map]
      exact (notMem_wideCapitals _ hmem).2
    | single hnone hr hcapital => exact Nat.le_add_left 1 2
    | same hnone => exact Nat.le_add_left 1 2

theorem Caseless.upperChar_eq {x : Char} (h : Caseless x) : upperChar x = [x] :=
  upperChar_of_mem ((h x).mpr rfl)

theorem Caseless.mem_upper_iff {x : Char} (h : Caseless x) {text : List Char} :
    x ∈ upper text ↔ x ∈ text := by
  simp [upper, List.mem_flatMap, h _]

/-- Signs, digits and controls are caseless. -/
theorem caseless_of_lt {x : Char} (h : x.toNat < 65) : Caseless x := by
  intro c
  rw [mem_upperChar_iff h, eq_comm]

end LineMonitor.Text
