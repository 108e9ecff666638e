import LineMonitor.Text.Hex
import Mathlib.Data.Nat.Digits.Defs
import Mathlib.Data.Set.List

/-!
# Rows of hexadecimal digits

A hexadecimal text is `Hex.write ds` for a row `ds` of numbers below 16, most significant
first, and `Hex.number ds` is the number in positional notation.  The reader accepts exactly
these texts (`Hex.value?_eq_some_iff`), which are the texts of the sixteen characters
(`Hex.exists_value?_iff`), and a number that fits a width is written with exactly as many digits
(`Hex.padded_eq_write`).  Rows of one length are told apart by their numbers
(`Hex.eq_of_number_eq`), and so a row is written again from its length and its number
(`Hex.padded_number`).
-/

namespace LineMonitor.Hex

/-- The characters of a row of digits. -/
def write (ds : List (Fin 16)) : List Char :=
  ds.map fun d => digit d.val

/-- The number that a row of digits stands for, the most significant digit first. -/
def number (ds : List (Fin 16)) : Nat :=
  Nat.ofDigits 16 (ds.reverse.map Fin.val)

@[simp] theorem write_nil : write [] = [] := rfl

@[simp] theorem write_cons (d : Fin 16) (ds : List (Fin 16)) :
    write (d :: ds) = digit d :: write ds := rfl

theorem write_append (ds es : List (Fin 16)) : write (ds ++ es) = write ds ++ write es :=
  List.map_append

@[simp] theorem length_write (ds : List (Fin 16)) : (write ds).length = ds.length := by
  simp [write]

@[simp] theorem number_nil : number [] = 0 := rfl

@[simp] theorem number_singleton (d : Fin 16) : number [d] = d := by
  simp [number]

/-- Digits in front count as often as there are rows of the digits behind them. -/
theorem number_append (ds es : List (Fin 16)) :
    number (ds ++ es) = number ds * 16 ^ es.length + number es := by
  rw [number, List.reverse_append, List.map_append, Nat.ofDigits_append, number, number]
  simp only [List.length_map, List.length_reverse]
  ring

theorem number_cons (d : Fin 16) (ds : List (Fin 16)) :
    number (d :: ds) = d * 16 ^ ds.length + number ds := by
  rw [← List.singleton_append, number_append, number_singleton]

theorem number_lt (ds : List (Fin 16)) : number ds < 16 ^ ds.length := by
  have h := Nat.ofDigits_lt_base_pow_length (b := 16) (l := ds.reverse.map Fin.val) (by decide)
    (by simp)
  simpa [number] using h

/-- Rows of the same length that stand for the same number are the same. -/
theorem eq_of_number_eq {ds es : List (Fin 16)} (hlen : ds.length = es.length)
    (h : number ds = number es) : ds = es := by
  have hreverse : ds.reverse.map Fin.val = es.reverse.map Fin.val :=
    Nat.ofDigits_inj_of_len_eq (by decide) (by simp [hlen]) (by simp) (by simp) h
  exact List.reverse_inj.mp ((List.map_inj_right fun _ _ => Fin.ext).mp hreverse)

/-! ## Digits and their characters -/

/-- The characters with a value are those of the digits. -/
theorem digitValue?_eq_some_iff {c : Char} {n : Nat} :
    digitValue? c = some n ↔ ∃ d : Fin 16, digit d = c ∧ d.val = n := by
  constructor
  · intro h
    unfold digitValue? at h
    split at h
    · rename_i hc
      obtain ⟨hlow, hhigh⟩ := hc
      rw [Char.le_def, UInt32.le_iff_toNat_le] at hlow hhigh
      have hlow' : 48 ≤ c.toNat := hlow
      have hhigh' : c.toNat ≤ 57 := hhigh
      have hn : c.toNat - 48 = n := Option.some.inj h
      refine ⟨⟨n, by omega⟩, ?_, rfl⟩
      have hback : 48 + n = c.toNat := by omega
      simp only [digit, if_pos (show n < 10 by omega), hback, Char.ofNat_toNat]
    · split at h
      · rename_i hc
        obtain ⟨hlow, hhigh⟩ := hc
        rw [Char.le_def, UInt32.le_iff_toNat_le] at hlow hhigh
        have hlow' : 65 ≤ c.toNat := hlow
        have hhigh' : c.toNat ≤ 70 := hhigh
        have hn : c.toNat - 55 = n := Option.some.inj h
        refine ⟨⟨n, by omega⟩, ?_, rfl⟩
        have hback : 55 + n = c.toNat := by omega
        simp only [digit, if_neg (show ¬ n < 10 by omega), hback, Char.ofNat_toNat]
      · cases h
  · rintro ⟨d, rfl, rfl⟩
    exact digitValue?_digit d.isLt

theorem mem_digits_iff {c : Char} :
    c ∈ "0123456789ABCDEF".toList ↔ ∃ d : Fin 16, digit d = c := by
  have hrow : "0123456789ABCDEF".toList = (List.finRange 16).map fun d => digit d.val := by
    decide
  rw [hrow, List.mem_map]
  simp

/-- The rows of digits are the texts of their characters. -/
theorem exists_eq_write_iff {text : List Char} :
    (∃ ds, text = write ds) ↔ ∀ c ∈ text, ∃ d : Fin 16, digit d = c := by
  have hrange : (∃ ds, text = write ds) ↔
      text ∈ Set.range (List.map fun d : Fin 16 => digit d.val) :=
    exists_congr fun _ => eq_comm
  rw [hrange, Set.range_list_map]
  rfl

/-! ## Reading -/

/-- The reader takes exactly the rows of digits and computes their number. -/
theorem valueAfter?_eq_some_iff {high value : Nat} {text : List Char} :
    valueAfter? high text = some value ↔
      ∃ ds, text = write ds ∧ value = high * 16 ^ ds.length + number ds := by
  induction text generalizing high with
  | nil =>
    constructor
    · intro h
      exact ⟨[], rfl, by simpa using (Option.some.inj h).symm⟩
    · rintro ⟨ds, hds, rfl⟩
      cases ds with
      | nil => simp
      | cons d ds => simp at hds
  | cons c rest ih =>
    rw [valueAfter?_cons, Option.bind_eq_some_iff]
    constructor
    · rintro ⟨n, hn, hrest⟩
      obtain ⟨d, rfl, rfl⟩ := digitValue?_eq_some_iff.mp hn
      obtain ⟨ds, rfl, rfl⟩ := ih.mp hrest
      refine ⟨d :: ds, rfl, ?_⟩
      rw [number_cons, List.length_cons]
      ring
    · rintro ⟨ds, hds, rfl⟩
      cases ds with
      | nil => simp at hds
      | cons d ds =>
        obtain ⟨rfl, rfl⟩ := List.cons.inj hds
        refine ⟨d, digitValue?_eq_some_iff.mpr ⟨d, rfl, rfl⟩, ih.mpr ⟨ds, rfl, ?_⟩⟩
        rw [number_cons, List.length_cons]
        ring

/-- A text has a value exactly if it is a row of one or more digits. -/
theorem value?_eq_some_iff {text : List Char} {value : Nat} :
    value? text = some value ↔ ∃ ds, ds ≠ [] ∧ text = write ds ∧ value = number ds := by
  have hread : ∀ c rest, value? (c :: rest) = valueAfter? 0 (c :: rest) := fun _ _ => rfl
  cases text with
  | nil =>
    constructor
    · intro h
      cases h
    · rintro ⟨ds, hne, hds, -⟩
      cases ds with
      | nil => exact absurd rfl hne
      | cons d ds => simp at hds
  | cons c rest =>
    rw [hread, valueAfter?_eq_some_iff]
    constructor
    · rintro ⟨ds, hds, rfl⟩
      refine ⟨ds, ?_, hds, by simp⟩
      rintro rfl
      simp at hds
    · rintro ⟨ds, -, hds, rfl⟩
      exact ⟨ds, hds, by simp⟩

/-- The texts that have a value are those of one or more characters of digits. -/
theorem exists_value?_iff {text : List Char} :
    (∃ value, value? text = some value) ↔
      text ≠ [] ∧ ∀ c ∈ text, ∃ d : Fin 16, digit d = c := by
  rw [← exists_eq_write_iff]
  constructor
  · rintro ⟨value, hvalue⟩
    obtain ⟨ds, hne, rfl, -⟩ := value?_eq_some_iff.mp hvalue
    exact ⟨fun hnil => hne (List.map_eq_nil_iff.mp hnil), ds, rfl⟩
  · rintro ⟨hne, ds, rfl⟩
    refine ⟨number ds, value?_eq_some_iff.mpr ⟨ds, ?_, rfl, rfl⟩⟩
    rintro rfl
    exact hne rfl

/-! ## Writing -/

theorem length_digits_le {n width : Nat} (h : n < 16 ^ width) (hw : 0 < width) :
    (digits n).length ≤ width := by
  induction n using Nat.strongRecOn generalizing width with
  | ind n ih =>
    unfold digits
    split
    · simpa using Nat.succ_le_of_lt hw
    · rename_i hn
      have hpow : 16 ^ width = 16 ^ (width - 1) * 16 := by
        rw [← Nat.pow_succ]
        congr 1
        omega
      have hwide : 0 < width - 1 := by
        by_contra hzero
        have : width = 1 := by omega
        subst this
        omega
      have hquotient : n / 16 < 16 ^ (width - 1) := by omega
      have hrest := ih (n / 16) (by omega) hquotient hwide
      simp only [List.length_append, List.length_singleton]
      omega

/-- A number that fits a width is written with as many digits. -/
theorem padded_eq_write {n width : Nat} (h : n < 16 ^ width) (hw : 0 < width) :
    ∃ ds, padded width n = write ds ∧ ds.length = width ∧ number ds = n := by
  obtain ⟨ds, -, hds, hn⟩ := value?_eq_some_iff.mp (value?_padded width n)
  refine ⟨ds, hds, ?_, hn.symm⟩
  have hlen := congrArg List.length hds
  have hle := length_digits_le h hw
  simp only [padded, List.length_append, List.length_replicate, length_write] at hlen
  omega

/-- A row of digits is what its number is written as in as many places. -/
theorem padded_number {ds : List (Fin 16)} (hne : ds ≠ []) :
    padded ds.length (number ds) = write ds := by
  obtain ⟨es, hes, hlen, hnumber⟩ :=
    padded_eq_write (number_lt ds) (List.length_pos_iff.mpr hne)
  rw [hes, eq_of_number_eq hlen hnumber]

/-- An address is written with four digits. -/
theorem ofAddress_eq_write (a : BitVec 16) :
    ∃ ds, ds.length = 4 ∧ (ofAddress a).toList = write ds ∧ number ds = a.toNat := by
  have hlt : a.toNat < 16 ^ 4 := a.isLt
  obtain ⟨ds, hds, hlen, hnumber⟩ := padded_eq_write hlt (by decide)
  exact ⟨ds, hlen, by rw [ofAddress, String.toList_ofList, hds], hnumber⟩

end LineMonitor.Hex
