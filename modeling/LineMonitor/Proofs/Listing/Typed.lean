import LineMonitor.Proofs.Console.Line
import LineMonitor.Proofs.Listing.Rows
import Mathlib.Data.List.TakeWhile

/-!
# Rows typed in

The text of a row is a line that the console reads without loss: it has no comment, no escape
and no small letters, its first three letters are the name of the instruction, and what stands
behind them, without the blank, is the operand (`Encoding.mnemonicText_row`,
`Encoding.operandText_row`).
-/

namespace LineMonitor

namespace Row

/-- A character that is typed as it is, and ends neither a line nor what is read of it: one of
ASCII between the blank and the last capital letter, but for the semicolon. -/
def IsPlain (c : Char) : Prop :=
  32 ≤ c.toNat ∧ c.toNat ≤ 90 ∧ c ≠ ';'

instance (c : Char) : Decidable (IsPlain c) :=
  inferInstanceAs (Decidable (32 ≤ c.toNat ∧ c.toNat ≤ 90 ∧ c ≠ ';'))

theorem IsPlain.toUpper_eq {c : Char} (h : IsPlain c) : c.toNat < 0x80 ∧ c.toUpper = c := by
  obtain ⟨hlow, hhigh, -⟩ := h
  exact ⟨by omega, Text.toUpper_of_not_small (by omega)⟩

/-- Controls are not plain. -/
theorem notMem_of_isPlain {x : Char} {text : List Char} (hx : x.toNat < 32)
    (h : ∀ c ∈ text, IsPlain c) : x ∉ text := by
  intro hmem
  exact absurd (h x hmem).1 (Nat.not_le_of_lt hx)

theorem isPlain_of_mem_alphabet {c : Char} (h : c ∈ Operand.alphabet) : IsPlain c := by
  have hall : (Operand.alphabet.all fun c => decide (IsPlain c)) = true := by decide
  exact of_decide_eq_true (List.all_eq_true.mp hall c h)

theorem isPlain_of_isLetter {c : Char} (h : Console.isLetter c = true) : IsPlain c := by
  obtain ⟨hlow, hhigh⟩ := Console.toNat_of_isLetter h
  refine ⟨by omega, hhigh, ?_⟩
  rintro rfl
  exact absurd hlow (by decide)

/-- Plain characters are read as they are. -/
theorem uncommented_of_isPlain {line : List Char} (h : ∀ c ∈ line, IsPlain c) :
    Console.uncommented line = line := by
  have hwhole : line.takeWhile (· != ';') = line := by
    rw [List.takeWhile_eq_self_iff]
    intro c hc
    exact bne_iff_ne.mpr (h c hc).2.2
  rw [Console.uncommented, hwhole]
  exact Text.upper_eq_self fun c hc => (h c hc).toUpper_eq

/-- The text that types the rows in, one line for each. -/
def typed (shown : List Row) : List Char :=
  shown.flatMap fun row => row.text.toList ++ ['\n']

end Row

/-- The name of an instruction consists of letters. -/
theorem Mnemonic.isLetter_of_mem_name (i : Mnemonic) :
    ∀ c ∈ i.name.toList, Console.isLetter c = true := by
  have hall : i.name.toList.all Console.isLetter = true := by
    cases i <;> decide
  exact List.all_eq_true.mp hall

namespace Encoding

variable (e : Encoding) (address : Int) {operand : List Byte}

/-- The text of a row consists of plain characters. -/
theorem isPlain_of_mem_row (hlen : operand.length = e.mode.operandLength) :
    ∀ c ∈ (e.row address operand).text.toList, Row.IsPlain c := by
  have halphabet := (Operand.fits_decode address hlen).text_subset_alphabet
  intro c hc
  rw [toList_text_row, List.mem_append] at hc
  rcases hc with hname | hoperand
  · exact Row.isPlain_of_isLetter (e.mnemonic.isLetter_of_mem_name c hname)
  · split at hoperand
    · cases hoperand
    · rcases List.mem_cons.mp hoperand with rfl | hoperand
      · decide
      · exact Row.isPlain_of_mem_alphabet (halphabet hoperand)

/-- Nothing of the text of a row is a comment or in small letters. -/
theorem uncommented_row (hlen : operand.length = e.mode.operandLength) :
    Console.uncommented (e.row address operand).text.toList =
      (e.row address operand).text.toList :=
  Row.uncommented_of_isPlain (e.isPlain_of_mem_row address hlen)

/-- The mnemonic of the text of a row is the name of the instruction. -/
theorem mnemonicText_row (hlen : operand.length = e.mode.operandLength) :
    Console.mnemonicText (e.row address operand).text.toList = e.mnemonic.name.toList := by
  have hletters : e.mnemonic.name.toList.filter Console.isLetter = e.mnemonic.name.toList :=
    List.filter_eq_self.mpr e.mnemonic.isLetter_of_mem_name
  have hlength : Console.mnemonicLength = e.mnemonic.name.toList.length :=
    e.mnemonic.length_name.symm
  rw [Console.mnemonicText, e.uncommented_row address hlen, toList_text_row, List.filter_append,
    hletters, hlength, List.take_left]

/-- The operand of the text of a row is the text of the operand. -/
theorem operandText_row (hlen : operand.length = e.mode.operandLength) :
    Console.operandText (e.row address operand).text.toList =
      (Operand.decode e.mode operand address).text.toList := by
  have hlength : Console.mnemonicLength = e.mnemonic.name.toList.length :=
    e.mnemonic.length_name.symm
  have hfits := Operand.fits_decode address hlen
  have hall : (Operand.decode e.mode operand address).text.toList.filter
      Operand.alphabet.contains = (Operand.decode e.mode operand address).text.toList := by
    refine List.filter_eq_self.mpr fun c hc => ?_
    exact List.contains_iff_mem.mpr (hfits.text_subset_alphabet hc)
  rw [Console.operandText, e.uncommented_row address hlen, toList_text_row, hlength,
    Console.behindLetters_append e.mnemonic.isLetter_of_mem_name]
  split
  · rename_i hempty
    rw [hempty]
    rfl
  · rw [List.filter_cons_of_neg (by decide), hall]

/-- There is something on the line. -/
theorem not_isBlankLine_row (hlen : operand.length = e.mode.operandLength) :
    ¬ Console.IsBlankLine (e.row address operand).text.toList := by
  intro hblank
  have hname := hblank.mnemonicText_eq
  rw [e.mnemonicText_row address hlen] at hname
  exact e.mnemonic.name_ne_nil hname

/-- A console that is ready for the text of a row offers it. -/
theorem offers_row (hlen : operand.length = e.mode.operandLength) {c : Console}
    {rest : List (List Char)} (h : c.Ready ((e.row address operand).text.toList :: rest)) :
    c.Offers (e.row address operand).text.toList rest := by
  refine h.offers (e.not_isBlankLine_row address hlen) fun hescape => ?_
  have hplain := e.isPlain_of_mem_row address hlen
  exact Row.notMem_of_isPlain (by decide) hplain (List.takeWhile_subset _ hescape)

end Encoding

/-! ## The lines of a listing -/

namespace Text

/-- Nothing is trimmed of a line without carriage returns. -/
theorem trimReturns_eq_self {line : List Char} (h : '\r' ∉ line) : trimReturns line = line := by
  have hkept : line.reverse.dropWhile (· == '\r') = line.reverse := by
    rw [List.dropWhile_eq_self_iff]
    intro hlt hreturn
    apply h
    rw [← List.mem_reverse, ← eq_of_beq hreturn]
    exact List.getElem_mem hlt
  rw [trimReturns, hkept, List.reverse_reverse]

/-- Text without carriage returns is read as it is. -/
theorem universal_eq_self {text : List Char} (h : '\r' ∉ text) : universal text = text := by
  fun_induction universal text with
  | case1 => rfl
  | case2 rest ih => exact absurd List.mem_cons_self h
  | case3 c rest hpair ih =>
    rw [List.mem_cons, not_or] at h
    obtain ⟨hc, hrest⟩ := h
    rw [if_neg (Ne.symm hc), ih hrest]

/-- A line feed ends a line that is typed. -/
theorem typedLines_append_newline {line : List Char} (hfeed : '\n' ∉ line)
    (hreturn : '\r' ∉ line) (rest : List Char) :
    typedLines (line ++ '\n' :: rest) = line :: typedLines rest := by
  rw [typedLines, splitLines_append_newline line rest hfeed, List.map_cons,
    trimReturns_eq_self hreturn, typedLines]

end Text

/-- The rows of whole instructions are typed in as so many lines. -/
theorem Disassembly.typedLines_typed {a : Address} {code : List Byte} {shown : List Row}
    (h : Disassembly a code shown) :
    Text.typedLines (Row.typed shown) = shown.map fun row => row.text.toList := by
  induction h with
  | nil a => rfl
  | @cons a e operand rest shown he hlen hrest ih =>
    have hplain := e.isPlain_of_mem_row a.toNat hlen
    have hfeed : '\n' ∉ (e.row a.toNat operand).text.toList :=
      Row.notMem_of_isPlain (by decide) hplain
    have hreturn : '\r' ∉ (e.row a.toNat operand).text.toList :=
      Row.notMem_of_isPlain (by decide) hplain
    have hcons : Row.typed (e.row a.toNat operand :: shown) =
        (e.row a.toNat operand).text.toList ++ '\n' :: Row.typed shown := by
      rw [Row.typed, List.flatMap_cons, List.append_assoc, List.singleton_append, ← Row.typed]
    rw [hcons, Text.typedLines_append_newline hfeed hreturn, ih, List.map_cons]

/-- The text that types rows in is read as it is. -/
theorem Disassembly.universal_typed {a : Address} {code : List Byte} {shown : List Row}
    (h : Disassembly a code shown) : Text.universal (Row.typed shown) = Row.typed shown := by
  apply Text.universal_eq_self
  induction h with
  | nil a => exact List.not_mem_nil
  | @cons a e operand rest shown he hlen hrest ih =>
    have hreturn : '\r' ∉ (e.row a.toNat operand).text.toList :=
      Row.notMem_of_isPlain (by decide) (e.isPlain_of_mem_row a.toNat hlen)
    rw [Row.typed, List.flatMap_cons, ← Row.typed]
    simp [hreturn, ih]

/-- An instruction typed in several times, with other rows behind it. -/
theorem Disassembly.exists_repeated {e : Encoding} (he : e ∈ Encoding.all) {operand : List Byte}
    (hlen : operand.length = e.mode.operandLength) {line : List Char}
    (hline : ∀ address, (e.row address operand).text.toList ++ ['\n'] = line)
    {rest : List Byte} {behind : List Char}
    (hrest : ∀ a, ∃ shown, Disassembly a rest shown ∧ Row.typed shown = behind)
    (n : Nat) (a : Address) :
    ∃ shown, Disassembly a ((List.replicate n (e.opcode :: operand)).flatten ++ rest) shown ∧
      Row.typed shown = (List.replicate n line).flatten ++ behind := by
  induction n generalizing a with
  | zero => exact hrest a
  | succ n ih =>
    obtain ⟨shown, hshown, htyped⟩ := ih (a.after e.length)
    rw [List.replicate_succ, List.flatten_cons, List.append_assoc, List.replicate_succ,
      List.flatten_cons, List.append_assoc]
    refine ⟨_, .cons he hlen hshown, ?_⟩
    rw [Row.typed, List.flatMap_cons, hline, ← Row.typed, htyped]

end LineMonitor
