import LineMonitor.Proofs.Console.Layout
import LineMonitor.Proofs.Listing.Columns

/-!
# Rows with their addresses

A listing without bytes shows each row as it stands on the terminal when it is typed in: the address
in front, as the prompt writes it, and the text behind it.  If a line of this kind is read again,
the prompt is read as well, and the letters among its digits count as letters of the mnemonic
(`Encoding.mnemonicText_promptLine`).  Without such letters the line is as good as the text alone
(`Encoding.akin_promptLine`).  With them it can have the name of its own instruction only by chance,
and then it does not have an operand of the instruction (`Encoding.letters_eq_nil`).
-/

namespace LineMonitor

/-! ## The prompt for an address -/

namespace Address

/-- The prompt for an address. -/
def prompt (a : Address) : List Char :=
  (Hex.ofAddress a).toList ++ [':', ' ']

/-- The letters in the prompt. -/
def letters (a : Address) : List Char :=
  a.prompt.filter Console.isLetter

/-- The digits of hexadecimal numbers that are letters. -/
def hexLetters : List Char :=
  ['A', 'B', 'C', 'D', 'E', 'F']

theorem isPlain_of_mem_prompt {a : Address} : ∀ c ∈ a.prompt, Row.IsPlain c := by
  obtain ⟨ds, -, hds, -⟩ := Hex.ofAddress_eq_write a
  intro c hc
  rw [prompt, hds, List.mem_append] at hc
  rcases hc with hdigit | hsign
  · exact Hex.isPlain_of_mem_write hdigit
  · revert c
    exact List.all_iff_forall_prop.mp (by decide)

/-- The letters in a prompt are those of its digits. -/
theorem letters_eq (a : Address) :
    a.letters = (Hex.ofAddress a).toList.filter Console.isLetter := by
  rw [letters, prompt, List.filter_append]
  exact List.append_nil _

theorem mem_hexLetters_of_mem_letters {a : Address} : ∀ c ∈ a.letters, c ∈ hexLetters := by
  have hdigit : ∀ d : Fin 16, Console.isLetter (Hex.digit d) = true → Hex.digit d ∈ hexLetters := by
    decide
  obtain ⟨ds, -, hds, -⟩ := Hex.ofAddress_eq_write a
  intro c hc
  rw [letters_eq, hds] at hc
  obtain ⟨hmem, hletter⟩ := List.mem_filter.mp hc
  obtain ⟨d, -, rfl⟩ := List.mem_map.mp hmem
  exact hdigit d hletter

end Address

/-- The address of the row is written with decimal digits alone. -/
def Row.HasPlainAddress (r : Row) : Prop :=
  ∀ c ∈ (Hex.ofInt 4 r.address).toList, Console.isLetter c = false

-- by the digits of the address, not by all characters there are
instance : DecidablePred Row.HasPlainAddress := fun r =>
  List.decidableBAll _ (Hex.ofInt 4 r.address).toList

theorem Encoding.hasPlainAddress_row_iff {e : Encoding} {a : Address} {operand : List Byte} :
    (e.row a.toNat operand).HasPlainAddress ↔ a.letters = [] := by
  rw [Address.letters_eq, List.filter_eq_nil_iff]
  simp only [Bool.not_eq_true]
  exact Iff.rfl

/-! ## Letters behind letters -/

namespace Console

/-- Behind characters that are no letters the letters are looked for in what follows. -/
theorem behindLetters_append_of_few {front : List Char} {wanted : Nat}
    (h : front.filter isLetter = []) (hwanted : 0 < wanted) (back : List Char) :
    behindLetters wanted (front ++ back) = behindLetters wanted back := by
  obtain ⟨wanted, rfl⟩ := Nat.exists_eq_add_of_le' hwanted
  induction front with
  | nil => rfl
  | cons c front ih =>
    obtain ⟨hc, hfront⟩ := List.forall_mem_cons.mp (List.filter_eq_nil_iff.mp h)
    rw [List.cons_append, behindLetters, if_neg hc, ih (List.filter_eq_nil_iff.mpr hfront)]

/-- Behind enough letters everything that follows is left. -/
theorem behindLetters_append_of_enough {front : List Char} {wanted : Nat}
    (h : wanted ≤ (front.filter isLetter).length) (back : List Char) :
    behindLetters wanted (front ++ back) = behindLetters wanted front ++ back := by
  induction front generalizing wanted with
  | nil =>
    rw [List.filter_nil, List.length_nil, Nat.le_zero] at h
    rw [h]
    cases back <;> rfl
  | cons c front ih =>
    cases wanted with
    | zero => rfl
    | succ wanted =>
      rw [List.cons_append, behindLetters_cons, behindLetters_cons]
      refine ih ?_
      split
      · rename_i hc
        rw [List.filter_cons_of_pos hc, List.length_cons] at h
        exact Nat.le_of_succ_le_succ h
      · rename_i hc
        rwa [List.filter_cons_of_neg hc] at h

end Console

/-- The texts of a shape have one length. -/
theorem Shape.Typed.length_eq {s : Shape} {text other : List Char} {v w : Nat}
    (h : s.Typed text v) (h' : s.Typed other w) : text.length = other.length := by
  rw [← List.length_map Shape.outlineChar, h.outline_eq, ← h'.outline_eq, List.length_map]

/-! ## Names made of letters of hexadecimal numbers -/

namespace Mnemonic

/-- One such letter in front of a name makes another name, if any. -/
theorem cons_take_ne_name (i : Mnemonic) :
    ∀ l ∈ Address.hexLetters, l :: i.name.toList.take 2 ≠ i.name.toList :=
  List.all_iff_forall_prop.mp (by cases i <;> decide)

/-- Two such letters in front of a name make another name, if any. -/
theorem cons_cons_take_ne_name (i : Mnemonic) :
    ∀ p ∈ Address.hexLetters.product Address.hexLetters,
      p.1 :: p.2 :: i.name.toList.take 1 ≠ i.name.toList :=
  List.all_iff_forall_prop.mp (by cases i <;> decide)

/-- Only instructions with an operand are named by such letters alone. -/
theorem takesNoOperand_of_hexLetters {i : Mnemonic}
    (h : ∀ c ∈ i.name.toList, c ∈ Address.hexLetters) : i.takesNoOperand = false := by
  have hall : i.name.toList.all Address.hexLetters.contains = true :=
    List.all_eq_true.mpr fun c hc => List.contains_iff_mem.mpr (h c hc)
  revert hall
  cases i <;> decide

end Mnemonic

namespace Encoding

section Line

variable (e : Encoding) (a : Address) {operand : List Byte}

/-- A line with its address is the prompt and the text. -/
theorem toList_promptLine :
    (e.row a.toNat operand).promptLine.toList =
      a.prompt ++ (e.row a.toNat operand).text.toList := by
  have hcomment : (e.row a.toNat operand).comment.isEmpty = true := rfl
  have haddress : Hex.ofInt 4 (e.row a.toNat operand).address = Hex.ofAddress a := rfl
  rw [Row.promptLine, hcomment, haddress]
  simp [Address.prompt]

variable (hlen : operand.length = e.mode.operandLength)

include hlen

theorem isPlain_of_mem_promptLine :
    ∀ c ∈ (e.row a.toNat operand).promptLine.toList, Row.IsPlain c := by
  intro c hc
  rw [toList_promptLine, List.mem_append] at hc
  rcases hc with hprompt | htext
  · exact Address.isPlain_of_mem_prompt c hprompt
  · exact e.isPlain_of_mem_row a.toNat hlen c htext

theorem uncommented_promptLine :
    Console.uncommented (e.row a.toNat operand).promptLine.toList =
      a.prompt ++ (e.row a.toNat operand).text.toList := by
  rw [Row.uncommented_of_isPlain (e.isPlain_of_mem_promptLine a hlen), toList_promptLine]

/-- There is something on the line. -/
theorem not_isBlankLine_promptLine :
    ¬ Console.IsBlankLine (e.row a.toNat operand).promptLine.toList := by
  intro hblank
  have hcolon : Text.isBlank ':' = true := by
    refine List.all_eq_true.mp hblank ':' ?_
    rw [e.uncommented_promptLine a hlen, Address.prompt]
    simp
  revert hcolon
  decide

theorem not_hasEscape_promptLine :
    ¬ Console.HasEscape (e.row a.toNat operand).promptLine.toList := fun hescape =>
  Row.notMem_of_isPlain (by decide) (e.isPlain_of_mem_promptLine a hlen)
    (List.takeWhile_subset _ hescape)

/-- The mnemonic of the line begins with the letters in the prompt, and only what is missing of
three letters comes from the name of the instruction. -/
theorem mnemonicText_promptLine :
    Console.mnemonicText (e.row a.toNat operand).promptLine.toList =
      a.letters.take 3 ++ e.mnemonic.name.toList.take (3 - a.letters.length) := by
  have htext := e.mnemonicText_row a.toNat hlen
  rw [Console.mnemonicText, e.uncommented_row a.toNat hlen] at htext
  rw [Console.mnemonicText, e.uncommented_promptLine a hlen, List.filter_append, List.take_append,
    ← htext, List.take_take, Console.mnemonicLength, Nat.min_eq_left (Nat.sub_le _ _),
    ← Address.letters]

/-! ## Addresses without letters -/

/-- Without letters in the prompt the line is as good as the text of the row. -/
theorem akin_promptLine (h : a.letters = []) :
    Console.Akin (e.row a.toNat operand).promptLine.toList
      (e.row a.toNat operand).text.toList := by
  have hescape : ¬ Console.HasEscape (e.row a.toNat operand).text.toList := fun hescape =>
    Row.notMem_of_isPlain (by decide) (e.isPlain_of_mem_row a.toNat hlen)
      (List.takeWhile_subset _ hescape)
  have hescape' := e.not_hasEscape_promptLine a hlen
  constructor
  · exact iff_of_false (e.not_isBlankLine_promptLine a hlen) (e.not_isBlankLine_row a.toNat hlen)
  · exact iff_of_false hescape' hescape
  · exact iff_of_false (fun hearly => hescape' hearly.hasEscape)
      fun hearly => hescape hearly.hasEscape
  · rw [e.mnemonicText_promptLine a hlen, h, e.mnemonicText_row a.toNat hlen, List.take_nil,
      List.nil_append, List.length_nil, List.take_of_length_le e.mnemonic.length_name.le]
  · rw [Console.operandText, Console.operandText, e.uncommented_promptLine a hlen,
      e.uncommented_row a.toNat hlen, Console.behindLetters_append_of_few h (by decide)]

/-! ## Addresses with letters -/

/-- With three letters in the prompt the operand of the line has what is left of the text of the row
without its blank. -/
theorem length_operandText_promptLine (h : Console.mnemonicLength ≤ a.letters.length) :
    ((e.row a.toNat operand).text.toList.filter Operand.alphabet.contains).length ≤
      (Console.operandText (e.row a.toNat operand).promptLine.toList).length := by
  rw [Console.operandText, e.uncommented_promptLine a hlen,
    Console.behindLetters_append_of_enough h, List.filter_append, List.length_append]
  exact Nat.le_add_left _ _

/-- If the name of the instruction consists of letters of hexadecimal numbers, this is the name and
the operand. -/
theorem length_filter_text_row (h : ∀ c ∈ e.mnemonic.name.toList, c ∈ Address.hexLetters) :
    ((e.row a.toNat operand).text.toList.filter Operand.alphabet.contains).length =
      3 + (Operand.decode e.mode operand a.toNat).text.toList.length := by
  have hletters : ∀ c ∈ Address.hexLetters, Operand.alphabet.contains c = true :=
    List.all_eq_true.mp (by decide)
  have hname : e.mnemonic.name.toList.filter Operand.alphabet.contains = e.mnemonic.name.toList :=
    List.filter_eq_self.mpr fun c hc => hletters c (h c hc)
  have hoperand : (Operand.decode e.mode operand a.toNat).text.toList.filter
      Operand.alphabet.contains = (Operand.decode e.mode operand a.toNat).text.toList := by
    have halphabet := (Operand.fits_decode (a.toNat : Int) hlen).text_subset_alphabet
    exact List.filter_eq_self.mpr fun c hc => List.contains_iff_mem.mpr (halphabet hc)
  rw [toList_text_row, List.filter_append, hname, List.length_append, e.mnemonic.length_name]
  split
  · rename_i hempty
    rw [hempty]
    rfl
  · rw [List.filter_cons_of_neg (by decide), hoperand]

/-- A line that has the name of its own instruction, and an operand of the same mode if it takes
one, has no letters in its prompt. -/
theorem letters_eq_nil
    (hname : Console.mnemonicText (e.row a.toNat operand).promptLine.toList =
      e.mnemonic.name.toList)
    (hoperand : e.mnemonic.takesNoOperand = false → ∃ o, o.mode = e.mode ∧ Operand.Means
      e.mnemonic.modes (Console.operandText (e.row a.toNat operand).promptLine.toList) o) :
    a.letters = [] := by
  have hhex := Address.mem_hexLetters_of_mem_letters (a := a)
  have hlong := e.length_operandText_promptLine a hlen
  rw [e.mnemonicText_promptLine a hlen] at hname
  match hletters : a.letters, hname, hhex, hlong with
  | [], _, _, _ => rfl
  | [l], hname, hhex, _ => exact absurd hname (e.mnemonic.cons_take_ne_name l (hhex l (by simp)))
  | [l, l'], hname, hhex, _ =>
    have hboth : (l, l') ∈ Address.hexLetters.product Address.hexLetters :=
      List.pair_mem_product.mpr ⟨hhex l (by simp), hhex l' (by simp)⟩
    exact absurd hname (e.mnemonic.cons_cons_take_ne_name (l, l') hboth)
  | l :: l' :: l'' :: more, hname, hhex, hlong =>
    have hthree : e.mnemonic.name.toList = [l, l', l''] := by
      rw [← hname]
      simp
    have hspelled : ∀ c ∈ e.mnemonic.name.toList, c ∈ Address.hexLetters := by
      intro c hc
      rw [hthree] at hc
      exact hhex c (List.mem_append_left more hc)
    have hrest := hlong (Nat.le_add_left 3 more.length)
    rw [e.length_filter_text_row a hlen hspelled] at hrest
    -- all operands of a mode are equally long, and this one is longer by the name
    obtain ⟨o, hmode, hmeans⟩ := hoperand (Mnemonic.takesNoOperand_of_hexLetters hspelled)
    rcases hmeans with ⟨hnil, -⟩ | ⟨-, ⟨v, -, htyped⟩, -⟩
    · rw [hnil, List.length_nil] at hrest
      omega
    · obtain ⟨w, -, hown⟩ := (Operand.fits_decode (a.toNat : Int) hlen).typed_text
      rw [Operand.mode_decode] at hown
      rw [hmode] at htyped
      have hlength := htyped.length_eq hown
      omega

end Line

end Encoding

end LineMonitor
