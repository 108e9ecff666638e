import LineMonitor.Proofs.Instruction.Table
import LineMonitor.Proofs.Memory.Span
import LineMonitor.Proofs.Operand.Format

/-!
# Rows of whole instructions

Code that begins with a whole instruction has the row `Encoding.row` of that instruction first,
and then the rows of the code behind it (`rows_of_complete`).  A row without comment is always
that of a whole instruction (`Row.exists_encoding_of_comment`), and its line is its text in
columns, from which nothing is stripped (`Encoding.line_row`).
-/

namespace LineMonitor

namespace Encoding

/-- The row of a whole instruction. -/
def row (e : Encoding) (address : Int) (operand : List Byte) : Row where
  address := address
  raw := e.opcode :: operand
  mnemonic := e.mnemonic.name
  mode := some e.mode
  operand := (Operand.decode e.mode operand address).text

/-- The opcode and its operand have the length of the instruction. -/
theorem length_code {e : Encoding} {operand : List Byte}
    (hlen : operand.length = e.mode.operandLength) : (e.opcode :: operand).length = e.length := by
  rw [List.length_cons, hlen, length, Nat.add_comm]

/-- A row of a whole instruction has the length of the instruction. -/
theorem size_row {e : Encoding} {operand : List Byte} (address : Int)
    (hlen : operand.length = e.mode.operandLength) : (e.row address operand).size = e.length :=
  length_code hlen

/-- The length of code that begins with a whole instruction. -/
theorem length_code_append {e : Encoding} {operand : List Byte}
    (hlen : operand.length = e.mode.operandLength) (rest : List Byte) :
    (e.opcode :: operand ++ rest).length = e.length + rest.length := by
  rw [List.length_append, length_code hlen]

end Encoding

/-! ## The first row of code -/

/-- Code that begins with a whole instruction has its row first. -/
theorem Row.ofCode_of_complete {e : Encoding} (he : e ∈ Encoding.all) {operand : List Byte}
    (address : Int) (hlen : operand.length = e.mode.operandLength) (rest : List Byte) :
    Row.ofCode address e.opcode (operand ++ rest) = e.row address operand := by
  have htake : (e.opcode :: (operand ++ rest)).take e.length = e.opcode :: operand := by
    rw [Encoding.length, Nat.add_comm, ← hlen, List.take_succ_cons, List.take_left]
  have hwhole : ¬ (e.opcode :: operand).length < e.length := by
    rw [Encoding.length_code hlen]
    exact Nat.lt_irrefl _
  simp only [ofCode, decode, Encoding.ofOpcode?_opcode he, htake, if_neg hwhole, Encoding.row]
  rw [List.drop_succ_cons, List.drop_zero, formatOperand_eq address hlen]

/-- Behind a whole instruction the listing goes on with the code that follows. -/
theorem rows_of_complete {e : Encoding} (he : e ∈ Encoding.all) {operand : List Byte}
    (limit : Nat) (address : Int) (hlen : operand.length = e.mode.operandLength)
    (rest : List Byte) :
    rows (limit + 1) address (e.opcode :: operand ++ rest) =
      e.row address operand :: rows limit ((address + e.length) % 65536) rest := by
  have hdrop : (operand ++ rest).drop (e.length - 1) = rest := by
    rw [Encoding.length, Nat.add_sub_cancel_left, ← hlen, List.drop_left]
  rw [List.cons_append, rows, Row.ofCode_of_complete he address hlen rest]
  simp only [Encoding.size_row address hlen, hdrop]

/-- A row without comment shows a whole instruction. -/
theorem Row.exists_encoding_of_comment {address : Int} {opcode : Byte} {rest : List Byte}
    (h : (Row.ofCode address opcode rest).comment = "") :
    ∃ e ∈ Encoding.all, ∃ operand behind, e.opcode = opcode ∧ rest = operand ++ behind ∧
      operand.length = e.mode.operandLength := by
  cases hfound : Encoding.ofOpcode? opcode with
  | none =>
    simp only [ofCode, decode, hfound] at h
    exact absurd h (by decide)
  | some e =>
    have hlength : e.length = e.mode.operandLength + 1 := Nat.add_comm _ _
    refine ⟨e, Encoding.mem_of_ofOpcode? hfound, rest.take e.mode.operandLength,
      rest.drop e.mode.operandLength, Encoding.opcode_of_ofOpcode? hfound,
      (List.take_append_drop _ _).symm, ?_⟩
    by_cases hshort : ((opcode :: rest).take e.length).length < e.length
    · simp only [ofCode, decode, hfound, if_pos hshort] at h
      exact absurd h (by decide)
    · rw [hlength, List.take_succ_cons, List.length_cons, Nat.add_lt_add_iff_right] at hshort
      exact Nat.le_antisymm (List.length_take_le _ _) (Nat.le_of_not_lt hshort)

/-! ## Code of whole instructions -/

/-- The code that begins at an address is a sequence of whole instructions, which the rows
show. -/
inductive Disassembly : Address → List Byte → List Row → Prop where
  | nil (a : Address) : Disassembly a [] []
  | cons {a : Address} {e : Encoding} {operand rest : List Byte} {shown : List Row}
      (he : e ∈ Encoding.all) (hlen : operand.length = e.mode.operandLength)
      (hrest : Disassembly (a.after e.length) rest shown) :
      Disassembly a (e.opcode :: operand ++ rest) (e.row a.toNat operand :: shown)

namespace Disassembly

/-- Whole instructions are listed as they are, whatever follows them. -/
theorem rows_append {a : Address} {code : List Byte} {shown : List Row}
    (h : Disassembly a code shown) (limit : Nat) (rest : List Byte) :
    rows (shown.length + limit) a.toNat (code ++ rest) =
      shown ++ rows limit (a.after code.length).toNat rest := by
  induction h with
  | nil a => simp
  | @cons a e operand behind shown he hlen hrest ih =>
    rw [List.length_cons, Nat.add_right_comm, List.append_assoc, rows_of_complete he _ _ hlen,
      Address.toNat_add_emod, ih, Encoding.length_code_append hlen, Address.after_after,
      List.cons_append]

/-- A listing that goes as far as the code, and in which no row has a comment, shows whole
instructions. -/
theorem of_rows {a : Address} {code : List Byte} {limit : Nat} (hlimit : code.length ≤ limit)
    (h : ∀ row ∈ rows limit a.toNat code, row.comment = "") :
    Disassembly a code (rows limit a.toNat code) := by
  induction limit generalizing a code with
  | zero =>
    rw [List.length_eq_zero_iff.mp (Nat.le_zero.mp hlimit)]
    exact .nil a
  | succ limit ih =>
    cases code with
    | nil => exact .nil a
    | cons opcode rest =>
      have hfirst := h (Row.ofCode a.toNat opcode rest) (by rw [rows]; exact List.mem_cons_self)
      obtain ⟨e, he, operand, behind, rfl, rfl, hlen⟩ := Row.exists_encoding_of_comment hfirst
      rw [← List.cons_append, rows_of_complete he limit _ hlen, Address.toNat_add_emod] at h ⊢
      refine .cons he hlen (ih ?_ fun row hrow => h row (List.mem_cons_of_mem _ hrow))
      rw [List.length_cons, List.length_append] at hlimit
      omega

/-- The last row ends where the code does. -/
theorem finish_eq {a : Address} {code : List Byte} {shown : List Row}
    (h : Disassembly a code shown) :
    (shown.getLast?.elim a fun row => Address.ofInt (row.address + row.size)) =
      a.after code.length := by
  induction h with
  | nil a => simp
  | @cons a e operand behind shown he hlen hrest ih =>
    rw [Encoding.length_code_append hlen, ← Address.after_after, ← ih, List.getLast?_cons]
    cases shown.getLast? with
    | none =>
      have hsize := Encoding.size_row a.toNat hlen
      simp only [Option.getD_none, Option.elim_some, Option.elim_none, hsize]
      exact Address.ofInt_toNat_add a e.length
    | some row => rfl

end Disassembly

/-! ## The text of a row -/

namespace Text

/-- Nothing is stripped behind a character that is not white space. -/
theorem stripEnd_append {front back : List Char} (hne : back ≠ [])
    (h : ∀ c ∈ back, isBlank c = false) : stripEnd (front ++ back) = front ++ back := by
  obtain ⟨init, c, rfl⟩ := (List.eq_nil_or_concat back).resolve_left hne
  have hc : isBlank c = false := h c (by simp)
  simp [stripEnd, hc]

end Text

/-- Nothing in the name of an instruction is white space. -/
theorem Mnemonic.not_isBlank_of_mem_name (i : Mnemonic) :
    ∀ c ∈ i.name.toList, Text.isBlank c = false := by
  have hall : (i.name.toList.all fun c => !Text.isBlank c) = true := by
    cases i <;> decide
  intro c hc
  simpa using List.all_eq_true.mp hall c hc

/-- No character of operands is white space. -/
theorem Operand.not_isBlank_of_mem_alphabet :
    ∀ c ∈ Operand.alphabet, Text.isBlank c = false := by
  have hall : (Operand.alphabet.all fun c => !Text.isBlank c) = true := by decide
  intro c hc
  simpa using List.all_eq_true.mp hall c hc

namespace Encoding

/-- The text of a row is the name of the instruction, and its operand behind a blank if it has
one. -/
theorem toList_text_row (e : Encoding) (address : Int) (operand : List Byte) :
    (e.row address operand).text.toList = e.mnemonic.name.toList ++
      if (Operand.decode e.mode operand address).text = "" then []
      else ' ' :: (Operand.decode e.mode operand address).text.toList := by
  simp only [Row.text, row, String.isEmpty_iff]
  split
  · rw [List.append_nil]
  · simp

/-- The line of a row is its address, its bytes and its text in columns. -/
theorem line_row {e : Encoding} {operand : List Byte} (address : Int)
    (hlen : operand.length = e.mode.operandLength) :
    (e.row address operand).line = Hex.ofInt 4 address ++ "  " ++
      Row.padEnd 8 (Hex.ofBytes (e.opcode :: operand)) ++ "  " ++
        (e.row address operand).text := by
  have hoperand : ∀ c ∈ (Operand.decode e.mode operand address).text.toList,
      Text.isBlank c = false := fun c hc =>
    Operand.not_isBlank_of_mem_alphabet c
      ((Operand.fits_decode address hlen).text_subset_alphabet hc)
  -- the text ends in the operand, or in the name if there is none
  have hend : ∃ front back, (e.row address operand).text.toList = front ++ back ∧ back ≠ [] ∧
      ∀ c ∈ back, Text.isBlank c = false := by
    rw [toList_text_row]
    split
    · exact ⟨[], _, by rw [List.append_nil, List.nil_append], e.mnemonic.name_ne_nil,
        e.mnemonic.not_isBlank_of_mem_name⟩
    · rename_i hne
      refine ⟨e.mnemonic.name.toList ++ [' '], _, ?_, ?_, hoperand⟩
      · rw [List.append_assoc, List.singleton_append]
      · simpa using hne
  obtain ⟨front, back, htext, hback, hblank⟩ := hend
  have hstrip : ∀ columns : String, String.ofList
      (Text.stripEnd (columns ++ (e.row address operand).text).toList) =
        columns ++ (e.row address operand).text := by
    intro columns
    rw [String.toList_append, htext, ← List.append_assoc, Text.stripEnd_append hback hblank,
      List.append_assoc, ← htext, ← String.toList_append, String.ofList_toList]
  exact hstrip _

end Encoding

end LineMonitor
