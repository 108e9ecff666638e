import LineMonitor.Listing
import LineMonitor.Proofs.Operand.RoundTrip

/-!
# Operands in listings

A listing has a printer of its own for operands.  `Row.formatOperand` goes from the bytes at once
to a text, by putting digits in the place of the letters in the pattern of a mode, and has a case
of its own for branches.  `Operand.text` fills in the shape of a mode with a number.
`Row.formatOperand_eq` says that they agree: what is listed of bytes is the text of the operand
that the bytes stand for.
-/

namespace LineMonitor

/-- One byte with a sign is the distance that a branch stores. -/
theorem signedLittleEndian_singleton (distance : Byte) :
    signedLittleEndian [distance] = distance.toInt := by
  rw [signedLittleEndian, littleEndian_cons, littleEndian_nil, BitVec.toInt_eq_toNat_bmod]
  rfl

/-- A target is written in four digits. -/
theorem Operand.text_relative (n : Int) : text ⟨.relative, n⟩ = Hex.ofInt 4 n := by
  simp [text, Mode.shape, Shape.fill]

/-- The letter that stands for a digit in a pattern stands nowhere else in it. -/
theorem Mode.notMem_shape (mode : Mode) :
    'n' ∉ mode.shape.lead.toList ∧ 'n' ∉ mode.shape.tail.toList := by
  cases mode <;> decide

/-- A pattern in which a number is put in the place of the digits is the shape filled with it. -/
theorem Shape.replace_pattern {s : Shape} (hdigits : s.digits ≠ 0) (hlead : 'n' ∉ s.lead.toList)
    (htail : 'n' ∉ s.tail.toList) (value : Int) :
    String.ofList (Text.replace (List.replicate s.digits 'n') (Hex.ofInt s.digits value).toList
      s.pattern.toList) = s.fill value := by
  obtain ⟨count, hcount⟩ := Nat.exists_eq_succ_of_ne_zero hdigits
  have hpattern : s.pattern.toList =
      s.lead.toList ++ List.replicate s.digits 'n' ++ s.tail.toList := by
    simp only [pattern, String.toList_append, String.toList_ofList]
  rw [hpattern, fill, if_neg hdigits]
  generalize (Hex.ofInt s.digits value) = shown
  rw [hcount, List.replicate_succ, Text.replace_between _ _ hlead htail]
  simp only [String.ofList_append, String.ofList_toList]

/-- What a listing shows of bytes is the text of the operand that they stand for. -/
theorem Row.formatOperand_eq {mode : Mode} {data : List Byte} (address : Int)
    (hlen : data.length = mode.operandLength) :
    formatOperand mode data address = (Operand.decode mode data address).text := by
  unfold formatOperand
  by_cases hrelative : mode = .relative
  · subst hrelative
    obtain ⟨distance, rfl⟩ := List.length_eq_one_iff.mp hlen
    rw [if_pos rfl, signedLittleEndian_singleton]
    exact (Operand.text_relative _).symm
  · have hdigits := Operand.digits_shape hrelative
    rw [if_neg hrelative, Operand.decode_of_ne_relative hrelative, Operand.text]
    by_cases hnone : mode.operandLength = 0
    · have hzero : mode.shape.digits = 0 := by rw [hdigits, hnone]
      rw [if_pos hnone, Shape.pattern, Shape.fill, hzero, if_pos rfl]
      simp
    · obtain ⟨hlead, htail⟩ := mode.notMem_shape
      rw [if_neg hnone, ← hdigits]
      exact Shape.replace_pattern (by omega) hlead htail _

end LineMonitor
