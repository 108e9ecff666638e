import LineMonitor.Proofs.Operand.Format
import LineMonitor.Proofs.Operand.Reading

/-!
# Coding and writing are inverse

An operand has three forms: the number in its mode, its bytes in an instruction at an address, and
its text.  `Operand.coding_inverse` goes around them in both directions.  From a number that fits
the mode to bytes and on to what a listing shows of these, it is the text of the operand; from
bytes to what a listing shows of them, and from the operand that is read of it back to bytes, they
are the bytes to begin with.  The two printers, of operands and of listings, meet in
`Row.formatOperand_eq`.  Only a branch looks at the address, and any integer will do for one.
-/

namespace LineMonitor.Operand

/-- The operand has a number for the digits of its mode, and if it is a target, a branch of two
bytes at the address reaches it. -/
def FitsAt (o : Operand) (address : Int) : Prop :=
  o.Fits ∧ (o.mode = .relative → ∃ d, branchOffset o.value address 2 = .ok d)

/-- An operand that fits at an address is encoded there. -/
theorem FitsAt.exists_encode {o : Operand} {address : Int} (h : o.FitsAt address) :
    ∃ data, o.encode address (1 + o.mode.operandLength : Nat) = .ok data := by
  refine exists_encode_iff.mpr fun hmode => ?_
  obtain ⟨d, hd⟩ := h.2 hmode
  rw [hmode]
  exact ⟨d, branchOffset_eq_ok_iff.mp hd⟩

/-- What a listing shows of bytes is read, by an instruction that has no mode but theirs, as the
operand that they stand for. -/
theorem read_formatOperand {mode : Mode} (himplicit : mode ≠ .implicit) {data : List Byte}
    (address : Int) (hlen : data.length = mode.operandLength) :
    read [mode] (Row.formatOperand mode data address) = .ok (decode mode data address) := by
  have hmode : (decode mode data address).mode = mode := mode_decode mode data address
  rw [Row.formatOperand_eq address hlen]
  refine read_text (by rwa [hmode]) (fits_decode address hlen) ?_ ?_
  · intro hrelative
    rw [← hmode, hrelative]
    exact List.mem_singleton_self _
  · intro habsolute
    rw [← hmode, habsolute]
    decide

/-- The three forms of operands of a mode at an address go over into one another. -/
structure Coded (mode : Mode) (address : Int) : Prop where
  /-- What fits is encoded in as many bytes as the mode has.  Decoded again it is the same operand,
  and what a listing shows of the bytes is the text of the operand: the shape of the mode with the
  digits of the number. -/
  encoded : ∀ v, FitsAt ⟨mode, v⟩ address → ∃ data,
    encode ⟨mode, v⟩ address (1 + mode.operandLength : Nat) = .ok data ∧
      data.length = mode.operandLength ∧
      decode mode data address = ⟨mode, v⟩ ∧
      Row.formatOperand mode data address = text ⟨mode, v⟩ ∧
      ∃ n : Nat, v = n ∧ mode.shape.Typed (text ⟨mode, v⟩).toList n
  /-- If the mode has an operand to be typed, what is listed of bytes is read, by an instruction
  that has no other mode, as an operand of the mode, which is encoded in the same bytes. -/
  decoded : mode ≠ .implicit → ∀ data : List Byte, data.length = mode.operandLength → ∃ o,
    read [mode] (Row.formatOperand mode data address) = .ok o ∧ o.mode = mode ∧
      o.encode address (1 + mode.operandLength : Nat) = .ok data

/-- Coding an operand and writing it are inverse to one another, in every mode and at every
address. -/
theorem coding_inverse (mode : Mode) (address : Int) : Coded mode address where
  encoded v hfits := by
    obtain ⟨data, hdata⟩ := hfits.exists_encode
    have hlen : data.length = mode.operandLength := length_of_encode hdata
    have hback : decode mode data address = ⟨mode, v⟩ := decode_of_encode hfits.1 hdata
    refine ⟨data, hdata, hlen, hback, ?_, hfits.1.typed_text⟩
    rw [Row.formatOperand_eq address hlen, hback]
  decoded himplicit data hlen :=
    ⟨_, read_formatOperand himplicit address hlen, mode_decode mode data address,
      encode_decode address hlen⟩

/-- A branch over the top of memory, at an address that is not reduced. -/
example :
    encode ⟨.relative, 0x0001⟩ (-2) 2 = .ok [1] ∧
      Row.formatOperand .relative [1] (-2) = "0001" ∧
      read [.relative] "0001" = .ok ⟨.relative, 1⟩ := by
  decide +kernel

end LineMonitor.Operand
