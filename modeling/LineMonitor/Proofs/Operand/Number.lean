import LineMonitor.Operand
import LineMonitor.Proofs.Text.Digits

/-!
# Numbers read and written

The texts that `Operand.readHex` takes for a number are the rows of one or more capital digits
(`Operand.readHex_eq_ok_iff`, `Operand.exists_readHex_iff`).  Neither the text nor the number is
bounded.

`Operand.readHex_inverse` relates this to the writing of numbers.  A number is read of its digits
whatever width they are padded to, a text that is read is its number written as wide as the text,
and a text in two pieces has the number of the first, moved up by the places of the second, and that
of the second.
-/

namespace LineMonitor.Operand

theorem readHex_eq_ok_iff_value {text : String} {n : Nat} :
    readHex text = .ok n ↔ Hex.value? text.toList = some n := by
  unfold readHex
  cases Hex.value? text.toList <;> simp

/-- A text is read as a number exactly if it is a row of digits of this number. -/
theorem readHex_eq_ok_iff {text : String} {n : Nat} :
    readHex text = .ok n ↔ ∃ ds, ds ≠ [] ∧ text.toList = Hex.write ds ∧ n = Hex.number ds := by
  rw [readHex_eq_ok_iff_value, Hex.value?_eq_some_iff]

/-- The texts that are read are those of one or more capital digits. -/
theorem exists_readHex_iff {text : String} :
    (∃ n, readHex text = .ok n) ↔
      text ≠ "" ∧ ∀ c ∈ text.toList, c ∈ "0123456789ABCDEF".toList := by
  simp only [readHex_eq_ok_iff_value, Hex.mem_digits_iff]
  rw [Hex.exists_value?_iff, ne_eq, String.toList_eq_nil_iff]

/-- A number is read of its digits, whatever width they are padded to. -/
theorem readHex_ofInt (width n : Nat) : readHex (Hex.ofInt width n) = .ok n := by
  rw [readHex_eq_ok_iff_value, ← Int.ofNat_eq_natCast, Hex.ofInt, String.toList_ofList,
    Hex.value?_padded]

/-- A text is its number written as wide as the text. -/
theorem ofInt_of_readHex {text : String} {n : Nat} (h : readHex text = .ok n) :
    Hex.ofInt text.length n = text := by
  obtain ⟨ds, hne, hds, rfl⟩ := readHex_eq_ok_iff.mp h
  have hlength : text.length = ds.length := by
    rw [← String.length_toList, hds, Hex.length_write]
  rw [← Int.ofNat_eq_natCast, Hex.ofInt, hlength, Hex.padded_number hne, ← hds,
    String.ofList_toList]

/-- The number of a text in two pieces. -/
theorem readHex_append {front back : String} {m n : Nat} (hfront : readHex front = .ok m)
    (hback : readHex back = .ok n) :
    readHex (front ++ back) = .ok (m * 16 ^ back.length + n) := by
  obtain ⟨ds, hne, hds, rfl⟩ := readHex_eq_ok_iff.mp hfront
  obtain ⟨es, -, hes, rfl⟩ := readHex_eq_ok_iff.mp hback
  have hlength : back.length = es.length := by
    rw [← String.length_toList, hes, Hex.length_write]
  refine readHex_eq_ok_iff.mpr ⟨ds ++ es, List.append_ne_nil_of_left_ne_nil hne es, ?_, ?_⟩
  · rw [String.toList_append, hds, hes, Hex.write_append]
  · rw [hlength, Hex.number_append]

/-- Writing and reading are inverse to one another at every width: a number is read of its digits,
the texts of one or more capital digits are read and written again as they were, and the number of a
text that is read in two pieces comes from the numbers of these. -/
theorem readHex_inverse :
    (∀ n width : Nat, readHex (Hex.ofInt width n) = .ok n) ∧
      (∀ text : String,
        ((∃ n, readHex text = .ok n) ↔
          text ≠ "" ∧ ∀ c ∈ text.toList, c ∈ "0123456789ABCDEF".toList) ∧
        ∀ n, readHex text = .ok n → Hex.ofInt text.length n = text) ∧
      ∀ (front back : String) (m n : Nat), readHex front = .ok m → readHex back = .ok n →
        readHex (front ++ back) = .ok (m * 16 ^ back.length + n) := by
  refine ⟨fun n width => readHex_ofInt width n, fun text => ?_, ?_⟩
  · exact ⟨exists_readHex_iff, fun n hn => ofInt_of_readHex hn⟩
  · intro front back m n hfront hback
    exact readHex_append hfront hback

/-- Zeros in front of the first piece belong to its width, and those in front of the second move the
first up. -/
theorem readHex_inverse_zeros :
    readHex "00A" = .ok 0xA ∧ readHex "0F" = .ok 0xF ∧ Hex.ofInt 3 0xA = "00A" ∧
      readHex ("00A" ++ "0F") = .ok 0xA0F := by
  have hfront : readHex "00A" = .ok 0xA := by decide
  have hback : readHex "0F" = .ok 0xF := by decide
  obtain ⟨-, htext, hpieces⟩ := readHex_inverse
  exact ⟨hfront, hback, (htext "00A").2 0xA hfront, hpieces "00A" "0F" 0xA 0xF hfront hback⟩

end LineMonitor.Operand
