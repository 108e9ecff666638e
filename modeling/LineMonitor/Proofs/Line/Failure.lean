import LineMonitor.Proofs.Line.Step

/-!
# Lines that fail

A line that is not assembled leaves the address where it was, and unless it fails in writing it
leaves memory as it was (`enterLine_of_failed`).  A line that fails in writing has written all
its bytes before it reads the first one back: what can be written of its span then holds the
instruction, and everything else reads as before.  So memory is what it was exactly if what can be
written of the span held the instruction already, and `write_failure_changes_memory` is a line
where it did not.
-/

namespace LineMonitor

/-- What reading an address gives after a line that is not assembled: the address is not moved,
and of memory at most the writable part of the instruction's span has changed, and that only if
the line failed in writing and that part did not hold the instruction already. -/
theorem enterLine_of_failed (m : Memory) (c : Console) (a : Address)
    (h : (enterLine m c a).result.outcome ≠ .success) :
    (enterLine m c a).result.address = a ∧ (enterLine m c a).result.next = a ∧
      ((enterLine m c a).result.outcome ≠ .writeFailed →
        ∀ b, (enterLine m c a).memory.read b = m.read b) ∧
      ((enterLine m c a).result.outcome = .writeFailed →
        ∃ data, (enterLine m c a).result.Codes data ∧ data.length ≤ 3 ∧
          (∀ b, (enterLine m c a).memory.read b =
            if h : a.offset b < data.length ∧ m.isWritable b = true then data[a.offset b]
            else m.read b) ∧
          ((∀ b, (enterLine m c a).memory.read b = m.read b) ↔
            ∀ b (h : a.offset b < data.length), m.isWritable b = true →
              m.read b = data[a.offset b])) := by
  generalize hresult : (enterLine m c a).result = r at h ⊢
  generalize hmemory : (enterLine m c a).memory = m'
  have htouch := touching_enterLine m c a
  rw [hresult, hmemory] at htouch
  cases htouch with
  | nothing haddress hnext hdata hsuccess hfailed =>
    refine ⟨haddress, hnext, fun _ _ => rfl, fun houtcome => absurd houtcome hfailed⟩
  | @failed r data haddress hnext hdata houtcome hcode hlost =>
    have hshort := hcode.length_bounds.2
    have hwritten := fun b => m.read_writeAll a b data (by omega)
    refine ⟨haddress, hnext, fun hother => absurd houtcome hother, fun _ => ?_⟩
    exact ⟨data, hcode, hshort, hwritten, m.read_writeAll_eq_iff (by omega)⟩
  | assembled haddress hnext houtcome hcode hkept => exact absurd houtcome h

/-- A line whose second byte falls on ROM fails in this way. -/
theorem enterLine_of_failed_ldx :
    let m := Memory.filled [⟨1, 1, by decide⟩] [] 0
    let step := enterLine m (Console.ofText "LDX #0A\n".toList "\x1b") 0
    step.result.outcome = .writeFailed ∧ step.result.next = 0 ∧
      ∃ data, step.result.Codes data ∧ data.length ≤ 3 ∧
        (∀ b, step.memory.read b =
          if h : Address.offset 0 b < data.length ∧ m.isWritable b = true then
            data[Address.offset 0 b]
          else m.read b) ∧
        ((∀ b, step.memory.read b = m.read b) ↔
          ∀ b (h : Address.offset 0 b < data.length), m.isWritable b = true →
            m.read b = data[Address.offset 0 b]) := by
  intro m step
  have houtcome : step.result.outcome = .writeFailed := by decide +kernel
  have hfailed := enterLine_of_failed m (Console.ofText "LDX #0A\n".toList "\x1b") 0
    (by rw [houtcome]; decide)
  obtain ⟨-, hnext, -, hwritten⟩ := hfailed
  exact ⟨houtcome, hnext, hwritten houtcome⟩

/-- An instruction that runs from memory into ROM fails, and its first byte stays written. -/
theorem write_failure_changes_memory :
    let m := Memory.filled [⟨1, 1, by decide⟩] [] 0
    let step := enterLine m (Console.ofText "LDX #0A\n".toList "\x1b") 0
    step.result.outcome = .writeFailed ∧ m.read 0 = 0 ∧ step.memory.read 0 = 0xA2 := by
  decide +kernel

end LineMonitor
