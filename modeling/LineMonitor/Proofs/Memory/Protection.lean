import LineMonitor.Proofs.Memory.Verification

/-!
# What verified writing depends on

Two memories that protect the same addresses, and hold the same bytes there, cannot be told apart
by writing bytes and reading them back: what can be written reads as it was written, and what
cannot reads as before.  `Memory.ProtectedAlike` is kept by every write, and
`Memory.ProtectedAlike.put` shows that an instruction is kept by both memories or missed by both
at the same byte.
-/

namespace LineMonitor.Memory

/-- Two memories protect the same addresses and read alike there; they may differ wherever they
can be written. -/
structure ProtectedAlike (m m' : Memory) : Prop where
  isWritable_eq : ∀ b, m.isWritable b = m'.isWritable b
  read_eq : ∀ b, m.isWritable b = false → m.read b = m'.read b

/-- It is enough to have the same regions and to read alike in ROM, since nothing can be told of an
address behind which there is no memory. -/
theorem ProtectedAlike.of_regions {m m' : Memory} (hrom : m.rom = m'.rom)
    (hunmapped : m.unmapped = m'.unmapped)
    (hbytes : ∀ b, m.inRom b = true → m.read b = m'.read b) : ProtectedAlike m m' := by
  have hmapped : ∀ b, m.isMapped b = m'.isMapped b := by
    intro b
    rw [isMapped, isMapped, hunmapped]
  refine ⟨fun b => ?_, fun b hb => ?_⟩
  · rw [isWritable, isWritable, inRom, inRom, hrom, hmapped]
  · by_cases hinRom : m.inRom b = true
    · exact hbytes b hinRom
    · have hnone : m.isMapped b = false := by simpa [isWritable, hinRom] using hb
      have hnone' : m'.isMapped b = false := by rw [← hmapped, hnone]
      simp [read, hnone, hnone']

namespace ProtectedAlike

variable {m m' : Memory}

/-- Memories that are alike are alike after the same byte was written. -/
theorem write (h : ProtectedAlike m m') (a : Address) (value : Byte) :
    ProtectedAlike (m.write a value) (m'.write a value) := by
  refine ⟨fun b => ?_, fun b hb => ?_⟩
  · rw [isWritable_write, isWritable_write, h.isWritable_eq]
  · rw [isWritable_write] at hb
    rw [read_write, read_write, ← h.isWritable_eq a, h.read_eq b hb]

theorem writeAll (h : ProtectedAlike m m') (a : Address) (data : List Byte) :
    ProtectedAlike (m.writeAll a data) (m'.writeAll a data) := by
  induction data generalizing m m' a with
  | nil => exact h
  | cons value rest ih => exact ih (h.write a value) (a.after 1)

/-- Bytes that were written read alike in their span, whether or not they were kept. -/
theorem read_writeAll_eq (h : ProtectedAlike m m') (a : Address) (data : List Byte)
    (hn : data.length ≤ 65536) (i : Nat) (hi : i < data.length) :
    (m.writeAll a data).read (a.after i) = (m'.writeAll a data).read (a.after i) := by
  cases hw : m.isWritable (a.after i) with
  | true =>
    have hw' : m'.isWritable (a.after i) = true := by rw [← h.isWritable_eq, hw]
    rw [read_writeAll_after m a data i hi hn hw, read_writeAll_after m' a data i hi hn hw']
  | false =>
    have hafter : (m.writeAll a data).isWritable (a.after i) = false := by
      rw [isWritable_writeAll, hw]
    exact (h.writeAll a data).read_eq _ hafter

end ProtectedAlike

/-- The first difference depends on the bytes of the span alone. -/
theorem mismatch?_congr {m m' : Memory} {a : Address} {data : List Byte}
    (h : ∀ i, i < data.length → m.read (a.after i) = m'.read (a.after i)) :
    m.mismatch? a data = m'.mismatch? a data := by
  induction data generalizing a with
  | nil => rfl
  | cons expected rest ih =>
    have hfirst : m.read a = m'.read a := by
      have hzero := h 0 (Nat.zero_lt_succ _)
      rwa [Address.after_zero] at hzero
    have hrest : m.mismatch? (a.after 1) rest = m'.mismatch? (a.after 1) rest := by
      apply ih
      intro i hi
      rw [Address.after_one_after]
      exact h (i + 1) (Nat.succ_lt_succ hi)
    rw [mismatch?, mismatch?, hfirst, hrest]

namespace ProtectedAlike

variable {m m' : Memory}

/-- The same writes are ignored. -/
theorem ignoredWrites_eq (h : ProtectedAlike m m') (a : Address) (data : List Byte) :
    m.ignoredWrites a data = m'.ignoredWrites a data := by
  induction data generalizing a with
  | nil => rfl
  | cons value rest ih => rw [ignoredWrites, ignoredWrites, h.isWritable_eq, ih]

/-- An instruction is kept or missed by both memories, and they tell the same of it. -/
theorem put (h : ProtectedAlike m m') (a : Address) (opcode : Byte) (operand : List Byte)
    (hn : operand.length + 1 ≤ 65536) :
    (m.put a opcode operand).events = (m'.put a opcode operand).events ∧
      (m.put a opcode operand).result = (m'.put a opcode operand).result := by
  have hmissed := mismatch?_congr (h.read_writeAll_eq a (opcode :: operand) hn)
  have hignored := h.ignoredWrites_eq a (opcode :: operand)
  simp only [Memory.put, hmissed, hignored]
  split
  · exact ⟨rfl, rfl⟩
  · exact ⟨rfl, rfl⟩

end ProtectedAlike

end LineMonitor.Memory
