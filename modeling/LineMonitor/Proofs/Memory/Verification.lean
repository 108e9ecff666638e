import LineMonitor.Proofs.Memory.Span

/-!
# What verified writing tells

`Memory.put` writes every byte of an instruction before it reads the first one back.
Reading back finds no difference exactly if the span then holds the instruction
(`Memory.mismatch?_eq_none_iff`), and the memory it leaves behind is that of the writes,
whether or not a difference is found (`Memory.memory_put`).
-/

namespace LineMonitor.Memory

/-- Nothing differs exactly if the span reads as the bytes. -/
theorem mismatch?_eq_none_iff (m : Memory) (a : Address) (data : List Byte) :
    m.mismatch? a data = none ↔ m.bytes a data.length = data := by
  induction data generalizing a with
  | nil => simp [mismatch?, bytes_zero]
  | cons expected rest ih =>
    rw [List.length_cons, bytes_succ, mismatch?]
    by_cases h : m.read a = expected
    · rw [if_pos h, ih, h]
      simp
    · rw [if_neg h]
      simp [h]

@[simp] theorem memory_put (m : Memory) (a : Address) (opcode : Byte) (operand : List Byte) :
    (m.put a opcode operand).memory = m.writeAll a (opcode :: operand) := by
  simp only [put]
  split <;> rfl

/-- An instruction is either found in its span afterwards, or reading back stops at a byte
that differs. -/
theorem put_cases (m : Memory) (a : Address) (opcode : Byte) (operand : List Byte) :
    ((m.put a opcode operand).result = .ok ⟨a, opcode :: operand⟩ ∧
      (m.writeAll a (opcode :: operand)).bytes a (operand.length + 1) = opcode :: operand) ∨
    ∃ x, (m.put a opcode operand).result = .error x ∧
      (m.writeAll a (opcode :: operand)).mismatch? a (opcode :: operand) = some x := by
  cases h : (m.writeAll a (opcode :: operand)).mismatch? a (opcode :: operand) with
  | none =>
    refine Or.inl ⟨by simp only [put, h], ?_⟩
    exact (mismatch?_eq_none_iff _ _ _).mp h
  | some x => exact Or.inr ⟨x, by simp only [put, h], rfl⟩

/-- An instruction is kept by every memory that can be written where it goes. -/
theorem put_result_of_writable (m : Memory) (a : Address) (opcode : Byte) (operand : List Byte)
    (hn : operand.length + 1 ≤ 65536)
    (hw : ∀ i, i < operand.length + 1 → m.isWritable (a.after i) = true) :
    (m.put a opcode operand).result = .ok ⟨a, opcode :: operand⟩ := by
  have held : (m.writeAll a (opcode :: operand)).bytes a (opcode :: operand).length =
      opcode :: operand := bytes_writeAll m a _ hn hw
  have none : (m.writeAll a (opcode :: operand)).mismatch? a (opcode :: operand) = none :=
    (mismatch?_eq_none_iff _ _ _).mpr held
  simp only [put, none]

end LineMonitor.Memory
