import LineMonitor.Proofs.Memory.Span

/-!
# What is left alone in memory

`Memory.ChangedWithin places m m'` says that on the way from `m` to `m'` at most the addresses in
`places` came to read something else, and of these only such that can be written.  Writing bytes
changes memory within their span (`Memory.changedWithin_writeAll`), and changes that are made one
after another stay within the same places (`Memory.ChangedWithin.trans`).
-/

namespace LineMonitor.Memory

/-- At most these addresses read differently afterwards, and none of them that is protected. -/
structure ChangedWithin (places : Address → Prop) (m m' : Memory) : Prop where
  isWritable_eq : ∀ b, m'.isWritable b = m.isWritable b
  read_eq_or : ∀ b, m'.read b = m.read b ∨ m.isWritable b = true ∧ places b

/-- An address in ROM, and one behind which there is no memory, cannot be written. -/
theorem isWritable_eq_false {m : Memory} {b : Address}
    (h : m.inRom b = true ∨ m.isMapped b = false) : m.isWritable b = false := by
  rcases h with hrom | hunmapped
  · simp [isWritable, hrom]
  · simp [isWritable, hunmapped]

/-- Writing bytes changes memory within their span. -/
theorem changedWithin_writeAll (m : Memory) (a : Address) (data : List Byte)
    (hn : data.length ≤ 65536) :
    ChangedWithin (fun b => ∃ i < data.length, b = a.after i) m (m.writeAll a data) := by
  refine ⟨fun b => m.isWritable_writeAll a b data, fun b => ?_⟩
  by_cases h : a.offset b < data.length ∧ m.isWritable b = true
  · exact Or.inr ⟨h.2, a.offset b, h.1, (Address.after_offset a b).symm⟩
  · exact Or.inl (m.read_writeAll_of_not a b data h hn)

namespace ChangedWithin

variable {places more : Address → Prop} {m m₁ m' : Memory}

theorem refl (places : Address → Prop) (m : Memory) : ChangedWithin places m m :=
  ⟨fun _ => rfl, fun _ => Or.inl rfl⟩

/-- One change after another is a change within the same places. -/
theorem trans (h : ChangedWithin places m m₁) (h' : ChangedWithin places m₁ m') :
    ChangedWithin places m m' := by
  refine ⟨fun b => (h'.isWritable_eq b).trans (h.isWritable_eq b), fun b => ?_⟩
  rcases h'.read_eq_or b with hkept | ⟨hw, hb⟩
  · rw [hkept]
    exact h.read_eq_or b
  · rw [h.isWritable_eq] at hw
    exact Or.inr ⟨hw, hb⟩

theorem mono (h : ChangedWithin places m m') (hsub : ∀ b, places b → more b) :
    ChangedWithin more m m' :=
  ⟨h.isWritable_eq, fun b => (h.read_eq_or b).imp_right fun hb => ⟨hb.1, hsub b hb.2⟩⟩

/-- What is protected reads as before. -/
theorem read_eq_of_protected (h : ChangedWithin places m m') {b : Address}
    (hb : m.isWritable b = false) : m'.read b = m.read b := by
  refine (h.read_eq_or b).resolve_right fun hchanged => ?_
  rw [hb] at hchanged
  exact Bool.false_ne_true hchanged.1

/-- What is in none of the places reads as before. -/
theorem read_eq_of_not (h : ChangedWithin places m m') {b : Address} (hb : ¬ places b) :
    m'.read b = m.read b :=
  (h.read_eq_or b).resolve_right fun hchanged => hb hchanged.2

end ChangedWithin

end LineMonitor.Memory
