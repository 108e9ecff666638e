import LineMonitor.Placement

/-!
# Accesses made again

`Memory.replay` makes the accesses of a list in order.  What they leave in a cell that can be
written is what the last write to it wrote, and does not depend on what was there
(`Memory.cell_replay_cases`), so that making the same accesses again changes nothing
(`Memory.replay_replay`), however they overlap.
-/

namespace LineMonitor.Memory

/-- The memory after a list of accesses was made in order. -/
def replay (m : Memory) : List Access → Memory
  | [] => m
  | .write a value :: rest => replay (m.write a value) rest
  | .read _ _ :: rest => replay m rest

@[simp] theorem replay_nil (m : Memory) : m.replay [] = m := rfl

@[simp] theorem replay_write (m : Memory) (a : Address) (value : Byte) (rest : List Access) :
    m.replay (.write a value :: rest) = (m.write a value).replay rest := rfl

@[simp] theorem replay_read (m : Memory) (a : Address) (value : Byte) (rest : List Access) :
    m.replay (.read a value :: rest) = m.replay rest := rfl

theorem replay_append (m : Memory) (front back : List Access) :
    m.replay (front ++ back) = (m.replay front).replay back := by
  induction front generalizing m with
  | nil => rfl
  | cons access front ih => cases access <;> exact ih _

/-- The writes of bytes, made in order, write the bytes. -/
theorem replay_writes (m : Memory) (a : Address) (data : List Byte) :
    m.replay (writes a data) = m.writeAll a data := by
  induction data generalizing m a with
  | nil => rfl
  | cons value rest ih => exact ih _ _

/-! ## Regions stay as they are -/

/-- What accesses keep if every write keeps it. -/
theorem replay_eq_of_write {α : Type} {f : Memory → α}
    (h : ∀ m a value, f (write m a value) = f m) (m : Memory) (accesses : List Access) :
    f (m.replay accesses) = f m := by
  induction accesses generalizing m with
  | nil => rfl
  | cons access rest ih =>
    cases access with
    | write a value => rw [replay_write, ih, h]
    | read a value => rw [replay_read, ih]

@[simp] theorem rom_replay (m : Memory) (accesses : List Access) :
    (m.replay accesses).rom = m.rom :=
  replay_eq_of_write (f := Memory.rom) rom_write m accesses

@[simp] theorem unmapped_replay (m : Memory) (accesses : List Access) :
    (m.replay accesses).unmapped = m.unmapped :=
  replay_eq_of_write (f := Memory.unmapped) unmapped_write m accesses

@[simp] theorem isWritable_replay (m : Memory) (b : Address) (accesses : List Access) :
    (m.replay accesses).isWritable b = m.isWritable b :=
  replay_eq_of_write (f := fun m => m.isWritable b) (fun m a value => m.isWritable_write a b value)
    m accesses

/-! ## What a cell holds afterwards -/

/-- Memories with the same regions that hold the same bytes are the same. -/
theorem eq_of_cell {m m' : Memory} (hrom : m.rom = m'.rom) (hunmapped : m.unmapped = m'.unmapped)
    (h : ∀ b, m.cell b = m'.cell b) : m = m' := by
  obtain ⟨rom, unmapped, cells⟩ := m
  obtain ⟨rom', unmapped', cells'⟩ := m'
  have hcells : cells = cells' := by
    apply Vector.ext
    intro i hi
    have hplace : (BitVec.ofNat 16 i).toNat = i := by
      rw [BitVec.toNat_ofNat, Nat.mod_eq_of_lt hi]
    have hi' := h (BitVec.ofNat 16 i)
    simpa only [cell, hplace] using hi'
  simp only at hrom hunmapped
  rw [hrom, hunmapped, hcells]

/-- A write stores a byte in one cell, if it can be written. -/
theorem cell_write (m : Memory) (a b : Address) (value : Byte) :
    (m.write a value).cell b = if a = b ∧ m.isWritable b = true then value else m.cell b := by
  by_cases h : a = b
  · subst h
    by_cases hw : m.isWritable a = true
    · simp [write, hw, cell_store]
    · simp [write, hw]
  · by_cases hw : m.isWritable a = true
    · simp [write, hw, cell_store, h]
    · simp [write, hw, h]

/-- A cell that cannot be written keeps its byte. -/
theorem cell_replay_of_not_isWritable {m : Memory} {b : Address} (h : m.isWritable b = false)
    (accesses : List Access) : (m.replay accesses).cell b = m.cell b := by
  induction accesses generalizing m with
  | nil => rfl
  | cons access rest ih =>
    cases access with
    | write a value =>
      have hafter : (m.write a value).isWritable b = false := by rw [isWritable_write, h]
      rw [replay_write, ih hafter, cell_write, if_neg]
      rw [h]
      rintro ⟨-, hw⟩
      cases hw
    | read a value => exact ih h

/-- Accesses either leave a cell alone, or give it a byte that does not depend on memory, if it
can be written at all. -/
theorem cell_replay_cases (accesses : List Access) (b : Address) :
    (∀ m : Memory, (m.replay accesses).cell b = m.cell b) ∨
      ∃ value, ∀ m : Memory, m.isWritable b = true → (m.replay accesses).cell b = value := by
  induction accesses with
  | nil => exact Or.inl fun m => rfl
  | cons access rest ih =>
    cases access with
    | read a value => exact ih
    | write a value =>
      rcases ih with hkept | ⟨last, hlast⟩
      · by_cases hab : a = b
        · refine Or.inr ⟨value, fun m hw => ?_⟩
          rw [replay_write, hkept, cell_write, if_pos ⟨hab, hw⟩]
        · refine Or.inl fun m => ?_
          rw [replay_write, hkept, cell_write, if_neg fun h => hab h.1]
      · refine Or.inr ⟨last, fun m hw => ?_⟩
        rw [replay_write]
        exact hlast _ (by rwa [isWritable_write])

/-- Accesses that are made again change nothing. -/
theorem replay_replay (m : Memory) (accesses : List Access) :
    (m.replay accesses).replay accesses = m.replay accesses := by
  apply eq_of_cell (by simp) (by simp)
  intro b
  cases hw : m.isWritable b with
  | false =>
    have hafter : (m.replay accesses).isWritable b = false := by rw [isWritable_replay, hw]
    exact cell_replay_of_not_isWritable hafter accesses
  | true =>
    have hafter : (m.replay accesses).isWritable b = true := by rw [isWritable_replay, hw]
    rcases cell_replay_cases accesses b with hkept | ⟨value, hvalue⟩
    · exact hkept _
    · rw [hvalue _ hafter, hvalue m hw]

end LineMonitor.Memory
