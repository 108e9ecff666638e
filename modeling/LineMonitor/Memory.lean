import LineMonitor.Memory.Region

/-!
# Memory

A memory of 64 KB with two kinds of protected regions.  In a ROM region writes are
ignored and reads give the stored byte; an unmapped region has no memory behind
it, so that writes are ignored and reads give `$FF`.  `Memory.load` stores bytes in
ROM as well.
-/

namespace LineMonitor

/-- A 64 KB memory with its ROM and unmapped regions. -/
structure Memory where
  rom : List Region
  unmapped : List Region
  cells : Vector Byte 65536

namespace Memory

/-- The byte that is read where no memory is. -/
def floating : Byte := 0xFF

/-- A memory in which every byte is `fill`. -/
def filled (rom unmapped : List Region) (fill : Byte) : Memory where
  rom := rom
  unmapped := unmapped
  cells := Vector.replicate 65536 fill

/-- The memory with these ends of ROM and of unmapped regions in which every byte is the
same, or the complaint about the first pair of numbers that bounds no region. -/
def ofBounds (rom unmapped : List (Int × Int)) (fill : Int) : Except String Memory := do
  let rom ← rom.mapM fun ends => Region.ofBounds ends.1 ends.2
  let unmapped ← unmapped.mapM fun ends => Region.ofBounds ends.1 ends.2
  return filled rom unmapped (Byte.ofInt fill)

/-- Whether an address lies in a ROM region. -/
def inRom (m : Memory) (a : Address) : Bool :=
  m.rom.any (·.contains a)

/-- Whether an address has memory behind it. -/
def isMapped (m : Memory) (a : Address) : Bool :=
  !m.unmapped.any (·.contains a)

/-- Whether a write to an address takes effect. -/
def isWritable (m : Memory) (a : Address) : Bool :=
  !m.inRom a && m.isMapped a

/-- The byte stored at an address, whatever protects it. -/
def cell (m : Memory) (a : Address) : Byte :=
  m.cells[a.toNat]

/-- The byte that reading an address gives. -/
def read (m : Memory) (a : Address) : Byte :=
  if m.isMapped a then m.cell a else floating

/-- The memory with a byte stored at an address, whatever protects it. -/
def store (m : Memory) (a : Address) (value : Byte) : Memory :=
  { m with cells := m.cells.set a.toNat value }

/-- The memory after a write, which protected addresses ignore. -/
def write (m : Memory) (a : Address) (value : Byte) : Memory :=
  if m.isWritable a then m.store a value else m

/-- The memory with `data` stored from an address on, whatever protects it. -/
def load (m : Memory) (a : Address) : List Byte → Memory
  | [] => m
  | value :: rest => load (m.store a value) (a.after 1) rest

/-- The bytes that reading `length` addresses from `a` on gives. -/
def bytes (m : Memory) (a : Address) (length : Nat) : List Byte :=
  (List.range length).map fun i => m.read (a.after i)

/-! ### What storing changes -/

@[simp] theorem rom_store (m : Memory) (a : Address) (value : Byte) :
    (m.store a value).rom = m.rom := rfl

@[simp] theorem unmapped_store (m : Memory) (a : Address) (value : Byte) :
    (m.store a value).unmapped = m.unmapped := rfl

@[simp] theorem inRom_store (m : Memory) (a b : Address) (value : Byte) :
    (m.store a value).inRom b = m.inRom b := rfl

@[simp] theorem isMapped_store (m : Memory) (a b : Address) (value : Byte) :
    (m.store a value).isMapped b = m.isMapped b := rfl

@[simp] theorem isWritable_store (m : Memory) (a b : Address) (value : Byte) :
    (m.store a value).isWritable b = m.isWritable b := rfl

@[simp] theorem cell_filled (rom unmapped : List Region) (fill : Byte) (a : Address) :
    (filled rom unmapped fill).cell a = fill := by
  simp [cell, filled]

/-- Storing a byte changes one cell. -/
theorem cell_store (m : Memory) (a b : Address) (value : Byte) :
    (m.store a value).cell b = if a = b then value else m.cell b := by
  simp only [cell, store, Vector.getElem_set]
  simp [BitVec.toNat_inj]

@[simp] theorem rom_write (m : Memory) (a : Address) (value : Byte) :
    (m.write a value).rom = m.rom := by
  unfold write
  split <;> rfl

@[simp] theorem unmapped_write (m : Memory) (a : Address) (value : Byte) :
    (m.write a value).unmapped = m.unmapped := by
  unfold write
  split <;> rfl

@[simp] theorem inRom_write (m : Memory) (a b : Address) (value : Byte) :
    (m.write a value).inRom b = m.inRom b := by
  simp [inRom]

@[simp] theorem isMapped_write (m : Memory) (a b : Address) (value : Byte) :
    (m.write a value).isMapped b = m.isMapped b := by
  simp [isMapped]

@[simp] theorem isWritable_write (m : Memory) (a b : Address) (value : Byte) :
    (m.write a value).isWritable b = m.isWritable b := by
  simp [isWritable]

/-- A write changes what one writable address gives, and nothing else. -/
theorem read_write (m : Memory) (a b : Address) (value : Byte) :
    (m.write a value).read b = if a = b ∧ m.isWritable a then value else m.read b := by
  by_cases h : m.isWritable a
  · have mapped : m.isMapped a = true := by
      simp only [isWritable, Bool.and_eq_true] at h
      exact h.2
    by_cases hab : a = b
    · subst hab
      simp [write, h, read, cell_store, mapped]
    · simp [write, h, read, cell_store, hab]
  · simp [write, h]

@[simp] theorem length_bytes (m : Memory) (a : Address) (length : Nat) :
    (m.bytes a length).length = length := by
  simp [bytes]

end Memory

end LineMonitor
