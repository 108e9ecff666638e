import LineMonitor.Proofs.Memory.Frame
import LineMonitor.Proofs.Memory.Replay
import LineMonitor.Proofs.Memory.Verification

/-!
# Which bytes memory keeps

A byte that is written is read back if its address is writable, and also if the address is protected
but gives this very byte anyhow: ROM that holds it already, or an address behind which there is no
memory, for `$FF` (`Memory.Keeps`).  Since the bytes of an instruction go to different addresses as
long as there are no more than 65536 of them, each of them is kept or lost for itself
(`Memory.read_writeAll_eq_iff_keeps`).

Reading back stops at the first byte that is lost (`Memory.exists_first_of_mismatch?_eq_some`), and
the reads up to there are those of the bytes before it (`Memory.verifyingReads_of_agree`).
`Memory.put_verified` puts this together: from the memory before alone it says whether an
instruction is kept, which byte is reported otherwise, and which accesses are made in which order.
-/

namespace LineMonitor.Memory

/-! ## Bytes that are kept -/

/-- A byte written to an address will be read there. -/
inductive Keeps (m : Memory) (a : Address) (value : Byte) : Prop where
  | writable (h : m.isWritable a = true)
  | rom (inRom : m.inRom a = true) (isMapped : m.isMapped a = true) (holds : m.cell a = value)
  | unmapped (isMapped : m.isMapped a = false) (floats : value = 0xFF)

/-- What is protected keeps the byte that it gives anyhow. -/
theorem keeps_iff {m : Memory} {a : Address} {value : Byte} :
    m.Keeps a value ↔ m.isWritable a = true ∨ m.read a = value := by
  constructor
  · intro h
    cases h with
    | writable h => exact Or.inl h
    | rom _ isMapped holds => exact Or.inr (by rw [read, if_pos isMapped, holds])
    | unmapped isMapped floats => exact Or.inr (by simp [read, isMapped, floats, floating])
  · rintro (hw | hread)
    · exact .writable hw
    · cases hmapped : m.isMapped a with
      | false =>
        refine .unmapped hmapped ?_
        rw [← hread, read, if_neg (by simp [hmapped]), floating]
      | true =>
        rw [read, if_pos hmapped] at hread
        cases hrom : m.inRom a with
        | true => exact .rom hrom hmapped hread
        | false => exact .writable (by simp [isWritable, hrom, hmapped])

/-- Of bytes written to a span, a byte is there afterwards exactly if its address keeps it. -/
theorem read_writeAll_eq_iff_keeps (m : Memory) (a : Address) (data : List Byte)
    (hn : data.length ≤ 65536) (i : Nat) (hi : i < data.length) :
    (m.writeAll a data).read (a.after i) = data[i] ↔ m.Keeps (a.after i) data[i] := by
  rw [keeps_iff]
  by_cases hw : m.isWritable (a.after i) = true
  · simp only [hw, true_or, iff_true]
    exact m.read_writeAll_after a data i hi hn hw
  · rw [m.read_writeAll_of_not a _ data (fun h => hw h.2) hn]
    simp [hw]

/-- An address that loses a byte reads as before. -/
theorem read_writeAll_of_not_keeps (m : Memory) (a b : Address) (data : List Byte)
    (hn : data.length ≤ 65536) {value : Byte} (h : ¬ m.Keeps b value) :
    (m.writeAll a data).read b = m.read b :=
  m.read_writeAll_of_not a b data (fun hb => h (.writable hb.2)) hn

/-! ## The first difference -/

/-- A difference that is found is the first one. -/
theorem exists_first_of_mismatch?_eq_some {m : Memory} {a : Address} {data : List Byte}
    {x : Mismatch} (h : m.mismatch? a data = some x) :
    ∃ i, ∃ hi : i < data.length,
      x = ⟨a.after i, data[i], m.read (a.after i)⟩ ∧ m.read (a.after i) ≠ data[i] ∧
        ∀ j (hj : j < i), m.read (a.after j) = data[j] := by
  induction data generalizing a with
  | nil => simp [mismatch?] at h
  | cons expected rest ih =>
    rw [mismatch?] at h
    by_cases hread : m.read a = expected
    · rw [if_pos hread] at h
      obtain ⟨i, hi, hx, hne, hbefore⟩ := ih h
      simp only [Address.after_one_after] at hx hne hbefore
      refine ⟨i + 1, Nat.succ_lt_succ hi, hx, hne, fun j hj => ?_⟩
      cases j with
      | zero => rwa [Address.after_zero]
      | succ j => exact hbefore j (Nat.lt_of_succ_lt_succ hj)
    · rw [if_neg hread, Option.some.injEq] at h
      refine ⟨0, Nat.zero_lt_succ _, ?_, ?_, fun j hj => absurd hj (Nat.not_lt_zero j)⟩
      · rw [← h, Address.after_zero]
        rfl
      · rwa [Address.after_zero]

/-! ## The accesses -/

/-- The writes of bytes, each with its address. -/
theorem writes_eq_mapIdx (a : Address) (data : List Byte) :
    writes a data = data.mapIdx fun i value => .write (a.after i) value := by
  induction data generalizing a with
  | nil => rfl
  | cons value rest ih =>
    rw [writes, ih, List.mapIdx_cons, Address.after_zero]
    simp only [Address.after_one_after]

/-- Bytes that agree are read one after another, and then those behind them. -/
theorem verifyingReads_of_agree (m : Memory) (a : Address) (front back : List Byte)
    (h : ∀ j (hj : j < front.length), m.read (a.after j) = front[j]) :
    m.verifyingReads a (front ++ back) =
      (front.mapIdx fun i value => .read (a.after i) value) ++
        m.verifyingReads (a.after front.length) back := by
  induction front generalizing a with
  | nil => simp
  | cons expected front ih =>
    have hfirst : m.read a = expected := by simpa using h 0 (Nat.zero_lt_succ _)
    have hrest : ∀ j (hj : j < front.length), m.read ((a.after 1).after j) = front[j] := by
      intro j hj
      rw [Address.after_one_after]
      exact h (j + 1) (Nat.succ_lt_succ hj)
    rw [List.cons_append, verifyingReads, if_pos hfirst, ih _ hrest, List.mapIdx_cons, hfirst,
      Address.after_zero, List.length_cons, Address.after_one_after]
    simp only [Address.after_one_after, List.cons_append]

/-- Reading stops at the first byte that differs. -/
theorem verifyingReads_of_differs {m : Memory} {a : Address} {data : List Byte} {i : Nat}
    (hi : i < data.length) (hne : m.read (a.after i) ≠ data[i])
    (hbefore : ∀ j (hj : j < i), m.read (a.after j) = data[j]) :
    m.verifyingReads a data =
      ((data.take i).mapIdx fun j value => .read (a.after j) value) ++
        [.read (a.after i) (m.read (a.after i))] := by
  have hfront : ∀ j (hj : j < (data.take i).length), m.read (a.after j) = (data.take i)[j] := by
    intro j hj
    rw [List.getElem_take]
    exact hbefore j (Nat.lt_of_lt_of_le hj (List.length_take_le _ _))
  have hreads := verifyingReads_of_agree m a (data.take i) (data.drop i) hfront
  rwa [List.take_append_drop, List.length_take, Nat.min_eq_left (Nat.le_of_lt hi),
    List.drop_eq_getElem_cons hi, verifyingReads, if_neg hne] at hreads

/-- Reading leaves memory as it is. -/
theorem replay_verifyingReads (m m' : Memory) (a : Address) (data : List Byte) :
    m.replay (m'.verifyingReads a data) = m := by
  induction data generalizing a with
  | nil => rfl
  | cons expected rest ih =>
    rw [verifyingReads, replay_read]
    split
    · exact ih _
    · rfl

theorem accesses_put (m : Memory) (a : Address) (opcode : Byte) (operand : List Byte) :
    (m.put a opcode operand).accesses =
      writes a (opcode :: operand) ++
        (m.writeAll a (opcode :: operand)).verifyingReads a (opcode :: operand) := by
  simp only [put]
  split <;> rfl

/-! ## Verified writing -/

/-- What is said of an attempt to write an instruction at an address, which may be any integer: byte
`i` goes to the address congruent to `address + i`, and what memory kept or lost is told from the
memory before. -/
structure Verified (m : Memory) (address : Int) (data : List Byte) (x : Attempt) : Prop where
  /-- The memory that is left is that of the accesses, made in their order. -/
  memory_eq : x.memory = m.replay x.accesses
  /-- The attempt succeeds exactly if every byte is kept. -/
  ok_iff : x.result = .ok ⟨Address.ofInt address, data⟩ ↔
    ∀ i (hi : i < data.length), m.Keeps (Address.ofInt (address + i)) data[i]
  /-- If every byte is kept, the span holds the instruction; all bytes are written in order, and
  then all are read in order. -/
  kept : (∀ i (hi : i < data.length), m.Keeps (Address.ofInt (address + i)) data[i]) →
    x.memory.bytes (Address.ofInt address) data.length = data ∧
    x.accesses =
      (data.mapIdx fun i value => .write (Address.ofInt (address + i)) value) ++
        data.mapIdx fun i value => .read (Address.ofInt (address + i)) value
  /-- Otherwise the first byte that is lost is reported with what its address gave before; all bytes
  are written in order, and then they are read in order up to this one. -/
  lost : (¬ ∀ i (hi : i < data.length), m.Keeps (Address.ofInt (address + i)) data[i]) →
    ∃ i, ∃ hi : i < data.length,
      ¬ m.Keeps (Address.ofInt (address + i)) data[i] ∧
      (∀ j (hj : j < i), m.Keeps (Address.ofInt (address + j)) data[j]) ∧
      x.result =
        .error ⟨Address.ofInt (address + i), data[i], m.read (Address.ofInt (address + i))⟩ ∧
      x.accesses =
        (data.mapIdx fun i value => .write (Address.ofInt (address + i)) value) ++
          (((data.take i).mapIdx fun j value => .read (Address.ofInt (address + j)) value) ++
            [.read (Address.ofInt (address + i)) (m.read (Address.ofInt (address + i)))])
  /-- Outside the span, in ROM and where no memory is, everything reads as before. -/
  read_eq : ∀ b, (∀ i < data.length, b ≠ Address.ofInt (address + i)) ∨ m.inRom b = true ∨
    m.isMapped b = false → x.memory.read b = m.read b

/-- If every byte is kept, the instruction is found in its span. -/
theorem put_of_keeps (m : Memory) (a : Address) (opcode : Byte) (operand : List Byte)
    (hn : (opcode :: operand).length ≤ 65536)
    (h : ∀ i (hi : i < (opcode :: operand).length), m.Keeps (a.after i) (opcode :: operand)[i]) :
    (m.put a opcode operand).result = .ok ⟨a, opcode :: operand⟩ ∧
      (m.put a opcode operand).memory.bytes a (opcode :: operand).length = opcode :: operand ∧
      (m.put a opcode operand).accesses =
        ((opcode :: operand).mapIdx fun i value => .write (a.after i) value) ++
          (opcode :: operand).mapIdx fun i value => .read (a.after i) value := by
  have hread : ∀ i (hi : i < (opcode :: operand).length),
      (m.writeAll a (opcode :: operand)).read (a.after i) = (opcode :: operand)[i] :=
    fun i hi => (m.read_writeAll_eq_iff_keeps a _ hn i hi).mpr (h i hi)
  have hbytes : (m.writeAll a (opcode :: operand)).bytes a (opcode :: operand).length =
      opcode :: operand := by
    apply List.ext_getElem
    · rw [length_bytes]
    · intro i _ hi
      rw [getElem_bytes, hread i hi]
  have hnone := (mismatch?_eq_none_iff _ _ _).mpr hbytes
  have hreads := verifyingReads_of_agree _ a (opcode :: operand) [] hread
  rw [List.append_nil, verifyingReads, List.append_nil] at hreads
  refine ⟨by simp only [put, hnone], by rw [memory_put, hbytes], ?_⟩
  rw [accesses_put, writes_eq_mapIdx, hreads]

/-- If a byte is lost and those before it are kept, it is the one that is reported. -/
theorem put_of_not_keeps (m : Memory) (a : Address) (opcode : Byte) (operand : List Byte)
    (hn : (opcode :: operand).length ≤ 65536)
    (h : ¬ ∀ i (hi : i < (opcode :: operand).length), m.Keeps (a.after i) (opcode :: operand)[i]) :
    ∃ i, ∃ hi : i < (opcode :: operand).length,
      ¬ m.Keeps (a.after i) (opcode :: operand)[i] ∧
      (∀ j (hj : j < i), m.Keeps (a.after j) (opcode :: operand)[j]) ∧
      (m.put a opcode operand).result =
        .error ⟨a.after i, (opcode :: operand)[i], m.read (a.after i)⟩ ∧
      (m.put a opcode operand).accesses =
        ((opcode :: operand).mapIdx fun i value => .write (a.after i) value) ++
          ((((opcode :: operand).take i).mapIdx fun j value => .read (a.after j) value) ++
            [.read (a.after i) (m.read (a.after i))]) := by
  have hiff := m.read_writeAll_eq_iff_keeps a (opcode :: operand) hn
  cases hx : (m.writeAll a (opcode :: operand)).mismatch? a (opcode :: operand) with
  | none =>
    have hbytes := (mismatch?_eq_none_iff _ _ _).mp hx
    refine absurd (fun i hi => (hiff i hi).mp ?_) h
    rw [← getElem_bytes _ a _ i (by rwa [length_bytes])]
    simp only [hbytes]
  | some x =>
    obtain ⟨i, hi, rfl, hne, hbefore⟩ := exists_first_of_mismatch?_eq_some hx
    have hlost : ¬ m.Keeps (a.after i) (opcode :: operand)[i] := mt (hiff i hi).mpr hne
    -- what is reported was there before, since a byte is lost only where nothing can be written
    have hread := m.read_writeAll_of_not_keeps a _ _ hn hlost
    rw [hread] at hx
    refine ⟨i, hi, hlost, fun j hj => (hiff j (by omega)).mp (hbefore j hj),
      by simp only [put, hx], ?_⟩
    rw [accesses_put, writes_eq_mapIdx, verifyingReads_of_differs hi hne hbefore, hread]

/-- An attempt to write an instruction does what it should at every address. -/
theorem put_verified (m : Memory) (address opcode : Int) (operand : List Byte)
    (h : operand.length + 1 ≤ 65536) :
    Verified m address (Byte.ofInt opcode :: operand)
      (m.put (Address.ofInt address) (Byte.ofInt opcode) operand) := by
  have hkept := m.put_of_keeps (Address.ofInt address) (Byte.ofInt opcode) operand h
  have hlost := m.put_of_not_keeps (Address.ofInt address) (Byte.ofInt opcode) operand h
  refine ⟨?_, ⟨fun hok => Classical.byContradiction fun hall => ?_, ?_⟩, ?_, ?_, fun b hb => ?_⟩
  · rw [memory_put, accesses_put, replay_append, replay_writes, replay_verifyingReads]
  · simp only [Address.ofInt_add] at hall
    obtain ⟨i, hi, -, -, herror, -⟩ := hlost hall
    rw [hok] at herror
    cases herror
  · simp only [Address.ofInt_add]
    exact fun hall => (hkept hall).1
  · simp only [Address.ofInt_add]
    exact fun hall => (hkept hall).2
  · simp only [Address.ofInt_add]
    exact hlost
  · rw [memory_put]
    have hframe := m.changedWithin_writeAll (Address.ofInt address) (Byte.ofInt opcode :: operand) h
    rcases hb with houtside | hprotected
    · refine hframe.read_eq_of_not ?_
      rintro ⟨i, hi, rfl⟩
      exact houtside i hi (Address.ofInt_add address i).symm
    · exact hframe.read_eq_of_protected (isWritable_eq_false hprotected)

/-- Three bytes from `$FFFF` on, where no memory is and `$FF` is kept; the second is lost in ROM at
`$0000`, and the third is written but not read. -/
theorem put_verified_past_top :
    let m : Memory :=
      ⟨[⟨0, 0, by decide⟩], [⟨0xFFFF, 0xFFFF, by decide⟩], Vector.replicate 65536 0x35⟩
    let x := m.put (Address.ofInt (-1)) (Byte.ofInt 0x1FF) [0x34, 0x12]
    [(0x34 : Byte), 0x12].length + 1 ≤ 65536 ∧
      Verified m (-1) (Byte.ofInt 0x1FF :: [0x34, 0x12]) x ∧
      x.accesses = [.write 0xFFFF 0xFF, .write 0x0000 0x34, .write 0x0001 0x12,
        .read 0xFFFF 0xFF, .read 0x0000 0x35] :=
  ⟨by decide, put_verified _ _ _ _ (by decide), by decide +kernel⟩

end LineMonitor.Memory
