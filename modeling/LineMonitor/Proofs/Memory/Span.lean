import LineMonitor.Placement

/-!
# Spans of memory

A span is a row of addresses that begins somewhere and may run past `$FFFF` to `$0000`.
`Address.offset a b` says how far `b` lies above `a`, so the span of `n` bytes from `a` on
holds the addresses `b` with `a.offset b < n`.  All that is said about reading and writing
several bytes is said through this number, and no separate case is made of spans that wrap.

The main statement is `Memory.read_writeAll`: writing bytes from an address on changes the
writable addresses of their span to these bytes and no other address.
-/

namespace LineMonitor

namespace Address

/-! ## Offsets -/

/-- How many places `b` lies above `a`, counted past the top of memory if need be. -/
def offset (a b : Address) : Nat :=
  (b - a).toNat

theorem offset_lt (a b : Address) : a.offset b < 65536 :=
  (b - a).isLt

theorem toNat_after (a : Address) (n : Nat) : (a.after n).toNat = (a.toNat + n) % 65536 := by
  simp [after, BitVec.toNat_add]

/-- Going up `n` places and then `k` is going up `n + k` places. -/
theorem after_after (a : Address) (n k : Nat) : (a.after n).after k = a.after (n + k) := by
  unfold after
  rw [BitVec.ofNat_add, BitVec.add_assoc]

theorem after_one_after (a : Address) (n : Nat) : (a.after 1).after n = a.after (n + 1) := by
  rw [after_after, Nat.add_comm]

/-- Every address is reached from every other. -/
theorem after_offset (a b : Address) : a.after (a.offset b) = b := by
  apply BitVec.eq_of_toNat_eq
  have ha := a.isLt
  have hb := b.isLt
  rw [toNat_after, offset, BitVec.toNat_sub]
  omega

theorem offset_after (a : Address) {n : Nat} (h : n < 65536) : a.offset (a.after n) = n := by
  have ha := a.isLt
  rw [offset, BitVec.toNat_sub, toNat_after]
  omega

@[simp] theorem offset_self (a : Address) : a.offset a = 0 := by
  simp [offset]

/-- Seen from `n` places further up, an address that is not passed lies `n` places nearer. -/
theorem offset_after_left (a b : Address) {n : Nat} (h : n ≤ a.offset b) :
    (a.after n).offset b = a.offset b - n := by
  have hlt := offset_lt a b
  have hb : (a.after n).after (a.offset b - n) = b := by
    rw [after_after, Nat.add_sub_cancel' h, after_offset]
  have hn : (a.after n).offset ((a.after n).after (a.offset b - n)) = a.offset b - n :=
    offset_after _ (by omega)
  rwa [hb] at hn

/-- Seen from `n` places further up, an address that was passed lies almost once around. -/
theorem offset_after_left_of_lt (a b : Address) {n : Nat} (hn : n ≤ 65536)
    (h : a.offset b < n) : (a.after n).offset b = a.offset b + (65536 - n) := by
  have ha := a.isLt
  have hb := b.isLt
  simp only [offset, BitVec.toNat_sub, toNat_after] at h ⊢
  omega

/-- Counting up from the number of an address, taken modulo 65536, gives the addresses after
it. -/
theorem toNat_add_emod (a : Address) (n : Nat) :
    ((a.toNat : Int) + n) % 65536 = (a.after n).toNat := by
  rw [toNat_after]
  omega

/-- Adding to the number of an address goes up as many places. -/
theorem ofInt_add (n : Int) (k : Nat) : Address.ofInt (n + k) = (Address.ofInt n).after k := by
  apply BitVec.eq_of_toNat_eq
  rw [toNat_after, toNat_ofInt, toNat_ofInt]
  omega

theorem natCast_toNat_ofInt (n : Int) : ((Address.ofInt n).toNat : Int) = n % 65536 := by
  rw [toNat_ofInt]
  exact Int.toNat_of_nonneg (Int.emod_nonneg n (by decide))

theorem ofInt_toNat (a : Address) : Address.ofInt a.toNat = a := by
  apply BitVec.eq_of_toNat_eq
  have ha := a.isLt
  rw [toNat_ofInt]
  omega

theorem ofInt_toNat_add (a : Address) (n : Nat) : Address.ofInt (a.toNat + n) = a.after n := by
  rw [ofInt_add, ofInt_toNat]

end Address

namespace Memory

/-! ## Reading a span -/

theorem bytes_zero (m : Memory) (a : Address) : m.bytes a 0 = [] := rfl

/-- The bytes of a span are its first byte and those of the span after it. -/
theorem bytes_succ (m : Memory) (a : Address) (n : Nat) :
    m.bytes a (n + 1) = m.read a :: m.bytes (a.after 1) n := by
  simp only [bytes, List.range_succ_eq_map, List.map_cons, List.map_map, Address.after_zero]
  congr 1
  apply List.map_congr_left
  intro i _
  simp [Address.after_one_after]

/-- A span of `n + k` bytes is one of `n` bytes and one of `k` bytes behind it. -/
theorem bytes_add (m : Memory) (a : Address) (n k : Nat) :
    m.bytes a (n + k) = m.bytes a n ++ m.bytes (a.after n) k := by
  induction n generalizing a with
  | zero => simp [bytes_zero]
  | succ n ih =>
    rw [Nat.succ_add, bytes_succ, bytes_succ, ih, Address.after_after, List.cons_append,
      Nat.add_comm 1 n]

/-- The bytes of a span that lies within another one. -/
theorem take_drop_bytes (m : Memory) (a : Address) {n k t : Nat} (h : k + t ≤ n) :
    ((m.bytes a n).drop k).take t = m.bytes (a.after k) t := by
  have hparts : m.bytes a n = m.bytes a k ++ (m.bytes (a.after k) t ++
      m.bytes ((a.after k).after t) (n - k - t)) := by
    rw [← bytes_add, ← bytes_add]
    congr 1
    omega
  rw [hparts, List.drop_left' (m.length_bytes a k), List.take_left' (m.length_bytes _ t)]

theorem getElem_bytes (m : Memory) (a : Address) (n i : Nat) (h : i < (m.bytes a n).length) :
    (m.bytes a n)[i] = m.read (a.after i) := by
  simp [bytes]

/-- Two memories that read alike on a span have the same bytes there. -/
theorem bytes_congr {m m' : Memory} {a : Address} {n : Nat}
    (h : ∀ b, a.offset b < n → m.read b = m'.read b) (hn : n ≤ 65536) :
    m.bytes a n = m'.bytes a n := by
  unfold bytes
  apply List.map_congr_left
  intro i hi
  have hlt : i < n := List.mem_range.mp hi
  apply h
  rwa [Address.offset_after a (by omega)]

/-! ## Writing a span -/

@[simp] theorem writeAll_nil (m : Memory) (a : Address) : m.writeAll a [] = m := rfl

@[simp] theorem writeAll_cons (m : Memory) (a : Address) (value : Byte) (rest : List Byte) :
    m.writeAll a (value :: rest) = (m.write a value).writeAll (a.after 1) rest := rfl

/-- Writing bytes is writing some of them and then the others behind them. -/
theorem writeAll_append (m : Memory) (a : Address) (front back : List Byte) :
    m.writeAll a (front ++ back) = (m.writeAll a front).writeAll (a.after front.length) back := by
  induction front generalizing m a with
  | nil => simp
  | cons value front ih =>
    simp only [List.cons_append, writeAll_cons, ih, Address.after_after, List.length_cons]
    rw [Nat.add_comm 1]

@[simp] theorem isWritable_writeAll (m : Memory) (a b : Address) (data : List Byte) :
    (m.writeAll a data).isWritable b = m.isWritable b := by
  induction data generalizing m a with
  | nil => rfl
  | cons value rest ih => rw [writeAll_cons, ih, isWritable_write]

/-- An address outside the span, and one that is protected, reads as before. -/
theorem read_writeAll_of_not (m : Memory) (a b : Address) (data : List Byte)
    (h : ¬ (a.offset b < data.length ∧ m.isWritable b = true)) (hn : data.length ≤ 65536) :
    (m.writeAll a data).read b = m.read b := by
  induction data generalizing m a with
  | nil => rfl
  | cons value rest ih =>
    rw [List.length_cons] at h hn
    rw [writeAll_cons, ih _ _ _ (by omega), read_write]
    · rw [if_neg]
      rintro ⟨rfl, hw⟩
      exact h ⟨by simp, hw⟩
    · rintro ⟨hoff, hw⟩
      rw [isWritable_write] at hw
      refine h ⟨?_, hw⟩
      by_cases hz : 1 ≤ a.offset b
      · rw [Address.offset_after_left a b hz] at hoff
        omega
      · omega

/-- A writable address of the span reads the byte written there. -/
theorem read_writeAll_after (m : Memory) (a : Address) (data : List Byte) (i : Nat)
    (hi : i < data.length) (hn : data.length ≤ 65536) (hw : m.isWritable (a.after i) = true) :
    (m.writeAll a data).read (a.after i) = data[i] := by
  induction data generalizing m a i with
  | nil => simp at hi
  | cons value rest ih =>
    rw [List.length_cons] at hi hn
    rw [writeAll_cons]
    cases i with
    | zero =>
      rw [Address.after_zero] at hw ⊢
      have hpassed : (a.after 1).offset a = 65535 := by
        rw [Address.offset_after_left_of_lt a a (by omega) (by simp), Address.offset_self]
      rw [read_writeAll_of_not _ _ _ _ (by omega) (by omega), read_write, if_pos ⟨rfl, hw⟩]
      rfl
    | succ i =>
      rw [← Address.after_one_after a i] at hw ⊢
      rw [ih _ _ i (by omega) (by omega) (by rwa [isWritable_write])]
      rfl

/-- What an address reads after bytes were written from `a` on. -/
theorem read_writeAll (m : Memory) (a b : Address) (data : List Byte)
    (hn : data.length ≤ 65536) :
    (m.writeAll a data).read b =
      if h : a.offset b < data.length ∧ m.isWritable b = true then data[a.offset b]
      else m.read b := by
  by_cases h : a.offset b < data.length ∧ m.isWritable b = true
  · obtain ⟨hoff, hw⟩ := h
    have hb := Address.after_offset a b
    have hread := read_writeAll_after m a data _ hoff hn (by rwa [hb])
    rw [hb] at hread
    rw [dif_pos ⟨hoff, hw⟩, hread]
  · rw [dif_neg h, read_writeAll_of_not m a b data h hn]

/-- Writing bytes changes no reading exactly if what can be written of their span held them
already. -/
theorem read_writeAll_eq_iff (m : Memory) {a : Address} {data : List Byte}
    (hn : data.length ≤ 65536) :
    (∀ b, (m.writeAll a data).read b = m.read b) ↔
      ∀ b (h : a.offset b < data.length), m.isWritable b = true → m.read b = data[a.offset b] := by
  simp only [m.read_writeAll a _ data hn]
  constructor
  · intro hsame b hspan hw
    rw [← hsame b, dif_pos ⟨hspan, hw⟩]
  · intro hheld b
    by_cases h : a.offset b < data.length ∧ m.isWritable b = true
    · rw [dif_pos h, hheld b h.1 h.2]
    · rw [dif_neg h]

/-- Bytes written to a writable span are there afterwards. -/
theorem bytes_writeAll (m : Memory) (a : Address) (data : List Byte) (hn : data.length ≤ 65536)
    (hw : ∀ i, i < data.length → m.isWritable (a.after i) = true) :
    (m.writeAll a data).bytes a data.length = data := by
  apply List.ext_getElem
  · simp
  · intro i _ hi
    rw [getElem_bytes, read_writeAll_after m a data i hi hn (hw i hi)]

end Memory

end LineMonitor
