import LineMonitor.Session
import LineMonitor.Proofs.Listing.Tiling

/-!
# Listing memory

The session takes three bytes of memory for every instruction it is to list.  No instruction is
longer, so what it lists is what stands in memory at each address (`Memory.rows_bytes`): the row
`Memory.row` there, and then the row at the address that `Memory.following` gives.  In this form it
does not matter how many instructions are listed at once (`Session.list_exact`).
-/

namespace LineMonitor

namespace Memory

/-! ## The instruction at an address -/

/-- The row of the instruction at an address, as memory reads from there on. -/
def row (m : Memory) (a : Address) : Row :=
  Row.decode a.toNat (m.read a) (m.bytes a)

/-- The address behind the instruction at an address. -/
def following (m : Memory) (a : Address) : Address :=
  a.after (m.row a).size

theorem take_bytes (m : Memory) (a : Address) {n k : Nat} (h : k ≤ n) :
    (m.bytes a n).take k = m.bytes a k := by
  obtain ⟨t, rfl⟩ := Nat.exists_eq_add_of_le h
  rw [bytes_add, List.take_left' (m.length_bytes a k)]

theorem drop_bytes (m : Memory) (a : Address) {n k : Nat} (h : k ≤ n) :
    (m.bytes a n).drop k = m.bytes (a.after k) (n - k) := by
  obtain ⟨t, rfl⟩ := Nat.exists_eq_add_of_le h
  rw [bytes_add, List.drop_left' (m.length_bytes a k), Nat.add_sub_cancel_left]

/-- Three bytes of memory are enough for the row of the instruction there. -/
theorem ofCode_bytes (m : Memory) (a : Address) {n : Nat} (h : 2 ≤ n) :
    Row.ofCode a.toNat (m.read a) (m.bytes (a.after 1) n) = m.row a := by
  rw [Row.ofCode, ← bytes_succ, row, Row.decode, Row.decode]
  cases Encoding.ofOpcode? (m.read a) with
  | none => rfl
  | some e =>
    have hfetch : (m.bytes a (n + 1)).take e.length = m.bytes a e.length :=
      m.take_bytes a (e.length_le_three.trans (by omega))
    dsimp only
    rw [hfetch]

@[simp] theorem address_row (m : Memory) (a : Address) : (m.row a).address = a.toNat := by
  rw [← m.ofCode_bytes a (Nat.le_refl 2), Row.address_ofCode]

theorem size_row_bounds (m : Memory) (a : Address) : 1 ≤ (m.row a).size ∧ (m.row a).size ≤ 3 := by
  rw [← m.ofCode_bytes a (Nat.le_refl 2)]
  exact Row.size_bounds_ofCode _ _ _

/-- Memory does not end, so no instruction in it is cut off. -/
theorem comment_row_ne (m : Memory) (a : Address) :
    (m.row a).comment ≠ "incomplete instruction" := by
  intro hcomment
  -- a row that is cut off shows all of the code, and so four bytes of memory
  have hshort := (m.size_row_bounds a).2
  rw [← m.ofCode_bytes a (show 2 ≤ 3 by decide)] at hcomment hshort
  rw [Row.size, (Row.shows_ofCode _ _ _).2 hcomment, List.length_cons, length_bytes] at hshort
  omega

/-- The rows of bytes from memory are those of the instructions there, if there are three bytes for
each. -/
theorem rows_bytes (m : Memory) {k n : Nat} (h : 3 * k ≤ n) (a : Address) :
    rows k a.toNat (m.bytes a n) = (List.range k).map fun i => m.row (m.following^[i] a) := by
  induction k generalizing n a with
  | zero => rfl
  | succ k ih =>
    obtain ⟨n, rfl⟩ := Nat.exists_eq_add_of_le' (show 1 ≤ n by omega)
    obtain ⟨hpos, hle⟩ := m.size_row_bounds a
    have hplace : (a.after 1).after ((m.row a).size - 1) = m.following a := by
      rw [Address.after_after, following, Nat.add_sub_cancel' hpos]
    rw [bytes_succ, rows, m.ofCode_bytes a (by omega), Address.toNat_add_emod,
      m.drop_bytes _ (by omega), hplace, ← following, ih (by omega), List.range_succ_eq_map,
      List.map_cons, List.map_map]
    rfl

end Memory

namespace Session

/-- The bytes that are taken for a number of instructions are enough for them; for a negative number
there are none. -/
theorem listing_window (s : Session) (a : Address) (n : Int) :
    listing a.toNat (s.memory.bytes a (n * longestInstruction).toNat) (some n) =
      (List.range n.toNat).map fun k => s.memory.row (s.memory.following^[k] a) := by
  have hwindow : (n * longestInstruction).toNat = 3 * n.toNat := by
    rw [longestInstruction]
    omega
  rw [hwindow]
  exact s.memory.rows_bytes (Nat.le_refl _) a

/-- The session lists the instructions that stand in memory one behind the other, and comes to the
address behind them. -/
theorem list_eq (s : Session) (a : Address) (n : Nat) :
    s.list a.toNat (some n) =
      ((List.range n).map fun k =>
        .printed ((s.memory.row (s.memory.following^[k] a)).line ++ "\n"),
      s.memory.following^[n] a) := by
  have hlisting := s.listing_window a n
  rw [Int.toNat_natCast] at hlisting
  simp only [list, Option.getD_some, Address.ofInt_toNat, hlisting, List.map_map]
  cases n with
  | zero => rfl
  | succ n =>
    rw [List.getLast?_map, List.getLast?_range]
    simp [Address.ofInt_toNat_add, Function.iterate_succ_apply', Memory.following]

/-- The rows that the session lists from an address on. -/
def shown (s : Session) (a : Address) : List Row :=
  (List.range s.listCount.toNat).map fun k => s.memory.row (s.memory.following^[k] a)

/-- The address behind rows that are listed from an address on. -/
def behind (a : Address) (rows : List Row) : Address :=
  (rows.getLast?.map fun row => Address.ofInt (row.address + row.size)).getD a

/-- Without a number of instructions the session lists as many as its settings say. -/
theorem list_shown (s : Session) (a : Address) :
    s.list a.toNat =
      ((s.shown a).map fun row => .printed (row.line ++ "\n"), behind a (s.shown a)) := by
  simp only [list, Option.getD_none, Address.ofInt_toNat, s.listing_window]
  rw [← shown, behind]
  cases (s.shown a).getLast? with
  | none => rfl
  | some row => rfl

/-- A listing shows memory as it is, instruction by instruction, and a longer one is a shorter one
with another behind it from the address that the shorter one came to. -/
theorem list_exact (s : Session) (a : Address) (m n : Nat) :
    let row := fun k => s.memory.row (s.memory.following^[k] a)
    let first := s.list a.toNat (some m)
    let second := s.list first.2.toNat (some n)
    (first.1 = (List.range m).map (fun k => .printed ((row k).line ++ "\n")) ∧
      (∀ k, (row k).comment ≠ "incomplete instruction") ∧
      first.2 = s.memory.following^[m] a ∧
      (s.perform (.list a)).1.memory = s.memory) ∧
    s.list a.toNat (some (m + n : Nat)) = (first.1 ++ second.1, second.2) := by
  intro row first second
  have hfirst := s.list_eq a m
  have hplace : ∀ k, s.memory.following^[k] (s.memory.following^[m] a) =
      s.memory.following^[m + k] a := by
    intro k
    rw [← Function.iterate_add_apply, Nat.add_comm]
  have hsecond : second = _ := s.list_eq first.2 n
  refine ⟨⟨congrArg Prod.fst hfirst, fun k => s.memory.comment_row_ne _, congrArg Prod.snd hfirst,
    rfl⟩, ?_⟩
  rw [hsecond, s.list_eq a (m + n), show first = _ from hfirst]
  simp only [hplace, List.range_add, List.map_append, List.map_map, Function.comp_def]

end Session

end LineMonitor
