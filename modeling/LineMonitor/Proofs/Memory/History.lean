import LineMonitor.Proofs.Memory.Replay
import LineMonitor.Proofs.Memory.Span
import Mathlib.Data.Int.ModEq
import Mathlib.Data.List.Forall2

/-!
# Memory under any calls

The addresses and values of a call may be any integers (`Memory.Call`).  What calls store is a list
of bytes with their addresses, in order, and for each address the last of them counts
(`lastStored`).  One call leaves a cell with the last byte that it stores there, or as it was
(`Memory.cell_call`), and so does a sequence of calls (`Memory.cell_afterCalls`).
`Memory.underCalls_answers` says from this what every later call gives.
-/

namespace LineMonitor

/-- One of the regions holds the address of this number. -/
def InRegions (regions : List Region) (n : Int) : Prop :=
  ∃ r ∈ regions, (r.first.toNat : Int) ≤ n ∧ n ≤ r.last.toNat

instance (regions : List Region) (n : Int) : Decidable (InRegions regions n) :=
  inferInstanceAs (Decidable (∃ r ∈ regions, _))

/-- An address lies in a region exactly if its number does. -/
theorem any_contains_iff {regions : List Region} {a : Address} :
    regions.any (·.contains a) = true ↔ InRegions regions a.toNat := by
  rw [List.any_eq_true]
  refine exists_congr fun r => and_congr_right fun _ => ?_
  rw [Region.contains, Bool.and_eq_true, decide_eq_true_eq, decide_eq_true_eq, BitVec.le_def,
    BitVec.le_def, Int.ofNat_le, Int.ofNat_le]

theorem Address.ofInt_eq_iff {n : Int} {a : Address} : ofInt n = a ↔ n % 65536 = a.toNat := by
  rw [← natCast_toNat_ofInt, Int.natCast_inj, BitVec.toNat_inj]

theorem Address.ofInt_congr {n n' : Int} (h : n ≡ n' [ZMOD 65536]) : ofInt n = ofInt n' := by
  rw [ofInt_eq_iff, natCast_toNat_ofInt]
  exact h

theorem Byte.natCast_toNat_ofInt (n : Int) : ((ofInt n).toNat : Int) = n % 256 := by
  rw [toNat_ofInt]
  exact Int.toNat_of_nonneg (Int.emod_nonneg n (by decide))

/-! ## What is stored -/

/-- Bytes with the numbers of the addresses that they are stored at, from an address on. -/
def storedFrom (address : Int) : List Byte → List (Int × Int)
  | [] => []
  | value :: rest => (address % 65536, value.toNat) :: storedFrom (address + 1) rest

/-- The byte that is stored last at an address, if there is one. -/
def lastStored (stored : List (Int × Int)) (n : Int) : Option Int :=
  stored.reverse.lookup n

@[simp] theorem lastStored_nil (n : Int) : lastStored [] n = none := rfl

theorem lastStored_append (front back : List (Int × Int)) (n : Int) :
    lastStored (front ++ back) n = (lastStored back n).or (lastStored front n) := by
  rw [lastStored, List.reverse_append, List.lookup_append, lastStored, lastStored]

theorem lastStored_singleton (place value n : Int) :
    lastStored [(place, value)] n = if place = n then some value else none := by
  by_cases h : place = n
  · simp [lastStored, h]
  · simp [lastStored, h, Ne.symm h]

theorem lastStored_cons (place value : Int) (rest : List (Int × Int)) (n : Int) :
    lastStored ((place, value) :: rest) n =
      (lastStored rest n).or (if place = n then some value else none) := by
  rw [← List.singleton_append, lastStored_append, lastStored_singleton]

namespace Memory

/-- A use of memory from outside. -/
inductive Call where
  | write (address value : Int)
  | load (address : Int) (data : List Byte)
  | read (address : Int)
  | dump (address length : Int)
  deriving DecidableEq, Repr

namespace Call

/-- Whether the call is one that stores bytes. -/
def isStore : Call → Bool
  | write .. | load .. => true
  | read .. | dump .. => false

/-- What a call stores, in order.  A write stores nothing where a region of either kind is; an image
is stored whatever protects it. -/
def stored (rom unmapped : List Region) : Call → List (Int × Int)
  | write address value =>
    if InRegions rom (address % 65536) ∨ InRegions unmapped (address % 65536) then []
    else [(address % 65536, value % 256)]
  | load address data => storedFrom address data
  | read .. | dump .. => []

/-- The same call at an address that may differ by a multiple of 65536. -/
inductive Congruent : Call → Call → Prop where
  | write {a a' : Int} (h : a ≡ a' [ZMOD 65536]) (value : Int) :
      Congruent (write a value) (write a' value)
  | load {a a' : Int} (h : a ≡ a' [ZMOD 65536]) (data : List Byte) :
      Congruent (load a data) (load a' data)
  | read {a a' : Int} (h : a ≡ a' [ZMOD 65536]) : Congruent (read a) (read a')
  | dump {a a' : Int} (h : a ≡ a' [ZMOD 65536]) (length : Int) :
      Congruent (dump a length) (dump a' length)

end Call

/-- The memory after a call, and the bytes that the call gives. -/
def call (m : Memory) : Call → Memory × List Byte
  | .write address value => (m.write (Address.ofInt address) (Byte.ofInt value), [])
  | .load address data => (m.load (Address.ofInt address) data, [])
  | .read address => (m, [m.read (Address.ofInt address)])
  | .dump address length => (m, m.bytes (Address.ofInt address) length.toNat)

/-- The memory after calls in order. -/
def afterCalls (m : Memory) : List Call → Memory
  | [] => m
  | c :: rest => afterCalls (m.call c).1 rest

/-- The memory after calls on one in which every byte was the same. -/
def underCalls (rom unmapped : List Region) (fill : Int) (calls : List Call) : Memory :=
  (filled rom unmapped (Byte.ofInt fill)).afterCalls calls

/-! ## One call -/

@[simp] theorem regions_load (m : Memory) (a : Address) (data : List Byte) :
    (m.load a data).rom = m.rom ∧ (m.load a data).unmapped = m.unmapped := by
  induction data generalizing m a with
  | nil => exact ⟨rfl, rfl⟩
  | cons value rest ih => exact ih (m.store a value) (a.after 1)

/-- A call leaves the regions as they are. -/
theorem regions_call (m : Memory) (c : Call) :
    (m.call c).1.rom = m.rom ∧ (m.call c).1.unmapped = m.unmapped := by
  cases c with
  | write address value => exact ⟨m.rom_write _ _, m.unmapped_write _ _⟩
  | load address data => exact m.regions_load _ _
  | read address => exact ⟨rfl, rfl⟩
  | dump address length => exact ⟨rfl, rfl⟩

/-- Of an image that comes back to its own start, the last bytes count. -/
theorem cell_load (m : Memory) (address : Int) (data : List Byte) (b : Address) :
    (((m.load (Address.ofInt address) data).cell b).toNat : Int) =
      (lastStored (storedFrom address data) b.toNat).getD (m.cell b).toNat := by
  induction data generalizing m address with
  | nil => rfl
  | cons value rest ih =>
    have hnext : (Address.ofInt address).after 1 = Address.ofInt (address + 1) :=
      (Address.ofInt_add address 1).symm
    rw [load, hnext, ih, storedFrom, lastStored_cons, cell_store]
    simp only [Address.ofInt_eq_iff]
    cases lastStored (storedFrom (address + 1) rest) b.toNat with
    | some later => rfl
    | none =>
      by_cases h : address % 65536 = b.toNat
      · simp [h]
      · simp [h]

theorem isWritable_iff {m : Memory} {a : Address} :
    m.isWritable a = true ↔ ¬ (InRegions m.rom a.toNat ∨ InRegions m.unmapped a.toNat) := by
  rw [isWritable, isMapped, inRom, Bool.and_eq_true, Bool.not_eq_true', Bool.not_eq_true',
    ← Bool.not_eq_true, ← Bool.not_eq_true, any_contains_iff, any_contains_iff, not_or]

/-- A call leaves in a cell the last byte that it stores there, or what was in it. -/
theorem cell_call (m : Memory) (c : Call) (b : Address) :
    (((m.call c).1.cell b).toNat : Int) =
      (lastStored (c.stored m.rom m.unmapped) b.toNat).getD (m.cell b).toNat := by
  cases c with
  | write address value =>
    have hplace : address % 65536 = (Address.ofInt address).toNat :=
      (Address.natCast_toNat_ofInt address).symm
    have hvalue := Byte.natCast_toNat_ofInt value
    rw [call, Call.stored, hplace, cell_write]
    by_cases hw : m.isWritable (Address.ofInt address) = true
    · rw [if_neg (isWritable_iff.mp hw), lastStored_singleton, ← hplace]
      by_cases h : address % 65536 = b.toNat
      · rw [if_pos ⟨Address.ofInt_eq_iff.mpr h, Address.ofInt_eq_iff.mpr h ▸ hw⟩, if_pos h, hvalue]
        rfl
      · rw [if_neg fun hb => h (Address.ofInt_eq_iff.mp hb.1), if_neg h]
        rfl
    · rw [if_pos (not_not.mp (mt isWritable_iff.mpr hw)), if_neg]
      · rfl
      · rintro ⟨rfl, hb⟩
        exact hw hb
  | load address data => exact m.cell_load address data b
  | read address => rfl
  | dump address length => rfl

/-- A call at an address that differs by a multiple of 65536 is the same call. -/
theorem call_eq_of_congruent {c c' : Call} (h : c.Congruent c') (m : Memory) :
    m.call c = m.call c' := by
  cases h with
  | write h value => rw [call, call, Address.ofInt_congr h]
  | load h data => rw [call, call, Address.ofInt_congr h]
  | read h => rw [call, call, Address.ofInt_congr h]
  | dump h length => rw [call, call, Address.ofInt_congr h]

/-- A call that stores nothing leaves memory as it is. -/
theorem call_of_not_isStore {c : Call} (h : c.isStore = false) (m : Memory) :
    (m.call c).1 = m := by
  cases c with
  | write address value => cases h
  | load address data => cases h
  | read address => rfl
  | dump address length => rfl

/-! ## Calls in order -/

theorem regions_afterCalls (m : Memory) (calls : List Call) :
    (m.afterCalls calls).rom = m.rom ∧ (m.afterCalls calls).unmapped = m.unmapped := by
  induction calls generalizing m with
  | nil => exact ⟨rfl, rfl⟩
  | cons c rest ih =>
    obtain ⟨hrom, hunmapped⟩ := m.regions_call c
    rw [afterCalls, (ih _).1, (ih _).2, hrom, hunmapped]
    exact ⟨rfl, rfl⟩

/-- Calls leave in a cell the last byte that is stored there by any of them, or what was in it. -/
theorem cell_afterCalls (m : Memory) (calls : List Call) (b : Address) :
    (((m.afterCalls calls).cell b).toNat : Int) =
      (lastStored (calls.flatMap (Call.stored m.rom m.unmapped)) b.toNat).getD
        (m.cell b).toNat := by
  induction calls generalizing m with
  | nil => rfl
  | cons c rest ih =>
    obtain ⟨hrom, hunmapped⟩ := m.regions_call c
    rw [afterCalls, ih, hrom, hunmapped, cell_call, List.flatMap_cons, lastStored_append]
    cases lastStored (rest.flatMap (Call.stored m.rom m.unmapped)) b.toNat with
    | some later => rfl
    | none => rfl

theorem afterCalls_eq_of_congruent {calls calls' : List Call}
    (h : List.Forall₂ Call.Congruent calls calls') (m : Memory) :
    m.afterCalls calls = m.afterCalls calls' := by
  induction h generalizing m with
  | nil => rfl
  | cons hc hrest ih => rw [afterCalls, afterCalls, call_eq_of_congruent hc, ih]

/-- Of the calls only those count that store something. -/
theorem afterCalls_filter (m : Memory) (calls : List Call) :
    m.afterCalls (calls.filter (·.isStore)) = m.afterCalls calls := by
  induction calls generalizing m with
  | nil => rfl
  | cons c rest ih =>
    cases h : c.isStore with
    | true => rw [List.filter_cons_of_pos h, afterCalls, afterCalls, ih]
    | false =>
      rw [List.filter_cons_of_neg (by simp [h]), afterCalls, call_of_not_isStore h, ih]

section UnderCalls

variable (rom unmapped : List Region) (fill : Int) (calls : List Call) (n : Int)

theorem regions_underCalls : (underCalls rom unmapped fill calls).rom = rom ∧
    (underCalls rom unmapped fill calls).unmapped = unmapped :=
  regions_afterCalls _ calls

theorem inRom_underCalls : (underCalls rom unmapped fill calls).inRom (Address.ofInt n) = true ↔
    InRegions rom (n % 65536) := by
  rw [inRom, any_contains_iff, (regions_underCalls rom unmapped fill calls).1,
    Address.natCast_toNat_ofInt]

theorem isMapped_underCalls :
    (underCalls rom unmapped fill calls).isMapped (Address.ofInt n) = true ↔
      ¬ InRegions unmapped (n % 65536) := by
  rw [isMapped, Bool.not_eq_true', ← Bool.not_eq_true, any_contains_iff,
    (regions_underCalls rom unmapped fill calls).2, Address.natCast_toNat_ofInt]

/-- Memory that was filled reads as was stored last, and as `$FF` where it is unmapped. -/
theorem read_underCalls :
    (((underCalls rom unmapped fill calls).read (Address.ofInt n)).toNat : Int) =
      if InRegions unmapped (n % 65536) then 0xFF
      else (lastStored (calls.flatMap (Call.stored rom unmapped)) (n % 65536)).getD
        (fill % 256) := by
  have hmapped := isMapped_underCalls rom unmapped fill calls n
  have hcell := (filled rom unmapped (Byte.ofInt fill)).cell_afterCalls calls (Address.ofInt n)
  rw [cell_filled, Byte.natCast_toNat_ofInt, Address.natCast_toNat_ofInt] at hcell
  by_cases h : InRegions unmapped (n % 65536)
  · rw [read, if_neg (mt hmapped.mp (not_not.mpr h)), if_pos h]
    rfl
  · rw [read, if_pos (hmapped.mpr h), if_neg h]
    exact hcell

end UnderCalls

/-! ## What calls give -/

/-- What is said of memory after calls: of every further call, and of the calls themselves. -/
structure Answers (rom unmapped : List Region) (fill : Int) (calls : List Call) : Prop where
  /-- A byte that is read is `$FF` in an unmapped region, and otherwise the one stored last, or the
  byte that memory was filled with. -/
  read_eq : ∀ a, ((underCalls rom unmapped fill calls).call (.read a)).2.map
      (fun b => (b.toNat : Int)) =
    [if InRegions unmapped (a % 65536) then 0xFF
      else (lastStored (calls.flatMap (Call.stored rom unmapped)) (a % 65536)).getD (fill % 256)]
  /-- A dump gives what reading the addresses in order would give, and nothing if it has no
  length. -/
  dump_eq : ∀ a length, ((underCalls rom unmapped fill calls).call (.dump a length)).2 =
    (List.range length.toNat).flatMap fun i : Nat =>
      ((underCalls rom unmapped fill calls).call (.read (a + i))).2
  /-- A read or a dump changes nothing, and it makes no difference to have had it made. -/
  silent : ∀ c : Call, c.isStore = false →
    ((underCalls rom unmapped fill calls).call c).1 = underCalls rom unmapped fill calls
  stores_only : underCalls rom unmapped fill (calls.filter (·.isStore)) =
    underCalls rom unmapped fill calls
  /-- All that is given are bytes. -/
  byte_le : ∀ c, ∀ b ∈ ((underCalls rom unmapped fill calls).call c).2, b.toNat ≤ 255
  /-- An address may be replaced by another that is congruent to it, in every call. -/
  congruent : ∀ c c' : Call, c.Congruent c' → (underCalls rom unmapped fill calls).call c =
    (underCalls rom unmapped fill calls).call c'
  congruent_calls : ∀ calls', List.Forall₂ Call.Congruent calls calls' →
    underCalls rom unmapped fill calls = underCalls rom unmapped fill calls'
  /-- What protects an address stays what it was. -/
  inRom_iff : ∀ a, (underCalls rom unmapped fill calls).inRom (Address.ofInt a) = true ↔
    InRegions rom (a % 65536)
  isMapped_iff : ∀ a, (underCalls rom unmapped fill calls).isMapped (Address.ofInt a) = true ↔
    ¬ InRegions unmapped (a % 65536)

/-- Whatever calls were made, memory gives what was stored last. -/
theorem underCalls_answers (rom unmapped : List Region) (fill : Int) (calls : List Call) :
    Answers rom unmapped fill calls where
  read_eq a := by rw [call, List.map_singleton, read_underCalls]
  dump_eq a length := by simp only [call, bytes, Address.ofInt_add, List.map_eq_flatMap]
  silent c h := call_of_not_isStore h _
  stores_only := afterCalls_filter _ calls
  byte_le c b _ := Nat.le_of_lt_succ b.isLt
  congruent c c' h := call_eq_of_congruent h _
  congruent_calls calls' h := afterCalls_eq_of_congruent h _
  inRom_iff := inRom_underCalls rom unmapped fill calls
  isMapped_iff := isMapped_underCalls rom unmapped fill calls

-- the write to ROM does not count, and the image runs past the top of memory
example :
    let calls : List Call := [.load (-1) [1, 2, 3], .write 0x10000 9, .write 2 0x104]
    (((underCalls [⟨0, 1, by decide⟩] [] 0 calls).read (Address.ofInt 0)).toNat : Int) = 2 :=
  (read_underCalls _ _ _ _ 0).trans (by decide)

end Memory

end LineMonitor
