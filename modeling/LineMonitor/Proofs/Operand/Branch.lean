import LineMonitor.Proofs.Listing.Rows
import Mathlib.Data.Int.ModEq

/-!
# Branches

A distance leads from a branch to its target if the address of the next instruction and the distance
make up the target modulo 65536 (`LeadsTo`).  Two such distances differ by a multiple of 65536, so
just one lies between -32768 and 32767 (`branchDistance_eq_iff_isSignedWord`), and at most one fits
a signed byte (`IsShort.unique`).  `branchOffset_solves` says that this one is found if there is
one, that otherwise the branch is refused for the other, and that a branch encoded with it is listed
with its target.
-/

namespace LineMonitor

/-- The distance leads from a branch of `length` bytes at `address` to the target. -/
def LeadsTo (target address length d : Int) : Prop :=
  target ≡ address + length + d [ZMOD 65536]

/-- A distance that fits a signed byte. -/
def IsShort (d : Int) : Prop :=
  -128 ≤ d ∧ d ≤ 127

/-- The number of sixteen bits, with its sign, that is congruent to another. -/
def IsSignedWord (offset n : Int) : Prop :=
  (-32768 ≤ offset ∧ offset ≤ 32767) ∧ offset ≡ n [ZMOD 65536]

section Solutions

variable {target address length d : Int}

theorem leadsTo_iff_emod :
    LeadsTo target address length d ↔ (target - (address + length + d)) % 65536 = 0 := by
  rw [LeadsTo, Int.ModEq]
  omega

/-- A distance leads to the target exactly if it is congruent to what lies between. -/
theorem leadsTo_iff_modEq :
    LeadsTo target address length d ↔ d ≡ target - address - length [ZMOD 65536] := by
  rw [LeadsTo, Int.ModEq, Int.ModEq]
  omega

/-- Distances that lead to the same target, and lie less than 65536 apart, are the same. -/
theorem LeadsTo.unique {d' : Int} (h : LeadsTo target address length d)
    (h' : LeadsTo target address length d') (hlow : d - d' < 65536) (hhigh : d' - d < 65536) :
    d = d' := by
  rw [leadsTo_iff_emod] at h h'
  omega

theorem IsShort.unique {d' : Int} (hd : IsShort d) (hd' : IsShort d')
    (h : LeadsTo target address length d) (h' : LeadsTo target address length d') : d = d' := by
  obtain ⟨hlow, hhigh⟩ := hd
  obtain ⟨hlow', hhigh'⟩ := hd'
  exact h.unique h' (by omega) (by omega)

/-- One distance between -32768 and 32767 leads to the target. -/
theorem branchDistance_eq_iff_isSignedWord :
    branchDistance target address length = d ↔ IsSignedWord d (target - address - length) := by
  rw [branchDistance_eq_iff, ← leadsTo_iff_emod, leadsTo_iff_modEq, IsSignedWord]

/-- The distance that is found is the short one that leads to the target. -/
theorem branchOffset_eq_ok_iff_leadsTo :
    branchOffset target address length = .ok d ↔ IsShort d ∧ LeadsTo target address length d := by
  rw [branchOffset_eq_ok_iff, leadsTo_iff_emod, IsShort]

/-- Otherwise the distance is reported that leads to the target though it is not short. -/
theorem branchOffset_eq_error_iff {fault : Fault} :
    branchOffset target address length = .error fault ↔
      (¬ ∃ d, IsShort d ∧ LeadsTo target address length d) ∧
        ∃ offset, IsSignedWord offset (target - address - length) ∧
          fault = ⟨.branchOutOfReach target offset, some address⟩ := by
  have hword : IsSignedWord (branchDistance target address length) (target - address - length) :=
    branchDistance_eq_iff_isSignedWord.mp rfl
  constructor
  · intro h
    refine ⟨?_, _, hword, ?_⟩
    · rintro ⟨d, hd⟩
      rw [branchOffset_eq_ok_iff_leadsTo.mpr hd] at h
      cases h
    · simp only [branchOffset] at h
      split at h
      · cases h
      · exact (Except.error.inj h).symm
  · rintro ⟨hnone, offset, hoffset, rfl⟩
    rw [← branchDistance_eq_iff_isSignedWord.mpr hoffset]
    simp only [branchOffset]
    rw [if_neg]
    intro hshort
    exact hnone ⟨_, hshort, leadsTo_iff_modEq.mpr hword.2⟩

end Solutions

/-! ## Branches in code -/

/-- The target of a branch is read back from its distance, modulo 65536. -/
theorem Operand.decode_encode_relative (target address : Int) :
    (Operand.encode ⟨.relative, target⟩ address 2).map (decode .relative · address) =
      (branchOffset target address 2).map fun _ => ⟨.relative, target % 65536⟩ := by
  simp only [encode]
  cases hoffset : branchOffset target address 2 with
  | error fault => rfl
  | ok d =>
    have htarget := branchTarget_ofInt hoffset
    simp only [Except.map, decode, List.headD_cons, htarget]

/-- A branch is listed with its target in four digits, whatever follows it. -/
theorem Encoding.listed_relative {e : Encoding} (he : e ∈ all) (hmode : e.mode = .relative)
    (target address : Int) (rest : List Byte) :
    (Operand.encode ⟨.relative, target⟩ address e.length).map
        (fun data => (Row.ofCode address e.opcode (data ++ rest)).operand) =
      (branchOffset target address 2).map fun _ => Hex.ofInt 4 (target % 65536) := by
  have hlength : (e.length : Int) = 2 := by
    rw [length, hmode]
    rfl
  -- the row has the text of the operand that the bytes are decoded to
  have hrow : (Operand.encode ⟨.relative, target⟩ address 2).map
      (fun data => (Row.ofCode address e.opcode (data ++ rest)).operand) =
        ((Operand.encode ⟨.relative, target⟩ address 2).map
          (Operand.decode .relative · address)).map Operand.text := by
    cases hencode : Operand.encode ⟨.relative, target⟩ address 2 with
    | error fault => rfl
    | ok data =>
      have hsize : data.length = e.mode.operandLength := by
        rw [hmode]
        exact Operand.length_of_encode hencode
      simp only [Except.map, Row.ofCode_of_complete he address hsize, row, hmode]
  rw [hlength, hrow, Operand.decode_encode_relative]
  cases branchOffset target address 2 with
  | error fault => rfl
  | ok d => exact congrArg Except.ok (Operand.text_relative _)

/-! ## The equation of a branch -/

/-- What becomes of a branch of `length` bytes at `address` to `target`, which may be any
integers. -/
structure BranchSolved (target address length : Int) : Prop where
  /-- A distance is found exactly if it fits a signed byte and leads to the target. -/
  ok_iff : ∀ d, branchOffset target address length = .ok d ↔
    IsShort d ∧ LeadsTo target address length d
  /-- There is no second one. -/
  unique : ∀ d d', IsShort d ∧ LeadsTo target address length d →
    IsShort d' ∧ LeadsTo target address length d' → d = d'
  /-- The branch is refused exactly if there is none, and then for the distance of sixteen bits with
  its sign. -/
  error_iff : ∀ fault, branchOffset target address length = .error fault ↔
    (¬ ∃ d, IsShort d ∧ LeadsTo target address length d) ∧
      ∃ offset, IsSignedWord offset (target - address - length) ∧
        fault = ⟨.branchOutOfReach target offset, some address⟩
  /-- There is one such distance and no second. -/
  existsUnique_isSignedWord : ∃! offset, IsSignedWord offset (target - address - length)
  /-- In two bytes the branch is encoded exactly if a distance is found, and decoded at the same
  address it has the target modulo 65536. -/
  decoded : (Operand.encode ⟨.relative, target⟩ address 2).map
      (Operand.decode .relative · address) =
    (branchOffset target address 2).map fun _ => ⟨.relative, target % 65536⟩
  /-- So does the row of every branch in a listing. -/
  listed : ∀ e ∈ Encoding.all, e.mode = .relative → ∀ rest,
    (Operand.encode ⟨.relative, target⟩ address e.length).map
        (fun data => (Row.ofCode address e.opcode (data ++ rest)).operand) =
      (branchOffset target address 2).map fun _ => Hex.ofInt 4 (target % 65536)

/-- The distance that is found solves the equation of the branch, for all integers. -/
theorem branchOffset_solves (target address length : Int) :
    BranchSolved target address length where
  ok_iff _ := branchOffset_eq_ok_iff_leadsTo
  unique _ _ h h' := h.1.unique h'.1 h.2 h'.2
  error_iff _ := branchOffset_eq_error_iff
  existsUnique_isSignedWord := by
    refine ⟨_, branchDistance_eq_iff_isSignedWord.mp rfl, fun offset hoffset => ?_⟩
    exact (branchDistance_eq_iff_isSignedWord.mpr hoffset).symm
  decoded := Operand.decode_encode_relative target address
  listed _ he hmode rest := Encoding.listed_relative he hmode target address rest

example :
    branchOffset 0x0001 0xFFFE 2 = .ok 1 ∧ branchOffset 0x5FFF 0x607F 2 = .error
      ⟨.branchOutOfReach 0x5FFF (-130), some 0x607F⟩ := by
  decide

end LineMonitor
