import LineMonitor.Operand.Coding
import LineMonitor.Proofs.Operand.Grammar

/-!
# Encoding and decoding of operands

Numbers are stored with the least significant byte first (`lowFirst`), and the target of a
branch as the distance that `branchOffset` finds and `branchTarget` undoes.  So `Operand.decode`
gives the operand that bytes stand for: an operand that fits its mode is read back from its bytes
(`Operand.decode_of_encode`), and the bytes are read back from the operand
(`Operand.encode_decode`).
-/

namespace LineMonitor

/-! ## Numbers in bytes -/

/-- A number in so many bytes, the least significant first. -/
def lowFirst : Nat → Int → List Byte
  | 0, _ => []
  | count + 1, value => Byte.ofInt value :: lowFirst count (value / 256)

@[simp] theorem length_lowFirst (count : Nat) (value : Int) :
    (lowFirst count value).length = count := by
  induction count generalizing value with
  | zero => rfl
  | succ count ih => rw [lowFirst, List.length_cons, ih]

/-- A number that fits the bytes is read back from them. -/
theorem littleEndian_lowFirst (count value : Nat) (h : value < 256 ^ count) :
    littleEndian (lowFirst count value) = value := by
  induction count generalizing value with
  | zero =>
    rw [pow_zero] at h
    rw [lowFirst, littleEndian_nil]
    omega
  | succ count ih =>
    have hdiv : ((value : Int) / 256) = ((value / 256 : Nat) : Int) := by omega
    have hrest : value / 256 < 256 ^ count := by
      rw [pow_succ] at h
      omega
    rw [lowFirst, littleEndian_cons, Byte.toNat_ofInt, hdiv, ih _ hrest]
    omega

/-- Bytes are read back from the number that they make up. -/
theorem lowFirst_littleEndian (data : List Byte) :
    lowFirst data.length (littleEndian data) = data := by
  induction data with
  | nil => rfl
  | cons b rest ih =>
    have hb := b.isLt
    rw [List.length_cons, lowFirst, littleEndian_cons]
    congr 1
    · apply BitVec.eq_of_toNat_eq
      rw [Byte.toNat_ofInt]
      omega
    · have hdiv : ((b.toNat + 256 * littleEndian rest : Nat) : Int) / 256 = littleEndian rest := by
        omega
      rw [hdiv, ih]

theorem littleEndian_lt (data : List Byte) : littleEndian data < 256 ^ data.length := by
  induction data with
  | nil => simp
  | cons b rest ih =>
    have hb := b.isLt
    rw [littleEndian_cons, List.length_cons, pow_succ]
    omega

/-! ## Branches -/

/-- The distance to a target is the number of sixteen bits that leads there from the next
instruction. -/
theorem branchDistance_eq_iff {target address length d : Int} :
    branchDistance target address length = d ↔
      (-32768 ≤ d ∧ d ≤ 32767) ∧ (target - (address + length + d)) % 65536 = 0 := by
  rw [branchDistance, Int.bmod_def]
  constructor
  · rintro rfl
    split <;> omega
  · rintro ⟨hrange, hmod⟩
    split <;> omega

/-- A branch reaches its target exactly if a signed byte leads there from the next
instruction. -/
theorem branchOffset_eq_ok_iff {target address length d : Int} :
    branchOffset target address length = .ok d ↔
      (-128 ≤ d ∧ d ≤ 127) ∧ (target - (address + length + d)) % 65536 = 0 := by
  simp only [branchOffset]
  constructor
  · intro h
    split at h
    · rename_i hnear
      rw [Except.ok.inj h] at hnear
      exact ⟨hnear, (branchDistance_eq_iff.mp (Except.ok.inj h)).2⟩
    · cases h
  · rintro ⟨hnear, hmod⟩
    have hd : branchDistance target address length = d :=
      branchDistance_eq_iff.mpr ⟨by omega, hmod⟩
    rw [hd, if_pos hnear]

/-- A target out of reach is reported as such. -/
theorem cause_of_branchOffset_error {target address length : Int} {fault : Fault}
    (h : branchOffset target address length = .error fault) :
    fault.cause.outcome = .invalidOperand := by
  simp only [branchOffset] at h
  split at h
  · cases h
  · rw [← Except.error.inj h]
    rfl

/-- The address that a branch at `address` reaches with its distance byte. -/
def branchTarget (address : Int) (distance : Byte) : Int :=
  (address + 2 + distance.toInt) % 65536

/-- The distance stored for a branch leads back to its target. -/
theorem branchTarget_ofInt {target address d : Int}
    (h : branchOffset target address 2 = .ok d) :
    branchTarget address (Byte.ofInt d) = target % 65536 := by
  obtain ⟨hnear, hmod⟩ := branchOffset_eq_ok_iff.mp h
  have hbyte : (Byte.ofInt d).toInt = d := by
    rw [Byte.ofInt, BitVec.toInt_ofInt, Int.bmod_def]
    split <;> omega
  rw [branchTarget, hbyte]
  omega

/-- The target that a distance byte leads to is in reach. -/
theorem branchOffset_branchTarget (address : Int) (distance : Byte) :
    branchOffset (branchTarget address distance) address 2 = .ok distance.toInt := by
  rw [branchOffset_eq_ok_iff]
  have hlow := BitVec.le_toInt distance
  have hhigh := BitVec.toInt_lt (x := distance)
  refine ⟨by omega, ?_⟩
  rw [branchTarget]
  omega

namespace Operand

/-! ## Operands -/

/-- The number of the operand fits the digits of its mode. -/
def Fits (o : Operand) : Prop :=
  ∃ v : Nat, o.value = v ∧ v < 16 ^ o.mode.shape.digits

/-- The operand that bytes behind an opcode at `address` stand for. -/
def decode (mode : Mode) (data : List Byte) (address : Int) : Operand :=
  match mode with
  | .relative => ⟨.relative, branchTarget address (data.headD 0)⟩
  | mode => ⟨mode, littleEndian data⟩

/-- But for branches, an operand has two digits for every byte. -/
theorem digits_shape {mode : Mode} (h : mode ≠ .relative) :
    mode.shape.digits = 2 * mode.operandLength := by
  revert h
  cases mode <;> decide

/-- But for branches, an operand is encoded as its number. -/
theorem encode_of_ne_relative {o : Operand} (h : o.mode ≠ .relative) (address length : Int) :
    o.encode address length = .ok (lowFirst o.mode.operandLength o.value) := by
  obtain ⟨mode, value⟩ := o
  cases mode <;> first | exact absurd rfl h | rfl

theorem decode_of_ne_relative {mode : Mode} (h : mode ≠ .relative) (data : List Byte)
    (address : Int) : decode mode data address = ⟨mode, littleEndian data⟩ := by
  cases mode <;> first | exact absurd rfl h | rfl

@[simp] theorem mode_decode (mode : Mode) (data : List Byte) (address : Int) :
    (decode mode data address).mode = mode := by
  cases mode <;> rfl

/-- The encoding has the length that the mode asks for. -/
theorem length_of_encode {o : Operand} {address length : Int} {data : List Byte}
    (h : o.encode address length = .ok data) : data.length = o.mode.operandLength := by
  obtain ⟨mode, value⟩ := o
  by_cases hr : mode = .relative
  · subst hr
    simp only [encode] at h
    cases hoffset : branchOffset value address length with
    | error fault =>
      rw [hoffset] at h
      cases h
    | ok d =>
      rw [hoffset] at h
      rw [← Except.ok.inj h]
      rfl
  · rw [encode_of_ne_relative hr] at h
    rw [← Except.ok.inj h, length_lowFirst]

/-- Only the target of a branch can fail to be encoded. -/
theorem outcome_of_encode_error {o : Operand} {address length : Int} {fault : Fault}
    (h : o.encode address length = .error fault) : fault.cause.outcome = .invalidOperand := by
  obtain ⟨mode, value⟩ := o
  by_cases hr : mode = .relative
  · subst hr
    simp only [encode] at h
    cases hoffset : branchOffset value address length with
    | error cause =>
      rw [hoffset] at h
      rw [← Except.error.inj h]
      exact cause_of_branchOffset_error hoffset
    | ok d =>
      rw [hoffset] at h
      cases h
  · rw [encode_of_ne_relative hr] at h
    cases h

/-- An operand is encoded unless it is a target out of reach. -/
theorem exists_encode_iff {o : Operand} {address length : Int} :
    (∃ data, o.encode address length = .ok data) ↔
      (o.mode = .relative → ∃ d : Int, (-128 ≤ d ∧ d ≤ 127) ∧
        (o.value - (address + length + d)) % 65536 = 0) := by
  obtain ⟨mode, value⟩ := o
  by_cases hr : mode = .relative
  · subst hr
    constructor
    · rintro ⟨data, h⟩ -
      simp only [encode] at h
      cases hoffset : branchOffset value address length with
      | error fault =>
        rw [hoffset] at h
        cases h
      | ok d => exact ⟨d, branchOffset_eq_ok_iff.mp hoffset⟩
    · intro h
      obtain ⟨d, hd⟩ := h rfl
      refine ⟨[Byte.ofInt d], ?_⟩
      simp only [encode]
      rw [branchOffset_eq_ok_iff.mpr hd]
      rfl
  · refine ⟨fun _ h => absurd h hr, fun _ => ⟨_, encode_of_ne_relative hr address length⟩⟩

/-- An operand that fits its mode is read back from its bytes. -/
theorem decode_of_encode {o : Operand} {address : Int} {data : List Byte} (hfits : o.Fits)
    (h : o.encode address (1 + o.mode.operandLength : Nat) = .ok data) :
    decode o.mode data address = o := by
  obtain ⟨mode, value⟩ := o
  obtain ⟨v, hv, hlt⟩ := hfits
  simp only at hv hlt
  subst hv
  by_cases hr : mode = .relative
  · subst hr
    simp only [encode] at h
    cases hoffset : branchOffset v address (1 + Mode.relative.operandLength : Nat) with
    | error fault =>
      rw [hoffset] at h
      cases h
    | ok d =>
      rw [hoffset] at h
      rw [← Except.ok.inj h]
      have htarget := branchTarget_ofInt hoffset
      have hword : v < 65536 := hlt
      simp only [decode, List.headD_cons, htarget]
      rw [Int.emod_eq_of_lt (by omega) (by omega)]
  · rw [encode_of_ne_relative hr] at h
    have hbytes : v < 256 ^ mode.operandLength := by
      rw [digits_shape hr, pow_mul] at hlt
      exact hlt
    rw [decode_of_ne_relative hr, ← Except.ok.inj h, littleEndian_lowFirst _ _ hbytes]

/-- The bytes of a mode are read back from the operand that they stand for. -/
theorem encode_decode {mode : Mode} {data : List Byte} (address : Int)
    (hlen : data.length = mode.operandLength) :
    (decode mode data address).encode address (1 + mode.operandLength : Nat) = .ok data := by
  by_cases hr : mode = .relative
  · subst hr
    obtain ⟨distance, rfl⟩ := List.length_eq_one_iff.mp hlen
    have hoffset : branchOffset (branchTarget address distance) address
        (1 + Mode.relative.operandLength : Nat) = .ok distance.toInt :=
      branchOffset_branchTarget address distance
    simp only [decode, encode, List.headD_cons]
    rw [hoffset]
    simp [Except.map, Byte.ofInt]
  · rw [encode_of_ne_relative (by rwa [mode_decode]), decode_of_ne_relative hr, ← hlen,
      lowFirst_littleEndian]

/-- The operand that bytes stand for fits its mode. -/
theorem fits_decode {mode : Mode} {data : List Byte} (address : Int)
    (hlen : data.length = mode.operandLength) : (decode mode data address).Fits := by
  by_cases hr : mode = .relative
  · subst hr
    refine ⟨(branchTarget address (data.headD 0)).toNat, ?_, ?_⟩
    · simp only [decode, branchTarget]
      omega
    · simp only [decode, branchTarget, Mode.shape]
      omega
  · rw [decode_of_ne_relative hr]
    refine ⟨littleEndian data, rfl, ?_⟩
    rw [digits_shape hr, pow_mul, ← hlen]
    exact littleEndian_lt data

/-- The text of an operand that fits its mode is typed in the shape of the mode. -/
theorem Fits.typed_text {o : Operand} (h : o.Fits) :
    ∃ v : Nat, o.value = v ∧ o.mode.shape.Typed o.text.toList v := by
  obtain ⟨v, hv, hlt⟩ := h
  refine ⟨v, hv, ?_⟩
  rw [text, hv]
  exact Shape.typed_fill hlt

/-- The text of an operand that fits its mode holds only characters of operands. -/
theorem Fits.text_subset_alphabet {o : Operand} (h : o.Fits) : o.text.toList ⊆ alphabet := by
  have hlead : ∀ mode : Mode, mode.shape.lead.toList ⊆ alphabet := by
    intro mode
    cases mode <;> decide
  have htail : ∀ mode : Mode, mode.shape.tail.toList ⊆ alphabet := by
    intro mode
    cases mode <;> decide
  have hdigit : ∀ d : Fin 16, Hex.digit d ∈ alphabet := by decide
  obtain ⟨v, -, ds, -, htext, -⟩ := h.typed_text
  rw [htext]
  refine List.append_subset.mpr ⟨List.append_subset.mpr ⟨hlead _, ?_⟩, htail _⟩
  intro c hc
  obtain ⟨d, -, rfl⟩ := List.mem_map.mp hc
  exact hdigit d

end Operand

end LineMonitor
