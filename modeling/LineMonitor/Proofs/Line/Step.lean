import LineMonitor.Line
import LineMonitor.Proofs.Instruction.Table
import LineMonitor.Proofs.Memory.Verification
import LineMonitor.Proofs.Operand.RoundTrip

/-!
# What one line can do

`Assembling m a i o m' ending` lists the ways in which the instruction `i` with the operand `o`
ends at the address `a`, and `Entering m a m' r` the ways in which a whole line ends, whatever
was typed.  Both say what becomes of memory.  The functions keep to these lists
(`Memory.assembling`, `entering_enterLine`), so a property of every line is proved by a case for
each way.  Where only memory matters there are three cases (`Touching`).
-/

namespace LineMonitor

/-! ## An instruction with its operand -/

/-- How assembling an instruction with an operand ends, and the memory it leaves. -/
inductive Assembling (m : Memory) (a : Address) (i : Mnemonic) (o : Operand) :
    Memory → Ending → Prop where
  /-- The instruction has no such mode. -/
  | unsupported {fault : Fault} (hfind : Encoding.find? i o.mode = none)
      (houtcome : fault.cause.outcome = .invalidMode) : Assembling m a i o m (.refused fault)
  /-- The operand is the target of a branch that does not reach it. -/
  | outOfReach {e : Encoding} {fault : Fault} (hfind : Encoding.find? i o.mode = some e)
      (hencode : o.encode a.toNat e.length = .error fault) :
      Assembling m a i o m (.refused fault)
  /-- The instruction was written, and a byte of it did not read back. -/
  | lost {e : Encoding} {operand : List Byte} {x : Mismatch}
      (hfind : Encoding.find? i o.mode = some e)
      (hencode : o.encode a.toNat e.length = .ok operand)
      (hlost : (m.writeAll a (e.opcode :: operand)).mismatch? a (e.opcode :: operand) = some x) :
      Assembling m a i o (m.writeAll a (e.opcode :: operand)) (.refused x.fault)
  /-- The instruction is in memory. -/
  | kept {e : Encoding} {operand : List Byte} (hfind : Encoding.find? i o.mode = some e)
      (hencode : o.encode a.toNat e.length = .ok operand)
      (hkept : (m.writeAll a (e.opcode :: operand)).bytes a (operand.length + 1) =
        e.opcode :: operand) :
      Assembling m a i o (m.writeAll a (e.opcode :: operand))
        (.assembled ⟨a, e.opcode :: operand⟩)

/-- Assembling ends in one of these ways. -/
theorem Memory.assembling (m : Memory) (a : Address) (i : Mnemonic) (o : Operand) :
    Assembling m a i o (m.assemble a i o).1 (m.assemble a i o).2.2 := by
  cases hfind : Encoding.find? i o.mode with
  | none =>
    simp only [assemble, hfind]
    exact .unsupported hfind rfl
  | some e =>
    cases hencode : o.encode a.toNat e.length with
    | error fault =>
      simp only [assemble, hfind, hencode]
      exact .outOfReach hfind hencode
    | ok operand =>
      rcases m.put_cases a e.opcode operand with ⟨hresult, hkept⟩ | ⟨x, hresult, hlost⟩
      · simp only [assemble, hfind, hencode, hresult, memory_put]
        exact .kept hfind hencode hkept
      · simp only [assemble, hfind, hencode, hresult, memory_put]
        exact .lost hfind hencode hlost

/-- An encoded instruction has one to three bytes. -/
theorem Encoding.length_bounds_of_encode {e : Encoding} {o : Operand} {address : Int}
    {operand : List Byte} (hmode : e.mode = o.mode)
    (hencode : o.encode address e.length = .ok operand) :
    1 ≤ (e.opcode :: operand).length ∧ (e.opcode :: operand).length ≤ 3 := by
  have hlen := Operand.length_of_encode hencode
  have hmax := e.length_le_three
  rw [Encoding.length, hmode] at hmax
  rw [List.length_cons]
  omega

/-- A byte that does not read back is a failure in writing. -/
theorem Mismatch.outcome_fault (x : Mismatch) : x.fault.cause.outcome = .writeFailed := rfl

namespace Assembling

variable {m m' : Memory} {a : Address} {i : Mnemonic} {o : Operand} {ending : Ending}

/-- An instruction that has no such mode, and no other, is refused for the mode. -/
theorem outcome_eq_invalidMode_iff (h : Assembling m a i o m' ending) :
    ending.outcome = .invalidMode ↔ Encoding.find? i o.mode = none := by
  cases h with
  | unsupported hfind houtcome => exact ⟨fun _ => hfind, fun _ => houtcome⟩
  | outOfReach hfind hencode =>
    have houtcome := Operand.outcome_of_encode_error hencode
    simp [Ending.outcome, houtcome, hfind]
  | lost hfind hencode hlost => simp [Ending.outcome, Mismatch.outcome_fault, hfind]
  | kept hfind hencode hkept => simp [Ending.outcome, hfind]

/-- An instruction gets as far as being written if its mode is legal and its operand can be
encoded. -/
theorem outcome_written_iff (h : Assembling m a i o m' ending) :
    (ending.outcome = .success ∨ ending.outcome = .writeFailed) ↔
      ∃ e, Encoding.find? i o.mode = some e ∧
        ∃ operand, o.encode a.toNat e.length = .ok operand := by
  cases h with
  | unsupported hfind houtcome => simp [Ending.outcome, houtcome, hfind]
  | outOfReach hfind hencode =>
    have houtcome := Operand.outcome_of_encode_error hencode
    simp [Ending.outcome, houtcome, hfind, hencode]
  | lost hfind hencode hlost =>
    simp [Ending.outcome, Mismatch.outcome_fault, hfind, hencode]
  | kept hfind hencode hkept => simp [Ending.outcome, hfind, hencode]

/-- An instruction is refused for its operand exactly if the operand cannot be encoded. -/
theorem outcome_eq_invalidOperand_iff (h : Assembling m a i o m' ending) :
    ending.outcome = .invalidOperand ↔
      ∃ e, Encoding.find? i o.mode = some e ∧
        ¬ ∃ operand, o.encode a.toNat e.length = .ok operand := by
  cases h with
  | unsupported hfind houtcome => simp [Ending.outcome, houtcome, hfind]
  | outOfReach hfind hencode =>
    have houtcome := Operand.outcome_of_encode_error hencode
    simp [Ending.outcome, houtcome, hfind, hencode]
  | lost hfind hencode hlost =>
    simp [Ending.outcome, Mismatch.outcome_fault, hfind, hencode]
  | kept hfind hencode hkept => simp [Ending.outcome, hfind, hencode]

/-- An instruction with its operand is written or refused for its mode or its operand. -/
theorem outcome_cases (h : Assembling m a i o m' ending) :
    ending.outcome = .success ∨ ending.outcome = .writeFailed ∨
      ending.outcome = .invalidMode ∨ ending.outcome = .invalidOperand := by
  cases h with
  | unsupported hfind houtcome => exact Or.inr (Or.inr (Or.inl houtcome))
  | outOfReach hfind hencode =>
    exact Or.inr (Or.inr (Or.inr (Operand.outcome_of_encode_error hencode)))
  | lost hfind hencode hlost => exact Or.inr (Or.inl rfl)
  | kept hfind hencode hkept => exact Or.inl rfl

/-- An instruction that is in memory has one to three bytes. -/
theorem length_bounds {data : List Byte} (h : Assembling m a i o m' (.assembled ⟨a, data⟩)) :
    1 ≤ data.length ∧ data.length ≤ 3 := by
  cases h with
  | kept hfind hencode hkept =>
    obtain ⟨-, -, hmode⟩ := Encoding.find?_eq_some_iff.mp hfind
    exact Encoding.length_bounds_of_encode hmode hencode

end Assembling

/-! ## A whole line -/

/-- How a line at an address ends, and the memory it leaves. -/
inductive Entering (m : Memory) (a : Address) : Memory → Line → Prop where
  /-- Escape or the end of the input stood in the place of a mnemonic. -/
  | ended : Entering m a m ⟨a, none, .ended⟩
  /-- Escape stood in the operand. -/
  | dropped {parsed : Statement} : Entering m a m ⟨a, some parsed, .dropped⟩
  /-- The mnemonic or the operand was not recognised. -/
  | unrecognised {parsed : Statement} {fault : Fault}
      (houtcome : fault.cause.outcome = .invalidInstruction ∨
        fault.cause.outcome = .invalidOperand) :
      Entering m a m ⟨a, some parsed, .refused fault⟩
  /-- The instruction and its operand were recognised. -/
  | recognised {m' : Memory} {parsed : Statement} {i : Mnemonic} {o : Operand} {ending : Ending}
      (hmnemonic : parsed.mnemonic = i.name) (hinstruction : parsed.instruction = some i)
      (hoperand : parsed.operand = some o) (hfits : o.Fits)
      (h : Assembling m a i o m' ending) : Entering m a m' ⟨a, some parsed, ending⟩

/-- A completed statement ends as its instruction does. -/
theorem entering_complete (m : Memory) (c : Console) (a : Address) (told : Transcript)
    (parsed : Statement) (i : Mnemonic) (o : Operand) (hmnemonic : parsed.mnemonic = i.name)
    (hinstruction : parsed.instruction = some i) (hfits : o.Fits) :
    Entering m a (parsed.complete m c a told i o).memory
      (parsed.complete m c a told i o).result :=
  .recognised hmnemonic hinstruction rfl hfits (m.assembling a i o)

/-- The operand that a text means fits its mode. -/
theorem Operand.Means.fits {modes : List Mode} {text : List Char} {o : Operand}
    (h : Means modes text o) : o.Fits := by
  rcases h with ⟨-, rfl, -⟩ | ⟨-, ⟨v, hv, htyped⟩, -⟩
  · exact ⟨0, rfl, by decide⟩
  · exact ⟨v, hv, htyped.value_lt⟩

/-- A text typed in the shape of an encoding means its operand. -/
theorem Operand.Means.of_typed {e : Encoding} {text : List Char} {v : Nat}
    (he : e ∈ Encoding.all) (himplicit : e.mode ≠ .implicit)
    (htyped : e.mode.shape.Typed text v) : Means e.mnemonic.modes text ⟨e.mode, v⟩ := by
  refine Or.inr ⟨himplicit, ⟨v, rfl, htyped⟩, ?_, ?_⟩
  · intro habsolute hrelative
    have hkind := Mnemonic.relative_mem_modes_iff.mp hrelative
    have hbranch := (Encoding.mode_of_kind e he).2.mpr hkind
    rw [show e.mode = .absolute from habsolute] at hbranch
    cases hbranch
  · intro hrelative
    exact Mnemonic.mem_modes_iff.mpr ⟨e, he, rfl, hrelative⟩

theorem entering_enterOperand (m : Memory) (c : Console) (a : Address) (parsed : Statement)
    (i : Mnemonic) (hmnemonic : parsed.mnemonic = i.name)
    (hinstruction : parsed.instruction = some i) :
    Entering m a (enterOperand m c a parsed i).memory (enterOperand m c a parsed i).result := by
  simp only [enterOperand]
  cases hanswer : c.takeOperand.answer with
  | none => exact .dropped
  | some text =>
    simp only
    cases hread : Operand.read i.modes text with
    | error cause => exact .unrecognised (Or.inr (Operand.outcome_of_read_error hread))
    | ok o =>
      exact entering_complete _ _ _ _ _ _ _ hmnemonic hinstruction
        (Operand.read_eq_ok_iff.mp hread).fits

theorem entering_enterMnemonic (m : Memory) (c : Console) (a : Address) (mnemonic : String) :
    Entering m a (enterMnemonic m c a mnemonic).memory
      (enterMnemonic m c a mnemonic).result := by
  simp only [enterMnemonic]
  cases hname : Mnemonic.ofName? mnemonic with
  | none => exact .unrecognised (Or.inl rfl)
  | some i =>
    have hmnemonic := (Mnemonic.name_of_ofName? hname).symm
    simp only
    split
    · exact entering_complete _ _ _ _ _ _ _ hmnemonic rfl ⟨0, rfl, by decide⟩
    · exact entering_enterOperand _ _ _ _ _ hmnemonic rfl

/-- Every line ends in one of these ways, whatever the console holds. -/
theorem entering_enterLine (m : Memory) (c : Console) (a : Address) :
    Entering m a (enterLine m c a).memory (enterLine m c a).result := by
  simp only [enterLine]
  cases hanswer : c.takeMnemonic.answer with
  | none => exact .ended
  | some mnemonic => exact entering_enterMnemonic _ _ _ _

/-! ## What a line does to memory -/

/-- The bytes are the code of the instruction that was recognised of a line. -/
inductive Line.Codes (r : Line) : List Byte → Prop where
  | intro {parsed : Statement} {e : Encoding} {o : Operand} {operand : List Byte}
      (hparsed : r.parsed = some parsed) (hmnemonic : parsed.mnemonic = e.mnemonic.name)
      (hoperand : parsed.operand = some o) (hfits : o.Fits) (hmem : e ∈ Encoding.all)
      (hmode : e.mode = o.mode) (hencode : o.encode r.address.toNat e.length = .ok operand) :
      Codes r (e.opcode :: operand)

/-- An instruction has one to three bytes. -/
theorem Line.Codes.length_bounds {r : Line} {data : List Byte} (h : r.Codes data) :
    1 ≤ data.length ∧ data.length ≤ 3 := by
  cases h with
  | @intro parsed e o operand hparsed hmnemonic hoperand hfits hmem hmode hencode =>
    exact Encoding.length_bounds_of_encode hmode hencode

/-- A line leaves memory alone, or writes its code and finds it there, or writes its code and
misses a byte of it. -/
inductive Touching (m : Memory) (a : Address) : Memory → Line → Prop where
  | nothing {r : Line} (haddress : r.address = a) (hnext : r.next = a) (hdata : r.data = [])
      (hsuccess : r.outcome ≠ .success) (hfailed : r.outcome ≠ .writeFailed) :
      Touching m a m r
  | failed {r : Line} {data : List Byte} (haddress : r.address = a) (hnext : r.next = a)
      (hdata : r.data = []) (houtcome : r.outcome = .writeFailed) (hcode : r.Codes data)
      (hlost : (m.writeAll a data).bytes a data.length ≠ data) :
      Touching m a (m.writeAll a data) r
  | assembled {r : Line} (haddress : r.address = a) (hnext : r.next = a.after r.data.length)
      (houtcome : r.outcome = .success) (hcode : r.Codes r.data)
      (hkept : (m.writeAll a r.data).bytes a r.data.length = r.data) :
      Touching m a (m.writeAll a r.data) r

/-- A line that ends without writing does nothing to memory. -/
theorem Touching.of_outcome (m : Memory) (a : Address) (parsed : Option Statement)
    {ending : Ending} (h : ending.outcome ≠ .success ∧ ending.outcome ≠ .writeFailed) :
    Touching m a m ⟨a, parsed, ending⟩ := by
  obtain ⟨hsuccess, hfailed⟩ := h
  cases ending with
  | assembled placement => exact absurd rfl hsuccess
  | refused fault => exact .nothing rfl rfl rfl hsuccess hfailed
  | dropped => exact .nothing rfl rfl rfl hsuccess hfailed
  | ended => exact .nothing rfl rfl rfl hsuccess hfailed

/-- Whatever a line ends as, it does one of the three to memory. -/
theorem Entering.touching {m m' : Memory} {a : Address} {r : Line} (h : Entering m a m' r) :
    Touching m a m' r := by
  cases h with
  | ended => exact .of_outcome m a _ (by simp [Ending.outcome])
  | dropped => exact .of_outcome m a _ (by simp [Ending.outcome])
  | unrecognised houtcome =>
    rcases houtcome with houtcome | houtcome
    · exact .of_outcome m a _ (by simp [Ending.outcome, houtcome])
    · exact .of_outcome m a _ (by simp [Ending.outcome, houtcome])
  | @recognised _ parsed i o _ hmnemonic hinstruction hoperand hfits h =>
    cases h with
    | unsupported hfind houtcome =>
      exact .of_outcome m a _ (by simp [Ending.outcome, houtcome])
    | outOfReach hfind hencode =>
      have houtcome := Operand.outcome_of_encode_error hencode
      exact .of_outcome m a _ (by simp [Ending.outcome, houtcome])
    | @lost e operand x hfind hencode hlost =>
      obtain ⟨hmem, rfl, hmode⟩ := Encoding.find?_eq_some_iff.mp hfind
      have hcode : Line.Codes ⟨a, some parsed, .refused x.fault⟩ (e.opcode :: operand) :=
        .intro rfl hmnemonic hoperand hfits hmem hmode hencode
      have hdiffers : (m.writeAll a (e.opcode :: operand)).bytes a (e.opcode :: operand).length ≠
          e.opcode :: operand := by
        rw [Ne, ← Memory.mismatch?_eq_none_iff, hlost]
        simp
      exact .failed rfl rfl rfl rfl hcode hdiffers
    | @kept e operand hfind hencode hkept =>
      obtain ⟨hmem, rfl, hmode⟩ := Encoding.find?_eq_some_iff.mp hfind
      have hcode : Line.Codes ⟨a, some parsed, .assembled ⟨a, e.opcode :: operand⟩⟩
          (e.opcode :: operand) := .intro rfl hmnemonic hoperand hfits hmem hmode hencode
      exact .assembled rfl rfl rfl hcode hkept

theorem touching_enterLine (m : Memory) (c : Console) (a : Address) :
    Touching m a (enterLine m c a).memory (enterLine m c a).result :=
  (entering_enterLine m c a).touching

end LineMonitor
