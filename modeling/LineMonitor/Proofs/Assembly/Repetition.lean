import LineMonitor.Session
import LineMonitor.Proofs.Assembly.Run
import LineMonitor.Proofs.Memory.Protection
import LineMonitor.Proofs.Memory.Replay

/-!
# Assembling the same text again

What a session does depends on memory only through what is protected of it: memories that are
alike in this are told apart neither by a line (`enterLine_alike`) nor by a run of lines
(`enterLines_alike`).  A run changes nothing that is protected, so a second run over the memory
that the first one left tells and records the same.  The accesses it makes are then the same as
well, because they are determined by the lines it records (`Running.exists_accesses`), and
accesses that are made again change nothing.  `Session.assemble_again` has both statements.
-/

namespace LineMonitor

/-! ## Memories that are alike -/

namespace Memory.ProtectedAlike

variable {m m' : Memory}

/-- An instruction with its operand ends alike, and leaves the memories alike. -/
theorem assemble (h : ProtectedAlike m m') (a : Address) (i : Mnemonic) (o : Operand) :
    ProtectedAlike (m.assemble a i o).1 (m'.assemble a i o).1 ∧
      (m.assemble a i o).2 = (m'.assemble a i o).2 := by
  simp only [Memory.assemble]
  cases Encoding.find? i o.mode with
  | none => exact ⟨h, rfl⟩
  | some e =>
    simp only
    cases hencode : o.encode a.toNat e.length with
    | error fault => exact ⟨h, rfl⟩
    | ok operand =>
      have hshort : operand.length + 1 ≤ 65536 := by
        have hsize := Operand.length_of_encode hencode
        have hsizes : o.mode.operandLength ≤ 2 := by cases o.mode <;> decide
        omega
      obtain ⟨hevents, hresult⟩ := h.put a e.opcode operand hshort
      have hmemory := h.writeAll a (e.opcode :: operand)
      simp only [hevents, hresult]
      cases (m'.put a e.opcode operand).result with
      | error mismatch => exact ⟨by rwa [memory_put, memory_put], rfl⟩
      | ok placement => exact ⟨by rwa [memory_put, memory_put], rfl⟩

end Memory.ProtectedAlike

/-- Two steps that differ at most in what can be written of memory. -/
structure LineStep.Alike (x y : LineStep) : Prop where
  memory : x.memory.ProtectedAlike y.memory
  console : x.console = y.console
  transcript : x.transcript = y.transcript
  result : x.result = y.result

section Alike

variable {m m' : Memory} (h : m.ProtectedAlike m')
include h

theorem Statement.stop_alike (parsed : Statement) (c : Console) (a : Address) (told : Transcript)
    (ending : Ending) :
    (parsed.stop m c a told ending).Alike (parsed.stop m' c a told ending) :=
  ⟨h, rfl, rfl, rfl⟩

theorem Statement.complete_alike (parsed : Statement) (c : Console) (a : Address)
    (told : Transcript) (i : Mnemonic) (o : Operand) :
    (parsed.complete m c a told i o).Alike (parsed.complete m' c a told i o) := by
  obtain ⟨hmemory, htold⟩ := h.assemble a i o
  refine ⟨hmemory, rfl, ?_, ?_⟩
  · simp only [Statement.complete, htold]
  · simp only [Statement.complete, htold]

theorem enterOperand_alike (c : Console) (a : Address) (parsed : Statement) (i : Mnemonic) :
    (enterOperand m c a parsed i).Alike (enterOperand m' c a parsed i) := by
  simp only [enterOperand]
  cases c.takeOperand.answer with
  | none => exact parsed.stop_alike h _ _ _ _
  | some text =>
    simp only
    cases Operand.read i.modes text with
    | error cause => exact Statement.stop_alike h _ _ _ _ _
    | ok o => exact Statement.complete_alike h _ _ _ _ _ _

theorem enterMnemonic_alike (c : Console) (a : Address) (mnemonic : String) :
    (enterMnemonic m c a mnemonic).Alike (enterMnemonic m' c a mnemonic) := by
  simp only [enterMnemonic]
  cases Mnemonic.ofName? mnemonic with
  | none => exact Statement.stop_alike h _ _ _ _ _
  | some i =>
    simp only
    split
    · exact Statement.complete_alike h _ _ _ _ _ _
    · exact enterOperand_alike h _ _ _ _

/-- Whatever is typed, a line is the same over memories that are alike, and leaves them alike. -/
theorem enterLine_alike (c : Console) (a : Address) :
    (enterLine m c a).Alike (enterLine m' c a) := by
  simp only [enterLine]
  cases c.takeMnemonic.answer with
  | none => exact ⟨h, rfl, rfl, rfl⟩
  | some mnemonic =>
    have hstep := enterMnemonic_alike h c.takeMnemonic.console a mnemonic
    refine ⟨hstep.memory, hstep.console, ?_, hstep.result⟩
    simp only [hstep.transcript]

end Alike

/-- Two runs that differ at most in what can be written of memory. -/
structure LinesRun.Alike (x y : LinesRun) : Prop where
  memory : x.memory.ProtectedAlike y.memory
  console : x.console = y.console
  transcript : x.transcript = y.transcript
  results : x.results = y.results
  finish : x.finish = y.finish

/-- So is a run of lines. -/
theorem enterLines_alike {m m' : Memory} (h : m.ProtectedAlike m') (c : Console) (a : Address) :
    (enterLines m c a).Alike (enterLines m' c a) := by
  induction m, c, a using enterLines.induct generalizing m' with
  | case1 m c a step =>
    rename_i hended
    have hstep := enterLine_alike h c a
    have hended' : (enterLine m' c a).result.ending = .ended := by rw [← hstep.result, hended]
    rw [enterLines_of_ended hended, enterLines_of_ended hended']
    exact ⟨hstep.memory, hstep.console, hstep.transcript, rfl, rfl⟩
  | case2 m c a step hended =>
    rename_i _ ih
    have hstep := enterLine_alike h c a
    have hended' : (enterLine m' c a).result.ending ≠ .ended := by rwa [← hstep.result]
    have hlater := ih hstep.memory
    rw [enterLines_of_not_ended hended, enterLines_of_not_ended hended']
    simp only [← hstep.console, ← hstep.result, ← hstep.transcript]
    exact ⟨hlater.memory, hlater.console, by rw [hlater.transcript], by rw [hlater.results],
      hlater.finish⟩

/-! ## What is recorded tells what was written -/

/-- The code of a line is determined by what was recognised of it. -/
theorem Line.Codes.unique {r : Line} {data data' : List Byte} (h : r.Codes data)
    (h' : r.Codes data') : data = data' := by
  cases h with
  | @intro parsed e o operand hparsed hmnemonic hoperand hfits hmem hmode hencode =>
  cases h' with
  | @intro parsed' e' o' operand' hparsed' hmnemonic' hoperand' hfits' hmem' hmode' hencode' =>
    obtain rfl : parsed = parsed' := Option.some.inj (hparsed.symm.trans hparsed')
    obtain rfl : o = o' := Option.some.inj (hoperand.symm.trans hoperand')
    have hname : Mnemonic.ofName? e.mnemonic.name = Mnemonic.ofName? e'.mnemonic.name := by
      rw [← hmnemonic, ← hmnemonic']
    have hrow : Encoding.find? e.mnemonic o.mode = some e := by
      rw [← hmode, Encoding.find?_of_mem hmem]
    have hrow' : Encoding.find? e'.mnemonic o.mode = some e' := by
      rw [← hmode', Encoding.find?_of_mem hmem']
    rw [Mnemonic.ofName?_name, Mnemonic.ofName?_name, Option.some.injEq] at hname
    obtain rfl : e = e' := by
      rw [hname, hrow'] at hrow
      exact (Option.some.inj hrow).symm
    rw [hencode, Except.ok.injEq] at hencode'
    rw [hencode']

/-- What a line writes is determined by where it stands and what is recorded of it. -/
theorem Touching.exists_accesses (a : Address) (r : Line) :
    ∃ accesses, ∀ m m', Touching m a m' r → m' = m.replay accesses := by
  by_cases hcodes : ∃ data, r.Codes data ∧ (r.outcome = .success ∨ r.outcome = .writeFailed)
  · obtain ⟨data, hdata, hwritten⟩ := hcodes
    refine ⟨Memory.writes a data, fun m m' h => ?_⟩
    rw [Memory.replay_writes]
    cases h with
    | nothing haddress hnext hnone hsuccess hfailed =>
      rcases hwritten with houtcome | houtcome
      · exact absurd houtcome hsuccess
      · exact absurd houtcome hfailed
    | failed haddress hnext hnone houtcome hcode hlost => rw [hcode.unique hdata]
    | assembled haddress hnext houtcome hcode hkept => rw [hcode.unique hdata]
  · refine ⟨[], fun m m' h => ?_⟩
    cases h with
    | nothing haddress hnext hnone hsuccess hfailed => rfl
    | failed haddress hnext hnone houtcome hcode hlost =>
      exact absurd ⟨_, hcode, Or.inr houtcome⟩ hcodes
    | assembled haddress hnext houtcome hcode hkept =>
      exact absurd ⟨_, hcode, Or.inl houtcome⟩ hcodes

/-- What a run writes is determined by where it begins and what it records. -/
theorem Running.exists_accesses (a finish : Address) (results : List Line) :
    ∃ accesses, ∀ m m', Running m a m' results finish → m' = m.replay accesses := by
  induction results generalizing a with
  | nil =>
    refine ⟨[], fun m m' h => ?_⟩
    cases h
    rfl
  | cons r results ih =>
    obtain ⟨front, hfront⟩ := Touching.exists_accesses a r
    obtain ⟨back, hback⟩ := ih r.next
    refine ⟨front ++ back, fun m m' h => ?_⟩
    cases h with
    | @line _ m₁ _ _ _ _ _ hstep hrest =>
      rw [Memory.replay_append, ← hfront m m₁ hstep]
      exact hback m₁ m' hrest

/-- A run leaves what is protected of memory as it was. -/
theorem Running.protectedAlike {m m' : Memory} {a finish : Address} {results : List Line}
    (h : Running m a m' results finish) : m.ProtectedAlike m' := by
  obtain ⟨accesses, haccesses⟩ := exists_accesses a finish results
  rw [haccesses m m' h]
  refine ⟨fun b => (Memory.isWritable_replay m b accesses).symm, fun b hb => ?_⟩
  have hcell : (m.replay accesses).cell b = m.cell b :=
    Memory.cell_replay_of_not_isWritable hb accesses
  rw [Memory.read, Memory.read, hcell, Memory.isMapped, Memory.isMapped, Memory.unmapped_replay]

/-! ## A session -/

/-- A session tells and records the same over memories that are alike, and leaves the same of its
input. -/
theorem Session.assemble_alike (s : Session) (address : Int) {m m' : Memory}
    (h : m.ProtectedAlike m') :
    ({ s with memory := m' }.assemble address).2 = ({ s with memory := m }.assemble address).2 ∧
      ({ s with memory := m' }.assemble address).1.console =
        ({ s with memory := m }.assemble address).1.console := by
  have hrun := enterLines_alike h s.console (Address.ofInt address)
  simp only [assemble, hrun.console, hrun.transcript, hrun.results, hrun.finish, and_self]

/-- What a session tells, records and leaves of its input does not depend on what can be written
of memory; and the same input at the same address once more, over the memory that the session
left, tells and records the same and changes nothing. -/
theorem Session.assemble_again (s : Session) (address : Int) {m m' : Memory}
    (hrom : m.rom = m'.rom) (hunmapped : m.unmapped = m'.unmapped)
    (hbytes : ∀ b, m.inRom b = true → m.read b = m'.read b) :
    let run := { s with memory := m }.assemble address
    let other := { s with memory := m' }.assemble address
    let again := { s with memory := run.1.memory }.assemble address
    (other.2 = run.2 ∧ other.1.console = run.1.console) ∧
      again.2 = run.2 ∧ again.1.console = run.1.console ∧ again.1.memory = run.1.memory := by
  intro run other again
  have hother := s.assemble_alike address (.of_regions hrom hunmapped hbytes)
  have hrun : Running m (Address.ofInt address) run.1.memory run.2.2.results run.2.2.finish :=
    running_enterLines m s.console (Address.ofInt address)
  obtain ⟨htold, hconsole⟩ := s.assemble_alike address hrun.protectedAlike
  have hagain : Running run.1.memory (Address.ofInt address) again.1.memory
      again.2.2.results again.2.2.finish :=
    running_enterLines run.1.memory s.console (Address.ofInt address)
  -- both runs record the same, so they make the same accesses
  obtain ⟨accesses, haccesses⟩ :=
    Running.exists_accesses (Address.ofInt address) run.2.2.finish run.2.2.results
  have hfirst : run.1.memory = m.replay accesses := haccesses _ _ hrun
  have hsecond : again.1.memory = run.1.memory.replay accesses := by
    rw [show again.2 = run.2 from htold] at hagain
    exact haccesses _ _ hagain
  refine ⟨hother, htold, hconsole, ?_⟩
  rw [hsecond, hfirst, Memory.replay_replay]

/-- Over memories that differ in a byte of the first line: a line that fails against ROM when half
of it is written, one that ROM happens to hold, and one that writes over that half. -/
theorem Session.assemble_again_over_rom :
    let m := Memory.filled [⟨3, 3, by decide⟩] [] 0
    let m' := m.write 0 7
    let s : Session :=
      { memory := m
        console := Console.ofText "JMP 1234\nLDA #01\nBRK\nNOP\n".toList "\x1b" }
    let run := { s with memory := m }.assemble 0
    let other := { s with memory := m' }.assemble 0
    let again := { s with memory := run.1.memory }.assemble 0
    m.read 0 ≠ m'.read 0 ∧
      run.2.2.results.map Line.outcome = [.success, .writeFailed, .success, .success] ∧
      (other.2 = run.2 ∧ other.1.console = run.1.console) ∧
      again.2 = run.2 ∧ again.1.console = run.1.console ∧ again.1.memory = run.1.memory := by
  intro m m' s run other again
  have hbytes : ∀ b, m.inRom b = true → m.read b = m'.read b := by
    intro b hb
    rw [Memory.read_write, if_neg]
    rintro ⟨rfl, -⟩
    revert hb
    decide
  refine ⟨by decide +kernel, by decide +kernel, ?_⟩
  exact s.assemble_again 0 (m.rom_write 0 7).symm (m.unmapped_write 0 7).symm hbytes

end LineMonitor
