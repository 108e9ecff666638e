import LineMonitor.Session
import LineMonitor.Proofs.Assembly.Run
import Mathlib.Data.List.Forall2

/-!
# Listing what was assembled

The bytes that a run of lines leaves in memory are the instructions of the lines that succeeded,
so a listing of as many instructions shows these lines, one for one (`Line.Listed`), and ends
where the run did.  `Session.list_of_assemble` says this of a session.
-/

namespace LineMonitor

/-! ## The row of a line -/

/-- The entry is the line of a listing that shows the address of a line, its bytes, its mnemonic
and its operand, and nothing else. -/
def Line.Listed (r : Line) (entry : Entry) : Prop :=
  ∃ parsed o, r.parsed = some parsed ∧ parsed.operand = some o ∧
    entry = .printed (Hex.ofAddress r.address ++ "  " ++ Row.padEnd 8 (Hex.ofBytes r.data) ++
      "  " ++ (if o.text = "" then parsed.mnemonic else parsed.mnemonic ++ " " ++ o.text) ++ "\n")

/-- The code of a line is a whole instruction, which is decoded as the operand of the line. -/
theorem Line.Codes.exists_decode {r : Line} {data : List Byte} (h : r.Codes data) :
    ∃ e ∈ Encoding.all, ∃ operand, data = e.opcode :: operand ∧
      operand.length = e.mode.operandLength ∧
      ∃ parsed, r.parsed = some parsed ∧ parsed.mnemonic = e.mnemonic.name ∧
        parsed.operand = some (Operand.decode e.mode operand r.address.toNat) := by
  cases h with
  | @intro parsed e o operand hparsed hmnemonic hoperand hfits hmem hmode hencode =>
    refine ⟨e, hmem, operand, rfl, ?_, parsed, hparsed, hmnemonic, ?_⟩
    · rw [hmode]
      exact Operand.length_of_encode hencode
    · rw [Encoding.length, hmode] at hencode
      rw [hoperand, hmode, Operand.decode_of_encode hfits hencode]

/-- The row of the instruction shows the line. -/
theorem Line.listed_row {r : Line} {e : Encoding} {operand : List Byte} {parsed : Statement}
    (hlen : operand.length = e.mode.operandLength) (hdata : r.data = e.opcode :: operand)
    (hparsed : r.parsed = some parsed) (hmnemonic : parsed.mnemonic = e.mnemonic.name)
    (hoperand : parsed.operand = some (Operand.decode e.mode operand r.address.toNat)) :
    r.Listed (.printed ((e.row r.address.toNat operand).line ++ "\n")) := by
  refine ⟨parsed, _, hparsed, hoperand, ?_⟩
  have haddress : Hex.ofInt 4 (r.address.toNat : Int) = Hex.ofAddress r.address := rfl
  rw [Encoding.line_row _ hlen, hdata, hmnemonic, haddress]
  simp only [Row.text, Encoding.row, String.isEmpty_iff]

namespace Running

variable {m m' : Memory} {a finish : Address} {results : List Line}

/-- The code of the lines is a sequence of whole instructions, whose rows show the lines that
succeeded. -/
theorem disassembly (h : Running m a m' results finish) :
    ∃ shown, Disassembly a (Line.code results) shown ∧
      List.Forall₂ (fun r row => Line.Listed r (.printed (row.line ++ "\n")))
        (Line.successes results) shown := by
  induction h with
  | done m a => exact ⟨[], .nil a, .nil⟩
  | @line m m₁ m' a finish r results hstep hrest ih =>
    obtain ⟨shown, hshown, hlisted⟩ := ih
    rcases hstep.failed_or_assembled with
      ⟨hfailed, hnext, -⟩ | ⟨hsuccess, haddress, hnext, hcodes, -⟩
    · rw [hnext] at hshown
      rw [Line.code_cons_of_ne hfailed, Line.successes_cons_of_ne hfailed]
      exact ⟨shown, hshown, hlisted⟩
    · obtain ⟨e, he, operand, hdata, hlen, parsed, hparsed, hmnemonic, hoperand⟩ :=
        hcodes.exists_decode
      have hrow := Line.listed_row hlen hdata hparsed hmnemonic hoperand
      have hlength : r.data.length = e.length := by
        rw [hdata, Encoding.length_code hlen]
      rw [hnext, hlength] at hshown
      rw [haddress] at hrow
      rw [Line.code_cons_of_success hsuccess, Line.successes_cons_of_success hsuccess, hdata]
      exact ⟨_, .cons he hlen hshown, .cons hrow hlisted⟩

end Running

/-! ## A session -/

/-- The number of lines that were assembled. -/
theorem Assembly.lines_eq (S : Assembly) : S.lines = (Line.successes S.results).length :=
  List.countP_eq_length_filter

/-- A listing that starts with whole instructions, and is as long as they are many, shows them
and ends where they do. -/
theorem Session.list_of_disassembly {s : Session} {a : Address} {code : List Byte}
    {shown : List Row} (h : Disassembly a code shown) (hcode : s.memory.bytes a code.length = code)
    (hlen : code.length ≤ shown.length * 3) :
    s.list a.toNat (some shown.length) =
      (shown.map fun row => .printed (row.line ++ "\n"), a.after code.length) := by
  have hwindow : ((shown.length : Int) * longestInstruction).toNat =
      code.length + (shown.length * 3 - code.length) := by
    rw [longestInstruction]
    omega
  have hlisting : ∀ rest, listing a.toNat (code ++ rest) (some (shown.length : Int)) = shown := by
    intro rest
    have hrows := h.rows_append 0 rest
    rw [Nat.add_zero, rows, List.append_nil] at hrows
    exact hrows
  simp only [list, Option.getD_some, Address.ofInt_toNat, hwindow, Memory.bytes_add, hcode,
    hlisting]
  rw [← h.finish_eq]
  cases shown.getLast? <;> rfl

/-- The lines of a session follow one another from its start on. -/
theorem Session.running_of_assemble {s after : Session} {address : Int} {told : Transcript}
    {S : Assembly} (h : s.assemble address = (after, told, S)) :
    Running s.memory S.start after.memory S.results S.finish := by
  have hrun := running_enterLines s.memory s.console (Address.ofInt address)
  simp only [assemble, Prod.mk.injEq] at h
  obtain ⟨rfl, -, rfl⟩ := h
  exact hrun

/-- What a session assembles is what memory holds and what it lists: however the lines between
them ended, the lines that succeeded are in memory one after the other, and the listing of as
many instructions shows exactly these and ends where the session did.  The lines must not come
around to where the session began. -/
theorem Session.list_of_assemble {s after : Session} {address : Int} {told : Transcript}
    {S : Assembly} (h : s.assemble address = (after, told, S))
    (hlen : (Line.code S.results).length ≤ 65533) :
    after.memory.bytes S.start (Line.code S.results).length = Line.code S.results ∧
      List.Forall₂ Line.Listed (Line.successes S.results)
        (after.list S.start.toNat (some S.lines)).1 ∧
      (after.list S.start.toNat (some S.lines)).2 = S.finish := by
  have hrun := running_of_assemble h
  have hbytes := hrun.bytes_eq hlen
  obtain ⟨shown, hshown, hlisted⟩ := hrun.disassembly
  have hlines : S.lines = shown.length := S.lines_eq.trans hlisted.length_eq
  have hwindow : (Line.code S.results).length ≤ shown.length * 3 := by
    rw [← hlisted.length_eq]
    exact hrun.length_code_le
  refine ⟨hbytes, ?_⟩
  rw [hlines, list_of_disassembly hshown hbytes hwindow]
  exact ⟨List.forall₂_map_right_iff.mpr hlisted, hrun.finish_eq.symm⟩

/-- Two lines with a failed one between them. -/
theorem Session.list_of_assemble_ldx_bne :
    let s : Session :=
      { memory := Memory.filled [] [] 0
        console := Console.ofText "LDX #0A\nXYZ\nBNE 0000\n".toList "\x1b" }
    let run := s.assemble 0
    let S := run.2.2
    Line.code S.results = [0xA2, 0x0A, 0xD0, 0xFC] ∧
      run.1.memory.bytes S.start 4 = [0xA2, 0x0A, 0xD0, 0xFC] ∧
      List.Forall₂ Line.Listed (Line.successes S.results)
        (run.1.list S.start.toNat (some S.lines)).1 ∧
      (run.1.list S.start.toNat (some S.lines)).2 = S.finish := by
  intro s run S
  have hcode : Line.code S.results = [0xA2, 0x0A, 0xD0, 0xFC] := by decide +kernel
  have hlen : (Line.code S.results).length ≤ 65533 := by
    rw [hcode]
    decide
  have hrun : s.assemble 0 = (run.1, run.2.1, S) := rfl
  obtain ⟨hbytes, hlisted, hfinish⟩ := Session.list_of_assemble hrun hlen
  refine ⟨hcode, ?_, hlisted, hfinish⟩
  rw [hcode] at hbytes
  exact hbytes

end LineMonitor
