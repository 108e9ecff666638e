import LineMonitor.Session
import LineMonitor.Proofs.Assembly.Run
import LineMonitor.Proofs.Listing.Typed

/-!
# Assembling a listing again

The text of a row is accepted at the address of the row and assembled to its bytes
(`enterLine_row`).  So the rows of code that consists of whole instructions, typed in one after
the other, write this code again (`Disassembly.enterLines_typed`), and a session in which a
listing is typed in leaves memory as it was listed (`Session.assemble_listing`).
-/

namespace LineMonitor

/-! ## A line that is accepted -/

/-- An instruction that can be encoded, in a place that can be written, is in memory
afterwards. -/
theorem Memory.assemble_of_encode {m : Memory} {a : Address} {e : Encoding} {o : Operand}
    {operand : List Byte} (he : e ∈ Encoding.all) (hmode : e.mode = o.mode)
    (hencode : o.encode a.toNat e.length = .ok operand)
    (hw : ∀ i, i < operand.length + 1 → m.isWritable (a.after i) = true) :
    (m.assemble a e.mnemonic o).1 = m.writeAll a (e.opcode :: operand) ∧
      (m.assemble a e.mnemonic o).2.2 = .assembled ⟨a, e.opcode :: operand⟩ := by
  have hfind : Encoding.find? e.mnemonic o.mode = some e :=
    Encoding.find?_eq_some_iff.mpr ⟨he, rfl, hmode⟩
  have hshort : operand.length + 1 ≤ 65536 := by
    have hmax := e.length_le_three
    rw [Encoding.length, hmode, ← Operand.length_of_encode hencode] at hmax
    omega
  have hresult := m.put_result_of_writable a e.opcode operand hshort hw
  simp only [assemble, hfind, hencode, hresult, memory_put, and_self]

/-- A line with the name of an instruction, and with an operand text that means an operand to it
unless the instruction takes none, ends as the instruction does with this operand. -/
theorem enterLine_of_means (m : Memory) (a : Address) {c : Console} {line : List Char}
    {rest : List (List Char)} (h : c.Offers line rest) {i : Mnemonic} {o : Operand}
    (hname : Console.mnemonicText line = i.name.toList)
    (hnone : i.takesNoOperand = true → o = ⟨.implicit, 0⟩)
    (hmeans : i.takesNoOperand = false → Operand.Means i.modes (Console.operandText line) o) :
    (enterLine m c a).memory = (m.assemble a i o).1 ∧
      (enterLine m c a).result.ending = (m.assemble a i o).2.2 ∧
      (enterLine m c a).result.address = a ∧ (enterLine m c a).console.Ready rest := by
  obtain ⟨hanswer, hconsole⟩ := h.takeMnemonic_eq
  obtain ⟨hready, hreadyOperand⟩ := h.ready
  obtain ⟨hoperand, -⟩ := Console.takeOperand_afterMnemonic h.escape_eq h.free rest
  rw [hname, String.ofList_toList] at hanswer
  simp only [enterLine, hanswer, hconsole, enterMnemonic, Mnemonic.ofName?_name]
  cases htakes : i.takesNoOperand with
  | true =>
    rw [hnone htakes]
    exact ⟨rfl, rfl, rfl, hready⟩
  | false =>
    have hread : Operand.read i.modes (String.ofList (Console.operandText line)) = .ok o := by
      rw [Operand.read_eq_ok_iff, String.toList_ofList]
      exact hmeans htakes
    simp only [enterOperand, hoperand, hread]
    exact ⟨rfl, rfl, rfl, hreadyOperand⟩

/-! ## The text of a row -/

/-- The text of a row, typed in at the address of the row, is assembled to its bytes. -/
theorem enterLine_row {m : Memory} {a : Address} {c : Console} {e : Encoding}
    {operand : List Byte} {rest : List (List Char)} (he : e ∈ Encoding.all)
    (hlen : operand.length = e.mode.operandLength)
    (hc : c.Ready ((e.row a.toNat operand).text.toList :: rest))
    (hw : ∀ i, i < operand.length + 1 → m.isWritable (a.after i) = true) :
    (enterLine m c a).memory = m.writeAll a (e.opcode :: operand) ∧
      (enterLine m c a).result.ending = .assembled ⟨a, e.opcode :: operand⟩ ∧
      (enterLine m c a).result.address = a ∧ (enterLine m c a).console.Ready rest := by
  have hmode : e.mode = (Operand.decode e.mode operand a.toNat).mode :=
    (Operand.mode_decode _ _ _).symm
  have hnone : e.mnemonic.takesNoOperand = true →
      Operand.decode e.mode operand a.toNat = ⟨.implicit, 0⟩ := by
    intro htakes
    have himplicit : e.mode = .implicit :=
      (Encoding.mode_of_kind e he).1.mpr (Mnemonic.takesNoOperand_iff.mp htakes)
    rw [himplicit] at hlen ⊢
    rw [List.eq_nil_of_length_eq_zero hlen]
    rfl
  have hmeans : e.mnemonic.takesNoOperand = false → Operand.Means e.mnemonic.modes
      (Console.operandText (e.row a.toNat operand).text.toList)
      (Operand.decode e.mode operand a.toNat) := by
    intro htakes
    have himplicit : e.mode ≠ .implicit := by
      intro himplicit
      have hkind := (Encoding.mode_of_kind e he).1.mp himplicit
      rw [Mnemonic.takesNoOperand_iff.mpr hkind] at htakes
      cases htakes
    obtain ⟨v, hv, htyped⟩ := (Operand.fits_decode (a.toNat : Int) hlen).typed_text
    rw [← hmode] at htyped
    have hdecode : Operand.decode e.mode operand a.toNat = ⟨e.mode, v⟩ := by
      rw [← hv]
      exact congrArg (Operand.mk · _) hmode.symm
    rw [e.operandText_row _ hlen, hdecode]
    rw [hdecode] at htyped
    exact .of_typed he himplicit htyped
  obtain ⟨hmemory, hending, haddress, hready⟩ := enterLine_of_means m a
    (e.offers_row _ hlen hc) (e.mnemonicText_row _ hlen) hnone hmeans
  obtain ⟨hwritten, hassembled⟩ :=
    Memory.assemble_of_encode he hmode (Operand.encode_decode a.toNat hlen) hw
  exact ⟨hmemory.trans hwritten, hending.trans hassembled, haddress, hready⟩

/-! ## All rows of a listing -/

/-- The line was assembled to the bytes of the row, at its address. -/
def Row.Assembled (row : Row) (r : Line) : Prop :=
  r.outcome = .success ∧ r.data = row.raw ∧ (r.address.toNat : Int) = row.address

/-- Without lines to read nothing is assembled. -/
theorem enterLines_of_ready_nil (m : Memory) {c : Console} (a : Address) (h : c.Ready []) :
    (enterLines m c a).memory = m ∧ (enterLines m c a).finish = a ∧
      (enterLines m c a).results = [] := by
  have hanswer := h.answer_takeMnemonic_eq_none
  have hended : (enterLine m c a).result.ending = .ended := by
    simp only [enterLine, hanswer]
  have hmemory := (touching_enterLine m c a).memory_eq_of_ended hended
  rw [enterLines_of_ended hended]
  exact ⟨hmemory, rfl, rfl⟩

/-- The rows of whole instructions, typed in where the code begins, write the code again. -/
theorem Disassembly.enterLines_typed {a : Address} {code : List Byte} {shown : List Row}
    (h : Disassembly a code shown) {m : Memory} {c : Console}
    (hc : c.Ready (shown.map fun row => row.text.toList))
    (hw : ∀ i, i < code.length → m.isWritable (a.after i) = true) :
    (enterLines m c a).memory = m.writeAll a code ∧
      (enterLines m c a).finish = a.after code.length ∧
      List.Forall₂ Row.Assembled shown (enterLines m c a).results := by
  induction h generalizing m c with
  | nil a =>
    obtain ⟨hmemory, hfinish, hresults⟩ := enterLines_of_ready_nil m a hc
    rw [hresults]
    exact ⟨hmemory, hfinish.trans a.after_zero.symm, .nil⟩
  | @cons a e operand rest shown he hlen hrest ih =>
    have hlength := Encoding.length_code_append hlen rest
    have hwhole := Encoding.length_code hlen
    have hfirst : ∀ i, i < operand.length + 1 → m.isWritable (a.after i) = true := by
      intro i hi
      refine hw i ?_
      rw [hlength, ← hwhole, List.length_cons]
      omega
    obtain ⟨hmemory, hending, haddress, hready⟩ := enterLine_row he hlen hc hfirst
    have hbehind : ∀ i, i < rest.length →
        (m.writeAll a (e.opcode :: operand)).isWritable ((a.after e.length).after i) = true := by
      intro i hi
      rw [Memory.isWritable_writeAll, Address.after_after]
      exact hw _ (by omega)
    have hnext : (enterLine m c a).result.next = a.after e.length := by
      rw [Line.next, hending, ← hwhole]
      rfl
    have hended : (enterLine m c a).result.ending ≠ .ended := by
      rw [hending]
      simp
    obtain ⟨hwritten, hfinish, hlines⟩ := ih hready hbehind
    rw [enterLines_of_not_ended hended, hmemory, hnext]
    refine ⟨?_, ?_, .cons ⟨?_, ?_, ?_⟩ hlines⟩
    · rw [hwritten, Memory.writeAll_append, hwhole]
    · rw [hfinish, hlength, Address.after_after]
    · rw [Line.outcome, hending]
      rfl
    · rw [Line.data, hending]
      rfl
    · rw [haddress]
      rfl

/-- Disassembling and assembling again changes nothing: if code is listed without comments, then
in every memory that can be written where the code stood the listing, typed in line by line from
its start on, is assembled row for row to the bytes and at the addresses that it shows, ends
behind the code, and leaves the code in memory. -/
theorem Session.assemble_listing {s after : Session} {start : Address} {data : List Byte}
    {told : Transcript} {S : Assembly} (hdata : data.length ≤ 65536)
    (hwhole : ∀ row ∈ listing start.toNat data, row.comment = "")
    (hw : ∀ i, i < data.length → s.memory.isWritable (start.after i) = true)
    (hc : s.console = Console.ofText (Row.typed (listing start.toNat data)) "\x1b")
    (h : s.assemble start.toNat = (after, told, S)) :
    List.Forall₂ Row.Assembled (listing start.toNat data) S.results ∧
      S.start = start ∧ S.finish = start.after data.length ∧
      after.memory.bytes start data.length = data := by
  have hshown : Disassembly start data (listing start.toNat data) :=
    .of_rows (Nat.le_refl _) hwhole
  have hready : s.console.Ready ((listing start.toNat data).map fun row => row.text.toList) := by
    rw [hc, ← hshown.typedLines_typed]
    exact Console.ready_ofText _
  obtain ⟨hwritten, hfinish, hlines⟩ := hshown.enterLines_typed hready hw
  simp only [assemble, Address.ofInt_toNat, Prod.mk.injEq] at h
  obtain ⟨rfl, -, rfl⟩ := h
  refine ⟨hlines, rfl, hfinish, ?_⟩
  simp only [hwritten]
  exact s.memory.bytes_writeAll start data hdata hw

/-- A loop that runs past the top of memory, in the only bytes that can be written. -/
theorem Session.assemble_listing_past_top :
    let data : List Byte := [0xA2, 0x0A, 0xCA, 0xD0, 0xFD, 0x00]
    let start : Address := 0xFFFE
    let s : Session :=
      { memory := Memory.filled [⟨4, 0xFFFD, by decide⟩] [] 0
        console := Console.ofText (Row.typed (listing start.toNat data)) "\x1b" }
    let run := s.assemble start.toNat
    List.Forall₂ Row.Assembled (listing start.toNat data) run.2.2.results ∧
      run.2.2.start = 0xFFFE ∧ run.2.2.finish = 4 ∧ run.1.memory.bytes 0xFFFE 6 = data := by
  intro data start s run
  have hwhole : ∀ row ∈ listing start.toNat data, row.comment = "" := by decide +kernel
  have hw : ∀ i, i < data.length → s.memory.isWritable (start.after i) = true := by decide +kernel
  have hrun : s.assemble start.toNat = (run.1, run.2.1, run.2.2) := rfl
  obtain ⟨hlines, hstart, hfinish, hbytes⟩ :=
    Session.assemble_listing (by decide) hwhole hw rfl hrun
  exact ⟨hlines, hstart, hfinish.trans (by decide), hbytes⟩

end LineMonitor
