import LineMonitor.Proofs.Assembly.Layout
import LineMonitor.Proofs.Assembly.Listing
import LineMonitor.Proofs.Assembly.Reassembly
import LineMonitor.Proofs.Listing.PromptLine
import LineMonitor.Proofs.Session.Listing
import LineMonitor.Tool.Disassembler

/-!
# Typing a listing in with its addresses

The disassembler can list code without bytes, each row behind its address as at the prompt.  Typed
in with these addresses, code that consists of whole instructions is assembled line by line to what
it was exactly if no address in the listing has a letter among its digits
(`Session.assemble_promptText`).

One direction is that such lines are akin to the texts of the rows.  For the other, a line that is
assembled has an opcode, which must be that of its row if memory is to hold the code again; so a
line that succeeds has no letters in its address (`Disassembly.plain_of_agree`).  This needs the
code that is written to end before it comes around to its start.  It does, as long as all lines
succeed, since in a long listing some address begins its letters with `F`, which no instruction does
(`Disassembly.exists_barred`).
-/

namespace LineMonitor

open Console

/-! ## A line that succeeds -/

/-- An instruction that is assembled has its opcode first, and is as long as its mode says. -/
theorem Assembling.exists_encoding {m m' : Memory} {a : Address} {i : Mnemonic} {o : Operand}
    {ending : Ending} (h : Assembling m a i o m' ending) (hsuccess : ending.outcome = .success) :
    ∃ e ∈ Encoding.all, e.mnemonic = i ∧ e.mode = o.mode ∧ ∃ operand,
      ending = .assembled ⟨a, e.opcode :: operand⟩ ∧ operand.length = e.mode.operandLength := by
  cases h with
  | unsupported hfind hfault =>
    rw [Ending.outcome, hfault] at hsuccess
    cases hsuccess
  | outOfReach hfind hencode =>
    rw [Ending.outcome, Operand.outcome_of_encode_error hencode] at hsuccess
    cases hsuccess
  | lost hfind hencode hlost => cases hsuccess
  | kept hfind hencode hkept =>
    obtain ⟨he, hmnemonic, hmode⟩ := Encoding.find?_eq_some_iff.mp hfind
    refine ⟨_, he, hmnemonic, hmode, _, rfl, ?_⟩
    rw [hmode]
    exact Operand.length_of_encode hencode

/-- A line that is assembled has the name of an instruction whose opcode it is assembled to, and if
the instruction takes an operand, one of the mode of the opcode. -/
theorem exists_encoding_of_success {m : Memory} {c : Console} {a : Address} {line : List Char}
    {rest : List (List Char)} (h : c.Offers line rest)
    (hsuccess : (enterLine m c a).result.outcome = .success) :
    ∃ e ∈ Encoding.all, ∃ operand, (enterLine m c a).result.data = e.opcode :: operand ∧
      operand.length = e.mode.operandLength ∧ mnemonicText line = e.mnemonic.name.toList ∧
      (e.mnemonic.takesNoOperand = false →
        ∃ o, o.mode = e.mode ∧ Operand.Means e.mnemonic.modes (operandText line) o) := by
  obtain ⟨hanswer, hconsole⟩ := h.takeMnemonic_eq
  obtain ⟨hoperand, -⟩ := takeOperand_afterMnemonic h.escape_eq h.free rest
  simp only [enterLine, hanswer, hconsole, enterMnemonic] at hsuccess ⊢
  cases hname : Mnemonic.ofName? (String.ofList (mnemonicText line)) with
  | none =>
    simp only [hname] at hsuccess
    cases hsuccess
  | some i =>
    have hspelled : mnemonicText line = i.name.toList := by
      rw [Mnemonic.name_of_ofName? hname, String.toList_ofList]
    cases htakes : i.takesNoOperand with
    | true =>
      simp only [hname, htakes, if_true] at hsuccess ⊢
      obtain ⟨e, he, rfl, -, operand, hending, hlen⟩ :=
        (m.assembling a i ⟨.implicit, 0⟩).exists_encoding hsuccess
      refine ⟨e, he, operand, ?_, hlen, hspelled, fun hasks => ?_⟩
      · simp only [Line.data, Statement.complete, hending]
      · rw [htakes] at hasks
        cases hasks
    | false =>
      simp only [hname, htakes, enterOperand, hoperand, Bool.false_eq_true, if_false]
        at hsuccess ⊢
      cases hread : Operand.read i.modes (String.ofList (operandText line)) with
      | error cause =>
        have hfault : cause.outcome = .invalidOperand := Operand.outcome_of_read_error hread
        simp only [hread] at hsuccess
        cases hfault.symm.trans hsuccess
      | ok o =>
        simp only [hread] at hsuccess ⊢
        obtain ⟨e, he, rfl, hmode, operand, hending, hlen⟩ :=
          (m.assembling a i o).exists_encoding hsuccess
        have hmeans := Operand.read_eq_ok_iff.mp hread
        rw [String.toList_ofList] at hmeans
        refine ⟨e, he, operand, ?_, hlen, hspelled, fun _ => ⟨o, hmode.symm, hmeans⟩⟩
        simp only [Line.data, Statement.complete, hending]

/-! ## The lines of a listing -/

/-- The listing of code without bytes as it is printed, for each row a line with its address. -/
def promptText (shown : List Row) : List Char :=
  (Tool.Disassembler.body true shown ++ "\n").toList

/-- The lines that are typed when it is typed in. -/
def promptLines (shown : List Row) : List (List Char) :=
  shown.map fun row => row.promptLine.toList

/-- Typed in, the listing is one line for each row. -/
theorem Disassembly.typedLines_promptText {a : Address} {code : List Byte} {shown : List Row}
    (h : Disassembly a code shown) (hne : code ≠ []) :
    Text.typedLines (promptText shown) = promptLines shown := by
  have htext : ∀ {row : Row} {others : List Row}, promptText (row :: others) =
      row.promptLine.toList ++ '\n' :: (if others = [] then [] else promptText others) := by
    intro row others
    cases others with
    | nil => simp [promptText, Tool.Disassembler.body]
    | cons next others =>
      simp [promptText, Tool.Disassembler.body, String.intercalate_cons_cons]
  induction h with
  | nil a => exact absurd rfl hne
  | @cons a e operand rest shown he hlen hrest ih =>
    have hplain := e.isPlain_of_mem_promptLine a hlen
    rw [htext, Text.typedLines_append_newline (Row.notMem_of_isPlain (by decide) hplain)
      (Row.notMem_of_isPlain (by decide) hplain), promptLines, List.map_cons]
    cases hrest with
    | nil => rfl
    | cons he' hlen' hrest' =>
      rw [if_neg (List.cons_ne_nil _ _), ih (by simp), promptLines]

/-! ## One result for each line -/

/-- Lines with something on them and without Escape have one result each, which is that of the line
alone over some memory and at some address. -/
theorem forall₂_upshot {lines : List (List Char)}
    (h : ∀ line ∈ lines, ¬ IsBlankLine line ∧ ¬ HasEscape line) (m : Memory) (a : Address) :
    List.Forall₂ (fun line r => ∃ m a, r = (enterLine m (holding [line]) a).result) lines
      (upshot m lines a).results := by
  induction lines generalizing m a with
  | nil =>
    rw [upshot_nil]
    exact .nil
  | cons line lines ih =>
    obtain ⟨⟨hblank, hfree⟩, hlines⟩ := List.forall_mem_cons.mp h
    rw [upshot_cons_of_not_stops m a lines hblank fun hstops => hfree hstops.1]
    exact .cons ⟨m, a, rfl⟩ (ih hlines _ _)

/-- The lines of a listing have one result each. -/
theorem Disassembly.forall₂_upshot {a : Address} {code : List Byte} {shown : List Row}
    (h : Disassembly a code shown) (m : Memory) (b : Address) :
    List.Forall₂ (fun row r => ∃ m a, r = (enterLine m (holding [row.promptLine.toList]) a).result)
      shown (upshot m (promptLines shown) b).results := by
  refine List.forall₂_map_left_iff.mp (LineMonitor.forall₂_upshot ?_ m b)
  induction h with
  | nil a => simp
  | @cons a e operand rest shown he hlen hrest ih =>
    exact List.forall_mem_cons.mpr
      ⟨⟨e.not_isBlankLine_promptLine a hlen, e.not_hasEscape_promptLine a hlen⟩, ih⟩

/-! ## Addresses that begin with `F` -/

/-- Addresses that have the letter `F` first among their letters, as have the two behind each. -/
def barred : List Address :=
  [0x0F00, 0x5F00, 0x9F00, 0xF000]

theorem head?_letters_barred :
    ∀ w ∈ barred, ∀ j < 3, (w.after j).letters.head? = some 'F' := by
  intro w hw j hj
  simp only [barred, List.mem_cons, List.not_mem_nil, or_false] at hw
  interval_cases j <;> rcases hw with rfl | rfl | rfl | rfl <;> decide +kernel

/-- No name of an instruction begins with it. -/
theorem Mnemonic.head?_name_ne (i : Mnemonic) : i.name.toList.head? ≠ some 'F' := by
  cases i <;> decide

/-- From every address on, one of them comes soon. -/
theorem exists_offset_barred (a : Address) : ∃ w ∈ barred, a.offset w ≤ 20736 := by
  have hnear : a.offset 0x0F00 ≤ 20736 ∨ a.offset 0x5F00 ≤ 20736 ∨ a.offset 0x9F00 ≤ 20736 ∨
      a.offset 0xF000 ≤ 20736 := by
    simp only [Address.offset]
    bv_omega
  simpa [barred] using hnear

/-- There are no more rows than bytes. -/
theorem Disassembly.length_le {a : Address} {code : List Byte} {shown : List Row}
    (h : Disassembly a code shown) : shown.length ≤ code.length := by
  induction h with
  | nil a => exact Nat.le_refl 0
  | @cons a e operand rest shown he hlen hrest ih =>
    rw [Encoding.length_code_append hlen, List.length_cons, Encoding.length]
    omega

/-- One of three addresses in code is that of a row. -/
theorem Disassembly.exists_row {a : Address} {code : List Byte} {shown : List Row}
    (h : Disassembly a code shown) {n : Nat} (hn : n + 2 < code.length) :
    ∃ j < 3, ∃ e : Encoding, ∃ operand, operand.length = e.mode.operandLength ∧
      e.row (a.after (n + j)).toNat operand ∈ shown := by
  induction h generalizing n with
  | nil a => cases hn
  | @cons a e operand rest shown he hlen hrest ih =>
    rw [Encoding.length_code_append hlen] at hn
    have hbounds : 1 ≤ e.length ∧ e.length ≤ 3 := ⟨Nat.le_add_right 1 _, e.length_le_three⟩
    rcases Nat.eq_zero_or_pos n with rfl | hpos
    · refine ⟨0, by decide, e, operand, hlen, ?_⟩
      rw [Address.after_zero]
      exact List.mem_cons_self
    · -- the row behind the first is near enough, or the place lies behind it
      rcases Nat.lt_or_ge n e.length with hnear | hfar
      · cases hrest with
        | nil =>
          rw [List.length_nil] at hn
          omega
        | @cons _ next operand' rest' shown' he' hlen' hrest' =>
          refine ⟨e.length - n, by omega, next, operand', hlen', ?_⟩
          rw [Nat.add_sub_cancel' hnear.le]
          exact List.mem_cons_of_mem _ List.mem_cons_self
      · obtain ⟨j, hj, next, operand', hlen', hmem⟩ := ih (n := n - e.length) (by omega)
        refine ⟨j, hj, next, operand', hlen', ?_⟩
        rw [Address.after_after, ← Nat.add_assoc, Nat.add_sub_cancel' hfar] at hmem
        exact List.mem_cons_of_mem _ hmem

/-- A console offers the line of a row with its address. -/
theorem Encoding.offers_promptLine (e : Encoding) (b : Address) {operand : List Byte}
    (hlen : operand.length = e.mode.operandLength) :
    (holding [(e.row b.toNat operand).promptLine.toList]).Offers
      (e.row b.toNat operand).promptLine.toList [] :=
  (ready_holding [(e.row b.toNat operand).promptLine.toList]).offers
    (e.not_isBlankLine_promptLine b hlen) (e.not_hasEscape_promptLine b hlen)

/-- A line with such an address is not assembled. -/
theorem Encoding.not_success_of_barred {e : Encoding} {b : Address} {operand : List Byte}
    (hlen : operand.length = e.mode.operandLength) (hb : b.letters.head? = some 'F') (m : Memory)
    (a : Address) :
    (enterLine m (holding [(e.row b.toNat operand).promptLine.toList]) a).result.outcome ≠
      .success := by
  intro hsuccess
  obtain ⟨e', -, -, -, -, hname, -⟩ :=
    exists_encoding_of_success (e.offers_promptLine b hlen) hsuccess
  refine e'.mnemonic.head?_name_ne ?_
  rw [← hname, e.mnemonicText_promptLine b hlen]
  cases hletters : b.letters with
  | nil =>
    rw [hletters] at hb
    cases hb
  | cons l more =>
    rw [hletters] at hb
    exact hb

/-- In a long listing there is a line that is not assembled. -/
theorem Disassembly.exists_barred {a : Address} {code : List Byte} {shown : List Row}
    (h : Disassembly a code shown) (hlong : 20738 < code.length) (m : Memory) (b : Address) :
    ∃ r ∈ (upshot m (promptLines shown) b).results, r.outcome ≠ .success := by
  obtain ⟨w, hw, hnear⟩ := exists_offset_barred a
  obtain ⟨j, hj, e, operand, hlen, hmem⟩ := h.exists_row (n := a.offset w) (by omega)
  rw [← Address.after_after, Address.after_offset] at hmem
  have hresults := h.forall₂_upshot m b
  obtain ⟨i, hi, hrow⟩ := List.getElem_of_mem hmem
  have hi' : i < (upshot m (promptLines shown) b).results.length := hresults.length_eq ▸ hi
  obtain ⟨m', a', hresult⟩ := hresults.get hi hi'
  rw [List.get_eq_getElem, List.get_eq_getElem, hrow] at hresult
  refine ⟨_, List.getElem_mem hi', ?_⟩
  rw [hresult]
  exact Encoding.not_success_of_barred hlen (head?_letters_barred w hw j hj) m' a'

/-! ## Code that agrees -/

/-- Neither of the codes differs from the other before it ends. -/
def Agree (code other : List Byte) : Prop :=
  code <+: other ∨ other <+: code

namespace Agree

variable {code other : List Byte}

theorem of_cons {x y : Byte} (h : Agree (x :: code) (y :: other)) : x = y ∧ Agree code other := by
  rcases h with h | h
  · obtain ⟨hxy, hrest⟩ := List.cons_prefix_cons.mp h
    exact ⟨hxy, Or.inl hrest⟩
  · obtain ⟨hyx, hrest⟩ := List.cons_prefix_cons.mp h
    exact ⟨hyx.symm, Or.inr hrest⟩

/-- Behind fronts of the same length they agree as well. -/
theorem of_append {front front' : List Byte} (h : Agree (front ++ code) (front' ++ other))
    (hlength : front.length = front'.length) : Agree code other := by
  induction front generalizing front' with
  | nil =>
    rw [List.eq_nil_of_length_eq_zero hlength.symm] at h
    exact h
  | cons x front ih =>
    cases front' with
    | nil => cases hlength
    | cons y front' => exact ih h.of_cons.2 (Nat.succ.inj hlength)

end Agree

/-- What memory holds from an address on agrees. -/
theorem Memory.agree_bytes (m : Memory) (a : Address) (n k : Nat) :
    Agree (m.bytes a n) (m.bytes a k) := by
  rcases Nat.le_total n k with h | h
  · left
    rw [← m.take_bytes a h]
    exact List.take_prefix _ _
  · right
    rw [← m.take_bytes a h]
    exact List.take_prefix _ _

/-- If all lines are assembled to code that agrees with the code listed, there are no letters in the
addresses: as long as there are none, each line is assembled where its row stands, and so the next
line has the opcode of its own row. -/
theorem Disassembly.plain_of_agree {a : Address} {code : List Byte} {shown : List Row}
    (h : Disassembly a code shown) {m : Memory}
    (hsuccess : ∀ r ∈ (upshot m (promptLines shown) a).results, r.outcome = .success)
    (hagree : Agree (Line.code (upshot m (promptLines shown) a).results) code) :
    ∀ row ∈ shown, row.HasPlainAddress := by
  induction h generalizing m with
  | nil a => simp
  | @cons a e operand rest shown he hlen hrest ih =>
    have hblank := e.not_isBlankLine_promptLine a hlen
    have hfree := e.not_hasEscape_promptLine a hlen
    rw [promptLines, List.map_cons, ← promptLines, upshot_cons_of_not_stops m a _ hblank
      fun hstops => hfree hstops.1] at hsuccess hagree
    obtain ⟨hfirst, hlater⟩ := List.forall_mem_cons.mp hsuccess
    obtain ⟨e', he', operand', hdata, hlen', hname, hoperand⟩ :=
      exists_encoding_of_success (e.offers_promptLine a hlen) hfirst
    have hcode := Line.code_cons_of_success hfirst
    rw [Upshot.behind, List.singleton_append, hcode, hdata] at hagree
    have hopcode : e' = e := by
      have hfound := Encoding.ofOpcode?_opcode he'
      rw [hagree.of_cons.1, Encoding.ofOpcode?_opcode he] at hfound
      exact (Option.some.inj hfound).symm
    subst hopcode
    have hnext :
        (enterLine m (holding [(e'.row a.toNat operand).promptLine.toList]) a).result.next =
          a.after e'.length := by
      rcases (touching_enterLine m _ a).failed_or_assembled with
        ⟨hfailed, -⟩ | ⟨-, -, hnext, -⟩
      · exact absurd hfirst hfailed
      · rw [hnext, hdata, Encoding.length_code hlen']
    have hplain : (e'.row a.toNat operand).HasPlainAddress :=
      Encoding.hasPlainAddress_row_iff.mpr (e'.letters_eq_nil a hlen hname hoperand)
    rw [hnext] at hlater hagree
    refine List.forall_mem_cons.mpr ⟨hplain, ih hlater (hagree.of_append ?_)⟩
    rw [Encoding.length_code hlen', Encoding.length_code hlen]

/-! ## Typing in the listing -/

/-- Without letters in the addresses the lines are akin to the texts of the rows. -/
theorem Disassembly.akin_promptLines {a : Address} {code : List Byte} {shown : List Row}
    (h : Disassembly a code shown) (hplain : ∀ row ∈ shown, row.HasPlainAddress) :
    List.Forall₂ Akin (promptLines shown) (shown.map fun row => row.text.toList) := by
  induction h with
  | nil a => exact .nil
  | @cons a e operand rest shown he hlen hrest ih =>
    obtain ⟨hfirst, hothers⟩ := List.forall_mem_cons.mp hplain
    exact .cons (e.akin_promptLine a hlen (Encoding.hasPlainAddress_row_iff.mp hfirst))
      (ih hothers)

/-- Without letters in the addresses the code is written again. -/
theorem Disassembly.upshot_promptLines {a : Address} {code : List Byte} {shown : List Row}
    (h : Disassembly a code shown) (hplain : ∀ row ∈ shown, row.HasPlainAddress) {m : Memory}
    (hw : ∀ i, i < code.length → m.isWritable (a.after i) = true) :
    (upshot m (promptLines shown) a).memory = m.writeAll a code ∧
      (upshot m (promptLines shown) a).finish = a.after code.length ∧
      List.Forall₂ Row.Assembled shown (upshot m (promptLines shown) a).results := by
  obtain ⟨hmemory, hresults, hfinish⟩ := upshot_congr (h.akin_promptLines hplain) m a
  obtain ⟨hwritten, hend, hlines⟩ := h.enterLines_typed (ready_holding _) hw
  rw [hmemory, hresults, hfinish]
  exact ⟨hwritten, hend, hlines⟩

/-- If all lines are assembled, and memory holds the code again, there are no letters in the
addresses. -/
theorem Disassembly.plain_of_success {a : Address} {code : List Byte} {shown : List Row}
    (h : Disassembly a code shown) {m : Memory}
    (hsuccess : ∀ r ∈ (upshot m (promptLines shown) a).results, r.outcome = .success)
    (hbytes : (upshot m (promptLines shown) a).memory.bytes a code.length = code) :
    ∀ row ∈ shown, row.HasPlainAddress := by
  have hrun : Running m a (upshot m (promptLines shown) a).memory
      (upshot m (promptLines shown) a).results (upshot m (promptLines shown) a).finish :=
    running_enterLines m (holding (promptLines shown)) a
  rcases Nat.lt_or_ge 20738 code.length with hlong | hshort
  · obtain ⟨r, hr, hfailed⟩ := h.exists_barred hlong m a
    exact absurd (hsuccess r hr) hfailed
  · -- the lines write three bytes each at most, so they do not come around
    have hlines : (Line.successes (upshot m (promptLines shown) a).results).length ≤ 20738 :=
      calc (Line.successes (upshot m (promptLines shown) a).results).length
          ≤ (upshot m (promptLines shown) a).results.length := List.length_filter_le _ _
        _ = shown.length := (h.forall₂_upshot m a).length_eq.symm
        _ ≤ code.length := h.length_le
        _ ≤ 20738 := hshort
    have hcode := hrun.bytes_eq (hrun.length_code_le.trans (by omega))
    refine h.plain_of_agree hsuccess ?_
    have hagree := (upshot m (promptLines shown) a).memory.agree_bytes a
      (Line.code (upshot m (promptLines shown) a).results).length code.length
    rwa [hcode, hbytes] at hagree

/-- Code that is listed as whole instructions, typed in with the addresses of the listing over
memory that can be written where it stood, is assembled line by line to what it was if no address
has a letter among its digits, and only then are all lines assembled and the code is in memory
again. -/
theorem Session.assemble_promptText (s : Session) {start : Address} {data : List Byte}
    (hne : data ≠ []) (hlen : data.length ≤ 65536)
    (hwhole : ∀ row ∈ listing start.toNat data, row.comment = "")
    (hw : ∀ i, i < data.length → s.memory.isWritable (start.after i) = true) :
    let shown := listing start.toNat data
    let run := (s.typing (promptText shown)).assemble start.toNat
    run.2.2.results.length = shown.length ∧
      (((∀ r ∈ run.2.2.results, r.outcome = .success) ∧
        run.1.memory.bytes start data.length = data) ↔ ∀ row ∈ shown, row.HasPlainAddress) ∧
      ((∀ row ∈ shown, row.HasPlainAddress) →
        List.Forall₂ Row.Assembled shown run.2.2.results ∧
          run.2.2.finish = start.after data.length) := by
  intro shown run
  have hshown : Disassembly start data shown := .of_rows (Nat.le_refl _) hwhole
  obtain ⟨hmemory, hresults, hfinish⟩ : run.1.memory =
      (upshot s.memory (promptLines shown) start).memory ∧
      run.2.2.results = (upshot s.memory (promptLines shown) start).results ∧
      run.2.2.finish = (upshot s.memory (promptLines shown) start).finish := by
    have hrun := s.upshot_assemble (promptText shown) start.toNat
    rw [hshown.typedLines_promptText hne, Address.ofInt_toNat] at hrun
    rw [← hrun]
    exact ⟨rfl, rfl, rfl⟩
  rw [hmemory, hresults, hfinish]
  refine ⟨(hshown.forall₂_upshot s.memory start).length_eq.symm, ⟨?_, fun hplain => ?_⟩,
    fun hplain => ?_⟩
  · rintro ⟨hsuccess, hbytes⟩
    exact hshown.plain_of_success hsuccess hbytes
  · obtain ⟨hwritten, -, hlines⟩ := hshown.upshot_promptLines hplain hw
    rw [hwritten]
    refine ⟨fun r hr => ?_, s.memory.bytes_writeAll start data hlen hw⟩
    obtain ⟨i, hi, rfl⟩ := List.getElem_of_mem hr
    exact (hlines.get (hlines.length_eq ▸ hi) hi).1
  · obtain ⟨-, hend, hlines⟩ := hshown.upshot_promptLines hplain hw
    exact ⟨hlines, hend⟩

/-- A loop at addresses without letters. -/
theorem Session.assemble_promptText_loop :
    let data : List Byte := [0xA2, 0x0A, 0xCA, 0xD0, 0xFD, 0x00]
    let start : Address := 0x6000
    let s : Session := { memory := Memory.filled [] [] 0, console := ofText [] "\x1b" }
    let shown := listing start.toNat data
    let run := (s.typing (promptText shown)).assemble start.toNat
    (∀ row ∈ shown, row.comment = "") ∧ (∀ row ∈ shown, row.HasPlainAddress) ∧
      run.2.2.results.length = 4 ∧ (∀ r ∈ run.2.2.results, r.outcome = .success) ∧
      run.1.memory.bytes start 6 = data ∧ run.2.2.finish = 0x6006 := by
  intro data start s shown run
  have hwhole : ∀ row ∈ shown, row.comment = "" := by decide +kernel
  have hplain : ∀ row ∈ shown, row.HasPlainAddress := by decide +kernel
  obtain ⟨hlength, hiff, hlines⟩ :=
    s.assemble_promptText (by decide) (by decide) hwhole (by decide +kernel)
  obtain ⟨hsuccess, hbytes⟩ := hiff.mpr hplain
  exact ⟨hwhole, hplain, hlength, hsuccess, hbytes, (hlines hplain).2⟩

/-- The letter in the address is taken for the first letter of the mnemonic. -/
theorem Session.assemble_promptText_letter :
    let s : Session := { memory := Memory.filled [] [] 0, console := ofText [] "\x1b" }
    let shown := listing 0x000A [0xEA]
    let run := (s.typing (promptText shown)).assemble 0x000A
    (∀ row ∈ shown, row.comment = "") ∧ promptText shown = "000A: NOP\n".toList ∧
      run.2.2.results.map Line.outcome = [.invalidInstruction] ∧
      run.1.memory.bytes 0x000A 1 ≠ [0xEA] := by
  decide +kernel

end LineMonitor
