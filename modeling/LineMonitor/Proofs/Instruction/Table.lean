import LineMonitor.Instruction.Encoding

/-!
# The table of encodings

What the rest of the theory needs to know about the table: a search finds what is in it, and an
instruction takes no operand, or a target, or operands of the other modes.  `Mnemonic.kind` says
which; that the rows agree with it is decided by evaluation (`Encoding.mode_of_kind`), and
everything else follows from that.
-/

namespace LineMonitor

/-- What an instruction is followed by: nothing, a target, or an operand in one of the
other modes. -/
inductive Mnemonic.Kind where
  | implied
  | branch
  | general
  deriving DecidableEq, Repr

/-- The kind of an instruction. -/
def Mnemonic.kind : Mnemonic → Kind
  | .brk | .clc | .cld | .cli | .clv | .dex | .dey | .inx | .iny | .nop | .pha | .php | .pla
  | .plp | .rti | .rts | .sec | .sed | .sei | .tax | .tay | .tsx | .txa | .txs | .tya => .implied
  | .bcc | .bcs | .beq | .bmi | .bne | .bpl | .bvc | .bvs => .branch
  | _ => .general

namespace Encoding

/-- A search for an instruction and a mode finds the row that has both. -/
theorem find?_eq_some_iff {mnemonic : Mnemonic} {mode : Mode} {e : Encoding} :
    find? mnemonic mode = some e ↔ e ∈ all ∧ e.mnemonic = mnemonic ∧ e.mode = mode := by
  constructor
  · intro h
    have hmem : e ∈ all := List.mem_of_find?_eq_some h
    have hboth := List.find?_some h
    simp only [Bool.and_eq_true, beq_iff_eq] at hboth
    exact ⟨hmem, hboth⟩
  · rintro ⟨hmem, rfl, rfl⟩
    exact find?_of_mem hmem

theorem find?_eq_none_iff {mnemonic : Mnemonic} {mode : Mode} :
    find? mnemonic mode = none ↔ ∀ e ∈ all, e.mnemonic = mnemonic → e.mode ≠ mode := by
  rw [Option.eq_none_iff_forall_ne_some]
  constructor
  · intro h e he hm hmode
    exact h e (find?_eq_some_iff.mpr ⟨he, hm, hmode⟩)
  · intro h e he
    obtain ⟨hmem, hm, hmode⟩ := find?_eq_some_iff.mp he
    exact h e hmem hm hmode

/-- An instruction is at most three bytes long. -/
theorem length_le_three (e : Encoding) : e.length ≤ 3 := by
  unfold length
  cases e.mode <;> decide

/-! ## The three kinds of instructions -/

/-- The rows of an instruction without operand are in the implicit mode, those of a branch in
the relative one, and the others in neither. -/
theorem mode_of_kind : ∀ e ∈ all,
    (e.mode = .implicit ↔ e.mnemonic.kind = .implied) ∧
      (e.mode = .relative ↔ e.mnemonic.kind = .branch) := by
  decide +kernel

end Encoding

namespace Mnemonic

/-- The modes of an instruction are those of its rows. -/
theorem mem_modes_iff {m : Mnemonic} {mode : Mode} :
    mode ∈ m.modes ↔ ∃ e ∈ Encoding.all, e.mnemonic = m ∧ e.mode = mode := by
  simp only [modes, List.mem_filter, Mode.mem_all, true_and, Option.isSome_iff_exists,
    Encoding.find?_eq_some_iff]

/-- Every instruction has a row. -/
theorem exists_encoding (m : Mnemonic) : ∃ e ∈ Encoding.all, e.mnemonic = m := by
  cases m <;> decide +kernel

theorem implicit_mem_modes_iff {m : Mnemonic} : .implicit ∈ m.modes ↔ m.kind = .implied := by
  rw [mem_modes_iff]
  constructor
  · rintro ⟨e, he, rfl, hmode⟩
    exact (Encoding.mode_of_kind e he).1.mp hmode
  · intro hkind
    obtain ⟨e, he, rfl⟩ := m.exists_encoding
    exact ⟨e, he, rfl, (Encoding.mode_of_kind e he).1.mpr hkind⟩

theorem relative_mem_modes_iff {m : Mnemonic} : .relative ∈ m.modes ↔ m.kind = .branch := by
  rw [mem_modes_iff]
  constructor
  · rintro ⟨e, he, rfl, hmode⟩
    exact (Encoding.mode_of_kind e he).2.mp hmode
  · intro hkind
    obtain ⟨e, he, rfl⟩ := m.exists_encoding
    exact ⟨e, he, rfl, (Encoding.mode_of_kind e he).2.mpr hkind⟩

/-- The instructions that take no operand are those with the implicit mode. -/
theorem takesNoOperand_iff {m : Mnemonic} : m.takesNoOperand = true ↔ m.kind = .implied := by
  rw [takesNoOperand, beq_iff_eq]
  constructor
  · intro h
    rw [← implicit_mem_modes_iff, h]
    exact List.mem_singleton.mpr rfl
  · intro hkind
    have only : ∀ mode, (Encoding.find? m mode).isSome = (mode == .implicit) := by
      intro mode
      rw [Bool.eq_iff_iff, Option.isSome_iff_exists, beq_iff_eq]
      constructor
      · rintro ⟨e, he⟩
        obtain ⟨hmem, rfl, rfl⟩ := Encoding.find?_eq_some_iff.mp he
        exact (Encoding.mode_of_kind e hmem).1.mpr hkind
      · rintro rfl
        obtain ⟨e, he, hm, hmode⟩ := mem_modes_iff.mp (implicit_mem_modes_iff.mpr hkind)
        exact ⟨e, Encoding.find?_eq_some_iff.mpr ⟨he, hm, hmode⟩⟩
    simp only [modes, only]
    rfl

/-- A name consists of three capital letters. -/
theorem length_name (m : Mnemonic) : m.name.toList.length = 3 := by
  cases m <;> rfl

theorem name_ne_nil (m : Mnemonic) : m.name.toList ≠ [] := by
  intro hnil
  have hlength := m.length_name
  rw [hnil] at hlength
  cases hlength

/-- A text names an instruction exactly if it is the name of one. -/
theorem ofName?_eq_some_iff {name : String} {m : Mnemonic} :
    ofName? name = some m ↔ m.name = name := by
  refine ⟨name_of_ofName?, ?_⟩
  rintro rfl
  exact ofName?_name m

theorem ofName?_eq_none_iff {name : String} :
    ofName? name = none ↔ ∀ m : Mnemonic, m.name ≠ name := by
  rw [Option.eq_none_iff_forall_ne_some]
  exact forall_congr' fun m => not_congr ofName?_eq_some_iff

end Mnemonic

end LineMonitor
