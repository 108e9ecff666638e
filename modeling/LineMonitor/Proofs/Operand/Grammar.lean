import LineMonitor.Operand
import LineMonitor.Proofs.Text.Digits

/-!
# The grammar of operands

An operand is typed in the shape of its mode with a row of digits in the place of its number:
`Shape.Typed s text value`.  The matcher of a shape decides this relation, and a text is typed
in at most one of the shapes of `Operand.typedModes`, because the texts of two shapes differ in
where their digits stand (`Shape.outline`).  So the order in which the shapes are tried does not
matter (`Operand.ofShapeIn?_eq_some_iff`), and `Operand.read` gives an operand exactly if the text
means it to the instruction (`Operand.read_eq_ok_iff`).
-/

namespace LineMonitor

namespace Shape

/-! ## Texts of a shape -/

/-- The text is the shape with a row of digits of the given number in it. -/
def Typed (s : Shape) (text : List Char) (value : Nat) : Prop :=
  ∃ ds : List (Fin 16), ds.length = s.digits ∧
    text = s.lead.toList ++ Hex.write ds ++ s.tail.toList ∧ value = Hex.number ds

/-- A text is matched exactly if it is typed in the shape. -/
theorem match?_eq_some_iff {s : Shape} {text : List Char} {value : Nat} :
    s.match? text = some value ↔ s.Typed text value := by
  constructor
  · intro h
    simp only [match?] at h
    by_cases hfixed : (s.lead.toList.isPrefixOf text &&
        (text.drop s.lead.length).drop s.digits == s.tail.toList) = true
    · rw [if_pos hfixed] at h
      rw [Bool.and_eq_true, List.isPrefixOf_iff_prefix, beq_iff_eq] at hfixed
      obtain ⟨⟨body, rfl⟩, htail⟩ := hfixed
      rw [← String.length_toList, List.drop_left] at htail h
      by_cases hzero : s.digits = 0
      · rw [if_pos hzero] at h
        rw [hzero, List.drop_zero] at htail
        refine ⟨[], hzero.symm, ?_, (Option.some.inj h).symm⟩
        simp [htail]
      · rw [if_neg hzero] at h
        by_cases hshort : body.length < s.digits
        · rw [if_pos hshort] at h
          cases h
        · rw [if_neg hshort] at h
          obtain ⟨ds, -, hds, rfl⟩ := Hex.value?_eq_some_iff.mp h
          refine ⟨ds, ?_, ?_, rfl⟩
          · rw [← Hex.length_write, ← hds, List.length_take]
            omega
          · rw [← hds, ← htail, List.append_assoc, List.take_append_drop]
    · rw [if_neg hfixed] at h
      cases h
  · rintro ⟨ds, hlen, rfl, rfl⟩
    have hdigits : (Hex.write ds).length = s.digits := by rw [Hex.length_write, hlen]
    simp only [match?]
    rw [← String.length_toList, List.append_assoc, List.drop_left, ← hdigits, List.drop_left,
      List.take_left, if_pos (by simp [List.isPrefixOf_iff_prefix])]
    by_cases hzero : (Hex.write ds).length = 0
    · have hnil : ds = [] := by simpa [Hex.write] using hzero
      rw [if_pos hzero, hnil]
      rfl
    · rw [if_neg hzero, if_neg (by simp), Hex.value?_eq_some_iff]
      refine ⟨ds, ?_, rfl, rfl⟩
      rintro rfl
      exact hzero rfl

/-- A shape filled with a number that fits its digits is a text of the shape. -/
theorem typed_fill {s : Shape} {value : Nat} (h : value < 16 ^ s.digits) :
    s.Typed (s.fill value).toList value := by
  unfold fill
  split
  · rename_i hzero
    have hvalue : value = 0 := by
      rw [hzero, pow_zero] at h
      omega
    exact ⟨[], hzero.symm, by simp, hvalue⟩
  · rename_i hpos
    obtain ⟨ds, hwrite, hlen, hnum⟩ := Hex.padded_eq_write h (Nat.pos_of_ne_zero hpos)
    refine ⟨ds, hlen, ?_, hnum.symm⟩
    have hint : (Hex.ofInt s.digits (value : Int)).toList = Hex.padded s.digits value := by
      simp [Hex.ofInt]
    rw [String.toList_append, String.toList_append, hint, hwrite]

/-- The number of a typed text fits the digits of the shape. -/
theorem Typed.value_lt {s : Shape} {text : List Char} {value : Nat} (h : s.Typed text value) :
    value < 16 ^ s.digits := by
  obtain ⟨ds, hlen, -, rfl⟩ := h
  rw [← hlen]
  exact Hex.number_lt ds

/-- A text of a shape has one number. -/
theorem Typed.value_unique {s : Shape} {text : List Char} {v w : Nat} (hv : s.Typed text v)
    (hw : s.Typed text w) : v = w := by
  have h := match?_eq_some_iff.mpr hv
  rw [match?_eq_some_iff.mpr hw] at h
  exact (Option.some.inj h).symm

/-! ## Shapes exclude one another -/

/-- A character with every digit made the letter `n`. -/
def outlineChar (c : Char) : Char :=
  if (Hex.digitValue? c).isSome then 'n' else c

/-- The shape with the letter `n` wherever its texts have a digit. -/
def outline (s : Shape) : List Char :=
  s.lead.toList.map outlineChar ++ List.replicate s.digits 'n' ++ s.tail.toList.map outlineChar

theorem outlineChar_digit (d : Fin 16) : outlineChar (Hex.digit d) = 'n' := by
  rw [outlineChar, Hex.digitValue?_digit d.isLt]
  rfl

/-- All texts of a shape have its outline. -/
theorem Typed.outline_eq {s : Shape} {text : List Char} {value : Nat} (h : s.Typed text value) :
    text.map outlineChar = s.outline := by
  obtain ⟨ds, hlen, rfl, -⟩ := h
  have hdigits : (Hex.write ds).map outlineChar = List.replicate s.digits 'n' := by
    rw [List.eq_replicate_iff]
    refine ⟨by simp [hlen], ?_⟩
    intro c hc
    obtain ⟨x, hx, rfl⟩ := List.mem_map.mp hc
    obtain ⟨d, -, rfl⟩ := List.mem_map.mp hx
    exact outlineChar_digit d
  rw [List.map_append, List.map_append, hdigits, outline]

/-- The shapes that are tried on a text have different outlines. -/
theorem outline_injective : ∀ p ∈ Operand.typedModes, ∀ q ∈ Operand.typedModes,
    p.shape.outline = q.shape.outline → p = q := by
  decide

end Shape

namespace Operand

/-! ## Reading a text -/

theorem mem_typedModes_iff {mode : Mode} :
    mode ∈ typedModes ↔ mode ≠ .implicit ∧ mode ≠ .relative := by
  cases mode <;> decide

/-- Of the shapes that are tried on a text, at most one fits it: the text has the outline of that
shape. -/
theorem eq_of_typed {p q : Mode} (hp : p ∈ typedModes) (hq : q ∈ typedModes) {text : List Char}
    {v w : Nat} (hv : p.shape.Typed text v) (hw : q.shape.Typed text w) : p = q :=
  Shape.outline_injective p hp q hq (hv.outline_eq.symm.trans hw.outline_eq)

/-- The operand of the first shape that fits the text, if the shapes are tried in this order. -/
def ofShapeIn? (order : List Mode) (text : List Char) : Option Operand :=
  order.findSome? fun mode => (mode.shape.match? text).map fun value => ⟨mode, value⟩

/-- In whatever order shapes are tried, they accept an operand exactly if the text is typed in the
shape of its mode. -/
theorem ofShapeIn?_eq_some_iff {order : List Mode} (horder : order ⊆ typedModes)
    {text : List Char} {o : Operand} :
    ofShapeIn? order text = some o ↔
      o.mode ∈ order ∧ ∃ v : Nat, o.value = v ∧ o.mode.shape.Typed text v := by
  have sound : ∀ {p : Operand}, ofShapeIn? order text = some p →
      p.mode ∈ order ∧ ∃ v : Nat, p.value = v ∧ p.mode.shape.Typed text v := by
    intro p h
    obtain ⟨mode, hmode, hmatch⟩ := List.exists_of_findSome?_eq_some h
    obtain ⟨value, hvalue, rfl⟩ := Option.map_eq_some_iff.mp hmatch
    obtain ⟨v, hv, hcast⟩ := Option.bind_eq_some_iff.mp hvalue
    exact ⟨hmode, v, (Option.some.inj hcast).symm, Shape.match?_eq_some_iff.mp hv⟩
  refine ⟨sound, ?_⟩
  rintro ⟨hmode, v, hvalue, htyped⟩
  cases hfound : ofShapeIn? order text with
  | none =>
    have hnone := List.findSome?_eq_none_iff.mp hfound o.mode hmode
    rw [Shape.match?_eq_some_iff.mpr htyped] at hnone
    cases hnone
  | some p =>
    obtain ⟨hpmode, w, hpvalue, hptyped⟩ := sound hfound
    have hsame := eq_of_typed (horder hpmode) (horder hmode) hptyped htyped
    have hvw : w = v := by
      rw [hsame] at hptyped
      exact hptyped.value_unique htyped
    obtain ⟨pmode, pvalue⟩ := p
    obtain ⟨omode, ovalue⟩ := o
    simp only at hsame hpvalue hvalue
    rw [hsame, hpvalue, hvalue, hvw]

/-- The shapes accept an operand exactly if the text is typed in the shape of its mode. -/
theorem ofShape?_eq_some_iff {text : List Char} {o : Operand} :
    ofShape? text = some o ↔
      o.mode ∈ typedModes ∧ ∃ v : Nat, o.value = v ∧ o.mode.shape.Typed text v :=
  ofShapeIn?_eq_some_iff (List.Subset.refl typedModes)

/-- What a text means to an instruction with the given modes: an operand typed in the shape of
its mode, where four digits alone are a target to a branch and an absolute operand to any other
instruction; no text at all means the accumulator. -/
def Means (modes : List Mode) (text : List Char) (o : Operand) : Prop :=
  (text = [] ∧ o = ⟨.accumulator, 0⟩ ∧ .accumulator ∈ modes) ∨
    (o.mode ≠ .implicit ∧ (∃ v : Nat, o.value = v ∧ o.mode.shape.Typed text v) ∧
      (o.mode = .absolute → .relative ∉ modes) ∧ (o.mode = .relative → .relative ∈ modes))

/-- No text at all has the shape of a mode with an operand. -/
theorem not_typed_nil {mode : Mode} (h : mode ≠ .implicit) (v : Nat) : ¬ mode.shape.Typed [] v := by
  rintro ⟨ds, hlen, htext, -⟩
  have hempty := congrArg List.length htext
  simp only [List.length_nil, List.length_append, Hex.length_write, hlen] at hempty
  revert hempty
  cases mode <;> first | exact absurd rfl h | decide

/-- Resolving an operand of a shape gives what its text means. -/
theorem resolve_eq_iff {modes : List Mode} {text : List Char} {o : Operand} :
    (∃ p, ofShape? text = some p ∧ p.resolve modes = o) ↔
      o.mode ≠ .implicit ∧ (∃ v : Nat, o.value = v ∧ o.mode.shape.Typed text v) ∧
        (o.mode = .absolute → .relative ∉ modes) ∧ (o.mode = .relative → .relative ∈ modes) := by
  constructor
  · rintro ⟨p, hp, rfl⟩
    obtain ⟨hmode, v, hv, htyped⟩ := ofShape?_eq_some_iff.mp hp
    obtain ⟨himplicit, hrelative⟩ := mem_typedModes_iff.mp hmode
    unfold resolve
    split
    · rename_i hbranch
      obtain ⟨habsolute, hmem⟩ := hbranch
      rw [habsolute] at htyped
      refine ⟨by simp, ⟨v, hv, htyped⟩, by simp, fun _ => hmem⟩
    · rename_i hplain
      refine ⟨himplicit, ⟨v, hv, htyped⟩, fun ha hr => hplain ⟨ha, hr⟩, ?_⟩
      exact fun hr => absurd hr hrelative
  · rintro ⟨himplicit, ⟨v, hv, htyped⟩, habsolute, hrelative⟩
    obtain ⟨mode, value⟩ := o
    by_cases hr : mode = .relative
    · subst hr
      refine ⟨⟨.absolute, value⟩, ofShape?_eq_some_iff.mpr ⟨?_, v, hv, htyped⟩, ?_⟩
      · exact mem_typedModes_iff.mpr ⟨by simp, by simp⟩
      · rw [resolve, if_pos ⟨rfl, hrelative rfl⟩]
    · refine ⟨⟨mode, value⟩, ofShape?_eq_some_iff.mpr ⟨?_, v, hv, htyped⟩, ?_⟩
      · exact mem_typedModes_iff.mpr ⟨himplicit, hr⟩
      · rw [resolve, if_neg fun h => habsolute h.1 h.2]

/-- An instruction takes from a text exactly the operand that the text means to it. -/
theorem read_eq_ok_iff {modes : List Mode} {text : String} {o : Operand} :
    read modes text = .ok o ↔ Means modes text.toList o := by
  unfold read Means
  by_cases hempty : text = ""
  · subst hempty
    rw [if_pos rfl]
    constructor
    · intro h
      split at h
      · rename_i hmem
        exact Or.inl ⟨rfl, (Except.ok.inj h).symm, hmem⟩
      · cases h
    · rintro (⟨-, rfl, hmem⟩ | ⟨himplicit, ⟨v, -, htyped⟩, -⟩)
      · rw [if_pos hmem]
      · exact absurd htyped (not_typed_nil himplicit v)
  · have hne : text.toList ≠ [] := by simpa using hempty
    rw [if_neg hempty, or_iff_right (fun h => hne h.1), ← resolve_eq_iff]
    cases hshape : ofShape? text.toList with
    | none => simp
    | some p => simp

/-- A text that is refused is reported as a bad operand. -/
theorem outcome_of_read_error {modes : List Mode} {text : String} {cause : Cause}
    (h : read modes text = .error cause) : cause.outcome = .invalidOperand := by
  unfold read at h
  split at h
  · split at h
    · cases h
    · rw [← Except.error.inj h]
      rfl
  · split at h
    · cases h
    · rw [← Except.error.inj h]
      rfl

end Operand

end LineMonitor
