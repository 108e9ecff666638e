import LineMonitor.Proofs.Operand.RoundTrip
import Mathlib.Data.List.Forall2

/-!
# Reading is inverse to writing

The texts of a shape are described in two ways.  `Shape.Filled` compares a text with the pattern of
the shape character by character, where the letter `n` stands for any of the sixteen digits;
`Shape.Typed` names the row of digits and its number.  They agree for the shapes of the modes
(`Shape.filled_iff`), none of which has an `n` of its own.

A text of a shape is the shape filled with its number (`Shape.Typed.fill_eq`), so an operand that
is read is written as the text it was read from, and `Operand.read_exact` joins this to what the
grammar accepts: nothing but the eleven shapes, in whatever order they are tried, and no text at all
for the accumulator.
-/

namespace LineMonitor

namespace Shape

/-! ## Texts and patterns -/

/-- A character may stand in a pattern where there is `p`: any digit for the letter `n`, and `p`
itself otherwise. -/
def StandsFor (c p : Char) : Prop :=
  if p = 'n' then c ∈ "0123456789ABCDEF".toList else c = p

/-- The text is the pattern of the shape with a digit in the place of every `n`. -/
def Filled (s : Shape) (text : List Char) : Prop :=
  List.Forall₂ StandsFor text s.pattern.toList

/-- Only a text of digits fills a row of the letter `n`. -/
theorem forall₂_standsFor_replicate {text : List Char} {count : Nat} :
    List.Forall₂ StandsFor text (List.replicate count 'n') ↔
      ∃ ds : List (Fin 16), ds.length = count ∧ text = Hex.write ds := by
  induction count generalizing text with
  | zero =>
    rw [List.replicate_zero, List.forall₂_nil_right_iff]
    constructor
    · rintro rfl
      exact ⟨[], rfl, rfl⟩
    · rintro ⟨ds, hlen, rfl⟩
      rw [List.length_eq_zero_iff.mp hlen, Hex.write_nil]
  | succ count ih =>
    rw [List.replicate_succ, List.forall₂_cons_right_iff]
    constructor
    · rintro ⟨c, rest, hc, hrest, rfl⟩
      rw [StandsFor, if_pos rfl, Hex.mem_digits_iff] at hc
      obtain ⟨d, rfl⟩ := hc
      obtain ⟨ds, hlen, rfl⟩ := ih.mp hrest
      exact ⟨d :: ds, by rw [List.length_cons, hlen], rfl⟩
    · rintro ⟨ds, hlen, rfl⟩
      cases ds with
      | nil => simp at hlen
      | cons d ds =>
        refine ⟨Hex.digit d, Hex.write ds, ?_, ih.mpr ⟨ds, by simpa using hlen, rfl⟩, rfl⟩
        rw [StandsFor, if_pos rfl, Hex.mem_digits_iff]
        exact ⟨d, rfl⟩

/-- A pattern without the letter `n` is filled by itself alone. -/
theorem forall₂_standsFor_of_not_mem {text fixed : List Char} (h : 'n' ∉ fixed) :
    List.Forall₂ StandsFor text fixed ↔ text = fixed := by
  induction fixed generalizing text with
  | nil => exact List.forall₂_nil_right_iff
  | cons p fixed ih =>
    obtain ⟨hp, hfixed⟩ := not_or.mp (mt List.mem_cons.mpr h)
    rw [List.forall₂_cons_right_iff]
    constructor
    · rintro ⟨c, rest, hc, hrest, rfl⟩
      rw [StandsFor, if_neg (Ne.symm hp)] at hc
      rw [hc, (ih hfixed).mp hrest]
    · rintro rfl
      refine ⟨p, fixed, ?_, (ih hfixed).mpr rfl, rfl⟩
      rw [StandsFor, if_neg (Ne.symm hp)]

/-- A text fills a shape exactly if it is typed in it with some number. -/
theorem filled_iff {s : Shape} (hlead : 'n' ∉ s.lead.toList) (htail : 'n' ∉ s.tail.toList)
    {text : List Char} : s.Filled text ↔ ∃ v, s.Typed text v := by
  have hpattern : s.pattern.toList =
      s.lead.toList ++ List.replicate s.digits 'n' ++ s.tail.toList := by
    simp [pattern]
  rw [Filled, hpattern]
  constructor
  · intro h
    -- the text is cut where the pattern is: behind the lead and behind the digits
    have hfront := List.forall₂_take_append _ _ _ h
    have hbehind := List.forall₂_drop_append _ _ _ h
    have hfirst := List.forall₂_take_append _ _ _ hfront
    have hmiddle := List.forall₂_drop_append _ _ _ hfront
    rw [forall₂_standsFor_of_not_mem htail] at hbehind
    rw [forall₂_standsFor_of_not_mem hlead] at hfirst
    obtain ⟨ds, hlen, hwrite⟩ := forall₂_standsFor_replicate.mp hmiddle
    refine ⟨Hex.number ds, ds, hlen, ?_, rfl⟩
    have hjoined := List.take_append_drop s.lead.toList.length
      (text.take (s.lead.toList ++ List.replicate s.digits 'n').length)
    rw [hfirst, hwrite] at hjoined
    rw [hjoined, ← hbehind, List.take_append_drop]
  · rintro ⟨v, ds, hlen, rfl, -⟩
    have hfirst := (forall₂_standsFor_of_not_mem hlead).mpr rfl
    have hmiddle := forall₂_standsFor_replicate.mpr ⟨ds, hlen, rfl⟩
    have hbehind := (forall₂_standsFor_of_not_mem htail).mpr rfl
    exact List.rel_append (List.rel_append hfirst hmiddle) hbehind

/-- The shapes of the modes have no `n` but for the digits. -/
theorem filled_shape_iff {mode : Mode} {text : List Char} :
    mode.shape.Filled text ↔ ∃ v, mode.shape.Typed text v := by
  have hlead : 'n' ∉ mode.shape.lead.toList := by
    cases mode <;> decide
  have htail : 'n' ∉ mode.shape.tail.toList := by
    cases mode <;> decide
  exact filled_iff hlead htail

/-! ## Writing what was read -/

/-- A shape has one text for a number. -/
theorem Typed.text_unique {s : Shape} {text text' : List Char} {value : Nat}
    (h : s.Typed text value) (h' : s.Typed text' value) : text = text' := by
  obtain ⟨ds, hlen, rfl, rfl⟩ := h
  obtain ⟨es, hlen', rfl, hnumber⟩ := h'
  rw [Hex.eq_of_number_eq (hlen.trans hlen'.symm) hnumber]

/-- A text of a shape is the shape filled with its number. -/
theorem Typed.fill_eq {s : Shape} {text : List Char} {value : Nat} (h : s.Typed text value) :
    (s.fill value).toList = text :=
  (typed_fill h.value_lt).text_unique h

end Shape

namespace Operand

/-! ## What the grammar accepts -/

/-- The texts that an instruction with the given modes may be typed with: those of the eleven
shapes, and no text at all if it can work on the accumulator. -/
def Grammatical (modes : List Mode) (text : String) : Prop :=
  (∃ mode ∈ typedModes, mode.shape.Filled text.toList) ∨ (text = "" ∧ .accumulator ∈ modes)

/-- A text that has the shape of a mode with an operand is not empty. -/
theorem ne_empty_of_filled {mode : Mode} (hmode : mode ∈ typedModes) {text : String}
    (h : mode.shape.Filled text.toList) : text ≠ "" := by
  rintro rfl
  obtain ⟨v, htyped⟩ := Shape.filled_shape_iff.mp h
  exact not_typed_nil (mem_typedModes_iff.mp hmode).1 v htyped

/-- The shapes accept a text exactly if it fills one of them. -/
theorem isSome_ofShape?_iff {text : List Char} :
    (∃ o, ofShape? text = some o) ↔ ∃ mode ∈ typedModes, mode.shape.Filled text := by
  constructor
  · rintro ⟨o, ho⟩
    obtain ⟨hmode, v, -, htyped⟩ := ofShape?_eq_some_iff.mp ho
    exact ⟨o.mode, hmode, Shape.filled_shape_iff.mpr ⟨v, htyped⟩⟩
  · rintro ⟨mode, hmode, hfilled⟩
    obtain ⟨v, htyped⟩ := Shape.filled_shape_iff.mp hfilled
    exact ⟨⟨mode, v⟩, ofShape?_eq_some_iff.mpr ⟨hmode, v, rfl, htyped⟩⟩

/-- A text is read if it is in the grammar, and refused as a bad operand if it is not. -/
theorem read_cases (modes : List Mode) (text : String) :
    (Grammatical modes text ∧ ∃ o, read modes text = .ok o) ∨
      (¬ Grammatical modes text ∧
        ∃ reason, read modes text = .error (.badOperand text reason)) := by
  by_cases hempty : text = ""
  · have hfilled : ¬ ∃ mode ∈ typedModes, mode.shape.Filled text.toList := by
      rintro ⟨mode, hmode, h⟩
      exact ne_empty_of_filled hmode h hempty
    by_cases haccumulator : .accumulator ∈ modes
    · refine Or.inl ⟨Or.inr ⟨hempty, haccumulator⟩, ⟨.accumulator, 0⟩, ?_⟩
      rw [read, if_pos hempty, if_pos haccumulator]
    · refine Or.inr ⟨?_, _, by rw [read, if_pos hempty, if_neg haccumulator]⟩
      exact not_or.mpr ⟨hfilled, fun h => haccumulator h.2⟩
  · cases hshape : ofShape? text.toList with
    | some o =>
      refine Or.inl ⟨Or.inl (isSome_ofShape?_iff.mp ⟨o, hshape⟩), o.resolve modes, ?_⟩
      simp only [read, if_neg hempty, hshape]
    | none =>
      refine Or.inr ⟨not_or.mpr ⟨?_, fun h => hempty h.1⟩, none, ?_⟩
      · intro h
        obtain ⟨o, ho⟩ := isSome_ofShape?_iff.mpr h
        rw [hshape] at ho
        cases ho
      · simp only [read, if_neg hempty, hshape]

/-- The order in which the shapes are tried does not matter. -/
theorem ofShapeIn?_of_perm {order : List Mode} (h : order.Perm typedModes) (text : List Char) :
    ofShapeIn? order text = ofShape? text := by
  apply Option.ext
  intro o
  rw [ofShapeIn?_eq_some_iff h.subset, ofShape?_eq_some_iff,
    h.mem_iff]

/-! ## Reading and writing -/

/-- An operand that was read from a text is written as this text. -/
theorem text_of_read {modes : List Mode} {text : String} {o : Operand} (hne : text ≠ "")
    (h : read modes text = .ok o) : o.text = text ∧ o.Fits := by
  rcases read_eq_ok_iff.mp h with ⟨hnil, -⟩ | ⟨-, ⟨v, hv, htyped⟩, -⟩
  · exact absurd (String.toList_eq_nil_iff.mp hnil) hne
  · refine ⟨String.toList_injective ?_, v, hv, htyped.value_lt⟩
    rw [Operand.text, hv, htyped.fill_eq]

/-- It has the mode of the shape that the text fills, unless it is taken for a target. -/
theorem mode_of_read {modes : List Mode} {text : String} {o : Operand} {mode : Mode}
    (hmode : mode ∈ typedModes) (hfilled : mode.shape.Filled text.toList)
    (h : read modes text = .ok o) :
    o.mode = if mode = .absolute ∧ .relative ∈ modes then .relative else mode := by
  obtain ⟨v, htyped⟩ := Shape.filled_shape_iff.mp hfilled
  have hshape : ofShape? text.toList = some ⟨mode, v⟩ :=
    ofShape?_eq_some_iff.mpr ⟨hmode, v, rfl, htyped⟩
  simp only [read, if_neg (ne_empty_of_filled hmode hfilled), hshape, Except.ok.injEq] at h
  rw [← h, resolve]
  split <;> rfl

/-- The number of an operand without digits is 0. -/
theorem Fits.value_eq_zero {o : Operand} (h : o.Fits) (hmode : o.mode = .accumulator) :
    o.value = 0 := by
  obtain ⟨v, hv, hlt⟩ := h
  have hone : (16 : Nat) ^ Mode.accumulator.shape.digits = 1 := by decide
  rw [hmode, hone] at hlt
  omega

/-- An operand that fits its mode is read back from its text. -/
theorem read_text {modes : List Mode} {o : Operand} (himplicit : o.mode ≠ .implicit)
    (hfits : o.Fits) (hrelative : o.mode = .relative → .relative ∈ modes)
    (habsolute : o.mode = .absolute → .relative ∉ modes) : read modes o.text = .ok o :=
  read_eq_ok_iff.mpr (Or.inr ⟨himplicit, hfits.typed_text, habsolute, hrelative⟩)

/-- Reading operands for an instruction with the given modes is exact. -/
structure Exact (modes : List Mode) : Prop where
  /-- A text is read exactly if it is in the grammar. -/
  ok_iff : ∀ text, (∃ o, read modes text = .ok o) ↔ Grammatical modes text
  /-- Every other text is refused as a bad operand. -/
  error : ∀ text, ¬ Grammatical modes text →
    ∃ reason, read modes text = .error (.badOperand text reason)
  /-- No text fills two shapes. -/
  exclusive : ∀ text, ∀ p ∈ typedModes, ∀ q ∈ typedModes,
    p.shape.Filled text → q.shape.Filled text → p = q
  /-- The shapes may be tried in any order. -/
  anyOrder : ∀ order : List Mode, order.Perm typedModes → ∀ text,
    ofShapeIn? order text = ofShape? text
  /-- What is read from a text is written as this text, with a number that fits the digits. -/
  text_eq : ∀ text o, text ≠ "" → read modes text = .ok o →
    o.text = text ∧ o.Fits ∧ (o.mode = .accumulator → o.value = 0)
  /-- It has the mode whose shape the text fills, but that of a branch for a target. -/
  mode_eq : ∀ text o, ∀ mode ∈ typedModes, mode.shape.Filled text.toList →
    read modes text = .ok o →
      o.mode = if mode = .absolute ∧ .relative ∈ modes then .relative else mode
  /-- No text at all is the accumulator. -/
  empty : .accumulator ∈ modes → read modes "" = .ok ⟨.accumulator, 0⟩
  /-- What fits the digits of its mode is read back from its text, as far as the instruction tells a
  target from an absolute operand. -/
  read_text : ∀ mode (value : Nat), mode ≠ .implicit → value < 16 ^ mode.shape.digits →
    (mode = .relative → .relative ∈ modes) → (mode = .absolute → .relative ∉ modes) →
      read modes (Operand.text ⟨mode, value⟩) = .ok ⟨mode, value⟩

/-- Operands are read exactly, whatever the modes of the instruction are. -/
theorem read_exact (modes : List Mode) : Exact modes := by
  refine ⟨fun text => ?_, fun text hnot => ?_, ?_, fun _ h => ofShapeIn?_of_perm h, ?_, ?_, ?_, ?_⟩
  · rcases read_cases modes text with ⟨hin, hok⟩ | ⟨hnot, reason, herror⟩
    · exact ⟨fun _ => hin, fun _ => hok⟩
    · refine ⟨?_, fun hin => absurd hin hnot⟩
      rintro ⟨o, hok⟩
      rw [herror] at hok
      cases hok
  · rcases read_cases modes text with ⟨hin, -⟩ | ⟨-, herror⟩
    · exact absurd hin hnot
    · exact herror
  · intro text p hp q hq hfirst hsecond
    obtain ⟨v, hv⟩ := Shape.filled_shape_iff.mp hfirst
    obtain ⟨w, hw⟩ := Shape.filled_shape_iff.mp hsecond
    exact eq_of_typed hp hq hv hw
  · intro text o hne hread
    obtain ⟨htext, hfits⟩ := text_of_read hne hread
    exact ⟨htext, hfits, fun h => hfits.value_eq_zero h⟩
  · intro text o mode hmode hfilled hread
    exact mode_of_read hmode hfilled hread
  · intro hmem
    rw [read, if_pos rfl, if_pos hmem]
  · intro mode value himplicit hvalue hrelative habsolute
    exact read_text himplicit ⟨value, rfl, hvalue⟩ hrelative habsolute

example : typedModes.map (·.shape.pattern) =
    ["A", "#nn", "nn", "nn,X", "nn,Y", "nnnn", "nnnn,X", "nnnn,Y", "(nn,X)", "(nn),Y",
      "(nnnn)"] := by
  decide

end Operand

end LineMonitor
