import LineMonitor.Text.Lines

/-!
# Texts cut at a separator

Cutting a text at a separator undoes joining texts with it, as long as none of them holds the
separator (`Text.pieces_intercalate`).  It rests on `Text.pieces_append_cons`: a separator ends a
piece wherever it stands.
-/

namespace LineMonitor.Text

variable (separator : Char)

@[simp] theorem pieces_nil : pieces separator [] = [[]] := rfl

/-- There is always a piece. -/
theorem pieces_ne_nil (text : List Char) : pieces separator text ≠ [] := by
  cases text with
  | nil => exact List.cons_ne_nil _ _
  | cons c rest =>
    rw [pieces]
    split
    · exact List.cons_ne_nil _ _
    · split <;> exact List.cons_ne_nil _ _

@[simp] theorem pieces_cons_self (text : List Char) :
    pieces separator (separator :: text) = [] :: pieces separator text := by
  rw [pieces, if_pos rfl]

/-- Any other character belongs to the first piece. -/
theorem pieces_cons_of_ne {c : Char} (h : c ≠ separator) (text : List Char) :
    ∃ first, pieces separator (c :: text) = (c :: first) :: (pieces separator text).tail := by
  obtain ⟨first, others, htext⟩ := List.exists_cons_of_ne_nil (pieces_ne_nil separator text)
  exact ⟨first, by simp [pieces, h, htext]⟩

/-- The pieces in front of a separator and those behind it are cut independently. -/
theorem pieces_append_cons (front back : List Char) :
    pieces separator (front ++ separator :: back) =
      pieces separator front ++ pieces separator back := by
  induction front with
  | nil => simp [pieces]
  | cons c front ih =>
    obtain ⟨piece, others, hfront⟩ :=
      List.exists_cons_of_ne_nil (pieces_ne_nil separator front)
    simp only [List.cons_append, pieces, ih, hfront]
    split <;> rfl

/-- A text without the separator is one piece. -/
theorem pieces_of_notMem {text : List Char} (h : separator ∉ text) :
    pieces separator text = [text] := by
  induction text with
  | nil => rfl
  | cons c rest ih =>
    rw [List.mem_cons, not_or] at h
    rw [pieces, if_neg (Ne.symm h.1), ih h.2]

/-- Texts that are joined by a separator are its pieces. -/
theorem pieces_intercalate {texts : List (List Char)} (hne : texts ≠ [])
    (h : ∀ text ∈ texts, separator ∉ text) :
    pieces separator ([separator].intercalate texts) = texts := by
  induction texts with
  | nil => exact absurd rfl hne
  | cons text texts ih =>
    obtain ⟨htext, hrest⟩ := List.forall_mem_cons.mp h
    cases texts with
    | nil => rw [List.intercalate_singleton, pieces_of_notMem separator htext]
    | cons next others =>
      rw [List.intercalate_cons_cons, List.append_assoc, List.singleton_append,
        pieces_append_cons, pieces_of_notMem separator htext, ih (List.cons_ne_nil _ _) hrest,
        List.singleton_append]

/-- Behind separators at the end of a text there are empty pieces. -/
theorem pieces_append_replicate (front : List Char) (count : Nat) :
    pieces separator (front ++ List.replicate count separator) =
      pieces separator front ++ List.replicate count [] := by
  induction count with
  | zero => rw [List.replicate_zero, List.replicate_zero, List.append_nil, List.append_nil]
  | succ count ih =>
    rw [List.replicate_succ', ← List.append_assoc, pieces_append_cons, ih, pieces_nil,
      List.append_assoc, ← List.replicate_succ']

end LineMonitor.Text
