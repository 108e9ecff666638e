/-!
# Occurrences of one text in another

Whether a pattern occurs in a text, and the text with something else in the place of its
occurrences, or without them.  The empty pattern occurs in every text.
-/

namespace LineMonitor.Text

/-- Whether `pattern` stands somewhere in the text. -/
def occurs (pattern : List Char) : List Char → Bool
  | [] => pattern.isEmpty
  | c :: rest => pattern.isPrefixOf (c :: rest) || occurs pattern rest

/-- The text after `skipped` characters, with `new` in the place of the later occurrences of
`pattern`, which are taken from the left and do not overlap. -/
def replaceAfter (pattern new : List Char) : Nat → List Char → List Char
  | _, [] => []
  | skipped + 1, _ :: rest => replaceAfter pattern new skipped rest
  | 0, c :: rest =>
    if pattern.isPrefixOf (c :: rest) then
      new ++ replaceAfter pattern new (pattern.length - 1) rest
    else c :: replaceAfter pattern new 0 rest

/-- The text with `new` in the place of the occurrences of `pattern`; the empty pattern
stands before every character and at the end. -/
def replace (pattern new text : List Char) : List Char :=
  if pattern.isEmpty then (text.flatMap fun c => new ++ [c]) ++ new
  else replaceAfter pattern new 0 text

/-- The text without the occurrences of `pattern`. -/
def erase (pattern text : List Char) : List Char :=
  replace pattern [] text

@[simp] theorem occurs_nil_left (text : List Char) : occurs [] text = true := by
  cases text <;> simp [occurs]

/-- A pattern of one character occurs in the texts that hold this character. -/
theorem occurs_singleton (c : Char) (text : List Char) :
    occurs [c] text = text.contains c := by
  induction text with
  | nil => rfl
  | cons d rest ih =>
    have h : (c == d) = decide (c = d) := rfl
    simp [occurs, ih, List.isPrefixOf, h]

/-- Removing a pattern of one character drops this character everywhere. -/
theorem erase_singleton (c : Char) (text : List Char) :
    erase [c] text = text.filter (· != c) := by
  suffices h : replaceAfter [c] [] 0 text = text.filter (· != c) by simpa [erase, replace] using h
  induction text with
  | nil => rfl
  | cons d rest ih =>
    by_cases h : c = d
    · subst h
      simpa [replaceAfter, List.isPrefixOf] using ih
    · simp [replaceAfter, List.isPrefixOf, h, Ne.symm h, ih]

theorem replaceAfter_length_append (pattern new skipped rest : List Char) :
    replaceAfter pattern new skipped.length (skipped ++ rest) =
      replaceAfter pattern new 0 rest := by
  induction skipped with
  | nil => rfl
  | cons d skipped ih => exact ih

/-- A pattern does not occur where its first character does not. -/
theorem replaceAfter_of_notMem {c : Char} (pattern new : List Char) {text : List Char}
    (h : c ∉ text) : replaceAfter (c :: pattern) new 0 text = text := by
  induction text with
  | nil => rfl
  | cons d rest ih =>
    obtain ⟨hne, hrest⟩ := not_or.mp (mt List.mem_cons.mpr h)
    have hprefix : (c :: pattern).isPrefixOf (d :: rest) = false := by
      simp [List.isPrefixOf, hne]
    rw [replaceAfter, hprefix, ih hrest]
    rfl

/-- A pattern that stands between texts without its first character is replaced there. -/
theorem replace_between {c : Char} (pattern new : List Char) {lead tail : List Char}
    (hlead : c ∉ lead) (htail : c ∉ tail) :
    replace (c :: pattern) new (lead ++ (c :: pattern) ++ tail) = lead ++ new ++ tail := by
  change replaceAfter (c :: pattern) new 0 (lead ++ (c :: pattern) ++ tail) = lead ++ new ++ tail
  induction lead with
  | nil =>
    have hprefix : (c :: pattern).isPrefixOf (c :: (pattern ++ tail)) = true := by
      simp [List.isPrefixOf]
    rw [List.nil_append, List.cons_append, replaceAfter, if_pos hprefix, List.length_cons,
      Nat.add_sub_cancel, replaceAfter_length_append, replaceAfter_of_notMem pattern new htail]
    rfl
  | cons d lead ih =>
    obtain ⟨hne, hrest⟩ := not_or.mp (mt List.mem_cons.mpr hlead)
    have hprefix : (c :: pattern).isPrefixOf (d :: (lead ++ (c :: pattern) ++ tail)) = false := by
      simp [List.isPrefixOf, hne]
    rw [List.cons_append, List.cons_append, replaceAfter, hprefix, ih hrest]
    rfl

end LineMonitor.Text
