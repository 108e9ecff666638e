/-!
# Lines and pieces of a text

A text is read as its physical lines: each ends at a line feed, and a last line
may end with the text.  Carriage returns at the end of a line belong to its line
end; `universal` turns every other convention for line ends into line feeds.
-/

namespace LineMonitor.Text

/-- The lines of a text, without their line feeds. -/
def splitLines : List Char → List (List Char)
  | [] => []
  | c :: rest =>
    if c = '\n' then [] :: splitLines rest
    else
      match splitLines rest with
      | [] => [[c]]
      | line :: lines => (c :: line) :: lines

/-- A line without the carriage returns at its end. -/
def trimReturns (line : List Char) : List Char :=
  (line.reverse.dropWhile (· == '\r')).reverse

/-- The lines of a text as they are typed, without their line ends. -/
def typedLines (text : List Char) : List (List Char) :=
  (splitLines text).map trimReturns

/-- The text with `\r\n` and lone `\r` written as `\n`. -/
def universal : List Char → List Char
  | [] => []
  | '\r' :: '\n' :: rest => '\n' :: universal rest
  | c :: rest => (if c = '\r' then '\n' else c) :: universal rest

/-- The pieces of a text between the occurrences of a character; there is always one
piece more than there are occurrences. -/
def pieces (separator : Char) : List Char → List (List Char)
  | [] => [[]]
  | c :: rest =>
    if c = separator then [] :: pieces separator rest
    else
      match pieces separator rest with
      | [] => [[c]]
      | piece :: others => (c :: piece) :: others

/-- The text up to and with its last line feed. -/
def completeLines (text : List Char) : List Char :=
  (text.reverse.dropWhile (· != '\n')).reverse

@[simp] theorem splitLines_nil : splitLines [] = [] := rfl

@[simp] theorem typedLines_nil : typedLines [] = [] := rfl

/-- A line feed ends a line wherever it stands. -/
theorem splitLines_append_newline (line rest : List Char) (h : '\n' ∉ line) :
    splitLines (line ++ '\n' :: rest) = line :: splitLines rest := by
  induction line with
  | nil => simp [splitLines]
  | cons c line ih =>
    simp only [List.mem_cons, not_or] at h
    simp [splitLines, Ne.symm h.1, ih h.2]

@[simp] theorem splitLines_eq_nil_iff {text : List Char} : splitLines text = [] ↔ text = [] := by
  cases text with
  | nil => exact iff_of_true rfl rfl
  | cons c rest =>
    have hsome : splitLines (c :: rest) ≠ [] := by
      simp only [splitLines]
      split
      · exact List.cons_ne_nil _ _
      · split <;> exact List.cons_ne_nil _ _
    exact iff_of_false hsome (List.cons_ne_nil c rest)

/-- Behind a line feed the lines go on as if nothing stood before it. -/
theorem splitLines_append {front : List Char} (h : front = [] ∨ front.getLast? = some '\n')
    (back : List Char) : splitLines (front ++ back) = splitLines front ++ splitLines back := by
  induction front with
  | nil => rfl
  | cons c front ih =>
    have hlast : (c :: front).getLast? = some '\n' := h.resolve_left (List.cons_ne_nil c front)
    by_cases hfront : front = []
    · subst hfront
      have hc : c = '\n' := Option.some.inj hlast
      simp [splitLines, hc]
    · have hrest : front.getLast? = some '\n' := by
        rwa [List.getLast?_cons_of_ne_nil hfront] at hlast
      obtain ⟨line, lines, hlines⟩ :=
        List.exists_cons_of_ne_nil (mt splitLines_eq_nil_iff.mp hfront)
      simp only [List.cons_append, splitLines, ih (Or.inr hrest), hlines]
      split <;> rfl

theorem typedLines_append {front : List Char} (h : front = [] ∨ front.getLast? = some '\n')
    (back : List Char) : typedLines (front ++ back) = typedLines front ++ typedLines back := by
  rw [typedLines, splitLines_append h, List.map_append, typedLines, typedLines]

/-- What is typed on a line is in the text. -/
theorem mem_of_mem_splitLines {x : Char} {line text : List Char} (hline : line ∈ splitLines text)
    (hx : x ∈ line) : x ∈ text := by
  induction text generalizing line with
  | nil => cases hline
  | cons c rest ih =>
    rw [splitLines] at hline
    split at hline
    · rcases List.mem_cons.mp hline with rfl | hlater
      · cases hx
      · exact List.mem_cons_of_mem c (ih hlater hx)
    · split at hline
      · rw [List.mem_singleton.mp hline] at hx
        rw [List.mem_singleton.mp hx]
        exact List.mem_cons_self
      · rename_i first lines hlines
        rcases List.mem_cons.mp hline with rfl | hlater
        · rcases List.mem_cons.mp hx with rfl | hfirst
          · exact List.mem_cons_self
          · exact List.mem_cons_of_mem c (ih (by rw [hlines]; exact List.mem_cons_self) hfirst)
        · exact List.mem_cons_of_mem c (ih (by rw [hlines]; exact List.mem_cons_of_mem _ hlater) hx)

theorem mem_of_mem_trimReturns {x : Char} {line : List Char} (h : x ∈ trimReturns line) :
    x ∈ line := by
  rw [trimReturns, List.mem_reverse] at h
  exact List.mem_reverse.mp ((List.dropWhile_suffix _).subset h)

theorem mem_of_mem_typedLines {x : Char} {line text : List Char} (hline : line ∈ typedLines text)
    (hx : x ∈ line) : x ∈ text := by
  rw [typedLines, List.mem_map] at hline
  obtain ⟨whole, hwhole, rfl⟩ := hline
  exact mem_of_mem_splitLines hwhole (mem_of_mem_trimReturns hx)

end LineMonitor.Text
