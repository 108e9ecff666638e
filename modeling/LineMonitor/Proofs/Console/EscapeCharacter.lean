import LineMonitor.Proofs.Console.Dialogue
import LineMonitor.Proofs.Console.Layout

/-!
# Any character as Escape

The escape character is configured, so any character can take the place of Escape.  A line that is
read as a command is searched for it as it was typed, but for mnemonics and operands the line is
searched in upper case (`Console.answers`).  It is heeded wherever it is typed exactly if
upper-casing leaves it alone, that is, it becomes itself and nothing else becomes it:
`Console.heeds_exact`.  No letter of ASCII is such a character.  A small letter is not seen in upper
case, and a capital is seen where the small letter was typed.
-/

namespace LineMonitor.Console

variable {c : Console} {e : Char} {line : List Char}

/-! ## Where the character stands -/

/-- The letters of a text that stand before the first `e`. -/
def lettersBefore (e : Char) (text : List Char) : List Char :=
  (text.takeWhile (· != e)).filter isLetter

/-- The character stands in the text before three letters. -/
def IsEarly (e : Char) (text : List Char) : Prop :=
  e ∈ text ∧ (lettersBefore e text).length < mnemonicLength

theorem lettersBefore_append {front : List Char} (h : e ∉ front) (back : List Char) :
    lettersBefore e (front ++ e :: back) = front.filter isLetter := by
  rw [lettersBefore, Text.takeWhile_append_of_notMem h]
  simp

/-- There are no three letters to be had of a text exactly if the character stands before them. -/
theorem splitLetters?_eq_none_iff_isEarly {text : List Char} :
    splitLetters? [e] mnemonicLength text = none ↔ IsEarly e text := by
  rw [splitLetters?_eq_none_iff]
  constructor
  · rintro ⟨front, back, rfl, hfew⟩
    refine ⟨by simp, Nat.lt_of_le_of_lt (List.Sublist.length_le ?_) hfew⟩
    refine List.Sublist.filter _ ?_
    by_cases hmem : e ∈ front
    · rw [Text.takeWhile_append_of_mem hmem]
      exact List.takeWhile_sublist _
    · rw [Text.takeWhile_append_of_notMem hmem]
      simp
  · rintro ⟨hmem, hfew⟩
    obtain ⟨front, back, rfl, hfirst⟩ := List.eq_append_cons_of_mem hmem
    rw [lettersBefore_append hfirst] at hfew
    exact ⟨front, back, rfl, hfew⟩

/-- Behind three letters the character stands if it is in the text at all. -/
theorem mem_behindLetters_iff {text : List Char} (h : ¬ IsEarly e text) :
    e ∈ behindLetters mnemonicLength text ↔ e ∈ text :=
  ⟨mem_of_mem_behindLetters, mem_behindLetters (mt splitLetters?_eq_none_iff_isEarly.mp h)⟩

/-! ## The answers of a console at a line -/

/-- The console reads this line next, has the escape character `e`, and none is left over. -/
structure Faces (c : Console) (e : Char) (line : List Char) : Prop where
  escape_eq : c.escape = [e]
  not_pending : ∀ behind, c.remainder = some behind → e ∉ behind
  unread_eq : ∃ rest, c.unread = line :: rest

/-- A console that holds nothing but the line faces it. -/
theorem faces_of_fresh (e : Char) (line : List Char) : Faces ⟨[line], [e], none⟩ e line := by
  refine ⟨rfl, fun behind hpending => ?_, [], rfl⟩
  cases hpending

/-- What a console with the escape character `e` answers at a line. -/
structure Answers (e : Char) (line : List Char) : Prop where
  /-- There is no command in a line with the character. -/
  command : ∀ c, Faces c e line → (c.takeCommand.answer = none ↔ e ∈ line)
  /-- There is no mnemonic if the character stands before its third letter in upper case. -/
  early : IsEarly e (uncommented line) → ∀ c, Faces c e line → c.takeMnemonic.answer = none
  /-- Otherwise a line with something on it has one, and it has an operand if the character is not
  in the line in upper case. -/
  late : ¬ IsEarly e (uncommented line) → ¬ IsBlankLine line → ∀ c, Faces c e line →
    c.takeMnemonic.answer = some (String.ofList (mnemonicText line)) ∧
      (c.takeMnemonic.console.takeOperand.answer = none ↔ e ∈ uncommented line)

theorem answers (e : Char) (line : List Char) : Answers e line where
  command c hfaces := by
    obtain ⟨rest, hunread⟩ := hfaces.unread_eq
    simp only [takeCommand, hunread, hfaces.escape_eq, Text.occurs_singleton,
      List.contains_iff_mem]
    split
    · rename_i hmem
      exact iff_of_true rfl hmem
    · rename_i hfree
      exact iff_of_false (Option.some_ne_none _) hfree
  early hearly c hfaces := by
    obtain ⟨rest, hunread⟩ := hfaces.unread_eq
    have hsplit := splitLetters?_eq_none_iff_isEarly.mpr hearly
    rw [takeMnemonic_eq_nextMnemonic hfaces.escape_eq hfaces.not_pending, hunread]
    simp only [nextMnemonic, hfaces.escape_eq, hsplit]
  late hlate hblank c hfaces := by
    obtain ⟨rest, hunread⟩ := hfaces.unread_eq
    have hsplit := mt splitLetters?_eq_none_iff_isEarly.mp hlate
    obtain ⟨hanswer, hconsole⟩ :=
      nextMnemonic_cons_of_not_blank hfaces.escape_eq hblank hsplit rest
    rw [takeMnemonic_eq_nextMnemonic hfaces.escape_eq hfaces.not_pending, hunread]
    refine ⟨hanswer, ?_⟩
    have hescape : (c.afterMnemonic line rest).escape = [e] := hfaces.escape_eq
    have hleft : (c.afterMnemonic line rest).remainder.getD [] =
        behindLetters mnemonicLength (uncommented line) := rfl
    rw [hconsole, answer_takeOperand hescape, hleft]
    simp only [mem_behindLetters_iff hlate]
    split
    · rename_i hmem
      exact iff_of_true rfl hmem
    · rename_i hfree
      exact iff_of_false (Option.some_ne_none _) hfree

/-! ## A character that is heeded -/

/-- The letters that are typed in a line before the first `e`.  They are counted in upper case, so
that a ligature counts for all letters that it becomes. -/
def lettersTyped (e : Char) (line : List Char) : List Char :=
  (Text.upper (line.takeWhile (· != e))).filter isLetter

/-- The character is heeded in a line as it is typed, with any carriage returns at its end. -/
structure Heeds (e : Char) (line : List Char) : Prop where
  command : ∀ c, Faces c e (Text.trimReturns line) → c.takeCommand.answer = none
  early : (lettersTyped e line).length < mnemonicLength →
    ∀ c, Faces c e (Text.trimReturns line) → c.takeMnemonic.answer = none
  late : mnemonicLength ≤ (lettersTyped e line).length →
    ∀ c, Faces c e (Text.trimReturns line) →
      c.takeMnemonic.answer = some (String.ofList (mnemonicText line)) ∧
        c.takeMnemonic.console.takeOperand.answer = none

/-- Without its carriage returns the line is the same up to any character but these. -/
theorem trimReturns_eq_append (hreturn : e ≠ '\r') (hmem : e ∈ line.takeWhile (· != ';')) :
    ∃ front back, e ∉ front ∧ line.takeWhile (· != e) = front ∧
      (Text.trimReturns line).takeWhile (· != ';') = front ++ e :: back := by
  obtain ⟨count, hline⟩ := Text.eq_trimReturns_append line
  have htyped : e ∈ (Text.trimReturns line).takeWhile (· != ';') := by
    by_cases hsemicolon : ';' ∈ Text.trimReturns line
    · rwa [hline, Text.takeWhile_append_of_mem hsemicolon] at hmem
    · rw [hline, Text.takeWhile_append_of_notMem hsemicolon, List.mem_append] at hmem
      rw [Text.takeWhile_of_notMem hsemicolon]
      refine hmem.resolve_right fun hback => hreturn ?_
      exact List.eq_of_mem_replicate ((List.takeWhile_sublist _).subset hback)
  obtain ⟨front, back, hfront, hfirst⟩ := List.eq_append_cons_of_mem htyped
  refine ⟨front, back, hfirst, ?_, hfront⟩
  have hwhole : line = front ++ e :: (back ++ ((Text.trimReturns line).dropWhile (· != ';') ++
      List.replicate count '\r')) := by
    rw [← List.cons_append, ← List.append_assoc, ← List.append_assoc, ← hfront,
      List.takeWhile_append_dropWhile, ← hline]
  rw [hwhole, Text.takeWhile_append_of_notMem hfirst]
  simp

/-- A character that upper-casing leaves alone is heeded. -/
theorem heeds_of_caseless (h : Text.Caseless e) (hreturn : e ≠ '\r')
    (hmem : e ∈ line.takeWhile (· != ';')) : Heeds e line := by
  obtain ⟨front, back, hfirst, hfront, htyped⟩ := trimReturns_eq_append hreturn hmem
  have hshown : uncommented (Text.trimReturns line) =
      Text.upper front ++ e :: Text.upper back := by
    rw [uncommented, htyped, Text.upper_append, Text.upper_cons, h.upperChar_eq,
      List.singleton_append]
  have hupper : e ∈ uncommented (Text.trimReturns line) := by
    rw [hshown]
    simp
  have hletters : lettersBefore e (uncommented (Text.trimReturns line)) = lettersTyped e line := by
    rw [hshown, lettersBefore_append (mt h.mem_upper_iff.mp hfirst), lettersTyped, hfront]
  have hanswers := answers e (Text.trimReturns line)
  constructor
  · intro c hfaces
    refine (hanswers.command c hfaces).mpr ((List.takeWhile_sublist (· != ';')).subset ?_)
    rw [htyped]
    simp
  · intro hfew
    exact hanswers.early ⟨hupper, by rwa [hletters]⟩
  · intro hall c hfaces
    have hlate : ¬ IsEarly e (uncommented (Text.trimReturns line)) := by
      rintro ⟨-, hfew⟩
      rw [hletters] at hfew
      exact absurd hall (Nat.not_le_of_lt hfew)
    have hblank : ¬ IsBlankLine (Text.trimReturns line) := by
      intro hblank
      have hsome : 0 < (lettersBefore e (uncommented (Text.trimReturns line))).length := by
        rw [hletters]
        exact Nat.lt_of_lt_of_le (by decide) hall
      have hnone := ((List.takeWhile_sublist (· != e)).filter isLetter).length_le.trans_eq
        (congrArg List.length hblank.filter_isLetter_eq)
      exact absurd hsome (Nat.not_lt_of_le hnone)
    obtain ⟨hanswer, hoperand⟩ := hanswers.late hlate hblank c hfaces
    rw [(akin_trimReturns line).mnemonic_eq] at hanswer
    exact ⟨hanswer, hoperand.mpr hupper⟩

/-! ## A character that is not heeded -/

section Untrimmed

variable (h : Heeds e line) (htrim : Text.trimReturns line = line)

include h htrim

/-- Where fewer than three letters are typed before the character, it stands early in upper case as
well. -/
theorem Heeds.isEarly (hfew : (lettersTyped e line).length < mnemonicLength)
    (hblank : ¬ IsBlankLine line) : IsEarly e (uncommented line) := by
  by_contra hlate
  have hfaces := faces_of_fresh e line
  have hanswer := ((answers e line).late hlate hblank _ hfaces).1
  rw [h.early hfew _ (by rwa [htrim])] at hanswer
  cases hanswer

/-- Where three letters are typed before the character, it does not stand early in upper case. -/
theorem Heeds.not_isEarly (hall : mnemonicLength ≤ (lettersTyped e line).length) :
    ¬ IsEarly e (uncommented line) := by
  intro hearly
  have hfaces := faces_of_fresh e line
  have hanswer := (h.late hall _ (by rwa [htrim])).1
  rw [(answers e line).early hearly _ hfaces] at hanswer
  cases hanswer

end Untrimmed

theorem trimReturns_concat (hreturn : e ≠ '\r') (front : List Char) :
    Text.trimReturns (front ++ [e]) = front ++ [e] := by
  simp [Text.trimReturns, hreturn]

/-- A character that is heeded on a line of its own becomes itself. -/
theorem Heeds.mem_upperChar (h : Heeds e [e]) (hreturn : e ≠ '\r') (hsemicolon : e ≠ ';') :
    e ∈ Text.upperChar e := by
  have hshown : uncommented [e] = Text.upperChar e := by
    rw [uncommented_cons hsemicolon, uncommented, List.takeWhile_nil, Text.upper_nil,
      List.append_nil]
  by_cases hblank : IsBlankLine [e]
  · have hspace : Text.isBlank e = true :=
      isBlank_of_isBlankLine hblank e (by simp [hsemicolon])
    rw [Text.upperChar_of_isBlank hspace]
    exact List.mem_singleton_self e
  · have hnone : (lettersTyped e [e]).length < mnemonicLength := by
      simp [lettersTyped, mnemonicLength]
    rw [← hshown]
    exact (h.isEarly (trimReturns_concat hreturn []) hnone hblank).1

/-- If nothing else becomes `e` where it is typed behind `d` and three letters, `d` does not. -/
theorem Heeds.notMem_upperChar {d x : Char} (h : Heeds e ([d, x, x, x] ++ [e]))
    (hreturn : e ≠ '\r') (hsemicolon : d ≠ ';') (hletter : isLetter x = true)
    (hupper : Text.upperChar x = [x]) (hx : x ≠ e) (hd : d ≠ e) : e ∉ Text.upperChar d := by
  intro hmem
  have htyped : lettersTyped e ([d, x, x, x] ++ [e]) =
      (Text.upperChar d).filter isLetter ++ [x, x, x] := by
    simp [lettersTyped, hd, hx, Text.upper_cons, hupper, hletter]
  have hall : mnemonicLength ≤ (lettersTyped e ([d, x, x, x] ++ [e])).length := by
    rw [htyped, List.length_append]
    exact Nat.le_add_left 3 _
  refine h.not_isEarly (trimReturns_concat hreturn _) hall ?_
  -- `d` becomes three characters at most, and one of them is `e`
  obtain ⟨front, back, hfront, hfirst⟩ := List.eq_append_cons_of_mem hmem
  have hshown : uncommented ([d, x, x, x] ++ [e]) =
      front ++ e :: (back ++ uncommented ([x, x, x] ++ [e])) := by
    rw [List.cons_append, uncommented_cons hsemicolon, hfront, List.append_assoc,
      List.cons_append]
  have hlength := Text.length_upperChar_le d
  rw [hfront, List.length_append, List.length_cons] at hlength
  rw [hshown, IsEarly, lettersBefore_append hfirst]
  refine ⟨by simp, Nat.lt_of_le_of_lt (List.length_filter_le _ _) ?_⟩
  rw [mnemonicLength]
  omega

/-- Only a character that upper-casing leaves alone is heeded in all lines. -/
theorem caseless_of_heeds (h : ∀ line, e ∈ line.takeWhile (· != ';') → Heeds e line) :
    Text.Caseless e ∧ e ≠ '\r' := by
  have hreturn : e ≠ '\r' := by
    rintro rfl
    have hfaces : Faces ⟨[[]], ['\r'], none⟩ '\r' [] := faces_of_fresh '\r' []
    have hanswer := (h ['\r'] (by decide)).command _ hfaces
    exact absurd (((answers '\r' []).command _ hfaces).mp hanswer) List.not_mem_nil
  refine ⟨?_, hreturn⟩
  by_cases hsemicolon : e = ';'
  · rw [hsemicolon]
    exact Text.caseless_of_lt (by decide)
  have hself : e ∈ Text.upperChar e :=
    (h [e] (by simp [hsemicolon])).mem_upperChar hreturn hsemicolon
  intro d
  constructor
  · intro hmem
    by_contra hd
    have hcomment : d ≠ ';' := by
      rintro rfl
      rw [show Text.upperChar ';' = [';'] by decide, List.mem_singleton] at hmem
      exact hsemicolon hmem
    obtain ⟨x, hx, hletter, hupper, hnone⟩ : ∃ x, x ≠ e ∧ isLetter x = true ∧
        Text.upperChar x = [x] ∧ x ≠ ';' := by
      by_cases hA : e = 'A'
      · exact ⟨'B', by rw [hA]; decide, by decide⟩
      · exact ⟨'A', Ne.symm hA, by decide⟩
    have hheeds := h ([d, x, x, x] ++ [e]) (by simp [hcomment, hnone, hsemicolon])
    exact hheeds.notMem_upperChar hreturn hcomment hletter hupper hx hd hmem
  · rintro rfl
    exact hself

/-! ## The law -/

/-- At every line a console looks for its escape character as `Answers` has it, and it is heeded
wherever it is typed exactly if upper-casing leaves it alone and it is no carriage return. -/
theorem heeds_exact (e : Char) :
    (∀ line, Answers e line) ∧
      ((∀ line, e ∈ line.takeWhile (· != ';') → Heeds e line) ↔
        Text.Caseless e ∧ e ≠ '\r') :=
  ⟨answers e, caseless_of_heeds, fun h _ hmem => heeds_of_caseless h.1 h.2 hmem⟩

/-- A small letter is read as a mnemonic where it is typed as the escape character. -/
theorem not_heeds_small_letter :
    (ofText "q\n".toList "q").takeMnemonic.answer = some "Q" ∧
      ¬ Heeds 'q' ['q'] := by
  have hread : (ofText "q\n".toList "q").takeMnemonic.answer = some "Q" := by decide +kernel
  refine ⟨hread, fun h => ?_⟩
  have hfaces : Faces (ofText "q\n".toList "q") 'q' ['q'] := faces_of_fresh 'q' ['q']
  rw [h.early (by decide) _ hfaces] at hread
  cases hread

end LineMonitor.Console
