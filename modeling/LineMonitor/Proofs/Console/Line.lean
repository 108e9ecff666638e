import LineMonitor.Console
import LineMonitor.Proofs.Text.UpperCase

/-!
# What the console takes from a line

Without the escape character a line gives its first three letters as the mnemonic and what
stands behind them as the operand, blank lines in front of it being passed over
(`Console.Offers.takeMnemonic_eq`, `Console.takeOperand_afterMnemonic`).
-/

namespace LineMonitor.Console

/-! ## Splitting a line -/

/-- What stands behind the first `wanted` letters of a line; nothing if it has fewer. -/
def behindLetters : Nat → List Char → List Char
  | 0, rest => rest
  | _ + 1, [] => []
  | wanted + 1, c :: rest =>
    if isLetter c then behindLetters wanted rest else behindLetters (wanted + 1) rest

/-- Of the letters wanted, those that a character other than Escape leaves to be found are wanted
of the rest of the line. -/
theorem splitLetters?_cons_eq_none_iff {e c : Char} (hc : c ≠ e) (rest : List Char)
    (wanted : Nat) :
    splitLetters? [e] (wanted + 1) (c :: rest) = none ↔
      splitLetters? [e] (if isLetter c then wanted else wanted + 1) rest = none := by
  have hne : ¬ [e] = [c] := by simpa using Ne.symm hc
  by_cases hletter : isLetter c = true
  · simp [splitLetters?, hne, hletter]
  · simp [splitLetters?, hne, hletter]

/-- There are no letters to be had of a line exactly if Escape stands before the last of them. -/
theorem splitLetters?_eq_none_iff {e : Char} {line : List Char} {wanted : Nat} :
    splitLetters? [e] wanted line = none ↔
      ∃ front back, line = front ++ e :: back ∧ (front.filter isLetter).length < wanted := by
  induction line generalizing wanted with
  | nil => cases wanted <;> simp [splitLetters?]
  | cons c rest ih =>
    cases wanted with
    | zero => simp [splitLetters?]
    | succ wanted =>
      by_cases hc : c = e
      · have hnone : splitLetters? [e] (wanted + 1) (c :: rest) = none := by
          simp [splitLetters?, hc]
        refine iff_of_true hnone ⟨[], rest, by rw [hc]; rfl, ?_⟩
        exact Nat.zero_lt_succ wanted
      · -- the first character is not Escape, so it belongs to what stands in front
        have hcount : ∀ front : List Char, ((c :: front).filter isLetter).length < wanted + 1 ↔
            (front.filter isLetter).length < if isLetter c then wanted else wanted + 1 := by
          intro front
          by_cases hletter : isLetter c = true
          · simp [hletter]
          · simp [hletter]
        rw [splitLetters?_cons_eq_none_iff hc, ih]
        constructor
        · rintro ⟨front, back, rfl, hfew⟩
          exact ⟨c :: front, back, rfl, (hcount front).mpr hfew⟩
        · rintro ⟨front, back, hline, hfew⟩
          cases front with
          | nil => exact absurd (List.cons.inj hline).1 hc
          | cons d front =>
            obtain ⟨rfl, hrest⟩ := List.cons.inj hline
            exact ⟨front, back, hrest, (hcount front).mp hfew⟩

/-- Otherwise they are the first letters, and the rest of the line stands behind them. -/
theorem splitLetters?_eq_some {e : Char} {line : List Char} {wanted : Nat}
    (h : splitLetters? [e] wanted line ≠ none) :
    splitLetters? [e] wanted line =
      some ((line.filter isLetter).take wanted, behindLetters wanted line) := by
  induction line generalizing wanted with
  | nil => cases wanted <;> rfl
  | cons c rest ih =>
    cases wanted with
    | zero => rfl
    | succ wanted =>
      have hc : c ≠ e := by
        rintro rfl
        exact h (by simp [splitLetters?])
      have hne : ¬ [e] = [c] := by simpa using Ne.symm hc
      have hrest := ih (mt (splitLetters?_cons_eq_none_iff hc rest wanted).mpr h)
      by_cases hletter : isLetter c = true
      · rw [if_pos hletter] at hrest
        simp [splitLetters?, behindLetters, hne, hletter, hrest]
      · rw [if_neg hletter] at hrest
        simp [splitLetters?, behindLetters, hne, hletter, hrest]

/-- A line without the escape character is split behind its first letters. -/
theorem splitLetters?_eq {e : Char} {line : List Char} (h : e ∉ line) (wanted : Nat) :
    splitLetters? [e] wanted line =
      some ((line.filter isLetter).take wanted, behindLetters wanted line) := by
  refine splitLetters?_eq_some fun hnone => ?_
  obtain ⟨front, back, rfl, -⟩ := splitLetters?_eq_none_iff.mp hnone
  exact h (List.mem_append_right front List.mem_cons_self)

/-- The text in the place of the mnemonic: the first three letters of a line. -/
def mnemonicText (line : List Char) : List Char :=
  ((uncommented line).filter isLetter).take mnemonicLength

/-- The text in the place of the operand: what stands behind the mnemonic, without the
characters that no operand holds. -/
def operandText (line : List Char) : List Char :=
  (behindLetters mnemonicLength (uncommented line)).filter Operand.alphabet.contains

/-- Behind as many letters as are wanted the rest of the line stands. -/
theorem behindLetters_append {letters : List Char} (h : ∀ c ∈ letters, isLetter c = true)
    (rest : List Char) : behindLetters letters.length (letters ++ rest) = rest := by
  induction letters with
  | nil => cases rest <;> rfl
  | cons c letters ih =>
    have hc : isLetter c = true := h c List.mem_cons_self
    rw [List.length_cons, List.cons_append, behindLetters, if_pos hc]
    exact ih fun x hx => h x (List.mem_cons_of_mem c hx)

theorem mem_of_mem_behindLetters {x : Char} {line : List Char} {wanted : Nat}
    (h : x ∈ behindLetters wanted line) : x ∈ line := by
  induction line generalizing wanted with
  | nil => cases wanted <;> simp [behindLetters] at h
  | cons c rest ih =>
    cases wanted with
    | zero => exact h
    | succ wanted =>
      rw [behindLetters] at h
      split at h
      · exact List.mem_cons_of_mem c (ih h)
      · exact List.mem_cons_of_mem c (ih h)

/-! ## Blank lines -/

/-- Nothing but white space stands before the comment of the line. -/
def IsBlankLine (line : List Char) : Prop :=
  (uncommented line).all Text.isBlank = true

theorem isLetter_iff {c : Char} : isLetter c = true ↔ 65 ≤ c.toNat ∧ c.toNat ≤ 90 := by
  rw [isLetter, Bool.and_eq_true, decide_eq_true_eq, decide_eq_true_eq, Char.le_def, Char.le_def,
    UInt32.le_iff_toNat_le, UInt32.le_iff_toNat_le]
  exact Iff.rfl

theorem toNat_of_isLetter {c : Char} (h : isLetter c = true) : 65 ≤ c.toNat ∧ c.toNat ≤ 90 :=
  isLetter_iff.mp h

theorem not_isBlank_of_isLetter {c : Char} (h : isLetter c = true) : Text.isBlank c = false := by
  have hletter := toNat_of_isLetter h
  simp [Text.isBlank]
  omega

/-- A blank line holds no letters. -/
theorem IsBlankLine.filter_isLetter_eq {line : List Char} (h : IsBlankLine line) :
    (uncommented line).filter isLetter = [] := by
  rw [List.filter_eq_nil_iff]
  intro c hc hletter
  have hblank := List.all_eq_true.mp h c hc
  rw [not_isBlank_of_isLetter hletter] at hblank
  cases hblank

theorem IsBlankLine.mnemonicText_eq {line : List Char} (h : IsBlankLine line) :
    mnemonicText line = [] := by
  rw [mnemonicText, h.filter_isLetter_eq, List.take_nil]

/-- A blank line holds no escape. -/
theorem IsBlankLine.escape_notMem {line : List Char} (h : IsBlankLine line) :
    '\x1b' ∉ uncommented line := by
  intro hmem
  have hblank := List.all_eq_true.mp h _ hmem
  revert hblank
  decide

/-- Escape is typed as itself: it is in the part of a line before the comment exactly if it is
there before upper-casing. -/
theorem escape_mem_uncommented_iff {line : List Char} :
    '\x1b' ∈ uncommented line ↔ '\x1b' ∈ line.takeWhile (· != ';') :=
  Text.mem_upper_iff (by decide)

/-! ## The next line with something on it -/

/-- The console comes to `line` when it looks for a mnemonic: no escape is pending, the lines
before it are blank, and it is not. -/
structure Next (c : Console) (line : List Char) (rest : List (List Char)) : Prop where
  escape_eq : c.escape = ['\x1b']
  not_pending : ∀ behind, c.remainder = some behind → '\x1b' ∉ behind
  unread_eq : ∃ blanks, c.unread = blanks ++ line :: rest ∧ ∀ b ∈ blanks, IsBlankLine b
  not_blank : ¬ IsBlankLine line

/-- The console comes to a line that holds no escape before its comment. -/
structure Offers (c : Console) (line : List Char) (rest : List (List Char)) : Prop
    extends Next c line rest where
  free : '\x1b' ∉ line.takeWhile (· != ';')

/-- The console after the mnemonic of a line was read. -/
def afterMnemonic (c : Console) (line : List Char) (rest : List (List Char)) : Console :=
  { c with unread := rest, remainder := some (behindLetters mnemonicLength (uncommented line)) }

/-- A blank line is passed over. -/
theorem nextMnemonic_cons_of_blank {c : Console} (hescape : c.escape = ['\x1b'])
    {line : List Char} (h : IsBlankLine line) (rest : List (List Char)) :
    (c.nextMnemonic (line :: rest)).answer = (c.nextMnemonic rest).answer ∧
      (c.nextMnemonic (line :: rest)).console = (c.nextMnemonic rest).console := by
  have hletters : ((uncommented line).filter isLetter).take mnemonicLength = [] := h.mnemonicText_eq
  have hblank : (uncommented line).all Text.isBlank = true := h
  simp [nextMnemonic, hescape, splitLetters?_eq h.escape_notMem, hletters, hblank]

/-- A line with something on it, and with its mnemonic complete before any escape, answers with
its mnemonic. -/
theorem nextMnemonic_cons_of_not_blank {c : Console} {e : Char} (hescape : c.escape = [e])
    {line : List Char} (hblank : ¬ IsBlankLine line)
    (hletters : splitLetters? [e] mnemonicLength (uncommented line) ≠ none)
    (rest : List (List Char)) :
    (c.nextMnemonic (line :: rest)).answer = some (String.ofList (mnemonicText line)) ∧
      (c.nextMnemonic (line :: rest)).console = c.afterMnemonic line rest := by
  have hsplit := splitLetters?_eq_some hletters
  have hsome : ((uncommented line).all Text.isBlank) = false := by
    rw [Bool.eq_false_iff]
    exact hblank
  simp [nextMnemonic, hescape, hsplit, hsome, mnemonicText, afterMnemonic]

/-- With no escape left over, the mnemonic is looked for in the lines that are still to be read. -/
theorem takeMnemonic_eq_nextMnemonic {c : Console} {e : Char} (hescape : c.escape = [e])
    (hpending : ∀ behind, c.remainder = some behind → e ∉ behind) :
    c.takeMnemonic = c.nextMnemonic c.unread := by
  simp only [takeMnemonic]
  cases hremainder : c.remainder with
  | none => rfl
  | some behind =>
    have hfree := hpending behind hremainder
    simp [hescape, Text.occurs_singleton, hfree]

theorem nextMnemonic_append {c : Console} (hescape : c.escape = ['\x1b'])
    {blanks : List (List Char)} (hblanks : ∀ b ∈ blanks, IsBlankLine b)
    (rest : List (List Char)) :
    (c.nextMnemonic (blanks ++ rest)).answer = (c.nextMnemonic rest).answer ∧
      (c.nextMnemonic (blanks ++ rest)).console = (c.nextMnemonic rest).console := by
  induction blanks with
  | nil => exact ⟨rfl, rfl⟩
  | cons b blanks ih =>
    obtain ⟨hanswer, hconsole⟩ := ih fun x hx => hblanks x (List.mem_cons_of_mem b hx)
    have hb := nextMnemonic_cons_of_blank hescape (hblanks b List.mem_cons_self) (blanks ++ rest)
    rw [List.cons_append]
    exact ⟨hb.1.trans hanswer, hb.2.trans hconsole⟩

/-- The mnemonic that is read is that of the line on offer, and its operand is kept. -/
theorem Offers.takeMnemonic_eq {c : Console} {line : List Char} {rest : List (List Char)}
    (h : Offers c line rest) :
    c.takeMnemonic.answer = some (String.ofList (mnemonicText line)) ∧
      c.takeMnemonic.console = c.afterMnemonic line rest := by
  have hnext := takeMnemonic_eq_nextMnemonic h.escape_eq h.not_pending
  obtain ⟨blanks, hunread, hblanks⟩ := h.unread_eq
  have hskip := nextMnemonic_append h.escape_eq hblanks (line :: rest)
  have hletters : splitLetters? ['\x1b'] mnemonicLength (uncommented line) ≠ none := by
    rw [splitLetters?_eq (mt escape_mem_uncommented_iff.mp h.free)]
    exact Option.some_ne_none _
  have hline := nextMnemonic_cons_of_not_blank h.escape_eq h.not_blank hletters rest
  rw [hnext, hunread]
  exact ⟨hskip.1.trans hline.1, hskip.2.trans hline.2⟩

/-- Without an escape behind the mnemonic the operand is read. -/
theorem takeOperand_afterMnemonic {c : Console} (hescape : c.escape = ['\x1b'])
    {line : List Char} (hfree : '\x1b' ∉ line.takeWhile (· != ';')) (rest : List (List Char)) :
    (c.afterMnemonic line rest).takeOperand.answer = some (String.ofList (operandText line)) ∧
      (c.afterMnemonic line rest).takeOperand.console =
        { c with unread := rest, remainder := none } := by
  have hbehind : '\x1b' ∉ behindLetters mnemonicLength (uncommented line) :=
    fun hmem => hfree (escape_mem_uncommented_iff.mp (mem_of_mem_behindLetters hmem))
  simp [takeOperand, afterMnemonic, hescape, Text.occurs_singleton, hbehind, operandText]

/-! ## A console between two lines -/

/-- The console has these lines still to read, and no escape is pending. -/
structure Ready (c : Console) (lines : List (List Char)) : Prop where
  escape_eq : c.escape = ['\x1b']
  not_pending : ∀ behind, c.remainder = some behind → '\x1b' ∉ behind
  unread_eq : c.unread = lines

/-- A console that was made of a text is ready for its lines. -/
theorem ready_ofText (text : List Char) : (ofText text "\x1b").Ready (Text.typedLines text) := by
  refine ⟨rfl, fun behind hpending => ?_, rfl⟩
  cases hpending

/-- A console that is ready for a line with something on it offers this line. -/
theorem Ready.offers {c : Console} {line : List Char} {rest : List (List Char)}
    (h : Ready c (line :: rest)) (hblank : ¬ IsBlankLine line)
    (hfree : '\x1b' ∉ line.takeWhile (· != ';')) : Offers c line rest :=
  ⟨⟨h.escape_eq, h.not_pending, ⟨[], h.unread_eq, by simp⟩, hblank⟩, hfree⟩

/-- Without lines there is no answer. -/
theorem Ready.answer_takeMnemonic_eq_none {c : Console} (h : Ready c []) :
    c.takeMnemonic.answer = none := by
  rw [takeMnemonic_eq_nextMnemonic h.escape_eq h.not_pending, h.unread_eq]
  rfl

/-- When the mnemonic was read, the console is ready for the next line, whether or not the
operand is asked for. -/
theorem Offers.ready {c : Console} {line : List Char} {rest : List (List Char)}
    (h : Offers c line rest) :
    (c.afterMnemonic line rest).Ready rest ∧
      (c.afterMnemonic line rest).takeOperand.console.Ready rest := by
  have hoperand := (takeOperand_afterMnemonic h.escape_eq h.free rest).2
  constructor
  · refine ⟨h.escape_eq, fun behind hpending hmem => ?_, rfl⟩
    rw [← Option.some.inj hpending] at hmem
    exact h.free (escape_mem_uncommented_iff.mp (mem_of_mem_behindLetters hmem))
  · rw [hoperand]
    refine ⟨h.escape_eq, fun behind hpending => ?_, rfl⟩
    cases hpending

end LineMonitor.Console
