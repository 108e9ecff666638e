import LineMonitor.Proofs.Console.Usage

/-!
# Questions in any order

A console can be asked for mnemonics, operands and commands in any order.  `Console.Answering`
lists what a question can come to: which lines it uses up, what its answer is, and what it leaves of
a line to be read as an operand.  The console keeps to this list (`Console.exists_answering`).  So
whatever was asked before, lines are used up from the front and told as they are used up, and an
operand comes from the line whose mnemonic was the answer just before (`Console.ofText_keepsApart`).
-/

namespace LineMonitor

namespace Console

variable {c : Console} {e : Char}

/-! ## Lines that are used up -/

/-- These lines were used up on the way to a console: they were at the front of the input, and what
was told on the way is these lines. -/
structure Uses (e : Char) (lines used : List (List Char)) (after : Console) (told : Transcript) :
    Prop where
  lines_eq : lines = used ++ after.unread
  escape_eq : after.escape = [e]
  typed_eq : told.typed = used.map (shown [e])

theorem Uses.append {lines used used' : List (List Char)} {after after' : Console}
    {told told' : Transcript} (h : Uses e lines used after told)
    (h' : Uses e after.unread used' after' told') :
    Uses e lines (used ++ used') after' (told ++ told') where
  lines_eq := by rw [h.lines_eq, h'.lines_eq, List.append_assoc]
  escape_eq := h'.escape_eq
  typed_eq := by rw [Transcript.typed_append, h.typed_eq, h'.typed_eq, List.map_append]

theorem typed_echoed (h : c.escape = [e]) (line : List Char) (told : Transcript) :
    Transcript.typed (c.echoed line :: told) = shown [e] line :: told.typed := by
  rw [echoed_eq, h]
  rfl

/-! ## Looking for a mnemonic -/

/-- How the search for a mnemonic can end: the lines that it uses up, its answer, and what it leaves
of the last of them. -/
inductive Finding (e : Char) :
    List (List Char) → List (List Char) → Option String → Option (List Char) → Prop where
  | ended : Finding e [] [] none none
  /-- A blank line is passed over. -/
  | blank {line : List Char} {rest used : List (List Char)} {answer : Option String}
      {left : Option (List Char)} (hblank : IsBlankLine line)
      (hrest : Finding e rest used answer left) :
      Finding e (line :: rest) (line :: used) answer left
  /-- Escape stands where the mnemonic of the line is not complete. -/
  | escaped {line : List Char} {rest : List (List Char)}
      (hearly : splitLetters? [e] mnemonicLength (uncommented line) = none) :
      Finding e (line :: rest) [line] none none
  | named {line : List Char} {rest : List (List Char)} (hblank : ¬ IsBlankLine line)
      (hlate : splitLetters? [e] mnemonicLength (uncommented line) ≠ none) :
      Finding e (line :: rest) [line] (some (String.ofList (mnemonicText line)))
        (some (behindLetters mnemonicLength (uncommented line)))

theorem exists_finding (h : c.escape = [e]) (lines : List (List Char)) :
    ∃ used, Finding e lines used (c.nextMnemonic lines).answer
        (c.nextMnemonic lines).console.remainder ∧
      Uses e lines used (c.nextMnemonic lines).console (c.nextMnemonic lines).transcript := by
  induction lines with
  | nil => exact ⟨[], .ended, rfl, h, rfl⟩
  | cons line rest ih =>
    cases hsplit : splitLetters? [e] mnemonicLength (uncommented line) with
    | none =>
      simp only [nextMnemonic, h, hsplit]
      exact ⟨[line], .escaped hsplit, rfl, rfl, typed_echoed h line _⟩
    | some found =>
      have hlate : splitLetters? [e] mnemonicLength (uncommented line) ≠ none := by
        rw [hsplit]
        exact Option.some_ne_none found
      have hfound := splitLetters?_eq_some hlate
      have hname : ((uncommented line).filter isLetter).take mnemonicLength = mnemonicText line :=
        rfl
      by_cases hblank : IsBlankLine line
      · have hpassed : (mnemonicText line).isEmpty && (uncommented line).all Text.isBlank := by
          rw [hblank.mnemonicText_eq]
          exact hblank
        obtain ⟨used, hfinding, huses⟩ := ih
        simp only [nextMnemonic, h, hfound, hname, hpassed, if_true]
        exact ⟨line :: used, .blank hblank hfinding, congrArg (line :: ·) huses.lines_eq,
          huses.escape_eq, (typed_echoed h line _).trans (congrArg _ huses.typed_eq)⟩
      · have hkept : ¬ ((mnemonicText line).isEmpty && (uncommented line).all Text.isBlank) := by
          rw [Bool.and_eq_true]
          exact fun hboth => hblank hboth.2
        simp only [nextMnemonic, h, hfound, hname, hkept]
        exact ⟨[line], .named hblank hlate, rfl, rfl, typed_echoed h line _⟩

namespace Finding

variable {lines used : List (List Char)} {left : Option (List Char)}

/-- The lines in front of the one whose mnemonic is found are blank. -/
theorem exists_line {name : String} (h : Finding e lines used (some name) left) :
    ∃ blanks line, used = blanks ++ [line] ∧ (∀ b ∈ blanks, IsBlankLine b) ∧
      name = String.ofList (mnemonicText line) ∧
      left = some (behindLetters mnemonicLength (uncommented line)) := by
  generalize hanswer : some name = answer at h
  induction h with
  | ended => cases hanswer
  | @blank line rest used answer left hblank hrest ih =>
    obtain ⟨blanks, found, rfl, hblanks, hname⟩ := ih hanswer
    exact ⟨line :: blanks, found, rfl, List.forall_mem_cons.mpr ⟨hblank, hblanks⟩, hname⟩
  | escaped => cases hanswer
  | @named line rest hblank hlate =>
    exact ⟨[], line, rfl, by simp, Option.some.inj hanswer, rfl⟩

/-- Without a mnemonic nothing is left of the line. -/
theorem left_eq_none (h : Finding e lines used none left) : left = none := by
  generalize hanswer : none = answer at h
  induction h with
  | ended => rfl
  | blank hblank hrest ih => exact ih hanswer
  | escaped => rfl
  | named => cases hanswer

end Finding

/-! ## One question -/

/-- An operand is what was left of a line, unless there is an escape in it. -/
theorem answer_takeOperand (h : c.escape = [e]) :
    c.takeOperand.answer = if e ∈ c.remainder.getD [] then none
      else some (String.ofList ((c.remainder.getD []).filter Operand.alphabet.contains)) := by
  simp only [takeOperand, h, Text.occurs_singleton, List.contains_iff_mem]
  split <;> rfl

/-- What a console can be asked for. -/
inductive Question where
  | mnemonic
  | operand
  | command
  deriving DecidableEq, Repr

/-- The answer to a question. -/
def ask (c : Console) : Question → Reading
  | .mnemonic => c.takeMnemonic
  | .operand => c.takeOperand
  | .command => c.takeCommand

/-- What a question to a console can come to: the lines that it uses up, its answer, and what it
leaves of a line. -/
inductive Answering (e : Char) (c : Console) :
    Question → List (List Char) → Option String → Option (List Char) → Prop where
  /-- An escape that was left of a line answers in the place of the next mnemonic. -/
  | leftOver {behind : List Char} (hleft : c.remainder = some behind) (hmem : e ∈ behind) :
      Answering e c .mnemonic [] none none
  | found {used : List (List Char)} {answer : Option String} {left : Option (List Char)}
      (hfinding : Finding e c.unread used answer left) : Answering e c .mnemonic used answer left
  /-- What was left of a line is its operand. -/
  | operand : Answering e c .operand []
      (if e ∈ c.remainder.getD [] then none
        else some (String.ofList ((c.remainder.getD []).filter Operand.alphabet.contains))) none
  | unheard (hunread : c.unread = []) : Answering e c .command [] none none
  /-- A line is a command, and nothing is left of it for an operand. -/
  | command {line : List Char} {rest : List (List Char)} {answer : Option String}
      (hunread : c.unread = line :: rest) : Answering e c .command [line] answer none

/-- The console keeps to the list. -/
theorem exists_answering (h : c.escape = [e]) (q : Question) :
    ∃ used, Answering e c q used (c.ask q).answer (c.ask q).console.remainder ∧
      Uses e c.unread used (c.ask q).console (c.ask q).transcript := by
  cases q with
  | mnemonic =>
    obtain ⟨used, hfinding, huses⟩ := exists_finding h c.unread
    simp only [ask, takeMnemonic, h]
    cases hleft : c.remainder with
    | none => exact ⟨used, .found hfinding, huses⟩
    | some behind =>
      by_cases hmem : e ∈ behind
      · simp only [Text.occurs_singleton, List.contains_iff_mem, hmem, if_true]
        exact ⟨[], .leftOver hleft hmem, rfl, rfl, rfl⟩
      · simp only [Text.occurs_singleton, List.contains_iff_mem, hmem, if_false]
        exact ⟨used, .found hfinding, huses⟩
  | operand =>
    have htold : c.takeOperand.transcript.typed = [] := by
      simp only [takeOperand]
      split <;> rfl
    have hconsole := c.console_takeOperand
    refine ⟨[], ?_, ?_, ?_, htold⟩
    · rw [ask, answer_takeOperand h, hconsole]
      exact .operand
    · rw [ask, hconsole, List.nil_append]
    · rw [ask, hconsole, h]
  | command =>
    rw [ask, takeCommand]
    cases hunread : c.unread with
    | nil => exact ⟨[], .unheard hunread, rfl, h, rfl⟩
    | cons line rest =>
      dsimp only
      split
      · exact ⟨[line], .command hunread, rfl, h, typed_echoed h line _⟩
      · exact ⟨[line], .command hunread, rfl, h, typed_echoed h line _⟩

/-! ## Many questions -/

/-- The lines that a question uses up: those at the front that are not there afterwards. -/
def used (c : Console) (q : Question) : List (List Char) :=
  c.unread.take (c.unread.length - (c.ask q).console.unread.length)

/-- The lines that questions use up, in order. -/
def usedUp (c : Console) : List Question → List (List Char)
  | [] => []
  | q :: later => c.used q ++ (c.ask q).console.usedUp later

/-- What a console tells while it is asked. -/
def told (c : Console) : List Question → Transcript
  | [] => []
  | q :: later => (c.ask q).transcript ++ (c.ask q).console.told later

/-- The console after questions. -/
def after (c : Console) (asked : List Question) : Console :=
  asked.foldl (fun c q => (c.ask q).console) c

theorem after_concat (c : Console) (asked : List Question) (q : Question) :
    c.after (asked ++ [q]) = ((c.after asked).ask q).console :=
  List.foldl_concat ..

theorem used_eq_of_uses {q : Question} {used : List (List Char)}
    (h : Uses e c.unread used (c.ask q).console (c.ask q).transcript) : c.used q = used := by
  rw [Console.used, h.lines_eq, List.length_append, Nat.add_sub_cancel, List.take_left]

/-- Questions use up lines from the front, and tell them as they use them up. -/
theorem uses_after (h : c.escape = [e]) (asked : List Question) :
    Uses e c.unread (c.usedUp asked) (c.after asked) (c.told asked) := by
  induction asked generalizing c with
  | nil => exact ⟨rfl, h, rfl⟩
  | cons q later ih =>
    obtain ⟨used, -, huses⟩ := exists_answering h q
    rw [usedUp, used_eq_of_uses huses]
    exact huses.append (ih huses.escape_eq)

/-- What can be read as an operand after questions: what stands behind the three letters of the line
whose mnemonic was the last answer. -/
inductive Remains (c : Console) : List Question → List Char → Prop where
  | line {earlier : List Question} {name : String} {blanks : List (List Char)} {line : List Char}
      (hanswer : ((c.after earlier).ask .mnemonic).answer = some name)
      (hused : (c.after earlier).used .mnemonic = blanks ++ [line])
      (hletters : mnemonicLength ≤ ((uncommented line).filter isLetter).length) :
      Remains c (earlier ++ [.mnemonic]) (behindLetters mnemonicLength (uncommented line))
  /-- The line has fewer than three letters. -/
  | short {earlier : List Question} {name : String} {blanks : List (List Char)} {line : List Char}
      (hanswer : ((c.after earlier).ask .mnemonic).answer = some name)
      (hused : (c.after earlier).used .mnemonic = blanks ++ [line])
      (hletters : ((uncommented line).filter isLetter).length < mnemonicLength) :
      Remains c (earlier ++ [.mnemonic]) []
  | unanswered {earlier : List Question}
      (hanswer : ((c.after earlier).ask .mnemonic).answer = none) :
      Remains c (earlier ++ [.mnemonic]) []
  /-- The last question was for something else than a mnemonic, or there was none. -/
  | elsewhere {asked : List Question} (hlast : asked.getLast? ≠ some .mnemonic) :
      Remains c asked []

/-- Nothing stands behind the letters of a line if it has fewer than are wanted. -/
theorem behindLetters_eq_nil {line : List Char} {wanted : Nat}
    (h : (line.filter isLetter).length < wanted) : behindLetters wanted line = [] := by
  induction line generalizing wanted with
  | nil =>
    cases wanted with
    | zero => cases h
    | succ wanted => rfl
  | cons c rest ih =>
    cases wanted with
    | zero => cases h
    | succ wanted =>
      rw [behindLetters]
      by_cases hletter : isLetter c = true
      · rw [List.filter_cons_of_pos hletter, List.length_cons, Nat.add_lt_add_iff_right] at h
        rw [if_pos hletter, ih h]
      · rw [List.filter_cons_of_neg hletter] at h
        rw [if_neg hletter, ih h]

/-- This is what a console has left of a line. -/
theorem remains_after (h : c.escape = [e]) (hfresh : c.remainder = none) (asked : List Question) :
    c.Remains asked ((c.after asked).remainder.getD []) := by
  rcases List.eq_nil_or_concat asked with rfl | ⟨earlier, q, rfl⟩
  · rw [after, List.foldl_nil, hfresh]
    exact .elsewhere (by simp)
  · rw [List.concat_eq_append, after_concat]
    obtain ⟨used, hanswering, huses⟩ := exists_answering (uses_after h earlier).escape_eq q
    have hused := used_eq_of_uses huses
    generalize hanswer : ((c.after earlier).ask q).answer = answer at hanswering
    generalize ((c.after earlier).ask q).console.remainder = left at hanswering ⊢
    cases hanswering with
    | leftOver hleft hmem => exact .unanswered hanswer
    | found hfinding =>
      cases answer with
      | none =>
        rw [hfinding.left_eq_none]
        exact .unanswered hanswer
      | some name =>
        obtain ⟨blanks, line, rfl, -, -, rfl⟩ := hfinding.exists_line
        rcases Nat.lt_or_ge ((uncommented line).filter isLetter).length mnemonicLength with
          hfew | hletters
        · rw [Option.getD_some, behindLetters_eq_nil hfew]
          exact .short hanswer hused hfew
        · exact .line hanswer hused hletters
    | operand => exact .elsewhere (by simp)
    | unheard hunread => exact .elsewhere (by simp)
    | command hunread => exact .elsewhere (by simp)

/-! ## A console keeps lines apart -/

/-- How a console deals with the lines of its input after any questions. -/
structure KeepsApart (c : Console) (e : Char) (lines : List (List Char)) (asked : List Question) :
    Prop where
  /-- Lines are used up in order, and none of them twice. -/
  lines_eq : lines = c.usedUp asked ++ (c.after asked).unread
  /-- What is told is the lines that were used up, without the escape character. -/
  typed_eq : (c.told asked).typed = (c.usedUp asked).map (shown [e])
  /-- An operand uses up no line. -/
  used_operand : (c.after asked).used .operand = []
  /-- A mnemonic has at most three characters, and they are capital letters. -/
  mnemonic_letters : ∀ name, ((c.after asked).ask .mnemonic).answer = some name →
    name.toList.length ≤ mnemonicLength ∧ ∀ x ∈ name.toList, isLetter x = true
  /-- It is that of the last line that it uses up, and the lines passed over on the way have nothing
  but white space before their comments. -/
  mnemonic_line : ∀ name, ((c.after asked).ask .mnemonic).answer = some name →
    ∃ blanks line, (c.after asked).used .mnemonic = blanks ++ [line] ∧
      name = String.ofList (mnemonicText line) ∧
      ∀ b ∈ blanks, ∀ x ∈ b.takeWhile (· != ';'), Text.isBlank x = true
  /-- An operand consists of the characters of operands. -/
  operand_characters : ∀ text, ((c.after asked).ask .operand).answer = some text →
    ∀ x ∈ text.toList, x ∈ Operand.alphabet
  /-- It is what remains of the line whose mnemonic was the answer just before, if anything does. -/
  operand_line : ∃ behind, c.Remains asked behind ∧
    ((c.after asked).ask .operand).answer = if e ∈ behind then none
      else some (String.ofList (behind.filter Operand.alphabet.contains))

theorem isBlank_of_isBlankLine {line : List Char} (h : IsBlankLine line) :
    ∀ x ∈ line.takeWhile (· != ';'), Text.isBlank x = true :=
  Text.isBlank_of_upper (List.all_eq_true.mp h)

/-- The mnemonic that is answered is that of the last line used up, and the others are blank. -/
theorem exists_line_of_answer (h : c.escape = [e]) {name : String}
    (hname : (c.ask .mnemonic).answer = some name) :
    ∃ blanks line, c.used .mnemonic = blanks ++ [line] ∧
      name = String.ofList (mnemonicText line) ∧ ∀ b ∈ blanks, IsBlankLine b := by
  obtain ⟨used, hanswering, huses⟩ := exists_answering h .mnemonic
  rw [hname] at hanswering
  rw [used_eq_of_uses huses]
  generalize (c.ask .mnemonic).console.remainder = left at hanswering
  cases hanswering with
  | found hfinding =>
    obtain ⟨blanks, line, rfl, hblanks, rfl, -⟩ := hfinding.exists_line
    exact ⟨blanks, line, rfl, rfl, hblanks⟩

/-- A console keeps the lines of a text apart, in whatever order it is asked. -/
theorem ofText_keepsApart (text : List Char) (e : Char) (asked : List Question) :
    (ofText text (String.singleton e)).KeepsApart e (Text.typedLines text) asked := by
  have hescape : (ofText text (String.singleton e)).escape = [e] := String.toList_singleton e
  have hremains := remains_after hescape rfl asked
  have huses := uses_after hescape asked
  have hanswer := answer_takeOperand huses.escape_eq
  refine {
    lines_eq := huses.lines_eq
    typed_eq := huses.typed_eq
    used_operand := ?_
    mnemonic_letters := ?_
    mnemonic_line := ?_
    operand_characters := ?_
    operand_line := ⟨_, hremains, hanswer⟩ }
  · rw [used, ask, unread_takeOperand, Nat.sub_self, List.take_zero]
  · intro name hname
    obtain ⟨blanks, line, -, rfl, -⟩ := exists_line_of_answer huses.escape_eq hname
    rw [String.toList_ofList]
    refine ⟨List.length_take_le _ _, fun x hx => ?_⟩
    exact (List.mem_filter.mp (List.mem_of_mem_take hx)).2
  · intro name hname
    obtain ⟨blanks, line, hused, hline, hblanks⟩ := exists_line_of_answer huses.escape_eq hname
    exact ⟨blanks, line, hused, hline, fun b hb => isBlank_of_isBlankLine (hblanks b hb)⟩
  · intro operand hoperand x hx
    rw [ask, hanswer] at hoperand
    split at hoperand
    · cases hoperand
    · rw [← Option.some.inj hoperand, String.toList_ofList, List.mem_filter] at hx
      exact List.contains_iff_mem.mp hx.2

example :
    let c := ofText " lda #0a ; ten\n; none\nnop\nA 1\n".toList "\x1b"
    let answers := fun asked q => ((c.after asked).ask q).answer
    answers [] .mnemonic = some "LDA" ∧ answers [.mnemonic] .operand = some "#0A" ∧
      answers [.mnemonic, .operand] .operand = some "" ∧
      answers [.mnemonic, .mnemonic] .command = some "A 1" ∧
      answers [.mnemonic, .mnemonic, .command] .operand = some "" := by
  decide +kernel

end Console

end LineMonitor
