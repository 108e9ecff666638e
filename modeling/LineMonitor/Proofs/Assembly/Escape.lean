import LineMonitor.Proofs.Assembly.Bookkeeping
import LineMonitor.Proofs.Assembly.Composition

/-!
# What Escape does to a session

Escape is noticed in three places: while the mnemonic is read, when the operand is asked for, and,
if it never is, at the next prompt.  Between them each line that holds it is answered for exactly
once (`EscapeTaken`): the session ends at the line, or the line is dropped, or it is assembled and
the session ends behind it.  A session reads its lines up to and with the first after which it
stops (`Console.exists_consumed`), and a line is dropped for no other reason
(`exists_of_lineAborted`).
`Session.assemble_escape` has all of this for the session of a text.
-/

namespace LineMonitor

open Console

/-! ## The lines that are read -/

namespace Console

/-- Of the lines of a text a run reads these and leaves the rest: it comes to the end of the text,
or it stops behind the last of them and not before. -/
inductive Consumed : List (List Char) → List (List Char) → Prop where
  | all {read : List (List Char)} (hread : ∀ line ∈ read, ¬ Stops line) : Consumed read []
  | upTo {before : List (List Char)} {line : List Char} (rest : List (List Char))
      (hbefore : ∀ other ∈ before, ¬ Stops other) (hstops : Stops line) :
      Consumed (before ++ [line]) rest

/-- The lines are read up to and with the first after which the run stops. -/
theorem exists_consumed (lines : List (List Char)) :
    ∃ read rest, lines = read ++ rest ∧ Consumed read rest := by
  induction lines with
  | nil => exact ⟨[], [], rfl, .all (by simp)⟩
  | cons line lines ih =>
    by_cases hstops : Stops line
    · have hread : Consumed ([] ++ [line]) lines := .upTo lines (by simp) hstops
      exact ⟨[line], lines, rfl, hread⟩
    · obtain ⟨read, rest, rfl, hread⟩ := ih
      refine ⟨line :: read, rest, rfl, ?_⟩
      cases hread with
      | all hread => exact .all (List.forall_mem_cons.mpr ⟨hstops, hread⟩)
      | upTo rest hbefore hlast =>
        rw [← List.cons_append]
        exact .upTo rest (List.forall_mem_cons.mpr ⟨hstops, hbefore⟩) hlast

/-- Behind every line that is read, except the last, the run goes on. -/
theorem Consumed.goes_on {read rest before behind : List (List Char)} {line : List Char}
    (h : Consumed read rest) (hread : read = before ++ line :: behind) :
    ∀ other ∈ before, ¬ Stops other := by
  intro other hother
  cases h with
  | all hgoes =>
    refine hgoes other ?_
    rw [hread]
    exact List.mem_append_left _ hother
  | @upTo front last _ hfront hstops =>
    refine hfront other ?_
    have hsplit : front = before ++ (line :: behind).dropLast := by
      rw [← List.dropLast_append_cons, ← hread, List.dropLast_concat]
    rw [hsplit]
    exact List.mem_append_left _ hother

end Console

/-! ## A line with Escape -/

/-- What becomes of a line that holds Escape before its comment, and of the run that reads it,
behind lines that came to `first`: exactly one of three, according to where Escape stands and
what the mnemonic is. -/
structure EscapeTaken (first : Upshot) (line : List Char) (rest : List (List Char))
    (whole : Upshot) : Prop where
  /-- If the mnemonic is not complete, the run ends at the line, which is not recorded and leaves
  memory alone. -/
  early : EscapesEarly line → whole = { first with console := holding rest }
  /-- If an operand is asked for, the line is dropped, and the run goes on with the next line at
  the same address. -/
  dropped : ¬ EscapesEarly line → AsksOperand line →
    ∃ r : Line, r.outcome = .lineAborted ∧ r.address = first.finish ∧ r.next = first.finish ∧
      whole = (upshot first.memory rest first.finish).behind (first.results ++ [r])
  /-- Otherwise the line ends as it would without Escape, and the run ends at the next prompt,
  before a further line is read. -/
  unasked : ¬ EscapesEarly line → ¬ AsksOperand line →
    let alone := enterLine first.memory (holding [Text.erase ['\x1b'] line]) first.finish
    whole = ⟨alone.memory, holding rest, first.results ++ [alone.result], alone.result.next⟩

section Run

variable {m : Memory} {a : Address}

/-- What is left behind a line after which the run stops has no part in it. -/
theorem upshot_cons_of_stops {line : List Char} (h : Stops line) (rest : List (List Char)) :
    upshot m (line :: rest) a = { upshot m [line] a with console := holding rest } := by
  obtain ⟨hescape, hwhy⟩ := h
  by_cases hearly : EscapesEarly line
  · rw [upshot_cons_of_early m a rest hearly, upshot_cons_of_early m a [] hearly]
  · have hno : ¬ AsksOperand line := hwhy.resolve_left hearly
    rw [upshot_cons_of_unasked m a rest hescape hearly hno,
      upshot_cons_of_unasked m a [] hescape hearly hno]

/-- A run comes to what the lines come to that it reads, and the others are left. -/
theorem Console.Consumed.upshot_eq {read rest : List (List Char)} (h : Consumed read rest) :
    upshot m (read ++ rest) a = { upshot m read a with console := holding rest } := by
  cases h with
  | all hread =>
    rw [upshot_append m a hread, upshot_nil]
    simp [Upshot.behind]
  | upTo rest hbefore hstops =>
    rw [List.append_assoc, upshot_append m a hbefore, upshot_append m a hbefore,
      List.singleton_append, upshot_cons_of_stops hstops]
    rfl

/-- Behind lines after which the run goes on, a line with Escape is answered for exactly once. -/
theorem escapeTaken_append {before : List (List Char)} {line : List Char}
    (hbefore : ∀ other ∈ before, ¬ Stops other) (hescape : HasEscape line)
    (rest : List (List Char)) :
    EscapeTaken (upshot m before a) line rest (upshot m (before ++ line :: rest) a) := by
  have happend := upshot_append m a hbefore (line :: rest)
  constructor
  · intro hearly
    rw [happend, upshot_cons_of_early _ _ rest hearly]
    simp [Upshot.behind]
  · intro hlate hasks
    have hblank : ¬ IsBlankLine line := fun hblank => hblank.not_hasEscape hescape
    have hgoes : ¬ Stops line := hescape.not_stops_iff.mpr ⟨hlate, hasks⟩
    obtain ⟨hmemory, haddress, hending⟩ := enterLine_holding_of_dropped
      (upshot m before a).memory (upshot m before a).finish [] hescape hlate hasks
    have houtcome := Ending.outcome_eq_lineAborted_iff.mpr hending
    refine ⟨_, houtcome, haddress, ?_, ?_⟩
    · rw [Line.next, hending]
      exact haddress
    · rw [happend, upshot_cons_of_not_stops _ _ rest hblank hgoes, Upshot.behind_behind, hmemory,
        Line.next, hending, haddress]
  · intro hlate hno alone
    rw [happend, upshot_cons_of_unasked _ _ rest hescape hlate hno]
    rfl

/-- A line without Escape is not dropped. -/
theorem outcome_ne_lineAborted_of_free {line : List Char} (hblank : ¬ IsBlankLine line)
    (hfree : ¬ HasEscape line) :
    (enterLine m (holding [line]) a).result.outcome ≠ .lineAborted := by
  have hending := enterLine_holding_of_free m a [] hblank hfree
  exact mt Ending.outcome_eq_lineAborted_iff.mp hending

/-- A line that is dropped is one with Escape behind a mnemonic that asks for an operand. -/
theorem exists_of_lineAborted {lines : List (List Char)} {earlier later : List Line} {r : Line}
    (h : (upshot m lines a).results = earlier ++ r :: later) (hr : r.outcome = .lineAborted) :
    ∃ before line behind, lines = before ++ line :: behind ∧
      (HasEscape line ∧ ¬ EscapesEarly line ∧ AsksOperand line) ∧
      (upshot m before a).results = earlier := by
  induction lines generalizing m a earlier with
  | nil =>
    rw [upshot_nil] at h
    cases earlier <;> cases h
  | cons line lines ih =>
    rcases line_cases line with hblank | hearly | ⟨hescape, hlate, hno⟩ | ⟨hblank, hgoes⟩
    · rw [upshot_cons_of_blank m a lines hblank] at h
      obtain ⟨before, next, behind, rfl, hnext, hresults⟩ := ih h
      refine ⟨line :: before, next, behind, rfl, hnext, ?_⟩
      rw [upshot_cons_of_blank m a before hblank, hresults]
    · rw [upshot_cons_of_early m a lines hearly] at h
      cases earlier <;> cases h
    · -- the only line that is recorded ends as one without Escape
      rw [upshot_cons_of_unasked m a lines hescape hlate hno] at h
      have hmem : r ∈ earlier ++ r :: later := by simp
      rw [← h, List.mem_singleton] at hmem
      rw [hmem] at hr
      exact absurd hr (outcome_ne_lineAborted_of_free (not_isBlankLine_erase hescape hlate)
        (not_hasEscape_erase line))
    · rw [upshot_cons_of_not_stops m a lines hblank hgoes] at h
      cases earlier with
      | nil =>
        have hfirst := (List.cons.inj h).1
        have hescape : HasEscape line := by
          by_contra hnone
          rw [← hfirst] at hr
          exact outcome_ne_lineAborted_of_free hblank hnone hr
        refine ⟨[], line, lines, rfl, ⟨hescape, hescape.not_stops_iff.mp hgoes⟩, ?_⟩
        rw [upshot_nil]
      | cons first earlier =>
        obtain ⟨hfirst, hlater⟩ := List.cons.inj h
        obtain ⟨before, next, behind, rfl, hnext, hresults⟩ := ih hlater
        refine ⟨line :: before, next, behind, rfl, hnext, ?_⟩
        rw [upshot_cons_of_not_stops m a before hblank hgoes, ← hfirst]
        simp only [Upshot.behind, hresults, List.singleton_append]

end Run

/-! ## A session -/

/-- How a run that reads these lines and leaves the rest takes the escapes in them. -/
structure EscapesTaken (m : Memory) (a : Address) (read rest : List (List Char))
    (reached : Upshot) : Prop where
  /-- A line with Escape before its comment is answered for where the run comes to it. -/
  taken : ∀ before line behind, read = before ++ line :: behind → HasEscape line →
    EscapeTaken (upshot m before a) line (behind ++ rest) reached
  /-- A line is dropped for no other reason. -/
  aborted : ∀ earlier r later, reached.results = earlier ++ r :: later →
    r.outcome = .lineAborted →
    ∃ before line behind, read = before ++ line :: behind ∧
      (HasEscape line ∧ ¬ EscapesEarly line ∧ AsksOperand line) ∧
      (upshot m before a).results = earlier
  /-- The run ends for no other reason than that, or at the end of the text. -/
  consumed : Consumed read rest

/-- No escape is lost, counted twice or made up in the session of a text: the lines that it reads
are the text up to what it leaves unread, and each of them with Escape before its comment ends
the session, or is dropped, or is the last to be assembled. -/
theorem Session.assemble_escape (s : Session) (text : List Char) (address : Int) :
    let after := ((s.typing text).assemble address).1
    let S := ((s.typing text).assemble address).2.2
    ∃ read, Text.typedLines text = read ++ after.console.unread ∧
      EscapesTaken s.memory S.start read after.console.unread (S.upshot after) := by
  intro after S
  obtain ⟨read, rest, hlines, hread⟩ := exists_consumed (Text.typedLines text)
  have hreached : S.upshot after = LineMonitor.upshot s.memory (read ++ rest) S.start := by
    rw [← hlines]
    exact upshot_assemble s text address
  have hleft : S.upshot after =
      { LineMonitor.upshot s.memory read S.start with console := holding rest } := by
    rw [hreached, hread.upshot_eq]
  have hrest : after.console.unread = rest :=
    congrArg (fun reached : Upshot => reached.console.unread) hleft
  rw [hrest]
  refine ⟨read, hlines, ?_, ?_, hread⟩
  · intro before line behind hsplit hescape
    rw [hreached, hsplit, List.append_assoc, List.cons_append]
    exact escapeTaken_append (hread.goes_on hsplit) hescape (behind ++ rest)
  · intro earlier r later hresults hr
    rw [hleft] at hresults
    exact exists_of_lineAborted hresults hr

/-- A line that is dropped, one that is assembled with Escape behind it, and one that is not read
any more. -/
theorem Session.assemble_escape_ldx_nop :
    let text := "LDX #\x1b0A\nNOP ; \x1b\nNOP \x1b\nDEX\n".toList
    let s : Session :=
      { memory := Memory.filled [] [] 0
        console := ofText [] "\x1b" }
    let after := ((s.typing text).assemble 0).1
    let S := ((s.typing text).assemble 0).2.2
    S.results.map Line.outcome = [.lineAborted, .success, .success] ∧
      after.console.unread = ["DEX".toList] ∧
      ∃ read, Text.typedLines text = read ++ after.console.unread ∧
        EscapesTaken s.memory S.start read after.console.unread (S.upshot after) := by
  intro text s after S
  refine ⟨by decide +kernel, by decide +kernel, ?_⟩
  exact s.assemble_escape text 0

end LineMonitor
