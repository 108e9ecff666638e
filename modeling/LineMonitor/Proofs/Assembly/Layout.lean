import LineMonitor.Proofs.Assembly.Composition
import LineMonitor.Proofs.Assembly.Transcript
import LineMonitor.Proofs.Console.Layout

/-!
# Layout makes no difference

A line comes to the same as one that is akin to it (`Console.Akin.enterLine_eq`), and so do lines to
lines that are akin to them one by one (`upshot_congr`).  What is printed without echo is told by
the lines that are recorded and the address at the end (`Prompt.Asked.output_silent`), so texts that
differ in layout alone cannot be told apart by what they are assembled to
(`Session.assemble_relaid`).
-/

namespace LineMonitor

open Console

/-! ## Lines that are akin -/

section Line

variable {line other : List Char}

/-- The answer to the question for the operand is the same. -/
theorem Console.Akin.answer_takeOperand_eq (h : Akin line other) (hlate : ¬ EscapesEarly line)
    (rest rest' : List (List Char)) :
    ((holding (line :: rest)).afterMnemonic line rest).takeOperand.answer =
      ((holding (other :: rest')).afterMnemonic other rest').takeOperand.answer := by
  have hlate' : ¬ EscapesEarly other := mt h.early_iff.mpr hlate
  by_cases hescape : HasEscape line
  · rw [(takeOperand_of_hasEscape hescape hlate rest).1,
      (takeOperand_of_hasEscape (h.escape_iff.mp hescape) hlate' rest').1]
  · have hescape' : ¬ HasEscape other := mt h.escape_iff.mpr hescape
    rw [(takeOperand_afterMnemonic (c := holding (line :: rest)) rfl hescape rest).1,
      (takeOperand_afterMnemonic (c := holding (other :: rest')) rfl hescape' rest').1,
      h.operand_eq]

/-- A line with something on it, and without Escape before its mnemonic is complete, comes to the
same as one that is akin to it. -/
theorem Console.Akin.enterLine_eq (h : Akin line other) (hblank : ¬ IsBlankLine line)
    (hlate : ¬ EscapesEarly line) (m : Memory) (a : Address) (rest rest' : List (List Char)) :
    (enterLine m (holding (line :: rest)) a).memory =
        (enterLine m (holding (other :: rest')) a).memory ∧
      (enterLine m (holding (line :: rest)) a).result =
        (enterLine m (holding (other :: rest')) a).result := by
  obtain ⟨hmemory, -, hresult⟩ := enterLine_holding_of_not_early m a rest hblank hlate
  obtain ⟨hmemory', -, hresult'⟩ := enterLine_holding_of_not_early m a rest'
    (mt h.blank_iff.mpr hblank) (mt h.early_iff.mpr hlate)
  rw [hmemory, hresult, hmemory', hresult', h.mnemonic_eq]
  exact enterMnemonic_congr fun _ => h.answer_takeOperand_eq hlate rest rest'

end Line

/-- What two runs come to is the same but for the lines that are left to read. -/
structure Upshot.Same (u v : Upshot) : Prop where
  memory_eq : u.memory = v.memory
  results_eq : u.results = v.results
  finish_eq : u.finish = v.finish

/-- Lines come to the same as lines that are akin to them, one by one. -/
theorem upshot_congr {lines others : List (List Char)} (h : List.Forall₂ Akin lines others)
    (m : Memory) (a : Address) : (upshot m lines a).Same (upshot m others a) := by
  induction h generalizing m a with
  | nil => exact ⟨rfl, rfl, rfl⟩
  | @cons line other lines others hakin _ ih =>
    rcases line_cases line with hblank | hearly | ⟨hescape, hlate, hno⟩ | ⟨hblank, hgoes⟩
    · rw [upshot_cons_of_blank m a lines hblank,
        upshot_cons_of_blank m a others (hakin.blank_iff.mp hblank)]
      exact ih m a
    · rw [upshot_cons_of_early m a lines hearly,
        upshot_cons_of_early m a others (hakin.early_iff.mp hearly)]
      exact ⟨rfl, rfl, rfl⟩
    · have hblank : ¬ IsBlankLine line := fun hblank => hblank.not_hasEscape hescape
      have hescape' := hakin.escape_iff.mp hescape
      have hlate' := mt hakin.early_iff.mpr hlate
      have hno' : ¬ AsksOperand other := by
        rwa [asksOperand_iff, ← hakin.mnemonic_eq, ← asksOperand_iff]
      obtain ⟨hmemory, hresult⟩ := hakin.enterLine_eq hblank hlate m a [] []
      obtain ⟨hm, hr, -⟩ := enterLine_holding_of_unasked m a [] hescape hlate hno
      obtain ⟨hm', hr', -⟩ := enterLine_holding_of_unasked m a [] hescape' hlate' hno'
      rw [upshot_cons_of_unasked m a lines hescape hlate hno,
        upshot_cons_of_unasked m a others hescape' hlate' hno', ← hm, ← hr, ← hm', ← hr', hmemory,
        hresult]
      exact ⟨rfl, rfl, rfl⟩
    · have hlate : ¬ EscapesEarly line := fun hearly => hgoes hearly.stops
      obtain ⟨hmemory, hresult⟩ := hakin.enterLine_eq hblank hlate m a [] []
      rw [upshot_cons_of_not_stops m a lines hblank hgoes,
        upshot_cons_of_not_stops m a others (mt hakin.blank_iff.mpr hblank)
          (mt hakin.stops_iff.mpr hgoes), hmemory, hresult]
      obtain ⟨hlater, hresults, hfinish⟩ := ih (enterLine m (holding [other]) a).memory
        (enterLine m (holding [other]) a).result.next
      exact ⟨hlater, congrArg (_ :: ·) hresults, hfinish⟩

/-! ## What is printed without echo -/

/-- The prompts of an assembly with what is reported at each, and the prompt at its end. -/
def Assembly.printed (S : Assembly) : String :=
  String.join (S.results.map fun r => Hex.ofAddress r.address ++ ": " ++ r.ending.report) ++
    (Hex.ofAddress S.finish ++ ": " ++ "\n")

/-- Without echo nothing else is printed. -/
theorem Prompt.Asked.output_silent {p last : Prompt} {prompts : List Prompt}
    (h : Asked p prompts last) :
    p.run.transcript.output false = Assembly.printed ⟨p.address, p.run.finish, p.run.results⟩ := by
  have hshown : ∀ q : Prompt, q.shown false = Hex.ofAddress q.address ++ ": " := by
    intro q
    rw [shown, if_neg Bool.false_ne_true, String.append_empty]
  have haddress : ∀ q : Prompt, q.step.result.address = q.address := fun q =>
    (touching_enterLine q.memory q.console q.address).address_next.1
  obtain ⟨hresults, hfinish, -⟩ := h.run_eq
  rw [h.output_eq, Assembly.printed, hresults, hfinish, List.map_map, hshown]
  simp only [Function.comp_def, hshown, haddress]

/-- What a session prints without echo is told by the lines that it records and the address at the
end. -/
theorem Session.output_assemble_silent (s : Session) (address : Int) :
    (s.assemble address).2.1.output false = (s.assemble address).2.2.printed := by
  obtain ⟨prompts, last, h⟩ := Prompt.exists_asked s.memory s.console (Address.ofInt address)
  refine Eq.trans ?_ h.output_silent
  simp [Session.assemble, Prompt.run, Entry.output]

/-! ## Texts -/

/-- The texts have the same number of lines, and each line of the one differs from that of the other
in layout alone: in the case of letters, in the comment, and in what the console passes over. -/
def Text.SameUpToLayout (text other : List Char) : Prop :=
  List.Forall₂ (Relation.EqvGen Console.Relaid) (splitLines text) (splitLines other)

/-- The lines of such texts are akin. -/
theorem Text.SameUpToLayout.akin {text other : List Char} (h : SameUpToLayout text other) :
    List.Forall₂ Akin (typedLines text) (typedLines other) := by
  rw [typedLines, typedLines, List.forall₂_map_left_iff, List.forall₂_map_right_iff]
  refine List.Forall₂.imp (fun line other hlines => ?_) h
  exact ((akin_trimReturns line).trans (akin_of_eqvGen hlines)).trans (akin_trimReturns other).symm

/-- Layout makes no difference to assembling: whatever memory and start address, the same lines are
recorded, memory and the address are left the same, and without echo the same is printed. -/
theorem Session.assemble_relaid (s : Session) (address : Int) {text other : List Char}
    (h : Text.SameUpToLayout text other) :
    let first := (s.typing text).assemble address
    let second := (s.typing other).assemble address
    first.2.2 = second.2.2 ∧
      first.1.memory = second.1.memory ∧
      first.1.address = second.1.address ∧
      first.2.1.output false = second.2.1.output false := by
  intro first second
  obtain ⟨hmemory, hresults, hfinish⟩ := upshot_congr h.akin s.memory (Address.ofInt address)
  have hassembly : first.2.2 = second.2.2 :=
    (Assembly.mk.injEq ..).mpr ⟨rfl, hfinish, hresults⟩
  refine ⟨hassembly, hmemory, ?_, ?_⟩
  · exact congrArg (fun a : Address => (a.toNat : Int)) hfinish
  · calc first.2.1.output false
        = first.2.2.printed := output_assemble_silent _ address
      _ = second.2.2.printed := by rw [hassembly]
      _ = second.2.1.output false := (output_assemble_silent _ address).symm

/-- A line that is assembled, one that is dropped, and one that is the last to be read. -/
theorem Session.assemble_relaid_dropped :
    let text := "LDX #0A\nBNE 0\x1b0\nNOP \x1b\nDEX".toList
    let other := "L-dX #0A;\x1b\nBNE 0\x1bz0\nNOP\x1b\nDEX".toList
    let s : Session :=
      { memory := Memory.filled [] [] 0
        console := ofText [] "\x1b" }
    let first := (s.typing text).assemble 0
    let second := (s.typing other).assemble 0
    Text.SameUpToLayout text other ∧
      first.2.2.results.map Line.outcome = [.success, .lineAborted, .success] ∧
      first.2.2 = second.2.2 ∧
      first.1.memory = second.1.memory ∧
      first.1.address = second.1.address ∧
      first.2.1.output false = second.2.1.output false := by
  intro text other s first second
  have hlines : Text.splitLines text =
      ["LDX #0A".toList, "BNE 0\x1b0".toList, "NOP \x1b".toList, "DEX".toList] := by
    decide +kernel
  have hothers : Text.splitLines other =
      ["L-dX #0A;\x1b".toList, "BNE 0\x1bz0".toList, "NOP\x1b".toList, "DEX".toList] := by
    decide +kernel
  have hldx : Relation.EqvGen Relaid "LDX #0A".toList "L-dX #0A;\x1b".toList := by
    refine .trans _ "L-DX #0A".toList _ (.rel _ _ ?_) (.trans _ "L-dX #0A".toList _ (.rel _ _ ?_)
      (.rel _ _ ?_))
    · exact .padding ['L'] "DX #0A".toList (by decide) (by decide) (by decide) (by decide)
        (by decide) (by decide)
    · exact .letterCase ['L', '-'] "X #0A".toList (by decide)
    · exact .comment (by decide)
  have hbne : Relation.EqvGen Relaid "BNE 0\x1b0".toList "BNE 0\x1bz0".toList :=
    .rel _ _ (.junk "BNE 0\x1b".toList ['0'] (by decide) (by decide) (by decide) (by decide)
      (by decide))
  have hnop : Relation.EqvGen Relaid "NOP \x1b".toList "NOP\x1b".toList :=
    .symm _ _ (.rel _ _ (.junk "NOP".toList ['\x1b'] (by decide) (by decide) (by decide) (by decide)
      (by decide)))
  have hrelaid : Text.SameUpToLayout text other := by
    rw [Text.SameUpToLayout, hlines, hothers]
    exact .cons hldx (.cons hbne (.cons hnop (.cons (.refl _) .nil)))
  exact ⟨hrelaid, by decide +kernel, s.assemble_relaid 0 hrelaid⟩

end LineMonitor
