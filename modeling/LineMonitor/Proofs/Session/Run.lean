import LineMonitor.Proofs.Session.Step

/-!
# Runs of the monitor

`Session.prompts` are the sessions as they stand at the command prompts of a run, and
`Session.Serving` says how the run goes from one to the next.  Since every command uses up a line of
the input, a run comes to an end, and `Session.run_concludes` says where, with how much of the input
used up, and with what recorded.  `Session.run_framed` says what it leaves of memory.
-/

namespace LineMonitor.Session

/-- The session at each command prompt of a run, in order. -/
def prompts (s : Session) : List Session :=
  if h : s.step.2.2 = true then
    have := s.length_step_lt h
    s :: prompts s.step.1
  else [s]
termination_by s.console.unread.length

/-- The commands that are read in a run, in order. -/
def commands (s : Session) : List String :=
  s.prompts.filterMap command?

/-! ## A run as a sequence of steps -/

/-- The monitor goes on to the next prompt. -/
theorem run_of_goes_on {s : Session} (h : s.step.2.2 = true) :
    s.run = (s.step.1.run.1, s.step.2.1 ++ s.step.1.run.2) := by
  rw [run]
  split
  · rename_i hstep
    simp only [hstep]
  · rename_i hstep
    rw [hstep] at h
    cases h

/-- The monitor stops. -/
theorem run_of_stops {s : Session} (h : s.step.2.2 = false) : s.run = (s.step.1, s.step.2.1) := by
  rw [run]
  split
  · rename_i hstep
    rw [hstep] at h
    cases h
  · rename_i hstep
    simp only [hstep]

/-- A run with its prompts, the assemblies that it records and the session at its end. -/
inductive Serving : Session → List Session → List Assembly → Session → Prop where
  | stop {s : Session} {recorded : List Assembly} (hstops : s.step.2.2 = false)
      (hstep : s.Stepping recorded s.step.1 false) : Serving s [s] recorded s.step.1
  | next {s after : Session} {prompts : List Session} {recorded later : List Assembly}
      (hgoes : s.step.2.2 = true) (hstep : s.Stepping recorded s.step.1 true)
      (hrest : Serving s.step.1 prompts later after) :
      Serving s (s :: prompts) (recorded ++ later) after

theorem exists_serving (s : Session) : ∃ recorded, Serving s s.prompts recorded s.run.1 := by
  fun_induction prompts s with
  | case1 s hgoes _ ih =>
    obtain ⟨later, hrest⟩ := ih
    obtain ⟨recorded, hstep⟩ := s.exists_stepping
    rw [hgoes] at hstep
    rw [run_of_goes_on hgoes]
    exact ⟨recorded ++ later, .next hgoes hstep hrest⟩
  | case2 s hstops =>
    rw [Bool.not_eq_true] at hstops
    obtain ⟨recorded, hstep⟩ := s.exists_stepping
    rw [hstops] at hstep
    rw [run_of_stops hstops]
    exact ⟨recorded, .stop hstops hstep⟩

/-! ## What a run keeps -/

/-- The command at the first of some prompts, and those at the others. -/
theorem filterMap_command?_cons (s : Session) (prompts : List Session) :
    (s :: prompts).filterMap command? = s.command?.toList ++ prompts.filterMap command? := by
  rw [List.filterMap_cons]
  cases s.command? <;> rfl

namespace Serving

variable {s after : Session} {prompts : List Session} {recorded : List Assembly}

/-- The prompts begin with that of the session, and each of the others is that of the session which
the command at the prompt before it leaves. -/
theorem isChain (h : Serving s prompts recorded after) :
    prompts.head? = some s ∧
      prompts.IsChain fun t next => t.step.2.2 = true ∧ next = t.step.1 := by
  induction h with
  | stop hstops hstep => exact ⟨rfl, .singleton _⟩
  | @next s after prompts recorded later hgoes hstep hrest ih =>
    obtain ⟨hhead, hlinks⟩ := ih
    refine ⟨rfl, hlinks.cons fun t ht => ⟨hgoes, ?_⟩⟩
    rw [hhead, Option.mem_some_iff] at ht
    exact ht.symm

/-- At the last prompt the monitor stops, and what is left of the input there is the end of it. -/
theorem exists_last (h : Serving s prompts recorded after) :
    ∃ last stopping, prompts.getLast? = some last ∧ last.step.2.2 = false ∧
      after = last.step.1 ∧ last.Stepping stopping after false ∧
      s.console.Leaves last.console := by
  induction h with
  | @stop s recorded hstops hstep =>
    exact ⟨s, recorded, rfl, hstops, rfl, hstep, .refl s.console⟩
  | @next s after prompts recorded later hgoes hstep hrest ih =>
    obtain ⟨last, stopping, hlast, hstops, hafter, hstopping, hleft⟩ := ih
    refine ⟨last, stopping, ?_, hstops, hafter, hstopping, hstep.leaves.trans hleft⟩
    rw [List.getLast?_cons, hlast, Option.getD_some]

/-- What was recorded before stays, and the new assemblies come behind it. -/
theorem assemblies_eq (h : Serving s prompts recorded after) :
    after.assemblies = s.assemblies ++ recorded := by
  induction h with
  | stop hstops hstep => exact hstep.assemblies_eq
  | next hgoes hstep hrest ih => rw [ih, hstep.assemblies_eq, List.append_assoc]

/-- Memory is what the new assemblies leave of it. -/
theorem recording (h : Serving s prompts recorded after) :
    Recording s.memory recorded after.memory := by
  induction h with
  | stop hstops hstep => exact hstep.recording
  | next hgoes hstep hrest ih => exact hstep.recording.append ih

/-- The assemblies begin at the addresses from which commands ask to assemble. -/
theorem starts_eq (h : Serving s prompts recorded after) :
    recorded.map (·.start) = (prompts.filterMap command?).filterMap Command.start? := by
  induction h with
  | stop hstops hstep =>
    rw [filterMap_command?_cons, List.filterMap_nil, List.append_nil, hstep.starts_eq]
  | next hgoes hstep hrest ih =>
    rw [filterMap_command?_cons, List.filterMap_append, List.map_append, ih, hstep.starts_eq]

/-- Every command and every line that is recorded uses up a line of the input. -/
theorem used_le (h : Serving s prompts recorded after) :
    (prompts.filterMap command?).length + lineCount recorded + after.console.unread.length ≤
      s.console.unread.length := by
  induction h with
  | stop hstops hstep =>
    rw [filterMap_command?_cons, List.filterMap_nil, List.append_nil]
    exact hstep.used_le
  | @next s after prompts recorded later hgoes hstep hrest ih =>
    have hfirst := hstep.used_le
    have hcount : lineCount (recorded ++ later) = lineCount recorded + lineCount later := by
      rw [lineCount, List.map_append, List.sum_append, lineCount, lineCount]
    rw [filterMap_command?_cons, List.length_append, hcount]
    omega

end Serving

/-! ## The end of a run -/

/-- What a run of the monitor comes to, with the session at the last prompt, the assemblies that are
recorded, and the session at the end. -/
structure Concludes (s last : Session) (recorded : List Assembly) (after : Session) : Prop where
  /-- The first prompt is that of the session as it stands. -/
  head_prompts : s.prompts.head? = some s
  /-- Every prompt but the last is followed by that of the session which its command leaves. -/
  links : s.prompts.IsChain fun t next => t.step.2.2 = true ∧ next = t.step.1
  /-- There is a last prompt. -/
  getLast_prompts : s.prompts.getLast? = some last
  /-- There the monitor stops, and leaves the session as it is at the end. -/
  stops : last.step.2.2 = false ∧ after = last.step.1
  /-- It stops at the end of the input, or at a line with the escape character or the command `Q`,
  behind which it leaves the input as it is. -/
  reason : (last.console.unread = [] ∧ after.console.unread = []) ∨
    ∃ line, last.console.unread = line :: after.console.unread ∧
      (Text.occurs s.console.escape line = true ∨
        Text.strip (Console.uncommented line) = ['Q'])
  /-- What is left of the input at the last prompt is the end of it. -/
  unread_suffix : last.console.unread <:+ s.console.unread
  /-- Every command and every line that is recorded uses up a line of the input. -/
  used_le : s.commands.length + lineCount recorded + after.console.unread.length ≤
    s.console.unread.length
  /-- What was recorded before stays. -/
  assemblies_eq : after.assemblies = s.assemblies ++ recorded
  /-- There is an assembly for every command that is an `A`, up to white space, with a well-formed
  address behind it, and it begins at this address. -/
  starts_eq : recorded.map (·.start) = s.commands.filterMap Command.start?

/-- Every run of the monitor comes to an end, whatever is typed, and uses up no line of the input
twice. -/
theorem run_concludes (s : Session) : ∃ last recorded, s.Concludes last recorded s.run.1 := by
  obtain ⟨recorded, h⟩ := s.exists_serving
  obtain ⟨hhead, hlinks⟩ := h.isChain
  obtain ⟨last, stopping, hlast, hstops, hafter, hstopping, hleft⟩ := h.exists_last
  have hreason := hstopping.stops
  rw [hleft.escape_eq] at hreason
  exact ⟨last, recorded, {
    head_prompts := hhead
    links := hlinks
    getLast_prompts := hlast
    stops := ⟨hstops, hafter⟩
    reason := hreason
    unread_suffix := hleft.unread_suffix
    used_le := h.used_le
    assemblies_eq := h.assemblies_eq
    starts_eq := h.starts_eq }⟩

example :
    let text := "A 02\nA 0200\nNOP\n\x1b\nL 0300\n q ; stop\nNOP\n".toList
    let s := Session.new (Memory.filled [] [] 0) (Console.ofText text "\x1b") {}
    s.commands = ["A 02", "A 0200", "L 0300", "Q"] ∧ s.run.1.console.unread = ["NOP".toList] := by
  decide +kernel

/-! ## What a run leaves of memory -/

/-- Where memory changed on the way from one session to another on which these assemblies were
recorded. -/
structure Framed (s : Session) (recorded : List Assembly) (after : Session) : Prop where
  /-- What is in ROM, or has no memory behind it, reads as before. -/
  protected_eq : ∀ b, s.memory.inRom b = true ∨ s.memory.isMapped b = false →
    after.memory.read b = s.memory.read b
  /-- What reads differently lies in the span of a line that was assembled, or within three bytes of
  a line that failed in writing. -/
  changed : ∀ b, after.memory.read b ≠ s.memory.read b → ∃ S ∈ recorded, ∃ r ∈ S.results,
    (r.outcome = .success ∧ ∃ i < r.data.length, b = r.address.after i) ∨
      (r.outcome = .writeFailed ∧ ∃ i < 3, b = r.address.after i)
  /-- Unless a command is an `A` with a well-formed address behind it, memory stays as it is. -/
  idle : (∀ text ∈ s.commands, ¬ ∃ rest a, Text.strip text.toList = 'A' :: rest ∧
    readAddress (Text.strip rest) = .ok a) → after.memory = s.memory

/-- A run of the monitor changes memory only where it assembles, and nothing that is protected,
whatever is typed. -/
theorem run_framed (s : Session) :
    ∃ recorded, s.run.1.assemblies = s.assemblies ++ recorded ∧ s.Framed recorded s.run.1 := by
  obtain ⟨recorded, h⟩ := s.exists_serving
  have hframe := h.recording.changedWithin
  refine ⟨recorded, h.assemblies_eq, ?_, ?_, ?_⟩
  · intro b hb
    exact hframe.read_eq_of_protected (Memory.isWritable_eq_false hb)
  · intro b hb
    obtain ⟨-, S, hS, r, hr, hwrites⟩ := (hframe.read_eq_or b).resolve_left hb
    exact ⟨S, hS, r, hr, hwrites.near⟩
  · intro hnone
    have hstarts : recorded.map (·.start) = [] := by
      rw [h.starts_eq, List.filterMap_eq_nil_iff]
      intro text htext
      refine Option.eq_none_iff_forall_ne_some.mpr fun a hstart => hnone text htext ?_
      obtain ⟨rest, hstripped, hread⟩ := Command.start?_eq_some_iff.mp hstart
      exact ⟨rest, a, hstripped, hread⟩
    have hrecording := h.recording
    rw [List.map_eq_nil_iff.mp hstarts] at hrecording
    exact hrecording.eq_of_nil

end LineMonitor.Session
