import LineMonitor.Proofs.Assembly.Bookkeeping
import LineMonitor.Proofs.Memory.Frame

/-!
# Assemblies one after another

What is assembled several times in a row is recorded as a list of assemblies.  `Recording` says
that each of them is a run of lines over the memory that the one before it left.  Memory changes
only where a recorded line wrote (`Recording.changedWithin`), so the code of an assembly that does
not come around to its own start is in memory at the end, unless a line of a later one wrote over
it (`Recording.bytes_eq`).
-/

namespace LineMonitor

/-! ## Where lines write -/

/-- The line writes its code over the address, whether or not memory keeps it: all of its bytes if
it was assembled, and those of the instruction that was recognised if it failed in writing. -/
def Line.Writes (r : Line) (b : Address) : Prop :=
  (r.outcome = .success ∧ ∃ i < r.data.length, b = r.address.after i) ∨
    (r.outcome = .writeFailed ∧ ∃ data, r.Codes data ∧ ∃ i < data.length, b = r.address.after i)

/-- A line that failed in writing wrote nothing beyond three bytes. -/
theorem Line.Writes.near {r : Line} {b : Address} (h : r.Writes b) :
    (r.outcome = .success ∧ ∃ i < r.data.length, b = r.address.after i) ∨
      (r.outcome = .writeFailed ∧ ∃ i < 3, b = r.address.after i) := by
  refine h.imp_right ?_
  rintro ⟨houtcome, data, hcode, i, hi, hb⟩
  exact ⟨houtcome, i, Nat.lt_of_lt_of_le hi hcode.length_bounds.2, hb⟩

/-- A line changes memory only where it writes. -/
theorem Touching.changedWithin {m m' : Memory} {a : Address} {r : Line}
    (h : Touching m a m' r) : m.ChangedWithin r.Writes m' := by
  cases h with
  | nothing haddress hnext hdata hsuccess hfailed => exact .refl _ m
  | @failed r data haddress hnext hdata houtcome hcode hlost =>
    have hshort := hcode.length_bounds.2
    refine (m.changedWithin_writeAll a data (by omega)).mono ?_
    rintro b ⟨i, hi, hb⟩
    exact Or.inr ⟨houtcome, data, hcode, i, hi, by rwa [haddress]⟩
  | assembled haddress hnext houtcome hcode hkept =>
    have hshort := hcode.length_bounds.2
    refine (m.changedWithin_writeAll a r.data (by omega)).mono ?_
    rintro b ⟨i, hi, hb⟩
    exact Or.inl ⟨houtcome, i, hi, by rwa [haddress]⟩

/-- Lines change memory only where one of them writes. -/
theorem Running.changedWithin {m m' : Memory} {a finish : Address} {results : List Line}
    (h : Running m a m' results finish) :
    m.ChangedWithin (fun b => ∃ r ∈ results, r.Writes b) m' := by
  induction h with
  | done m a => exact .refl _ m
  | @line m m₁ m' a finish r results hstep hrest ih =>
    have hfirst : m.ChangedWithin (fun b => ∃ x ∈ r :: results, x.Writes b) m₁ :=
      hstep.changedWithin.mono fun b hb => ⟨r, List.mem_cons_self, hb⟩
    refine hfirst.trans (ih.mono ?_)
    rintro b ⟨later, hlater, hb⟩
    exact ⟨later, List.mem_cons_of_mem r hlater, hb⟩

/-! ## Assemblies -/

/-- Assemblies that were made one after another, with the memory before and after them. -/
inductive Recording : Memory → List Assembly → Memory → Prop where
  | nil (m : Memory) : Recording m [] m
  | cons {m m₁ m' : Memory} {S : Assembly} {later : List Assembly}
      (hrun : Running m S.start m₁ S.results S.finish) (hrest : Recording m₁ later m') :
      Recording m (S :: later) m'

/-- A session that assembles records a run of lines over its memory. -/
theorem Session.recording_assemble (s : Session) (address : Int) :
    Recording s.memory [(s.assemble address).2.2] (s.assemble address).1.memory :=
  .cons (running_enterLines s.memory s.console (Address.ofInt address)) (.nil _)

namespace Recording

variable {m m₁ m' : Memory} {front back : List Assembly}

theorem append (h : Recording m front m₁) (h' : Recording m₁ back m') :
    Recording m (front ++ back) m' := by
  induction h with
  | nil m => exact h'
  | cons hrun hrest ih => exact .cons hrun (ih h')

/-- Without assemblies memory stays as it is. -/
theorem eq_of_nil (h : Recording m [] m') : m' = m := by
  cases h
  rfl

/-- Some of the assemblies are made first, and the others over the memory that they leave. -/
theorem exists_of_append (h : Recording m (front ++ back) m') :
    ∃ m₁, Recording m front m₁ ∧ Recording m₁ back m' := by
  induction front generalizing m with
  | nil => exact ⟨m, .nil m, h⟩
  | cons S front ih =>
    cases h with
    | cons hrun hrest =>
      obtain ⟨m₁, hfront, hback⟩ := ih hrest
      exact ⟨m₁, .cons hrun hfront, hback⟩

/-- Assemblies change memory only where one of their lines writes. -/
theorem changedWithin (h : Recording m front m') :
    m.ChangedWithin (fun b => ∃ S ∈ front, ∃ r ∈ S.results, r.Writes b) m' := by
  induction h with
  | nil m => exact .refl _ m
  | @cons m m₁ m' S later hrun hrest ih =>
    have hfirst : m.ChangedWithin (fun b => ∃ T ∈ S :: later, ∃ r ∈ T.results, r.Writes b) m₁ :=
      hrun.changedWithin.mono fun b hb => ⟨S, List.mem_cons_self, hb⟩
    refine hfirst.trans (ih.mono ?_)
    rintro b ⟨T, hT, hb⟩
    exact ⟨T, List.mem_cons_of_mem S hT, hb⟩

/-- Each of the assemblies is a run of lines from its start. -/
theorem exists_running (h : Recording m front m') {S : Assembly} (hS : S ∈ front) :
    ∃ before after, Running before S.start after S.results S.finish := by
  induction h with
  | nil m => cases hS
  | cons hrun hrest ih =>
    rcases List.mem_cons.mp hS with rfl | hlater
    · exact ⟨_, _, hrun⟩
    · exact ih hlater

/-- The length of an assembly is the number of bytes that its lines emitted, as far as addresses
tell. -/
theorem length_eq_mod (h : Recording m front m') {S : Assembly} (hS : S ∈ front) :
    S.length = (Line.code S.results).length % 65536 := by
  obtain ⟨before, after, hrun⟩ := h.exists_running hS
  exact Assembly.length_eq_mod hrun.finish_eq

/-- Unless the lines of an assembly come around to their start, or a later one writes over their
code, memory holds it at the end. -/
theorem bytes_eq {S : Assembly} (h : Recording m (front ++ S :: back) m')
    (hlen : (Line.code S.results).length ≤ 65533)
    (hkept : ∀ T ∈ back, ∀ r ∈ T.results, ∀ i < (Line.code S.results).length,
      ¬ r.Writes (S.start.after i)) :
    m'.bytes S.start (Line.code S.results).length = Line.code S.results := by
  obtain ⟨before, -, hbehind⟩ := h.exists_of_append
  cases hbehind with
  | @cons _ after _ _ _ hrun hrest =>
    have hlater : ∀ b, S.start.offset b < (Line.code S.results).length →
        m'.read b = after.read b := by
      intro b hb
      apply hrest.changedWithin.read_eq_of_not
      rintro ⟨T, hT, r, hr, hwrites⟩
      rw [← Address.after_offset S.start b] at hwrites
      exact hkept T hT r hr _ hb hwrites
    exact (Memory.bytes_congr hlater (by omega)).trans (hrun.bytes_eq hlen)

end Recording

end LineMonitor
