import LineMonitor.Assembly
import LineMonitor.Proofs.Line.Step
import LineMonitor.Proofs.Listing.Rows

/-!
# What a run of lines leaves in memory

A run is a sequence of lines, each at the address that the line before it leaves (`Running`).
It writes nothing from three bytes behind its code on (`Running.read_of_beyond`), because a line
that fails writes at most three bytes and leaves the address where it was.  So as long as the
run does not come around to its own start, the lines that follow an instruction leave it alone,
and at the end memory holds the code of all lines that succeeded (`Running.bytes_eq`).
-/

namespace LineMonitor

namespace Line

/-- The lines that were assembled. -/
def successes (results : List Line) : List Line :=
  results.filter fun r => r.outcome == .success

/-- The bytes of the lines that were assembled, one after the other. -/
def code (results : List Line) : List Byte :=
  (successes results).flatMap data

theorem successes_cons_of_success {r : Line} (h : r.outcome = .success) (results : List Line) :
    successes (r :: results) = r :: successes results := by
  simp [successes, h]

theorem successes_cons_of_ne {r : Line} (h : r.outcome ≠ .success) (results : List Line) :
    successes (r :: results) = successes results := by
  simp [successes, h]

theorem code_cons_of_success {r : Line} (h : r.outcome = .success) (results : List Line) :
    code (r :: results) = r.data ++ code results := by
  rw [code, successes_cons_of_success h, List.flatMap_cons, code]

theorem code_cons_of_ne {r : Line} (h : r.outcome ≠ .success) (results : List Line) :
    code (r :: results) = code results := by
  rw [code, successes_cons_of_ne h, code]

end Line

/-- Lines that follow one another from an address on, with the memory and the address that they
leave. -/
inductive Running : Memory → Address → Memory → List Line → Address → Prop where
  | done (m : Memory) (a : Address) : Running m a m [] a
  | line {m m₁ m' : Memory} {a finish : Address} {r : Line} {results : List Line}
      (hstep : Touching m a m₁ r) (hrest : Running m₁ r.next m' results finish) :
      Running m a m' (r :: results) finish

/-- A line either fails, and then leaves the address and everything from three bytes behind it
on, or its code stands in memory and the next line follows it. -/
theorem Touching.failed_or_assembled {m m' : Memory} {a : Address} {r : Line}
    (h : Touching m a m' r) :
    (r.outcome ≠ .success ∧ r.next = a ∧ ∀ b, 3 ≤ a.offset b → m'.read b = m.read b) ∨
      (r.outcome = .success ∧ r.address = a ∧ r.next = a.after r.data.length ∧
        r.Codes r.data ∧ m'.bytes a r.data.length = r.data ∧
        ∀ b, r.data.length ≤ a.offset b → m'.read b = m.read b) := by
  cases h with
  | nothing haddress hnext hdata hsuccess hfailed =>
    exact Or.inl ⟨hsuccess, hnext, fun b _ => rfl⟩
  | @failed r data haddress hnext hdata houtcome hcode hlost =>
    have hshort := hcode.length_bounds.2
    refine Or.inl ⟨by simp [houtcome], hnext, fun b hb => ?_⟩
    exact m.read_writeAll_of_not _ _ _ (by omega) (by omega)
  | assembled haddress hnext houtcome hcode hkept =>
    have hshort := hcode.length_bounds.2
    refine Or.inr ⟨houtcome, haddress, hnext, hcode, hkept, fun b hb => ?_⟩
    exact m.read_writeAll_of_not _ _ _ (by omega) (by omega)

/-- The end of the lines does nothing to memory. -/
theorem Touching.memory_eq_of_ended {m m' : Memory} {a : Address} {r : Line}
    (h : Touching m a m' r) (hended : r.ending = .ended) : m' = m := by
  have houtcome : r.outcome = .sessionEnded := by
    rw [Line.outcome, hended]
    rfl
  cases h with
  | nothing haddress hnext hdata hsuccess hfailed => rfl
  | failed haddress hnext hdata hwritten hcode hlost =>
    rw [houtcome] at hwritten
    cases hwritten
  | assembled haddress hnext hsuccess hcode hkept =>
    rw [houtcome] at hsuccess
    cases hsuccess

/-- The end of the lines is all there is of a run that begins with it. -/
theorem enterLines_of_ended {m : Memory} {c : Console} {a : Address}
    (h : (enterLine m c a).result.ending = .ended) :
    enterLines m c a = ⟨(enterLine m c a).memory, (enterLine m c a).console,
      (enterLine m c a).transcript, [], a⟩ := by
  rw [enterLines, dif_pos h]

/-- Behind any other line the run goes on at the address that the line leaves. -/
theorem enterLines_of_not_ended {m : Memory} {c : Console} {a : Address}
    (h : (enterLine m c a).result.ending ≠ .ended) :
    let step := enterLine m c a
    let later := enterLines step.memory step.console step.result.next
    enterLines m c a = { later with
      transcript := step.transcript ++ later.transcript
      results := step.result :: later.results } := by
  rw [enterLines, dif_neg h]

/-- The lines that are read from a console follow one another. -/
theorem running_enterLines (m : Memory) (c : Console) (a : Address) :
    Running m a (enterLines m c a).memory (enterLines m c a).results
      (enterLines m c a).finish := by
  fun_induction enterLines m c a with
  | case1 m c a step h =>
    have hmemory : step.memory = m := (touching_enterLine m c a).memory_eq_of_ended h
    simp only [hmemory]
    exact .done m a
  | case2 m c a step h _ later ih => exact .line (touching_enterLine m c a) ih

namespace Running

variable {m m' : Memory} {a finish : Address} {results : List Line}

/-- The lines end behind their code. -/
theorem finish_eq (h : Running m a m' results finish) :
    finish = a.after (Line.code results).length := by
  induction h with
  | done m a => exact a.after_zero.symm
  | @line m m₁ m' a finish r results hstep hrest ih =>
    rcases hstep.failed_or_assembled with ⟨hfailed, hnext, -⟩ | ⟨hsuccess, -, hnext, -⟩
    · rw [ih, hnext, Line.code_cons_of_ne hfailed]
    · rw [ih, hnext, Address.after_after, Line.code_cons_of_success hsuccess, List.length_append]

/-- Three bytes behind the code and further, nothing is written. -/
theorem read_of_beyond (h : Running m a m' results finish) {b : Address}
    (hb : (Line.code results).length + 3 ≤ a.offset b) : m'.read b = m.read b := by
  induction h with
  | done m a => rfl
  | @line m m₁ m' a finish r results hstep hrest ih =>
    rcases hstep.failed_or_assembled with
      ⟨hfailed, hnext, hkept⟩ | ⟨hsuccess, -, hnext, -, -, hkept⟩
    · rw [Line.code_cons_of_ne hfailed] at hb
      rw [ih (by rwa [hnext]), hkept b (by omega)]
    · rw [Line.code_cons_of_success hsuccess, List.length_append] at hb
      have hbeyond : (Line.code results).length + 3 ≤ r.next.offset b := by
        rw [hnext, Address.offset_after_left a b (by omega)]
        omega
      rw [ih hbeyond, hkept b (by omega)]

/-- Unless the lines come around to their start, memory holds their code. -/
theorem bytes_eq (h : Running m a m' results finish)
    (hlen : (Line.code results).length ≤ 65533) :
    m'.bytes a (Line.code results).length = Line.code results := by
  induction h with
  | done m a => rfl
  | @line m m₁ m' a finish r results hstep hrest ih =>
    rcases hstep.failed_or_assembled with
      ⟨hfailed, hnext, -⟩ | ⟨hsuccess, -, hnext, -, hcode, -⟩
    · rw [Line.code_cons_of_ne hfailed] at hlen ⊢
      rw [← hnext]
      exact ih hlen
    · rw [Line.code_cons_of_success hsuccess, List.length_append] at hlen ⊢
      -- the lines behind the first do not come around to its bytes
      have hbehind : ∀ b, a.offset b < r.data.length → m'.read b = m₁.read b := by
        intro b hb
        apply hrest.read_of_beyond
        rw [hnext, Address.offset_after_left_of_lt a b (by omega) hb]
        omega
      have hfirst : m'.bytes a r.data.length = r.data :=
        (Memory.bytes_congr hbehind (by omega)).trans hcode
      rw [Memory.bytes_add, hfirst, ← hnext, ih (by omega)]

/-- There are at most three bytes of code to a line. -/
theorem length_code_le (h : Running m a m' results finish) :
    (Line.code results).length ≤ (Line.successes results).length * 3 := by
  induction h with
  | done m a => exact Nat.le_refl 0
  | @line m m₁ m' a finish r results hstep hrest ih =>
    rcases hstep.failed_or_assembled with ⟨hfailed, -⟩ | ⟨hsuccess, -, -, hcodes, -⟩
    · rwa [Line.code_cons_of_ne hfailed, Line.successes_cons_of_ne hfailed]
    · have hshort := hcodes.length_bounds.2
      rw [Line.code_cons_of_success hsuccess, Line.successes_cons_of_success hsuccess,
        List.length_append, List.length_cons]
      omega

/-- A line that was assembled emitted something. -/
theorem code_eq_nil_iff (h : Running m a m' results finish) :
    Line.code results = [] ↔ ∀ r ∈ results, r.outcome ≠ .success := by
  induction h with
  | done m a => simp [Line.code, Line.successes]
  | @line m m₁ m' a finish r results hstep hrest ih =>
    rcases hstep.failed_or_assembled with ⟨hfailed, -⟩ | ⟨hsuccess, -, -, hcodes, -⟩
    · rw [Line.code_cons_of_ne hfailed, ih, List.forall_mem_cons]
      exact (and_iff_right hfailed).symm
    · have hlong := hcodes.length_bounds.1
      rw [Line.code_cons_of_success hsuccess, List.forall_mem_cons]
      refine iff_of_false ?_ fun hnone => hnone.1 hsuccess
      intro hnil
      rw [(List.append_eq_nil_iff.mp hnil).1] at hlong
      cases hlong

end Running

end LineMonitor
