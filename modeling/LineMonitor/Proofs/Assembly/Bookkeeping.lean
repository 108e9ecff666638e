import LineMonitor.Session
import LineMonitor.Proofs.Assembly.Run
import LineMonitor.Proofs.Line.Result
import Mathlib.Data.List.Chain
import Mathlib.Data.Nat.ModEq

/-!
# The books of a session

What a session records is a chain: each line begins where the line before it leaves off, and
leaves off behind the bytes it emitted.  `Assembly.Consistent` lists what follows for the
addresses, the counts of lines and the length of a session, and `Session.assemble_consistent`
shows it of every session, whatever is typed and wherever memory is protected.
-/

namespace LineMonitor

/-! ## One line -/

/-- An outcome other than the end of the session is a success, an error or an abort, and only one
of these. -/
theorem Outcome.counted_once {o : Outcome} (h : o ≠ .sessionEnded) :
    ((if (o == .success) = true then 1 else 0) + (if o.isError = true then 1 else 0)) +
      (if (o == .lineAborted) = true then 1 else 0) = 1 := by
  revert h
  cases o <;> decide

/-! ## A run of lines -/

/-- The end of a session is not among its lines. -/
theorem outcome_ne_sessionEnded_of_mem_enterLines {m : Memory} {c : Console} {a : Address}
    {r : Line} (h : r ∈ (enterLines m c a).results) : r.outcome ≠ .sessionEnded := by
  fun_induction enterLines m c a with
  | case1 m c a step hended => cases h
  | case2 m c a step hended _ later ih =>
    rcases List.mem_cons.mp h with rfl | hlater
    · exact mt Ending.outcome_eq_sessionEnded_iff.mp hended
    · exact ih hlater

namespace Running

variable {m m' : Memory} {a finish : Address} {results : List Line}

/-- The first line begins at the start, and each later one where the line before it leaves
off. -/
theorem isChain (h : Running m a m' results finish) :
    (∀ r ∈ results.head?, r.address = a) ∧
      results.IsChain fun r later => later.address = r.next := by
  induction h with
  | done m a => exact ⟨by simp, .nil⟩
  | @line m m₁ m' a finish r results hstep hrest ih =>
    obtain ⟨hhead, hlinks⟩ := ih
    have haddress : r.address = a := hstep.address_next.1
    refine ⟨fun first hfirst => ?_, hlinks.cons hhead⟩
    rw [List.head?_cons, Option.mem_some_iff] at hfirst
    rw [← hfirst, haddress]

/-- The lines end where the last of them leaves off. -/
theorem finish_eq_getLast (h : Running m a m' results finish) :
    finish = (results.getLast?.map Line.next).getD a := by
  induction h with
  | done m a => rfl
  | @line m m₁ m' a finish r results hstep hrest ih =>
    rw [ih, List.getLast?_cons, Option.map_some, Option.getD_some, Option.getD_map]

/-- What one line keeps to, all lines keep to. -/
theorem next_of_mem (h : Running m a m' results finish) {r : Line} (hr : r ∈ results) :
    r.next = r.address.after r.data.length ∧ (r.outcome ≠ .success → r.data = []) := by
  induction h with
  | done m a => cases hr
  | @line m m₁ m' a finish first results hstep hrest ih =>
    rcases List.mem_cons.mp hr with rfl | hlater
    · exact hstep.address_next.2
    · exact ih hlater

end Running

/-! ## What a session records -/

namespace Assembly

/-- Every line is assembled, refused or aborted. -/
theorem lines_add_errors_add (S : Assembly) (h : ∀ r ∈ S.results, r.outcome ≠ .sessionEnded) :
    S.lines + S.errors + S.results.countP (fun r => r.outcome == .lineAborted) =
      S.results.length := by
  obtain ⟨start, finish, results⟩ := S
  unfold lines errors
  induction results with
  | nil => rfl
  | cons r results ih =>
    have hlater := ih fun later hlater => h later (List.mem_cons_of_mem r hlater)
    have hr := Outcome.counted_once (h r List.mem_cons_self)
    simp only [List.countP_cons, List.length_cons] at hlater ⊢
    omega

/-- The length of a session whose end lies `n` bytes behind its start. -/
theorem length_eq_mod {S : Assembly} {n : Nat} (h : S.finish = S.start.after n) :
    S.length = n % 65536 := by
  have hstart := S.start.isLt
  rw [length, h, BitVec.toNat_sub, Address.toNat_after]
  omega

/-- The books of a session: its lines are a chain of addresses from start to end, every one of
them is counted once, and the length is that of the bytes emitted. -/
structure Consistent (S : Assembly) : Prop where
  /-- The first line begins at the start. -/
  head_address : ∀ r ∈ S.results.head?, r.address = S.start
  /-- Every later line begins where the line before it leaves off. -/
  links : S.results.IsChain fun r later => later.address = r.next
  /-- A line leaves off behind the bytes it emitted, past the top of memory if need be. -/
  next_eq : ∀ r ∈ S.results, r.next.toNat = (r.address.toNat + r.data.length) % 65536
  /-- A line that did not succeed emitted nothing. -/
  data_eq_nil : ∀ r ∈ S.results, r.outcome ≠ .success → r.data = []
  /-- The addresses are those of memory. -/
  address_le : ∀ r ∈ S.results, r.address.toNat ≤ 0xFFFF ∧ r.next.toNat ≤ 0xFFFF
  /-- The end of the session is not recorded as a line. -/
  not_ended : ∀ r ∈ S.results, r.outcome ≠ .sessionEnded
  /-- The session ends where its last line leaves off. -/
  finish_eq : S.finish = (S.results.getLast?.map Line.next).getD S.start
  /-- A line is assembled, refused or aborted. -/
  count : S.lines + S.errors + S.results.countP (fun r => r.outcome == .lineAborted) =
    S.results.length
  /-- The length is that of the bytes emitted, as far as addresses tell. -/
  length_modEq : S.length ≡ (Line.code S.results).length [MOD 65536]
  /-- Below the size of memory it is their number. -/
  length_eq : (Line.code S.results).length < 65536 → S.length = (Line.code S.results).length

/-- The books of lines that follow one another, the end of the session not being one of them, are
consistent. -/
theorem consistent_of_running {m m' : Memory} {S : Assembly}
    (h : Running m S.start m' S.results S.finish)
    (hended : ∀ r ∈ S.results, r.outcome ≠ .sessionEnded) : S.Consistent := by
  have hlength : S.length = (Line.code S.results).length % 65536 := length_eq_mod h.finish_eq
  exact {
    head_address := h.isChain.1
    links := h.isChain.2
    next_eq := fun r hr => by rw [(h.next_of_mem hr).1, Address.toNat_after]
    data_eq_nil := fun r hr => (h.next_of_mem hr).2
    address_le := fun r _ => ⟨Nat.le_of_lt_succ r.address.isLt, Nat.le_of_lt_succ r.next.isLt⟩
    not_ended := hended
    finish_eq := h.finish_eq_getLast
    count := S.lines_add_errors_add hended
    length_modEq := by rw [hlength]; exact Nat.mod_modEq _ _
    length_eq := fun hshort => by rw [hlength, Nat.mod_eq_of_lt hshort] }

end Assembly

/-- A session that assembles from an address keeps consistent books: it starts at the address
modulo 65536, leaves the current address where it ends, and adds what it assembled to what was
recorded before. -/
theorem Session.assemble_consistent (s : Session) (address : Int) :
    let after := (s.assemble address).1
    let S := (s.assemble address).2.2
    (S.start.toNat : Int) = address % 65536 ∧ S.Consistent ∧ after.address = S.finish.toNat ∧
      after.assemblies = s.assemblies ++ [S] := by
  intro after S
  have hstart : (S.start.toNat : Int) = address % 65536 := Address.natCast_toNat_ofInt address
  have hrun : Running s.memory S.start after.memory S.results S.finish :=
    running_enterLines s.memory s.console (Address.ofInt address)
  have hended : ∀ r ∈ S.results, r.outcome ≠ .sessionEnded := fun r hr =>
    outcome_ne_sessionEnded_of_mem_enterLines hr
  exact ⟨hstart, Assembly.consistent_of_running hrun hended, rfl, rfl⟩

end LineMonitor
