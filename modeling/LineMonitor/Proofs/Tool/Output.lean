import LineMonitor.Proofs.Assembly.Reassembly
import LineMonitor.Proofs.Memory.Bounds
import LineMonitor.Proofs.Tool.Job

/-!
# The output file

The output file is the stretch of memory that everything assembled lies in (`Covers`), as memory is
at the end.  So every assembly has its bytes at its place in the file, and these are the bytes that
its lines emitted as long as nothing was written over them (`written_holds`).

Whether there is a file is decided by the lengths of the assemblies, and lengths are differences of
addresses.  So an assembly that ends where it began counts as empty even if its lines emitted all of
memory once or more (`reports_nothing_iff`, and `reports_nothing_of_fullTurn` for a program that
does).
-/

namespace LineMonitor.Tool.Assembler

/-! ## The stretch that was assembled -/

section Bounds

variable {α : Type} (f : α → Nat) (x : α) (xs : List α)

/-- The least number of a list stands in it, and no other is less. -/
theorem foldl_min_spec :
    (∃ y ∈ x :: xs, f y = xs.foldl (fun n t => min n (f t)) (f x)) ∧
      ∀ y ∈ x :: xs, xs.foldl (fun n t => min n (f t)) (f x) ≤ f y := by
  have hleast : ((x :: xs).map f).min? = some (xs.foldl (fun n t => min n (f t)) (f x)) := by
    rw [List.map_cons, List.min?_cons', List.foldl_map]
  obtain ⟨hmem, hle⟩ := List.min?_eq_some_iff.mp hleast
  exact ⟨List.mem_map.mp hmem, fun y hy => hle _ (List.mem_map_of_mem hy)⟩

/-- The greatest number of a list stands in it, and no other is greater. -/
theorem foldl_max_spec :
    (∃ y ∈ x :: xs, f y = xs.foldl (fun n t => max n (f t)) (f x)) ∧
      ∀ y ∈ x :: xs, f y ≤ xs.foldl (fun n t => max n (f t)) (f x) := by
  have hgreatest : ((x :: xs).map f).max? = some (xs.foldl (fun n t => max n (f t)) (f x)) := by
    rw [List.map_cons, List.max?_cons', List.foldl_map]
  obtain ⟨hmem, hle⟩ := List.max?_eq_some_iff.mp hgreatest
  exact ⟨List.mem_map.mp hmem, fun y hy => hle _ (List.mem_map_of_mem hy)⟩

end Bounds

/-- The stretch of `n` places from `first` on begins where an assembly begins, ends where one ends
and holds all of them.  Assemblies without length do not count, and ends are numbers that may lie
past the top of memory. -/
structure Covers (assemblies : List Assembly) (first n : Nat) : Prop where
  begins : ∃ S ∈ assemblies, 0 < S.length ∧ S.start.toNat = first
  ends : ∃ S ∈ assemblies, 0 < S.length ∧ S.start.toNat + S.length = first + n
  holds : ∀ S ∈ assemblies, 0 < S.length →
    first ≤ S.start.toNat ∧ S.start.toNat + S.length ≤ first + n

/-- The extent of assemblies covers them. -/
theorem covers_of_extent? {assemblies : List Assembly} {first n : Nat}
    (h : extent? assemblies = some (first, n)) : Covers assemblies first n := by
  have hcounts : ∀ S, S ∈ assemblies.filter (fun S => 0 < S.length) ↔
      S ∈ assemblies ∧ 0 < S.length := by
    intro S
    rw [List.mem_filter, decide_eq_true_iff]
  unfold extent? at h
  split at h
  · cases h
  · rename_i S others hfilter
    rw [hfilter] at hcounts
    obtain ⟨⟨low, hlow, hfirst⟩, hleast⟩ := foldl_min_spec (fun S => S.start.toNat) S others
    obtain ⟨⟨high, hhigh, hlast⟩, hgreatest⟩ :=
      foldl_max_spec (fun S => S.start.toNat + S.length) S others
    simp only [Option.some.injEq, Prod.mk.injEq] at h
    obtain ⟨hstart, hlength⟩ := h
    have hrises : first ≤ first + n ∧ first + n = high.start.toNat + high.length := by
      have := hleast high hhigh
      omega
    obtain ⟨hlowmem, hlowlen⟩ := (hcounts low).mp hlow
    obtain ⟨hhighmem, hhighlen⟩ := (hcounts high).mp hhigh
    refine ⟨⟨low, hlowmem, hlowlen, hfirst.trans hstart⟩,
      ⟨high, hhighmem, hhighlen, hrises.2.symm⟩, fun T hT hlen => ?_⟩
    have hmem := (hcounts T).mpr ⟨hT, hlen⟩
    have hbelow := hleast T hmem
    have habove := hgreatest T hmem
    omega

/-- There is no extent if no assembly has a length. -/
theorem extent?_eq_none_iff {assemblies : List Assembly} :
    extent? assemblies = none ↔ ∀ S ∈ assemblies, S.length = 0 := by
  have hcounts : assemblies.filter (fun S => 0 < S.length) = [] ↔
      ∀ S ∈ assemblies, S.length = 0 := by
    simp [List.filter_eq_nil_iff]
  rw [← hcounts]
  unfold extent?
  split
  · rename_i hfilter
    exact iff_of_true rfl hfilter
  · rename_i S others hfilter
    refine iff_of_false (Option.some_ne_none _) ?_
    rw [hfilter]
    exact List.cons_ne_nil S others

/-! ## The bytes of the file -/

/-- What a file that begins at the address `first` and holds `data` has of a session: it is the
stretch of its memory that all assemblies lie in.  The code of an assembly of less than a turn of
memory is there in one piece, if no later line wrote over it. -/
structure HoldsAssembled (s : Session) (first : Nat) (data : List Byte) : Prop where
  /-- It begins with an assembly, ends with one and leaves none out. -/
  covers : Covers s.assemblies first data.length
  /-- Each byte of an assembly, counted past the top of memory if need be, stands at its place. -/
  byte_eq : ∀ S ∈ s.assemblies, 0 < S.length → ∀ j < S.length,
    data[S.start.toNat - first + j]? = some (s.memory.read (S.start.after j))
  /-- The bytes that the lines of an assembly emitted stand at its place. -/
  code_eq : ∀ front S back, s.assemblies = front ++ S :: back →
    0 < (Line.code S.results).length → (Line.code S.results).length ≤ 65533 →
    (∀ T ∈ back, ∀ r ∈ T.results, ∀ i < (Line.code S.results).length,
      ¬ r.Writes (S.start.after i)) →
    (data.drop (S.start.toNat - first)).take (Line.code S.results).length = Line.code S.results

/-- An address behind the first one is found by counting from there. -/
theorem after_ofNat {first : Nat} {a : Address} (h : first ≤ a.toNat) (j : Nat) :
    Address.after (BitVec.ofNat 16 first) (a.toNat - first + j) = a.after j := by
  have ha := a.isLt
  apply BitVec.eq_of_toNat_eq
  rw [Address.toNat_after, Address.toNat_after, BitVec.toNat_ofNat]
  omega

/-- The stretch of memory that covers the assemblies of a session holds them. -/
theorem HoldsAssembled.of_covers {m : Memory} {s : Session} {first n : Nat}
    (hrecord : Recording m s.assemblies s.memory) (hcovers : Covers s.assemblies first n) :
    HoldsAssembled s first (s.memory.bytes (BitVec.ofNat 16 first) n) := by
  refine ⟨by rwa [Memory.length_bytes], ?_, ?_⟩
  · intro S hS hlen j hj
    obtain ⟨hbelow, habove⟩ := hcovers.holds S hS hlen
    rw [List.getElem?_eq_getElem (by rw [Memory.length_bytes]; omega), Memory.getElem_bytes,
      after_ofNat hbelow]
  · intro front S back hsplit hpos hlen hkept
    have hS : S ∈ s.assemblies := hsplit ▸ List.mem_append_right front List.mem_cons_self
    have hlength : S.length = (Line.code S.results).length := by
      rw [hrecord.length_eq_mod hS]
      exact Nat.mod_eq_of_lt (by omega)
    obtain ⟨hbelow, habove⟩ := hcovers.holds S hS (by omega)
    have hplace : Address.after (BitVec.ofNat 16 first) (S.start.toNat - first) = S.start := by
      have hafter := after_ofNat hbelow 0
      rwa [Nat.add_zero, Address.after_zero] at hafter
    rw [Memory.take_drop_bytes _ _ (by omega), hplace]
    rw [hsplit] at hrecord
    exact hrecord.bytes_eq hlen hkept

/-! ## What a job writes -/

/-- The result says that there was nothing to write. -/
def ReportsNothing (result : Result) : Prop :=
  ∃ before after, result.stderr = before ++ "Nothing assembled, no output written\n" ++ after

/-- What is written is nothing or one file: the one asked for, with the extent of the
assemblies. -/
theorem written_of_writeOutput {request : Request} {host : Host} {s : Session}
    {written : List (Place × List Byte)} {told : String}
    (h : writeOutput request host s = .ok (written, told)) :
    written = [] ∨ ∃ output place first n, request.output = some output ∧
      host.save output (s.memory.bytes (BitVec.ofNat 16 first) n) = .ok place ∧
      extent? s.assemblies = some (first, n) ∧
      written = [(place, s.memory.bytes (BitVec.ofNat 16 first) n)] := by
  unfold writeOutput at h
  split at h
  · cases h
    exact Or.inl rfl
  · rename_i output houtput
    split at h
    · cases h
      exact Or.inl rfl
    · rename_i first n hextent
      dsimp only at h
      split at h
      · cases h
      · rename_i place hsave
        cases h
        exact Or.inr ⟨output, place, first, n, houtput, hsave, hextent, rfl⟩

namespace Job

variable {j : Job} {host : Host} {output : String} {place : Place} {data : List Byte}

/-- A job that was halted writes nothing. -/
theorem written_of_halted {before : Transcript} {trouble : Trouble}
    (h : host.halted? j.script [] j.driven.2 = some (before, trouble)) :
    (j.result host).written = [] := by
  unfold result interrupt
  rw [h]
  dsimp only
  split <;> rfl

/-- A job whose output cannot be written writes nothing. -/
theorem written_of_failure {e : Failure} (hread : host.halted? j.script [] j.driven.2 = none)
    (h : writeOutput j.request host j.driven.1 = .error e) : (j.result host).written = [] := by
  unfold result finish
  rw [hread, h]
  rfl

/-- A job that came to its end writes and reports what `writeOutput` says. -/
theorem result_of_output {written : List (Place × List Byte)} {told : String}
    (hread : host.halted? j.script [] j.driven.2 = none)
    (h : writeOutput j.request host j.driven.1 = .ok (written, told)) :
    (j.result host).written = written ∧
      ∃ before after, (j.result host).stderr = before ++ told ++ after := by
  unfold result finish
  rw [hread, h]
  exact ⟨rfl, _, _, rfl⟩

/-- A file that a job writes is the one asked for, and holds the extent of the assemblies. -/
theorem of_mem_written (h : (place, data) ∈ (j.result host).written) :
    ∃ output first n, j.request.output = some output ∧ host.save output data = .ok place ∧
      extent? j.driven.1.assemblies = some (first, n) ∧
      data = j.driven.1.memory.bytes (BitVec.ofNat 16 first) n ∧
      (j.result host).written = [(place, data)] := by
  cases hread : host.halted? j.script [] j.driven.2 with
  | some stop =>
    rw [written_of_halted hread] at h
    cases h
  | none =>
    cases hwrite : writeOutput j.request host j.driven.1 with
    | error e =>
      rw [written_of_failure hread hwrite] at h
      cases h
    | ok output =>
      obtain ⟨written, told⟩ := output
      rw [(result_of_output hread hwrite).1] at h ⊢
      rcases written_of_writeOutput hwrite with
        rfl | ⟨output, target, first, n, houtput, hsave, hextent, rfl⟩
      · cases h
      · cases List.mem_singleton.mp h
        exact ⟨output, first, n, houtput, hsave, hextent, rfl, rfl⟩

/-- Without an extent a job reports that there is nothing to write, and writes nothing. -/
theorem reports_nothing_of_extent? (hread : host.halted? j.script [] j.driven.2 = none)
    (houtput : j.request.output = some output) (h : extent? j.driven.1.assemblies = none) :
    ReportsNothing (j.result host) ∧ (j.result host).written = [] := by
  have hwrite : writeOutput j.request host j.driven.1 =
      .ok ([], "Nothing assembled, no output written\n") := by
    simp only [writeOutput, houtput, h]
  obtain ⟨hwritten, hreport⟩ := result_of_output hread hwrite
  exact ⟨hreport, hwritten⟩

/-- With an extent a job writes its file. -/
theorem written_of_extent? {first n : Nat} (hread : host.halted? j.script [] j.driven.2 = none)
    (houtput : j.request.output = some output) (h : extent? j.driven.1.assemblies = some (first, n))
    (hsave : host.save output (j.driven.1.memory.bytes (BitVec.ofNat 16 first) n) = .ok place) :
    (j.result host).written =
      [(place, j.driven.1.memory.bytes (BitVec.ofNat 16 first) n)] := by
  obtain ⟨told, hwrite⟩ : ∃ told, writeOutput j.request host j.driven.1 =
      .ok ([(place, j.driven.1.memory.bytes (BitVec.ofNat 16 first) n)], told) := by
    simp only [writeOutput, houtput, h, hsave]
    exact ⟨_, rfl⟩
  exact (result_of_output hread hwrite).1

/-- An assembly of a job has no length if its lines emitted nothing or whole turns of memory. -/
theorem extent?_eq_none_iff (j : Job) :
    extent? j.driven.1.assemblies = none ↔
      ∀ S ∈ j.driven.1.assemblies, 65536 ∣ (Line.code S.results).length := by
  rw [Assembler.extent?_eq_none_iff]
  refine forall₂_congr fun S hS => ?_
  rw [j.recording_driven.length_eq_mod hS, Nat.dvd_iff_mod_eq_zero]

/-- The lines of an assembly emitted nothing if none of them was assembled. -/
theorem code_eq_nil_iff (j : Job) {S : Assembly} (hS : S ∈ j.driven.1.assemblies) :
    Line.code S.results = [] ↔ ∀ r ∈ S.results, r.outcome ≠ .success := by
  obtain ⟨before, after, hrun⟩ := j.recording_driven.exists_running hS
  exact hrun.code_eq_nil_iff

end Job

/-! ## What a run writes -/

section Run

variable {arguments : List String} {env : Environment} {disk : Disk} {terminal : List Char}

/-- The file that a run writes is the one asked for, and holds what its session assembled. -/
theorem written_holds {place : Place} {data : List Byte}
    (h : (place, data) ∈ (run arguments env disk terminal).written) :
    ∃ j output first, job? arguments env disk terminal = some j ∧
      run arguments env disk terminal = j.result (disk.host terminal) ∧
      j.request.output = some output ∧
      disk.target (Path.read output) = .ok place ∧
      (run arguments env disk terminal).written = [(place, data)] ∧
      HoldsAssembled j.driven.1 first data := by
  cases hjob : job? arguments env disk terminal with
  | none =>
    rw [written_of_no_job hjob] at h
    cases h
  | some j =>
    have hresult := run_of_job hjob
    rw [hresult] at h ⊢
    obtain ⟨output, first, n, houtput, hsave, hextent, rfl, hwritten⟩ := Job.of_mem_written h
    rw [Disk.save_host, mapError_eq_ok_iff] at hsave
    exact ⟨j, output, first, rfl, rfl, houtput, hsave, hwritten,
      .of_covers j.recording_driven (covers_of_extent? hextent)⟩

/-- A line that is typed over the first instruction of the lines before. -/
theorem written_holds_overtyped :
    let terminal := "A 0004\nNOP\nNOP\nNOP\n\x1b\nA 0002\nJMP 1234\n\x1b\nQ\n".toList
    let data : List Byte := [0x4C, 0x34, 0x12, 0xEA, 0xEA]
    ∃ j output first, job? ["-o", "out"] {} [] terminal = some j ∧
      run ["-o", "out"] {} [] terminal = j.result (Disk.host [] terminal) ∧
      j.request.output = some output ∧
      Disk.target [] (Path.read output) = .ok ⟨false, ["out"]⟩ ∧
      (run ["-o", "out"] {} [] terminal).written = [(⟨false, ["out"]⟩, data)] ∧
      HoldsAssembled j.driven.1 first data := by
  intro terminal data
  exact written_holds (by decide +kernel)

/-- Whether a run has a file to write: it reports that nothing was assembled, and writes nothing,
exactly if the lines of each assembly emitted nothing or whole turns of memory.  This tells whether
a line was assembled, except if there were such turns and nothing else. -/
theorem reports_nothing_iff {j : Job} {output : String} {place : Place}
    (hjob : job? arguments env disk terminal = some j)
    (hread : j.script.stopped? j.driven.2 = none) (houtput : j.request.output = some output)
    (hplace : disk.target (Path.read output) = .ok place) :
    let result := run arguments env disk terminal
    let turns := ∀ S ∈ j.driven.1.assemblies, 65536 ∣ (Line.code S.results).length
    let refused := ∀ S ∈ j.driven.1.assemblies, ∀ r ∈ S.results, r.outcome ≠ .success
    (ReportsNothing result ∧ result.written = [] ↔ turns) ∧
      ((ReportsNothing result ∧ result.written = [] ↔ refused) ↔ (turns → refused)) := by
  intro result turns refused
  have hresult : result = j.result (disk.host terminal) := run_of_job hjob
  have hextent : extent? j.driven.1.assemblies = none ↔ turns := j.extent?_eq_none_iff
  rw [← disk.halted?_host terminal j.script []] at hread
  have hturns : ReportsNothing result ∧ result.written = [] ↔ turns := by
    rw [hresult, ← hextent]
    constructor
    · rintro ⟨-, hnothing⟩
      by_contra hsome
      obtain ⟨⟨first, n⟩, hfound⟩ := Option.ne_none_iff_exists'.mp hsome
      have hsave := disk.save_host terminal output
        (j.driven.1.memory.bytes (BitVec.ofNat 16 first) n)
      rw [hplace, Except.mapError] at hsave
      rw [Job.written_of_extent? hread houtput hfound hsave] at hnothing
      cases hnothing
    · exact Job.reports_nothing_of_extent? hread houtput
  have hrefused : refused → turns := by
    intro hnone S hS
    rw [(j.code_eq_nil_iff hS).mpr (hnone S hS)]
    exact Nat.dvd_zero _
  refine ⟨hturns, ?_⟩
  rw [hturns]
  exact ⟨Iff.mp, fun h => ⟨h, hrefused⟩⟩

/-- A session without a line that is assembled. -/
theorem reports_nothing_iff_refused :
    let terminal := "A 6000\nXYZ\n\x1b\nQ\n".toList
    let result := run ["-o", "out"] {} [] terminal
    ∃ j, job? ["-o", "out"] {} [] terminal = some j ∧
      (∀ S ∈ j.driven.1.assemblies, ∀ r ∈ S.results, r.outcome ≠ .success) ∧
      ReportsNothing result ∧ result.written = [] := by
  intro terminal result
  let j : Job :=
    { request := { output := some "out" }
      settings := {}
      memory := Memory.filled [] [] 0
      script := { text := Text.universal terminal }
      reported := "" }
  have hjob : job? ["-o", "out"] {} [] terminal = some j := rfl
  have hplace : Disk.target [] (Path.read "out") = .ok ⟨false, ["out"]⟩ := by decide +kernel
  have hrefused : ∀ S ∈ j.driven.1.assemblies, ∀ r ∈ S.results, r.outcome ≠ .success := by
    decide +kernel
  have htells := (reports_nothing_iff hjob rfl rfl hplace).2.mpr fun _ => hrefused
  exact ⟨j, hjob, hrefused, htells.mpr hrefused⟩

end Run

/-! ## A whole turn of memory -/

/-- The rows of a listing that fills memory are all assembled, but they end where they began. -/
theorem exists_job_of_full_turn {data : List Byte} {shown : List Row}
    (h : Disassembly 0 data shown) (hlen : data.length = 65536) :
    ∃ j S, job? ["-a", "0000", "-o", "out.bin"] {} [] (Row.typed shown) = some j ∧
      j.script.stopped? j.driven.2 = none ∧ j.request.output = some "out.bin" ∧
      j.driven.1.assemblies = [S] ∧ S.length = 0 ∧
      List.Forall₂ Row.Assembled shown S.results := by
  have hjob : job? ["-a", "0000", "-o", "out.bin"] {} [] (Row.typed shown) = some
      { request := { address := some "0000", output := some "out.bin" }
        settings := { start := some 0 }
        memory := Memory.filled [] [] 0
        script := { text := Row.typed shown }
        reported := "" } := by
    have hread : job? ["-a", "0000", "-o", "out.bin"] {} [] (Row.typed shown) = some
        { request := { address := some "0000", output := some "out.bin" }
          settings := { start := some 0 }
          memory := Memory.filled [] [] 0
          script := { text := Text.universal (Row.typed shown) }
          reported := "" } := rfl
    rw [hread, h.universal_typed]
  have hready : (Console.ofText (Row.typed shown) "\x1b").Ready
      (shown.map fun row => row.text.toList) := by
    rw [← h.typedLines_typed]
    exact Console.ready_ofText _
  obtain ⟨-, hfinish, hlines⟩ :=
    h.enterLines_typed (m := Memory.filled [] [] 0) hready fun i hi => rfl
  refine ⟨_, _, hjob, rfl, rfl, rfl, ?_, hlines⟩
  rw [Assembly.length_eq_mod hfinish, hlen]

/-- A program of jumps that fills memory from its first address on. -/
def fullTurn : List Char :=
  (List.replicate 21845 "JMP 0000\n".toList).flatten ++ "NOP\n".toList

/-- The program is a listing of 65536 bytes. -/
theorem exists_disassembly_fullTurn :
    ∃ data shown, Disassembly 0 data shown ∧ data.length = 65536 ∧ Row.typed shown = fullTurn := by
  have hnop : ∀ address,
      ((⟨.nop, .implicit, 0xEA⟩ : Encoding).row address []).text.toList ++ ['\n'] =
        "NOP\n".toList := by
    intro address
    rw [Encoding.toList_text_row]
    rfl
  have hjump : ∀ address,
      ((⟨.jmp, .absolute, 0x4C⟩ : Encoding).row address [0, 0]).text.toList ++ ['\n'] =
        "JMP 0000\n".toList := by
    intro address
    have hdecode : Operand.decode .absolute [0, 0] address = ⟨.absolute, 0⟩ := rfl
    rw [Encoding.toList_text_row, hdecode]
    decide +kernel
  have hlast : ∀ a, ∃ shown, Disassembly a [0xEA] shown ∧ Row.typed shown = "NOP\n".toList :=
    Disassembly.exists_repeated (by decide) rfl hnop (fun a => ⟨[], .nil a, rfl⟩) 1
  obtain ⟨shown, hshown, htyped⟩ :=
    Disassembly.exists_repeated (by decide) rfl hjump hlast 21845 0
  refine ⟨_, shown, hshown, ?_, htyped⟩
  rw [List.length_append, List.length_flatten, List.map_replicate, List.sum_replicate_nat]
  rfl

/-- All lines of the program are assembled, and nothing is written. -/
theorem reports_nothing_of_fullTurn :
    let result := run ["-a", "0000", "-o", "out.bin"] {} [] fullTurn
    ∃ j, job? ["-a", "0000", "-o", "out.bin"] {} [] fullTurn = some j ∧
      j.script.stopped? j.driven.2 = none ∧ j.request.output = some "out.bin" ∧
      Disk.target [] (Path.read "out.bin") = .ok ⟨false, ["out.bin"]⟩ ∧
      (∃ S ∈ j.driven.1.assemblies, ∃ r ∈ S.results, r.outcome = .success) ∧
      ReportsNothing result ∧ result.written = [] := by
  intro result
  obtain ⟨data, shown, hshown, hlen, htyped⟩ := exists_disassembly_fullTurn
  obtain ⟨j, S, hjob, hread, houtput, hassemblies, hlength, hlines⟩ :=
    exists_job_of_full_turn hshown hlen
  rw [htyped] at hjob
  have hresult : result = j.result (Disk.host [] fullTurn) := run_of_job hjob
  have hhalted := hread
  rw [← Disk.halted?_host [] fullTurn j.script []] at hhalted
  have hextent : extent? j.driven.1.assemblies = none := by
    rw [extent?_eq_none_iff, hassemblies]
    simpa using hlength
  have hassembled : ∃ r ∈ S.results, r.outcome = .success := by
    generalize S.results = results at hlines
    cases hlines with
    | nil => exact absurd htyped.symm (List.append_ne_nil_of_right_ne_nil _ (by decide))
    | cons hrow hlater => exact ⟨_, List.mem_cons_self, hrow.1⟩
  refine ⟨j, hjob, hread, houtput, by decide +kernel, ⟨S, ?_, hassembled⟩, ?_⟩
  · rw [hassemblies]
    exact List.mem_singleton_self S
  · rw [hresult]
    exact Job.reports_nothing_of_extent? hhalted houtput hextent

end LineMonitor.Tool.Assembler
