import LineMonitor.Tool.Assembler
import LineMonitor.Proofs.Session.Run
import LineMonitor.Proofs.Tool.Host

/-!
# Jobs of the assembler

A `Job` is what the assembler works with once its options were found good and its files were read.
A run without a job only reports what is wrong and writes nothing (`written_of_no_job`); with a job
the monitor is driven and the run ends as it leaves the session (`run_of_job`).  Whether lines are
assembled at once or by commands, the assemblies of the session are what was done to memory
(`Job.recording_driven`).
-/

namespace LineMonitor.Tool.Assembler

/-- What the assembler works with, and what it reported on the way there. -/
structure Job where
  request : Request
  settings : Settings
  memory : Memory
  script : Script
  reported : String

/-- The request that arguments make, unless something is wrong with them or they ask for
information only. -/
def request? (arguments : List String) (disk : Disk) : Option Request :=
  match Arguments.read forms arguments with
  | .error _ => none
  | .ok a =>
    if (a.keys.find? fun key => key == .version || key == .help).isSome then none
    else if (usageError? disk a).isSome then none
    else some (.ofArguments a)

/-- The job of a request whose options are good and whose files can be read. -/
def Request.job? (request : Request) (env : Environment) (host : Host) : Option Job :=
  match configure request env.settings.1 with
  | .error _ => none
  | .ok settings =>
    match prepareMemory request host settings with
    | .error _ => none
    | .ok (memory, loaded) =>
      match host.input request.script with
      | .error _ => none
      | .ok script =>
        some {
          request
          settings
          memory
          script
          reported := logText request.verbose env.settings.2 ++
            logText request.verbose [.configured settings] ++ loaded }

/-- The job that arguments give. -/
def job? (arguments : List String) (env : Environment) (disk : Disk) (terminal : List Char) :
    Option Job :=
  (request? arguments disk).bind fun request => request.job? env (disk.host terminal)

namespace Job

/-- The session that the assembler drives. -/
def session (j : Job) : Session :=
  .new j.memory (Console.ofText j.script.text j.settings.escape) j.settings

/-- The session at the end of the job, and what it told. -/
def driven (j : Job) : Session × Transcript :=
  drive j.session j.settings.start

/-- The result of a job. -/
def result (j : Job) (host : Host) : Result :=
  match host.halted? j.script [] j.driven.2 with
  | none => finish j.request host j.reported j.script.echo j.driven.1 j.driven.2
  | some (before, trouble) =>
    interrupt j.request j.settings.start j.reported j.script.echo before trouble

end Job

/-! ## Runs with and without a job -/

section Run

variable (arguments : List String) (env : Environment) (disk : Disk) (terminal : List Char)

/-- A run does what is requested, or only writes text. -/
theorem run_cases :
    (∃ request, request? arguments disk = some request ∧
      run arguments env disk terminal = perform request env (disk.host terminal)) ∨
    (request? arguments disk = none ∧ (run arguments env disk terminal).written = []) := by
  unfold request? run
  cases hread : Arguments.read forms arguments with
  | error e => exact Or.inr ⟨rfl, rfl⟩
  | ok a =>
    cases hfind : a.keys.find? fun key => key == .version || key == .help with
    | some key =>
      simp only [hfind]
      refine Or.inr ⟨rfl, ?_⟩
      cases key <;> rfl
    | none =>
      cases husage : usageError? disk a with
      | some e =>
        simp only [hfind, husage]
        exact Or.inr ⟨rfl, rfl⟩
      | none =>
        simp only [hfind, husage]
        exact Or.inl ⟨_, rfl, rfl⟩

/-- What is requested is a job, or cannot be started. -/
theorem perform_cases (request : Request) (host : Host) :
    (∃ j, request.job? env host = some j ∧ perform request env host = j.result host) ∨
    (request.job? env host = none ∧ (perform request env host).written = []) := by
  unfold Request.job? perform
  cases hconfigure : configure request env.settings.1 with
  | error e =>
    simp only [hconfigure]
    exact Or.inr ⟨trivial, rfl⟩
  | ok settings =>
    cases hmemory : prepareMemory request host settings with
    | error e =>
      simp only [hconfigure, hmemory]
      exact Or.inr ⟨trivial, rfl⟩
    | ok prepared =>
      cases hinput : host.input request.script with
      | error trouble =>
        simp only [hconfigure, hmemory]
        exact Or.inr ⟨trivial, rfl⟩
      | ok script =>
        simp only [hconfigure, hmemory]
        exact Or.inl ⟨_, rfl, rfl⟩

variable {arguments env disk terminal}

/-- Without a job only text is written. -/
theorem written_of_no_job (h : job? arguments env disk terminal = none) :
    (run arguments env disk terminal).written = [] := by
  rcases run_cases arguments env disk terminal with ⟨request, hrequest, hrun⟩ | ⟨-, hwritten⟩
  · rw [job?, hrequest, Option.bind_some] at h
    rw [hrun]
    rcases perform_cases env request (disk.host terminal) with ⟨j, hjob, -⟩ | ⟨-, hwritten⟩
    · rw [hjob] at h
      cases h
    · exact hwritten
  · exact hwritten

/-- With a job the run has its result. -/
theorem run_of_job {j : Job} (h : job? arguments env disk terminal = some j) :
    run arguments env disk terminal = j.result (disk.host terminal) := by
  rcases run_cases arguments env disk terminal with ⟨request, hrequest, hrun⟩ | ⟨hnone, -⟩
  · rw [job?, hrequest, Option.bind_some] at h
    rw [hrun]
    rcases perform_cases env request (disk.host terminal) with ⟨found, hjob, hresult⟩ | ⟨hnone, -⟩
    · rw [hjob, Option.some.injEq] at h
      rw [hresult, h]
    · rw [hnone] at h
      cases h
  · rw [job?, hnone] at h
    cases h

end Run

/-! ## What is recorded -/

/-- The assemblies of a job are what was done to its memory. -/
theorem Job.recording_driven (j : Job) :
    Recording j.memory j.driven.1.assemblies j.driven.1.memory := by
  unfold driven drive
  cases j.settings.start with
  | some address => exact j.session.recording_assemble address
  | none =>
    obtain ⟨recorded, h⟩ := j.session.exists_serving
    have hassemblies : j.session.run.1.assemblies = recorded := h.assemblies_eq
    simp only [hassemblies]
    exact h.recording

end LineMonitor.Tool.Assembler
