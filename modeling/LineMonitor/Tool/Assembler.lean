import LineMonitor.Session
import LineMonitor.Settings.Environment
import LineMonitor.Tool.Host
import LineMonitor.Tool.Result
import LineMonitor.Tool.Values

/-!
# The assembler

The assembler runs the monitor, or assembles at once from a given address, over lines
from the terminal or a script.  It can load an image first and write what was assembled
to a file at the end.  With a script its exit status tells whether all lines were good.
-/

namespace LineMonitor.Tool.Assembler

/-- The options of the assembler. -/
inductive Key where
  | address
  | script
  | image
  | loadAddress
  | rom
  | output
  | verbose
  | version
  | help
  deriving DecidableEq, Repr

/-- The name of the tool. -/
def name : String := "miniasm"

/-- What the tool is called with. -/
def synopsis : String := "[OPTIONS]"

/-- How the options are written. -/
def forms : List (OptionForm Key) :=
  [⟨.address, "--address", some 'a', true⟩, ⟨.script, "--script", some 's', true⟩,
    ⟨.image, "--image", some 'i', true⟩, ⟨.loadAddress, "--load-address", none, true⟩,
    ⟨.rom, "--rom", none, true⟩, ⟨.output, "--output", some 'o', true⟩,
    ⟨.verbose, "--verbose", some 'v', false⟩, ⟨.version, "--version", none, false⟩,
    ⟨.help, "--help", none, false⟩]

/-- The explanation of the tool and its options. -/
def help : String :=
  String.join <| [
    "Usage: " ++ name ++ " " ++ synopsis,
    "",
    "  Assemble 6502 instructions line by line into memory.",
    "",
    "  Syntax:",
    "      XXXX: LDA #0A        immediate",
    "      XXXX: STA 10,X       zero page indexed",
    "      XXXX: JMP (FFFC)     indirect",
    "      XXXX: BNE 6003       branch to absolute target",
    "",
    "  All numbers are hex, 2 or 4 digits, without a prefix.",
    "",
    "Options:",
    "  -a, --address TEXT   Start assembling at this hex address (default: monitor",
    "                       command loop)",
    "  -s, --script FILE    Read input lines from a file instead of the terminal",
    "  -i, --image FILE     Binary image to preload into memory",
    "  --load-address TEXT  Hex address the image is loaded at (default: 0000)",
    "  --rom TEXT           Read-only region START-END in hex (can be repeated)",
    "  -o, --output FILE    Write the assembled bytes to this file",
    "  -v, --verbose        Verbose output",
    "  --version            Show the version and exit.",
    "  --help               Show this message and exit."].map (· ++ "\n")

/-- What the tool is asked to do. -/
structure Request where
  address : Option String := none
  script : Option String := none
  image : Option String := none
  loadAddress : String := "0000"
  rom : List String := []
  output : Option String := none
  verbose : Bool := false
  deriving DecidableEq, Repr

/-- The request that arguments make. -/
def Request.ofArguments (a : Arguments Key) : Request where
  address := a.value? .address
  script := a.value? .script
  image := a.value? .image
  loadAddress := (a.value? .loadAddress).getD "0000"
  rom := a.values .rom
  output := a.value? .output
  verbose := a.has .verbose

/-- What is wrong with the file that an option names. -/
def optionError? (disk : Disk) (a : Arguments Key) (key : Key) : Option UsageError :=
  let check (hint : String) (mustExist : Bool) : Option UsageError :=
    ((a.value? key).bind (fileComplaint? disk mustExist)).map (.badValue hint)
  match key with
  | .script => check "'-s' / '--script'" true
  | .image => check "'-i' / '--image'" true
  | .output => check "'-o' / '--output'" false
  | _ => none

/-- What is wrong with the arguments as a whole: first the files that options name, in
the order of the options, then arguments that are no options. -/
def usageError? (disk : Disk) (a : Arguments Key) : Option UsageError :=
  match a.keys.findSome? (optionError? disk a) with
  | some e => some e
  | none => if a.positional.isEmpty then none else some (.extraArguments a.positional)

/-- The events that are logged, one on a line: all if the tool is verbose, else the
warnings. -/
def logText (verbose : Bool) (events : List Event) : String :=
  String.join <| (events.filter fun e => verbose || e.level == .warning).map fun e =>
    e.level.name ++ ": " ++ e.message ++ "\n"

/-- The regions in options, each of them in order. -/
def romOptions : List String → Except Failure (List Region)
  | [] => .ok []
  | text :: rest =>
    match Settings.readRegion text with
    | .ok region => (romOptions rest).map (region :: ·)
    | .error e => .error (.badValue e.message (some "--rom"))

/-- The settings of the environment with those of the options on top. -/
def configure (request : Request) (base : Settings) : Except Failure Settings :=
  let start : Except Failure (Option Int) :=
    match request.address with
    | none => .ok base.start
    | some text => (optionAddress text "--address").map some
  match start with
  | .error e => .error e
  | .ok start =>
    (romOptions request.rom).map fun regions => { base with start, rom := base.rom ++ regions }

/-- Memory with the image loaded, and what is reported about it. -/
def prepareMemory (request : Request) (host : Host) (settings : Settings) :
    Except Failure (Memory × String) :=
  match Memory.ofBounds (settings.rom.map (·.bounds)) [] 0 with
  | .error complaint => .error (.unforeseen complaint)
  | .ok empty =>
    match request.image with
    | none => .ok (empty, "")
    | some image =>
      match optionAddress request.loadAddress "--load-address" with
      | .error e => .error e
      | .ok base =>
        match host.contents image with
        | .error trouble => .error trouble.failure
        | .ok data =>
          let address := Address.ofInt base
          .ok (empty.load address data,
            logText request.verbose [.loaded data.length address] ++
              note request.verbose
                ("Loaded " ++ toString data.length ++ " bytes at $" ++ Hex.ofInt 4 base))

/-- Assembles at once if there is a start address, and runs the monitor if not. -/
def drive (s : Session) (start : Option Int) : Session × Transcript :=
  match start with
  | some address =>
    let (after, transcript, _) := s.assemble address
    (after, transcript)
  | none => s.run

/-- The stretch of memory that holds everything assembled: its first address and its
length; there is none if nothing was assembled. -/
def extent? (assemblies : List Assembly) : Option (Nat × Nat) :=
  match assemblies.filter fun s => 0 < s.length with
  | [] => none
  | s :: others =>
    let first := others.foldl (fun n t => min n t.start.toNat) s.start.toNat
    let last :=
      others.foldl (fun n t => max n (t.start.toNat + t.length)) (s.start.toNat + s.length)
    some (first, last - first)

/-- Writes what was assembled to the output file, and reports it. -/
def writeOutput (request : Request) (host : Host) (s : Session) :
    Except Failure (List (Place × List Byte) × String) :=
  match request.output with
  | none => .ok ([], "")
  | some output =>
    match extent? s.assemblies with
    | none => .ok ([], "Nothing assembled, no output written\n")
    | some (first, length) =>
      let data := s.memory.bytes (BitVec.ofNat 16 first) length
      match host.save output data with
      | .error trouble => .error trouble.failure
      | .ok place =>
        .ok ([(place, data)],
          note request.verbose
            ("Wrote " ++ toString length ++ " bytes from $" ++ Hex.ofInt 4 first ++ " to " ++
              host.shown output))

/-- The sum of a count over everything assembled. -/
def total (count : Assembly → Nat) (assemblies : List Assembly) : Nat :=
  assemblies.foldl (fun n s => n + count s) 0

/-- What the tool is doing when a line fails. -/
def activity : String := "Assembly"

/-- The end of a run after which memory and input are known. -/
def finish (request : Request) (host : Host) (told : String) (echo : Bool) (s : Session)
    (t : Transcript) : Result :=
  let stdout := t.output echo
  let stderr := told ++ logText request.verbose t.events
  let lines := total (·.lines) s.assemblies
  let errors := total (·.errors) s.assemblies
  match writeOutput request host s with
  | .error e => .ofFailure activity request.verbose stdout stderr e
  | .ok (written, told) =>
    let summary :=
      note request.verbose
        ("Assembled " ++ toString lines ++ " lines, " ++ toString errors ++ " errors")
    { exitCode :=
        if request.script.isSome && errors != 0 then .assemblyError else .success
      stdout
      stderr := stderr ++ told ++ summary
      written }

/-- Whether a transcript breaks off while lines are assembled. -/
def breaksOffAssembling (t : Transcript) : Bool :=
  t.events.foldl
    (fun assembling event =>
      match event with
      | .assembling _ => true
      | .assembled _ _ _ => false
      | _ => assembling)
    false

/-- What the input is needed for where a transcript breaks off. -/
def occasion (start : Option Int) (t : Transcript) : Occasion :=
  if start.isSome then .line
  else if breaksOffAssembling t then .lineForCommand
  else .command

/-- The end of a run that met with trouble on the way. -/
def interrupt (request : Request) (start : Option Int) (told : String) (echo : Bool)
    (before : Transcript) (trouble : Trouble) : Result :=
  let result : Result :=
    .ofFailure activity request.verbose (before.output echo)
      (told ++ logText request.verbose before.events) trouble.failure
  match request.verbose, trouble with
  | true, .other complaint =>
    { result with interruption := some ⟨occasion start before, complaint⟩ }
  | _, _ => result

/-- Does what is asked for. -/
def perform (request : Request) (env : Environment) (host : Host) : Result :=
  let fail (told : String) (e : Failure) : Result :=
    .ofFailure activity request.verbose "" told e
  let (base, ignored) := env.settings
  let told := logText request.verbose ignored
  match configure request base with
  | .error e => fail told e
  | .ok settings =>
    let told := told ++ logText request.verbose [.configured settings]
    match prepareMemory request host settings with
    | .error e => fail told e
    | .ok (memory, loaded) =>
      let told := told ++ loaded
      match host.input request.script with
      | .error trouble => fail told trouble.failure
      | .ok script =>
        let console := Console.ofText script.text settings.escape
        let (s, t) := drive (.new memory console settings) settings.start
        match host.halted? script [] t with
        | none => finish request host told script.echo s t
        | some (before, trouble) =>
          interrupt request settings.start told script.echo before trouble

/-- Runs the assembler. -/
def run (arguments : List String) (env : Environment) (disk : Disk) (terminal : List Char) :
    Result :=
  match Arguments.read forms arguments with
  | .error e => .ofUsageError name synopsis e
  | .ok a =>
    match a.keys.find? fun key => key == .version || key == .help with
    | some .version => { exitCode := .success, stdout := name ++ ", version " ++ version ++ "\n" }
    | some _ => { exitCode := .success, stdout := help }
    | none =>
      match usageError? disk a with
      | some e => .ofUsageError name synopsis e
      | none => perform (.ofArguments a) env (disk.host terminal)

/-- The paths that arguments name. -/
def paths (arguments : List String) : List Path :=
  match Arguments.read forms arguments with
  | .error _ => []
  | .ok a => ([a.value? .script, a.value? .image, a.value? .output].filterMap id).map Path.read

end LineMonitor.Tool.Assembler
