import LineMonitor.Listing
import LineMonitor.Tool.Host
import LineMonitor.Tool.Result
import LineMonitor.Tool.Values

/-!
# The disassembler

The disassembler lists the machine code in a file, with a heading, on the terminal or
in another file.
-/

namespace LineMonitor.Tool.Disassembler

/-- The options of the disassembler. -/
inductive Key where
  | output
  | address
  | count
  | noBytes
  | verbose
  | version
  | help
  deriving DecidableEq, Repr

/-- The name of the tool. -/
def name : String := "minidis"

/-- What the tool is called with. -/
def synopsis : String := "[OPTIONS] INPUT_FILE"

/-- How the options are written. -/
def forms : List (OptionForm Key) :=
  [⟨.output, "--output", some 'o', true⟩, ⟨.address, "--address", some 'a', true⟩,
    ⟨.count, "--count", some 'c', true⟩, ⟨.noBytes, "--no-bytes", none, false⟩,
    ⟨.verbose, "--verbose", some 'v', false⟩, ⟨.version, "--version", none, false⟩,
    ⟨.help, "--help", none, false⟩]

/-- The explanation of the tool and its options. -/
def help : String :=
  String.join <| [
    "Usage: " ++ name ++ " " ++ synopsis,
    "",
    "  Disassemble 6502 machine code.",
    "",
    "  INPUT_FILE is the binary file to disassemble.",
    "",
    "Options:",
    "  -o, --output FILE    Output file (default: stdout)",
    "  -a, --address TEXT   Base address of the first byte, in hex. Default: 0000",
    "  -c, --count INTEGER  Maximum number of instructions to disassemble (default:",
    "                       all)",
    "  --no-bytes           Omit raw bytes from output (show only mnemonic and",
    "                       operand)",
    "  -v, --verbose        Verbose output",
    "  --version            Show the version and exit.",
    "  --help               Show this message and exit."].map (· ++ "\n")

/-- What the tool is asked to do. -/
structure Request where
  input : String
  output : Option String := none
  address : String := "0000"
  count : Option Int := none
  noBytes : Bool := false
  verbose : Bool := false
  deriving DecidableEq, Repr

/-- The number of rows in an option. -/
def countOption (text : String) : Except UsageError Int :=
  match Text.Numeral.decimal? text.toList with
  | some count => .ok count
  | none => .error (.badValue "'-c' / '--count'" (Text.quoted text ++ " is not a valid integer."))

/-- What is wrong with the value of an option. -/
def optionError? (disk : Disk) (a : Arguments Key) (key : Key) : Option UsageError :=
  match key, a.value? key with
  | .output, some text => (fileComplaint? disk false text).map (.badValue "'-o' / '--output'")
  | .count, some text =>
    match countOption text with
    | .error e => some e
    | .ok _ => none
  | _, _ => none

/-- The name of the file argument in complaints. -/
def inputName : String := "INPUT_FILE"

/-- The request that arguments make.  Faults are found in the options first, in their
order, then in the file and last in superfluous arguments. -/
def Request.ofArguments (disk : Disk) (a : Arguments Key) : Except UsageError Request :=
  match a.keys.findSome? (optionError? disk a) with
  | some e => .error e
  | none =>
    match a.positional with
    | [] => .error (.missingArgument inputName)
    | input :: extra =>
      match fileComplaint? disk true input with
      | some complaint => .error (.badValue ("'" ++ inputName ++ "'") complaint)
      | none =>
        if !extra.isEmpty then .error (.extraArguments extra)
        else
          .ok {
            input
            output := a.value? .output
            address := (a.value? .address).getD "0000"
            count := (a.value? .count).bind fun text => Text.Numeral.decimal? text.toList
            noBytes := a.has .noBytes
            verbose := a.has .verbose }

/-- The heading of a listing. -/
def heading (file : RawText) (size : Nat) (base : Int) : RawText :=
  .ofString "; Disassembly of " ++ file ++
    .ofString ("\n; Size: " ++ toString size ++ " bytes\n; Base address: $" ++ Hex.ofInt 4 base ++
      "\n\n")

/-- The rows of a listing with their bytes or without. -/
def body (noBytes : Bool) (listed : List Row) : String :=
  "\n".intercalate (listed.map fun row => if noBytes then row.promptLine else row.line)

/-- The listing of code, with its heading. -/
def Request.listing (request : Request) (host : Host) (base : Int) (code : List Byte) : RawText :=
  heading (host.name request.input) code.length base ++
    .ofString (body request.noBytes (LineMonitor.listing base code request.count) ++ "\n")

/-- What the tool is doing when it fails. -/
def activity : String := "Disassembly"

/-- Writes a text to a file, which is made before the text is turned into bytes; `told` was
reported before, and `count` is reported at the end. -/
def writeText (request : Request) (host : Host) (output : String) (text : RawText)
    (told count : String) : Result :=
  let fail (e : Failure) : Result := .ofFailure activity request.verbose "" told e
  match host.create output with
  | .error trouble => fail trouble.failure
  | .ok place =>
    match text.encode with
    | .error complaint => { fail (.unforeseen complaint) with written := [(place, [])] }
    | .ok data =>
      match host.write place data with
      | some trouble => fail trouble.failure
      | none =>
        { exitCode := .success
          stderr :=
            told ++ note request.verbose ("Output written to: " ++ host.shown output) ++ count
          written := [(place, data)] }

/-- Lists code that was read from a file. -/
def list (request : Request) (host : Host) (base : Int) (code : List Byte) : Result :=
  let note := note request.verbose
  let told :=
    note ("Input file: " ++ host.shown request.input ++ " (" ++ toString code.length ++
        " bytes)") ++
      note ("Base address: $" ++ Hex.ofInt 4 base)
  let text := request.listing host base code
  let rows := (LineMonitor.listing base code request.count).length
  let count := note ("Instructions disassembled: " ++ toString rows)
  match request.output with
  | none =>
    match host.print [] text.plain with
    | some trouble => .ofFailure activity request.verbose "" told trouble.failure
    | none => { exitCode := .success, stdout := text.plain.shown, stderr := told ++ count }
  | some output => writeText request host output text told count

/-- Does what is asked for. -/
def perform (request : Request) (host : Host) : Result :=
  let fail (e : Failure) : Result := .ofFailure activity request.verbose "" "" e
  match optionAddress request.address "--address" with
  | .error e => fail e
  | .ok base =>
    match host.contents request.input with
    | .error trouble => fail trouble.failure
    | .ok [] => fail (.badValue (host.shown request.input ++ " is empty") (some inputName))
    | .ok code => list request host base code

/-- Runs the disassembler. -/
def run (arguments : List String) (disk : Disk) : Result :=
  match Arguments.read forms arguments with
  | .error e => .ofUsageError name synopsis e
  | .ok a =>
    match a.keys.find? fun key => key == .version || key == .help with
    | some .version => { exitCode := .success, stdout := name ++ ", version " ++ version ++ "\n" }
    | some _ => { exitCode := .success, stdout := help }
    | none =>
      match Request.ofArguments disk a with
      | .error e => .ofUsageError name synopsis e
      | .ok request => perform request (disk.host [])

/-- The paths that arguments name. -/
def paths (arguments : List String) : List Path :=
  match Arguments.read forms arguments with
  | .error _ => []
  | .ok a => ((a.value? .output).toList ++ a.positional.take 1).map Path.read

end LineMonitor.Tool.Disassembler
