import LineMonitor.Fault
import LineMonitor.Text.ControlSequence
import LineMonitor.Text.Quoted

/-!
# Failures of the tools

The command-line tools end with one of four exit codes.  A failure fixes the exit code
and the line that reports it.
-/

namespace LineMonitor.Tool

/-- The exit status of a tool. -/
inductive ExitCode where
  | success
  | assemblyError
  | invalidArguments
  | internalError
  deriving DecidableEq, Repr

/-- The number of an exit status. -/
def ExitCode.number : ExitCode → Nat
  | success => 0
  | assemblyError => 1
  | invalidArguments => 2
  | internalError => 3

/-- Why a file could not be read or written. -/
inductive AccessError where
  /-- The system gave an error number and a reason, perhaps for a named file. -/
  | refused (number : Int) (reason : String) (path : Option String)
  /-- There is only a text. -/
  | unexplained (text : String)
  deriving DecidableEq, Repr

namespace AccessError

/-- The error with its number, reason and file. -/
def text : AccessError → String
  | refused number reason path =>
    "[Errno " ++ toString number ++ "] " ++ reason ++
      (match path with
        | some path => ": " ++ Text.quoted path
        | none => "")
  | unexplained text => text

/-- The file that was accessed, if it is known. -/
def path? : AccessError → Option String
  | refused _ _ (some path) => if path.isEmpty then none else some path
  | _ => none

/-- The reason, or the whole error where no reason is given. -/
def reason (e : AccessError) : String :=
  match e with
  | refused _ reason _ => if reason.isEmpty then e.text else reason
  | unexplained text => text

/-- There is no such file or directory. -/
def notFound (path : String) : AccessError :=
  .refused 2 "No such file or directory" (some path)

/-- A part of the path that has to be a directory is a file. -/
def notADirectory (path : String) : AccessError :=
  .refused 20 "Not a directory" (some path)

/-- The path of a file is a directory. -/
def isADirectory (path : String) : AccessError :=
  .refused 21 "Is a directory" (some path)

/-- The path or a part of it has too many bytes. -/
def nameTooLong (path : String) : AccessError :=
  .refused 36 "File name too long" (some path)

end AccessError

/-- Why the system does not do what a tool asks of it. -/
inductive Trouble where
  /-- The system refuses it with an error of its own. -/
  | access (error : AccessError)
  /-- It cannot be done for another reason. -/
  | other (message : String)
  deriving DecidableEq, Repr

/-- Whether the system gave an error of its own. -/
def Trouble.isAccess : Trouble → Bool
  | access _ => true
  | other _ => false

/-- The message of a fault of a line for which no cause is known. -/
def unexplainedMessage : String := "Assembly error"

/-- Why a tool gives up. -/
inductive Failure where
  /-- A line could not be assembled. -/
  | badLine (fault : Fault)
  /-- A line could not be assembled, for no known cause. -/
  | unexplained (detail : Option String) (address : Option Int)
  /-- The monitor could not go on. -/
  | monitor (message : String)
  /-- The value of an option, which the hint names, is no good. -/
  | badValue (message : String) (hint : Option String)
  /-- A file could not be accessed. -/
  | access (error : AccessError)
  /-- Something unforeseen happened. -/
  | unforeseen (message : String)
  deriving DecidableEq, Repr

/-- A report with the address it concerns, if there is one. -/
def atAddress (text : String) : Option Int → String
  | some address => text ++ " at $" ++ Hex.ofInt 4 address
  | none => text

/-- The report of a faulty line, with the detail if the tool is verbose. -/
def faultReport (f : Fault) (verbose : Bool) : String :=
  atAddress (if verbose then f.inFull else f.cause.message) f.address

/-- The report of a faulty line without known cause. -/
def unexplainedReport (detail : Option String) (address : Option Int) (verbose : Bool) :
    String :=
  atAddress (if verbose then withDetail unexplainedMessage (detail.getD "") else unexplainedMessage)
    address

/-- The complaint about a bad value. -/
def badValueText (message : String) : Option String → String
  | some hint => "Invalid value for " ++ hint ++ ": " ++ message
  | none => "Invalid value: " ++ message

/-- The failure of a tool that meets with trouble. -/
def Trouble.failure : Trouble → Failure
  | access error => .access error
  | other message => .unforeseen message

namespace Failure

/-- The words before the report of a line or of the monitor; `activity` says what the
tool was doing. -/
def heading (activity : String) : String :=
  if activity.isEmpty then "Error: " else activity ++ " error: "

/-- The report of a failure. -/
def report (activity : String) (verbose : Bool) : Failure → String
  | badLine fault => heading activity ++ faultReport fault verbose
  | unexplained detail address => heading activity ++ unexplainedReport detail address verbose
  | monitor message => heading activity ++ message
  | badValue message hint => "Error: " ++ badValueText message hint
  | access error =>
    "Error: cannot access" ++ (error.path?.map (" " ++ ·)).getD "" ++ ": " ++ error.reason
  | unforeseen message => "Internal error: " ++ message

/-- The report of a failure as a line of output. -/
def line (activity : String) (verbose : Bool) (f : Failure) : String :=
  Text.plain (f.report activity verbose ++ "\n")

/-- The exit status after a failure. -/
def exitCode : Failure → ExitCode
  | badLine _ | unexplained _ _ | monitor _ => .assemblyError
  | badValue _ _ | access _ => .invalidArguments
  | unforeseen _ => .internalError

end Failure

end LineMonitor.Tool
