import LineMonitor.Tool.Arguments
import LineMonitor.Tool.Disk

/-!
# Results of the tools

A run of a tool results in an exit status, text on both output channels and files to be
written.
-/

namespace LineMonitor.Tool

/-- What input was needed for when it could not be read on. -/
inductive Occasion where
  /-- A line to be assembled from the start address on. -/
  | line
  /-- A command of the monitor. -/
  | command
  /-- A line to be assembled for a command. -/
  | lineForCommand
  deriving DecidableEq, Repr

/-- The occasion in words. -/
def Occasion.text : Occasion → String
  | line => "reading a line to assemble"
  | command => "reading a command"
  | lineForCommand => "reading a line to assemble for a command"

/-- What stopped a run that nothing was wrong with until then. -/
structure Interruption where
  occasion : Occasion
  complaint : String
  deriving DecidableEq, Repr

/-- The result of running a tool: what it printed and the files it wrote.  A verbose run
that was interrupted also tells what it was doing. -/
structure Result where
  exitCode : ExitCode
  stdout : String := ""
  stderr : String := ""
  written : List (Place × List Byte) := []
  interruption : Option Interruption := none

namespace Result

/-- A run that ends with a complaint about the arguments. -/
def ofUsageError (tool synopsis : String) (e : UsageError) : Result where
  exitCode := .invalidArguments
  stderr := e.report tool synopsis

/-- A run that ends with a failure after some output. -/
def ofFailure (activity : String) (verbose : Bool) (stdout stderr : String) (f : Failure) :
    Result where
  exitCode := f.exitCode
  stdout := stdout
  stderr := stderr ++ f.line activity verbose

end Result

/-- A line that a verbose tool writes about its work. -/
def note (verbose : Bool) (text : String) : String :=
  if verbose then Text.plain (text ++ "\n") else ""

/-- The version of the tools. -/
def version : String := "1.0.0"

end LineMonitor.Tool
