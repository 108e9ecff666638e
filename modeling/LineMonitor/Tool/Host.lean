import LineMonitor.Tool.Disk
import LineMonitor.Tool.RawText
import LineMonitor.Tool.Script

/-!
# What a tool runs on

Files, input and output are a tool's `Host`.  Whatever a tool asks of its host can fail; only
reports, which do not go to the output, are taken to arrive.  A path is any text that stands for a
file; its name need not be text itself.  `Disk.host` is the host of files that are known
beforehand, where everything that is shown arrives.
-/

namespace LineMonitor.Tool

/-- The system that a tool runs on. -/
structure Host where
  /-- The contents of a file. -/
  contents : String → Except Trouble (List Byte)
  /-- The input from a script, or without one from the terminal. -/
  input : Option String → Except Trouble Script
  /-- Makes a file empty, to be written. -/
  create : String → Except Trouble Place
  /-- What is in the way of writing a file that was made empty. -/
  write : Place → List Byte → Option Trouble
  /-- What is in the way of showing a text after others, of which the last is first. -/
  print : List RawText → RawText → Option Trouble
  /-- The last part of a path. -/
  name : String → RawText
  /-- A path as reports show it. -/
  shown : String → String

namespace Host

variable (host : Host)

/-- Writes a file. -/
def save (path : String) (data : List Byte) : Except Trouble Place :=
  match host.create path with
  | .error trouble => .error trouble
  | .ok place =>
    match host.write place data with
    | some trouble => .error trouble
    | none => .ok place

/-- What is in the way of an entry of a transcript, after the given texts were shown: its text
cannot be shown, or the input cannot be read on. -/
def trouble? (script : Script) (shown : List RawText) (entry : Entry) : Option Trouble :=
  if Script.isEndOfInput entry then script.trouble?
  else
    let text := entry.output script.echo
    if text.isEmpty then none else host.print shown (.ofString text)

/-- The part of a run before the first entry that something is in the way of, with the trouble. -/
def halted? (script : Script) (shown : List RawText) : Transcript → Option (Transcript × Trouble)
  | [] => none
  | entry :: rest =>
    match host.trouble? script shown entry with
    | some trouble => some ([], trouble)
    | none =>
      (halted? script (.ofString (entry.output script.echo) :: shown) rest).map
        fun (before, trouble) => (entry :: before, trouble)

end Host

/-- The host of the files on a disk, with a text typed on its terminal. -/
def Disk.host (disk : Disk) (terminal : List Char) : Host where
  contents path := (disk.readFile (.read path)).mapError .access
  input
    | none => .ok { text := Text.universal terminal }
    | some script => ((disk.readFile (.read script)).mapError .access).map .ofBytes
  create path := (disk.target (.read path)).mapError .access
  write _ _ := none
  print _ text :=
    match text.encode with
    | .ok _ => none
    | .error complaint => some (.other complaint)
  name path := .ofString (Path.read path).name
  shown path := (Path.read path).text

end LineMonitor.Tool
