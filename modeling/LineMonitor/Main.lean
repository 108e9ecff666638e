import LineMonitor.Tool.Assembler
import LineMonitor.Tool.Disassembler

/-!
# The command-line program

The program is the disassembler if it is called by that name, and the assembler
otherwise.  This module reads the files and the input that a run asks for and carries
out what the run results in.
-/

namespace LineMonitor.Program

open LineMonitor.Tool

/-- The bytes of a byte array. -/
def bytesOf (data : ByteArray) : List Byte :=
  data.toList.map (·.toBitVec)

/-- A byte array of the given bytes. -/
def byteArray (data : List Byte) : ByteArray :=
  ⟨(data.map UInt8.ofBitVec).toArray⟩

/-- The name of a place on the disk. -/
def nameOf (place : Place) : String :=
  (if place.fromRoot then "/" else "") ++ "/".intercalate place.parts

/-- What stands at a place on the disk. -/
def look (place : Place) : IO (Option Node) := do
  let path := System.mkFilePath [nameOf place]
  if ← path.isDir then return some .directory
  if ← path.pathExists then return some (.file (bytesOf (← IO.FS.readBinFile path)))
  return none

/-- What stands at the places that paths lead to and on the way to them. -/
def survey (paths : List Path) : IO Disk := do
  let places := paths.flatMap (·.places)
  places.filterMapM fun place => do return (← look place).map (place, ·)

/-- All bytes that a stream still gives. -/
partial def readAll (stream : IO.FS.Stream) (before : ByteArray := .empty) : IO ByteArray := do
  let chunk ← stream.read 65536
  if chunk.isEmpty then return before else readAll stream (before ++ chunk)

/-- The settings in the environment of the program. -/
def environment : IO Environment := do
  return {
    start := (← IO.getEnv "MINIASM_START").getD ""
    rom := (← IO.getEnv "MINIASM_ROM").getD ""
    listCount := (← IO.getEnv "MINIASM_LIST_COUNT").getD "" }

/-- Carries out the result of a run. -/
def conclude (result : Result) : IO UInt32 := do
  IO.print result.stdout
  IO.eprint result.stderr
  if let some interruption := result.interruption then
    IO.eprintln ("  while " ++ interruption.occasion.text)
  for (place, data) in result.written do
    IO.FS.writeBinFile (nameOf place) (byteArray data)
  return result.exitCode.number.toUInt32

/-- The text that is typed on the terminal; a script takes its place. -/
def terminal (arguments : List String) : IO (List Char) := do
  match Arguments.read Assembler.forms arguments with
  | .ok given =>
    if given.has .script then return []
    let data ← readAll (← IO.getStdin)
    return (Text.Utf8.decode (bytesOf data)).text
  | .error _ => return []

end LineMonitor.Program

open LineMonitor LineMonitor.Program LineMonitor.Tool in
/-- Runs the tool that the program is called by. -/
def main (arguments : List String) : IO UInt32 := do
  if (← IO.appPath).fileStem == some Disassembler.name then
    let disk ← survey (Disassembler.paths arguments)
    conclude (Disassembler.run arguments disk)
  else
    let disk ← survey (Assembler.paths arguments)
    let typed ← terminal arguments
    conclude (Assembler.run arguments (← environment) disk typed)
