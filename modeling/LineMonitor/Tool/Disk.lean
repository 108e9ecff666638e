import LineMonitor.Address
import LineMonitor.Text.Lines
import LineMonitor.Tool.Failure

/-!
# Files

The tools see the files that their arguments name: for each place a file with its
contents or a directory.  A path is followed part by part from the root or from the
working directory on; every part has to be entered from a directory, also a part `..`
that leads back.  A `Path` is what the tools make of a text: it is shown and followed
without the parts that stand for nothing.
-/

namespace LineMonitor.Tool

/-- What stands at a place. -/
inductive Node where
  | file (data : List Byte)
  | directory
  deriving DecidableEq, Repr

/-- A place on the disk: the parts on the way to it from the root or from the working
directory.  Parts `..` are at the front only, and only on the way from the working
directory. -/
structure Place where
  fromRoot : Bool
  parts : List String := []
  deriving DecidableEq, Repr

namespace Place

/-- The place that a part of a path leads to. -/
def enter (p : Place) (part : String) : Place :=
  if part = ".." then
    match p.parts.getLast? with
    | none => if p.fromRoot then p else { p with parts := [".."] }
    | some last =>
      { p with parts := if last = ".." then p.parts ++ [".."] else p.parts.dropLast }
  else { p with parts := p.parts ++ [part] }

/-- Whether a place is the root, the working directory or further up. -/
def isAncestor (p : Place) : Bool :=
  p.parts.all (· == "..")

end Place

/-- A path: the slashes it begins with, and its parts. -/
structure Path where
  slashes : Nat
  parts : List String
  deriving DecidableEq, Repr

namespace Path

/-- The path that a text writes.  Of slashes at its front one counts, but two are kept;
parts that are empty or `.` are left out. -/
def read (text : String) : Path where
  slashes :=
    let count := (text.toList.takeWhile (· == '/')).length
    if count ≤ 2 then count else 1
  parts := ((Text.pieces '/' text.toList).map String.ofList).filter
    fun part => part != "" && part != "."

/-- The path as it is shown. -/
def text (p : Path) : String :=
  let shown := String.ofList (List.replicate p.slashes '/') ++ "/".intercalate p.parts
  if shown.isEmpty then "." else shown

/-- The last part of a path. -/
def name (p : Path) : String :=
  p.parts.getLastD ""

/-- The place where a path begins. -/
def start (p : Path) : Place where
  fromRoot := p.slashes != 0

/-- The places on the way along a path, with the one it leads to at the end. -/
def places (p : Path) : List Place :=
  (List.range p.parts.length).map fun i => (p.parts.take (i + 1)).foldl Place.enter p.start

end Path

/-- The files and directories that are known. -/
abbrev Disk := List (Place × Node)

/-- Why a path cannot be followed. -/
inductive Obstacle where
  /-- There is nothing at a place on the way. -/
  | missing
  /-- There is a file at a place on the way. -/
  | file
  /-- The path or a part of it is too long. -/
  | tooLong
  deriving DecidableEq, Repr

/-- The error that an obstacle on a path means. -/
def Obstacle.error (path : String) : Obstacle → AccessError
  | missing => .notFound path
  | file => .notADirectory path
  | tooLong => .nameTooLong path

namespace Disk

/-- What stands at a place, if anything does. -/
def at? (d : Disk) (place : Place) : Option Node :=
  if place.isAncestor then some .directory else d.lookup place

/-- The number of bytes of a path, from which on it is too long. -/
def pathLimit : Nat := 4096

/-- The most bytes of a part of a path. -/
def partLimit : Nat := 255

/-- The place that parts of a path lead to from a place on.  Each of them is entered
from a directory; parts that are empty or `.` lead nowhere else. -/
def follow (d : Disk) (place : Place) : List String → Except Obstacle Place
  | [] => .ok place
  | part :: rest =>
    match d.at? place with
    | none => .error .missing
    | some (.file _) => .error .file
    | some .directory =>
      if part = "" ∨ part = "." then follow d place rest
      else if partLimit < part.utf8ByteSize then .error .tooLong
      else follow d (place.enter part) rest

/-- The place that a path as it is written leads to; there may be nothing there. -/
def reach (d : Disk) (text : String) : Except Obstacle Place :=
  if text.isEmpty then .error .missing
  else if pathLimit ≤ text.utf8ByteSize then .error .tooLong
  else
    d.follow { fromRoot := text.toList.head? == some '/' }
      ((Text.pieces '/' text.toList).map String.ofList)

/-- What a path as it is written leads to. -/
def named? (d : Disk) (text : String) : Option Node :=
  match d.reach text with
  | .ok place => d.at? place
  | .error _ => none

/-- The contents of a file. -/
def readFile (d : Disk) (path : Path) : Except AccessError (List Byte) :=
  match d.reach path.text with
  | .error obstacle => .error (obstacle.error path.text)
  | .ok place =>
    match d.at? place with
    | some (.file data) => .ok data
    | some .directory => .error (.isADirectory path.text)
    | none => .error (.notFound path.text)

/-- The place of a file that is written. -/
def target (d : Disk) (path : Path) : Except AccessError Place :=
  match d.reach path.text with
  | .error obstacle => .error (obstacle.error path.text)
  | .ok place =>
    if d.at? place = some .directory then .error (.isADirectory path.text) else .ok place

end Disk

end LineMonitor.Tool
