import Flowchart.CommandLine.Run
import Std.Time

/-!
# The Program

The only module that touches the world.  It takes a picture of the files that the command
line names, lets the run be computed on that picture, and makes true what came of it:
new directories, changed files, the two output streams, and the exit status.  The run is
computed for a disk that does not fail; one that does shows when the files are written.
-/

namespace Flowchart.Main

/-- Everything that a stream still holds. -/
partial def readAll (stream : IO.FS.Stream) (held : ByteArray) : IO ByteArray := do
  let chunk ← stream.read 65536
  if chunk.isEmpty then return held else readAll stream (held ++ chunk)

/-- The path of a place. -/
def pathOf (place : Place) : String :=
  "/" ++ "/".intercalate place

/-- A place and all places on the way to it from the root. -/
def wayTo (place : Place) : List Place :=
  (List.range (place.length + 1)).map place.take

/-- The places that a path leads through. -/
def placesOf (workingDirectory : Place) (path : String) : List Place :=
  let start := if Path.isAbsolute path.toList then [] else workingDirectory
  let names := Path.names path.toList
  (List.range (names.length + 1)).flatMap fun n =>
    wayTo ((names.take n).foldl Path.followName start)

/-- What stands at a place; the content of a file is read only if it is asked for. -/
def look (place : Place) (withContent : Bool) : IO (Option Entry) := do
  try
    let path ← IO.FS.realPath (pathOf place)
    if ← path.isDir then return some .directory
    else if withContent then return some (.file (← IO.FS.readBinFile path))
    else return some (.file .empty)
  catch _ => return none

/-- The files that some paths lead to; the flag tells whether a content matters. -/
def picture (workingDirectory : Place) (paths : List (String × Bool)) : IO FileSystem := do
  let mut files : FileSystem := ⟨[], workingDirectory⟩
  for place in wayTo workingDirectory do
    files := files.put place .directory
  for (path, withContent) in paths do
    for place in placesOf workingDirectory path do
      if let some entry ← look place withContent then
        files := files.put place entry
  return files

/-- Make true what differs between two pictures. -/
def commit (old new : FileSystem) : IO Unit := do
  for (place, entry) in new.entries do
    if old.entry? place ≠ some entry then
      match entry with
      | .directory => IO.FS.createDir (pathOf place)
      | .file content => IO.FS.writeBinFile (pathOf place) content

/-- The paths that a command line names, and whether the content there matters. -/
def namedPaths (arguments : List String) : List (String × Bool) :=
  match CommandLine.Options.ofArguments arguments with
  | .ok o =>
    (o.outputFile.map (·, false)).toList ++ (o.inputFile.map (·, true)).toList ++
      (o.logFile.map (·, true)).toList
  | .error _ => []

/-- Whether a command line asks for the standard input. -/
def readsInput (arguments : List String) : Bool :=
  match CommandLine.Options.ofArguments arguments with
  | .ok o => o.inputFile.isNone
  | .error _ => false

/-- Run the program in the world. -/
def run (arguments : List String) : IO UInt32 := do
  let workingDirectory := Path.names (← IO.currentDir).toString.toList
  let files ← picture workingDirectory (namedPaths arguments)
  let input ← if readsInput arguments then readAll (← IO.getStdin) .empty else pure .empty
  let stamp := (← Std.Time.PlainDateTime.now).format "uuuu-MM-dd HH:mm:ss"
  let outcome := CommandLine.run stamp arguments input files
  commit files outcome.log.files
  IO.print outcome.output
  IO.eprint outcome.log.console
  match outcome.finish with
  | .status code => return code.toUInt32
  | .undecodable =>
    IO.eprintln "the input is not UTF-8"
    return 1

end Flowchart.Main

/-- The entry point. -/
def main (arguments : List String) : IO UInt32 :=
  Flowchart.Main.run arguments
