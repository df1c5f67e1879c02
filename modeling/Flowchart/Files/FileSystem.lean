import Flowchart.Files.Path
import Flowchart.Text.Quoted

/-!
# Files and Directories

A file system as a value: what stands where, and the directory in which a program
works.  Reading, writing and making directories are functions of it, with the four
faults that a path can lead to.

A path is followed name by name, and each name is looked up in a directory.  So a file
in the middle of a path is a fault of its own, and so is a slash after a file.

Writing is done in two steps, and the second may fail when the first is done: a file is
emptied, and then the disk has to take its new content.  What the disk takes is a parameter.
-/

namespace Flowchart

open Text

/-! ## §1 Faults -/

/-- What can be wrong with a path. -/
inductive FileFault where
  | missing
  | alreadyExists
  | notADirectory
  | isADirectory
deriving DecidableEq, Repr

/-- The number of a fault. -/
def FileFault.number : FileFault → Nat
  | missing => 2
  | alreadyExists => 17
  | notADirectory => 20
  | isADirectory => 21

/-- A fault in words. -/
def FileFault.describe : FileFault → String
  | missing => "No such file or directory"
  | alreadyExists => "File exists"
  | notADirectory => "Not a directory"
  | isADirectory => "Is a directory"

/-- A fault and the path that led to it. -/
structure FileError where
  fault : FileFault
  path : String
deriving DecidableEq, Repr

/-- The message for a fault. -/
def FileError.message (e : FileError) : String :=
  "[Errno " ++ toString e.fault.number ++ "] " ++ e.fault.describe ++ ": " ++ quoted e.path

/-- What a device says when it fails: a number, and the words that go with it. -/
structure DeviceFault where
  number : Nat
  description : String
deriving DecidableEq, Repr

/-- The message for a device that failed.  It names no path. -/
def DeviceFault.message (f : DeviceFault) : String :=
  "[Errno " ++ toString f.number ++ "] " ++ f.description

/-- Why a file was not written. -/
inductive WriteError where
  /-- Its path led to a fault. -/
  | unopened (error : FileError)
  /-- It was open, and then the disk failed. -/
  | cutShort (fault : DeviceFault)
deriving DecidableEq, Repr

/-- The message for a file that was not written. -/
def WriteError.message : WriteError → String
  | unopened error => error.message
  | cutShort fault => fault.message

/-! ## §2 File systems -/

/-- What stands at a place. -/
inductive Entry where
  | directory
  | file (content : ByteArray)

/-- Entries are equal when they are of one kind and hold the same bytes. -/
instance : DecidableEq Entry
  | .directory, .directory => isTrue rfl
  | .file a, .file b =>
    match ByteArray.instDecidableEq a b with
    | isTrue h => isTrue (congrArg Entry.file h)
    | isFalse h => isFalse fun heq => h (Entry.file.inj heq)
  | .directory, .file _ | .file _, .directory => isFalse nofun

/-- A place, by the names that lead to it from the root. -/
abbrev Place := List String

/-- What stands where, and where the program works. -/
structure FileSystem where
  entries : List (Place × Entry)
  workingDirectory : Place

namespace FileSystem

/-- What stands at a place.  The root is a directory always. -/
def entry? (fs : FileSystem) (place : Place) : Option Entry :=
  if place = [] then some .directory
  else (fs.entries.find? fun e => e.1 = place).map Prod.snd

/-- The entries with one put at a place, instead of what stood there. -/
def putIn (place : Place) (entry : Entry) : List (Place × Entry) → List (Place × Entry)
  | [] => [(place, entry)]
  | e :: rest => if e.1 = place then (place, entry) :: rest else e :: putIn place entry rest

/-- The file system with an entry put at a place. -/
def put (fs : FileSystem) (place : Place) (entry : Entry) : FileSystem :=
  { fs with entries := putIn place entry fs.entries }

end FileSystem

/-- The disk under the files: whether it fails when a file at a place is to get some
    content, and how many bytes it has taken by then.  A disk fails when it is full, for
    instance, or when a file is to grow larger than files may be. -/
structure Disk where
  failure? : Place → ByteArray → Option (Nat × DeviceFault) := fun _ _ => none

namespace FileSystem

/-! ## §3 Following paths -/

/-- Look a name up in the directory at a place. -/
def follow (fs : FileSystem) (here : Place) (name : String) : Except FileFault Place :=
  match fs.entry? here with
  | none => .error .missing
  | some (.file _) => .error .notADirectory
  | some .directory =>
    let there := Path.followName here name
    if (fs.entry? there).isSome then .ok there else .error .missing

/-- The place where a path starts. -/
def base (fs : FileSystem) (path : List Char) : Place :=
  if Path.isAbsolute path then [] else fs.workingDirectory

/-- The place of what a path names. -/
def locate (fs : FileSystem) (path : List Char) : Except FileFault Place := do
  if path.isEmpty then throw .missing
  let place ← (Path.names path).foldlM fs.follow (fs.base path)
  match fs.entry? place with
  | some (.file _) => if Path.endsInSlash path then throw .notADirectory else return place
  | _ => return place

/-- Whether a path names anything. -/
def pathExists (fs : FileSystem) (path : List Char) : Bool :=
  (fs.locate path).toBool

/-- Whether a path names a directory. -/
def isDirectory (fs : FileSystem) (path : List Char) : Bool :=
  match fs.locate path with
  | .ok place => fs.entry? place == some .directory
  | .error _ => false

/-- The place at which something of the given path can be made: its last name, in the
    directory that the names before lead to.  `occupied` is the fault if the path names
    a directory by its very form. -/
def vacancy (fs : FileSystem) (occupied : FileFault) (path : List Char) :
    Except FileFault Place := do
  if path.isEmpty then throw .missing
  match (Path.names path).getLast? with
  | none => throw occupied
  | some name =>
    let parent ← (Path.names path).dropLast.foldlM fs.follow (fs.base path)
    match fs.entry? parent with
    | none => throw .missing
    | some (.file _) => throw .notADirectory
    | some .directory =>
      if name = "." ∨ name = ".." then throw occupied else return parent ++ [name]

/-! ## §4 Files -/

/-- The content of a file. -/
def read (fs : FileSystem) (path : String) : Except FileError ByteArray :=
  match fs.locate path.toList with
  | .error fault => .error ⟨fault, path⟩
  | .ok place =>
    match fs.entry? place with
    | some (.file content) => .ok content
    | _ => .error ⟨.isADirectory, path⟩

/-- The place of the file that a path names or would name, for writing to it. -/
def filePlace (fs : FileSystem) (path : List Char) : Except FileFault Place := do
  let place ← fs.vacancy .isADirectory path
  if Path.endsInSlash path ∨ fs.entry? place = some .directory then throw .isADirectory
  return place

/-- Write a file, in place of its content if it has any.  Opening it makes it, or empties
    it; so if the disk fails then, it holds what the disk had taken, and the old content is
    gone. -/
def write (fs : FileSystem) (disk : Disk) (path : String) (content : ByteArray) :
    Except WriteError Unit × FileSystem :=
  match fs.filePlace path.toList with
  | .error fault => (.error (.unopened ⟨fault, path⟩), fs)
  | .ok place =>
    match disk.failure? place content with
    | none => (.ok (), fs.put place (.file content))
    | some (taken, fault) =>
      (.error (.cutShort fault), fs.put place (.file (content.extract 0 taken)))

/-- Write to the end of a file; it is made if it is missing.  Of what is appended here, the
    lines of a log, the disk is taken to have room for all. -/
def append (fs : FileSystem) (path : String) (content : ByteArray) :
    Except FileError FileSystem :=
  match fs.filePlace path.toList with
  | .error fault => .error ⟨fault, path⟩
  | .ok place =>
    match fs.entry? place with
    | some (.file old) => .ok (fs.put place (.file (old ++ content)))
    | _ => .ok (fs.put place (.file content))

/-! ## §5 Directories -/

/-- Make one directory. -/
def makeDirectory (fs : FileSystem) (path : List Char) : Except FileFault FileSystem := do
  let place ← fs.vacancy .alreadyExists path
  if (fs.entry? place).isSome then throw .alreadyExists
  return fs.put place .directory

/-- Make one directory, unless the path names one. -/
def ensureDirectory (fs : FileSystem) (path : List Char) : Except FileError Unit × FileSystem :=
  match fs.makeDirectory path with
  | .ok fs => (.ok (), fs)
  | .error fault =>
    if fs.isDirectory path then (.ok (), fs) else (.error ⟨fault, String.ofList path⟩, fs)

/-- The path without its last name, and that name; slashes at the end do not count. -/
def parentAndName (path : List Char) : List Char × List Char :=
  if Path.lastName path = [] then
    (Path.directory (Path.directory path), Path.lastName (Path.directory path))
  else (Path.directory path, Path.lastName path)

theorem length_parent_lt {path : List Char} (h : (parentAndName path).2 ≠ []) :
    (parentAndName path).1.length < path.length := by
  have houter := Path.length_directory_add_lastName_le path
  have hinner := Path.length_directory_add_lastName_le (Path.directory path)
  have hpos := List.length_pos_iff.2 h
  unfold parentAndName at hpos ⊢
  split at hpos <;> simp_all <;> omega

/-- Make a directory and those that are missing on the way to it.  What was made stays
    when a later one cannot be made.  The fault names the first path that could not be
    made; that a file stands on the way shows only at the directory inside it. -/
def makeDirectories (fs : FileSystem) (path : List Char) : Except FileError Unit × FileSystem :=
  let parent := (parentAndName path).1
  let name := (parentAndName path).2
  if _h : name ≠ [] ∧ parent ≠ [] ∧ fs.pathExists parent = false then
    match fs.makeDirectories parent with
    | (.error e, fs) =>
      -- that the parent is there by now is no fault
      if e.fault ≠ .alreadyExists then (.error e, fs)
      else if name = ['.'] then (.ok (), fs)
      else fs.ensureDirectory path
    | (.ok (), fs) => if name = ['.'] then (.ok (), fs) else fs.ensureDirectory path
  else fs.ensureDirectory path
termination_by path.length
decreasing_by exact length_parent_lt _h.1

end FileSystem

end Flowchart
