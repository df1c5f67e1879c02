import Flowchart.Files.FileSystem

/-!
# Logging

A program logs to the console and, if it is told to, to files.  Each target is a handler
of its own; the console comes first, and there is one handler for a file however its
path is spelled.

Configuring again sets the level of the logger and of all its handlers; it adds the
handler of a file that has none, and takes none away.  A file that cannot be opened gets
no handler, but the level is in force by then.

Messages and paths are of type `String`, so they hold Unicode scalar values only, and every
message can be written as UTF-8; one with a lone surrogate in it is outside of this.

What a whole session comes to can be told without handlers: by the latest level, the files
that were attached, and the messages that reached the level in force.
-/

namespace Flowchart

/-! ## §1 Levels -/

/-- How much a message matters. -/
abbrev LogLevel := Int

namespace LogLevel

/-- Messages for whoever looks into the program. -/
def debug : LogLevel := 10

/-- Messages about what the program does. -/
def info : LogLevel := 20

/-- Messages about what may be wrong. -/
def warning : LogLevel := 30

/-- Messages about what went wrong. -/
def error : LogLevel := 40

/-- Messages about what the program cannot survive. -/
def critical : LogLevel := 50

/-- The word for a level; other levels than the five have a number. -/
def word (level : LogLevel) : String :=
  if level = debug then "DEBUG"
  else if level = info then "INFO"
  else if level = warning then "WARNING"
  else if level = error then "ERROR"
  else if level = critical then "CRITICAL"
  else "Level " ++ toString (level : Int)

end LogLevel

/-! ## §2 Loggers -/

/-- Where messages go. -/
inductive LogTarget where
  | console
  /-- A file, by its absolute path. -/
  | file (path : String)
deriving DecidableEq, Repr

/-- A target and the least level of the messages that go there. -/
structure LogHandler where
  target : LogTarget
  level : LogLevel
deriving DecidableEq, Repr

/-- The least level of all messages, and the handlers that pass them on. -/
structure Logger where
  level : LogLevel := 0
  handlers : List LogHandler := []
deriving DecidableEq, Repr

namespace Logger

/-- Set the level everywhere; a logger without handlers gets the console. -/
def refresh (l : Logger) (level : LogLevel) : Logger where
  level := level
  handlers :=
    if l.handlers.isEmpty then [⟨.console, level⟩]
    else l.handlers.map fun h => { h with level := level }

/-- Whether messages go to a target. -/
def hasTarget (l : Logger) (target : LogTarget) : Bool :=
  l.handlers.any fun h => h.target = target

/-- The level that decides what is logged at all.  Level zero means that none was set;
    then only warnings and worse are logged. -/
def threshold (l : Logger) : LogLevel :=
  if l.level = 0 then .warning else l.level

/-- Whether a message of the given level is logged; a level that is not positive never
    is. -/
def isEnabledFor (l : Logger) (level : LogLevel) : Bool :=
  decide (0 < level) && decide (l.threshold ≤ level)

end Logger

/-! ## §3 Logs -/

/-- A logger with everything it writes to: the console, and files. -/
structure Log where
  logger : Logger := {}
  console : String := ""
  files : FileSystem

namespace Log

/-- A message as a line. -/
def line (stamp : String) (level : LogLevel) (message : String) : String :=
  "[" ++ stamp ++ "] " ++ level.word ++ " - " ++ message ++ "\n"

/-- Write a line to one target. -/
def emit (log : Log) (target : LogTarget) (line : String) : Log :=
  match target with
  | .console => { log with console := log.console ++ line }
  | .file path =>
    match log.files.append path line.toUTF8 with
    | .ok files => { log with files := files }
    | .error _ => log

/-- Log a message: one line to each handler that takes messages of its level. -/
def write (log : Log) (stamp : String) (level : LogLevel) (message : String) : Log :=
  if log.logger.isEnabledFor level then
    (log.logger.handlers.filter fun h => h.level ≤ level).foldl
      (fun log h => log.emit h.target (line stamp level message)) log
  else log

/-- Open a file for logging and add its handler, unless it has one.  The directories on
    the way to it are made. -/
def attach (log : Log) (file : String) (level : LogLevel) : Except FileError Unit × Log :=
  -- spellings of one path are told to be one by its absolute form
  let path := Path.absolute log.files.workingDirectory file.toList
  if log.logger.hasTarget (.file path) then (.ok (), log)
  else
    match log.files.makeDirectories (Path.directory path.toList) with
    | (.error e, files) => (.error e, { log with files := files })
    | (.ok (), files) =>
      -- opening a file makes it, and writes nothing to it
      match files.append path .empty with
      | .error e => (.error e, { log with files := files })
      | .ok files =>
        let handlers := log.logger.handlers ++ [⟨.file path, level⟩]
        (.ok (), { log with files := files, logger := { log.logger with handlers := handlers } })

/-- Configure the log: set its level, and log to a file too if one is given. -/
def configure (log : Log) (file : Option String) (level : LogLevel) :
    Except FileError Unit × Log :=
  let log := { log with logger := log.logger.refresh level }
  match file with
  | none => (.ok (), log)
  | some file => log.attach file level

end Log

/-! ## §4 Sessions -/

/-- A call on a log. -/
inductive LogCall where
  | configure (file : Option String) (level : LogLevel)
  | write (stamp : String) (level : LogLevel) (message : String)
deriving DecidableEq, Repr

namespace LogCall

/-- The level that a call sets. -/
def level? : LogCall → Option LogLevel
  | configure _ level => some level
  | write .. => none

/-- The file that a call is to attach. -/
def file? : LogCall → Option String
  | configure file _ => file
  | write .. => none

end LogCall

namespace Log

/-- Make a call.  Only files can go wrong. -/
def perform (log : Log) : LogCall → Except FileError Unit × Log
  | .configure file level => log.configure file level
  | .write stamp level message => (.ok (), log.write stamp level message)

/-- Make several calls, one after the other; each with what came of it. -/
def performAll (log : Log) : List LogCall → List (LogCall × Except FileError Unit) × Log
  | [] => ([], log)
  | call :: rest =>
    let (result, log) := log.perform call
    let (results, log) := log.performAll rest
    ((call, result) :: results, log)

end Log

/-! ## §5 Histories -/

/-- What a session comes to, told by its calls: the level in force, the files that are
    attached, by their absolute paths, and the lines that each target got. -/
structure LogHistory where
  level : LogLevel := 0
  attached : List String := []
  lines : LogTarget → List String := fun _ => []

namespace LogHistory

/-- Where messages go: to the console, and to each attached file. -/
def targets (h : LogHistory) : List LogTarget :=
  .console :: h.attached.map .file

/-- One more call.  The latest level counts, even if the file of its call could not be
    attached; a message goes everywhere if it reaches the level, and else nowhere. -/
def next (workingDirectory : Place) (h : LogHistory) :
    LogCall × Except FileError Unit → LogHistory
  | (.configure (some file) level, .ok ()) =>
    let path := Path.absolute workingDirectory file.toList
    { h with
      level := level
      attached := if path ∈ h.attached then h.attached else h.attached ++ [path] }
  | (.configure _ level, _) => { h with level := level }
  | (.write stamp level message, _) =>
    if h.level ≤ level then
      { h with
        lines := fun target =>
          if target ∈ h.targets then h.lines target ++ [Log.line stamp level message]
          else h.lines target }
    else h

/-- The history of a session. -/
def ofCalls (workingDirectory : Place) (calls : List (LogCall × Except FileError Unit)) :
    LogHistory :=
  calls.foldl (next workingDirectory) {}

end LogHistory

end Flowchart
