import Flowchart.Chart.Summary
import Flowchart.CommandLine.Arguments
import Flowchart.Compile
import Flowchart.Log
import Flowchart.Program.Outline

/-!
# Running the Program

A run reads a flow from a file or from the standard input, and writes its chart to a
file or to the standard output.  What it has to say goes to the log.

A run is a function of the arguments, the standard input and the files, and of two things
that it finds around it: the conventions of the command line, and the disk.  Its outcome
is how it ended, what was written, and the files as they are then.  It stops at its first
failure:

* status 2 for a command line that makes no sense and for a text that is no flow;
* status 3 for a file that cannot be opened, and for a disk that fails;
* an error of its own for an input that is not UTF-8;
* status 1 for an option whose value is no text, where the text is needed.

A text is a `String`, a sequence of Unicode scalar values, and so are the arguments and the
paths.  Texts with lone surrogates in them, which some systems make of an argument that is
not UTF-8, are outside of what is described here; so is a standard output that fails.
-/

namespace Flowchart.CommandLine

open Text

/-! ## §1 Outcomes -/

/-- How a run ended. -/
inductive Finish where
  /-- With an exit status. -/
  | status (code : Nat)
  /-- The input file is not UTF-8. -/
  | undecodable
deriving DecidableEq, Repr

/-- What came of a run. -/
structure Outcome where
  finish : Finish
  output : String
  log : Log

/-- The statuses that a run ends with. -/
def Finish.ok : Finish := .status 0

/-- The command line makes no sense, or the text is no flow. -/
def Finish.malformed : Finish := .status 2

/-- A file could not be opened, or not be written to its end. -/
def Finish.unavailable : Finish := .status 3

/-- The program met with something that it was not made for. -/
def Finish.unexpected : Finish := .status 1

/-! ## §2 Reading and writing -/

/-- The path of a file in messages; where none is given, or an empty one, another word
    stands for it. -/
def pathOr (word : String) (path : Option String) : String :=
  match path with
  | some path => if path.isEmpty then word else path
  | none => word

/-- The bytes of the flow to read.  Those of the standard input are all there from the
    start. -/
def readSource (files : FileSystem) (input : ByteArray) (path : Option String) :
    Except FileError ByteArray :=
  match path with
  | some path => files.read path
  | none => .ok input

/-- The text that bytes stand for, with line feeds as its only line ends.  The standard
    input is no exception: bytes that are not UTF-8 make it undecodable, as under a locale
    with that encoding; a locale that lets such bytes pass would make it another text. -/
def decode (bytes : ByteArray) : Option String :=
  (String.fromUTF8? bytes).map fun text => String.ofList (unifyNewlines text.toList)

/-- Write a file; the directories on the way to it are made first.  Directories that
    were made stay when the file cannot be written.  A text is written as UTF-8, and every
    text can be. -/
def writeFile (disk : Disk) (files : FileSystem) (path text : String) :
    Except WriteError Unit × FileSystem :=
  let directory := Path.directory path.toList
  let (made, files) :=
    if directory = [] then (.ok (), files) else files.makeDirectories directory
  match made with
  | .error e => (.error (.unopened e), files)
  | .ok () => files.write disk path text.toUTF8

/-! ## §3 The run -/

/-- The settings that options ask for. -/
def Options.settings (o : Options) : Settings :=
  { graphName := o.name, strict := o.strict }

/-- The level that options ask for. -/
def Options.level (o : Options) : LogLevel :=
  if o.verbose then .debug else .info

/-- Write the chart where the options say, and end the run. -/
def deliver (stamp : String) (o : Options) (disk : Disk) (log : Log) (output dot : String) :
    Outcome :=
  let log := log.write stamp .info ("writing to " ++ pathOr "stdout" o.outputFile)
  match o.outputFile with
  | none => ⟨.ok, output ++ dot, log⟩
  | some path =>
    if .outputFile ∈ o.lost then ⟨.unexpected, output, log⟩
    else
      let (written, files) := writeFile disk log.files path dot
      let log := { log with files := files }
      match written with
      | .ok () => ⟨.ok, output, log⟩
      | .error e =>
        let message := "cannot write " ++ pathOr "STDOUT" o.outputFile ++ ": " ++ e.message
        ⟨.unavailable, output, log.write stamp .error message⟩

/-- Log the figures of a chart, and a warning if it has unreachable nodes. -/
def reportSummary (stamp : String) (log : Log) (summary : Summary) : Log :=
  let log := log.write stamp .info summary.countsMessage
  if summary.unreachable.isEmpty then log
  else log.write stamp .warning summary.unreachableMessage

/-- Draw a program that was read, and deliver its chart. -/
def drawAndDeliver (stamp : String) (o : Options) (disk : Disk) (log : Log)
    (output : String) (program : List Statement) : Outcome :=
  let drawn := drawProgram o.settings (.block program)
  let log := drawn.notes.foldl (fun log note => log.write stamp .debug note.message) log
  let log := if o.stats then reportSummary stamp log drawn.graph.summary else log
  deliver stamp o disk log output (drawn.graph.toDot o.settings)

/-- The outline of a program that was read; it has no holes. -/
def outlineText (program : List Statement) : String :=
  match (Statement.block program).renderOutline with
  | .ok text => text
  | .error _ => ""

/-- Go on with the text of a flow. -/
def runText (stamp : String) (o : Options) (disk : Disk) (log : Log) (text : String) :
    Outcome :=
  match parse text with
  | .error e => ⟨.malformed, "", log.write stamp .error e.message⟩
  | .ok program =>
    drawAndDeliver stamp o disk log (if o.printTree then outlineText program else "") program

/-- Run the program as the options ask for.  A value that was lost is no path, and where a
    path is needed nothing is made of it. -/
def runOptions (stamp : String) (o : Options) (disk : Disk) (input : ByteArray)
    (files : FileSystem) : Outcome :=
  if .logFile ∈ o.lost then ⟨.unexpected, "", { files := files }⟩
  else
    let (opened, log) := ({ files := files } : Log).configure o.logFile o.level
    match opened with
    | .error e =>
      -- the console is there without the file
      let message := "cannot open log file " ++ o.logFile.getD "" ++ ": " ++ e.message
      ⟨.unavailable, "", (log.configure none o.level).2.write stamp .error message⟩
    | .ok () =>
      if .inputFile ∈ o.lost then ⟨.unexpected, "", log⟩
      else
        match readSource log.files input o.inputFile with
        | .error e =>
          let message := "cannot read " ++ pathOr "STDIN" o.inputFile ++ ": " ++ e.message
          ⟨.unavailable, "", log.write stamp .error message⟩
        | .ok bytes =>
          match decode bytes with
          -- what is no text is not the business of the log
          | none => ⟨.undecodable, "", log⟩
          | some text => runText stamp o disk log text

/-- Run the program.  `stamp` is the time that log lines show. -/
def run (stamp : String) (arguments : List String) (input : ByteArray) (files : FileSystem)
    (conventions : Conventions := {}) (disk : Disk := {}) : Outcome :=
  match Options.ofArguments arguments conventions with
  | .error .help => ⟨.ok, help, { files := files }⟩
  | .error (.usage e) => ⟨.malformed, "", { files := files, console := e.report }⟩
  | .ok o => runOptions stamp o disk input files

end Flowchart.CommandLine
