import Flowchart.Text.Quoted

/-!
# Options

What can be asked of the program on its command line, how each option is spelled, and
what is said about the options when help is asked for or the command line makes no
sense.
-/

namespace Flowchart.CommandLine

open Text

/-! ## §1 The options -/

/-- An option of the program. -/
inductive Switch where
  | help
  | printTree
  | inputFile
  | outputFile
  | name
  | noStrict
  | stats
  | verbose
  | logFile
deriving DecidableEq, Repr

namespace Switch

/-- All options, in the order in which they are listed. -/
def all : List Switch :=
  [help, printTree, inputFile, outputFile, name, noStrict, stats, verbose, logFile]

/-- The long spelling, with its two hyphens. -/
def long : Switch → String
  | help => "--help"
  | printTree => "--print-ast"
  | inputFile => "--input-file"
  | outputFile => "--output-file"
  | name => "--name"
  | noStrict => "--no-strict"
  | stats => "--stats"
  | verbose => "--verbose"
  | logFile => "--log-file"

/-- The letter of the short spelling. -/
def letter? : Switch → Option Char
  | help => some 'h'
  | printTree => some 'a'
  | inputFile => some 'f'
  | outputFile => some 'o'
  | verbose => some 'v'
  | name | noStrict | stats | logFile => none

/-- Whether a value belongs to the option. -/
def takesValue : Switch → Bool
  | inputFile | outputFile | name | logFile => true
  | help | printTree | noStrict | stats | verbose => false

/-- All spellings, as messages show them. -/
def spellings (s : Switch) : String :=
  match s.letter? with
  | some letter => "-" ++ String.singleton letter ++ "/" ++ s.long
  | none => s.long

/-- The option of a long spelling. -/
def ofLong? (text : List Char) : Option Switch :=
  all.find? fun s => s.long.toList = text

/-- The option of a letter. -/
def ofLetter? (letter : Char) : Option Switch :=
  all.find? fun s => s.letter? = some letter

end Switch

/-! ## §2 What was asked for -/

/-- What the program is asked to do. -/
structure Options where
  /-- Whether the outline of the program is shown too. -/
  printTree : Bool := false
  /-- The file to read, if it is not the standard input. -/
  inputFile : Option String := none
  /-- The file to write, if it is not the standard output. -/
  outputFile : Option String := none
  /-- The name of the written graph. -/
  name : String := "flow"
  /-- Whether the written graph is strict. -/
  strict : Bool := true
  /-- Whether the figures of the chart are logged. -/
  stats : Bool := false
  /-- Whether the progress of the drawing is logged. -/
  verbose : Bool := false
  /-- The file to log to, besides the console. -/
  logFile : Option String := none
  /-- The options whose value was lost on the way (see `Conventions.keepsHyphens`); an
      empty text stands in for it. -/
  lost : List Switch := []
deriving DecidableEq, Repr

/-- Why a command line makes no sense. -/
inductive UsageError where
  /-- Several options begin like the argument. -/
  | ambiguous (argument : String) (options : List Switch)
  /-- An option lacks its value. -/
  | missingValue (option : Switch)
  /-- An option got a value and takes none. -/
  | unwantedValue (option : Switch) (value : String)
  /-- Arguments are left over. -/
  | unrecognized (arguments : List String)
deriving DecidableEq, Repr

/-- The message for a command line that makes no sense. -/
def UsageError.message : UsageError → String
  | ambiguous argument options =>
    "ambiguous option: " ++ argument ++ " could match " ++
      ", ".intercalate (options.map Switch.long)
  | missingValue option => "argument " ++ option.spellings ++ ": expected one argument"
  | unwantedValue option value =>
    "argument " ++ option.spellings ++ ": ignored explicit argument " ++ quoted value
  | unrecognized arguments => "unrecognized arguments: " ++ " ".intercalate arguments

/-! ## §3 Help -/

/-- How the program is called. -/
def usage : String :=
  String.join
    ["usage: flowdot [-h] [-a] [-f INPUT_FILE] [-o OUTPUT_FILE] [--name NAME]\n",
     "               [--no-strict] [--stats] [-v] [--log-file LOG_FILE]\n"]

/-- What is shown when help is asked for. -/
def help : String :=
  String.join
    [usage,
     "\n",
     "Compile flow pseudocode into a Graphviz DOT flowchart\n",
     "\n",
     "options:\n",
     "  -h, --help            show this help message and exit\n",
     "  -a, --print-ast       Print abstract syntax tree\n",
     "  -f INPUT_FILE, --input-file INPUT_FILE\n",
     "                        The input .flow file, reads from STDIN by default\n",
     "  -o OUTPUT_FILE, --output-file OUTPUT_FILE\n",
     "                        The output .dot file, writes to STDOUT by default\n",
     "  --name NAME           Graph name in the DOT output\n",
     "  --no-strict           Write `digraph` instead of `strict digraph`\n",
     "  --stats               Log node/edge/terminal/loop counts\n",
     "  -v, --verbose         Debug logging\n",
     "  --log-file LOG_FILE   Also append log lines to this file\n"]

/-- What is shown when the command line makes no sense. -/
def UsageError.report (e : UsageError) : String :=
  usage ++ "flowdot: error: " ++ e.message ++ "\n"

end Flowchart.CommandLine
