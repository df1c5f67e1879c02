import Flowchart.CommandLine.Options
import Flowchart.Text.CharacterClass

/-!
# Reading the Command Line

The arguments are read in two passes.  The first looks at each argument alone and tells
options from plain text; everything after `--` is plain.  The second goes through them
in order, gives each option its value and gathers what is left over.

* A long option may be cut short as long as no other begins alike, and its value may
  follow after an equals sign.
* Letters of options without a value may stand together behind one hyphen; what follows
  the letter of an option with a value is its value.
* A value in an argument of its own has to be plain text: it begins with no hyphen, or
  it is a hyphen alone, a negative number, or holds a space.

An ambiguous option is found in the first pass and so is reported before anything else.

What an equals sign means behind letters, and what becomes of a value `--`, is a matter of
convention: both have been settled in two ways, and all that is done here is done by either.
-/

namespace Flowchart.CommandLine

open Text

/-! ## §1 Single arguments -/

/-- What a single argument is. -/
inductive Argument where
  /-- Plain text, possibly the value of an option. -/
  | plain (text : String)
  /-- An option, whether it is spelled with one letter, whether an equals sign sets a
      value off from it, and the value in the argument. -/
  | option (switch : Switch) (short setOff : Bool) (value : Option String)
  /-- Something that looks like an option and is none. -/
  | unknown (text : String)
  /-- `--`, behind which everything is plain. -/
  | separator
deriving DecidableEq, Repr

/-- The text as it was given, for an argument that is no option. -/
def Argument.leftOver : Argument → List String
  | plain text | unknown text => [text]
  | separator => ["--"]
  | option .. => []

/-- Digits, with nothing or digits after a point; there may be no digit before a point,
    but there is one after it. -/
def isUnsignedNumber (cs : List Char) : Bool :=
  let fraction := cs.dropWhile isDecimalDigit
  match fraction with
  | [] => !cs.isEmpty
  | c :: rest => c == '.' && !rest.isEmpty && rest.all isDecimalDigit

/-- A hyphen and a number.  One line feed at the end is let pass. -/
def isNegativeNumber : List Char → Bool
  | '-' :: cs => isUnsignedNumber (if cs.getLast? == some '\n' then cs.dropLast else cs)
  | _ => false

/-- The text before the first equals sign, and the text after it if there is one. -/
def splitAtEquals (cs : List Char) : List Char × Option String :=
  match cs.dropWhile (· ≠ '=') with
  | [] => (cs, none)
  | _ :: value => (cs.takeWhile (· ≠ '='), some (String.ofList value))

/-- The option that a text spells in full, and whether with one letter. -/
def spelled? : List Char → Option (Switch × Bool)
  | ['-', letter] => (Switch.ofLetter? letter).map (·, true)
  | text => (Switch.ofLong? text).map (·, false)

/-- The options that an argument may mean without spelling one in full. -/
def readings (cs : List Char) : List (Switch × Argument) :=
  match cs with
  | '-' :: '-' :: _ =>
    let (stem, value) := splitAtEquals cs
    (Switch.all.filter fun s => stem.isPrefixOf s.long.toList).map fun s =>
      (s, .option s false value.isSome value)
  | '-' :: letter :: value =>
    ((Switch.ofLetter? letter).map fun s =>
      (s, .option s true false (some (String.ofList value)))).toList
  | _ => []

/-- What an argument is that stands before any `--`. -/
def classify (text : String) : Except UsageError Argument :=
  let cs := text.toList
  if cs.head? ≠ some '-' then .ok (.plain text)
  else
    match spelled? cs with
    | some (s, short) => .ok (.option s short false none)
    | none =>
      if cs = ['-'] then .ok (.plain text)
      else
        -- an option in full in front of an equals sign comes before all other readings
        match splitAtEquals cs with
        | (stem, some value) =>
          match spelled? stem with
          | some (s, short) => .ok (.option s short true (some value))
          | none => choose text cs
        | (_, none) => choose text cs
where
  /-- The one option that the argument may mean; without any, it may still be plain. -/
  choose (text : String) (cs : List Char) : Except UsageError Argument :=
    match readings cs with
    | [] =>
      .ok (if isNegativeNumber cs || cs.contains ' ' then .plain text else .unknown text)
    | [(_, argument)] => .ok argument
    | several => .error (.ambiguous text (several.map Prod.fst))

/-- What the arguments are. -/
def classifyAll : List String → Except UsageError (List Argument)
  | [] => .ok []
  | text :: rest =>
    if text = "--" then .ok (.separator :: rest.map .plain)
    else do
      let first ← classify text
      let others ← classifyAll rest
      return first :: others

/-! ## §2 Conventions -/

/-- Two points on which readers of command lines differ.  Where nothing else is said, both
    are as in the older ones. -/
structure Conventions where
  /-- Whether an equals sign sets a value off from the letters in front of it.  Where it
      does, no letters are read behind it or behind another hyphen, and from the first
      letter that means nothing on, the letters are left over.  Where it does not, it is a
      part of the value, and all these are errors. -/
  equalsSetsOff : Bool := false
  /-- Whether a value `--` is kept.  Where it is not, the option gets a value that is no
      text, and the program fails where it needs the text. -/
  keepsHyphens : Bool := false
deriving DecidableEq, Repr

/-- Why nothing is to be done: help was asked for, or the command line makes no sense. -/
inductive Stop where
  | help
  | usage (error : UsageError)
deriving DecidableEq, Repr

/-- The options of one argument: those without a value, then the last, and the value
    that the argument gives to it; and what of the argument is left over. -/
structure Cluster where
  flags : List Switch := []
  last : Switch
  value : Option String := none
  leftOver : List String := []
deriving DecidableEq, Repr

section Reading

variable (conventions : Conventions)

/-- Read the text behind the letter of an option: the value of an option that takes one,
    and else the letter of another option and the text behind that.  `setOff` tells whether
    an equals sign stood in front of the text. -/
def Cluster.read (s : Switch) (setOff : Bool) : List Char → Except UsageError Cluster
  | [] =>
    if s.takesValue then .ok { last := s, value := some "" } else .error (.unwantedValue s "")
  | c :: cs =>
    let text := String.ofList (c :: cs)
    if s.takesValue then .ok { last := s, value := some text }
    else if conventions.equalsSetsOff ∧ (setOff ∨ c = '-') then .error (.unwantedValue s text)
    else
      -- an option without a value: the text behind it has to be more letters
      match Switch.ofLetter? c with
      | none =>
        if conventions.equalsSetsOff then .ok { last := s, leftOver := ["-" ++ text] }
        else .error (.unwantedValue s text)
      | some next =>
        let others : Except UsageError Cluster :=
          match cs with
          | [] => .ok { last := next }
          | '=' :: value =>
            if conventions.equalsSetsOff then Cluster.read next true value
            else Cluster.read next false ('=' :: value)
          | cs => Cluster.read next false cs
        others.map fun cluster => { cluster with flags := s :: cluster.flags }

/-- The options of one argument. -/
def Cluster.ofOption (s : Switch) (short setOff : Bool) :
    Option String → Except UsageError Cluster
  | none => .ok { last := s }
  | some value =>
    if short then Cluster.read conventions s setOff value.toList
    else if s.takesValue then .ok { last := s, value := some value }
    else .error (.unwantedValue s value)

/-- Do what an option asks for.  A value takes the place of an earlier one, also of one that
    was lost. -/
def Options.take (o : Options) (s : Switch) (value : String) : Except Stop Options :=
  let loses := !conventions.keepsHyphens && value == "--"
  let value := if loses then "" else value
  let o := { o with lost := if loses then s :: o.lost else o.lost.filter (· ≠ s) }
  match s with
  | .help => .error .help
  | .printTree => .ok { o with printTree := true }
  | .inputFile => .ok { o with inputFile := some value }
  | .outputFile => .ok { o with outputFile := some value }
  | .name => .ok { o with name := value }
  | .noStrict => .ok { o with strict := false }
  | .stats => .ok { o with stats := true }
  | .verbose => .ok { o with verbose := true }
  | .logFile => .ok { o with logFile := some value }

/-- Do what all options of an argument ask for, the last one with its value. -/
def Options.takeCluster (o : Options) (c : Cluster) (value : String) : Except Stop Options := do
  let o ← c.flags.foldlM (fun o s => o.take conventions s "") o
  o.take conventions c.last value

/-- Go through the arguments; the options, and the texts that are left over. -/
def readArguments (o : Options) : List Argument → Except Stop (Options × List String)
  | [] => .ok (o, [])
  | .option s short setOff value :: rest =>
    match Cluster.ofOption conventions s short setOff value with
    | .error e => .error (.usage e)
    | .ok cluster =>
      match cluster.last.takesValue, cluster.value with
      | true, none =>
        -- the value is the next argument
        match rest with
        | .plain text :: rest => do
          let o ← o.takeCluster conventions cluster text
          readArguments o rest
        | _ => .error (.usage (.missingValue cluster.last))
      | _, value => do
        let o ← o.takeCluster conventions cluster (value.getD "")
        let (o, leftOver) ← readArguments o rest
        return (o, cluster.leftOver ++ leftOver)
  | argument :: rest => do
    let (o, leftOver) ← readArguments o rest
    return (o, argument.leftOver ++ leftOver)

end Reading

/-- What a command line asks for. -/
def Options.ofArguments (arguments : List String) (conventions : Conventions := {}) :
    Except Stop Options := do
  let arguments ← (classifyAll arguments).mapError Stop.usage
  let (o, leftOver) ← readArguments conventions {} arguments
  if leftOver.isEmpty then return o else throw (.usage (.unrecognized leftOver))

end Flowchart.CommandLine
