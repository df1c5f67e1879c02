import Flowchart.Program.Token
import Flowchart.Text.Words
import Flowchart.Text.Quoted

/-!
# Syntax Errors

Why a text is no flow, and where.  A reader of a flow stops at the first piece that
cannot go on from what came before; a text that merely ends too early is reported at
its last token.

Lines are counted by line feeds alone and columns in characters, both from one.
-/

namespace Flowchart

open Text

/-! ## §1 Positions -/

/-- A place in a text, by line and column, both counted from one. -/
structure Position where
  line : Nat
  column : Nat
deriving DecidableEq, Repr

namespace Position

/-- The place where a text begins. -/
def start : Position := ⟨1, 1⟩

/-- The place after one more character. -/
def advance (p : Position) (c : Char) : Position :=
  if c == '\n' then ⟨p.line + 1, 1⟩ else ⟨p.line, p.column + 1⟩

/-- The place after the given characters. -/
def after (cs : List Char) : Position :=
  cs.foldl advance start

end Position

/-! ## §2 Causes -/

/-- What is wrong at the place of an error. -/
inductive SyntaxFault where
  /-- A token that cannot stand here. -/
  | unexpected (token : Token)
  /-- A character with which no token begins. -/
  | unreadable (c : Char)
  /-- The text ends where it has to go on. -/
  | unfinished
deriving DecidableEq, Repr

/-- A token that cannot stand at a place, in words. -/
def unexpectedText (kindWord : String) (lexeme : List Char) (p : Position) : String :=
  "Unexpected token Token('" ++ kindWord ++ "', " ++ quoted (String.ofList lexeme) ++
    ") at line " ++ toString p.line ++ ", column " ++ toString p.column ++ "."

/-- The fault in words.  The end of the text is a token of its own kind, without
    characters. -/
def SyntaxFault.describe (p : Position) : SyntaxFault → String
  | .unexpected token => unexpectedText token.kindWord token.lexeme p
  | .unreadable c =>
    "No terminal matches '" ++ String.singleton c ++ "' in the current parser context, at line " ++
      toString p.line ++ " col " ++ toString p.column
  | .unfinished => unexpectedText "$END" [] p

/-! ## §3 Errors -/

/-- Why a text is no flow, and where. -/
structure SyntaxError where
  fault : SyntaxFault
  position : Position
deriving DecidableEq, Repr

namespace SyntaxError

/-- The line that an error is reported in, if its place has one: lines are counted from one. -/
def line? (e : SyntaxError) : Option Nat :=
  if 0 < e.position.line then some e.position.line else none

/-- The column that an error is reported in, if its place has one. -/
def column? (e : SyntaxError) : Option Nat :=
  if 0 < e.position.column then some e.position.column else none

/-- Where an error is, in words.  A place without a line is taken for the end of the text, and a
    missing column is called `None`. -/
def place (e : SyntaxError) : String :=
  match e.line? with
  | some line =>
    " at line " ++ toString line ++ ", column " ++ e.column?.elim "None" toString
  | none => " at end of input"

/-- The message of an error: its place and the fault in words, on one line. -/
def message (e : SyntaxError) : String :=
  "Malformed flow source" ++ e.place ++ ": " ++
    String.ofList (firstLine (e.fault.describe e.position).toList)

end SyntaxError

end Flowchart
