import Flowchart.Dot.Escape

/-!
# Identifiers

A name in a DOT file: written bare if it looks like an identifier and is no word of the
language, and between quotation marks otherwise.
-/

namespace Flowchart.Dot

/-- The characters that a bare identifier may begin with: ASCII letters and the
    underscore. -/
def isIdentifierStart (c : Char) : Bool :=
  c.isAlpha || c == '_'

/-- The characters that a bare identifier may go on with: ASCII letters, digits and the
    underscore. -/
def isIdentifierRest (c : Char) : Bool :=
  c.isAlphanum || c == '_'

/-- Whether a name looks like an identifier. -/
def isIdentifier : List Char → Bool
  | [] => false
  | c :: cs => isIdentifierStart c && cs.all isIdentifierRest

/-- A name without one line feed at its end. -/
def dropFinalLineFeed (cs : List Char) : List Char :=
  if cs.getLast? == some '\n' then cs.dropLast else cs

/-- The words of the language, which it knows in any letter case. -/
def reservedWords : List String :=
  ["node", "edge", "graph", "digraph", "subgraph", "strict"]

/-- Whether a name is a word of the language. -/
def isReserved (cs : List Char) : Bool :=
  reservedWords.contains (String.ofList (cs.map Char.toLower))

/-- Whether a name is written bare.  One line feed at the end of an identifier is let
    pass, and a name that ends in one is no word of the language. -/
def isBare (cs : List Char) : Bool :=
  isIdentifier (dropFinalLineFeed cs) && !isReserved cs

/-- A text between quotation marks. -/
def quote (s : String) : String :=
  "\"" ++ escape s ++ "\""

/-- A name as it is written. -/
def identifier (name : String) : String :=
  if isBare name.toList then name else quote name

end Flowchart.Dot
