import Flowchart.Text.CharacterClass

/-!
# Words and Lines

Blanks separate words.  Texts of a flow are kept in one shape: their words, with a single
space between two of them.

Some characters end a line.  A text that is shown on one line is cut at the first of
them; a text that is read in gets line feeds for its other two line ends.
-/

namespace Flowchart.Text

/-! ## §1 Words -/

/-- The run of characters other than blanks that a text begins with, possibly empty,
    and the words after it. -/
def runAndWords : List Char → List Char × List (List Char)
  | [] => ([], [])
  | c :: cs =>
    let (run, after) := runAndWords cs
    if isBlank c then ([], if run.isEmpty then after else run :: after)
    else (c :: run, after)

/-- The words of a text: its maximal runs of characters other than blanks, in order. -/
def words (cs : List Char) : List (List Char) :=
  let (run, after) := runAndWords cs
  if run.isEmpty then after else run :: after

/-- The words of a text with a single space between two of them. -/
def collapse (cs : List Char) : List Char :=
  [' '].intercalate (words cs)

/-- Drop the blanks at both ends. -/
def trim (cs : List Char) : List Char :=
  ((cs.dropWhile isBlank).reverse.dropWhile isBlank).reverse

/-! ## §2 Lines -/

/-- The characters that end a line of shown text: line feed, vertical tab, form feed,
    carriage return, the separators of files, groups and records, next line, and the
    line and paragraph separators. -/
def isLineBreak (c : Char) : Bool :=
  ['\n', '\x0b', '\x0c', '\r', '\x1c', '\x1d', '\x1e', '\u0085', '\u2028', '\u2029'].contains c

/-- A text up to its first line break. -/
def firstLine (cs : List Char) : List Char :=
  cs.takeWhile fun c => !isLineBreak c

/-- Read each line end, be it a carriage return with a line feed, a carriage return
    alone or a line feed alone, as one line feed. -/
def unifyNewlines : List Char → List Char
  | [] => []
  | '\r' :: '\n' :: cs => '\n' :: unifyNewlines cs
  | '\r' :: cs => '\n' :: unifyNewlines cs
  | c :: cs => c :: unifyNewlines cs

/-- Read a carriage return with a line feed as one line feed, from left to right; other
    carriage returns stay. -/
def joinCarriageReturns : List Char → List Char
  | [] => []
  | '\r' :: '\n' :: cs => '\n' :: joinCarriageReturns cs
  | c :: cs => c :: joinCarriageReturns cs

end Flowchart.Text
