import Flowchart.Chart.Graph
import Flowchart.Dot.Identifier
import Flowchart.Text.Words

/-!
# Writing DOT

A DOT file is written line by line, one line for each record of the chart in order.
Nothing is merged: that the last declaration of a node counts is the file format's own
rule.
-/

namespace Flowchart

open Text

/-! ## §1 Entries -/

/-- An attribute as it is written.  Texts of labels are quoted; names of colors are
    written as they are. -/
def Attribute.toDot : Attribute → String
  | .label text => "label=" ++ Dot.quote text
  | .shape kind => "shape=" ++ kind.name
  | .color name => "color=" ++ name
  | .penWidth width => "penwidth=" ++ toString width

/-- The attributes of a node, between brackets; nothing if there are none. -/
def AttributeSet.toDot (s : AttributeSet) : String :=
  if s.entries.isEmpty then "" else " [" ++ ", ".intercalate (s.entries.map Attribute.toDot) ++ "]"

/-- The declaration of a node. -/
def Node.toDot (n : Node) : String :=
  Dot.identifier n.id ++ n.attributes.toDot ++ ";"

/-- A connection, with its label if it has one. -/
def Connection.toDot (c : Connection) : String :=
  let label := match c.label with
    | some text => " [label=" ++ Dot.quote text ++ "]"
    | none => ""
  Dot.identifier c.source ++ " -> " ++ Dot.identifier c.target ++ label ++ ";"

/-- An entry of a chart. -/
def Record.toDot : Record → String
  | .node declaration => declaration.toDot
  | .edge connection => connection.toDot

namespace Dot

/-! ## §2 Lines -/

/-- The lines written so far. -/
structure Writer where
  lines : List String := []
deriving DecidableEq, Repr

namespace Writer

/-- Write a line, without the blanks at its ends. -/
def addLine (w : Writer) (line : String) : Writer :=
  ⟨w.lines ++ [String.ofList (trim line.toList)]⟩

/-- Write an entry of a chart. -/
def addRecord (w : Writer) (r : Record) : Writer :=
  w.addLine r.toDot

/-- The lines written so far as text; the writer is empty after that. -/
def consume (w : Writer) : String × Writer :=
  (String.join (w.lines.map (· ++ "\n")), {})

end Writer

end Dot

end Flowchart
