import Flowchart.Chart.Drawing
import Flowchart.Dot.Writer
import Flowchart.Program.Parser

/-!
# From Text to Chart

The whole way from a written flow to the DOT text of its chart.  A DOT file is a header,
the lines of the records of the chart, and a closing brace.
-/

namespace Flowchart

/-! ## §1 Files -/

namespace Dot

/-- The line that begins a file.  An empty name is left out. -/
def header (name : String) (strict : Bool) : String :=
  (if strict then "strict digraph" else "digraph") ++
    (if name.isEmpty then "" else " " ++ identifier name) ++ " \x7b"

/-- A chart as a file of the given name. -/
def render (name : String) (strict : Bool) (records : List Record) : String :=
  let opened := ({} : Writer).addLine (header name strict)
  let written := records.foldl Writer.addRecord opened
  (written.addLine "\x7d").consume.1

end Dot

/-- A chart as DOT text, with the name and the strictness of the settings. -/
def Graph.toDot (g : Graph) (settings : Settings) : String :=
  Dot.render settings.graphName settings.strict g.records

/-! ## §2 Programs and texts -/

/-- The DOT text of a program's chart, or why the tree is none. -/
def Statement.toDot (settings : Settings) (root : Statement) : Except TreeError String :=
  let drawn := drawProgram settings root
  drawn.result.map fun _ => drawn.graph.toDot settings

/-- The DOT text of a written flow.  What is read has no holes and a block as its root,
    so only the reading can fail. -/
def compile (settings : Settings) (source : String) : Except SyntaxError String :=
  (parse source).map fun statements =>
    (drawProgram settings (.block statements)).graph.toDot settings

end Flowchart
