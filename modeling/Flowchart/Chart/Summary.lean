import Flowchart.Chart.Search

/-!
# Summaries

A chart in figures, and the nodes that no path from its first node reaches.
-/

namespace Flowchart

/-- A chart in figures. -/
structure Summary where
  nodes : Nat
  connections : Nat
  /-- How many nodes are marked with a color. -/
  terminals : Nat
  loops : Nat
  unreachable : List String
deriving DecidableEq, Repr

/-- The figures of a multigraph. -/
def Multigraph.summary (g : Multigraph) : Summary where
  nodes := g.vertices.length
  connections := g.edges.length
  terminals := g.vertices.countP fun v => v.attributes.contains .color
  loops := g.loopHeads.length
  unreachable := g.unreachable

/-- The figures of a chart. -/
def Graph.summary (g : Graph) : Summary :=
  g.toMultigraph.summary

/-- The figures on one line. -/
def Summary.countsMessage (s : Summary) : String :=
  "nodes=" ++ toString s.nodes ++ " connections=" ++ toString s.connections ++
    " terminals=" ++ toString s.terminals ++ " loops=" ++ toString s.loops

/-- The unreachable nodes on one line. -/
def Summary.unreachableMessage (s : Summary) : String :=
  "unreachable node(s): " ++ ", ".intercalate s.unreachable

end Flowchart
