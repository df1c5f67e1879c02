import Flowchart.Chart.Multigraph

/-!
# Searching a Multigraph

A search in depth walks from node to node, takes each node once, and knows at every
moment the path that led it to where it is.  Met along the way:

* a node that was taken before and lies on the path closes a cycle, and heads a loop;
* a node that no path from the first node reaches is unreachable.

The path never holds a node twice, so it is no longer than the graph has nodes.  That
bounds the depth of the search, with one more level to look at the nodes that a path
through all of them leads back to.
-/

namespace Flowchart

/-- What a search has found: the nodes it has taken and the heads of loops, the latest
    first. -/
structure Search where
  visited : List String := []
  loopHeads : List String := []
deriving DecidableEq, Repr

namespace Search

/-- Take a node. -/
def visit (s : Search) (id : String) : Search :=
  { s with visited := id :: s.visited }

/-- Meet a node that was taken before; it heads a loop if it lies on the path. -/
def meetAgain (s : Search) (path : List String) (id : String) : Search :=
  if path.contains id && !s.loopHeads.contains id then
    { s with loopHeads := id :: s.loopHeads }
  else s

/-- Walk on to the given nodes and to all that they lead to.  `path` led here, the
    latest node first; `depth` bounds how many nodes may still be put on it. -/
def walk (g : Multigraph) : (depth : Nat) → (path children : List String) → Search → Search
  | 0, _, _, s => s
  | depth + 1, path, children, s =>
    children.foldl (fun s child =>
      if s.visited.contains child then s.meetAgain path child
      else walk g depth (child :: path) (g.successors child) (s.visit child)) s

/-- Search from the given nodes, one after the other. -/
def run (g : Multigraph) (starts : List String) : Search :=
  walk g (g.vertices.length + 1) [] starts {}

end Search

namespace Multigraph

/-- The heads of loops, in the order in which a search through the whole graph finds
    them. -/
def loopHeads (g : Multigraph) : List String :=
  (Search.run g g.ids).loopHeads.reverse

/-- The nodes that cannot be reached from the first one. -/
def unreachable (g : Multigraph) : List String :=
  let reached := (Search.run g (g.ids.take 1)).visited
  g.ids.filter fun id => !reached.contains id

end Multigraph

end Flowchart
