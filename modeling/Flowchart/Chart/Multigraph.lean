import Flowchart.Chart.Graph

/-!
# The Multigraph of a Chart

A chart is a history of records; its multigraph is what they come to: each node once,
with its attributes, and the connections that leave it, kept by their targets.  Two
nodes may be connected more than once, and a node may be connected with itself.

Everything stands in the order in which it first came.  All declarations count before
all connections; a node that no record declares appears with its first connection, and
says nothing of itself.

What it means that one node leads to another is said without any search: a path is a list
of nodes, each connected to the next.
-/

namespace Flowchart

/-! ## §1 Tables -/

/-- Change the first entry that answers to `isIt`, or put a new entry at the end. -/
def upsert {α : Type} (isIt : α → Bool) (change : α → α) (new : α) : List α → List α
  | [] => [new]
  | x :: xs => if isIt x then change x :: xs else x :: upsert isIt change new xs

/-! ## §2 Multigraphs -/

/-- The connections from one node to another, by their labels. -/
structure Bundle where
  target : String
  labels : List (Option String)
deriving DecidableEq, Repr

/-- A node with the connections that leave it. -/
structure Vertex where
  id : String
  attributes : AttributeSet
  bundles : List Bundle
deriving DecidableEq, Repr

/-- Nodes with the connections that leave them. -/
structure Multigraph where
  vertices : List Vertex
deriving DecidableEq, Repr

/-- A single connection, with its number among those of the same two nodes. -/
structure MultiEdge where
  source : String
  target : String
  key : Nat
  label : Option String
deriving DecidableEq, Repr

namespace Multigraph

/-- No node. -/
def empty : Multigraph := ⟨[]⟩

/-! ## §3 Adding -/

/-- Declare a node; what a later declaration says is said anew. -/
def declare (g : Multigraph) (n : Node) : Multigraph :=
  ⟨upsert (·.id == n.id) (fun v => { v with attributes := v.attributes.override n.attributes })
    ⟨n.id, n.attributes, []⟩ g.vertices⟩

/-- Make sure that a node is there. -/
def mention (g : Multigraph) (id : String) : Multigraph :=
  ⟨upsert (·.id == id) (fun v => v) ⟨id, .empty, []⟩ g.vertices⟩

/-- The connections that leave a node, with one more. -/
def addToBundles (c : Connection) (bundles : List Bundle) : List Bundle :=
  upsert (·.target == c.target) (fun b => { b with labels := b.labels ++ [c.label] })
    ⟨c.target, [c.label]⟩ bundles

/-- Connect two nodes, the source appearing before the target if they are new. -/
def connect (g : Multigraph) (c : Connection) : Multigraph :=
  -- both nodes are there before the connection is entered at its source
  ⟨((g.mention c.source).mention c.target).vertices.map fun v =>
    if v.id == c.source then { v with bundles := addToBundles c v.bundles } else v⟩

/-! ## §4 Reading -/

/-- The names of the nodes. -/
def ids (g : Multigraph) : List String :=
  g.vertices.map Vertex.id

/-- The nodes that a node is connected to, each once. -/
def successors (g : Multigraph) (id : String) : List String :=
  match g.vertices.find? (·.id == id) with
  | some v => v.bundles.map Bundle.target
  | none => []

/-- The connections that leave a node, numbered for each target. -/
def vertexEdges (v : Vertex) : List MultiEdge :=
  v.bundles.flatMap fun b =>
    b.labels.zipIdx.map fun (label, key) => ⟨v.id, b.target, key, label⟩

/-- All connections, by their sources. -/
def edges (g : Multigraph) : List MultiEdge :=
  g.vertices.flatMap vertexEdges

/-! ## §5 Paths and cycles -/

/-- One node is connected to another. -/
def Joins (g : Multigraph) (a b : String) : Prop :=
  ∃ e ∈ g.edges, e.source = a ∧ e.target = b

/-- `g.Path a through b`: the nodes `through` lead from `a` to `b`, the last of them being
    `b` itself unless there is none. -/
inductive Path (g : Multigraph) : String → List String → String → Prop where
  | nil {a : String} : Path g a [] a
  | cons {a b c : String} {through : List String} (h : g.Joins a b)
      (hrest : Path g b through c) : Path g a (b :: through) c

/-- A path from a node back to it that is not empty; `through` are its nodes. -/
def Cycle (g : Multigraph) (a : String) (through : List String) : Prop :=
  through ≠ [] ∧ g.Path a through a

/-- Some path leads from one node to another. -/
def Reaches (g : Multigraph) (a b : String) : Prop :=
  ∃ through, g.Path a through b

end Multigraph

/-! ## §6 The multigraph of a chart -/

/-- The multigraph that a chart comes to. -/
def Graph.toMultigraph (g : Graph) : Multigraph :=
  g.connections.foldl Multigraph.connect (g.declarations.foldl Multigraph.declare .empty)

end Flowchart
