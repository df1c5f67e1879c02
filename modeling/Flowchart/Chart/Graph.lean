import Flowchart.Chart.AttributeSet
import Flowchart.FirstOccurrence

/-!
# Charts

A chart is a list of records: declarations of nodes, and connections between nodes,
in the order in which they were made.  Records are only ever added.  A node may be
declared again, with more attributes; its last declaration is the one that counts.

The chart names its nodes itself: a stem that all names share, and a running number.
A number is used once.

The words and marks that a chart is drawn with, and how it is written down, are settings.
-/

namespace Flowchart

/-! ## §1 Settings -/

/-- How a program is drawn and written. -/
structure Settings where
  /-- The name of the written graph; an empty one is left out. -/
  graphName : String := "flow"
  /-- Whether the written graph merges parallel connections when it is laid out. -/
  strict : Bool := true
  /-- The label of the node at which the flow is ended. -/
  exitLabel : String := "Exit"
  /-- The label of the way on which a condition holds. -/
  trueLabel : String := "True"
  /-- The label of the way on which it does not. -/
  falseLabel : String := "False"
  /-- The color of a node at which the flow runs out of statements. -/
  terminalColor : String := "red"
  /-- The pen width of such a node. -/
  terminalPenWidth : Int := 3
deriving DecidableEq, Repr

/-! ## §2 Nodes and connections -/

/-- A node of a chart: its name and what is said of it. -/
structure Node where
  id : String
  attributes : AttributeSet
deriving DecidableEq, Repr

/-- The node with further attributes under those it has. -/
def Node.withAttributes (n : Node) (attributes : List Attribute) : Node :=
  { n with attributes := n.attributes.layered attributes }

/-- A way that leaves a node and leads nowhere yet. -/
structure LooseEnd where
  source : Node
  label : Option String
deriving DecidableEq, Repr

/-- A way from one node to another. -/
structure Connection where
  source : String
  target : String
  label : Option String
deriving DecidableEq, Repr

/-- The connection that a loose end becomes when it is led to a node. -/
def LooseEnd.land (e : LooseEnd) (target : Node) : Connection :=
  ⟨e.source.id, target.id, e.label⟩

/-- An entry of a chart. -/
inductive Record where
  | node (declaration : Node)
  | edge (connection : Connection)
deriving DecidableEq, Repr

namespace Record

/-- The node that a record declares. -/
def node? : Record → Option Node
  | node declaration => some declaration
  | edge _ => none

/-- The connection that a record holds. -/
def edge? : Record → Option Connection
  | node _ => none
  | edge connection => some connection

end Record

/-! ## §3 Charts -/

/-- A chart, and the names it has still to give. -/
structure Graph where
  /-- What the names of all its nodes begin with. -/
  stem : String := "n"
  /-- The number in the next name. -/
  nextNumber : Nat := 0
  /-- Its entries, in the order in which they were made. -/
  records : List Record := []
deriving DecidableEq, Repr

/-- The name with a given number. -/
def numberedId (stem : String) (number : Nat) : String :=
  stem ++ toString number

namespace Graph

/-! ## §4 Adding -/

/-- The next name, used up. -/
def nextId (g : Graph) : String × Graph :=
  (numberedId g.stem g.nextNumber, { g with nextNumber := g.nextNumber + 1 })

/-- The chart with further entries. -/
def append (g : Graph) (records : List Record) : Graph :=
  { g with records := g.records ++ records }

/-- A new node. -/
def createNode (g : Graph) (attributes : List Attribute) : Node × Graph :=
  let (id, g) := g.nextId
  let node : Node := ⟨id, .ofList attributes⟩
  (node, g.append [.node node])

/-- Lead a loose end to a node. -/
def connect (g : Graph) (e : LooseEnd) (target : Node) : Connection × Graph :=
  (e.land target, g.append [.edge (e.land target)])

/-- Declare a node again, with further attributes. -/
def restyle (g : Graph) (node : Node) (attributes : List Attribute) : Node × Graph :=
  let styled := node.withAttributes attributes
  (styled, g.append [.node styled])

/-! ## §5 Reading -/

/-- The declarations of nodes, repeated ones included. -/
def declarations (g : Graph) : List Node :=
  g.records.filterMap Record.node?

/-- The connections. -/
def connections (g : Graph) : List Connection :=
  g.records.filterMap Record.edge?

/-- The names of the declared nodes, each once, in the order of their first
    declarations. -/
def nodeIds (g : Graph) : List String :=
  (firstOccurrences Node.id g.declarations).map Node.id

/-- The last declaration of a node. -/
def finalDeclaration? (g : Graph) (id : String) : Option Node :=
  g.declarations.reverse.find? fun n => n.id = id

end Graph

end Flowchart
