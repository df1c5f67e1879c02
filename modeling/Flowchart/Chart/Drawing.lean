import Flowchart.Chart.Graph
import Flowchart.Program.Statement
import Flowchart.Text.Quoted

/-!
# Drawing a Program

A statement is drawn into a chart where some ways end loosely: the paths that have run
so far and wait to enter what comes next.  The statement makes an entry node, every
loose end is led to it, and the ways that leave the statement are the new loose ends.

* A step is a rectangle with one way on.
* `exit` is a rectangle with no way on.
* A branch is a diamond.  Its ways on are those that leave its block, and those that
  leave its other block, or the way on which the condition fails.
* A loop is a diamond to which the ways that leave its body are led back.  Its way on
  is the one on which the condition fails.

What a statement adds to the chart depends only on the stem and the next number of the
chart, not on its records.  So a drawing is a value of its own, `Drawing`, and adding it
to a chart is a step of its own.

The ways still loose when the program is over ran off its end without an `exit`.  Their
nodes are declared once more, marked as terminals.

A drawing stops at the first hole of the tree and keeps what it had drawn by then.
-/

namespace Flowchart

open Text

/-! ## §1 Notes -/

/-- What is noted down about the progress of a drawing. -/
inductive Note where
  /-- A step was drawn. -/
  | step (id text : String)
  /-- An exit was drawn. -/
  | exit (id : String)
  /-- A branch was drawn, with so many ways on. -/
  | branch (id : String) (exits : Nat)
  /-- A loop was drawn, with so many ways led back. -/
  | loop (id : String) (backEdges : Nat)
  /-- A program was drawn, and the chart has so many entries and terminals. -/
  | program (declarations connections terminals : Nat)
deriving DecidableEq, Repr

/-- A note in words. -/
def Note.message : Note → String
  | step id text => "step " ++ id ++ ": " ++ quoted text
  | exit id => "exit " ++ id
  | branch id exits => "if " ++ id ++ ": " ++ toString exits ++ " exit(s)"
  | loop id backEdges => "while " ++ id ++ ": " ++ toString backEdges ++ " back-edge(s)"
  | program declarations connections terminals =>
    "lowered program: " ++ toString declarations ++ " declarations, " ++
      toString connections ++ " connections, " ++ toString terminals ++ " terminal(s)"

/-! ## §2 Drawings -/

/-- What a piece of a program adds to a chart. -/
structure Drawing where
  /-- The new entries of the chart. -/
  records : List Record
  /-- What was noted on the way. -/
  notes : List Note
  /-- The next number for a name. -/
  nextNumber : Nat
  /-- The loose ends that leave the piece, unless the drawing stopped at a hole. -/
  outgoing : Except TreeError (List LooseEnd)
deriving Repr

namespace Drawing

/-- A drawing that did not stop. -/
def finished (records : List Record) (notes : List Note) (nextNumber : Nat)
    (outgoing : List LooseEnd) : Drawing :=
  ⟨records, notes, nextNumber, .ok outgoing⟩

/-- A hole was met. -/
def stopped (nextNumber : Nat) : Drawing :=
  ⟨[], [], nextNumber, .error .hole⟩

/-- Go on drawing from where a drawing ends, unless it stopped. -/
def andThen (d : Drawing) (next : Nat → List LooseEnd → Drawing) : Drawing :=
  match d.outgoing with
  | .error _ => d
  | .ok ends =>
    let rest := next d.nextNumber ends
    ⟨d.records ++ rest.records, d.notes ++ rest.notes, rest.nextNumber, rest.outgoing⟩

/-- What follows a drawing that did not stop is added to it. -/
theorem finished_andThen (records : List Record) (notes : List Note) (nextNumber : Nat)
    (outgoing : List LooseEnd) (next : Nat → List LooseEnd → Drawing) :
    (finished records notes nextNumber outgoing).andThen next =
      let rest := next nextNumber outgoing
      ⟨records ++ rest.records, notes ++ rest.notes, rest.nextNumber, rest.outgoing⟩ :=
  rfl

end Drawing

/-! ## §3 Statements -/

/-- Lead all loose ends to a node. -/
def landAll (ends : List LooseEnd) (target : Node) : List Record :=
  ends.map fun e => .edge (e.land target)

/-- The node for a piece of a program: a text in a shape. -/
def labelledNode (stem : String) (number : Nat) (text : String) (shape : Shape) : Node :=
  ⟨numberedId stem number, .ofList [.label text, .shape shape]⟩

/-- Declare a node and lead all loose ends to it. -/
def enter (node : Node) (incoming : List LooseEnd) : List Record :=
  .node node :: landAll incoming node

mutual

/-- Draw a statement.  `stem` and `number` give the next name, and `incoming` are the
    loose ends that enter the statement. -/
def Statement.draw (settings : Settings) (stem : String) (number : Nat)
    (incoming : List LooseEnd) : Statement → Drawing
  | .step text =>
    let node := labelledNode stem number text .rectangle
    .finished (enter node incoming) [.step node.id text] (number + 1) [⟨node, none⟩]
  | .exit =>
    let node := labelledNode stem number settings.exitLabel .rectangle
    .finished (enter node incoming) [.exit node.id] (number + 1) []
  | .ifThen condition thenBranch =>
    let node := labelledNode stem number condition .diamond
    (Drawing.finished (enter node incoming) [] (number + 1)
      [⟨node, some settings.trueLabel⟩]).andThen fun number taken =>
    (Statement.drawList settings stem number taken thenBranch).andThen fun number exits =>
    -- without another block the failed condition leads to whatever comes next
    let exits := exits ++ [⟨node, some settings.falseLabel⟩]
    .finished [] [.branch node.id exits.length] number exits
  | .ifThenElse condition thenBranch elseBranch =>
    let node := labelledNode stem number condition .diamond
    (Drawing.finished (enter node incoming) [] (number + 1)
      [⟨node, some settings.trueLabel⟩]).andThen fun number taken =>
    (Statement.drawList settings stem number taken thenBranch).andThen fun number exits =>
    (Statement.drawList settings stem number
      [⟨node, some settings.falseLabel⟩] elseBranch).andThen fun number otherExits =>
    let exits := exits ++ otherExits
    .finished [] [.branch node.id exits.length] number exits
  | .whileDo condition body =>
    let node := labelledNode stem number condition .diamond
    (Drawing.finished (enter node incoming) [] (number + 1)
      [⟨node, some settings.trueLabel⟩]).andThen fun number taken =>
    (Statement.drawList settings stem number taken body).andThen fun number back =>
    .finished (landAll back node) [.loop node.id back.length] number
      [⟨node, some settings.falseLabel⟩]
  | .block statements => Statement.drawList settings stem number incoming statements
  | .hole => .stopped number

/-- Draw statements in order, each from the loose ends of the one before. -/
def Statement.drawList (settings : Settings) (stem : String) (number : Nat)
    (incoming : List LooseEnd) : List Statement → Drawing
  | [] => .finished [] [] number incoming
  | s :: rest =>
    (s.draw settings stem number incoming).andThen fun number ends =>
      Statement.drawList settings stem number ends rest

end

/-! ## §4 Drawing into a chart -/

/-- The chart after something was drawn into it, what was noted, and what came of it. -/
structure Drawn (α : Type) where
  graph : Graph
  notes : List Note
  result : Except TreeError α
deriving Repr

/-- The chart with a drawing added. -/
def Graph.add (g : Graph) (d : Drawing) : Graph :=
  { g.append d.records with nextNumber := d.nextNumber }

/-- Draw a statement into a chart; the loose ends that leave it come of it. -/
def Graph.draw (g : Graph) (settings : Settings) (incoming : List LooseEnd) (s : Statement) :
    Drawn (List LooseEnd) :=
  let d := s.draw settings g.stem g.nextNumber incoming
  ⟨g.add d, d.notes, d.outgoing⟩

/-! ## §5 Whole programs -/

/-- How a program comes to its end in a chart. -/
structure Ending where
  /-- The ways that run off the end of the program. -/
  exits : List LooseEnd
  /-- The nodes that they leave, each once, as they were declared anew. -/
  terminals : List Node
deriving DecidableEq, Repr

/-- The nodes that loose ends leave, each once, marked as terminals. -/
def terminalNodes (settings : Settings) (exits : List LooseEnd) : List Node :=
  (firstOccurrences Node.id (exits.map LooseEnd.source)).map fun n =>
    n.withAttributes [.color settings.terminalColor, .penWidth settings.terminalPenWidth]

/-- Draw a whole program into a chart.  Its root has to be a block; no way leads to its
    first statement, and the nodes at which it runs off its end are marked. -/
def Graph.drawProgram (g : Graph) (settings : Settings) (root : Statement) : Drawn Ending :=
  match root with
  | .block _ =>
    let drawn := g.draw settings [] root
    match drawn.result with
    | .error e => ⟨drawn.graph, drawn.notes, .error e⟩
    | .ok exits =>
      let terminals := terminalNodes settings exits
      let graph := drawn.graph.append (terminals.map Record.node)
      let note := Note.program graph.declarations.length graph.connections.length terminals.length
      ⟨graph, drawn.notes ++ [note], .ok ⟨exits, terminals⟩⟩
  | root => ⟨g, [], .error (.rootNotBlock root)⟩

/-- The chart of a program, and how the program comes to its end in it. -/
def drawProgram (settings : Settings) (root : Statement) : Drawn Ending :=
  Graph.drawProgram {} settings root

end Flowchart
