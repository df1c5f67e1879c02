import Flowchart.Chart.Drawing

/-!
# Sessions

A chart is built up by a sequence of actions, each of which adds to it and has an
answer.  An action may fail, when a tree that is to be drawn cannot be used; what was
added before the failure stays, and later actions go on from there.  Nodes can also be
made on the side, without a place in the chart, for later actions to use.  A session has
its settings, and a drawing may have settings of its own.

A node can be given further attributes several times in a row, on the side or by
declaring it again, each time starting from the node that came of the time before.

Sets of attributes have sessions too: sets are built from attributes or derived from
members of the family, and each member takes attributes on its own.
-/

namespace Flowchart

/-! ## §1 Charts -/

namespace Graph

/-- One thing that is done to a chart. -/
inductive Action where
  /-- Use up a name. -/
  | takeId
  /-- Make a node. -/
  | create (attributes : List Attribute)
  /-- Make a node on the side, under a name of one's own. -/
  | make (id : String) (attributes : List Attribute)
  /-- Make a node on the side from another one, with further attributes. -/
  | layer (node : Node) (attributes : List Attribute)
  /-- Declare a node again. -/
  | restyle (node : Node) (attributes : List Attribute)
  /-- Lead a loose end to a node. -/
  | connect (way : LooseEnd) (target : Node)
  /-- Draw a statement that the given loose ends enter. -/
  | draw (incoming : List LooseEnd) (statement : Statement) (own : Option Settings := none)
  /-- Draw a whole program. -/
  | drawProgram (root : Statement) (own : Option Settings := none)
deriving Repr

/-- What comes of an action. -/
inductive Answer where
  | id (id : String)
  | node (node : Node)
  | connection (connection : Connection)
  | ends (outgoing : List LooseEnd)
  | ending (ending : Ending)
  | failed (error : TreeError)
deriving Repr

/-- Do one thing to a chart.  `settings` are those of drawings without their own. -/
def perform (settings : Settings) (g : Graph) : Action → Answer × Graph
  | .takeId =>
    let (id, g) := g.nextId
    (.id id, g)
  | .create attributes =>
    let (node, g) := g.createNode attributes
    (.node node, g)
  | .make id attributes => (.node ⟨id, .ofList attributes⟩, g)
  | .layer node attributes => (.node (node.withAttributes attributes), g)
  | .restyle node attributes =>
    let (styled, g) := g.restyle node attributes
    (.node styled, g)
  | .connect way target =>
    let (connection, g) := g.connect way target
    (.connection connection, g)
  | .draw incoming statement own =>
    let drawn := g.draw (own.getD settings) incoming statement
    match drawn.result with
    | .ok outgoing => (.ends outgoing, drawn.graph)
    | .error e => (.failed e, drawn.graph)
  | .drawProgram root own =>
    let drawn := g.drawProgram (own.getD settings) root
    match drawn.result with
    | .ok ending => (.ending ending, drawn.graph)
    | .error e => (.failed e, drawn.graph)

/-- Do several things to a chart, one after the other. -/
def performAll (settings : Settings) (g : Graph) : List Action → List Answer × Graph
  | [] => ([], g)
  | action :: rest =>
    let (answer, g) := g.perform settings action
    let (answers, g) := g.performAll settings rest
    (answer :: answers, g)

/-- One time that a node is given further attributes. -/
inductive Layer where
  /-- On the side. -/
  | aside (attributes : List Attribute)
  /-- By declaring the node again. -/
  | declared (attributes : List Attribute)
deriving Repr

/-- The attributes that are given. -/
def Layer.attributes : Layer → List Attribute
  | aside attributes | declared attributes => attributes

/-- Give a node further attributes several times, each time to the node that came of the
    time before. -/
def layerAll (g : Graph) (node : Node) : List Layer → Node × Graph
  | [] => (node, g)
  | .aside attributes :: rest => g.layerAll (node.withAttributes attributes) rest
  | .declared attributes :: rest =>
    let (styled, g) := g.restyle node attributes
    g.layerAll styled rest

end Graph

/-! ## §2 Attribute sets -/

/-- Attribute sets that were derived from one another, in the order in which they were
    derived. -/
structure AttributeFamily where
  members : List AttributeSet
deriving DecidableEq, Repr

namespace AttributeFamily

/-- No set yet. -/
def empty : AttributeFamily := ⟨[]⟩

/-- The family that starts with one set. -/
def start (s : AttributeSet) : AttributeFamily := ⟨[s]⟩

/-- A member by its number. -/
def member (f : AttributeFamily) (number : Nat) : AttributeSet :=
  f.members.getD number .empty

/-- Add an attribute to one member; whether it was new to the member. -/
def insert (f : AttributeFamily) (number : Nat) (a : Attribute) : Bool × AttributeFamily :=
  (!(f.member number).contains a.kind, ⟨f.members.modify number fun s => s.insert a⟩)

/-- Derive a new member from one, with further attributes. -/
def derive (f : AttributeFamily) (number : Nat) (attributes : List Attribute) :
    AttributeSet × AttributeFamily :=
  let derived := (f.member number).layered attributes
  (derived, ⟨f.members ++ [derived]⟩)

/-- Build a new member from attributes. -/
def build (f : AttributeFamily) (attributes : List Attribute) : AttributeSet × AttributeFamily :=
  let built := .ofList attributes
  (built, ⟨f.members ++ [built]⟩)

/-- One thing that is done to a family. -/
inductive Action where
  /-- Build a new member. -/
  | build (attributes : List Attribute)
  /-- Add an attribute to a member. -/
  | insert (number : Nat) (a : Attribute)
  /-- Derive a new member from one, with further attributes. -/
  | derive (number : Nat) (attributes : List Attribute)
deriving DecidableEq, Repr

/-- What comes of an action. -/
inductive Answer where
  /-- Whether the attribute was new to the member. -/
  | stored (new : Bool)
  /-- The new member. -/
  | member (s : AttributeSet)
deriving DecidableEq, Repr

/-- Do one thing to a family. -/
def perform (f : AttributeFamily) : Action → Answer × AttributeFamily
  | .build attributes =>
    let (built, f) := f.build attributes
    (.member built, f)
  | .insert number a =>
    let (new, f) := f.insert number a
    (.stored new, f)
  | .derive number attributes =>
    let (derived, f) := f.derive number attributes
    (.member derived, f)

/-- Do several things to a family, one after the other. -/
def performAll (f : AttributeFamily) : List Action → List Answer × AttributeFamily
  | [] => ([], f)
  | action :: rest =>
    let (answer, f) := f.perform action
    let (answers, f) := f.performAll rest
    (answer :: answers, f)

end AttributeFamily

end Flowchart
