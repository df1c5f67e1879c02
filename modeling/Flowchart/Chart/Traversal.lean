import Mathlib.Logic.Function.Iterate
import Flowchart.Chart.Multigraph

/-!
# Traversals

A search in depth can be told step by step, one step for each connection that it looks at.
It goes forward to a node that it has not visited, and back from there when it has looked at
everything behind it; or it meets a node that it has visited before.

Who only reads the steps can tell at every moment which nodes the search is inside of: those
that it went forward to and did not come back from.  A node that is met again while the
search is inside of it heads a loop.

The traversal works through a stack of frames, one for each node that it is inside of, and
begins at one node after the other until none is left.
-/

namespace Flowchart

/-! ## §1 Steps -/

/-- What a traversal does at a connection. -/
inductive Move where
  /-- It goes on to a new node. -/
  | forward
  /-- It comes back from a node that it went on to. -/
  | back
  /-- It meets a node that it has visited. -/
  | meet
  /-- It leaves a new node alone, because it is deep enough. -/
  | cutOff
deriving DecidableEq, Repr

/-- A step that is told: what is done, and the connection that it is done at.  A start is
    entered and left by a connection with itself. -/
structure TraversalStep where
  source : String
  target : String
  move : Move
deriving DecidableEq, Repr

/-! ## §2 Traversals -/

/-- A node that the traversal is inside of, and the nodes behind it that it has still to look
    at. -/
structure Frame where
  node : String
  pending : List String
deriving DecidableEq, Repr

/-- A traversal under way. -/
structure Traversal where
  /-- The nodes that it has still to begin at. -/
  starts : List String
  /-- The nodes that it is inside of, the latest first. -/
  frames : List Frame := []
  /-- The nodes that it has visited, the latest first. -/
  visited : List String := []
  /-- What has been told. -/
  steps : List TraversalStep := []
deriving DecidableEq, Repr

namespace Traversal

/-- Tell one more step. -/
def note (t : Traversal) (source target : String) (move : Move) : Traversal :=
  { t with steps := t.steps ++ [⟨source, target, move⟩] }

/-- Go forward to a new node. -/
def enter (t : Traversal) (source target : String) : Traversal :=
  { t with visited := target :: t.visited }.note source target .forward

/-- Work on with these frames. -/
def withFrames (t : Traversal) (frames : List Frame) : Traversal :=
  { t with frames := frames }

/-- Look at the next connection of the latest frame, leave the frame if there is none, or
    begin at the next start if there is no frame.  There are never more frames than the graph
    has nodes. -/
def next (g : Multigraph) (t : Traversal) : Traversal :=
  match t.frames with
  | [] =>
    match t.starts with
    | [] => t
    | root :: starts =>
      let t := { t with starts := starts }
      if t.visited.contains root then t
      else (t.enter root root).withFrames [⟨root, g.successors root⟩]
  | ⟨node, []⟩ :: frames =>
    let parent := (frames.head?.map Frame.node).getD node
    (t.note parent node .back).withFrames frames
  | ⟨node, child :: pending⟩ :: frames =>
    let frames := ⟨node, pending⟩ :: frames
    if t.visited.contains child then (t.note node child .meet).withFrames frames
    else if frames.length < g.vertices.length then
      (t.enter node child).withFrames (⟨child, g.successors child⟩ :: frames)
    else ((t.enter node child).note node child .cutOff).withFrames frames

/-- Whether nothing is left to be done. -/
def finished (t : Traversal) : Bool :=
  t.frames.isEmpty && t.starts.isEmpty

end Traversal

/-- The traversal of the whole graph, so many steps after its beginning. -/
def Multigraph.traversal (g : Multigraph) (count : Nat) : Traversal :=
  (Traversal.next g)^[count] { starts := g.ids }

/-! ## §3 Reading the steps -/

/-- What a reader of steps knows: the nodes that the traversal is inside of, and the heads of
    loops in the order in which they were met. -/
structure StepReading where
  inside : List String := []
  heads : List String := []
deriving DecidableEq, Repr

/-- Read one more step. -/
def StepReading.read (r : StepReading) (step : TraversalStep) : StepReading :=
  match step.move with
  | .forward => { r with inside := step.target :: r.inside }
  | .back => { r with inside := r.inside.filter fun id => id ≠ step.target }
  | .meet =>
    if r.inside.contains step.target && !r.heads.contains step.target then
      { r with heads := r.heads ++ [step.target] }
    else r
  | .cutOff => r

/-- What a reader of all steps so far knows. -/
def Traversal.reading (t : Traversal) : StepReading :=
  t.steps.foldl StepReading.read {}

end Flowchart
