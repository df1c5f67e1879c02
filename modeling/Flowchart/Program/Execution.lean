import Flowchart.Chart.Graph
import Flowchart.Program.Preorder

/-!
# Executions

What a program does when it runs, said of the tree alone.  A run meets statements, and
at each it leaves by a way: a condition holds or fails, a step has one way on without a
label, an `exit` has none.  What a run leaves behind is the list of the statements met,
by their numbers in preorder, with the labels of the ways taken.

Only finite runs are spoken of.  A loop may go round any number of times, and its last
round may end the whole run.

A chart can be walked without a look at the program: follow connections from node to
node, until a node is left by a loose end, or no way at all leaves it.  A walk leaves
behind the nodes it met, with the labels of the ways taken, just as a run of a program
does.
-/

namespace Flowchart

/-! ## §1 Traces -/

/-- What a run leaves behind: the statements it met, with the labels of the ways by which
    it left them. -/
abbrev Trace (ν : Type) := List (ν × Option String)

/-- How a run ends: past the last statement, or at an `exit`. -/
inductive RunEnd where
  | completed
  | exited
deriving DecidableEq, Repr

/-! ## §2 Runs of a program -/

mutual

/-- `s.Runs settings number trace e`: a run of `s`, whose statements are numbered from
    `number`, leaves `trace` behind and ends as `e` says. -/
inductive Statement.Runs (settings : Settings) :
    Nat → Statement → Trace Nat → RunEnd → Prop where
  | step {number : Nat} {text : String} :
      Statement.Runs settings number (.step text) [(number, none)] .completed
  | exit {number : Nat} :
      Statement.Runs settings number .exit [(number, none)] .exited
  /-- The condition of a branch holds. -/
  | thenTaken {number : Nat} {condition : String} {thenBranch : List Statement}
      {trace : Trace Nat} {e : RunEnd}
      (h : Statement.RunsList settings (number + 1) thenBranch trace e) :
      Statement.Runs settings number (.ifThen condition thenBranch)
        ((number, some settings.trueLabel) :: trace) e
  /-- The condition of a branch without another block fails. -/
  | thenSkipped {number : Nat} {condition : String} {thenBranch : List Statement} :
      Statement.Runs settings number (.ifThen condition thenBranch)
        [(number, some settings.falseLabel)] .completed
  /-- The condition of a branch with two blocks holds. -/
  | firstTaken {number : Nat} {condition : String} {thenBranch elseBranch : List Statement}
      {trace : Trace Nat} {e : RunEnd}
      (h : Statement.RunsList settings (number + 1) thenBranch trace e) :
      Statement.Runs settings number (.ifThenElse condition thenBranch elseBranch)
        ((number, some settings.trueLabel) :: trace) e
  /-- The condition of a branch with two blocks fails. -/
  | otherTaken {number : Nat} {condition : String} {thenBranch elseBranch : List Statement}
      {trace : Trace Nat} {e : RunEnd}
      (h : Statement.RunsList settings (number + 1 + Statement.sizeList thenBranch) elseBranch
        trace e) :
      Statement.Runs settings number (.ifThenElse condition thenBranch elseBranch)
        ((number, some settings.falseLabel) :: trace) e
  /-- A round of a loop, and the loop once more. -/
  | round {number : Nat} {condition : String} {body : List Statement}
      {trace later : Trace Nat} {e : RunEnd}
      (h : Statement.RunsList settings (number + 1) body trace .completed)
      (hlater : Statement.Runs settings number (.whileDo condition body) later e) :
      Statement.Runs settings number (.whileDo condition body)
        ((number, some settings.trueLabel) :: (trace ++ later)) e
  /-- A round of a loop that ends the run. -/
  | lastRound {number : Nat} {condition : String} {body : List Statement} {trace : Trace Nat}
      (h : Statement.RunsList settings (number + 1) body trace .exited) :
      Statement.Runs settings number (.whileDo condition body)
        ((number, some settings.trueLabel) :: trace) .exited
  /-- The condition of a loop fails. -/
  | loopLeft {number : Nat} {condition : String} {body : List Statement} :
      Statement.Runs settings number (.whileDo condition body)
        [(number, some settings.falseLabel)] .completed
  | block {number : Nat} {statements : List Statement} {trace : Trace Nat} {e : RunEnd}
      (h : Statement.RunsList settings number statements trace e) :
      Statement.Runs settings number (.block statements) trace e

/-- Runs of statements in order; an `exit` on the way ends them all. -/
inductive Statement.RunsList (settings : Settings) :
    Nat → List Statement → Trace Nat → RunEnd → Prop where
  | nil {number : Nat} : Statement.RunsList settings number [] [] .completed
  | stop {number : Nat} {s : Statement} {rest : List Statement} {trace : Trace Nat}
      (h : Statement.Runs settings number s trace .exited) :
      Statement.RunsList settings number (s :: rest) trace .exited
  | cons {number : Nat} {s : Statement} {rest : List Statement} {trace later : Trace Nat}
      {e : RunEnd} (h : Statement.Runs settings number s trace .completed)
      (hlater : Statement.RunsList settings (number + s.size) rest later e) :
      Statement.RunsList settings number (s :: rest) (trace ++ later) e

end

/-! ## §3 Walks in a chart -/

/-- `g.Walk exits id trace e`: a walk from the node `id`, in a chart that the loose ends
    `exits` leave, leaves `trace` behind and ends as `e` says. -/
inductive Graph.Walk (g : Graph) (exits : List LooseEnd) :
    String → Trace String → RunEnd → Prop where
  /-- No way leaves the node. -/
  | halt {id : String}
      (hconnections : ∀ c ∈ g.connections, c.source ≠ id)
      (hexits : ∀ e ∈ exits, e.source.id ≠ id) :
      Graph.Walk g exits id [(id, none)] .exited
  /-- The node is left by a loose end. -/
  | leave {e : LooseEnd} (h : e ∈ exits) :
      Graph.Walk g exits e.source.id [(e.source.id, e.label)] .completed
  /-- The node is left for another. -/
  | follow {c : Connection} {trace : Trace String} {e : RunEnd} (h : c ∈ g.connections)
      (hrest : Graph.Walk g exits c.target trace e) :
      Graph.Walk g exits c.source ((c.source, c.label) :: trace) e

end Flowchart
