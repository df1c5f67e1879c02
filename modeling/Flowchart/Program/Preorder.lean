import Flowchart.Program.Statement

/-!
# Statements in Preorder

A chart has one node for each statement that is no block, and numbers them in preorder:
a statement before those inside it, and a block before the other.  This module says in
terms of the tree alone what there is in preorder, which statements let the flow go on
past them, and which statements the flow can reach.
-/

namespace Flowchart

/-! ## §1 Holes -/

mutual

/-- Whether a tree has no holes. -/
def Statement.holeFree : Statement → Bool
  | .step _ | .exit => true
  | .ifThen _ thenBranch => Statement.holeFreeList thenBranch
  | .ifThenElse _ thenBranch elseBranch =>
    Statement.holeFreeList thenBranch && Statement.holeFreeList elseBranch
  | .whileDo _ body => Statement.holeFreeList body
  | .block statements => Statement.holeFreeList statements
  | .hole => false

/-- Whether no member of a list has holes. -/
def Statement.holeFreeList : List Statement → Bool
  | [] => true
  | s :: rest => s.holeFree && Statement.holeFreeList rest

end

/-! ## §2 Preorder -/

mutual

/-- The statements of a tree that are neither blocks nor holes, in preorder. -/
def Statement.preorder : Statement → List Statement
  | .step text => [.step text]
  | .exit => [.exit]
  | .ifThen condition thenBranch =>
    .ifThen condition thenBranch :: Statement.preorderList thenBranch
  | .ifThenElse condition thenBranch elseBranch =>
    .ifThenElse condition thenBranch elseBranch ::
      (Statement.preorderList thenBranch ++ Statement.preorderList elseBranch)
  | .whileDo condition body => .whileDo condition body :: Statement.preorderList body
  | .block statements => Statement.preorderList statements
  | .hole => []

/-- The statements of the members of a list, in preorder. -/
def Statement.preorderList : List Statement → List Statement
  | [] => []
  | s :: rest => s.preorder ++ Statement.preorderList rest

end

/-- How many statements of a tree are neither blocks nor holes. -/
def Statement.size (s : Statement) : Nat := s.preorder.length

/-- How many statements the members of a list have. -/
def Statement.sizeList (ss : List Statement) : Nat := (Statement.preorderList ss).length

/-! ## §3 Going on -/

mutual

/-- Whether the flow can go on past a statement.  It always can past a loop, whose
    condition may fail. -/
def Statement.canComplete : Statement → Bool
  | .step _ => true
  | .exit => false
  | .ifThen .. => true
  | .ifThenElse _ thenBranch elseBranch =>
    Statement.canCompleteList thenBranch || Statement.canCompleteList elseBranch
  | .whileDo .. => true
  | .block statements => Statement.canCompleteList statements
  | .hole => false

/-- Whether the flow can go on past every member of a list. -/
def Statement.canCompleteList : List Statement → Bool
  | [] => true
  | s :: rest => s.canComplete && Statement.canCompleteList rest

end

/-! ## §4 Reaching -/

mutual

/-- For each statement in preorder, whether the flow can reach it, given whether it can
    reach the whole.  It cannot if a statement before it in a block around it lets
    nothing past. -/
def Statement.reached (here : Bool) : Statement → List Bool
  | .step _ | .exit => [here]
  | .ifThen _ thenBranch => here :: Statement.reachedList here thenBranch
  | .ifThenElse _ thenBranch elseBranch =>
    here :: (Statement.reachedList here thenBranch ++ Statement.reachedList here elseBranch)
  | .whileDo _ body => here :: Statement.reachedList here body
  | .block statements => Statement.reachedList here statements
  | .hole => []

/-- For each statement of the members of a list, whether the flow can reach it. -/
def Statement.reachedList (here : Bool) : List Statement → List Bool
  | [] => []
  | s :: rest =>
    s.reached here ++ Statement.reachedList (here && s.canComplete) rest

end

end Flowchart
