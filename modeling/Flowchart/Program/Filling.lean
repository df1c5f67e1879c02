import Flowchart.Program.Preorder

/-!
# Holes and What Fills Them

A tree with holes can be completed: each of its holes is filled by a statement.  The holes
are numbered in preorder, and whoever fills them may choose another statement for each.

A walk through the tree in preorder comes to some statements before it comes to the first
hole.  These are told apart here without any walk, as the places before it.
-/

namespace Flowchart

/-! ## §1 Places -/

mutual

/-- The places of a tree in preorder: its statements that are no blocks, and its holes. -/
def Statement.places : Statement → List Statement
  | .step text => [.step text]
  | .exit => [.exit]
  | .ifThen condition thenBranch =>
    .ifThen condition thenBranch :: Statement.placesList thenBranch
  | .ifThenElse condition thenBranch elseBranch =>
    .ifThenElse condition thenBranch elseBranch ::
      (Statement.placesList thenBranch ++ Statement.placesList elseBranch)
  | .whileDo condition body => .whileDo condition body :: Statement.placesList body
  | .block statements => Statement.placesList statements
  | .hole => [.hole]

/-- The places of the members of a list, in preorder. -/
def Statement.placesList : List Statement → List Statement
  | [] => []
  | s :: rest => s.places ++ Statement.placesList rest

end

/-- How many holes a tree has. -/
def Statement.holes (s : Statement) : Nat := s.places.count .hole

/-- The statements of a tree that stand before its first hole; all of them if it has none. -/
def Statement.beforeHole (s : Statement) : List Statement :=
  s.places.takeWhile fun place => place ≠ .hole

/-! ## §2 Filling -/

mutual

/-- The tree with its holes filled.  The first one has the given number, and the hole of
    number `i` is filled by `fillings i`. -/
def Statement.fill (fillings : Nat → Statement) (number : Nat) : Statement → Statement
  | .step text => .step text
  | .exit => .exit
  | .ifThen condition thenBranch =>
    .ifThen condition (Statement.fillList fillings number thenBranch)
  | .ifThenElse condition thenBranch elseBranch =>
    .ifThenElse condition (Statement.fillList fillings number thenBranch)
      (Statement.fillList fillings (number + (Statement.block thenBranch).holes) elseBranch)
  | .whileDo condition body => .whileDo condition (Statement.fillList fillings number body)
  | .block statements => .block (Statement.fillList fillings number statements)
  | .hole => fillings number

/-- The members of a list with their holes filled. -/
def Statement.fillList (fillings : Nat → Statement) (number : Nat) :
    List Statement → List Statement
  | [] => []
  | s :: rest =>
    s.fill fillings number :: Statement.fillList fillings (number + s.holes) rest

end

end Flowchart
