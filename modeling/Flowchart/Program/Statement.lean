/-!
# Statements of a Flow

A flow is an ordered list of statements: plain steps, branches, loops, and `exit`,
which ends the flow where it stands.  Branches and loops carry their own lists of
statements.

A branch with an empty `else` block differs from a branch without one, and so the two
are different constructors.  Trees that were built by hand may nest blocks where a
single statement stands, and may have holes: places where a statement should stand and
none does.  Whatever walks such a tree stops at its first hole.
-/

namespace Flowchart

/-! ## §1 The tree -/

/-- A statement of a flow. -/
inductive Statement where
  /-- A plain action, named by its text. -/
  | step (text : String)
  /-- The end of the flow. -/
  | exit
  /-- A branch whose other way runs on past it. -/
  | ifThen (condition : String) (thenBranch : List Statement)
  /-- A branch with a block for either way. -/
  | ifThenElse (condition : String) (thenBranch elseBranch : List Statement)
  /-- A loop that asks its condition before each round. -/
  | whileDo (condition : String) (body : List Statement)
  /-- Statements in order, in the place of one. -/
  | block (statements : List Statement)
  /-- A place where no statement stands. -/
  | hole
deriving Repr, Inhabited

/-! ## §2 Equality -/

mutual

/-- Equality of statements is decided part by part. -/
def Statement.decEq (a b : Statement) : Decidable (a = b) :=
  match a, b with
  | .step s, .step t => decidable_of_iff (s = t) (by simp)
  | .exit, .exit => isTrue rfl
  | .ifThen c xs, .ifThen d ys =>
    haveI := Statement.decEqList xs ys
    decidable_of_iff (c = d ∧ xs = ys) (by simp)
  | .ifThenElse c xs us, .ifThenElse d ys vs =>
    haveI := Statement.decEqList xs ys
    haveI := Statement.decEqList us vs
    decidable_of_iff (c = d ∧ xs = ys ∧ us = vs) (by simp)
  | .whileDo c xs, .whileDo d ys =>
    haveI := Statement.decEqList xs ys
    decidable_of_iff (c = d ∧ xs = ys) (by simp)
  | .block xs, .block ys =>
    haveI := Statement.decEqList xs ys
    decidable_of_iff (xs = ys) (by simp)
  | .hole, .hole => isTrue rfl
  | .step _, .exit | .step _, .ifThen .. | .step _, .ifThenElse .. | .step _, .whileDo ..
  | .step _, .block _ | .step _, .hole
  | .exit, .step _ | .exit, .ifThen .. | .exit, .ifThenElse .. | .exit, .whileDo ..
  | .exit, .block _ | .exit, .hole
  | .ifThen .., .step _ | .ifThen .., .exit | .ifThen .., .ifThenElse ..
  | .ifThen .., .whileDo .. | .ifThen .., .block _ | .ifThen .., .hole
  | .ifThenElse .., .step _ | .ifThenElse .., .exit | .ifThenElse .., .ifThen ..
  | .ifThenElse .., .whileDo .. | .ifThenElse .., .block _ | .ifThenElse .., .hole
  | .whileDo .., .step _ | .whileDo .., .exit | .whileDo .., .ifThen ..
  | .whileDo .., .ifThenElse .. | .whileDo .., .block _ | .whileDo .., .hole
  | .block _, .step _ | .block _, .exit | .block _, .ifThen .. | .block _, .ifThenElse ..
  | .block _, .whileDo .. | .block _, .hole
  | .hole, .step _ | .hole, .exit | .hole, .ifThen .. | .hole, .ifThenElse ..
  | .hole, .whileDo .. | .hole, .block _ => isFalse nofun

/-- Equality of lists of statements, member by member. -/
def Statement.decEqList (xs ys : List Statement) : Decidable (xs = ys) :=
  match xs, ys with
  | [], [] => isTrue rfl
  | x :: xs, y :: ys =>
    haveI := Statement.decEq x y
    haveI := Statement.decEqList xs ys
    decidable_of_iff (x = y ∧ xs = ys) (by simp)
  | [], _ :: _ | _ :: _, [] => isFalse nofun

end

instance : DecidableEq Statement := Statement.decEq

/-! ## §3 Trees that cannot be used -/

/-- The word for the kind of a statement in messages. -/
def Statement.kindWord : Statement → String
  | .step _ => "Step"
  | .exit => "Exit"
  | .ifThen .. | .ifThenElse .. => "If"
  | .whileDo .. => "While"
  | .block _ => "Block"
  | .hole => "object"

/-- Why a tree cannot be used. -/
inductive TreeError where
  /-- A hole was met where a statement is needed. -/
  | hole
  /-- A whole program has to be a block, and this is its root instead. -/
  | rootNotBlock (root : Statement)
deriving DecidableEq, Repr

/-- The message for a tree that cannot be used. -/
def TreeError.message : TreeError → String
  | .hole => "Unsupported statement: " ++ Statement.hole.kindWord
  | .rootNotBlock root => "Expected Block at program root, got " ++ root.kindWord

end Flowchart
