import Flowchart.Program.Statement

/-!
# Outlines

A program shown as an indented list of lines, for a reader who wants to see its
structure:

```
all:
  process:
    step:
      expression: "test"
```

A block is introduced by `process:` and its statements stand two columns further in.
The block of an `else` stands under a line of its own, two columns further in than the
first block of its branch.  Texts are shown as they are, without quoting.
-/

namespace Flowchart

/-! ## §1 Lines -/

/-- A line of an outline: how far it is set in, and what it says. -/
structure OutlineLine where
  indent : Nat
  content : String
deriving DecidableEq, Repr

/-- The line as text, with its end. -/
def OutlineLine.render (l : OutlineLine) : String :=
  String.ofList (List.replicate l.indent ' ') ++ l.content ++ "\n"

/-- A text under a name. -/
def namedText (name text : String) : String :=
  name ++ ": \"" ++ text ++ "\""

/-- A block: its title over the lines of its statements. -/
def processLines (indent : Nat) (body : List OutlineLine) : List OutlineLine :=
  ⟨indent, "process:"⟩ :: body

/-! ## §2 Statements -/

mutual

/-- The lines of a statement that is set in by `indent` columns. -/
def Statement.outlineLines (indent : Nat) : Statement → Except TreeError (List OutlineLine)
  | .step text => .ok [⟨indent, "step:"⟩, ⟨indent + 2, namedText "expression" text⟩]
  | .exit => .ok [⟨indent, "step:"⟩, ⟨indent + 2, "EXIT"⟩]
  | .ifThen condition thenBranch => do
    let inner ← Statement.outlineLinesList (indent + 4) thenBranch
    return ⟨indent, "if_branch:"⟩ :: ⟨indent + 2, namedText "condition" condition⟩ ::
      processLines (indent + 2) inner
  | .ifThenElse condition thenBranch elseBranch => do
    let inner ← Statement.outlineLinesList (indent + 4) thenBranch
    let other ← Statement.outlineLinesList (indent + 6) elseBranch
    return ⟨indent, "if_branch:"⟩ :: ⟨indent + 2, namedText "condition" condition⟩ ::
      processLines (indent + 2) inner ++
      ⟨indent + 2, "else_branch:"⟩ :: processLines (indent + 4) other
  | .whileDo condition body => do
    let inner ← Statement.outlineLinesList (indent + 4) body
    return ⟨indent, "while_loop:"⟩ :: ⟨indent + 2, namedText "condition" condition⟩ ::
      processLines (indent + 2) inner
  | .block statements => do
    let inner ← Statement.outlineLinesList (indent + 2) statements
    return processLines indent inner
  | .hole => .error .hole

/-- The lines of statements in order, all set in by `indent` columns. -/
def Statement.outlineLinesList (indent : Nat) :
    List Statement → Except TreeError (List OutlineLine)
  | [] => .ok []
  | s :: rest => do
    let first ← s.outlineLines indent
    let others ← Statement.outlineLinesList indent rest
    return first ++ others

end

/-! ## §3 Whole trees -/

/-- The lines of a whole tree under the title `all:`. -/
def Statement.outline (s : Statement) : Except TreeError (List OutlineLine) := do
  let lines ← s.outlineLines 2
  return ⟨0, "all:"⟩ :: lines

/-- The outline of a tree as text. -/
def Statement.renderOutline (s : Statement) : Except TreeError String := do
  let lines ← s.outline
  return String.join (lines.map OutlineLine.render)

end Flowchart
