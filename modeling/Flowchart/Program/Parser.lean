import Flowchart.Program.Statement
import Flowchart.Program.SyntaxError

/-!
# Reading a Flow

A flow is read from left to right by a machine with a stack.  The machine keeps the
statements read so far in the block it is in, the blocks around it that are still
open, and what has to come next.  It takes one token at a time:

```
program    = statement*
statement  = text ";" | exit ";"
           | "if" text block ["else" block]
           | "while" text block
block      = "{" statement* "}"
```

A place of the input may offer two tokens, a keyword and a text that begins with its
letters.  The machine takes the first that may come next.  So after `if` and `while`
everything is the text of the condition, and `else` is a keyword only right after an
`if` without one.

A failure points into the input, at one of its suffixes; what stands in front of that
suffix gives its position.

Main statement: a token is taken off the front of the input (`Parser.State.suffix_of_next?`),
and something is taken each time (`Parser.State.length_lt_of_next?`), so the machine stops.
-/

namespace Flowchart

open Text

namespace Parser

/-! ## §1 The state -/

/-- What an open brace belongs to, with all that was read of it. -/
inductive Header where
  | ifThen (condition : String)
  | otherwise (condition : String) (thenBranch : List Statement)
  | whileDo (condition : String)
deriving DecidableEq, Repr

/-- The statement that is complete when its last block is. -/
def Header.complete (block : List Statement) : Header → Statement
  | .ifThen condition => .ifThen condition block
  | .otherwise condition thenBranch => .ifThenElse condition thenBranch block
  | .whileDo condition => .whileDo condition block

/-- A block that was left unfinished for a block inside it: what the inner block
    belongs to, and the statements before, the latest first. -/
structure Frame where
  header : Header
  before : List Statement
deriving DecidableEq, Repr

/-- What has to come next. -/
inductive Awaiting where
  /-- A statement, or the end of the block. -/
  | statement
  /-- The condition of a branch. -/
  | ifCondition
  /-- The condition of a loop. -/
  | whileCondition
  /-- The brace that opens a block. -/
  | opening (header : Header)
  /-- The semicolon that ends a statement. -/
  | semicolon (statement : Statement)
deriving DecidableEq, Repr

/-- Where the reading stands. -/
structure State where
  /-- The statements of the block being read, the latest first. -/
  done : List Statement
  /-- The blocks around it, the innermost first. -/
  enclosing : List Frame
  /-- What has to come next. -/
  awaiting : Awaiting
deriving DecidableEq, Repr

namespace State

/-- Nothing read, and a statement or the end to come. -/
def initial : State := ⟨[], [], .statement⟩

/-! ## §2 One token -/

/-- Take a token, if it may come next. -/
def step? (s : State) (token : Token) : Option State :=
  match s.awaiting, token with
  | .statement, .ifWord => some { s with awaiting := .ifCondition }
  | .statement, .whileWord => some { s with awaiting := .whileCondition }
  | .statement, .exitWord => some { s with awaiting := .semicolon .exit }
  | .statement, .text cs =>
    some { s with awaiting := .semicolon (.step (String.ofList (collapse cs))) }
  | .statement, .elseWord =>
    -- the branch that the word belongs to stands right in front of it, and is reopened
    match s.done with
    | .ifThen condition thenBranch :: before =>
      some { s with done := before, awaiting := .opening (.otherwise condition thenBranch) }
    | _ => none
  | .statement, .closeBrace =>
    -- the block is complete, and with it the statement that it belongs to
    match s.enclosing with
    | frame :: enclosing =>
      some ⟨frame.header.complete s.done.reverse :: frame.before, enclosing, .statement⟩
    | [] => none
  | .ifCondition, .text cs =>
    some { s with awaiting := .opening (.ifThen (String.ofList (collapse cs))) }
  | .whileCondition, .text cs =>
    some { s with awaiting := .opening (.whileDo (String.ofList (collapse cs))) }
  | .opening header, .openBrace => some ⟨[], ⟨header, s.done⟩ :: s.enclosing, .statement⟩
  | .semicolon statement, .semicolon => some ⟨statement :: s.done, s.enclosing, .statement⟩
  | _, _ => none

/-- The flow that was read, if it may end here. -/
def finish? (s : State) : Option (List Statement) :=
  match s.enclosing, s.awaiting with
  | [], .statement => some s.done.reverse
  | _, _ => none

/-- Take the first token that the input offers and that may come next; the state after
    it, and what is left of the input. -/
def next? (s : State) (input : List Char) : Option (State × List Char) :=
  (Token.candidates input).findSome? fun (token, rest) => (s.step? token).map (·, rest)

theorem length_lt_of_next? {s s' : State} {input rest : List Char}
    (h : s.next? input = some (s', rest)) : rest.length < input.length := by
  obtain ⟨p, hp, hstep⟩ := List.exists_of_findSome?_eq_some h
  obtain ⟨_, _, hrest⟩ := Option.map_eq_some_iff.1 hstep
  have := Token.length_lt_of_mem_candidates hp
  simp_all

theorem suffix_of_next? {s s' : State} {input rest : List Char}
    (h : s.next? input = some (s', rest)) : rest <:+ input := by
  obtain ⟨p, hp, hstep⟩ := List.exists_of_findSome?_eq_some h
  obtain ⟨_, _, hrest⟩ := Option.map_eq_some_iff.1 hstep
  obtain ⟨-, rfl⟩ := Prod.mk.inj hrest
  exact ⟨_, (Token.eq_lexeme_append hp).symm⟩

/-- What is wrong with a place of the input that offers nothing that may come next:
    the first token it offers, or its first character if it offers none. -/
def faultAt (c : Char) (input : List Char) : SyntaxFault :=
  match (Token.candidates (c :: input)).head? with
  | some (token, _) => .unexpected token
  | none => .unreadable c

end State

/-! ## §3 The whole input -/

/-- A fault, and the end of the input that begins where it is. -/
structure Failure where
  fault : SyntaxFault
  suffix : List Char
deriving DecidableEq, Repr

/-- Read the input to its end.  `last` is the end of the input that begins with the
    latest token; there a text is at fault that ends too early. -/
def run (last : List Char) (s : State) (input : List Char) : Except Failure (List Statement) :=
  match _hinput : input.dropWhile isLayout with
  | [] =>
    -- nothing is left: the flow ends here, or too early
    match s.finish? with
    | some statements => .ok statements
    | none => .error ⟨.unfinished, last⟩
  | c :: cs =>
    match _hnext : s.next? (c :: cs) with
    | some (s', rest) => run (c :: cs) s' rest
    | none => .error ⟨State.faultAt c cs, c :: cs⟩
termination_by input.length
decreasing_by
  -- dropping layout makes the input no longer, and a token makes it shorter
  have hrest := State.length_lt_of_next? _hnext
  have hdrop := (List.dropWhile_suffix isLayout (l := input)).length_le
  rw [_hinput] at hdrop
  omega

/-- Read a flow. -/
def parseChars (input : List Char) : Except Failure (List Statement) :=
  run input .initial input

end Parser

/-! ## §4 Reading text -/

/-- The position of a failure: the place after all that stands in front of it. -/
def Parser.Failure.toSyntaxError (input : List Char) (f : Parser.Failure) : SyntaxError :=
  ⟨f.fault, Position.after (input.take (input.length - f.suffix.length))⟩

/-- The statements of a written flow, or why it is none. -/
def parse (source : String) : Except SyntaxError (List Statement) :=
  (Parser.parseChars source.toList).mapError (Parser.Failure.toSyntaxError source.toList)

end Flowchart
