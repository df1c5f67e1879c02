import Flowchart.Program.Token
import Flowchart.Program.Statement

/-!
# Written Programs

Which programs can be written down, and in which ways, said without the parser.

A text of a flow is never empty, has single spaces between its words, and holds no brace
and no semicolon.  The text of a step is also not `exit`, and does not begin with a word
that would make it something else.

Between two tokens any layout may stand, and each space inside a text may be any layout
that is not empty.
-/

namespace Flowchart

open Text

/-! ## §1 Programs that can be written -/

/-- A text begins with a whole word: the word is not gone on with. -/
def BeginsWithWord (word text : List Char) : Prop :=
  ∃ rest, text = word ++ rest ∧ ∀ c ∈ rest.head?, isWordChar c = false

/-- A text that can be written down and read back. -/
structure IsWritable (text : String) : Prop where
  nonempty : text.toList ≠ []
  collapsed : collapse text.toList = text.toList
  plain : ∀ c ∈ text.toList, Token.isTextChar c = true

/-- A text that can be written down as a step.  `afterBranch` tells that a branch without
    an `else` stands right in front of it. -/
structure IsWritableStep (afterBranch : Bool) (text : String) : Prop where
  writable : IsWritable text
  not_exit : text.toList ≠ Token.exitWord.lexeme
  not_if : ¬BeginsWithWord Token.ifWord.lexeme text.toList
  not_while : ¬BeginsWithWord Token.whileWord.lexeme text.toList
  not_else : afterBranch = true → ¬BeginsWithWord Token.elseWord.lexeme text.toList

/-- Whether a statement is a branch without an `else`. -/
def Statement.isOpenBranch : Statement → Bool
  | .ifThen .. => true
  | _ => false

mutual

/-- A statement that can be written down, after a branch without an `else` or not. -/
inductive Statement.WellFormed : Bool → Statement → Prop where
  | step {afterBranch : Bool} {text : String} (h : IsWritableStep afterBranch text) :
      Statement.WellFormed afterBranch (.step text)
  | exit {afterBranch : Bool} : Statement.WellFormed afterBranch .exit
  | ifThen {afterBranch : Bool} {condition : String} {thenBranch : List Statement}
      (hcondition : IsWritable condition) (h : Statement.WellFormedList false thenBranch) :
      Statement.WellFormed afterBranch (.ifThen condition thenBranch)
  | ifThenElse {afterBranch : Bool} {condition : String} {thenBranch elseBranch : List Statement}
      (hcondition : IsWritable condition) (h : Statement.WellFormedList false thenBranch)
      (hother : Statement.WellFormedList false elseBranch) :
      Statement.WellFormed afterBranch (.ifThenElse condition thenBranch elseBranch)
  | whileDo {afterBranch : Bool} {condition : String} {body : List Statement}
      (hcondition : IsWritable condition) (h : Statement.WellFormedList false body) :
      Statement.WellFormed afterBranch (.whileDo condition body)

/-- Statements that can be written down in order. -/
inductive Statement.WellFormedList : Bool → List Statement → Prop where
  | nil {afterBranch : Bool} : Statement.WellFormedList afterBranch []
  | cons {afterBranch : Bool} {s : Statement} {rest : List Statement}
      (h : Statement.WellFormed afterBranch s)
      (hrest : Statement.WellFormedList s.isOpenBranch rest) :
      Statement.WellFormedList afterBranch (s :: rest)

end

/-! ## §2 Ways to write them -/

/-- Characters that may stand between two tokens. -/
def IsLayout (cs : List Char) : Prop :=
  ∀ c ∈ cs, isLayout c = true

/-- `Spells text written`: each space of a text is written as some layout. -/
inductive Spells : List Char → List Char → Prop where
  | nil : Spells [] []
  | space {gap text written : List Char} (hgap : IsLayout gap) (hne : gap ≠ [])
      (h : Spells text written) : Spells (' ' :: text) (gap ++ written)
  | char {c : Char} {text written : List Char} (hc : c ≠ ' ') (h : Spells text written) :
      Spells (c :: text) (c :: written)

mutual

/-- `s.Written written`: one way to write a statement, with the layout in front of it. -/
inductive Statement.Written : Statement → List Char → Prop where
  | step {text : String} {front text' back : List Char} (hfront : IsLayout front)
      (h : Spells text.toList text') (hback : IsLayout back) :
      Statement.Written (.step text) (front ++ text' ++ back ++ Token.semicolon.lexeme)
  | exit {front back : List Char} (hfront : IsLayout front) (hback : IsLayout back) :
      Statement.Written .exit
        (front ++ Token.exitWord.lexeme ++ back ++ Token.semicolon.lexeme)
  | ifThen {condition : String} {thenBranch : List Statement}
      {front gap condition' block : List Char} (hfront : IsLayout front) (hgap : IsLayout gap)
      (hne : gap ≠ []) (hcondition : Spells condition.toList condition')
      (h : Statement.WrittenBlock thenBranch block) :
      Statement.Written (.ifThen condition thenBranch)
        (front ++ Token.ifWord.lexeme ++ gap ++ condition' ++ block)
  | ifThenElse {condition : String} {thenBranch elseBranch : List Statement}
      {front gap condition' block between other : List Char} (hfront : IsLayout front)
      (hgap : IsLayout gap) (hne : gap ≠ []) (hcondition : Spells condition.toList condition')
      (h : Statement.WrittenBlock thenBranch block) (hbetween : IsLayout between)
      (hother : Statement.WrittenBlock elseBranch other) :
      Statement.Written (.ifThenElse condition thenBranch elseBranch)
        (front ++ Token.ifWord.lexeme ++ gap ++ condition' ++ block ++
          between ++ Token.elseWord.lexeme ++ other)
  | whileDo {condition : String} {body : List Statement}
      {front gap condition' block : List Char} (hfront : IsLayout front) (hgap : IsLayout gap)
      (hne : gap ≠ []) (hcondition : Spells condition.toList condition')
      (h : Statement.WrittenBlock body block) :
      Statement.Written (.whileDo condition body)
        (front ++ Token.whileWord.lexeme ++ gap ++ condition' ++ block)

/-- One way to write a block between braces, with the layout in front of it. -/
inductive Statement.WrittenBlock : List Statement → List Char → Prop where
  | block {statements : List Statement} {front inner back : List Char} (hfront : IsLayout front)
      (h : Statement.WrittenList statements inner) (hback : IsLayout back) :
      Statement.WrittenBlock statements
        (front ++ Token.openBrace.lexeme ++ inner ++ back ++ Token.closeBrace.lexeme)

/-- One way to write statements in order. -/
inductive Statement.WrittenList : List Statement → List Char → Prop where
  | nil : Statement.WrittenList [] []
  | cons {s : Statement} {rest : List Statement} {first others : List Char}
      (h : Statement.Written s first) (hrest : Statement.WrittenList rest others) :
      Statement.WrittenList (s :: rest) (first ++ others)

end

/-- One way to write a program: its statements, and layout at the end. -/
def WrittenProgram (program : List Statement) (source : List Char) : Prop :=
  ∃ body back, Statement.WrittenList program body ∧ IsLayout back ∧ source = body ++ back

end Flowchart
