import Flowchart.Program.Parser
import Flowchart.Proofs.Keywords

/-!
# What Is Read Can Be Written

The machine that reads a flow keeps an invariant: the statements it has read so far, in
the block it is in and in the blocks around it, can be written down as they are.  A step
that it has read is known to be writable only when its semicolon comes next, because
`exit` is an entire step only in front of one.

Main statement: every flow that is read is well formed (`wellFormed_of_run`).
-/

namespace Flowchart

open Text

namespace Parser

/-! ## §1 One token -/

/-- What the machine does with each token that may come next. -/
inductive Takes : State → Token → State → Prop where
  | branch {done : List Statement} {enclosing : List Frame} :
      Takes ⟨done, enclosing, .statement⟩ .ifWord ⟨done, enclosing, .ifCondition⟩
  | loop {done : List Statement} {enclosing : List Frame} :
      Takes ⟨done, enclosing, .statement⟩ .whileWord ⟨done, enclosing, .whileCondition⟩
  | exit {done : List Statement} {enclosing : List Frame} :
      Takes ⟨done, enclosing, .statement⟩ .exitWord ⟨done, enclosing, .semicolon .exit⟩
  | step {done : List Statement} {enclosing : List Frame} {cs : List Char} :
      Takes ⟨done, enclosing, .statement⟩ (.text cs)
        ⟨done, enclosing, .semicolon (.step (String.ofList (collapse cs)))⟩
  | reopen {before : List Statement} {enclosing : List Frame} {condition : String}
      {thenBranch : List Statement} :
      Takes ⟨.ifThen condition thenBranch :: before, enclosing, .statement⟩ .elseWord
        ⟨before, enclosing, .opening (.otherwise condition thenBranch)⟩
  | close {done : List Statement} {frame : Frame} {enclosing : List Frame} :
      Takes ⟨done, frame :: enclosing, .statement⟩ .closeBrace
        ⟨frame.header.complete done.reverse :: frame.before, enclosing, .statement⟩
  | branchCondition {done : List Statement} {enclosing : List Frame} {cs : List Char} :
      Takes ⟨done, enclosing, .ifCondition⟩ (.text cs)
        ⟨done, enclosing, .opening (.ifThen (String.ofList (collapse cs)))⟩
  | loopCondition {done : List Statement} {enclosing : List Frame} {cs : List Char} :
      Takes ⟨done, enclosing, .whileCondition⟩ (.text cs)
        ⟨done, enclosing, .opening (.whileDo (String.ofList (collapse cs)))⟩
  | open {done : List Statement} {enclosing : List Frame} {header : Header} :
      Takes ⟨done, enclosing, .opening header⟩ .openBrace
        ⟨[], ⟨header, done⟩ :: enclosing, .statement⟩
  | semicolon {done : List Statement} {enclosing : List Frame} {s : Statement} :
      Takes ⟨done, enclosing, .semicolon s⟩ .semicolon ⟨s :: done, enclosing, .statement⟩

theorem State.step?_eq_some_iff {s s' : State} {token : Token} :
    s.step? token = some s' ↔ Takes s token s' := by
  constructor
  · intro h
    obtain ⟨done, enclosing, awaiting⟩ := s
    unfold step? at h
    split at h <;> rename_i hawaiting <;> dsimp only at hawaiting <;> try subst hawaiting
    -- the word `else` and the closing brace look at what stands around them as well
    case h_5 =>
      dsimp only at h
      split at h
      · obtain rfl := Option.some.inj h; constructor
      · cases h
    case h_6 =>
      dsimp only at h
      split at h
      · obtain rfl := Option.some.inj h; constructor
      · cases h
    all_goals first | (obtain rfl := Option.some.inj h; constructor) | cases h
  · intro h
    cases h <;> rfl

/-- The first token that may come next is a keyword, or no keyword may and it is a mark
    or a text. -/
theorem State.next?_eq_some_iff {s s' : State} {input rest : List Char} :
    s.next? input = some (s', rest) ↔
      (∃ token, Token.keyword? input = some (token, rest) ∧ s.step? token = some s') ∨
        (∀ p, Token.keyword? input = some p → s.step? p.1 = none) ∧
          ∃ token, Token.plain? input = some (token, rest) ∧ s.step? token = some s' := by
  rw [next?, Token.candidates, List.findSome?_append]
  -- a mark or a text gets its turn only when the keyword is refused
  rcases Token.keyword? input with - | ⟨keyword, after⟩
  · rcases Token.plain? input with - | ⟨token, after⟩ <;> simp [and_assoc, and_comm]
  · cases hstep : s.step? keyword with
    | none =>
      rcases Token.plain? input with - | ⟨token, after⟩ <;> simp [hstep, and_assoc, and_comm]
    | some s'' => simp [hstep, and_assoc, and_comm]

/-- Whether the latest of the statements read so far is a branch without an `else`. -/
def endsWithOpenBranch (done : List Statement) : Bool :=
  done.head?.any Statement.isOpenBranch

theorem State.step?_elseWord_eq_none_iff {done : List Statement} {enclosing : List Frame} :
    (State.mk done enclosing .statement).step? .elseWord = none ↔
      endsWithOpenBranch done = false := by
  cases done with
  | nil => simp [step?, endsWithOpenBranch]
  | cons s done => cases s <;> simp [step?, endsWithOpenBranch, Statement.isOpenBranch]

/-- **A text is a step that can be written down just if no keyword is read in its place.** -/
theorem isWritableStep_iff {chars more : List Char} (h : Token.TextBefore chars more)
    (hmore : more.head? = some ';') (done : List Statement) (enclosing : List Frame) :
    IsWritableStep (endsWithOpenBranch done) (String.ofList (collapse chars)) ↔
      ∀ p, Token.keyword? (chars ++ more) = some p →
        (State.mk done enclosing .statement).step? p.1 = none := by
  have hif := Token.exists_keyword?_iff h .ifWord (by decide) (by decide)
  have hwhile := Token.exists_keyword?_iff h .whileWord (by decide) (by decide)
  have helse := Token.exists_keyword?_iff h .elseWord (by decide) (by decide)
  have hexit := Token.exists_keyword?_exit_iff h
  constructor
  · intro hstep
    have hnotExit := hstep.not_exit
    have hnotIf := hstep.not_if
    have hnotWhile := hstep.not_while
    have hnotElse := hstep.not_else
    rw [String.toList_ofList] at hnotExit hnotIf hnotWhile hnotElse
    -- each keyword would have made the text one that is not writable
    rintro ⟨keyword, rest⟩ hkeyword
    have hmem := (Token.keyword?_eq_some_iff.1 hkeyword).1
    simp only [Token.keywords, List.mem_cons, List.not_mem_nil, or_false] at hmem
    rcases hmem with rfl | rfl | rfl | rfl
    · exact absurd (hif.1 ⟨rest, hkeyword⟩) hnotIf
    · rw [State.step?_elseWord_eq_none_iff, ← Bool.not_eq_true]
      intro hbranch
      exact hnotElse hbranch (helse.1 ⟨rest, hkeyword⟩)
    · exact absurd (hwhile.1 ⟨rest, hkeyword⟩) hnotWhile
    · exact absurd (hexit.1 ⟨rest, hkeyword⟩).1 hnotExit
  · intro hnone
    -- and each word that is not writable would have been read as its keyword
    refine ⟨h.isWritable, ?_, ?_, ?_, ?_⟩ <;> rw [String.toList_ofList]
    · intro heq
      obtain ⟨rest, hrest⟩ := hexit.2 ⟨heq, hmore⟩
      cases hnone _ hrest
    · intro hbegins
      obtain ⟨rest, hrest⟩ := hif.2 hbegins
      cases hnone _ hrest
    · intro hbegins
      obtain ⟨rest, hrest⟩ := hwhile.2 hbegins
      cases hnone _ hrest
    · intro hbranch hbegins
      obtain ⟨rest, hrest⟩ := helse.2 hbegins
      rw [State.step?_elseWord_eq_none_iff.1 (hnone _ hrest)] at hbranch
      cases hbranch

/-! ## §2 The invariant -/

/-- Statements that can be written down in a block, the latest first. -/
inductive WellFormedUpTo : List Statement → Prop where
  | nil : WellFormedUpTo []
  | cons {s : Statement} {before : List Statement}
      (h : Statement.WellFormed (endsWithOpenBranch before) s) (hbefore : WellFormedUpTo before) :
      WellFormedUpTo (s :: before)

/-- What comes next in a block goes on with what has been read of it. -/
theorem WellFormedUpTo.reverse_append {done : List Statement} (h : WellFormedUpTo done) :
    ∀ {rest : List Statement}, Statement.WellFormedList (endsWithOpenBranch done) rest →
      Statement.WellFormedList false (done.reverse ++ rest) := by
  induction h with
  | nil => exact fun hrest => hrest
  | @cons s before h hbefore ih =>
    intro rest hrest
    show Statement.WellFormedList false ((s :: before).reverse ++ rest)
    rw [List.reverse_cons, List.append_assoc, List.singleton_append]
    exact ih (.cons h hrest)

theorem WellFormedUpTo.wellFormedList {done : List Statement} (h : WellFormedUpTo done) :
    Statement.WellFormedList false done.reverse := by
  have hall := h.reverse_append .nil
  rwa [List.append_nil] at hall

/-- What an open brace belongs to can be written down. -/
def Header.Sound : Header → Prop
  | .ifThen condition => IsWritable condition
  | .otherwise condition thenBranch =>
    IsWritable condition ∧ Statement.WellFormedList false thenBranch
  | .whileDo condition => IsWritable condition

theorem Header.Sound.complete {header : Header} (h : header.Sound) {block : List Statement}
    (hblock : Statement.WellFormedList false block) (afterBranch : Bool) :
    Statement.WellFormed afterBranch (header.complete block) := by
  cases header with
  | ifThen condition => exact .ifThen h hblock
  | otherwise condition thenBranch => exact .ifThenElse h.1 h.2 hblock
  | whileDo condition => exact .whileDo h hblock

/-- What has been read of the next statement can be written down.  Of a statement that
    waits for its semicolon this is only known when the semicolon is there. -/
def Awaiting.Sound (afterBranch : Bool) (input : List Char) : Awaiting → Prop
  | .statement | .ifCondition | .whileCondition => True
  | .opening header => header.Sound
  | .semicolon s => input.head? = some ';' → Statement.WellFormed afterBranch s

/-- All that has been read can be written down. -/
structure State.Sound (s : State) (input : List Char) : Prop where
  done : WellFormedUpTo s.done
  enclosing : ∀ frame ∈ s.enclosing, frame.header.Sound ∧ WellFormedUpTo frame.before
  awaiting : s.awaiting.Sound (endsWithOpenBranch s.done) input

/-- What makes a text the right token to take: it reaches to the next mark, and if a
    statement may come next, no keyword may be taken in its place. -/
def TakesText (s : State) (token : Token) (rest : List Char) : Prop :=
  ∀ chars, token = .text chars → Token.TextBefore chars rest ∧
    ∀ p, Token.keyword? (chars ++ rest) = some p → s.step? p.1 = none

/-- **One token keeps the invariant.** -/
theorem State.Sound.step {s s' : State} {token : Token} {rest : List Char}
    (h : s.Sound (token.lexeme ++ rest)) (htext : TakesText s token rest)
    (hstep : s.step? token = some s') : s'.Sound (rest.dropWhile isLayout) := by
  have hdone := h.done
  have henclosing := h.enclosing
  have hawaiting := h.awaiting
  cases State.step?_eq_some_iff.1 hstep with
  | branch => exact ⟨hdone, henclosing, trivial⟩
  | loop => exact ⟨hdone, henclosing, trivial⟩
  | exit => exact ⟨hdone, henclosing, fun _ => .exit⟩
  | @step done enclosing cs =>
    obtain ⟨hbefore, hnone⟩ := htext cs rfl
    refine ⟨hdone, henclosing, fun hsemicolon => .step ?_⟩
    -- the text has reached its mark, and the mark is the semicolon
    rw [hbefore.dropWhile_isLayout] at hsemicolon
    exact (isWritableStep_iff hbefore hsemicolon done enclosing).2 hnone
  | reopen =>
    -- the branch is taken off the statements, together with its block
    cases hdone with
    | cons hbranch hbefore =>
      cases hbranch with
      | ifThen hcondition hthen => exact ⟨hbefore, henclosing, hcondition, hthen⟩
  | @close done frame enclosing =>
    obtain ⟨hheader, hbefore⟩ := henclosing frame List.mem_cons_self
    -- the block becomes a part of one more statement of the block around it
    refine ⟨.cons (hheader.complete hdone.wellFormedList _) hbefore, ?_, trivial⟩
    intro other hother
    exact henclosing other (List.mem_cons_of_mem frame hother)
  | branchCondition => exact ⟨hdone, henclosing, (htext _ rfl).1.isWritable⟩
  | loopCondition => exact ⟨hdone, henclosing, (htext _ rfl).1.isWritable⟩
  | «open» =>
    -- inside the braces nothing has been read yet
    refine ⟨.nil, ?_, trivial⟩
    intro frame hframe
    rcases List.mem_cons.1 hframe with rfl | hframe
    · exact ⟨hawaiting, hdone⟩
    · exact henclosing frame hframe
  | semicolon => exact ⟨.cons (hawaiting rfl) hdone, henclosing, trivial⟩

/-- The token that the machine takes from the input keeps the invariant. -/
theorem State.Sound.next? {s s' : State} {input rest : List Char} (h : s.Sound input)
    (hnext : s.next? input = some (s', rest)) : s'.Sound (rest.dropWhile isLayout) := by
  rcases State.next?_eq_some_iff.1 hnext with
    ⟨token, hkeyword, hstep⟩ | ⟨hnone, token, hplain, hstep⟩
  · obtain ⟨hmem, hafter⟩ := Token.keyword?_eq_some_iff.1 hkeyword
    obtain ⟨rfl, -⟩ := Token.after?_eq_some_iff.1 hafter
    refine h.step ?_ hstep
    -- a keyword is no text
    rintro chars rfl
    simp [Token.keywords] at hmem
  · have hoffered : (token, rest) ∈ Token.candidates input :=
      List.mem_append_right _ (Option.mem_toList.2 hplain)
    obtain rfl := Token.eq_lexeme_append hoffered
    refine h.step ?_ hstep
    rintro chars rfl
    exact ⟨(Token.plain?_eq_text_iff.1 hplain).2, hnone⟩

/-! ## §3 The whole input -/

/-- A program may end between two statements of the outermost block. -/
theorem State.eq_of_finish? {s : State} {program : List Statement}
    (h : s.finish? = some program) : s = ⟨program.reverse, [], .statement⟩ := by
  obtain ⟨done, enclosing, awaiting⟩ := s
  unfold finish? at h
  split at h
  · next henclosing hawaiting =>
    obtain rfl := Option.some.inj h
    rw [List.reverse_reverse, ← henclosing, ← hawaiting]
  · cases h

theorem wellFormed_of_finish? {s : State} {input : List Char} (h : s.Sound input)
    {program : List Statement} (hfinish : s.finish? = some program) :
    Statement.WellFormedList false program := by
  have hall := h.done.wellFormedList
  rwa [State.eq_of_finish? hfinish, List.reverse_reverse] at hall

/-- A run from a state that is sound gives a program that can be written down. -/
theorem wellFormed_of_run {last input : List Char} {s : State} {program : List Statement}
    (h : s.Sound (input.dropWhile isLayout)) (hrun : run last s input = .ok program) :
    Statement.WellFormedList false program := by
  -- the induction follows the reading, from token to token
  fun_induction run last s input with
  | case1 last s input hinput statements hfinish =>
    obtain rfl := Except.ok.inj hrun
    exact wellFormed_of_finish? h hfinish
  | case2 => cases hrun
  | case3 last s input c cs hinput s' rest hnext ih =>
    rw [hinput] at h
    exact ih (h.next? hnext) hrun
  | case4 => cases hrun

theorem State.sound_initial (input : List Char) : State.initial.Sound input where
  done := .nil
  enclosing := by simp [initial]
  awaiting := trivial

/-- **What is read can be written down.** -/
theorem wellFormed_of_parseChars {input : List Char} {program : List Statement}
    (h : parseChars input = .ok program) : Statement.WellFormedList false program :=
  wellFormed_of_run (State.sound_initial _) h

end Parser

end Flowchart
