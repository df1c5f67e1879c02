import Flowchart.Program.Written
import Flowchart.Proofs.Reading

/-!
# What Is Written Is Read

However a program is written down, reading gives it back.  The proof follows the ways to
write it: each piece of the source is taken as the token that was meant, and brings the
machine on by one statement, one block or one list of statements, whatever comes after
the piece.

The text of a condition goes on to the opening brace, so the layout in front of a block
is read as part of the condition (`ReadsBlock`); collapsing drops it.

Main statements: `reads_writtenList`, and that reading and writing are inverse to each
other (`parse_inverts_writing`).
-/

namespace Flowchart

open Text

/-! ## §1 Spelled texts -/

theorem isLayout_nil : IsLayout [] := by
  intro c hc
  cases hc

theorem IsLayout.isBlank {cs : List Char} (h : IsLayout cs) : ∀ c ∈ cs, isBlank c = true :=
  fun c hc => isBlank_of_isLayout (h c hc)

/-- However a text is spelled, it has the same words, and the same of them are cut short
    by what stands in front. -/
theorem Spells.runAndWords_eq {text written : List Char} (h : Spells text written) :
    runAndWords written = runAndWords text := by
  induction h with
  | nil => rfl
  | @space gap text written hgap hne h ih =>
    have hspace : isBlank ' ' = true := by decide
    -- the first blank ends a run, and the others are dropped
    obtain ⟨c, gap, rfl⟩ := List.exists_cons_of_ne_nil hne
    have hblank := hgap.isBlank
    rw [List.cons_append, runAndWords_of_blank _ (hblank c List.mem_cons_self),
      runAndWords_of_blank _ hspace,
      words_append_of_blank fun d hd => hblank d (List.mem_cons_of_mem c hd)]
    rw [words_eq_of_runAndWords ih]
  | @char c text written hc h ih =>
    cases hblank : isBlank c with
    | true => rw [runAndWords_of_blank _ hblank, runAndWords_of_blank _ hblank,
        words_eq_of_runAndWords ih]
    | false => rw [runAndWords_of_not_blank _ hblank, runAndWords_of_not_blank _ hblank, ih]

theorem isTextChar_of_isLayout {c : Char} (h : isLayout c = true) :
    Token.isTextChar c = true :=
  Token.isTextChar_of_isBlank (isBlank_of_isLayout h)

/-- A spelled text has no mark in it if the text has none. -/
theorem Spells.plain {text written : List Char} (h : Spells text written)
    (hplain : ∀ c ∈ text, Token.isTextChar c = true) :
    ∀ c ∈ written, Token.isTextChar c = true := by
  induction h with
  | nil => exact hplain
  | space hgap hne h ih =>
    intro c hc
    rcases List.mem_append.1 hc with hc | hc
    · exact isTextChar_of_isLayout (hgap c hc)
    · exact ih (fun d hd => hplain d (List.mem_cons_of_mem _ hd)) c hc
  | @char c text written hne h ih =>
    intro d hd
    rcases List.mem_cons.1 hd with rfl | hd
    · exact hplain _ List.mem_cons_self
    · exact ih (fun e he => hplain e (List.mem_cons_of_mem _ he)) d hd

/-- A text that is spelled in front of layout and a mark is read as that text. -/
theorem Spells.textBefore {text : String} {written back more : List Char} (htext : IsWritable text)
    (h : Spells text.toList written) (hback : IsLayout back)
    (hmore : ∀ c ∈ more.head?, Token.isTextChar c = false) :
    Token.TextBefore (written ++ back) more where
  starts := by
    have hhead := head_not_blank_of_collapsed htext.collapsed
    have hne := htext.nonempty
    -- a collapsed text begins with no space, so its first character is spelled as it is
    revert h hhead hne
    generalize text.toList = cs
    intro h hhead hne
    cases h with
    | nil => exact absurd rfl hne
    | space => exact absurd (hhead ' ' rfl) (by decide)
    | @char c text written hc h => exact ⟨c, written ++ back, rfl, hhead c rfl⟩
  plain := by
    intro c hc
    rcases List.mem_append.1 hc with hc | hc
    · exact h.plain htext.plain c hc
    · exact isTextChar_of_isLayout (hback c hc)
  ends := hmore

/-- Collapsing undoes the spelling, and drops the layout behind it. -/
theorem Spells.collapse_append {text : String} {written back : List Char} (htext : IsWritable text)
    (h : Spells text.toList written) (hback : IsLayout back) :
    String.ofList (collapse (written ++ back)) = text := by
  have hrun := runAndWords_append_blank hback.isBlank written
  rw [h.runAndWords_eq] at hrun
  rw [collapse_congr (words_eq_of_runAndWords hrun), htext.collapsed, String.ofList_toList]

/-- A text spells itself. -/
theorem spells_self (text : List Char) : Spells text text := by
  induction text with
  | nil => exact .nil
  | cons c text ih =>
    by_cases hc : c = ' '
    · -- a single space is layout enough
      subst hc
      exact Spells.space (List.forall_mem_singleton.2 rfl) (List.cons_ne_nil ' ' []) ih
    · exact .char hc ih

/-! ## §2 Reading on -/

namespace Parser

/-- From a state on, an input is read as a program. -/
def Reads (s : State) (input : List Char) (program : List Statement) : Prop :=
  ∀ last, run last s input = .ok program

theorem candidates_of_layout {c : Char} {cs : List Char} (h : isLayout c = true) :
    Token.candidates (c :: cs) = [] := by
  simp only [isLayout, Bool.or_eq_true, beq_iff_eq] at h
  rcases h with (((rfl | rfl) | rfl) | rfl) | rfl <;> rfl

/-- The token that is taken next, behind any layout, brings the reading on. -/
theorem reads_of_next? {s s' : State} {front input rest : List Char} {program : List Statement}
    (hfront : IsLayout front) (hnext : s.next? input = some (s', rest))
    (h : Reads s' rest program) : Reads s (front ++ input) program := by
  intro last
  obtain ⟨c, cs, rfl⟩ : ∃ c cs, input = c :: cs := by
    cases input with
    | nil => cases hnext
    | cons c cs => exact ⟨c, cs, rfl⟩
  -- no token begins with layout, so what is dropped is what stands in front
  have hc : isLayout c = false := by
    rw [← Bool.not_eq_true]
    intro hc
    rw [State.next?, candidates_of_layout hc] at hnext
    cases hnext
  have hdrop : (front ++ c :: cs).dropWhile isLayout = c :: cs := by
    rw [List.dropWhile_append_of_pos hfront, List.dropWhile_cons_of_neg (by simp [hc])]
  rw [run]
  split
  · next hinput => rw [hdrop] at hinput; cases hinput
  · next d ds hinput =>
    rw [hdrop] at hinput
    obtain ⟨rfl, rfl⟩ := List.cons.inj hinput
    split
    · next hnext' =>
      rw [hnext] at hnext'
      obtain ⟨rfl, rfl⟩ := Prod.mk.inj (Option.some.inj hnext')
      exact h _
    · next hnext' => rw [hnext] at hnext'; cases hnext'

/-- Where a program may end, layout may stand behind it. -/
theorem reads_layout {s : State} {back : List Char} {program : List Statement}
    (hback : IsLayout back) (h : s.finish? = some program) : Reads s back program := by
  intro last
  have hdrop : back.dropWhile isLayout = [] := List.dropWhile_eq_nil_iff.2 hback
  rw [run]
  split
  · rw [h]
  · next hinput => rw [hdrop] at hinput; cases hinput

/-- A keyword is read where it may come and is seen to end. -/
theorem reads_keyword {s s' : State} {keyword : Token} {front rest : List Char}
    {program : List Statement} (hfront : IsLayout front) (hmem : keyword ∈ Token.keywords)
    (hends : keyword.endsBefore rest = true) (htakes : Takes s keyword s')
    (h : Reads s' rest program) : Reads s (front ++ (keyword.lexeme ++ rest)) program := by
  apply reads_of_next? hfront _ h
  apply State.next?_eq_some_iff.2
  left
  exact ⟨keyword, Token.keyword?_eq_some_iff.2 ⟨hmem, Token.after?_eq_some_iff.2 ⟨rfl, hends⟩⟩,
    State.step?_eq_some_iff.2 htakes⟩

/-- A text is read up to its mark where no keyword is taken in its place. -/
theorem reads_text {s s' : State} {chars more front : List Char} {program : List Statement}
    (hfront : IsLayout front) (hbefore : Token.TextBefore chars more)
    (hnone : ∀ p, Token.keyword? (chars ++ more) = some p → s.step? p.1 = none)
    (htakes : Takes s (.text chars) s') (h : Reads s' more program) :
    Reads s (front ++ (chars ++ more)) program := by
  apply reads_of_next? hfront _ h
  apply State.next?_eq_some_iff.2
  right
  exact ⟨hnone, .text chars, Token.plain?_eq_text_iff.2 ⟨rfl, hbefore⟩,
    State.step?_eq_some_iff.2 htakes⟩

/-- A mark is read where it may come. -/
theorem reads_mark {s s' : State} {mark : Token} {front rest : List Char}
    {program : List Statement} (hfront : IsLayout front)
    (hmark : mark ∈ Token.marks)
    (htakes : Takes s mark s') (h : Reads s' rest program) :
    Reads s (front ++ (mark.lexeme ++ rest)) program := by
  apply reads_of_next? hfront _ h
  apply State.next?_eq_some_iff.2
  right
  have hplain : Token.keyword? (mark.lexeme ++ rest) = none ∧
      Token.plain? (mark.lexeme ++ rest) = some (mark, rest) := by
    simp only [Token.marks, List.mem_cons, List.not_mem_nil, or_false] at hmark
    rcases hmark with rfl | rfl | rfl <;> exact ⟨rfl, rfl⟩
  -- where a mark stands no keyword does
  refine ⟨?_, mark, hplain.2, State.step?_eq_some_iff.2 htakes⟩
  intro p hp
  rw [hplain.1] at hp
  cases hp

/-! ## §3 Pieces of a written program -/

/-- A piece of the source that is layout, a brace, and then what fills a block and closes
    it. -/
def ReadsBlock (statements : List Statement) (written : List Char) : Prop :=
  ∃ front inner, written = front ++ (Token.openBrace.lexeme ++ inner) ∧ IsLayout front ∧
    ∀ header done enclosing rest program,
      Reads ⟨header.complete statements :: done, enclosing, .statement⟩ rest program →
        Reads ⟨[], ⟨header, done⟩ :: enclosing, .statement⟩ (inner ++ rest) program

theorem endsBefore_of_not_wordChar {keyword : Token} (hexit : keyword ≠ .exitWord)
    {rest : List Char} (h : ∀ c ∈ rest.head?, isWordChar c = false) :
    keyword.endsBefore rest = true := by
  cases rest <;> cases keyword <;> simp_all [Token.endsBefore]

theorem isWordChar_of_isLayout {c : Char} (h : isLayout c = true) : isWordChar c = false :=
  isWordChar_eq_false_of_isBlank (isBlank_of_isLayout h)

/-- A keyword ends at a gap. -/
theorem endsBefore_gap {keyword : Token} (hexit : keyword ≠ .exitWord) {gap : List Char}
    (hgap : IsLayout gap) (hne : gap ≠ []) (rest : List Char) :
    keyword.endsBefore (gap ++ rest) = true := by
  apply endsBefore_of_not_wordChar hexit
  obtain ⟨c, gap, rfl⟩ := List.exists_cons_of_ne_nil hne
  intro d hd
  obtain rfl : c = d := Option.some.inj hd
  exact isWordChar_of_isLayout (hgap c List.mem_cons_self)

/-- A keyword ends at a block. -/
theorem ReadsBlock.endsBefore {keyword : Token} (hexit : keyword ≠ .exitWord)
    {statements : List Statement} {written : List Char} (h : ReadsBlock statements written)
    (rest : List Char) : keyword.endsBefore (written ++ rest) = true := by
  apply endsBefore_of_not_wordChar hexit
  obtain ⟨front, inner, rfl, hfront, -⟩ := h
  intro c hc
  cases front with
  | nil =>
    obtain rfl : '\x7b' = c := Option.some.inj hc
    decide
  | cons d front =>
    obtain rfl : d = c := Option.some.inj hc
    exact isWordChar_of_isLayout (hfront d List.mem_cons_self)

theorem ReadsBlock.reads {statements : List Statement} {written : List Char}
    (h : ReadsBlock statements written) {header : Header} {done : List Statement}
    {enclosing : List Frame} {rest : List Char} {program : List Statement}
    (hrest : Reads ⟨header.complete statements :: done, enclosing, .statement⟩ rest program) :
    Reads ⟨done, enclosing, .opening header⟩ (written ++ rest) program := by
  obtain ⟨front, inner, rfl, hfront, hinner⟩ := h
  rw [List.append_assoc, List.append_assoc]
  exact reads_mark hfront (by decide) .open (hinner _ _ _ _ _ hrest)

/-- A condition and its block are read together, because the condition goes on to the
    brace. -/
theorem reads_condition {awaiting : Awaiting} (header : String → Header) {done : List Statement}
    {enclosing : List Frame}
    (htakes : ∀ cs, Takes ⟨done, enclosing, awaiting⟩ (.text cs)
      ⟨done, enclosing, .opening (header (String.ofList (collapse cs)))⟩)
    (hnone : ∀ keyword ∈ Token.keywords,
      (State.mk done enclosing awaiting).step? keyword = none)
    {condition : String} {gap condition' block rest : List Char} {statements : List Statement}
    (hgap : IsLayout gap) (hcondition : IsWritable condition)
    (hspells : Spells condition.toList condition') (hblock : ReadsBlock statements block)
    {program : List Statement}
    (h : Reads ⟨(header condition).complete statements :: done, enclosing, .statement⟩ rest
      program) :
    Reads ⟨done, enclosing, awaiting⟩ (gap ++ (condition' ++ (block ++ rest))) program := by
  obtain ⟨front, inner, rfl, hfront, hinner⟩ := hblock
  have hbrace := Token.not_isTextChar_head .openBrace (by decide) (inner ++ rest)
  -- the text is the condition with the layout in front of the brace
  have htext := htakes (condition' ++ front)
  rw [hspells.collapse_append hcondition hfront] at htext
  have hinput : condition' ++ (front ++ (Token.openBrace.lexeme ++ inner) ++ rest) =
      condition' ++ front ++ (Token.openBrace.lexeme ++ (inner ++ rest)) := by
    simp only [List.append_assoc]
  rw [hinput]
  apply reads_text hgap (hspells.textBefore hcondition hfront hbrace) _ htext
  · -- the brace stands right behind the text
    exact reads_mark isLayout_nil (by decide) .open (hinner _ _ _ _ _ h)
  · intro p hp
    exact hnone p.1 (Token.keyword?_eq_some_iff.1 hp).1

theorem reads_ifCondition {done : List Statement} {enclosing : List Frame} {condition : String}
    {gap condition' block rest : List Char} {statements program : List Statement}
    (hgap : IsLayout gap) (hcondition : IsWritable condition)
    (hspells : Spells condition.toList condition') (hblock : ReadsBlock statements block)
    (h : Reads ⟨.ifThen condition statements :: done, enclosing, .statement⟩ rest program) :
    Reads ⟨done, enclosing, .ifCondition⟩ (gap ++ (condition' ++ (block ++ rest))) program :=
  reads_condition .ifThen (fun _ => .branchCondition) (by simp [Token.keywords, State.step?])
    hgap hcondition hspells hblock h

theorem reads_whileCondition {done : List Statement} {enclosing : List Frame} {condition : String}
    {gap condition' block rest : List Char} {statements program : List Statement}
    (hgap : IsLayout gap) (hcondition : IsWritable condition)
    (hspells : Spells condition.toList condition') (hblock : ReadsBlock statements block)
    (h : Reads ⟨.whileDo condition statements :: done, enclosing, .statement⟩ rest program) :
    Reads ⟨done, enclosing, .whileCondition⟩ (gap ++ (condition' ++ (block ++ rest))) program :=
  reads_condition .whileDo (fun _ => .loopCondition) (by simp [Token.keywords, State.step?])
    hgap hcondition hspells hblock h

/-! ## §4 Written programs -/

mutual

/-- **A written statement is read as it was meant.** -/
theorem reads_written {s : Statement} {written : List Char} (h : s.Written written) :
    ∀ {done : List Statement} {enclosing : List Frame} {rest : List Char}
      {program : List Statement}, s.WellFormed (endsWithOpenBranch done) →
      Reads ⟨s :: done, enclosing, .statement⟩ rest program →
      Reads ⟨done, enclosing, .statement⟩ (written ++ rest) program := by
  intro done enclosing rest program hwell hrest
  cases h with
  | @step text front text' back hfront h hback =>
    cases hwell with
    | step hstep =>
      -- the layout in front of the semicolon is read as part of the text
      have hbefore := h.textBefore hstep.writable hback
        (Token.not_isTextChar_head .semicolon (by decide) rest)
      have htext := h.collapse_append hstep.writable hback
      have htakes : Takes ⟨done, enclosing, .statement⟩ (.text (text' ++ back))
          ⟨done, enclosing, .semicolon (.step text)⟩ := htext ▸ .step
      have hinput : front ++ text' ++ back ++ Token.semicolon.lexeme ++ rest =
          front ++ (text' ++ back ++ (Token.semicolon.lexeme ++ rest)) := by
        simp only [List.append_assoc]
      rw [hinput]
      apply reads_text hfront hbefore _ htakes
      · exact reads_mark isLayout_nil (by decide) .semicolon hrest
      · apply (isWritableStep_iff hbefore rfl done enclosing).1
        rw [htext]
        exact hstep
  | @exit front back hfront hback =>
    -- `exit` sees its semicolon behind the layout
    have hends : Token.exitWord.endsBefore (back ++ (Token.semicolon.lexeme ++ rest)) = true := by
      rw [Token.endsBefore, List.dropWhile_append_of_pos hback.isBlank]
      rfl
    simp only [List.append_assoc]
    apply reads_keyword hfront (by decide) hends .exit
    exact reads_mark hback (by decide) .semicolon hrest
  | @ifThen condition thenBranch front gap condition' block hfront hgap hne hcondition h =>
    cases hwell with
    | ifThen hwritable hthen =>
      have hblock := reads_writtenBlock h hthen
      simp only [List.append_assoc]
      apply reads_keyword hfront (by decide) (endsBefore_gap (by decide) hgap hne _) .branch
      exact reads_ifCondition hgap hwritable hcondition hblock hrest
  | @ifThenElse condition thenBranch elseBranch front gap condition' block between other hfront
      hgap hne hcondition h hbetween hother =>
    cases hwell with
    | ifThenElse hwritable hthen helse =>
      have hblock := reads_writtenBlock h hthen
      have hotherBlock := reads_writtenBlock hother helse
      simp only [List.append_assoc]
      apply reads_keyword hfront (by decide) (endsBefore_gap (by decide) hgap hne _) .branch
      apply reads_ifCondition hgap hwritable hcondition hblock
      -- the branch is complete, and is taken up again by its other word
      apply reads_keyword hbetween (by decide) (hotherBlock.endsBefore (by decide) _) .reopen
      exact hotherBlock.reads hrest
  | @whileDo condition body front gap condition' block hfront hgap hne hcondition h =>
    cases hwell with
    | whileDo hwritable hbody =>
      have hblock := reads_writtenBlock h hbody
      simp only [List.append_assoc]
      apply reads_keyword hfront (by decide) (endsBefore_gap (by decide) hgap hne _) .loop
      exact reads_whileCondition hgap hwritable hcondition hblock hrest

/-- A written block is read as it was meant, behind whatever its brace belongs to. -/
theorem reads_writtenBlock {statements : List Statement} {written : List Char}
    (h : Statement.WrittenBlock statements written)
    (hwell : Statement.WellFormedList false statements) : ReadsBlock statements written := by
  cases h with
  | @block statements front inner back hfront h hback =>
    refine ⟨front, inner ++ back ++ Token.closeBrace.lexeme, by simp only [List.append_assoc],
      hfront, ?_⟩
    intro header done enclosing rest program hrest
    simp only [List.append_assoc]
    -- at the beginning of a block no branch stands in front
    have hwell' : Statement.WellFormedList (endsWithOpenBranch []) statements := hwell
    apply reads_writtenList h hwell'
    apply reads_mark hback (by decide) .close
    simpa using hrest

/-- Written statements are read one after the other. -/
theorem reads_writtenList {statements : List Statement} {written : List Char}
    (h : Statement.WrittenList statements written) :
    ∀ {done : List Statement} {enclosing : List Frame} {rest : List Char}
      {program : List Statement}, Statement.WellFormedList (endsWithOpenBranch done) statements →
      Reads ⟨statements.reverse ++ done, enclosing, .statement⟩ rest program →
      Reads ⟨done, enclosing, .statement⟩ (written ++ rest) program := by
  intro done enclosing rest program hwell hrest
  cases h with
  | nil => exact hrest
  | @cons s others first written h hothers =>
    cases hwell with
    | cons hfirst hwell =>
      -- the next statement comes right after this one
      have hwell' : Statement.WellFormedList (endsWithOpenBranch (s :: done)) others := hwell
      rw [List.append_assoc]
      apply reads_written h hfirst
      apply reads_writtenList hothers hwell'
      simpa using hrest

end

theorem parseChars_of_written {program : List Statement} {source : List Char}
    (hwell : Statement.WellFormedList false program) (h : WrittenProgram program source) :
    parseChars source = .ok program := by
  obtain ⟨body, back, hbody, hback, rfl⟩ := h
  have hwell' : Statement.WellFormedList (endsWithOpenBranch []) program := hwell
  have hreads : Reads State.initial (body ++ back) program := by
    apply reads_writtenList hbody hwell'
    apply reads_layout hback
    simp [State.finish?]
  exact hreads _

end Parser

/-! ## §5 Reading and writing -/

theorem exists_writtenBlock {statements : List Statement} {inner : List Char}
    (h : Statement.WrittenList statements inner) :
    ∃ written, Statement.WrittenBlock statements written :=
  ⟨_, .block isLayout_nil h isLayout_nil⟩

mutual

/-- A statement that can be written down is written in some way. -/
theorem Statement.WellFormed.exists_written {afterBranch : Bool} {s : Statement}
    (h : s.WellFormed afterBranch) : ∃ written, s.Written written := by
  have hgap : IsLayout [' '] := List.forall_mem_singleton.2 rfl
  have hne : [' '] ≠ [] := List.cons_ne_nil ' ' []
  cases h with
  | step h => exact ⟨_, .step isLayout_nil (spells_self _) isLayout_nil⟩
  | exit => exact ⟨_, .exit isLayout_nil isLayout_nil⟩
  | ifThen hcondition h =>
    obtain ⟨inner, hinner⟩ := Statement.WellFormedList.exists_written h
    obtain ⟨block, hblock⟩ := exists_writtenBlock hinner
    exact ⟨_, .ifThen isLayout_nil hgap hne (spells_self _) hblock⟩
  | ifThenElse hcondition h hother =>
    obtain ⟨inner, hinner⟩ := Statement.WellFormedList.exists_written h
    obtain ⟨block, hblock⟩ := exists_writtenBlock hinner
    obtain ⟨otherInner, hotherInner⟩ := Statement.WellFormedList.exists_written hother
    obtain ⟨otherBlock, hotherBlock⟩ := exists_writtenBlock hotherInner
    exact ⟨_, .ifThenElse isLayout_nil hgap hne (spells_self _) hblock isLayout_nil hotherBlock⟩
  | whileDo hcondition h =>
    obtain ⟨inner, hinner⟩ := Statement.WellFormedList.exists_written h
    obtain ⟨block, hblock⟩ := exists_writtenBlock hinner
    exact ⟨_, .whileDo isLayout_nil hgap hne (spells_self _) hblock⟩

theorem Statement.WellFormedList.exists_written {afterBranch : Bool} {statements : List Statement}
    (h : Statement.WellFormedList afterBranch statements) :
    ∃ written, Statement.WrittenList statements written := by
  cases h with
  | nil => exact ⟨_, .nil⟩
  | cons h hrest =>
    obtain ⟨first, hfirst⟩ := Statement.WellFormed.exists_written h
    obtain ⟨others, hothers⟩ := Statement.WellFormedList.exists_written hrest
    exact ⟨_, .cons hfirst hothers⟩

end

theorem Statement.WellFormedList.exists_writtenProgram {program : List Statement}
    (h : Statement.WellFormedList false program) : ∃ source, WrittenProgram program source := by
  obtain ⟨body, hbody⟩ := h.exists_written
  exact ⟨body ++ [], body, [], hbody, isLayout_nil, rfl⟩

/-- How errors are reported makes no difference to what is read. -/
theorem parse_eq_ok_iff {source : String} {program : List Statement} :
    parse source = .ok program ↔ Parser.parseChars source.toList = .ok program := by
  unfold parse
  cases Parser.parseChars source.toList <;> simp [Except.mapError]

/-- **Reading and writing are inverse to each other.**  The programs that reading gives are
    the ones that can be written down, and each of them is what is read back, in whatever
    way it is written. -/
theorem parse_inverts_writing :
    (∀ program : List Statement, (∃ source, parse source = .ok program) ↔
      Statement.WellFormedList false program) ∧
    ∀ (program : List Statement) (source : List Char), Statement.WellFormedList false program →
      WrittenProgram program source → parse (String.ofList source) = .ok program := by
  have hwriting : ∀ (program : List Statement) (source : List Char),
      Statement.WellFormedList false program → WrittenProgram program source →
      parse (String.ofList source) = .ok program := by
    intro program source hwell hwritten
    rw [parse_eq_ok_iff, String.toList_ofList]
    exact Parser.parseChars_of_written hwell hwritten
  refine ⟨?_, hwriting⟩
  intro program
  constructor
  · rintro ⟨source, hparse⟩
    exact Parser.wellFormed_of_parseChars (parse_eq_ok_iff.1 hparse)
  · intro hwell
    obtain ⟨source, hsource⟩ := hwell.exists_writtenProgram
    exact ⟨String.ofList source, hwriting program source hwell hsource⟩

/-- A condition that looks like a keyword, in front of a step of two words. -/
theorem exists_written_with_keyword_condition :
    Statement.WellFormedList false [.ifThen "else" [.exit], .step "a b"] ∧
      WrittenProgram [.ifThen "else" [.exit], .step "a b"]
        "if\n else\x7bexit ;\x7da\t b;\n".toList ∧
      parse (String.ofList "if\n else\x7bexit ;\x7da\t b;\n".toList) =
        .ok [.ifThen "else" [.exit], .step "a b"] := by
  have hcondition : IsWritable "else" := ⟨by decide, by decide, List.all_eq_true.1 rfl⟩
  have hstep : IsWritableStep true "a b" := by
    refine ⟨⟨by decide, by decide, List.all_eq_true.1 rfl⟩, by decide, ?_, ?_, fun _ => ?_⟩ <;>
      · rintro ⟨rest, h, -⟩
        cases h
  have hwell : Statement.WellFormedList false [.ifThen "else" [.exit], .step "a b"] :=
    .cons (.ifThen hcondition (.cons .exit .nil)) (.cons (.step hstep) .nil)
  have hspells : Spells "a b".toList ['a', '\t', ' ', 'b'] :=
    .char (by decide) (.space (show IsLayout ['\t', ' '] by simp [IsLayout, isLayout]) (by decide)
      (.char (by decide) .nil))
  have hspace : IsLayout [' '] := List.forall_mem_singleton.2 rfl
  have hnewline : IsLayout ['\n'] := List.forall_mem_singleton.2 rfl
  have hgap : IsLayout ['\n', ' '] := by simp [IsLayout, isLayout]
  have hwritten : WrittenProgram [.ifThen "else" [.exit], .step "a b"]
      "if\n else\x7bexit ;\x7da\t b;\n".toList :=
    ⟨_, _, .cons (.ifThen isLayout_nil hgap (by decide) (spells_self _)
      (.block isLayout_nil (.cons (.exit isLayout_nil hspace) .nil) isLayout_nil))
      (.cons (.step isLayout_nil hspells isLayout_nil) .nil), hnewline, rfl⟩
  exact ⟨hwell, hwritten, parse_inverts_writing.2 _ _ hwell hwritten⟩

end Flowchart
