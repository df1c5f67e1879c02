import Flowchart.Proofs.Lookahead
import Mathlib.Data.List.Induction

/-!
# Errors Stand Where a Text Goes Wrong

Whatever has been read can still become a flow: blocks can be closed, a branch can get its
block, a step its semicolon.  So the characters in front of an error are the beginning of
some flow.  With the characters at the error they are not, as far as the next mark: up to
there all is read as before, and what stands at the error is refused as before.  A text
that merely ends too early is itself the beginning of a flow, and its error stands at its
last token.

A step that is cut short is made longer by a letter before it gets its semicolon, because
of `exit`, which would be a word of the language in front of one.

Main statements: what has been read can become a flow (`Reaches.exists_accepts`), what is
refused stays refused (`State.next?_eq_none_of_refused`), and the two together for every
error (`parse_error_at_first_wrong_place`).
-/

namespace Flowchart

open Text

/-! ## §1 Beginnings of flows -/

/-- A text that can be read as a flow. -/
def IsFlow (source : List Char) : Prop :=
  ∃ program, parse (String.ofList source) = .ok program

/-- A text that some flow begins with. -/
def BeginsFlow (source : List Char) : Prop :=
  ∃ more, IsFlow (source ++ more)

/-- The part of a text that ends with its first mark; all of it, if it has none. -/
def throughMark (cs : List Char) : List Char :=
  cs.takeWhile Token.isTextChar ++ (cs.dropWhile Token.isTextChar).take 1

theorem throughMark_append (cs : List Char) :
    throughMark cs ++ (cs.dropWhile Token.isTextChar).drop 1 = cs := by
  rw [throughMark, List.append_assoc, List.take_append_drop, List.takeWhile_append_dropWhile]

theorem hasMark_throughMark {cs : List Char} (h : Token.HasMark cs) :
    Token.HasMark (throughMark cs) := by
  cases hdrop : cs.dropWhile Token.isTextChar with
  | nil =>
    obtain ⟨c, hc, hmark⟩ := h
    rw [List.dropWhile_eq_nil_iff.1 hdrop c hc] at hmark
    cases hmark
  | cons c rest =>
    refine ⟨c, by simp [throughMark, hdrop], ?_⟩
    have hstop := List.head?_dropWhile_not Token.isTextChar cs
    simpa [hdrop] using hstop

theorem throughMark_of_not_hasMark {cs : List Char} (h : ¬Token.HasMark cs) :
    throughMark cs = cs := by
  have hdrop : cs.dropWhile Token.isTextChar = [] :=
    List.dropWhile_eq_nil_iff.2 (Token.not_hasMark.1 h)
  have happend := throughMark_append cs
  rwa [hdrop, List.drop_nil, List.append_nil] at happend

theorem exists_throughMark_cons (c : Char) (cs : List Char) :
    ∃ rest, throughMark (c :: cs) = c :: rest := by
  cases hc : Token.isTextChar c <;> simp [throughMark, hc]

namespace Parser

/-! ## §2 Flows can be completed -/

/-- From a state on, an input is read to its end. -/
def Accepts (s : State) (input : List Char) : Prop :=
  ∃ program, Reads s input program

/-- Where an error would be reported makes no difference to what is read. -/
theorem reads_of_run {last input : List Char} {s : State} {program : List Statement}
    (h : run last s input = .ok program) : Reads s input program := by
  intro last'
  rw [run_eq] at h ⊢
  split at h
  · split at h
    · exact h
    · cases h
  · exact h

theorem isFlow_iff_accepts {source : List Char} : IsFlow source ↔ Accepts .initial source := by
  apply exists_congr
  intro program
  rw [parse_eq_ok_iff, String.toList_ofList]
  exact ⟨reads_of_run, fun h => h _⟩

theorem Reaches.accepts {s s' : State} {input rest : List Char} (h : Reaches s input s' rest)
    (hrest : Accepts s' rest) : Accepts s input := by
  obtain ⟨program, hreads⟩ := hrest
  refine ⟨program, fun last => ?_⟩
  obtain ⟨last', hsame⟩ := h.run_eq last
  rw [hsame]
  exact hreads last'

theorem accepts_of_next? {s s' : State} {input after : List Char}
    (hnext : s.next? input = some (s', after)) (h : Accepts s' after) : Accepts s input :=
  (Reaches.take isLayout_nil hnext (.refl s' after)).accepts h

theorem accepts_mark {s s' : State} {mark : Token} {rest : List Char}
    (hmark : mark ∈ Token.marks) (htakes : Takes s mark s') (h : Accepts s' rest) :
    Accepts s (mark.lexeme ++ rest) := by
  obtain ⟨program, hreads⟩ := h
  exact ⟨program, reads_mark isLayout_nil hmark htakes hreads⟩

theorem accepts_text {s s' : State} {chars more : List Char}
    (hbefore : Token.TextBefore chars more)
    (hnone : ∀ p, Token.keyword? (chars ++ more) = some p → s.step? p.1 = none)
    (htakes : Takes s (.text chars) s') (h : Accepts s' more) : Accepts s (chars ++ more) := by
  obtain ⟨program, hreads⟩ := h
  exact ⟨program, reads_text isLayout_nil hbefore hnone htakes hreads⟩

/-- The braces that close all blocks. -/
def closers (enclosing : List Frame) : List Char :=
  enclosing.flatMap fun _ => Token.closeBrace.lexeme

theorem accepts_closers (done : List Statement) (enclosing : List Frame) :
    Accepts ⟨done, enclosing, .statement⟩ (closers enclosing) := by
  induction enclosing generalizing done with
  | nil => exact ⟨done.reverse, reads_layout isLayout_nil rfl⟩
  | cons frame enclosing ih => exact accepts_mark (by decide) .close (ih _)

/-- An empty block, and the braces that close the blocks around it. -/
theorem accepts_block (done : List Statement) (enclosing : List Frame) (header : Header) :
    Accepts ⟨done, enclosing, .opening header⟩
      (Token.openBrace.lexeme ++ (Token.closeBrace.lexeme ++ closers enclosing)) :=
  accepts_mark (by decide) .open (accepts_closers [] (⟨header, done⟩ :: enclosing))

/-- No keyword may come where a condition has to stand. -/
theorem step?_keyword_of_condition {s : State}
    (h : s.awaiting = .ifCondition ∨ s.awaiting = .whileCondition)
    {keyword : Token} (hmem : keyword ∈ Token.keywords) : s.step? keyword = none := by
  obtain ⟨done, enclosing, awaiting⟩ := s
  simp only [Token.keywords, List.mem_cons, List.not_mem_nil, or_false] at hmem
  rcases h with rfl | rfl <;> rcases hmem with rfl | rfl | rfl | rfl <;> rfl

/-- A condition that was read can get its block. -/
theorem exists_accepts_condition {s s' : State} {chars : List Char}
    (hcondition : s.awaiting = .ifCondition ∨ s.awaiting = .whileCondition)
    (hstarts : ∃ c cs, chars = c :: cs ∧ isBlank c = false)
    (hplain : ∀ c ∈ chars, Token.isTextChar c = true) (htakes : Takes s (.text chars) s') :
    ∃ more, Accepts s (chars ++ more) := by
  refine ⟨Token.openBrace.lexeme ++ (Token.closeBrace.lexeme ++ closers s.enclosing), ?_⟩
  apply accepts_text ⟨hstarts, hplain, Token.not_isTextChar_head .openBrace (by decide) _⟩ _ htakes
  · cases htakes with
    | step => simp at hcondition
    | branchCondition => exact accepts_block _ _ _
    | loopCondition => exact accepts_block _ _ _
  · intro p hp
    exact step?_keyword_of_condition hcondition (Token.keyword?_eq_some_iff.1 hp).1

/-- From every state on there is some input that is read to its end. -/
theorem exists_accepts (s : State) : ∃ input, Accepts s input := by
  obtain ⟨done, enclosing, awaiting⟩ := s
  have hstarts : ∃ c cs, ['a'] = c :: cs ∧ isBlank c = false := ⟨'a', [], rfl, by decide⟩
  have hplain : ∀ c ∈ ['a'], Token.isTextChar c = true := List.forall_mem_singleton.2 rfl
  cases awaiting with
  | statement => exact ⟨_, accepts_closers done enclosing⟩
  | ifCondition =>
    obtain ⟨more, h⟩ := exists_accepts_condition (Or.inl rfl) hstarts hplain
      (@Takes.branchCondition done enclosing ['a'])
    exact ⟨_, h⟩
  | whileCondition =>
    obtain ⟨more, h⟩ := exists_accepts_condition (Or.inr rfl) hstarts hplain
      (@Takes.loopCondition done enclosing ['a'])
    exact ⟨_, h⟩
  | opening header => exact ⟨_, accepts_block done enclosing header⟩
  | semicolon s => exact ⟨_, accepts_mark (by decide) .semicolon (accepts_closers _ _)⟩

/-! ## §3 What has been read can become a flow -/

/-- If a letter is put behind a text, a keyword in front of it has to end inside the text. -/
theorem exists_of_keyword?_letter {chars rest after : List Char} {keyword : Token}
    (hplain : ∀ c ∈ chars, Token.isTextChar c = true)
    (h : Token.keyword? (chars ++ 'a' :: ';' :: rest) = some (keyword, after)) :
    keyword ∈ Token.keywords ∧ keyword ≠ .exitWord ∧ ∃ c others,
      chars = keyword.lexeme ++ c :: others ∧ isWordChar c = false := by
  obtain ⟨hmem, hafter⟩ := Token.keyword?_eq_some_iff.1 h
  obtain ⟨hinput, hends⟩ := Token.after?_eq_some_iff.1 hafter
  have hletter : 'a' ∉ keyword.lexeme := by
    have hall : ∀ k ∈ Token.keywords, 'a' ∉ k.lexeme := by decide
    exact hall keyword hmem
  -- there is no such letter in a keyword, so it ends before the letter
  obtain ⟨others, rfl, rfl⟩ : ∃ others, chars = keyword.lexeme ++ others ∧
      after = others ++ 'a' :: ';' :: rest := by
    rcases List.append_eq_append_iff.1 hinput with ⟨more, hword, hmore⟩ | ⟨others, hchars, hrest⟩
    · cases more with
      | nil => exact ⟨[], by simpa using hword.symm, by simpa using hmore.symm⟩
      | cons c more =>
        obtain ⟨rfl, -⟩ := List.cons.inj hmore
        exact absurd (hword ▸ by simp) hletter
    · exact ⟨others, hchars, hrest⟩
  have hplain' : ∀ c ∈ others ++ ['a'], Token.isTextChar c = true := by
    intro c hc
    rcases List.mem_append.1 hc with hc | hc
    · exact hplain c (List.mem_append_right _ hc)
    · obtain rfl := List.mem_singleton.1 hc
      decide
  have hexit : keyword ≠ .exitWord := by
    rintro rfl
    -- the letter stands between `exit` and the semicolon
    have hmark := Token.not_isTextChar_head .semicolon (by decide) rest
    have hblank := (Token.head?_dropWhile_append hplain' hmark).1 (by
      simpa [Token.endsBefore, Token.lexeme] using hends)
    exact absurd (hblank.1 'a' (by simp)) (by decide)
  rw [endsBefore_eq_true_iff hexit] at hends
  refine ⟨hmem, hexit, ?_⟩
  cases others with
  | nil => exact absurd (hends 'a' rfl) (by decide)
  | cons c others => exact ⟨c, others, rfl, hends c rfl⟩

/-- A step that was begun can become a step of a flow. -/
theorem exists_accepts_step {done : List Statement} {enclosing : List Frame} {chars : List Char}
    (hstarts : ∃ c cs, chars = c :: cs ∧ isBlank c = false)
    (hplain : ∀ c ∈ chars, Token.isTextChar c = true)
    (hnone : ∀ keyword ∈ Token.keywords, keyword ≠ .exitWord → ∀ c others,
      chars = keyword.lexeme ++ c :: others → isWordChar c = false →
      (State.mk done enclosing .statement).step? keyword = none) :
    ∃ more, Accepts ⟨done, enclosing, .statement⟩ (chars ++ more) := by
  refine ⟨'a' :: ';' :: closers enclosing, ?_⟩
  have hbefore : Token.TextBefore (chars ++ ['a'])
      (Token.semicolon.lexeme ++ closers enclosing) := by
    obtain ⟨c, cs, rfl, hc⟩ := hstarts
    refine ⟨⟨c, cs ++ ['a'], rfl, hc⟩, ?_, Token.not_isTextChar_head .semicolon (by decide) _⟩
    intro d hd
    rcases List.mem_append.1 hd with hd | hd
    · exact hplain d hd
    · obtain rfl := List.mem_singleton.1 hd
      decide
  have hinput : chars ++ 'a' :: ';' :: closers enclosing =
      chars ++ ['a'] ++ (Token.semicolon.lexeme ++ closers enclosing) := by
    simp [Token.lexeme]
  rw [hinput]
  apply accepts_text hbefore _ .step
  · exact accepts_mark (by decide) .semicolon (accepts_closers _ _)
  · rintro ⟨keyword, after⟩ hkeyword
    rw [← hinput] at hkeyword
    obtain ⟨hmem, hexit, c, others, hchars, hc⟩ := exists_of_keyword?_letter hplain hkeyword
    exact hnone keyword hmem hexit c others hchars hc

/-- A token that was taken can be gone on with, if what has been read behind it can. -/
theorem exists_accepts_of_next? {s s' : State} {lexeme between after more : List Char}
    (hnext : s.next? (lexeme ++ (between ++ after)) = some (s', between ++ after))
    (hmore : Accepts s' (between ++ more)) :
    ∃ more, Accepts s (lexeme ++ (between ++ more)) := by
  by_cases hmark : Token.HasMark (lexeme ++ between)
  · -- the token has seen a mark, so it is taken whatever comes after that
    exact ⟨more, accepts_of_next? (State.next?_replace hnext (Or.inl hmark) more) hmore⟩
  rw [Token.hasMark_append, not_or] at hmark
  have hplain := Token.not_hasMark.1 hmark.2
  have htaken := State.taken_of_next? hnext
  generalize hinput : lexeme ++ (between ++ after) = input at htaken
  generalize hrest : between ++ after = rest at htaken hinput
  cases htaken with
  | @word keyword s' rest hmem hexit hends hstep =>
    obtain rfl := List.append_cancel_right hinput
    cases between with
    | nil =>
      -- a space lets the word end where it does
      refine ⟨' ' :: more, accepts_of_next? (State.next?_of_word hmem hexit ?_ hstep) ?_⟩
      · intro c hc
        obtain rfl := Option.some.inj hc
        decide
      · have hspace : IsLayout [' '] := List.forall_mem_singleton.2 rfl
        exact (@Reaches.skip s' [' '] more hspace).accepts hmore
    | cons c between =>
      subst hrest
      exact ⟨more, accepts_of_next? (State.next?_of_word hmem hexit hends hstep) hmore⟩
  | @exit s' rest hends hstep =>
    obtain rfl := List.append_cancel_right hinput
    obtain ⟨done, enclosing, awaiting⟩ := s
    cases State.step?_eq_some_iff.1 hstep with
    | exit =>
      -- the semicolon is gone, and the word becomes the beginning of a step
      have hbegun : ∃ more, Accepts ⟨done, enclosing, .statement⟩
          (Token.exitWord.lexeme ++ between ++ more) := by
        apply exists_accepts_step ⟨'e', 'x' :: 'i' :: 't' :: between, rfl, by decide⟩
        · exact Token.not_hasMark.1 fun h => (Token.hasMark_append.1 h).elim hmark.1 hmark.2
        · intro keyword hmem hexit c others hchars
          exact absurd (Token.keyword_unique hmem (by decide) hchars.symm) hexit
      simpa only [List.append_assoc] using hbegun
  | @mark mark s' rest hmem hstep =>
    obtain rfl := List.append_cancel_right hinput
    exact absurd (Token.hasMark_lexeme hmem) hmark.1
  | @text chars s' rest hbefore hnone hstep =>
    obtain rfl := List.append_cancel_right hinput
    -- nothing has been read behind the text, because a mark would come first
    obtain rfl : between = [] := by
      cases between with
      | nil => rfl
      | cons c between =>
        subst hrest
        have hc := hplain c List.mem_cons_self
        rw [hbefore.ends c rfl] at hc
        cases hc
    simp only [List.nil_append] at hrest ⊢
    subst hrest
    have htakes := State.step?_eq_some_iff.1 hstep
    cases htakes with
    | step =>
      apply exists_accepts_step hbefore.starts hbefore.plain
      rintro keyword hmem hexit c others rfl hc
      -- a word that ends in the text was offered in front of it as well
      refine hnone (keyword, c :: others ++ after) ?_
      rw [Token.keyword?_eq_some_iff, Token.after?_eq_some_iff, endsBefore_eq_true_iff hexit]
      refine ⟨hmem, List.append_assoc _ _ _, ?_⟩
      intro d hd
      obtain rfl := Option.some.inj hd
      exact hc
    | branchCondition =>
      exact exists_accepts_condition (Or.inl rfl) hbefore.starts hbefore.plain .branchCondition
    | loopCondition =>
      exact exists_accepts_condition (Or.inr rfl) hbefore.starts hbefore.plain .loopCondition

/-- **What has been read can become a flow.** -/
theorem Reaches.exists_accepts {s s' : State} {front rest : List Char}
    (h : Reaches s (front ++ rest) s' rest) : ∃ more, Accepts s (front ++ more) := by
  generalize hinput : front ++ rest = input at h
  induction h generalizing front with
  | @skip s gap rest hgap =>
    obtain rfl := List.append_cancel_right hinput
    obtain ⟨more, hmore⟩ := Parser.exists_accepts s
    exact ⟨more, (Reaches.skip hgap).accepts hmore⟩
  | @take s s' s'' gap input behind rest hgap hnext h ih =>
    obtain ⟨between, rfl⟩ := h.suffix
    obtain ⟨lexeme, rfl⟩ := State.suffix_of_next? hnext
    obtain rfl : front = gap ++ (lexeme ++ between) := by
      apply (List.append_left_inj rest).1
      rw [hinput]
      simp only [List.append_assoc]
    obtain ⟨more, hmore⟩ := @ih between rfl
    obtain ⟨more', hmore'⟩ := exists_accepts_of_next? hnext hmore
    refine ⟨more', ?_⟩
    rw [List.append_assoc, List.append_assoc]
    exact (Reaches.skip hgap).accepts hmore'

theorem Reaches.beginsFlow {s : State} {front rest : List Char}
    (h : Reaches .initial (front ++ rest) s rest) : BeginsFlow front := by
  obtain ⟨more, hmore⟩ := h.exists_accepts
  exact ⟨more, isFlow_iff_accepts.2 hmore⟩

/-! ## §4 What is refused stays refused -/

/-- Where no text may come, no keyword may and no other text. -/
theorem State.step?_eq_none_of_text {s : State} {cs : List Char}
    (h : s.step? (.text cs) = none) {token : Token}
    (htoken : token ∈ Token.keywords ∨ ∃ ds, token = .text ds) : s.step? token = none := by
  obtain ⟨done, enclosing, awaiting⟩ := s
  simp only [Token.keywords, List.mem_cons, List.not_mem_nil, or_false] at htoken
  cases awaiting with
  | statement | ifCondition | whileCondition => cases h
  | opening header => rcases htoken with (rfl | rfl | rfl | rfl) | ⟨ds, rfl⟩ <;> rfl
  | semicolon s => rcases htoken with (rfl | rfl | rfl | rfl) | ⟨ds, rfl⟩ <;> rfl

/-- Where a text stands, a keyword or a text is taken. -/
theorem State.next?_of_text {s s' : State} {c : Char} {cs rest : List Char}
    (htext : Token.isTextChar c = true) (hblank : isBlank c = false)
    (h : s.next? (c :: cs) = some (s', rest)) :
    ∃ token, (token ∈ Token.keywords ∨ ∃ ds, token = .text ds) ∧ s.step? token = some s' := by
  rcases next?_eq_some_iff.1 h with ⟨keyword, hkeyword, hstep⟩ | ⟨-, token, hplain, hstep⟩
  · exact ⟨keyword, Or.inl (Token.keyword?_eq_some_iff.1 hkeyword).1, hstep⟩
  · rw [Token.plain?_of_text htext hblank] at hplain
    obtain ⟨rfl, -⟩ := Prod.mk.inj (Option.some.inj hplain)
    exact ⟨_, Or.inr ⟨_, rfl⟩, hstep⟩

/-- If all that is left is a text and it is refused, no text may come. -/
theorem State.step?_text_of_refused {s : State} {c : Char} {cs : List Char}
    (htext : ∀ d ∈ c :: cs, Token.isTextChar d = true) (hblank : isBlank c = false)
    (h : s.next? (c :: cs) = none) : s.step? (.text (c :: cs)) = none := by
  rw [Option.eq_none_iff_forall_not_mem]
  intro s' hstep
  -- either a keyword would be taken here, or the text
  have hsome : (s.next? (c :: cs)).isSome := by
    rw [next?, List.findSome?_isSome_iff]
    refine ⟨(.text (c :: cs), []), ?_, by simp [Option.mem_def.1 hstep]⟩
    apply List.mem_append_right
    rw [Option.mem_toList, Token.plain?_eq_text_iff]
    exact ⟨by simp, ⟨c, cs, rfl, hblank⟩, htext, by simp⟩
  rw [h] at hsome
  cases hsome

/-- **What is refused stays refused**, whatever comes after the next mark. -/
theorem State.next?_eq_none_of_refused {s : State} {c : Char} {cs : List Char}
    (h : s.next? (c :: cs) = none) (more : List Char) :
    s.next? (throughMark (c :: cs) ++ more) = none := by
  by_cases hmark : Token.HasMark (c :: cs)
  · rw [← throughMark_append (c :: cs), s.next?_append (hasMark_throughMark hmark),
      Option.map_eq_none_iff] at h
    rw [s.next?_append (hasMark_throughMark hmark), h]
    rfl
  · rw [throughMark_of_not_hasMark hmark, List.cons_append]
    have htext := Token.not_hasMark.1 hmark
    cases hblank : isBlank c with
    | true =>
      -- a blank that is no layout begins no token
      rw [next?, Token.candidates_of_blank _ hblank]
      rfl
    | false =>
      have hnone := step?_text_of_refused htext hblank h
      rw [Option.eq_none_iff_forall_not_mem]
      rintro ⟨s', rest⟩ hnext
      obtain ⟨token, htoken, hstep⟩ := next?_of_text (htext c List.mem_cons_self) hblank hnext
      rw [step?_eq_none_of_text hnone htoken] at hstep
      cases hstep

/-- A place that is reached and where nothing may come spoils the text from there up to the
    next mark, whatever is put after that. -/
theorem Reaches.not_beginsFlow {s : State} {front : List Char} {c : Char} {cs : List Char}
    (h : Reaches .initial (front ++ c :: cs) s (c :: cs)) (hlayout : isLayout c = false)
    (hnext : s.next? (c :: cs) = none) : ¬BeginsFlow (front ++ throughMark (c :: cs)) := by
  rintro ⟨more, hflow⟩
  obtain ⟨program, hreads⟩ := isFlow_iff_accepts.1 hflow
  obtain ⟨seen, hthrough⟩ := exists_throughMark_cons c cs
  have hne : throughMark (c :: cs) ≠ [] := hthrough ▸ List.cons_ne_nil c seen
  have hseen : Token.HasMark (throughMark (c :: cs)) ∨ ¬Token.HasMark (throughMark (c :: cs) ++
      ((c :: cs).dropWhile Token.isTextChar).drop 1) := by
    rw [throughMark_append]
    by_cases hmark : Token.HasMark (c :: cs)
    · exact Or.inl (hasMark_throughMark hmark)
    · exact Or.inr hmark
  rw [← throughMark_append (c :: cs)] at h
  have hreaches := h.replace hne hseen more
  -- the place is reached once more, and nothing may come there
  have hrefused := State.next?_eq_none_of_refused hnext more
  rw [hthrough, List.cons_append] at hrefused hreaches
  have hfails := hreaches.run_of_refused hlayout hrefused []
  rw [← List.cons_append, ← hthrough, ← List.append_assoc, hreads []] at hfails
  cases hfails

/-! ## §5 Errors -/

/-- The last token of a text stands behind `front`: a token is taken there, and after it
    there is only layout. -/
def LastTokenAfter (front rest : List Char) : Prop :=
  ∃ s s' after, Reaches .initial (front ++ rest) s rest ∧ s.next? rest = some (s', after) ∧
    IsLayout after

/-- A text that is read to its end is the beginning of a flow. -/
theorem LastTokenAfter.beginsFlow {front rest : List Char} (h : LastTokenAfter front rest) :
    BeginsFlow (front ++ rest) := by
  obtain ⟨s, s', after, hreaches, hnext, hafter⟩ := h
  have hend : Reaches s' after s' [] := by simpa using @Reaches.skip s' after [] hafter
  have hall := hreaches.trans (.take isLayout_nil hnext hend)
  rw [← List.append_nil (front ++ rest)] at hall
  exact hall.beginsFlow

/-- Layout, and behind it a character that is none. -/
theorem exists_gap {input cs : List Char} {c : Char} (h : input.dropWhile isLayout = c :: cs) :
    isLayout c = false ∧ ∃ gap, IsLayout gap ∧ input = gap ++ c :: cs := by
  constructor
  · have hstop := List.head?_dropWhile_not isLayout input
    simpa [h] using hstop
  · refine ⟨input.takeWhile isLayout, fun d hd => List.all_eq_true.1 List.all_takeWhile d hd, ?_⟩
    rw [← h, List.takeWhile_append_dropWhile]

/-- How a run fails: at a place where nothing may come, or at the end of the input.  The
    end is reported at the last token; without any, where it was before. -/
theorem exists_reaches_of_run_error {last input : List Char} {s : State} {f : Failure}
    (h : run last s input = .error f) :
    (∃ s' c cs, f.suffix = c :: cs ∧ isLayout c = false ∧ Reaches s input s' (c :: cs) ∧
        s'.next? (c :: cs) = none) ∨
      (∃ s' after t c cs, f.suffix = c :: cs ∧ isLayout c = false ∧
        Reaches s input s' (c :: cs) ∧ s'.next? (c :: cs) = some (t, after) ∧ IsLayout after) ∨
      s.finish? = none ∧ f.suffix = last ∧ IsLayout input := by
  fun_induction run last s input with
  | case1 => cases h
  | case2 last s input hinput hfinish =>
    obtain rfl := Except.error.inj h
    exact Or.inr (Or.inr ⟨hfinish, rfl, List.dropWhile_eq_nil_iff.1 hinput⟩)
  | case3 last s input c cs hinput s' rest hnext ih =>
    obtain ⟨hc, gap, hgap, rfl⟩ := exists_gap hinput
    rcases ih h with ⟨t, d, ds, hsuffix, hd, hreaches, hnone⟩ |
      ⟨t, after, u, d, ds, hsuffix, hd, hreaches, hlast, hafter⟩ | ⟨-, hsuffix, hrest⟩
    · exact Or.inl ⟨t, d, ds, hsuffix, hd, .take hgap hnext hreaches, hnone⟩
    · exact Or.inr (Or.inl ⟨t, after, u, d, ds, hsuffix, hd, .take hgap hnext hreaches, hlast,
        hafter⟩)
    · -- this token is the last one
      exact Or.inr (Or.inl ⟨s, rest, s', c, cs, hsuffix, hc, .skip hgap, hnext, hrest⟩)
  | case4 last s input c cs hinput hnext =>
    obtain rfl := Except.error.inj h
    obtain ⟨hc, gap, hgap, rfl⟩ := exists_gap hinput
    exact Or.inl ⟨s, c, cs, rfl, hc, .skip hgap, hnext⟩

/-- The place behind some characters: one line further for each line feed, and one column
    further for each character after the last of them. -/
theorem position_after (front : List Char) :
    Position.after front =
      ⟨front.count '\n' + 1, (front.reverse.takeWhile (· ≠ '\n')).length + 1⟩ := by
  induction front using List.reverseRecOn with
  | nil => rfl
  | append_singleton front c ih =>
    have hstep : Position.after (front ++ [c]) = (Position.after front).advance c := by
      simp [Position.after]
    rw [hstep, ih, Position.advance]
    by_cases hc : c = '\n'
    · simp [hc]
    · simp [hc, List.count_append]

end Parser

open Flowchart.Parser in
/-- **An error stands at the first place where the text goes wrong.**  Its line and column
    are those of a character that is no layout.  The characters in front of it are the
    beginning of a flow.  Either the whole text is one too, and then it ended too early and
    the character begins its last token; or with the characters up to the next mark, the
    text is the beginning of no flow. -/
theorem parse_error_at_first_wrong_place {source : String} {e : SyntaxError}
    (h : parse source = .error e) :
    ∃ front c rest, source.toList = front ++ c :: rest ∧ isLayout c = false ∧
      e.position =
        ⟨front.count '\n' + 1, (front.reverse.takeWhile (· ≠ '\n')).length + 1⟩ ∧
      BeginsFlow front ∧
      (BeginsFlow source.toList ∧ LastTokenAfter front (c :: rest) ∨
        ¬BeginsFlow (front ++ throughMark (c :: rest))) := by
  obtain ⟨f, hrun, rfl⟩ : ∃ f, parseChars source.toList = .error f ∧
      e = f.toSyntaxError source.toList := by
    unfold parse at h
    cases hrun : parseChars source.toList with
    | ok program => simp [hrun, Except.mapError] at h
    | error f => exact ⟨f, rfl, by simpa [hrun, Except.mapError] using h.symm⟩
  have hposition : ∀ {front c rest}, source.toList = front ++ c :: rest → f.suffix = c :: rest →
      (f.toSyntaxError source.toList).position =
        ⟨front.count '\n' + 1, (front.reverse.takeWhile (· ≠ '\n')).length + 1⟩ := by
    intro front c rest hsource hsuffix
    rw [← position_after, Failure.toSyntaxError, hsource, hsuffix]
    simp
  rcases exists_reaches_of_run_error hrun with ⟨s, c, rest, hsuffix, hc, hreaches, hnone⟩ |
    ⟨s, after, s', c, rest, hsuffix, hc, hreaches, hlast, hafter⟩ | ⟨hfinish, -, -⟩
  · obtain ⟨front, hfront⟩ := hreaches.suffix
    rw [← hfront] at hreaches
    refine ⟨front, c, rest, hfront.symm, hc, hposition hfront.symm hsuffix, hreaches.beginsFlow, ?_⟩
    exact Or.inr (hreaches.not_beginsFlow hc hnone)
  · obtain ⟨front, hfront⟩ := hreaches.suffix
    rw [← hfront] at hreaches
    have htoken : LastTokenAfter front (c :: rest) := ⟨s, s', after, hreaches, hlast, hafter⟩
    refine ⟨front, c, rest, hfront.symm, hc, hposition hfront.symm hsuffix, hreaches.beginsFlow, ?_⟩
    exact Or.inl ⟨hfront ▸ htoken.beginsFlow, htoken⟩
  · -- with nothing read a flow may end
    cases hfinish

/-- A brace after a step without its semicolon. -/
theorem exists_wrong_place_of_stray_brace :
    parse "a;\nb \x7d" = .error ⟨.unexpected .closeBrace, ⟨2, 3⟩⟩ ∧
      ∃ front c rest, "a;\nb \x7d".toList = front ++ c :: rest ∧ isLayout c = false ∧
        (⟨2, 3⟩ : Position) =
          ⟨front.count '\n' + 1, (front.reverse.takeWhile (· ≠ '\n')).length + 1⟩ ∧
        BeginsFlow front ∧
        (BeginsFlow "a;\nb \x7d".toList ∧ Parser.LastTokenAfter front (c :: rest) ∨
          ¬BeginsFlow (front ++ throughMark (c :: rest))) := by
  have hfails : parse "a;\nb \x7d" = .error ⟨.unexpected .closeBrace, ⟨2, 3⟩⟩ := by decide +kernel
  exact ⟨hfails, parse_error_at_first_wrong_place hfails⟩

end Flowchart
