import Flowchart.Proofs.Writing

/-!
# How Far a Token Looks

Which token stands at a place depends on what comes after it: a text goes on to the next
mark, a keyword ends where a word does, and `exit` looks for its semicolon behind blanks.
None of them looks past the next mark.  So a text that is cut off behind a mark is read
up to there as before, whatever is put in place of the rest.

Main statements: a token is the same whatever comes after the next mark
(`State.next?_append`), and so is all that is read up to there (`Reaches.replace`).
-/

namespace Flowchart

open Text

/-! ## §1 Tokens -/

/-- The first result is the same if the results are, for all that is looked at. -/
theorem findSome?_congr {α β : Type} {l : List α} {f g : α → Option β}
    (h : ∀ a ∈ l, f a = g a) : l.findSome? f = l.findSome? g := by
  induction l with
  | nil => rfl
  | cons a l ih =>
    rw [List.findSome?_cons, List.findSome?_cons, h a List.mem_cons_self,
      ih fun b hb => h b (List.mem_cons_of_mem a hb)]

namespace Token

/-- A character that is no mark and no blank begins a text. -/
theorem plain?_of_text {c : Char} (htext : isTextChar c = true) (hblank : isBlank c = false)
    (cs : List Char) :
    plain? (c :: cs) = some (text (c :: cs.takeWhile isTextChar), cs.dropWhile isTextChar) := by
  have hmark : ¬(c = '\x7b' ∨ c = '\x7d' ∨ c = ';') := by
    rw [← isTextChar_eq_false_iff, htext]
    decide
  simp only [not_or] at hmark
  simp [plain?, hmark, hblank]

/-- What is offered besides keywords: a mark, or a text. -/
theorem plain?_eq_some {input rest : List Char} {token : Token}
    (h : plain? input = some (token, rest)) :
    (token ∈ marks ∧ input = token.lexeme ++ rest) ∨
      ∃ chars, token = text chars ∧ input = chars ++ rest ∧ TextBefore chars rest := by
  cases token with
  | text chars => exact Or.inr ⟨chars, rfl, plain?_eq_text_iff.1 h⟩
  | openBrace | closeBrace | semicolon =>
    -- one character of the input is the whole token
    have hoffered := List.mem_append_right (keyword? input).toList (Option.mem_toList.2 h)
    exact Or.inl ⟨by simp [marks], eq_lexeme_append hoffered⟩
  | ifWord | elseWord | whileWord | exitWord =>
    -- keywords are not read as marks
    cases input with
    | nil => cases h
    | cons c cs =>
      simp only [plain?] at h
      repeat' split at h
      all_goals cases h

/-- A brace or a semicolon is among the characters. -/
def HasMark (cs : List Char) : Prop :=
  ∃ c ∈ cs, isTextChar c = false

theorem HasMark.ne_nil {cs : List Char} (h : HasMark cs) : cs ≠ [] := by
  obtain ⟨c, hc, -⟩ := h
  exact List.ne_nil_of_mem hc

theorem hasMark_append {cs ds : List Char} : HasMark (cs ++ ds) ↔ HasMark cs ∨ HasMark ds := by
  simp only [HasMark, List.mem_append, or_and_right, exists_or]

theorem not_hasMark {cs : List Char} : ¬HasMark cs ↔ ∀ c ∈ cs, isTextChar c = true := by
  simp [HasMark]

theorem hasMark_lexeme {mark : Token} (h : mark ∈ marks) : HasMark mark.lexeme := by
  simp only [marks, List.mem_cons, List.not_mem_nil, or_false] at h
  rcases h with rfl | rfl | rfl <;> exact ⟨_, List.mem_singleton_self _, by decide⟩

/-- What stands in front of a mark ends there, whatever comes after the mark. -/
theorem HasMark.takeWhile_append {cs : List Char} (h : HasMark cs) (more : List Char) :
    (cs ++ more).takeWhile isTextChar = cs.takeWhile isTextChar ∧
      (cs ++ more).dropWhile isTextChar = cs.dropWhile isTextChar ++ more := by
  obtain ⟨mark, hmem, hmark⟩ := h
  obtain ⟨front, rest, rfl⟩ := List.append_of_mem hmem
  induction front with
  | nil => simp [hmark]
  | cons c front ih =>
    cases hc : isTextChar c with
    | true => simpa [hc] using ih (by simp)
    | false => simp [hc]

theorem HasMark.endsBefore_append {rest : List Char} (h : HasMark rest) (keyword : Token)
    (more : List Char) : keyword.endsBefore (rest ++ more) = keyword.endsBefore rest := by
  obtain ⟨c, cs, rfl⟩ := List.exists_cons_of_ne_nil h.ne_nil
  -- a mark is no blank, so the blanks behind `exit` end before it
  have hblanks : ((c :: cs).dropWhile isBlank) ≠ [] := by
    rw [Ne, List.dropWhile_eq_nil_iff]
    intro hall
    obtain ⟨mark, hmem, hmark⟩ := h
    have hblank := hall mark hmem
    rw [(isBlank_of_isTextChar_eq_false hmark).1] at hblank
    cases hblank
  have hhead : ((c :: cs ++ more).dropWhile isBlank).head? =
      ((c :: cs).dropWhile isBlank).head? := by
    rw [List.dropWhile_append, if_neg (by simpa using hblanks), List.head?_append,
      Option.or_of_isSome (by simpa using hblanks)]
  cases keyword <;> first | rfl | exact congrArg (· == some ';') hhead

theorem HasMark.after?_append {cs : List Char} (h : HasMark cs) {keyword : Token}
    (hmem : keyword ∈ keywords) (more : List Char) :
    keyword.after? (cs ++ more) = (keyword.after? cs).map (· ++ more) := by
  -- the mark stands behind the word, because no keyword has one in it
  have hsplit : ∀ rest, cs ++ more = keyword.lexeme ++ rest ↔
      ∃ rest', cs = keyword.lexeme ++ rest' ∧ rest' ++ more = rest := by
    intro rest
    constructor
    · intro heq
      rcases List.append_eq_append_iff.1 heq with ⟨extra, hword, -⟩ | ⟨rest', hcs, hrest⟩
      · obtain ⟨mark, hmark, hfalse⟩ := h
        have htext := (keyword_chars hmem (hword ▸ List.mem_append_left extra hmark)).2.1
        rw [hfalse] at htext
        cases htext
      · exact ⟨rest', hcs, hrest.symm⟩
    · rintro ⟨rest', rfl, rfl⟩
      exact List.append_assoc _ _ _
  have hends : ∀ rest', cs = keyword.lexeme ++ rest' →
      keyword.endsBefore (rest' ++ more) = keyword.endsBefore rest' := by
    rintro rest' rfl
    rcases hasMark_append.1 h with hword | hrest
    · obtain ⟨mark, hmark, hfalse⟩ := hword
      rw [(keyword_chars hmem hmark).2.1] at hfalse
      cases hfalse
    · exact hrest.endsBefore_append keyword more
  apply Option.ext
  intro rest
  rw [after?_eq_some_iff, hsplit, Option.map_eq_some_iff]
  constructor
  · rintro ⟨⟨rest', hcs, rfl⟩, hrest⟩
    exact ⟨rest', after?_eq_some_iff.2 ⟨hcs, hends rest' hcs ▸ hrest⟩, rfl⟩
  · rintro ⟨rest', hafter, rfl⟩
    obtain ⟨hcs, hrest⟩ := after?_eq_some_iff.1 hafter
    exact ⟨⟨rest', hcs, rfl⟩, (hends rest' hcs).trans hrest⟩

theorem HasMark.keyword?_append {cs : List Char} (h : HasMark cs) (more : List Char) :
    keyword? (cs ++ more) = (keyword? cs).map fun p => (p.1, p.2 ++ more) := by
  apply Option.ext
  rintro ⟨keyword, rest⟩
  rw [keyword?_eq_some_iff, Option.map_eq_some_iff]
  constructor
  · rintro ⟨hmem, hafter⟩
    rw [h.after?_append hmem] at hafter
    obtain ⟨rest', hrest', rfl⟩ := Option.map_eq_some_iff.1 hafter
    exact ⟨(keyword, rest'), keyword?_eq_some_iff.2 ⟨hmem, hrest'⟩, rfl⟩
  · rintro ⟨⟨found, rest'⟩, hfound, heq⟩
    obtain ⟨rfl, rfl⟩ := Prod.mk.inj heq
    obtain ⟨hmem, hafter⟩ := keyword?_eq_some_iff.1 hfound
    exact ⟨hmem, by rw [h.after?_append hmem, hafter]; rfl⟩

theorem HasMark.plain?_append {cs : List Char} (h : HasMark cs) (more : List Char) :
    plain? (cs ++ more) = (plain? cs).map fun p => (p.1, p.2 ++ more) := by
  obtain ⟨c, cs, rfl⟩ := List.exists_cons_of_ne_nil h.ne_nil
  rw [List.cons_append, plain?, plain?]
  split
  · rfl
  split
  · rfl
  split
  · rfl
  split
  · rfl
  · -- the mark is not the first character, which begins a text
    rename_i hopen hclose hsemicolon hblank
    have hrest : HasMark cs := by
      obtain ⟨mark, hmem, hmark⟩ := h
      rcases List.mem_cons.1 hmem with rfl | hmem
      · simp [isTextChar, hopen, hclose, hsemicolon] at hmark
      · exact ⟨mark, hmem, hmark⟩
    rw [(hrest.takeWhile_append more).1, (hrest.takeWhile_append more).2]
    rfl

/-- **What is offered up to a mark does not depend on what comes after it.** -/
theorem HasMark.candidates_append {cs : List Char} (h : HasMark cs) (more : List Char) :
    candidates (cs ++ more) = (candidates cs).map fun p => (p.1, p.2 ++ more) := by
  rw [candidates, candidates, h.keyword?_append, h.plain?_append, List.map_append]
  cases keyword? cs <;> cases plain? cs <;> rfl

theorem plain?_of_blank {c : Char} (cs : List Char) (hc : isBlank c = true) :
    plain? (c :: cs) = none := by
  have hmark : ∀ mark, isBlank mark = false → ¬c = mark := by
    rintro mark hmark rfl
    rw [hc] at hmark
    cases hmark
  simp [plain?, hc, hmark '\x7b' (by decide), hmark '\x7d' (by decide), hmark ';' (by decide)]

/-- At a blank nothing is offered. -/
theorem candidates_of_blank {c : Char} (cs : List Char) (hc : isBlank c = true) :
    candidates (c :: cs) = [] := by
  have hkeyword : keyword? (c :: cs) = none := by
    rw [Option.eq_none_iff_forall_not_mem]
    rintro ⟨keyword, rest⟩ hfound
    obtain ⟨hmem, hafter⟩ := keyword?_eq_some_iff.1 hfound
    have hinput := (after?_eq_some_iff.1 hafter).1
    -- a keyword begins with one of its own characters
    cases hlexeme : keyword.lexeme with
    | nil => simp only [keywords, List.mem_cons, List.not_mem_nil, or_false] at hmem
             rcases hmem with rfl | rfl | rfl | rfl <;> cases hlexeme
    | cons d lexeme =>
      rw [hlexeme] at hinput
      obtain ⟨rfl, -⟩ := List.cons.inj hinput
      have hplain := (keyword_chars hmem (hlexeme ▸ List.mem_cons_self)).2.2
      rw [hc] at hplain
      cases hplain
  rw [candidates, hkeyword, plain?_of_blank cs hc]
  rfl

end Token

namespace Parser

/-! ## §2 Taking a token -/

/-- If two places offer the same but for some change, and what is offered is taken but for some
    change, then the same token is taken at both. -/
theorem State.next?_eq_map {s s' : State} {input input' : List Char} {token : Token → Token}
    {after : List Char → List Char} {state : State → State}
    (hoffered : Token.candidates input' =
      (Token.candidates input).map fun p => (token p.1, after p.2))
    (hstep : ∀ p ∈ Token.candidates input, s'.step? (token p.1) = (s.step? p.1).map state) :
    s'.next? input' = (s.next? input).map fun p => (state p.1, after p.2) := by
  rw [next?, next?, hoffered, List.findSome?_map, List.map_findSome?]
  apply findSome?_congr
  intro p hp
  simp only [Function.comp_apply, hstep p hp, Option.map_map]
  rfl

theorem State.next?_append (s : State) {cs : List Char} (h : Token.HasMark cs)
    (more : List Char) : s.next? (cs ++ more) = (s.next? cs).map fun p => (p.1, p.2 ++ more) := by
  apply @next?_eq_map s s cs (cs ++ more) id (· ++ more) id (h.candidates_append more)
  intro p hp
  exact Option.map_id_apply.symm

/-- The ways to take a token, each with what it has seen of the input behind the token. -/
inductive Taken (s : State) : List Char → State → List Char → Prop where
  | word {keyword : Token} {s' : State} {rest : List Char} (hmem : keyword ∈ Token.keywords)
      (hne : keyword ≠ .exitWord) (hends : ∀ c ∈ rest.head?, isWordChar c = false)
      (hstep : s.step? keyword = some s') : Taken s (keyword.lexeme ++ rest) s' rest
  | exit {s' : State} {rest : List Char} (hends : (rest.dropWhile isBlank).head? = some ';')
      (hstep : s.step? .exitWord = some s') : Taken s (Token.exitWord.lexeme ++ rest) s' rest
  | mark {mark : Token} {s' : State} {rest : List Char} (hmem : mark ∈ Token.marks)
      (hstep : s.step? mark = some s') : Taken s (mark.lexeme ++ rest) s' rest
  | text {chars : List Char} {s' : State} {rest : List Char}
      (hbefore : Token.TextBefore chars rest)
      (hnone : ∀ p, Token.keyword? (chars ++ rest) = some p → s.step? p.1 = none)
      (hstep : s.step? (.text chars) = some s') : Taken s (chars ++ rest) s' rest

theorem endsBefore_eq_true_iff {keyword : Token} (hne : keyword ≠ .exitWord) {rest : List Char} :
    keyword.endsBefore rest = true ↔ ∀ c ∈ rest.head?, isWordChar c = false := by
  constructor
  · intro h
    cases rest <;> cases keyword <;> simp_all [Token.endsBefore]
  · exact endsBefore_of_not_wordChar hne

/-- A token that is taken next is a word, `exit`, a mark or a text. -/
theorem State.taken_of_next? {s s' : State} {input rest : List Char}
    (h : s.next? input = some (s', rest)) : Taken s input s' rest := by
  rcases next?_eq_some_iff.1 h with ⟨keyword, hkeyword, hstep⟩ | ⟨hnone, token, hplain, hstep⟩
  · obtain ⟨hmem, hafter⟩ := Token.keyword?_eq_some_iff.1 hkeyword
    obtain ⟨rfl, hends⟩ := Token.after?_eq_some_iff.1 hafter
    by_cases hexit : keyword = .exitWord
    · subst hexit
      exact .exit (by simpa [Token.endsBefore] using hends) hstep
    · exact .word hmem hexit ((endsBefore_eq_true_iff hexit).1 hends) hstep
  · rcases Token.plain?_eq_some hplain with ⟨hmark, rfl⟩ | ⟨chars, rfl, rfl, hbefore⟩
    · exact .mark hmark hstep
    · exact .text hbefore hnone hstep

theorem State.next?_of_word {s s' : State} {keyword : Token} {rest : List Char}
    (hmem : keyword ∈ Token.keywords) (hne : keyword ≠ .exitWord)
    (hends : ∀ c ∈ rest.head?, isWordChar c = false) (hstep : s.step? keyword = some s') :
    s.next? (keyword.lexeme ++ rest) = some (s', rest) := by
  apply next?_eq_some_iff.2
  left
  refine ⟨keyword, Token.keyword?_eq_some_iff.2 ⟨hmem, ?_⟩, hstep⟩
  exact Token.after?_eq_some_iff.2 ⟨rfl, (endsBefore_eq_true_iff hne).2 hends⟩

/-- **A token stays the same when what comes far behind it is replaced**: behind the next
    mark, or for a word of the language, behind the next character. -/
theorem State.next?_replace {s s' : State} {lexeme seen after : List Char}
    (h : s.next? (lexeme ++ (seen ++ after)) = some (s', seen ++ after))
    (hseen : Token.HasMark (lexeme ++ seen) ∨ seen ≠ [] ∧ ∃ keyword ∈ Token.keywords,
      keyword ≠ .exitWord ∧ s.step? keyword = some s' ∧ lexeme = keyword.lexeme ∧
        ∀ c ∈ (seen ++ after).head?, isWordChar c = false) (more : List Char) :
    s.next? (lexeme ++ (seen ++ more)) = some (s', seen ++ more) := by
  rcases hseen with hmark | ⟨hne, keyword, hmem, hexit, hstep, rfl, hends⟩
  · rw [← List.append_assoc, s.next?_append hmark] at h ⊢
    obtain ⟨⟨s'', rest⟩, hnext, heq⟩ := Option.map_eq_some_iff.1 h
    obtain ⟨rfl, hrest⟩ := Prod.mk.inj heq
    obtain rfl := List.append_cancel_right hrest
    rw [hnext]
    rfl
  · obtain ⟨c, seen, rfl⟩ := List.exists_cons_of_ne_nil hne
    exact next?_of_word hmem hexit hends hstep

/-! ## §3 Reading on from token to token -/

/-- `Reaches s input s' rest`: some tokens are taken from the input, with layout in front
    of them, and perhaps layout behind the last of them. -/
inductive Reaches : State → List Char → State → List Char → Prop where
  | skip {s : State} {gap rest : List Char} (hgap : IsLayout gap) : Reaches s (gap ++ rest) s rest
  | take {s s' s'' : State} {gap input after rest : List Char} (hgap : IsLayout gap)
      (hnext : s.next? input = some (s', after)) (h : Reaches s' after s'' rest) :
      Reaches s (gap ++ input) s'' rest

theorem Reaches.refl (s : State) (input : List Char) : Reaches s input s input :=
  @Reaches.skip s [] input isLayout_nil

theorem Reaches.gap {s s' : State} {gap input rest : List Char} (hgap : IsLayout gap)
    (h : Reaches s input s' rest) : Reaches s (gap ++ input) s' rest := by
  have happend : ∀ {gap'}, IsLayout gap' → IsLayout (gap ++ gap') := by
    intro gap' hgap' c hc
    exact (List.mem_append.1 hc).elim (hgap c) (hgap' c)
  cases h with
  | @skip _ gap' _ hgap' =>
    rw [← List.append_assoc]
    exact .skip (happend hgap')
  | @take _ s' _ gap' input after _ hgap' hnext h =>
    rw [← List.append_assoc]
    exact .take (happend hgap') hnext h

/-- Readings that follow each other are one reading. -/
theorem Reaches.trans {s s' s'' : State} {input after rest : List Char}
    (h : Reaches s input s' after) (h' : Reaches s' after s'' rest) : Reaches s input s'' rest := by
  induction h with
  | skip hgap => exact h'.gap hgap
  | take hgap hnext h ih => exact .take hgap hnext (ih h')

/-- What is left to read is the end of the text. -/
theorem Reaches.suffix {s s' : State} {input rest : List Char} (h : Reaches s input s' rest) :
    rest <:+ input := by
  induction h with
  | skip hgap => exact List.suffix_append _ _
  | take hgap hnext h ih =>
    exact (ih.trans (State.suffix_of_next? hnext)).trans (List.suffix_append _ _)

/-- What a run does, without the proofs that make it end. -/
theorem run_eq (last : List Char) (s : State) (input : List Char) :
    run last s input = match input.dropWhile isLayout with
      | [] => match s.finish? with
        | some statements => .ok statements
        | none => .error ⟨.unfinished, last⟩
      | c :: cs => match s.next? (c :: cs) with
        | some (s', rest) => run (c :: cs) s' rest
        | none => .error ⟨State.faultAt c cs, c :: cs⟩ := by
  rw [run]
  split
  · next hinput => cases s.finish? <;> simp only [hinput]
  · next c cs hinput =>
    simp only [hinput]
    split <;> rename_i hnext <;> simp only [hnext]

/-- Layout in front makes no difference to a run. -/
theorem run_gap {gap : List Char} (hgap : IsLayout gap) (last : List Char) (s : State)
    (input : List Char) : run last s (gap ++ input) = run last s input := by
  rw [run_eq, run_eq, List.dropWhile_append_of_pos hgap]

/-- A token begins with no layout. -/
theorem State.exists_cons_of_next? {s s' : State} {input rest : List Char}
    (h : s.next? input = some (s', rest)) :
    ∃ c cs, input = c :: cs ∧ isLayout c = false := by
  cases input with
  | nil => cases h
  | cons c cs =>
    refine ⟨c, cs, rfl, ?_⟩
    rw [← Bool.not_eq_true]
    intro hc
    rw [next?, candidates_of_layout hc] at h
    cases h

/-- **A run goes on from wherever it gets.** -/
theorem Reaches.run_eq {s s' : State} {input rest : List Char} (h : Reaches s input s' rest)
    (last : List Char) : ∃ last', run last s input = run last' s' rest := by
  induction h generalizing last with
  | skip hgap => exact ⟨last, run_gap hgap _ _ _⟩
  | @take s s' s'' gap input after rest hgap hnext h ih =>
    obtain ⟨c, cs, rfl, hc⟩ := State.exists_cons_of_next? hnext
    obtain ⟨last', hlast'⟩ := ih (c :: cs)
    refine ⟨last', ?_⟩
    rw [run_gap hgap, Parser.run_eq, List.dropWhile_cons_of_neg (by simp [hc])]
    simp only [hnext]
    exact hlast'

/-- A place where nothing may come ends a run. -/
theorem Reaches.run_of_refused {s s' : State} {input cs : List Char} {c : Char}
    (h : Reaches s input s' (c :: cs)) (hlayout : isLayout c = false)
    (hnext : s'.next? (c :: cs) = none) (last : List Char) :
    run last s input = .error ⟨State.faultAt c cs, c :: cs⟩ := by
  obtain ⟨last', hrun⟩ := h.run_eq last
  rw [hrun, Parser.run_eq, List.dropWhile_cons_of_neg (by simp [hlayout])]
  simp only [hnext]

/-- The characters that are seen behind a token settle it, if a mark is among them or none
    comes later. -/
theorem Taken.settled {s s' : State} {input lexeme seen after : List Char}
    (h : Taken s input s' (seen ++ after)) (hinput : input = lexeme ++ (seen ++ after))
    (hne : seen ≠ []) (hseen : Token.HasMark seen ∨ ¬Token.HasMark (seen ++ after)) :
    Token.HasMark (lexeme ++ seen) ∨ seen ≠ [] ∧ ∃ keyword ∈ Token.keywords,
      keyword ≠ .exitWord ∧ s.step? keyword = some s' ∧ lexeme = keyword.lexeme ∧
        ∀ c ∈ (seen ++ after).head?, isWordChar c = false := by
  generalize hrest : seen ++ after = rest at h hinput hseen
  cases h with
  | @word keyword s' rest hmem hexit hends hstep =>
    obtain rfl := List.append_cancel_right hinput
    exact Or.inr ⟨hne, keyword, hmem, hexit, hstep, rfl, hends⟩
  | @exit s' rest hends hstep =>
    -- the semicolon of `exit` is a mark
    have hmark : Token.HasMark rest := by
      have hmem := (List.dropWhile_suffix isBlank).subset (List.mem_of_mem_head? hends)
      exact ⟨';', hmem, by decide⟩
    left
    exact Token.hasMark_append.2 (Or.inr (hseen.resolve_right (not_not_intro hmark)))
  | @mark mark s' rest hmem hstep =>
    obtain rfl := List.append_cancel_right hinput
    left
    exact Token.hasMark_append.2 (Or.inl (Token.hasMark_lexeme hmem))
  | @text chars s' rest hbefore hnone hstep =>
    -- a text ends where a mark is seen
    obtain ⟨c, seen, rfl⟩ := List.exists_cons_of_ne_nil hne
    subst hrest
    left
    exact Token.hasMark_append.2 (Or.inr ⟨c, List.mem_cons_self, hbefore.ends c rfl⟩)

/-- **What is read up to a place stays the same** when the text is replaced from behind the
    next mark on; if there is no mark any more, when something is put after the text. -/
theorem Reaches.replace {s s' : State} {front seen after : List Char}
    (h : Reaches s (front ++ (seen ++ after)) s' (seen ++ after)) (hne : seen ≠ [])
    (hseen : Token.HasMark seen ∨ ¬Token.HasMark (seen ++ after)) (more : List Char) :
    Reaches s (front ++ (seen ++ more)) s' (seen ++ more) := by
  generalize hinput : front ++ (seen ++ after) = input at h
  generalize hrest : seen ++ after = rest at h
  induction h generalizing front with
  | @skip s gap rest hgap =>
    subst hrest
    obtain rfl := List.append_cancel_right hinput
    exact .skip hgap
  | @take s s' s'' gap input behind rest hgap hnext h ih =>
    subst hrest
    obtain ⟨between, rfl⟩ := h.suffix
    obtain ⟨lexeme, rfl⟩ := State.suffix_of_next? hnext
    obtain rfl : front = gap ++ (lexeme ++ between) := by
      apply (List.append_left_inj (seen ++ after)).1
      rw [hinput]
      simp only [List.append_assoc]
    -- behind the token stand the characters up to the place, and then those that are seen
    have hbehind : Token.HasMark (between ++ seen) ∨
        ¬Token.HasMark (between ++ seen ++ after) := by
      by_cases hbetween : Token.HasMark (between ++ seen)
      · exact Or.inl hbetween
      · right
        rw [Token.hasMark_append, not_or] at hbetween
        rw [List.append_assoc, Token.hasMark_append, not_or]
        exact ⟨hbetween.1, hseen.resolve_left hbetween.2⟩
    rw [← List.append_assoc between] at hnext
    have hsettled := (State.taken_of_next? hnext).settled rfl (by simp [hne]) hbehind
    have hsame := State.next?_replace hnext hsettled more
    have hgoal := Reaches.take hgap hsame ((List.append_assoc between seen more).symm ▸ ih rfl rfl)
    simpa only [List.append_assoc] using hgoal

end Parser

end Flowchart
