import Mathlib.Data.List.TakeWhile
import Flowchart.Program.Written
import Flowchart.Proofs.Words

/-!
# Keywords and Texts

Where a text stands in the input, a keyword may be offered as well.  Whether it is can
be told from the collapsed text alone: the branch and loop keywords are offered where
that begins with them as a whole word, and `exit` where that is the word and a
semicolon comes next.

Main statements: `Token.exists_keyword?_iff` and `Token.exists_keyword?_exit_iff`.
-/

namespace Flowchart

open Text

/-! ## §1 Whole words -/

/-- Whether a text begins with a word is decided before its first character that goes on
    with no word. -/
theorem beginsWithWord_append_iff {word run after : List Char}
    (hword : ∀ c ∈ word, isWordChar c = true) (hafter : ∀ c ∈ after.head?, isWordChar c = false) :
    BeginsWithWord word (run ++ after) ↔ BeginsWithWord word run := by
  constructor
  · rintro ⟨rest, happend, hrest⟩
    rcases List.append_eq_append_iff.1 happend with ⟨more, rfl, hmore⟩ | ⟨more, rfl, hmore⟩
    · -- the word would reach past the run, and go on there
      cases more with
      | nil => exact ⟨[], by simp, by simp⟩
      | cons c more =>
        have hc : isWordChar c = true := hword c (by simp)
        have hc' : isWordChar c = false := hafter c (by simp [hmore])
        exact absurd (hc.symm.trans hc') (by decide)
    · -- the word ends inside the run or with it
      refine ⟨more, rfl, ?_⟩
      intro c hc
      apply hrest c
      cases more with
      | nil => cases hc
      | cons d more => rw [hmore]; exact hc
  · rintro ⟨rest, rfl, hrest⟩
    refine ⟨rest ++ after, List.append_assoc _ _ _, ?_⟩
    show ∀ c ∈ (rest ++ after).head?, isWordChar c = false
    cases rest with
    | nil => exact hafter
    | cons d rest => exact hrest

namespace Token

/-- The characters of keywords are the plainest ones. -/
theorem keyword_chars {keyword : Token} (h : keyword ∈ keywords) {c : Char}
    (hc : c ∈ keyword.lexeme) :
    isWordChar c = true ∧ isTextChar c = true ∧ isBlank c = false := by
  have hall : keywords.all fun keyword => keyword.lexeme.all fun c =>
      isWordChar c && isTextChar c && !isBlank c := by decide
  have hchar := List.all_eq_true.1 (List.all_eq_true.1 hall keyword h) c hc
  simpa [and_assoc] using hchar

/-! ## §2 What keywords are offered -/

theorem after?_eq_some_iff {keyword : Token} {input rest : List Char} :
    keyword.after? input = some rest ↔
      input = keyword.lexeme ++ rest ∧ keyword.endsBefore rest = true := by
  rw [after?, Option.filter_eq_some_iff, drop?_eq_some_iff]

/-- No two keywords stand at one place. -/
theorem keyword_unique {keyword other : Token} (hkeyword : keyword ∈ keywords)
    (hother : other ∈ keywords) {rest rest' : List Char}
    (h : keyword.lexeme ++ rest = other.lexeme ++ rest') : keyword = other := by
  simp only [keywords, List.mem_cons, List.not_mem_nil, or_false] at hkeyword hother
  -- any two of them differ in one of their first two letters
  rcases hkeyword with rfl | rfl | rfl | rfl <;> rcases hother with rfl | rfl | rfl | rfl <;>
    first | rfl | simp [lexeme] at h

theorem keyword?_eq_some_iff {keyword : Token} {input rest : List Char} :
    keyword? input = some (keyword, rest) ↔
      keyword ∈ keywords ∧ keyword.after? input = some rest := by
  have hfound : ∀ p, keyword? input = some p → p.1 ∈ keywords ∧ p.1.after? input = some p.2 := by
    intro p h
    obtain ⟨found, hmem, hfound⟩ := List.exists_of_findSome?_eq_some h
    obtain ⟨rest, hrest, rfl⟩ := Option.map_eq_some_iff.1 hfound
    exact ⟨hmem, hrest⟩
  constructor
  · exact hfound (keyword, rest)
  · rintro ⟨hmem, hafter⟩
    -- some keyword is found, and it can be no other
    have hsome : (keyword? input).isSome := by
      rw [keyword?, List.findSome?_isSome_iff]
      exact ⟨keyword, hmem, by simp [hafter]⟩
    obtain ⟨⟨found, rest'⟩, hp⟩ := Option.isSome_iff_exists.1 hsome
    obtain ⟨hmem', hafter'⟩ := hfound _ hp
    have hinput := (after?_eq_some_iff.1 hafter).1
    have hinput' := (after?_eq_some_iff.1 hafter').1
    obtain rfl := keyword_unique hmem hmem' (hinput.symm.trans hinput')
    obtain rfl : rest' = rest := Option.some.inj (hafter'.symm.trans hafter)
    exact hp

/-! ## §3 Texts -/

/-- A text stands in front of `more`: it begins with no blank, holds no mark, and goes on
    to the next mark. -/
structure TextBefore (chars more : List Char) : Prop where
  starts : ∃ c cs, chars = c :: cs ∧ isBlank c = false
  plain : ∀ c ∈ chars, isTextChar c = true
  ends : ∀ c ∈ more.head?, isTextChar c = false

theorem isTextChar_eq_false_iff {c : Char} :
    isTextChar c = false ↔ c = '\x7b' ∨ c = '\x7d' ∨ c = ';' := by
  simp only [isTextChar, Bool.not_eq_false', Bool.or_eq_true, beq_iff_eq, or_assoc]

/-- The tokens that are a single mark. -/
def marks : List Token := [openBrace, closeBrace, semicolon]

theorem not_isTextChar_head (mark : Token) (hmark : mark ∈ marks) (rest : List Char) :
    ∀ c ∈ (mark.lexeme ++ rest).head?, isTextChar c = false := by
  simp only [marks, List.mem_cons, List.not_mem_nil, or_false] at hmark
  rcases hmark with rfl | rfl | rfl <;> intro c hc <;> obtain rfl := Option.some.inj hc <;> decide

theorem isBlank_of_isTextChar_eq_false {c : Char} (h : isTextChar c = false) :
    isBlank c = false ∧ isWordChar c = false := by
  rcases isTextChar_eq_false_iff.1 h with rfl | rfl | rfl <;> decide

theorem isTextChar_of_isBlank {c : Char} (h : isBlank c = true) : isTextChar c = true := by
  rw [← Bool.not_eq_false]
  intro hmark
  rw [(isBlank_of_isTextChar_eq_false hmark).1] at h
  cases h

theorem TextBefore.dropWhile_isLayout {chars more : List Char} (h : TextBefore chars more) :
    more.dropWhile isLayout = more := by
  cases more with
  | nil => rfl
  | cons c more => rcases isTextChar_eq_false_iff.1 (h.ends c rfl) with rfl | rfl | rfl <;> rfl

theorem plain?_eq_text_iff {input chars more : List Char} :
    plain? input = some (text chars, more) ↔ input = chars ++ more ∧ TextBefore chars more := by
  constructor
  · intro h
    cases input with
    | nil => simp [plain?] at h
    | cons c rest =>
      simp only [plain?] at h
      -- a mark is no text, and a blank begins none
      split at h
      · cases h
      split at h
      · cases h
      split at h
      · cases h
      split at h
      · cases h
      · rename_i hopen hclose hsemicolon hblank
        simp only [Option.some.injEq, Prod.mk.injEq, text.injEq] at h
        obtain ⟨rfl, rfl⟩ := h
        refine ⟨?_, ⟨c, _, rfl, by simpa using hblank⟩, ?_, ?_⟩
        · rw [List.cons_append, List.takeWhile_append_dropWhile]
        · intro d hd
          rcases List.mem_cons.1 hd with rfl | hd
          · simp [isTextChar, hopen, hclose, hsemicolon]
          · exact List.all_eq_true.1 List.all_takeWhile d hd
        · intro d hd
          have hstop := List.head?_dropWhile_not isTextChar rest
          rw [Option.mem_def.1 hd] at hstop
          exact hstop
  · rintro ⟨rfl, ⟨c, cs, rfl, hc⟩, hplain, hends⟩
    have hplain' : ∀ d ∈ cs, isTextChar d = true := fun d hd => hplain d (List.mem_cons_of_mem c hd)
    -- the text is taken to its end, where a mark stands
    have htake : (cs ++ more).takeWhile isTextChar = cs ∧
        (cs ++ more).dropWhile isTextChar = more := by
      rw [List.takeWhile_append_of_pos hplain', List.dropWhile_append_of_pos hplain']
      cases more with
      | nil => simp
      | cons d more => simp [hends d rfl]
    have hmark : ¬(c = '\x7b' ∨ c = '\x7d' ∨ c = ';') := by
      rw [← isTextChar_eq_false_iff, hplain c List.mem_cons_self]
      decide
    simp only [not_or] at hmark
    simp [plain?, hmark, hc, htake]

/-- What is read of a text can be written down. -/
theorem TextBefore.isWritable {chars more : List Char} (h : TextBefore chars more) :
    IsWritable (String.ofList (collapse chars)) where
  nonempty := by
    obtain ⟨c, cs, rfl, hc⟩ := h.starts
    rw [String.toList_ofList]
    exact collapse_ne_nil hc
  collapsed := by rw [String.toList_ofList, collapse_collapse]
  plain := by
    intro c hc
    rw [String.toList_ofList] at hc
    rcases mem_collapse hc with rfl | hc
    · decide
    · exact h.plain c hc

/-! ## §4 Keywords where a text stands -/

/-- A whole word that the input begins with is one that the collapsed text begins with. -/
theorem TextBefore.beginsWithWord_iff {chars more word : List Char} (h : TextBefore chars more)
    (hword : ∀ c ∈ word, isWordChar c = true) :
    BeginsWithWord word (chars ++ more) ↔ BeginsWithWord word (collapse chars) := by
  obtain ⟨c, cs, rfl, hc⟩ := h.starts
  obtain ⟨run, after, after', hchars, hcollapse, -, -, hafter, hafter'⟩ :=
    exists_run_of_not_blank cs hc
  -- both of them begin with the run, which goes on neither here nor there
  rw [hcollapse, hchars, List.append_assoc, beginsWithWord_append_iff hword,
    beginsWithWord_append_iff hword]
  · intro d hd
    obtain rfl := hafter' d hd
    decide
  · intro d hd
    cases after with
    | nil => exact (isBlank_of_isTextChar_eq_false (h.ends d hd)).2
    | cons e after => exact isWordChar_eq_false_of_isBlank (hafter d hd)

/-- **A keyword is offered where a text begins with it**, as a whole word. -/
theorem exists_keyword?_iff {chars more : List Char} (h : TextBefore chars more) (keyword : Token)
    (hmem : keyword ∈ keywords) (hexit : keyword ≠ exitWord) :
    (∃ rest, keyword? (chars ++ more) = some (keyword, rest)) ↔
      BeginsWithWord keyword.lexeme (collapse chars) := by
  rw [← h.beginsWithWord_iff fun c hc => (keyword_chars hmem hc).1]
  have hends : ∀ rest, keyword.endsBefore rest = true ↔ ∀ c ∈ rest.head?, isWordChar c = false := by
    intro rest
    -- only `exit` looks further than at the next character
    cases rest <;> cases keyword <;> simp_all [endsBefore]
  apply exists_congr
  intro rest
  rw [keyword?_eq_some_iff, after?_eq_some_iff, hends]
  exact and_iff_right hmem

/-- A word of text characters that the input begins with is part of the text there. -/
theorem TextBefore.exists_append {chars more word rest : List Char} (h : TextBefore chars more)
    (hword : ∀ c ∈ word, isTextChar c = true) (hinput : chars ++ more = word ++ rest) :
    ∃ others, chars = word ++ others ∧ rest = others ++ more := by
  rcases List.append_eq_append_iff.1 hinput with ⟨others, rfl, hmore⟩ | ⟨others, hchars, hrest⟩
  · -- the word ends with the text, because a mark comes next
    cases others with
    | nil => exact ⟨[], by simp, by simpa using hmore.symm⟩
    | cons c others =>
      have hc : isTextChar c = true := hword c (by simp)
      have hc' : isTextChar c = false := h.ends c (by simp [hmore])
      exact absurd (hc.symm.trans hc') (by decide)
  · exact ⟨others, hchars, hrest⟩

/-- After a text, a semicolon comes next behind blanks only if the text is blank. -/
theorem head?_dropWhile_append {chars more : List Char} (hplain : ∀ c ∈ chars, isTextChar c = true)
    (hends : ∀ c ∈ more.head?, isTextChar c = false) :
    ((chars ++ more).dropWhile isBlank).head? = some ';' ↔
      (∀ c ∈ chars, isBlank c = true) ∧ more.head? = some ';' := by
  have hmore : more.dropWhile isBlank = more := by
    -- a mark is no blank
    cases more with
    | nil => rfl
    | cons c more => simp [(isBlank_of_isTextChar_eq_false (hends c rfl)).1]
  rw [List.dropWhile_append, hmore]
  cases hdrop : chars.dropWhile isBlank with
  | nil =>
    have hblank : ∀ c ∈ chars, isBlank c = true := List.dropWhile_eq_nil_iff.1 hdrop
    exact (and_iff_right hblank).symm
  | cons c cs =>
    -- some character of the text comes first, and it is neither blank nor a mark
    have hc : c ∈ chars := (List.dropWhile_suffix isBlank).subset (hdrop ▸ List.mem_cons_self)
    have hblank : ¬∀ c ∈ chars, isBlank c = true := by
      rw [← List.dropWhile_eq_nil_iff, hdrop]
      exact List.cons_ne_nil c cs
    have hne : c ≠ ';' := by
      rintro rfl
      exact absurd (hplain _ hc) (by decide)
    simp [hblank, hne]

/-- **`exit` is offered where it is the entire step.** -/
theorem exists_keyword?_exit_iff {chars more : List Char} (h : TextBefore chars more) :
    (∃ rest, keyword? (chars ++ more) = some (exitWord, rest)) ↔
      collapse chars = exitWord.lexeme ∧ more.head? = some ';' := by
  have hmem : exitWord ∈ keywords := by decide
  have hiff : ∀ rest, keyword? (chars ++ more) = some (exitWord, rest) ↔
      chars ++ more = exitWord.lexeme ++ rest ∧ (rest.dropWhile isBlank).head? = some ';' := by
    intro rest
    rw [keyword?_eq_some_iff, after?_eq_some_iff, endsBefore, beq_iff_eq]
    exact and_iff_right hmem
  simp only [hiff]
  constructor
  · rintro ⟨rest, hinput, hrest⟩
    have htext : ∀ c ∈ exitWord.lexeme, isTextChar c = true :=
      fun c hc => (keyword_chars hmem hc).2.1
    obtain ⟨others, rfl, rfl⟩ := h.exists_append htext hinput
    have hplain : ∀ c ∈ others, isTextChar c = true :=
      fun c hc => h.plain c (List.mem_append_right _ hc)
    rw [head?_dropWhile_append hplain h.ends] at hrest
    -- nothing but blanks is left of the text after the word
    have hblank : ∀ c ∈ others.head?, isBlank c = true := by
      intro c hc
      exact hrest.1 c (List.mem_of_mem_head? hc)
    have hword : IsWord exitWord.lexeme :=
      ⟨List.cons_ne_nil _ _, fun c hc => (keyword_chars hmem hc).2.2⟩
    refine ⟨?_, hrest.2⟩
    rw [collapse, words_word_append hword _ hblank, words_eq_nil_iff.2 hrest.1]
    rfl
  · rintro ⟨hexit, hsemicolon⟩
    obtain ⟨c, cs, rfl, hc⟩ := h.starts
    obtain ⟨run, after, after', hchars, hcollapse, -, hwords, -, hafter'⟩ :=
      exists_run_of_not_blank cs hc
    have hrun : run = exitWord.lexeme := by
      -- there is no space in `exit`
      cases after' with
      | nil => rw [← hexit, hcollapse, List.append_nil]
      | cons d after' =>
        obtain rfl := hafter' d rfl
        have hspace : ' ' ∈ exitWord.lexeme := by simp [← hexit, hcollapse]
        exact absurd hspace (by decide)
    have hblank : ∀ d ∈ after, isBlank d = true := by
      -- nor a second word in the text
      apply words_eq_nil_iff.1
      rw [hwords, ← words_collapse, hexit]
      rfl
    have hplain : ∀ d ∈ after, isTextChar d = true := by
      intro d hd
      exact h.plain d (hchars ▸ List.mem_append_right run hd)
    refine ⟨after ++ more, ?_, ?_⟩
    · rw [hchars, hrun, List.append_assoc]
    · exact (head?_dropWhile_append hplain h.ends).2 ⟨hblank, hsemicolon⟩

end Token

end Flowchart
