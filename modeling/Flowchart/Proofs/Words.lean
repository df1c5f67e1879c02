import Flowchart.Text.Words
import Flowchart.Text.WordCharacter

/-!
# Words of a Text

The words of a text do not depend on what separates them.  Main statements: a collapsed
text has the words of the text (`words_collapse`), so it stays as it is when it is
collapsed again (`collapse_collapse`); and a text that begins with a word is collapsed
to a text that begins with the same word (`collapse_of_not_blank`).
-/

namespace Flowchart.Text

/-! ## §1 Taking words apart -/

theorem words_eq_of_runAndWords {cs ds : List Char} (h : runAndWords cs = runAndWords ds) :
    words cs = words ds := by
  unfold words
  rw [h]

theorem runAndWords_of_blank {c : Char} (cs : List Char) (hc : isBlank c = true) :
    runAndWords (c :: cs) = ([], words cs) := by
  simp [runAndWords, words, hc]

theorem runAndWords_of_not_blank {c : Char} (cs : List Char) (hc : isBlank c = false) :
    runAndWords (c :: cs) = (c :: (runAndWords cs).1, (runAndWords cs).2) := by
  simp [runAndWords, hc]

@[simp] theorem words_nil : words [] = [] := rfl

/-- Blanks in front of a text are not part of a word. -/
theorem words_of_blank {c : Char} (cs : List Char) (hc : isBlank c = true) :
    words (c :: cs) = words cs := by
  have hrun := runAndWords_of_blank cs hc
  simp only [words, hrun, List.isEmpty_nil, if_true]

theorem words_of_not_blank {c : Char} (cs : List Char) (hc : isBlank c = false) :
    words (c :: cs) = (c :: (runAndWords cs).1) :: (runAndWords cs).2 := by
  have hrun := runAndWords_of_not_blank cs hc
  simp [words, hrun]

/-- A text is its first run of characters other than blanks, and then its other words. -/
theorem runAndWords_eq (cs : List Char) :
    runAndWords cs =
      (cs.takeWhile fun c => !isBlank c, words (cs.dropWhile fun c => !isBlank c)) := by
  induction cs with
  | nil => rfl
  | cons c cs ih =>
    -- a blank ends the run where it stands, and anything else goes on with it
    cases hc : isBlank c with
    | true => rw [runAndWords_of_blank _ hc]; simp [hc, words_of_blank _ hc]
    | false => rw [runAndWords_of_not_blank _ hc, ih]; simp [hc]

/-! ## §2 Words -/

/-- A word: some characters, none of them blank. -/
structure IsWord (w : List Char) : Prop where
  nonempty : w ≠ []
  not_blank : ∀ c ∈ w, isBlank c = false

theorem words_word_append {w : List Char} (hw : IsWord w) (rest : List Char)
    (hrest : ∀ c ∈ rest.head?, isBlank c = true) : words (w ++ rest) = w :: words rest := by
  obtain ⟨c, cs, rfl⟩ := List.exists_cons_of_ne_nil hw.nonempty
  have hc : isBlank c = false := hw.not_blank c List.mem_cons_self
  have hcs : ∀ d ∈ cs, (!isBlank d) = true := by
    intro d hd
    rw [hw.not_blank d (List.mem_cons_of_mem _ hd)]
    rfl
  rw [List.cons_append, words_of_not_blank _ hc, runAndWords_eq, List.takeWhile_append_of_pos hcs,
    List.dropWhile_append_of_pos hcs]
  -- the word ends where the rest begins
  cases rest with
  | nil => simp
  | cons d rest =>
    have hd : isBlank d = true := hrest d rfl
    simp [hd]

/-- A word of a text is a word, and its characters are those of the text. -/
theorem isWord_and_subset_of_mem_words {cs w : List Char} (h : w ∈ words cs) :
    IsWord w ∧ w ⊆ cs := by
  -- the rest of a text may begin in the middle of a run, so the induction is on the length
  induction hlength : cs.length using Nat.strongRecOn generalizing cs with
  | ind n ih =>
    subst hlength
    cases cs with
    | nil => simp at h
    | cons c cs =>
      cases hc : isBlank c with
      | true =>
        rw [words_of_blank _ hc] at h
        obtain ⟨hword, hsubset⟩ := ih _ (Nat.lt_succ_self _) h rfl
        exact ⟨hword, List.subset_cons_of_subset c hsubset⟩
      | false =>
        rw [words_of_not_blank _ hc, runAndWords_eq] at h
        -- the word is the first run, or one of the words behind it
        rcases List.mem_cons.1 h with rfl | h
        · refine ⟨⟨List.cons_ne_nil _ _, ?_⟩, ?_⟩
          · intro d hd
            rcases List.mem_cons.1 hd with rfl | hd
            · exact hc
            · have hall := List.all_eq_true.1 (List.all_takeWhile (p := fun c => !isBlank c)) d hd
              simpa using hall
          · exact List.cons_subset_cons c (List.takeWhile_prefix _).subset
        · have hsuffix : (cs.dropWhile fun c => !isBlank c) <:+ cs := List.dropWhile_suffix _
          obtain ⟨hword, hsubset⟩ := ih _ (Nat.lt_succ_of_le hsuffix.length_le) h rfl
          refine ⟨hword, ?_⟩
          intro d hd
          exact List.mem_cons_of_mem c (hsuffix.subset (hsubset hd))

theorem isWord_of_mem_words {cs w : List Char} (h : w ∈ words cs) : IsWord w :=
  (isWord_and_subset_of_mem_words h).1

theorem words_eq_nil_iff {cs : List Char} : words cs = [] ↔ ∀ c ∈ cs, isBlank c = true := by
  induction cs with
  | nil => simp
  | cons c cs ih =>
    cases hc : isBlank c with
    | true => rw [words_of_blank _ hc, ih]; simp [hc]
    | false => rw [words_of_not_blank _ hc]; simp [hc]

theorem words_append_of_blank {blanks : List Char} (h : ∀ c ∈ blanks, isBlank c = true)
    (cs : List Char) : words (blanks ++ cs) = words cs := by
  induction blanks with
  | nil => rfl
  | cons c blanks ih =>
    rw [List.cons_append, words_of_blank _ (h c List.mem_cons_self)]
    exact ih fun d hd => h d (List.mem_cons_of_mem c hd)

theorem runAndWords_append_blank {blanks : List Char} (h : ∀ c ∈ blanks, isBlank c = true)
    (cs : List Char) : runAndWords (cs ++ blanks) = runAndWords cs := by
  induction cs with
  | nil =>
    cases blanks with
    | nil => rfl
    | cons c blanks =>
      -- of blanks alone there is no word
      have hnone : words blanks = [] :=
        words_eq_nil_iff.2 fun d hd => h d (List.mem_cons_of_mem c hd)
      rw [List.nil_append, runAndWords_of_blank _ (h c List.mem_cons_self), hnone]
      rfl
  | cons c cs ih =>
    cases hc : isBlank c with
    | true =>
      rw [List.cons_append, runAndWords_of_blank _ hc, runAndWords_of_blank _ hc,
        words_eq_of_runAndWords ih]
    | false =>
      rw [List.cons_append, runAndWords_of_not_blank _ hc, runAndWords_of_not_blank _ hc, ih]

/-! ## §3 Collapsed texts -/

theorem intercalate_space_cons (w : List Char) (ws : List (List Char)) :
    [' '].intercalate (w :: ws) = w ++ if ws.isEmpty then [] else ' ' :: [' '].intercalate ws := by
  cases ws with
  | nil => simp
  | cons w' ws => simp

/-- Words with single spaces between them have just these words. -/
theorem words_intercalate {ws : List (List Char)} (hws : ∀ w ∈ ws, IsWord w) :
    words ([' '].intercalate ws) = ws := by
  induction ws with
  | nil => rfl
  | cons w ws ih =>
    have hw : IsWord w := hws w List.mem_cons_self
    have hrest : words ([' '].intercalate ws) = ws := by
      apply ih
      intro v hv
      exact hws v (List.mem_cons_of_mem w hv)
    have hspace : isBlank ' ' = true := by decide
    rw [intercalate_space_cons]
    cases ws with
    | nil => rw [words_word_append hw _ (by simp)]; simp
    | cons v ws =>
      -- the space ends the first word, and is not part of the next
      rw [words_word_append hw _ (by simp [hspace])]
      simp only [List.isEmpty_cons, Bool.false_eq_true, if_false]
      rw [words_of_blank _ hspace, hrest]

@[simp] theorem words_collapse (cs : List Char) : words (collapse cs) = words cs :=
  words_intercalate fun _ => isWord_of_mem_words

@[simp] theorem collapse_collapse (cs : List Char) : collapse (collapse cs) = collapse cs := by
  rw [collapse, words_collapse]
  rfl

theorem collapse_congr {cs ds : List Char} (h : words cs = words ds) :
    collapse cs = collapse ds := by
  rw [collapse, collapse, h]

theorem mem_intercalate_space {ws : List (List Char)} {c : Char}
    (h : c ∈ [' '].intercalate ws) : c = ' ' ∨ ∃ w ∈ ws, c ∈ w := by
  induction ws with
  | nil => cases h
  | cons w ws ih =>
    rw [intercalate_space_cons] at h
    rcases List.mem_append.1 h with h | h
    · exact Or.inr ⟨w, List.mem_cons_self, h⟩
    · split at h
      · cases h
      · rcases List.mem_cons.1 h with h | h
        · exact Or.inl h
        · rcases ih h with h | ⟨v, hv, h⟩
          · exact Or.inl h
          · exact Or.inr ⟨v, List.mem_cons_of_mem w hv, h⟩

/-- A collapsed text has no characters but those of the text, and spaces. -/
theorem mem_collapse {cs : List Char} {c : Char} (h : c ∈ collapse cs) : c = ' ' ∨ c ∈ cs := by
  rcases mem_intercalate_space h with h | ⟨w, hw, h⟩
  · exact Or.inl h
  · exact Or.inr ((isWord_and_subset_of_mem_words hw).2 h)

/-- A text that begins with a word is that run of characters and what comes after it.
    Collapsed, it is the run and something that begins with a space, if with anything. -/
theorem exists_run_of_not_blank {c : Char} (cs : List Char) (hc : isBlank c = false) :
    ∃ run after after', c :: cs = run ++ after ∧ collapse (c :: cs) = run ++ after' ∧ IsWord run ∧
      words after = (words (c :: cs)).tail ∧ (∀ d ∈ after.head?, isBlank d = true) ∧
      (∀ d ∈ after'.head?, d = ' ') := by
  have hwords := words_of_not_blank cs hc
  rw [runAndWords_eq] at hwords
  -- the run is the first word, and in the collapsed text the other words follow it
  refine ⟨c :: cs.takeWhile fun d => !isBlank d, cs.dropWhile fun d => !isBlank d,
    if (words (cs.dropWhile fun d => !isBlank d)).isEmpty then []
      else ' ' :: [' '].intercalate (words (cs.dropWhile fun d => !isBlank d)),
    ?_, ?_, ?_, ?_, ?_, ?_⟩
  · rw [List.cons_append, List.takeWhile_append_dropWhile]
  · rw [collapse, hwords, intercalate_space_cons]
  · have hmem : (c :: cs.takeWhile fun d => !isBlank d) ∈ words (c :: cs) := by
      rw [hwords]
      exact List.mem_cons_self
    exact isWord_of_mem_words hmem
  · rw [hwords, List.tail_cons]
  · intro d hd
    have hstop := List.head?_dropWhile_not (fun d => !isBlank d) cs
    rw [Option.mem_def.1 hd] at hstop
    simpa using hstop
  · intro d hd
    split at hd
    · cases hd
    · exact (Option.some.inj hd).symm

theorem collapse_ne_nil {c : Char} {cs : List Char} (hc : isBlank c = false) :
    collapse (c :: cs) ≠ [] := by
  obtain ⟨run, after, after', -, hcollapse, hrun, -⟩ := exists_run_of_not_blank cs hc
  rw [hcollapse]
  exact List.append_ne_nil_of_left_ne_nil hrun.nonempty after'

/-- A collapsed text begins with no blank. -/
theorem head_not_blank_of_collapsed {cs : List Char} (h : collapse cs = cs) :
    ∀ c ∈ cs.head?, isBlank c = false := by
  rw [← h, collapse]
  -- it begins as its first word does
  cases hwords : words cs with
  | nil => simp
  | cons w ws =>
    have hw : IsWord w := isWord_of_mem_words (hwords ▸ List.mem_cons_self)
    obtain ⟨c, w', rfl⟩ := List.exists_cons_of_ne_nil hw.nonempty
    rw [intercalate_space_cons]
    intro d hd
    obtain rfl : c = d := by simpa using hd
    exact hw.not_blank c List.mem_cons_self

/-! ## §4 Blanks and word characters -/

/-- Two sets of code points whose ranges lie apart have no character in common. -/
theorem CodeRanges.contains_eq_false_of_apart (ranges others : CodeRanges)
    (hapart : ∀ r ∈ ranges, ∀ q ∈ others, r.2 < q.1 ∨ q.2 < r.1) {c : Char}
    (h : ranges.contains c = true) : others.contains c = false := by
  obtain ⟨r, hr, hin⟩ := List.any_eq_true.1 h
  apply List.any_eq_false.2
  intro q hq
  have := hapart r hr q hq
  simp only [Bool.and_eq_true, decide_eq_true_eq] at hin ⊢
  omega

/-- **A word ends at a blank**: no blank goes on with a word. -/
theorem isWordChar_eq_false_of_isBlank {c : Char} (h : isBlank c = true) :
    isWordChar c = false := by
  unfold isWordChar
  split
  · -- one look at each ASCII character
    next hascii =>
    have hall : ∀ n < 128, isBlank (Char.ofNat n) = true →
        ((Char.ofNat n).isAlphanum || Char.ofNat n == '_') = false := by decide +kernel
    have hc := hall c.toNat hascii
    rw [Char.ofNat_toNat] at hc
    exact hc h
  · -- beyond ASCII it is enough to compare the ranges
    apply CodeRanges.contains_eq_false_of_apart blankRanges alphanumericRanges _ h
    decide +kernel

end Flowchart.Text
