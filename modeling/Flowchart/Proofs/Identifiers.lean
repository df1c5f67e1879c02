import Mathlib.Algebra.Ring.Parity
import Mathlib.Data.List.TakeWhile
import Flowchart.Proofs.DotLines

/-!
# Names as They Are Written

A name is written bare if it is an identifier and no word of the language, and between
quotation marks otherwise.  Quoted, it may hold anything: each quotation mark inside has an odd
number of backslashes before it, so it does not close the text, and the last one has an even
number before it, so it does (`Dot.marksEscaped_escapeChars`, `Dot.even_backslashes_at_end`).

There is one exception.  An identifier that is followed by a single line feed is written bare
too, with the line feed, and breaks the line that it stands in (`Dot.IsBrokenWord`).  With or
without it, names are told apart by what is written for them, but for carriage returns right
before line feeds.

Main statement: `identifier_writes_one_word_or_line_feed`.
-/

namespace Flowchart

open Text

namespace Dot

/-! ## §1 Quotation marks and the backslashes before them -/

/-- How many backslashes a text ends in. -/
def backslashesAtEnd (cs : List Char) : Nat :=
  (cs.reverse.takeWhile (· == '\\')).length

/-- Only what comes after another character counts. -/
theorem backslashesAtEnd_append_of_ne {c : Char} (hc : c ≠ '\\') (cs ds : List Char) :
    backslashesAtEnd (cs ++ c :: ds) = backslashesAtEnd ds := by
  have hstop : (c :: cs.reverse).takeWhile (· == '\\') = [] := by simp [hc]
  have hreverse : (cs ++ c :: ds).reverse = ds.reverse ++ c :: cs.reverse := by simp
  rw [backslashesAtEnd, backslashesAtEnd, hreverse, List.takeWhile_append, hstop, List.append_nil]
  split
  case isTrue hall => rw [(List.takeWhile_prefix _).eq_of_length hall]
  case isFalse => rfl

theorem backslashesAtEnd_of_all {cs : List Char} (h : ∀ c ∈ cs, c = '\\') :
    backslashesAtEnd cs = cs.length := by
  rw [backslashesAtEnd, List.takeWhile_eq_self_iff.2, List.length_reverse]
  intro c hc
  rw [h c (List.mem_reverse.1 hc)]
  rfl

/-- A backslash and the character that it escapes make no difference to what escapes the
    next one. -/
theorem even_backslashesAtEnd_pair (c : Char) (cs : List Char) :
    Even (backslashesAtEnd ('\\' :: c :: cs)) ↔ Even (backslashesAtEnd cs) := by
  by_cases hall : ∀ d ∈ c :: cs, d = '\\'
  · -- nothing but backslashes, two of which are new
    obtain ⟨-, hcs⟩ := List.forall_mem_cons.1 hall
    have hpair : ∀ d ∈ '\\' :: c :: cs, d = '\\' := List.forall_mem_cons.2 ⟨rfl, hall⟩
    rw [backslashesAtEnd_of_all hpair, backslashesAtEnd_of_all hcs]
    simp [Nat.even_add_one]
  · -- only what comes after another character counts
    push Not at hall
    obtain ⟨d, hd, hne⟩ := hall
    rcases List.mem_cons.1 hd with rfl | hd
    · rw [← List.singleton_append, backslashesAtEnd_append_of_ne hne]
    · obtain ⟨before, after, rfl⟩ := List.append_of_mem hd
      rw [← List.cons_append, ← List.cons_append, backslashesAtEnd_append_of_ne hne,
        backslashesAtEnd_append_of_ne hne]

theorem even_backslashesAtEnd_cons {c : Char} (hc : c ≠ '\\') (cs : List Char) :
    Even (backslashesAtEnd (c :: cs)) ↔ Even (backslashesAtEnd cs) := by
  rw [← List.nil_append (c :: cs), backslashesAtEnd_append_of_ne hc]

/-- A character is written as itself, or as a backslash and a character. -/
theorem escapeChar_cases (c : Char) :
    (∃ d, escapeChar c = ['\\', d]) ∨ escapeChar c = [c] ∧ c ≠ '\\' ∧ c ≠ '"' := by
  unfold escapeChar
  split_ifs with hbackslash hmark hfeed
  · exact .inl ⟨_, rfl⟩
  · exact .inl ⟨_, rfl⟩
  · exact .inl ⟨_, rfl⟩
  · exact .inr ⟨rfl, by simpa using hbackslash, by simpa using hmark⟩

/-- Escaped text ends in an even number of backslashes. -/
theorem even_backslashes_at_end (cs : List Char) : Even (backslashesAtEnd (escapeChars cs)) := by
  fun_induction escapeChars cs with
  | case1 => exact Even.zero
  | case2 cs ih => rwa [even_backslashesAtEnd_pair]
  | case3 c cs hne ih =>
    -- a pair leaves the parity as it was, and a plain character is no backslash
    rcases escapeChar_cases c with ⟨d, hpair⟩ | ⟨hplain, hbackslash, -⟩
    · rwa [hpair, List.cons_append, List.singleton_append, even_backslashesAtEnd_pair]
    · rwa [hplain, List.singleton_append, even_backslashesAtEnd_cons hbackslash]

/-- Each quotation mark has an odd number of backslashes before it. -/
def MarksEscaped (cs : List Char) : Prop :=
  ∀ before after, cs = before ++ '"' :: after → Odd (backslashesAtEnd before)

theorem MarksEscaped.pair {cs : List Char} (h : MarksEscaped cs) (c : Char) :
    MarksEscaped ('\\' :: c :: cs) := by
  intro before after heq
  rcases before with _ | ⟨first, _ | ⟨second, before⟩⟩
  · -- it does not begin with a quotation mark
    cases heq
  · -- the mark is the one that is escaped here
    cases heq
    decide
  · obtain ⟨rfl, rfl, hcs⟩ : '\\' = first ∧ c = second ∧ cs = before ++ '"' :: after := by
      simpa using heq
    rw [← Nat.not_even_iff_odd, even_backslashesAtEnd_pair, Nat.not_even_iff_odd]
    exact h before after hcs

theorem MarksEscaped.cons {cs : List Char} (h : MarksEscaped cs) {c : Char} (hbackslash : c ≠ '\\')
    (hmark : c ≠ '"') : MarksEscaped (c :: cs) := by
  intro before after heq
  rcases before with _ | ⟨first, before⟩
  · -- the mark would be the new character
    exact absurd (List.head_eq_of_cons_eq heq) hmark
  · obtain ⟨rfl, hcs⟩ : c = first ∧ cs = before ++ '"' :: after := by simpa using heq
    rw [← Nat.not_even_iff_odd, even_backslashesAtEnd_cons hbackslash, Nat.not_even_iff_odd]
    exact h before after hcs

/-- **No quotation mark in escaped text is bare.** -/
theorem marksEscaped_escapeChars (cs : List Char) : MarksEscaped (escapeChars cs) := by
  fun_induction escapeChars cs with
  | case1 =>
    intro before after heq
    simp at heq
  | case2 cs ih => exact ih.pair 'n'
  | case3 c cs hne ih =>
    rcases escapeChar_cases c with ⟨d, hpair⟩ | ⟨hplain, hbackslash, hmark⟩
    · rw [hpair]
      exact ih.pair d
    · rw [hplain]
      exact ih.cons hbackslash hmark

/-! ## §2 Words -/

/-- An ASCII letter or an underscore, and then ASCII letters, digits and underscores. -/
def IsWord (cs : List Char) : Prop :=
  ∃ first rest, cs = first :: rest ∧ (first.isAlpha = true ∨ first = '_') ∧
    ∀ c ∈ rest, c.isAlphanum = true ∨ c = '_'

/-- The name is a word, and in lower case none of those that the language knows. -/
structure IsPlainWord (name : String) : Prop where
  word : IsWord name.toList
  free : ∀ reserved ∈ reservedWords, name.toList.map Char.toLower ≠ reserved.toList

/-- The name is a word and a line feed.  The word may well be one that the language knows. -/
def IsBrokenWord (name : String) : Prop :=
  ∃ word : String, IsWord word.toList ∧ name = word ++ "\n"

/-- The check for identifiers finds the words. -/
theorem isIdentifier_iff {cs : List Char} : isIdentifier cs = true ↔ IsWord cs := by
  cases cs with
  | nil => simp [isIdentifier, IsWord]
  | cons c cs => simp [isIdentifier, isIdentifierStart, isIdentifierRest, IsWord]

/-- A word is reserved in upper and lower case. -/
theorem isReserved_iff {cs : List Char} :
    isReserved cs = true ↔ ∃ reserved ∈ reservedWords, cs.map Char.toLower = reserved.toList := by
  rw [isReserved, List.contains_iff_mem]
  constructor
  · intro h
    exact ⟨_, h, String.toList_ofList.symm⟩
  · rintro ⟨reserved, hreserved, heq⟩
    rwa [heq, String.ofList_toList]

theorem newline_not_mem_of_isWord {cs : List Char} (h : IsWord cs) : '\n' ∉ cs :=
  newline_not_mem_of_isIdentifier (isIdentifier_iff.2 h)

theorem not_isBrokenWord_of_endsInText {name : String} (h : EndsInText name) :
    ¬IsBrokenWord name := by
  rintro ⟨word, -, rfl⟩
  simp [EndsInText] at h

theorem IsPlainWord.not_isBrokenWord {name : String} (h : IsPlainWord name) :
    ¬IsBrokenWord name := by
  rintro ⟨word, -, rfl⟩
  exact newline_not_mem_of_isWord h.word (by simp)

/-- No word of the language ends in a line feed. -/
theorem isReserved_concat_newline (cs : List Char) : isReserved (cs ++ ['\n']) = false := by
  have hwords : ∀ reserved ∈ reservedWords, '\n' ∉ reserved.toList := by decide
  rw [Bool.eq_false_iff, ne_eq, isReserved_iff]
  rintro ⟨reserved, hreserved, heq⟩
  refine hwords reserved hreserved (heq ▸ ?_)
  exact List.mem_map_of_mem (f := Char.toLower) (List.mem_concat_self ..)

/-- **What is written bare**: plain words, and words with a line feed. -/
theorem isBare_iff {name : String} :
    isBare name.toList = true ↔ IsPlainWord name ∨ IsBrokenWord name := by
  by_cases hend : EndsInText name
  case pos =>
    -- without a line feed at its end the name is checked as it is
    rw [or_iff_left (not_isBrokenWord_of_endsInText hend), isBare,
      dropFinalLineFeed_of_endsInText hend, Bool.and_eq_true, isIdentifier_iff, Bool.not_eq_true',
      Bool.eq_false_iff, ne_eq, isReserved_iff]
    push Not
    exact ⟨fun ⟨hword, hfree⟩ => ⟨hword, hfree⟩, fun h => ⟨h.word, h.free⟩⟩
  case neg =>
    -- with one, all before it is checked
    obtain ⟨cs, hname⟩ := List.getLast?_eq_some_iff.1 (not_not.1 hend)
    have hplain : ¬IsPlainWord name := fun h =>
      newline_not_mem_of_isWord h.word (by simp [hname])
    have hdrop : dropFinalLineFeed (cs ++ ['\n']) = cs := by simp [dropFinalLineFeed]
    rw [or_iff_right hplain, isBare, hname, hdrop, isReserved_concat_newline, Bool.not_false,
      Bool.and_true, isIdentifier_iff]
    constructor
    · intro hword
      exact ⟨String.ofList cs, by simpa using hword, String.toList_inj.1 (by simpa using hname)⟩
    · rintro ⟨word, hword, rfl⟩
      obtain rfl : word.toList = cs := by simpa using hname
      exact hword

/-! ## §3 What stands for a name -/

/-- A text between quotation marks: no raw line feed and no bare mark in it, and a closing mark
    that is not escaped. -/
def IsQuoted (text : String) : Prop :=
  ∃ inner, text.toList = '"' :: (inner ++ ['"']) ∧ '\n' ∉ inner ∧ MarksEscaped inner ∧
    Even (backslashesAtEnd inner)

theorem isQuoted_quote (name : String) : IsQuoted (quote name) :=
  ⟨_, toList_quote name, newline_not_mem_escapeChars _, marksEscaped_escapeChars _,
    even_backslashes_at_end _⟩

theorem not_isQuoted_of_isWord {word : String} (h : IsWord word.toList) (rest : String) :
    ¬IsQuoted (word ++ rest) := by
  obtain ⟨first, others, hword, hfirst, -⟩ := h
  rintro ⟨inner, hinner, -⟩
  obtain rfl : first = '"' := by simpa [hword] using congrArg List.head? hinner
  simp at hfirst

theorem length_le_escapeChars (cs : List Char) : cs.length ≤ (escapeChars cs).length := by
  fun_induction escapeChars cs with
  | case1 => exact Nat.le_refl 0
  | case2 cs ih => simpa using ih
  | case3 c cs hne ih =>
    -- no character is written as nothing
    have hone : 1 ≤ (escapeChar c).length := by
      rcases escapeChar_cases c with ⟨d, hpair⟩ | ⟨hplain, -⟩
      · simp [hpair]
      · simp [hplain]
    rw [List.length_cons, List.length_append]
    omega

/-- A quoted text is longer than the text. -/
theorem quote_ne (name : String) : quote name ≠ name := by
  intro heq
  have hlength := congrArg (·.toList.length) heq
  have hle := length_le_escapeChars name.toList
  simp only [toList_quote, List.length_cons, List.length_append, List.length_nil] at hlength
  omega

/-- A name is written as it is just if it may stand bare. -/
theorem identifier_eq_self_iff {name : String} :
    identifier name = name ↔ IsPlainWord name ∨ IsBrokenWord name := by
  rw [← isBare_iff, identifier]
  split
  case isTrue hbare => simp [hbare]
  case isFalse hbare => simp [hbare, quote_ne]

/-- A bare name is a word as far as that goes, and at most a line feed comes after it. -/
theorem exists_identifier_of_isBare {cs : List Char} (h : isBare cs = true) :
    ∃ word rest, isIdentifier word = true ∧ word ++ rest = cs := by
  have hprefix : dropFinalLineFeed cs <+: cs := by
    unfold dropFinalLineFeed
    split
    · exact List.dropLast_prefix cs
    · exact List.prefix_refl cs
  obtain ⟨rest, hrest⟩ := hprefix
  exact ⟨_, rest, (Bool.and_eq_true_iff.1 h).1, hrest⟩

theorem quote_ne_of_isBare {name : String} (h : isBare name.toList = true) (other : String) :
    name ≠ quote other := by
  rintro rfl
  obtain ⟨word, rest, hword, heq⟩ := exists_identifier_of_isBare h
  have hquote : word ++ rest = (quote other).toList ++ [] := by rw [heq, List.append_nil]
  exact isIdentifier_append_ne_quote hword hquote

/-- **Names are told apart by what is written for them.** -/
theorem joinLineEnds_eq_of_identifier_eq {name other : String}
    (h : identifier name = identifier other) : joinLineEnds name = joinLineEnds other := by
  unfold identifier at h
  split at h <;> rename_i hname <;> split at h <;> rename_i hother
  · exact congrArg joinLineEnds h
  · -- a bare name is no quoted text
    exact absurd h (quote_ne_of_isBare hname other)
  · exact absurd h.symm (quote_ne_of_isBare hother name)
  · have hquotes : (quote name).toList ++ [] = (quote other).toList ++ [] := by rw [h]
    exact (quote_append_inj hquotes).1

/-! ## §4 The first line of a file -/

/-- A text up to its first line feed. -/
def upToLineFeed (text : String) : String :=
  String.ofList (text.toList.takeWhile (· != '\n'))

theorem newline_mem_identifier_iff {name : String} :
    '\n' ∈ (identifier name).toList ↔ IsBrokenWord name := by
  constructor
  · intro hmem
    by_contra hbroken
    by_cases hbare : isBare name.toList = true
    · have hplain := (isBare_iff.1 hbare).resolve_right hbroken
      rw [identifier, if_pos hbare] at hmem
      exact newline_not_mem_of_isWord hplain.word hmem
    · -- line feeds in a quoted name are escaped
      rw [identifier, if_neg hbare] at hmem
      exact newline_not_mem_quote name hmem
  · intro hbroken
    rw [identifier_eq_self_iff.2 (.inr hbroken)]
    obtain ⟨word, -, rfl⟩ := hbroken
    simp

/-- The header is broken in two by such a name only. -/
theorem newline_mem_header_iff {name : String} (strict : Bool) :
    '\n' ∈ (header name strict).toList ↔ IsBrokenWord name := by
  rw [← newline_mem_identifier_iff]
  by_cases hempty : name = ""
  · subst hempty
    cases strict <;> decide
  · have hsome : name.isEmpty = false := by simpa using hempty
    cases strict <;> simp [header, hsome]

theorem lines_prefix_foldl_addRecord (records : List Record) (w : Writer) :
    w.lines <+: (records.foldl Writer.addRecord w).lines := by
  induction records generalizing w with
  | nil => exact List.prefix_refl _
  | cons r records ih => exact (List.prefix_append w.lines _).trans (ih (w.addRecord r))

/-- A file begins with its header and a line feed. -/
theorem exists_render_eq (name : String) (strict : Bool) (records : List Record) :
    ∃ rest, render name strict records = header name strict ++ ("\n" ++ rest) := by
  obtain ⟨others, hothers⟩ := lines_prefix_foldl_addRecord records
    (({} : Writer).addLine (header name strict))
  refine ⟨String.join ((others ++ ["\x7d"]).map (· ++ "\n")), ?_⟩
  have hclosing : trim ['\x7d'] = ['\x7d'] := rfl
  rw [render, Writer.consume, Writer.addLine, ← hothers]
  simp [Writer.addLine, trim_header, hclosing, String.join_cons, String.append_assoc]

theorem upToLineFeed_render_eq_iff {name : String} (strict : Bool) (records : List Record) :
    upToLineFeed (render name strict records) = header name strict ↔ ¬IsBrokenWord name := by
  obtain ⟨rest, hrest⟩ := exists_render_eq name strict records
  rw [← newline_mem_header_iff strict, hrest]
  constructor
  · -- what comes before the first line feed has none
    intro hfirst hmem
    rw [← hfirst, upToLineFeed, String.toList_ofList] at hmem
    exact absurd (List.mem_takeWhile_imp hmem) (by decide)
  · intro hmem
    rw [upToLineFeed, String.toList_append,
      takeWhile_append_of_stopsAt (bne_newline_of_notMem hmem) (by simp), String.ofList_toList]

end Dot

/-! ## §5 Every name -/

/-- **A name is written as one identifier, unless it is a word with a line feed behind it.**

* A name stands bare just if it is a plain word or a word with a line feed.
* What is written is one identifier, which is to say a plain word as it is or a text between
  quotation marks with neither a raw line feed nor a bare mark in it, just if the name is no
  word with a line feed.
* Names for which the same is written are equal, but for carriage returns right before line
  feeds.
* The first line of a file is its header just if the file's name is no word with a line feed;
  else the header goes on in the second line. -/
theorem identifier_writes_one_word_or_line_feed (name : String) :
    (Dot.identifier name = name ↔ Dot.IsPlainWord name ∨ Dot.IsBrokenWord name) ∧
      ((Dot.identifier name = name ∧ Dot.IsPlainWord name) ∨ Dot.IsQuoted (Dot.identifier name) ↔
        ¬Dot.IsBrokenWord name) ∧
      (∀ other, Dot.identifier name = Dot.identifier other →
        joinLineEnds name = joinLineEnds other) ∧
      ∀ strict records, Dot.upToLineFeed (Dot.render name strict records) =
        Dot.header name strict ↔ ¬Dot.IsBrokenWord name := by
  refine ⟨Dot.identifier_eq_self_iff, ?_, fun other => Dot.joinLineEnds_eq_of_identifier_eq,
    Dot.upToLineFeed_render_eq_iff⟩
  constructor
  · rintro (⟨-, hplain⟩ | hquoted) hbroken
    · exact hplain.not_isBrokenWord hbroken
    · rw [Dot.identifier_eq_self_iff.2 (.inr hbroken)] at hquoted
      obtain ⟨word, hword, rfl⟩ := hbroken
      exact Dot.not_isQuoted_of_isWord hword "\n" hquoted
  · -- a name that may not stand bare is quoted, and if it may it is a plain word
    intro hbroken
    by_cases hplain : Dot.IsPlainWord name
    · exact .inl ⟨Dot.identifier_eq_self_iff.2 (.inl hplain), hplain⟩
    · have hbare : ¬Dot.isBare name.toList = true := fun h =>
        (Dot.isBare_iff.1 h).elim hplain hbroken
      rw [Dot.identifier, if_neg hbare]
      exact .inr (Dot.isQuoted_quote name)

/-- A letter with a line feed behind it is neither a plain word nor between quotation marks, and
    a file of this name has its header on two lines. -/
theorem identifier_of_letter_and_line_feed :
    Dot.identifier "a\n" = "a\n" ∧ ¬Dot.IsPlainWord "a\n" ∧ ¬Dot.IsQuoted "a\n" ∧
      Dot.upToLineFeed (Dot.render "a\n" true []) = "strict digraph a" := by
  have hword : Dot.IsWord "a".toList := ⟨'a', [], rfl, .inl rfl, by simp⟩
  refine ⟨by decide, fun hplain => ?_, ?_, by decide⟩
  · exact hplain.not_isBrokenWord ⟨"a", hword, rfl⟩
  · exact Dot.not_isQuoted_of_isWord hword "\n"

end Flowchart
