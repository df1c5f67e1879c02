import Flowchart.Proofs.DotLines

/-!
# Escaped Text Is Read Back

Between quotation marks a text stands escaped.  Escaping is four replacements in the whole
text, one after the other: of backslashes, of quotation marks, of carriage returns with their
line feeds, and of line feeds.  Each of them puts backslashes into the text, and none takes
those of another one for its own, so they come to one pass from left to right.

* The four replacements are the one pass (`Dot.replacements_eq_escapeChars`).
* Only what was written is read (`Dot.eq_flatMap_of_unescape`), and what has been read does not
  change how reading goes on (`Dot.unescape_append`).  So in escaped text it comes to no place
  where it fails, and to no quotation mark but the closing one (`Dot.mark_reached_iff`).

Main statement: `escape_is_undone_up_to_the_closing_mark`.
-/

namespace Flowchart

open Text

/-! ## §1 Replacing -/

/-- Put `new` for each `old` in a text, from left to right and going on behind it.  There has to
    be a character in `old`. -/
def Text.replaceAll (old new : List Char) : List Char → List Char
  | [] => []
  | c :: cs =>
    if old <+: c :: cs then new ++ replaceAll old new (cs.drop (old.length - 1))
    else c :: replaceAll old new cs
termination_by cs => cs.length

namespace Text

@[simp] theorem replaceAll_nil (old new : List Char) : replaceAll old new [] = [] := by
  rw [replaceAll]

/-- Where `old` stands it is replaced, and replacing goes on behind it. -/
theorem replaceAll_append {old : List Char} (hold : old ≠ []) (new cs : List Char) :
    replaceAll old new (old ++ cs) = new ++ replaceAll old new cs := by
  obtain ⟨c, others, rfl⟩ := List.exists_cons_of_ne_nil hold
  have hprefix : c :: others <+: c :: (others ++ cs) := List.prefix_append (c :: others) cs
  rw [List.cons_append, replaceAll, if_pos hprefix]
  simp

/-- Where `old` does not begin, the character stays. -/
theorem replaceAll_cons {old cs : List Char} {c : Char} (h : ¬old <+: c :: cs) (new : List Char) :
    replaceAll old new (c :: cs) = c :: replaceAll old new cs := by
  rw [replaceAll, if_neg h]

/-- To replace a single character is to look at one character after the other. -/
theorem replaceAll_singleton (old : Char) (new cs : List Char) :
    replaceAll [old] new cs = cs.flatMap fun c => if c = old then new else [c] := by
  induction cs with
  | nil => simp
  | cons c cs ih =>
    rw [List.flatMap_cons, ← ih]
    by_cases hc : c = old
    · subst hc
      rw [if_pos rfl]
      exact replaceAll_append (List.cons_ne_nil c []) new cs
    · rw [if_neg hc]
      exact replaceAll_cons (by simpa using Ne.symm hc) new

/-- A carriage return with its line feed, where there is one. -/
theorem lineEnd_prefix_iff {c : Char} {cs : List Char} :
    ['\r', '\n'] <+: c :: cs ↔ c = '\r' ∧ cs.head? = some '\n' := by
  cases cs <;> simp [List.cons_prefix_cons, eq_comm]

theorem not_begins_lineEnd {c : Char} {cs : List Char}
    (h : ∀ ds, c = '\r' → cs = '\n' :: ds → False) : ¬['\r', '\n'] <+: c :: cs := by
  rw [lineEnd_prefix_iff]
  rintro ⟨hc, hcs⟩
  obtain ⟨ds, hds⟩ := List.head?_eq_some_iff.1 hcs
  exact h ds hc hds

/-- To replace line ends by line feeds is to join them. -/
theorem replaceAll_lineEnd (cs : List Char) :
    replaceAll ['\r', '\n'] ['\n'] cs = joinCarriageReturns cs := by
  fun_induction joinCarriageReturns cs with
  | case1 => simp
  | case2 cs ih =>
    rw [← ih]
    exact replaceAll_append (List.cons_ne_nil _ _) ['\n'] cs
  | case3 c cs hne ih =>
    rw [← ih]
    exact replaceAll_cons (not_begins_lineEnd hne) ['\n']

end Text

namespace Dot

/-! ## §2 Four replacements in one pass -/

/-- A character after the first two replacements. -/
def escapeMark (c : Char) : List Char :=
  if c = '\\' then ['\\', '\\'] else if c = '"' then ['\\', '"'] else [c]

theorem replaceAll_marks (cs : List Char) :
    replaceAll ['"'] ['\\', '"'] (replaceAll ['\\'] ['\\', '\\'] cs) = cs.flatMap escapeMark := by
  rw [replaceAll_singleton, replaceAll_singleton, List.flatMap_assoc]
  congr 1
  funext c
  unfold escapeMark
  split_ifs <;> simp_all

/-- The first two replacements neither put a line feed at the front nor take one away. -/
theorem head?_flatMap_escapeMark {cs : List Char} :
    (cs.flatMap escapeMark).head? = some '\n' ↔ cs.head? = some '\n' := by
  cases cs with
  | nil => rfl
  | cons c cs =>
    rw [List.flatMap_cons, escapeMark]
    split_ifs <;> simp_all

/-- The third replacement leaves alone what the first two have put for a character, unless the
    character begins a line end. -/
theorem replaceAll_lineEnd_escapeMark {c : Char} {cs : List Char} (h : ¬['\r', '\n'] <+: c :: cs)
    (new : List Char) :
    replaceAll ['\r', '\n'] new ((c :: cs).flatMap escapeMark) =
      escapeMark c ++ replaceAll ['\r', '\n'] new (cs.flatMap escapeMark) := by
  have hbackslash : ∀ ds, ¬['\r', '\n'] <+: '\\' :: ds := by simp
  have hmark : ∀ ds, ¬['\r', '\n'] <+: '"' :: ds := by simp
  rw [List.flatMap_cons, escapeMark]
  split_ifs
  · simp [replaceAll_cons (hbackslash _)]
  · simp [replaceAll_cons (hbackslash _), replaceAll_cons (hmark _)]
  · rw [List.singleton_append, List.singleton_append]
    -- the character stays itself, and what comes next is a line feed just if it was one
    apply replaceAll_cons
    rwa [lineEnd_prefix_iff, head?_flatMap_escapeMark, ← lineEnd_prefix_iff]

/-- **The four replacements are one pass**: none of them meets a backslash of another one. -/
theorem replacements_eq_escapeChars (cs : List Char) :
    replaceAll ['\n'] ['\\', 'n'] (replaceAll ['\r', '\n'] ['\\', 'n']
      (replaceAll ['"'] ['\\', '"'] (replaceAll ['\\'] ['\\', '\\'] cs))) = escapeChars cs := by
  rw [replaceAll_marks, replaceAll_singleton]
  fun_induction escapeChars cs with
  | case1 => simp
  | case2 cs ih =>
    -- a line end is none of the marks, so the third replacement finds it
    have hmarks : ('\r' :: '\n' :: cs).flatMap escapeMark =
        ['\r', '\n'] ++ cs.flatMap escapeMark := rfl
    rw [hmarks, replaceAll_append (List.cons_ne_nil _ _), List.flatMap_append, ih]
    rfl
  | case3 c cs hne ih =>
    rw [replaceAll_lineEnd_escapeMark (not_begins_lineEnd hne), List.flatMap_append, ih]
    congr 1
    unfold escapeMark escapeChar
    split_ifs <;> simp_all

/-! ## §3 Reading on -/

/-- **Only what was written is read.** -/
theorem eq_flatMap_of_unescape {cs read : List Char} (h : unescape cs = some read) :
    cs = read.flatMap escapeChar := by
  fun_induction unescape cs generalizing read with
  | case1 =>
    obtain rfl := Option.some.inj h
    rfl
  | case2 cs ih | case3 cs ih | case4 cs ih =>
    -- a pair stands for the character that it was written for
    obtain ⟨others, hothers, rfl⟩ := Option.map_eq_some_iff.1 h
    simp [escapeChar, ← ih hothers]
  | case5 => cases h
  | case6 c cs hbackslashes hmark hfeed hplain ih =>
    obtain ⟨others, hothers, rfl⟩ := Option.map_eq_some_iff.1 h
    -- it is no character that has to be escaped
    have hself : escapeChar c = [c] := by simp_all [escapeChar]
    rw [List.flatMap_cons, hself, ← ih hothers, List.singleton_append]

/-- **Reading goes on from where it is**, whatever has been read. -/
theorem unescape_append {cs read : List Char} (h : unescape cs = some read) (more : List Char) :
    unescape (cs ++ more) = (unescape more).map (read ++ ·) := by
  obtain rfl := eq_flatMap_of_unescape h
  clear h
  -- what was read was escaped character by character
  induction read with
  | nil => simp
  | cons c read ih =>
    rw [List.flatMap_cons, List.append_assoc, unescape_escapeChar_append, ih, Option.map_map]
    rfl

/-- **No quotation mark is reached but the closing one.** -/
theorem mark_reached_iff {cs before rest after : List Char}
    (h : escapeChars cs ++ '"' :: rest = before ++ '"' :: after) :
    (unescape before).isSome ↔ before = escapeChars cs ∧ after = rest := by
  have hread := unescape_escapeChars cs
  -- a mark is refused wherever reading comes to it
  have hrefused : ∀ ds, unescape ('"' :: ds) = none := fun ds => by simp [unescape]
  constructor
  · intro hreached
    obtain ⟨read, hreached⟩ := Option.isSome_iff_exists.1 hreached
    -- the mark is behind the escaped text, or in it
    rcases List.append_eq_append_iff.1 h with ⟨between, hbefore, hrest⟩ | ⟨between, hcs, hafter⟩
    · cases between with
      | nil => exact ⟨by simpa using hbefore, by simpa using hrest.symm⟩
      | cons c between =>
        obtain ⟨rfl, -⟩ := List.cons.inj hrest
        -- reading would have gone over the closing mark
        rw [hbefore, unescape_append hread, hrefused] at hreached
        cases hreached
    · cases between with
      | nil => exact ⟨by simpa using hcs.symm, by simpa using hafter⟩
      | cons c between =>
        obtain ⟨rfl, -⟩ := List.cons.inj hafter
        -- reading would stop at a mark within the escaped text
        rw [hcs, unescape_append hreached, hrefused] at hread
        cases hread
  · rintro ⟨rfl, -⟩
    exact Option.isSome_of_eq_some hread

end Dot

/-! ## §4 Every text -/

/-- **Escaping is undone by reading, which ends at the closing mark.**

* To escape a text is to replace backslashes, quotation marks, carriage returns with their line
  feeds, and line feeds, in this order.
* What is read back is the text with a line feed for each carriage return with its line feed.
  From each place that reading comes to it goes on to the end of this text.
* No line feed is in escaped text, and whatever comes after a quoted text, no quotation mark
  behind the opening one is reached but the closing one. -/
theorem escape_is_undone_up_to_the_closing_mark (text : String) :
    (Dot.escape text).toList =
        replaceAll ['\n'] ['\\', 'n'] (replaceAll ['\r', '\n'] ['\\', 'n']
          (replaceAll ['"'] ['\\', '"'] (replaceAll ['\\'] ['\\', '\\'] text.toList))) ∧
      Dot.unescape (Dot.escape text).toList =
        some (replaceAll ['\r', '\n'] ['\n'] text.toList) ∧
      (∀ before after read, (Dot.escape text).toList = before ++ after →
        Dot.unescape before = some read → ∃ more, Dot.unescape after = some more ∧
          read ++ more = replaceAll ['\r', '\n'] ['\n'] text.toList) ∧
      '\n' ∉ (Dot.escape text).toList ∧
      ∀ rest before after,
        (Dot.quote text).toList ++ rest = '"' :: (before ++ '"' :: after) →
          ((Dot.unescape before).isSome ↔ before = (Dot.escape text).toList ∧ after = rest) := by
  have hread : Dot.unescape (Dot.escapeChars text.toList) =
      some (replaceAll ['\r', '\n'] ['\n'] text.toList) := by
    rw [Dot.unescape_escapeChars, replaceAll_lineEnd]
  rw [Dot.escape, String.toList_ofList]
  refine ⟨(Dot.replacements_eq_escapeChars _).symm, hread, ?_, Dot.newline_not_mem_escapeChars _,
    ?_⟩
  · intro before after read hsplit hbefore
    rw [hsplit, Dot.unescape_append hbefore] at hread
    exact Option.map_eq_some_iff.1 hread
  · intro rest before after hquote
    exact Dot.mark_reached_iff (by simpa using hquote)

/-- A backslash and an `n` in the text are told apart from a line end. -/
example : Dot.escape "\\n\r\r\n" = "\\\\n\r\\n" := by decide

end Flowchart
