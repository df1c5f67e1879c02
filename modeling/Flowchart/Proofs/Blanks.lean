import Flowchart.Proofs.ErrorPlaces
import Flowchart.Proofs.Spacing

/-!
# Blanks That Are No Layout

Layout between tokens is skipped, and layout is less than what separates the words of a text.
A blank that is no layout, say a vertical tab or a no-break space, is one more blank inside a
text and in front of the semicolon that `exit` looks for, but where a token has to begin it
cannot be read.

That is the only difference there is.  A blank may be written as a space without changing what
stands at a place (`Token.candidates_map_spaced`), so a flow is read with all its runs of blanks
squeezed to single spaces as it is read without, or it fails at a blank
(`parse_squeeze_or_unreadable_blank`).  It does fail where the squeezed flow
is read, whichever blank it is that is no layout (`parse_exit_blank`).
-/

namespace Flowchart

open Text Flowchart.Parser

/-! ## §1 Spaces for blanks -/

/-- A space for a blank; any other character as it is. -/
def spaced (c : Char) : Char :=
  if isBlank c then ' ' else c

theorem spaced_of_blank {c : Char} (hc : isBlank c = true) : spaced c = ' ' :=
  if_pos hc

theorem spaced_of_not_blank {c : Char} (hc : isBlank c = false) : spaced c = c :=
  if_neg (by simp [hc])

/-- A text with each run of blanks replaced by a single space. -/
def squeeze : List Char → List Char
  | [] => []
  | c :: cs =>
    if isBlank c then
      -- the space stands for the last blank of the run
      if cs.head?.any isBlank then squeeze cs else ' ' :: squeeze cs
    else c :: squeeze cs

/-- **A run of blanks becomes one space.** -/
theorem squeeze_append {gap rest : List Char} (hgap : ∀ c ∈ gap, isBlank c = true)
    (hne : gap ≠ []) (hrest : ∀ c ∈ rest.head?, isBlank c = false) :
    squeeze (gap ++ rest) = ' ' :: squeeze rest := by
  induction gap with
  | nil => exact absurd rfl hne
  | cons c gap ih =>
    have hc := hgap c List.mem_cons_self
    cases gap with
    | nil =>
      -- behind the last blank of the run comes none
      have hlast : rest.head?.any isBlank = false := by
        cases rest with
        | nil => rfl
        | cons d rest => exact hrest d rfl
      simp [squeeze, hc, hlast]
    | cons d gap =>
      have hd := hgap d (List.mem_cons_of_mem c List.mem_cons_self)
      simpa [squeeze, hc, hd] using
        ih (fun e he => hgap e (List.mem_cons_of_mem c he)) (List.cons_ne_nil d gap)

/-- More layout in front of layout makes no difference. -/
theorem Respaced.widen {b c : Char} {cs ds : List Char} (hb : isLayout b = true)
    (hc : isLayout c = true) (h : Respaced (c :: cs) ds) : Respaced (b :: c :: cs) ds := by
  have hboth : IsLayout [b, c] := List.forall_mem_cons.2 ⟨hb, List.forall_mem_singleton.2 hc⟩
  cases h with
  | cons c h => exact .gap hboth (List.forall_mem_singleton.2 hc) h
  | gap hfirst hsecond h => exact .gap (List.forall_mem_cons.2 ⟨hb, hfirst⟩) hsecond h

/-- Squeezing spaces leaves some where some are. -/
theorem respaced_squeeze (cs : List Char) : Respaced (cs.map spaced) (squeeze cs) := by
  fun_induction squeeze cs with
  | case1 => exact .nil
  | case2 c cs hc hmore ih =>
    cases cs with
    | nil => cases hmore
    | cons d cs =>
      rw [List.map_cons, List.map_cons, spaced_of_blank hc]
      rw [List.map_cons, spaced_of_blank hmore] at ih
      rw [spaced_of_blank hmore]
      -- a blank in front of a blank is dropped, and one space stands for both
      exact ih.widen rfl rfl
  | case3 c cs hc hmore ih =>
    rw [List.map_cons, spaced_of_blank hc]
    exact .cons ' ' ih
  | case4 c cs hc ih =>
    rw [List.map_cons, spaced_of_not_blank (Bool.not_eq_true _ ▸ hc)]
    exact .cons c ih

/-! ## §2 Tokens -/

/-- What all blanks have in common they share with a space. -/
theorem apply_spaced {p : Char → Bool} (h : ∀ c, isBlank c = true → p c = p ' ') (c : Char) :
    p (spaced c) = p c := by
  cases hc : isBlank c with
  | true => rw [spaced_of_blank hc, h c hc]
  | false => rw [spaced_of_not_blank hc]

@[simp] theorem isBlank_spaced (c : Char) : isBlank (spaced c) = isBlank c :=
  apply_spaced (fun _ hd => hd) c

@[simp] theorem isWordChar_spaced (c : Char) : isWordChar (spaced c) = isWordChar c :=
  apply_spaced (fun _ hd => isWordChar_eq_false_of_isBlank hd) c

@[simp] theorem isTextChar_spaced (c : Char) : Token.isTextChar (spaced c) = Token.isTextChar c :=
  apply_spaced (fun _ hd => Token.isTextChar_of_isBlank hd) c

theorem spaced_eq_iff {c d : Char} (hd : isBlank d = false) : spaced c = d ↔ c = d := by
  cases hc : isBlank c with
  | true =>
    -- neither a space nor a blank is the other character
    rw [spaced_of_blank hc]
    constructor <;> rintro rfl
    · cases hd
    · rw [hc] at hd; cases hd
  | false => rw [spaced_of_not_blank hc]

/-- Words do not depend on which blanks separate them. -/
theorem runAndWords_map_spaced (cs : List Char) :
    runAndWords (cs.map spaced) = runAndWords cs := by
  induction cs with
  | nil => rfl
  | cons c cs ih =>
    cases hc : isBlank c with
    | true =>
      rw [List.map_cons, spaced_of_blank hc, runAndWords_of_blank _ rfl, runAndWords_of_blank _ hc,
        words_eq_of_runAndWords ih]
    | false =>
      rw [List.map_cons, spaced_of_not_blank hc, runAndWords_of_not_blank _ hc,
        runAndWords_of_not_blank _ hc, ih]

namespace Token

/-- The token with spaces for the blanks in it. -/
def withSpaces : Token → Token
  | text chars => text (chars.map spaced)
  | token => token

theorem withSpaces_of_mem_keywords {keyword : Token} (h : keyword ∈ keywords) :
    keyword.withSpaces = keyword := by
  simp only [keywords, List.mem_cons, List.not_mem_nil, or_false] at h
  rcases h with rfl | rfl | rfl | rfl <;> rfl

/-- A word without blanks is found with spaces for the blanks behind it. -/
theorem drop?_map_spaced {cs : List Char} (hcs : ∀ c ∈ cs, isBlank c = false)
    (input : List Char) : drop? cs (input.map spaced) = (drop? cs input).map (·.map spaced) := by
  fun_induction drop? cs input with
  | case1 input => rfl
  | case2 c cs => rfl
  | case3 c cs d input hcd ih =>
    obtain rfl := eq_of_beq hcd
    have hc := hcs c List.mem_cons_self
    simpa [drop?, spaced_of_not_blank hc] using ih fun d hd => hcs d (List.mem_cons_of_mem c hd)
  | case4 c cs d input hcd =>
    have hc := hcs c List.mem_cons_self
    -- a space that stands for a blank is no character of the word either
    have hne : ¬c = spaced d := by
      rw [eq_comm, spaced_eq_iff hc, eq_comm]
      exact fun h => hcd (beq_iff_eq.2 h)
    simp [drop?, hne]

/-- A keyword ends where it did, since a blank is a space to it. -/
theorem endsBefore_map_spaced (keyword : Token) (rest : List Char) :
    keyword.endsBefore (rest.map spaced) = keyword.endsBefore rest := by
  have hblank : isBlank ∘ spaced = isBlank := funext isBlank_spaced
  -- `exit` looks over all blanks for its semicolon
  have hexit : exitWord.endsBefore (rest.map spaced) = exitWord.endsBefore rest := by
    rw [Bool.eq_iff_iff, endsBefore, endsBefore, beq_iff_eq, beq_iff_eq, List.dropWhile_map,
      hblank, List.head?_map, Option.map_eq_some_iff]
    simp [spaced_eq_iff (show isBlank ';' = false by decide)]
  cases keyword <;> first | exact hexit | simp [endsBefore, Option.any_map]

theorem after?_map_spaced {keyword : Token} (hmem : keyword ∈ keywords) (input : List Char) :
    keyword.after? (input.map spaced) = (keyword.after? input).map (·.map spaced) := by
  rw [after?, after?, drop?_map_spaced fun c hc => (keyword_chars hmem hc).2.2]
  cases drop? keyword.lexeme input with
  | none => rfl
  | some rest =>
    simp only [Option.map_some, Option.filter, endsBefore_map_spaced]
    split <;> rfl

theorem keyword?_map_spaced (input : List Char) :
    keyword? (input.map spaced) = (keyword? input).map fun p => (p.1, p.2.map spaced) := by
  rw [keyword?, keyword?, List.map_findSome?]
  apply findSome?_congr
  intro keyword hmem
  rw [after?_map_spaced hmem, Function.comp_apply, Option.map_map, Option.map_map]
  rfl

theorem plain?_map_spaced (input : List Char) :
    plain? (input.map spaced) = (plain? input).map fun p => (p.1.withSpaces, p.2.map spaced) := by
  have htext : isTextChar ∘ spaced = isTextChar := funext isTextChar_spaced
  cases input with
  | nil => rfl
  | cons c rest =>
    cases hc : isBlank c with
    | true => rw [List.map_cons, plain?_of_blank _ hc, plain?_of_blank _ (by simpa)]; rfl
    | false =>
      rw [List.map_cons, spaced_of_not_blank hc, plain?, plain?, List.takeWhile_map,
        List.dropWhile_map, htext]
      split
      · rfl
      split
      · rfl
      split
      · rfl
      · simp [hc, withSpaces, spaced_of_not_blank hc]

/-- **A place offers the same tokens with spaces for blanks.** -/
theorem candidates_map_spaced (input : List Char) :
    candidates (input.map spaced) =
      (candidates input).map fun p => (p.1.withSpaces, p.2.map spaced) := by
  rw [candidates, candidates, keyword?_map_spaced, plain?_map_spaced, List.map_append]
  congr 1
  · cases hkeyword : keyword? input with
    | none => rfl
    | some p =>
      -- there is no blank in a keyword
      have hmem := (keyword?_eq_some_iff.1 hkeyword).1
      simp [withSpaces_of_mem_keywords hmem]
  · cases plain? input <;> rfl

end Token

/-! ## §3 Runs -/

namespace Parser

theorem State.step?_withSpaces (s : State) (token : Token) :
    s.step? token.withSpaces = s.step? token := by
  cases token with
  | text chars =>
    have hcollapse : collapse (chars.map spaced) = collapse chars :=
      collapse_congr (words_eq_of_runAndWords (runAndWords_map_spaced chars))
    obtain ⟨done, enclosing, awaiting⟩ := s
    cases awaiting <;> simp [Token.withSpaces, step?, hcollapse]
  | _ => rfl

/-- **The same token is taken with spaces for blanks.** -/
theorem State.next?_map_spaced (s : State) (input : List Char) :
    s.next? (input.map spaced) = (s.next? input).map fun p => (p.1, p.2.map spaced) := by
  apply @next?_eq_map s s input _ Token.withSpaces (List.map spaced) id
    (Token.candidates_map_spaced input)
  intro p hp
  rw [step?_withSpaces, Option.map_id_apply]

theorem isLayout_map_spaced {gap : List Char} (hgap : IsLayout gap) :
    IsLayout (gap.map spaced) := by
  intro c hc
  obtain ⟨d, hd, rfl⟩ := List.mem_map.1 hc
  rw [spaced_of_blank (hgap.isBlank d hd)]
  rfl

theorem State.next?_of_blank (s : State) {c : Char} (cs : List Char) (hc : isBlank c = true) :
    s.next? (c :: cs) = none := by
  rw [next?, Token.candidates_of_blank cs hc]
  rfl

theorem dropWhile_isLayout_map_spaced {input : List Char} (h : input.dropWhile isLayout = []) :
    (input.map spaced).dropWhile isLayout = [] :=
  List.dropWhile_eq_nil_iff.2 (isLayout_map_spaced (List.dropWhile_eq_nil_iff.1 h))

/-- At a character that is no blank the reading goes on as it does without spaces. -/
theorem run_map_spaced_eq {gap : List Char} (hgap : IsLayout gap) {c : Char}
    (hc : isBlank c = false) (last : List Char) (s : State) (cs : List Char) :
    run last s ((gap ++ c :: cs).map spaced) =
      match s.next? (c :: cs) with
      | some (s', rest) => run (c :: cs.map spaced) s' (rest.map spaced)
      | none => .error ⟨State.faultAt c (cs.map spaced), c :: cs.map spaced⟩ := by
  have hnext := s.next?_map_spaced (c :: cs)
  rw [List.map_cons, spaced_of_not_blank hc] at hnext
  rw [List.map_append, run_gap (isLayout_map_spaced hgap), List.map_cons, spaced_of_not_blank hc,
    run_eq, List.dropWhile_cons_of_neg (by simp [isLayout_of_not_blank hc])]
  simp only [hnext]
  cases s.next? (c :: cs) <;> rfl

/-- **With spaces for blanks the same flow is read**, unless the reading stops at a blank that
    is no layout. -/
theorem run_map_spaced_or {last last' input : List Char} {s : State} :
    (∃ c suffix, run last s input = .error ⟨.unreadable c, suffix⟩ ∧ isBlank c = true ∧
      isLayout c = false) ∨
      ∀ program, run last' s (input.map spaced) = .ok program ↔ run last s input = .ok program := by
  -- the induction follows the reading of the text as it stands
  fun_induction run last s input generalizing last' with
  | case1 last s input hinput statements hfinish =>
    right
    simp [run_eq last' s, dropWhile_isLayout_map_spaced hinput, hfinish]
  | case2 last s input hinput hfinish =>
    right
    simp [run_eq last' s, dropWhile_isLayout_map_spaced hinput, hfinish]
  | case3 last s input c cs hinput s' rest hnext ih =>
    obtain ⟨-, gap, hgap, rfl⟩ := exists_gap hinput
    -- no token begins with a blank
    have hc : isBlank c = false := by
      rw [← Bool.not_eq_true]
      intro hc
      rw [s.next?_of_blank cs hc] at hnext
      cases hnext
    simp only [run_map_spaced_eq hgap hc, hnext]
    exact ih
  | case4 last s input c cs hinput hnext =>
    obtain ⟨hlayout, gap, hgap, rfl⟩ := exists_gap hinput
    cases hc : isBlank c with
    | true =>
      left
      -- layout was passed over, so this is a blank of the other kind
      refine ⟨c, c :: cs, ?_, hc, hlayout⟩
      rw [State.faultAt, Token.candidates_of_blank cs hc]
      rfl
    | false =>
      right
      simp only [run_map_spaced_eq hgap hc, hnext]
      simp

end Parser

/-! ## §4 Whole texts -/

/-- **A flow is read with its blanks squeezed as it is read without**, or its reading stops at a
    blank that is no layout. -/
theorem parse_squeeze_or_unreadable_blank (source : String) :
    (∃ c place, parse source = .error ⟨.unreadable c, place⟩ ∧ isBlank c = true ∧
      isLayout c = false) ∨
      ∀ program, parse (String.ofList (squeeze source.toList)) = .ok program ↔
        parse source = .ok program := by
  have hrun := @Parser.run_map_spaced_or source.toList (source.toList.map spaced) source.toList
    .initial
  apply hrun.imp
  · rintro ⟨c, suffix, herror, hc⟩
    have hparse : parse source =
        .error (Failure.toSyntaxError source.toList ⟨.unreadable c, suffix⟩) := by
      rw [parse, parseChars, herror]
      rfl
    exact ⟨c, _, hparse, hc⟩
  · intro hsame program
    rw [← (respaced_squeeze source.toList).parse_eq_ok_iff, parse_eq_ok_iff, parse_eq_ok_iff,
      String.toList_ofList]
    exact hsame program

/-- `exit` sees its semicolon behind any blank, but behind a blank that is no layout the semicolon
    is not read. -/
theorem parse_exit_blank {c : Char} (hc : isBlank c = true) (hlayout : isLayout c = false) :
    parse (String.ofList (Token.exitWord.lexeme ++ [c, ';'])) =
      .error ⟨.unreadable c, ⟨1, 5⟩⟩ := by
  have hexit : State.initial.next? (Token.exitWord.lexeme ++ [c, ';']) =
      some (⟨[], [], .semicolon .exit⟩, [c, ';']) := by
    apply State.next?_eq_some_iff.2
    left
    refine ⟨.exitWord, Token.keyword?_eq_some_iff.2 ⟨by decide, ?_⟩, rfl⟩
    exact Token.after?_eq_some_iff.2 ⟨rfl, by simp [Token.endsBefore, hc]; decide⟩
  have hrun : parseChars (Token.exitWord.lexeme ++ [c, ';']) =
      .error ⟨.unreadable c, [c, ';']⟩ := by
    have hreaches := Reaches.take isLayout_nil hexit (.refl _ [c, ';'])
    rw [List.nil_append] at hreaches
    rw [parseChars, hreaches.run_of_refused hlayout (State.next?_of_blank _ _ hc), State.faultAt,
      Token.candidates_of_blank _ hc]
    rfl
  rw [parse, String.toList_ofList, hrun]
  rfl

/-- A vertical tab is such a blank. -/
theorem parse_exit_vertical_tab :
    parse "exit\x0b;" = .error ⟨.unreadable '\x0b', ⟨1, 5⟩⟩ ∧
      parse (String.ofList (squeeze "exit\x0b;".toList)) = .ok [.exit] := by
  decide +kernel

end Flowchart
