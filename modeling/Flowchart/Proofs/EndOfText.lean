import Flowchart.Proofs.ErrorPlaces

/-!
# Texts That End Too Early

A text is no flow for one of two reasons: it ends too early, and could still go on to become
one, or something in it may not come where it stands.  An error tells the two apart by its
fault, and tells a line and a column for both.  A text has no token behind its last one, so
a text that ends too early is reported at that; the words for an error without a line are
there, but no text leads to them.

Main statements: what is reported where nothing may come (`parse_of_refused`) and at the end
(`parse_of_unfinished`), that each place has a line and a column (`SyntaxError.reports_after`), and
from these what any error says (`parse_error_tells_line_and_column`).
-/

namespace Flowchart

open Text

/-! ## §1 What an error says -/

/-- The error is reported with the line and the column of the position, by themselves and in the
    message. -/
structure SyntaxError.Reports (e : SyntaxError) (p : Position) : Prop where
  line_eq : e.line? = some p.line
  column_eq : e.column? = some p.column
  message_eq : e.message =
    "Malformed flow source at line " ++ toString p.line ++ ", column " ++ toString p.column ++
      ": " ++ String.ofList (firstLine (e.fault.describe p).toList)

theorem SyntaxError.reports_of_pos {e : SyntaxError} (hline : 0 < e.position.line)
    (hcolumn : 0 < e.position.column) : e.Reports e.position := by
  have hplace : e.place = " at line " ++ toString e.position.line ++ ", column " ++
      toString e.position.column := by
    simp only [place, line?, column?, if_pos hline, if_pos hcolumn, Option.elim_some]
  -- the words for a missing place are not among these
  have hwords : "Malformed flow source" ++ e.place = "Malformed flow source at line " ++
      toString e.position.line ++ ", column " ++ toString e.position.column := by
    simp [hplace, ← String.toList_inj]
  exact ⟨if_pos hline, if_pos hcolumn, congrArg (· ++ ": " ++
    String.ofList (firstLine (e.fault.describe e.position).toList)) hwords⟩

/-- **Every place behind some characters has a line and a column**, and an error there is
    reported with them. -/
theorem SyntaxError.reports_after (fault : SyntaxFault) (front : List Char) :
    SyntaxError.Reports ⟨fault, Position.after front⟩ (Position.after front) := by
  have hplace := Parser.position_after front
  exact reports_of_pos (hplace ▸ Nat.succ_pos _) (hplace ▸ Nat.succ_pos _)

theorem isLineBreak_of_mem_toString {n : Nat} {c : Char} (hc : c ∈ (toString n).toList) :
    isLineBreak c = false := by
  rw [Nat.toString_eq_repr, Nat.toList_repr] at hc
  have hdigit := Nat.isDigit_of_mem_toDigits (by decide) (by decide) hc
  rw [← Bool.not_eq_true]
  intro hbreak
  simp only [isLineBreak, List.contains_iff_mem, List.mem_cons, List.not_mem_nil, or_false]
    at hbreak
  -- no digit ends a line
  rcases hbreak with rfl | rfl | rfl | rfl | rfl | rfl | rfl | rfl | rfl | rfl <;> cases hdigit

theorem SyntaxFault.describe_unfinished (p : Position) :
    unfinished.describe p = "Unexpected token Token('$END', '') at line " ++ toString p.line ++
      ", column " ++ toString p.column ++ "." := by
  have hwords : "Unexpected token Token('" ++ "$END" ++ "', " ++ quoted (String.ofList []) ++
      ") at line " = "Unexpected token Token('$END', '') at line " := by decide
  rw [← hwords]
  rfl

/-- The fault of a text that ends too early is told on one line. -/
theorem SyntaxFault.firstLine_describe_unfinished (p : Position) :
    firstLine (unfinished.describe p).toList = (unfinished.describe p).toList := by
  have hwords : ["Unexpected token Token('$END', '') at line ", ", column ", "."].all
      (fun words => words.toList.all (!isLineBreak ·)) = true := by decide
  simp only [List.all_eq_true] at hwords
  rw [firstLine, List.takeWhile_eq_self_iff]
  intro c hc
  simp only [describe_unfinished, String.toList_append, List.mem_append] at hc
  rcases hc with (((hc | hc) | hc) | hc) | hc
  · exact hwords _ (by simp) c hc
  · simp [isLineBreak_of_mem_toString hc]
  · exact hwords _ (by simp) c hc
  · simp [isLineBreak_of_mem_toString hc]
  · exact hwords _ (by simp) c hc

/-- The fault names what stands at a place: the first token that the place offers, or its first
    character if it offers none. -/
def SyntaxFault.Names : SyntaxFault → List Char → Prop
  | .unexpected token, input => ∃ after, (Token.candidates input).head? = some (token, after)
  | .unreadable c, input => input.head? = some c ∧ Token.candidates input = []
  | .unfinished, _ => False

theorem Parser.State.names_faultAt (c : Char) (cs : List Char) :
    (faultAt c cs).Names (c :: cs) := by
  unfold faultAt
  split
  case h_1 token after hfirst => exact ⟨after, hfirst⟩
  case h_2 hnone => exact ⟨rfl, List.head?_eq_none_iff.1 hnone⟩

/-! ## §2 What is reported -/

namespace Parser

/-- A text is read up to `rest`, and of what is offered there nothing may come. -/
def RefusedAfter (front rest : List Char) : Prop :=
  ∃ s, Reaches .initial (front ++ rest) s rest ∧ s.next? rest = none

/-- A run that comes behind the last token fails, if at all, at that token. -/
theorem Reaches.eq_of_run_error {s s' t : State} {input cs after last : List Char} {c : Char}
    {f : Failure} (h : Reaches s input s' (c :: cs)) (hlayout : isLayout c = false)
    (hnext : s'.next? (c :: cs) = some (t, after)) (hafter : IsLayout after)
    (hfails : run last s input = .error f) : f = ⟨.unfinished, c :: cs⟩ := by
  obtain ⟨last', hrun⟩ := h.run_eq last
  rw [hrun, Parser.run_eq, List.dropWhile_cons_of_neg (by simp [hlayout])] at hfails
  simp only [hnext] at hfails
  rw [Parser.run_eq, List.dropWhile_eq_nil_iff.2 hafter] at hfails
  -- behind the last token a program either ends or is unfinished
  cases hfinish : t.finish? with
  | some program => simp [hfinish] at hfails
  | none => simpa [hfinish] using hfails.symm

end Parser

open Flowchart.Parser

/-- A failure is reported behind all that stands in front of its suffix. -/
theorem parse_of_parseChars_error {front rest : List Char} {fault : SyntaxFault}
    (h : parseChars (front ++ rest) = .error ⟨fault, rest⟩) :
    parse (String.ofList (front ++ rest)) = .error ⟨fault, Position.after front⟩ := by
  rw [parse, String.toList_ofList, h]
  simp [Except.mapError, Failure.toSyntaxError]

/-- **Where nothing may come, what stands there is reported.** -/
theorem parse_of_refused {s : State} {front rest : List Char} {c : Char}
    (hreaches : Reaches .initial (front ++ c :: rest) s (c :: rest)) (hlayout : isLayout c = false)
    (hnext : s.next? (c :: rest) = none) :
    parse (String.ofList (front ++ c :: rest)) =
      .error ⟨State.faultAt c rest, Position.after front⟩ :=
  parse_of_parseChars_error (hreaches.run_of_refused hlayout hnext _)

/-- **A text that ends too early is reported at its last token.** -/
theorem parse_of_unfinished {front rest : List Char} {c : Char} {f : Failure}
    (hlast : LastTokenAfter front (c :: rest)) (hlayout : isLayout c = false)
    (hfails : parseChars (front ++ c :: rest) = .error f) :
    parse (String.ofList (front ++ c :: rest)) = .error ⟨.unfinished, Position.after front⟩ := by
  obtain ⟨s, t, after, hreaches, hnext, hafter⟩ := hlast
  rw [hreaches.eq_of_run_error hlayout hnext hafter hfails] at hfails
  exact parse_of_parseChars_error hfails

/-! ## §3 Every error -/

/-- **An error tells a line and a column, also at the end of a text.**  They are those of a
    character that is no layout, and they stand in the message.

* If the text can go on to become a flow, the character begins its last token, and the message
  calls it a token of the kind `$END` without characters.
* Else all in front of the character is read, nothing that is offered there may come, and the
  error names the first token that is offered, or the character if there is none.  The text up
  to there begins a flow, but not with the characters up to the next mark. -/
theorem parse_error_tells_line_and_column {source : String} {e : SyntaxError}
    (h : parse source = .error e) :
    ∃ front c rest p, source.toList = front ++ c :: rest ∧ isLayout c = false ∧
      p = ⟨front.count '\n' + 1, (front.reverse.takeWhile (· ≠ '\n')).length + 1⟩ ∧
      e.Reports p ∧
      (BeginsFlow source.toList ∧ LastTokenAfter front (c :: rest) ∧ e.fault = .unfinished ∧
          e.message = "Malformed flow source at line " ++ toString p.line ++ ", column " ++
            toString p.column ++ ": " ++ ("Unexpected token Token('$END', '') at line " ++
              toString p.line ++ ", column " ++ toString p.column ++ ".") ∨
        ¬BeginsFlow source.toList ∧ RefusedAfter front (c :: rest) ∧ e.fault.Names (c :: rest) ∧
          BeginsFlow front ∧ ¬BeginsFlow (front ++ throughMark (c :: rest))) := by
  obtain ⟨cs, rfl⟩ : ∃ cs, source = String.ofList cs := ⟨source.toList, by simp⟩
  rw [String.toList_ofList]
  obtain ⟨f, hrun⟩ : ∃ f, parseChars cs = .error f := by
    cases hrun : parseChars cs with
    | ok program => simp [parse, hrun, Except.mapError] at h
    | error f => exact ⟨f, rfl⟩
  rcases exists_reaches_of_run_error hrun with ⟨s, c, rest, -, hc, hreaches, hnone⟩ |
    ⟨s, after, t, c, rest, -, hc, hreaches, hlast, hafter⟩ | ⟨hfinish, -, -⟩
  · obtain ⟨front, rfl⟩ := hreaches.suffix
    rw [parse_of_refused hreaches hc hnone] at h
    obtain rfl := Except.error.inj h
    have hspoilt := hreaches.not_beginsFlow hc hnone
    refine ⟨front, c, rest, _, rfl, hc, position_after front, SyntaxError.reports_after _ front,
      .inr ⟨?_, ⟨s, hreaches, hnone⟩, State.names_faultAt c rest, hreaches.beginsFlow, hspoilt⟩⟩
    -- what the text could be continued with could be put behind the mark as well
    rintro ⟨more, hflow⟩
    refine hspoilt ⟨((c :: rest).dropWhile Token.isTextChar).drop 1 ++ more, ?_⟩
    rwa [List.append_assoc, ← List.append_assoc (throughMark _), throughMark_append,
      ← List.append_assoc]
  · obtain ⟨front, rfl⟩ := hreaches.suffix
    have htoken : LastTokenAfter front (c :: rest) := ⟨s, t, after, hreaches, hlast, hafter⟩
    rw [parse_of_unfinished htoken hc hrun] at h
    obtain rfl := Except.error.inj h
    have hreports := SyntaxError.reports_after .unfinished front
    refine ⟨front, c, rest, _, rfl, hc, position_after front, hreports, .inl
      ⟨htoken.beginsFlow, htoken, rfl, ?_⟩⟩
    rw [hreports.message_eq, SyntaxFault.firstLine_describe_unfinished, String.ofList_toList,
      SyntaxFault.describe_unfinished]
  · -- with nothing read a flow may end
    cases hfinish

/-- An open block whose last step is complete. -/
theorem line_and_column_of_open_block :
    parse "if c \x7b\n  a;\n" = .error ⟨.unfinished, ⟨2, 4⟩⟩ ∧
      ∃ front c rest p, "if c \x7b\n  a;\n".toList = front ++ c :: rest ∧ isLayout c = false ∧
        p = ⟨front.count '\n' + 1, (front.reverse.takeWhile (· ≠ '\n')).length + 1⟩ ∧
        SyntaxError.Reports ⟨.unfinished, ⟨2, 4⟩⟩ p ∧
        (BeginsFlow "if c \x7b\n  a;\n".toList ∧ LastTokenAfter front (c :: rest) ∧
            SyntaxFault.unfinished = .unfinished ∧
            SyntaxError.message ⟨.unfinished, ⟨2, 4⟩⟩ = "Malformed flow source at line " ++
              toString p.line ++ ", column " ++ toString p.column ++ ": " ++
                ("Unexpected token Token('$END', '') at line " ++ toString p.line ++
                  ", column " ++ toString p.column ++ ".") ∨
          ¬BeginsFlow "if c \x7b\n  a;\n".toList ∧ RefusedAfter front (c :: rest) ∧
            SyntaxFault.unfinished.Names (c :: rest) ∧ BeginsFlow front ∧
            ¬BeginsFlow (front ++ throughMark (c :: rest))) := by
  have hfails : parse "if c \x7b\n  a;\n" = .error ⟨.unfinished, ⟨2, 4⟩⟩ := by decide +kernel
  exact ⟨hfails, parse_error_tells_line_and_column hfails⟩

/-- A step without its semicolon can still become one, and yet has a line and a column and no
    word of the end of the text. -/
theorem line_and_column_of_open_step :
    parse "step" = .error ⟨.unfinished, ⟨1, 1⟩⟩ ∧ BeginsFlow "step".toList ∧
      SyntaxError.line? ⟨.unfinished, ⟨1, 1⟩⟩ = some 1 ∧
      SyntaxError.column? ⟨.unfinished, ⟨1, 1⟩⟩ = some 1 ∧
      SyntaxError.message ⟨.unfinished, ⟨1, 1⟩⟩ =
        "Malformed flow source at line 1, column 1: " ++
          "Unexpected token Token('$END', '') at line 1, column 1." := by
  have hflow : parse (String.ofList ("step".toList ++ [';'])) = .ok [.step "step"] := by
    decide +kernel
  exact ⟨by decide +kernel, ⟨[';'], [.step "step"], hflow⟩, rfl, rfl, by decide +kernel⟩

end Flowchart
