import Flowchart.Text.Words

/-!
# Escaped Text

How a text stands between the quotation marks of a DOT file.  A backslash and a
quotation mark get a backslash in front, and a line end becomes a backslash and an `n`;
a carriage return is part of a line end only right before a line feed, and stays as it
is elsewhere.

`unescape` reads escaped text back.  It refuses what cannot stand between quotation
marks: a bare quotation mark, a bare line feed, and a backslash that begins none of the
three escapes.

Main statement: what is written is read back, with one kind of line end
(`unescape_escapeChars`).
-/

namespace Flowchart.Dot

open Text

/-! ## §1 Writing -/

/-- One character, escaped. -/
def escapeChar (c : Char) : List Char :=
  if c == '\\' then ['\\', '\\']
  else if c == '"' then ['\\', '"']
  else if c == '\n' then ['\\', 'n']
  else [c]

/-- A text, escaped from left to right. -/
def escapeChars : List Char → List Char
  | [] => []
  | '\r' :: '\n' :: cs => '\\' :: 'n' :: escapeChars cs
  | c :: cs => escapeChar c ++ escapeChars cs

/-- A text as it stands between quotation marks. -/
def escape (s : String) : String :=
  String.ofList (escapeChars s.toList)

/-! ## §2 Reading -/

/-- The text that an escaped text stands for. -/
def unescape : List Char → Option (List Char)
  | [] => some []
  | '\\' :: '\\' :: cs => (unescape cs).map ('\\' :: ·)
  | '\\' :: '"' :: cs => (unescape cs).map ('"' :: ·)
  | '\\' :: 'n' :: cs => (unescape cs).map ('\n' :: ·)
  | c :: cs =>
    if c == '\\' || c == '"' || c == '\n' then none else (unescape cs).map (c :: ·)

/-- A character that was written is read, and reading goes on behind it. -/
theorem unescape_escapeChar_append (c : Char) (cs : List Char) :
    unescape (escapeChar c ++ cs) = (unescape cs).map (c :: ·) := by
  by_cases hescaped : c = '\\' ∨ c = '"' ∨ c = '\n'
  · rcases hescaped with rfl | rfl | rfl <;> simp [escapeChar, unescape]
  · obtain ⟨hbackslash, hmark, hfeed⟩ : c ≠ '\\' ∧ c ≠ '"' ∧ c ≠ '\n' := by simpa using hescaped
    have hplain : escapeChar c = [c] := by simp [escapeChar, hbackslash, hmark, hfeed]
    rw [hplain, List.singleton_append, unescape.eq_def]
    split <;> simp_all

/-- **Escaped text is read back**, but that a carriage return with a line feed is read as
    a line feed. -/
theorem unescape_escapeChars (cs : List Char) :
    unescape (escapeChars cs) = some (joinCarriageReturns cs) := by
  fun_induction escapeChars cs with
  | case1 => rfl
  | case2 cs ih => simp [unescape, joinCarriageReturns, ih]
  | case3 c cs hne ih =>
    -- no line end of two characters begins here, so the first character stands alone
    have hjoin : joinCarriageReturns (c :: cs) = c :: joinCarriageReturns cs := by
      rw [joinCarriageReturns]
      intro ds hc hcs
      exact hne ds hc hcs
    simp [hjoin, unescape_escapeChar_append, ih]

end Flowchart.Dot
