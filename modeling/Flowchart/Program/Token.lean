import Flowchart.Text.Words
import Flowchart.Text.WordCharacter

/-!
# Tokens

The pieces a written flow consists of: four keywords, three marks of punctuation, and
text, which is anything else up to the next mark.

Text is greedy and may begin with the letters of a keyword, so one place of the input
can offer two tokens: a keyword, and a text that begins with it.  `Token.candidates`
lists what a place offers, the keyword first; which of the two is meant depends on
what may stand there, and the parser decides it.

Main statements: a token is a piece of the input (`Token.eq_lexeme_append`) and takes at
least one character (`Token.length_lt_of_mem_candidates`).
-/

namespace Flowchart

open Text

/-! ## §1 The tokens -/

/-- A piece of a written flow. -/
inductive Token where
  | ifWord
  | elseWord
  | whileWord
  | exitWord
  | openBrace
  | closeBrace
  | semicolon
  | text (chars : List Char)
deriving DecidableEq, Repr

namespace Token

/-- The characters of a token as they stand in the input. -/
def lexeme : Token → List Char
  | ifWord => ['i', 'f']
  | elseWord => ['e', 'l', 's', 'e']
  | whileWord => ['w', 'h', 'i', 'l', 'e']
  | exitWord => ['e', 'x', 'i', 't']
  | openBrace => ['\x7b']
  | closeBrace => ['\x7d']
  | semicolon => [';']
  | text chars => chars

/-- What messages call the kind of a token. -/
def kindWord : Token → String
  | ifWord => "_IF"
  | elseWord => "_ELSE"
  | whileWord => "_WHILE"
  | exitWord => "_EXIT"
  | openBrace => "LBRACE"
  | closeBrace => "RBRACE"
  | semicolon => "SEMICOLON"
  | text _ => "TEXT"

/-! ## §2 Reading keywords -/

/-- The tokens that are words of the language. -/
def keywords : List Token := [ifWord, elseWord, whileWord, exitWord]

/-- Whether a keyword ends where `rest` is left.  `exit` does only if nothing but blanks
    stands between it and a semicolon, so that it is the entire step; the other words
    do unless the next character goes on with the word. -/
def endsBefore : Token → List Char → Bool
  | exitWord, rest => (rest.dropWhile isBlank).head? == some ';'
  | _, rest => !rest.head?.any isWordChar

/-- What is left of the input after the given characters, if it begins with them. -/
def drop? : (cs input : List Char) → Option (List Char)
  | [], input => some input
  | _ :: _, [] => none
  | c :: cs, d :: input => if c == d then drop? cs input else none

/-- What is left after a keyword at the start of the input. -/
def after? (keyword : Token) (input : List Char) : Option (List Char) :=
  (drop? keyword.lexeme input).filter keyword.endsBefore

/-- The keyword at the start of the input and what is left after it. -/
def keyword? (input : List Char) : Option (Token × List Char) :=
  keywords.findSome? fun keyword => (keyword.after? input).map (keyword, ·)

/-! ## §3 Reading punctuation and text -/

/-- The characters that a text goes on with: all but braces and the semicolon. -/
def isTextChar (c : Char) : Bool :=
  !(c == '\x7b' || c == '\x7d' || c == ';')

/-- The mark or the text at the start of the input and what is left after it.  A text
    begins with no blank and reaches to the next mark. -/
def plain? : List Char → Option (Token × List Char)
  | [] => none
  | c :: rest =>
    if c == '\x7b' then some (openBrace, rest)
    else if c == '\x7d' then some (closeBrace, rest)
    else if c == ';' then some (semicolon, rest)
    else if isBlank c then none
    else some (text (c :: rest.takeWhile isTextChar), rest.dropWhile isTextChar)

/-- What the start of the input offers: a keyword, then a mark or a text, each with
    what is left after it. -/
def candidates (input : List Char) : List (Token × List Char) :=
  (keyword? input).toList ++ (plain? input).toList

/-! ## §4 Every token takes a character -/

theorem drop?_eq_some_iff {cs input rest : List Char} :
    drop? cs input = some rest ↔ input = cs ++ rest := by
  fun_induction drop? cs input with
  | case1 input => simp
  | case2 c cs => simp
  | case3 c cs d input hcd ih => simp [ih, eq_of_beq hcd]
  | case4 c cs d input hcd =>
    have hne : c ≠ d := fun h => hcd (h ▸ beq_self_eq_true c)
    simp [Ne.symm hne]

private theorem lexeme_append_of_keyword? {input : List Char} {p : Token × List Char}
    (h : keyword? input = some p) : input = p.1.lexeme ++ p.2 := by
  obtain ⟨keyword, _, hk⟩ := List.exists_of_findSome?_eq_some h
  obtain ⟨rest, hrest, rfl⟩ := Option.map_eq_some_iff.1 hk
  exact drop?_eq_some_iff.1 (Option.filter_eq_some_iff.1 hrest).1

private theorem lexeme_append_of_plain? {input : List Char} {p : Token × List Char}
    (h : plain? input = some p) : input = p.1.lexeme ++ p.2 := by
  cases input with
  | nil => simp [plain?] at h
  | cons c rest =>
    simp only [plain?] at h
    split at h
    · next hc => obtain rfl := Option.some.inj h; simp_all [lexeme]
    split at h
    · next hc => obtain rfl := Option.some.inj h; simp_all [lexeme]
    split at h
    · next hc => obtain rfl := Option.some.inj h; simp_all [lexeme]
    split at h
    · simp at h
    · obtain rfl := Option.some.inj h
      simp [lexeme, List.takeWhile_append_dropWhile]

/-- **A token is a piece of the input**: its characters, then what is left. -/
theorem eq_lexeme_append {input : List Char} {p : Token × List Char}
    (h : p ∈ candidates input) : input = p.1.lexeme ++ p.2 := by
  rcases List.mem_append.1 h with h | h
  · exact lexeme_append_of_keyword? (Option.mem_toList.1 h)
  · exact lexeme_append_of_plain? (Option.mem_toList.1 h)

private theorem lexeme_ne_nil_of_mem_candidates {input : List Char} {p : Token × List Char}
    (h : p ∈ candidates input) : p.1.lexeme ≠ [] := by
  rcases List.mem_append.1 h with h | h
  · obtain ⟨keyword, hmem, hk⟩ := List.exists_of_findSome?_eq_some (Option.mem_toList.1 h)
    obtain ⟨rest, _, rfl⟩ := Option.map_eq_some_iff.1 hk
    revert hmem
    simp only [keywords, List.mem_cons, List.not_mem_nil, or_false]
    rintro (rfl | rfl | rfl | rfl) <;> simp [lexeme]
  · have h := Option.mem_toList.1 h
    cases input with
    | nil => simp [plain?] at h
    | cons c rest =>
      simp only [plain?] at h
      repeat' split at h
      all_goals first | (obtain rfl := Option.some.inj h; simp [lexeme]) | simp at h

/-- **Every token takes a character**: less input is left after it than before it. -/
theorem length_lt_of_mem_candidates {input : List Char} {p : Token × List Char}
    (h : p ∈ candidates input) : p.2.length < input.length := by
  have hinput := congrArg List.length (eq_lexeme_append h)
  have hpos := List.length_pos_iff.2 (lexeme_ne_nil_of_mem_candidates h)
  simp only [List.length_append] at hinput
  omega

end Token

end Flowchart
