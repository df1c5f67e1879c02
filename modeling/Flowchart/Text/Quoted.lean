import Flowchart.Text.Printable

/-!
# Quoted Text

How a text is shown inside a message: between quotation marks, on one line, with
nothing invisible left in it.

* The mark is the apostrophe, unless the text holds an apostrophe and no double
  quotation mark; then it is the double quotation mark.
* The mark in use and the backslash get a backslash in front.
* Line feed, carriage return and tab are written `\n`, `\r` and `\t`; every other
  character that is not printable is written by its code point, with two, four or
  eight hexadecimal digits after `\x`, `\u` or `\U`.
-/

namespace Flowchart.Text

/-- A number in lower-case hexadecimal digits, filled up with zeros on the left. -/
def hexadecimal (width n : Nat) : List Char :=
  let digits := Nat.toDigits 16 n
  List.replicate (width - digits.length) '0' ++ digits

/-- The mark that a text is quoted with. -/
def quotationMark (cs : List Char) : Char :=
  if cs.contains '\'' && !cs.contains '"' then '"' else '\''

/-- A character by its code point, in the shortest of the three forms that holds it. -/
def codePointEscape (c : Char) : List Char :=
  let n := c.toNat
  if n < 0x100 then '\\' :: 'x' :: hexadecimal 2 n
  else if n < 0x10000 then '\\' :: 'u' :: hexadecimal 4 n
  else '\\' :: 'U' :: hexadecimal 8 n

/-- How one character is written inside the given quotation marks. -/
def quotedChar (mark c : Char) : List Char :=
  if c == mark || c == '\\' then ['\\', c]
  else if c == '\n' then ['\\', 'n']
  else if c == '\r' then ['\\', 'r']
  else if c == '\t' then ['\\', 't']
  else if isPrintable c then [c]
  else codePointEscape c

/-- A text between quotation marks, with nothing invisible in it. -/
def quoted (s : String) : String :=
  let cs := s.toList
  let mark := quotationMark cs
  String.ofList (mark :: cs.flatMap (quotedChar mark) ++ [mark])

end Flowchart.Text
