import Triad.Text.Quoted

/-!
# The input column of a trace line

A trace line starts with the head of the unconsumed text: between two bars, in printable ASCII,
at most 33 characters of it, and padded so that the next column always starts at the same place.

The text is cut before it is escaped, because 33 escapes can only be longer than 33 characters;
both quotation marks are escaped with the rest and then restored by two passes.
-/

namespace Triad.Text

/-- Pads with blanks on the right up to `width` characters; longer text stays whole. -/
def padRight (width : Nat) (s : List Char) : List Char :=
  s ++ List.replicate (width - s.length) ' '

namespace Column

/-- How much escaped text the column holds. -/
def room : Nat := 33

/-- Printable ASCII for any character: tab, carriage return, line feed, both quotation marks and
the backslash have short escapes, the rest of ASCII's printable part stands for itself, and
everything else is given by its code point. -/
def escape (c : Char) : List Char :=
  if c = '\t' then ['\\', 't']
  else if c = '\r' then ['\\', 'r']
  else if c = '\n' then ['\\', 'n']
  else if c = '\'' || c = '"' || c = '\\' then ['\\', c]
  else if 0x20 ≤ c.toNat && c.toNat ≤ 0x7e then [c]
  else codePoint c

/-- Drops the backslash from every `\mark`, from left to right. -/
def restore (mark : Char) : List Char → List Char
  | [] => []
  | [c] => [c]
  | c :: d :: rest =>
    if c = '\\' && d = mark then d :: restore mark rest else c :: restore mark (d :: rest)

/-- The escaped head of the text, without bars or padding. -/
def body (s : List Char) : List Char :=
  (restore '\'' (restore '"' ((s.take room).flatMap escape))).take room

/-- The body between its bars. -/
def barred (s : List Char) : List Char := '|' :: body s ++ ['|']

/-- The column at its full width. -/
def render (s : List Char) : List Char := padRight (room + 2) (barred s)

end Column

end Triad.Text
