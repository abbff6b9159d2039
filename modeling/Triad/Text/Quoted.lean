import Triad.Text.Combining
import Triad.Text.Printable

/-!
# Quoted characters and strings

Trace lines and the structural text of an error show characters and strings between quotation
marks.  A character that would be misread is escaped: the five with an escape of their own, the
quotation mark in use, what does not print, and combining marks, which would change the look of
the character before them.
-/

namespace Triad.Text

/-- A code point in lower-case hexadecimal, without padding: `\u{e9}` for `é`. -/
def codePoint (c : Char) : List Char :=
  '\\' :: 'u' :: '\x7b' :: Nat.toDigits 16 c.toNat ++ ['\x7d']

/-- How one character is written inside the quotation mark `mark`. -/
def quoteInside (mark c : Char) : List Char :=
  if c = '\x00' then ['\\', '0']
  else if c = '\t' then ['\\', 't']
  else if c = '\n' then ['\\', 'n']
  else if c = '\r' then ['\\', 'r']
  else if c = '\\' || c = mark then ['\\', c]
  else if isCombining c || !isPrintable c then codePoint c
  else [c]

/-- A character between single quotation marks. -/
def quoteChar (c : Char) : String :=
  String.ofList ('\'' :: quoteInside '\'' c ++ ['\''])

/-- A string between double quotation marks. -/
def quoteString (s : String) : String :=
  String.ofList ('"' :: s.toList.flatMap (quoteInside '"') ++ ['"'])

end Triad.Text
