import Triad.Decimal
import Triad.Grammar.Denotation
import Triad.Parser.Text
import Triad.Text.Blank

/-!
# Grammars of text

The primitives of text as grammars, and what is commonly built from them: words, classes of
characters, white space and signed decimal integers.
-/

namespace Triad.Grammar

variable {N : Payloads → Type → Type} {P : Payloads} {α : Type}

/-! ## Primitives -/

def satisfy (accept : Char → Bool) : Grammar TextCursor N P Char :=
  .primitive (Matcher.satisfy accept)

def char (x : Char) : Grammar TextCursor N P Char := .primitive (Matcher.char x)

def endOfText : Grammar TextCursor N P Unit := .primitive Matcher.endOfText

/-! ## Words and classes -/

/-- The characters of `word`, one by one.  Once the first has matched, a mismatch is an error. -/
def string (word : String) : Grammar TextCursor N P String :=
  map String.ofList (allOf (word.toList.map char))

/-- One of the characters. -/
def anyOf (chars : String) : Grammar TextCursor N P Char := satisfy (· ∈ chars.toList)

/-- A character that is none of these. -/
def noneOf (chars : String) : Grammar TextCursor N P Char := satisfy (· ∉ chars.toList)

/-- An ASCII digit. -/
def digit : Grammar TextCursor N P Char := satisfy Char.isDigit

/-- Blank characters, as many as there are.  Always a success. -/
def whitespace : Grammar TextCursor N P Unit := map (fun _ => ()) (many0 (satisfy Text.isBlank))

/-- Skips the blank characters that follow. -/
def lexeme (p : Grammar TextCursor N P α) : Grammar TextCursor N P α :=
  map Prod.fst (.pair p whitespace)

/-- Requires all text to be consumed.  Never a failure. -/
def finalize (promote : P.Failure → P.Error) (p : Grammar TextCursor N P α) :
    Grammar TextCursor N P α :=
  map Prod.fst (.escalate promote (.pair p endOfText))

@[simp] theorem denote_finalize {rounds : Nat}
    {named : ∀ {P : Payloads} {α : Type}, N P α → Path → Parser TextCursor P α}
    (promote : P.Failure → P.Error) (p : Grammar TextCursor N P α) (path : Path) :
    (finalize promote p).denote rounds named path =
      Parser.finalize promote
        (p.denote rounds named (((path.child 0).child 0).child 0)) := rfl

/-! ## Integers -/

/-- The digits of a literal, after its sign if it is negative. -/
def literal : Grammar TextCursor N P (Bool × List Char) :=
  firstOf
    [map (fun (_, digits) => (true, digits)) (.pair (char '-') (many1 digit)),
      map (fun digits => (false, digits)) (many1 digit)]

/-- The word that a literal denotes; a literal that denotes no word is an error. -/
def integer : Grammar TextCursor N ParseError.payloads Int :=
  .label "integer" (.check
    (fun (negative, digits) =>
      (Decimal.read negative digits).mapError fun o => ParseError.fatal o.message)
    literal)

end Triad.Grammar
