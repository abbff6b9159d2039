import Triad.Cursor
import Triad.Parser.Composition

/-!
# Parsers of text

The primitives that look at characters, and what runs a parser on a whole text.  A parse of a whole
text never fails: `finalize` promotes a failure and makes text that is left over an error, so `run`
answers with a value or an error payload.
-/

namespace Triad

namespace Matcher

/-- How a primitive of text shows up in the trace. -/
def noted (operation : String) : Option (Note TextCursor) := some ⟨operation, Cursor.snippet⟩

/-- The next element, if `accept` accepts it. -/
def next {τ : Type} [Width τ] (accept : τ → Bool) (c : Cursor τ) : Option (τ × Cursor τ) :=
  match c.next? with
  | some (x, rest) => if accept x then some (x, rest) else none
  | none => none

/-- A character that `accept` accepts. -/
def satisfy (accept : Char → Bool) : Matcher TextCursor Char :=
  ⟨next accept, noted ("satisfy(" ++ Parser.noArgument ++ ")")⟩

/-- The character `x`. -/
def char (x : Char) : Matcher TextCursor Char :=
  ⟨next (· = x), noted ("char(" ++ Text.quoteChar x ++ ")")⟩

/-- The end of the text. -/
def endOfText : Matcher TextCursor Unit :=
  ⟨fun c => if c.isEnd then some ((), c) else none, noted ("eos(" ++ Parser.noArgument ++ ")")⟩

/-- One element that `accept` accepts, without a trace. -/
def element {τ : Type} [Width τ] (accept : τ → Bool) : Matcher (Cursor τ) τ :=
  ⟨next accept, none⟩

/-- The end of the input, without a trace. -/
def endOfInput {τ : Type} : Matcher (Cursor τ) Unit :=
  ⟨fun c => if c.isEnd then some ((), c) else none, none⟩

/-- All of `w` at once, without a trace. -/
def word {τ : Type} [Width τ] [DecidableEq τ] (w : List τ) : Matcher (Cursor τ) (List τ) :=
  ⟨fun c => (c.skip? w).map fun rest => (w, rest), none⟩

end Matcher

namespace Parser

variable {P : Payloads} {α : Type}

/-- Requires all text to be consumed.  Never a failure. -/
def finalize (promote : P.Failure → P.Error) (p : Parser TextCursor P α) : Parser TextCursor P α :=
  map Prod.fst (escalate promote (pair p (primitive Matcher.endOfText)))

/-- The beginning of a text, with a line in the trace. -/
def start (text : String) : Run TextCursor TextCursor := do
  let c := Cursor.start text.toList
  Run.trace fun label => ⟨c.snippet, label, "Cursor::from(" ++ noArgument ++ ")", []⟩
  pure c

/-- Parses all of `text`. -/
def run (promote : P.Failure → P.Error) (p : Parser TextCursor P α) (text : String) :
    Run TextCursor (Except P.Error α) := do
  let c ← start text
  let o ← finalize promote p c
  Run.trace fun label => ⟨c.snippet, label, "run(" ++ noArgument ++ ")", [o.kind]⟩
  match o with
  | .success a _ => pure (.ok a)
  | .failure f => pure (.error (promote f))
  | .error e => pure (.error e)

end Parser

end Triad
