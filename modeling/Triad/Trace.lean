import Triad.Outcome
import Triad.Text.Column

/-!
# Trace lines

A trace line tells of one operation: what the input looked like, under which label it ran, the
operation with its argument, and how it ended.  The columns are padded and never cut.
-/

namespace Triad

structure Line where
  /-- The head of the input; empty for an operation that knows nothing about the input. -/
  snippet : String
  label : String
  /-- The operation, with its argument in parentheses. -/
  operation : String
  /-- How the operation ended.  Of two kinds, the first was replaced by the second. -/
  kinds : List Kind
deriving DecidableEq, Repr

namespace Line

/-- Widths of the columns. -/
def snippetWidth : Nat := Text.Column.room + 2

def labelWidth : Nat := 15

/-- Text in a column of the given width. -/
def column (width : Nat) (s : String) : String := String.ofList (Text.padRight width s.toList)

def text (l : Line) : String :=
  column snippetWidth l.snippet ++ " " ++ column labelWidth l.label ++ " : " ++
    column labelWidth l.operation ++ String.join (l.kinds.map (" -> " ++ ·.text))

end Line

end Triad
