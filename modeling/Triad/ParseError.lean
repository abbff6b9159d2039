import Triad.Payload
import Triad.Text.Quoted

/-!
# Parse errors

The payload that the ready-made text parsers use.  A parser's context wraps the payload of the
parser inside it, so an error is a cause under zero or more labels; `root` is the cause and
`sources` the errors found on the way to it.
-/

namespace Triad

inductive ParseError where
  /-- The input did not match and nothing was consumed. -/
  | noMatch
  /-- The match broke down after some input was consumed. -/
  | incomplete
  /-- Another payload under a label. -/
  | context (label : String) (source : ParseError)
  /-- Raised by a grammar's own checks. -/
  | fatal (message : String)
deriving DecidableEq, Repr

namespace ParseError

instance : Payload ParseError := ⟨noMatch, incomplete⟩

/-- Failures and errors both carry a `ParseError`. -/
abbrev payloads : Payloads := Payloads.of ParseError ParseError

/-- The cause, with all labels peeled off. -/
def root : ParseError → ParseError
  | context _ source => source.root
  | e => e

/-- The labels, outermost first. -/
def labels : ParseError → List String
  | context label source => label :: source.labels
  | _ => []

/-- The error directly under the outermost label. -/
def source? : ParseError → Option ParseError
  | context _ source => some source
  | _ => none

/-- Following `source?` to its end. -/
def sources : ParseError → List ParseError
  | context _ source => source :: source.sources
  | _ => []

/-- One line for a user: the labels in front of the cause. -/
def message : ParseError → String
  | noMatch => "NoMatch"
  | incomplete => "Incomplete: input partially consumed"
  | context label source => label ++ ": " ++ source.message
  | fatal text => "Fatal:" ++ text

instance : ToString ParseError := ⟨message⟩

/-- The structure of the error, with its strings quoted. -/
def structureText : ParseError → String
  | noMatch => "NoMatch"
  | incomplete => "Incomplete"
  | context label source =>
    "Context \x7b label: " ++ Text.quoteString label ++ ", source: " ++ source.structureText ++
      " \x7d"
  | fatal text => "Fatal(" ++ Text.quoteString text ++ ")"

end ParseError

end Triad
