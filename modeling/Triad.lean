import Triad.Text.Ranges
import Triad.Text.Blank
import Triad.Text.Combining
import Triad.Text.Printable
import Triad.Text.Quoted
import Triad.Text.Column
import Triad.Word
import Triad.Decimal
import Triad.Payload
import Triad.ParseError
import Triad.Outcome
import Triad.Cursor
import Triad.Trace
import Triad.Session
import Triad.Parser.Basic
import Triad.Parser.Composition
import Triad.Parser.Repetition
import Triad.Parser.Text
import Triad.Grammar.Basic
import Triad.Grammar.Denotation
import Triad.Grammar.Text
import Triad.Calculator
import Triad.NumberList
import Triad.Signature
import Triad.Uniform.Value
import Triad.Uniform.Mode
import Triad.Main
import Triad.Proofs.Meaning.Reading
import Triad.Proofs.Meaning.History
import Triad.Proofs.Meaning.Inversion
import Triad.Proofs.Meaning.Observation
import Triad.Proofs.Meaning.Adequacy
import Triad.Proofs.Meaning.Watched
import Triad.Proofs.Meaning.Everywhere
import Triad.Proofs.Meaning.Simulation
import Triad.Proofs.Commitment.Failure
import Triad.Proofs.Commitment.Error
import Triad.Proofs.Meaning.Whole
import Triad.Proofs.Meaning.Repetition
import Triad.Proofs.Meaning.Rounds
import Triad.Proofs.Meaning.Leaves
import Triad.Proofs.Meaning.Segments
import Triad.Proofs.Meaning.Limits
import Triad.Proofs.Text.Scan
import Triad.Proofs.Text.Numeral
import Triad.Proofs.Text.Span
import Triad.Proofs.Text.Kept
import Triad.Proofs.Text.Pass
import Triad.Proofs.Text.Front
import Triad.Proofs.Text.Safety
import Triad.Proofs.NumberList.Language
import Triad.Proofs.NumberList.Recognition
import Triad.Proofs.Calculator.Derivation
import Triad.Proofs.Calculator.Soundness
import Triad.Proofs.Calculator.Evaluation
import Triad.Proofs.Text.Termination
import Triad.Proofs.Meaning.Related
import Triad.Proofs.Meaning.Level
import Triad.Proofs.Meaning.Marks
import Triad.Proofs.Meaning.Reuse
import Triad.Proofs.Meaning.Twins
import Triad.Proofs.Meaning.OpenCalls
import Triad.Proofs.Calculator.Nesting
import Triad.Proofs.Calculator.Termination
import Triad.Proofs.Meaning.Steps
import Triad.Proofs.Text.Complete
import Triad.Proofs.Text.Invented
import Triad.Proofs.Naming.Without
import Triad.Proofs.Naming.Context
import Triad.Proofs.Naming.Transcript
import Triad.Proofs.Naming.Label
import Triad.Proofs.Repetition.Reference
import Triad.Proofs.Repetition.Range
import Triad.Proofs.Algebra.Silent
import Triad.Proofs.Algebra.Regrouping
import Triad.Proofs.Algebra.Unrolling
import Triad.Proofs.Algebra.Untraced
import Triad.Proofs.Algebra.Alternation
import Triad.Proofs.Algebra.Backtracking
import Triad.Proofs.Text.Rendering
import Triad.Proofs.Calculator.Defects
import Triad.Proofs.Calculator.Diagnosis
import Triad.Proofs.Text.Prefix
import Triad.Proofs.Text.Lexeme
import Triad.Proofs.Algebra.Mapping
import Triad.Proofs.Text.Display
import Triad.Proofs.Text.Legible
import Triad.Proofs.Naming.Views
