import Triad.Grammar.Text

/-!
# A calculator

Sums of products of integers and parenthesised sums, blanks between them.  Chains of operators of
one rank are evaluated from left to right when their operands are known; an operation whose result
is no word, or that divides by zero, makes the parse an error.
-/

namespace Triad.Calculator

/-- The one rule by which the grammar refers to itself. -/
inductive Name : Payloads → Type → Type where
  | sum : Name ParseError.payloads Int

/-- A grammar of the calculator, with a value of type `α`. -/
abbrev Part (α : Type) := Grammar TextCursor Name ParseError.payloads α

/-! ## Arithmetic -/

/-- The result of an operation, unless it is no word.  Division drops the fraction. -/
def operate (a : Int) (op : Char) (b : Int) : Option Int :=
  match op with
  | '+' => Word.checked (a + b)
  | '-' => Word.checked (a - b)
  | '*' => Word.checked (a * b)
  | _ => if b = 0 then none else Word.checked (a.tdiv b)

/-- Why an operation has no result. -/
def undefinedOperation (a : Int) (op : Char) (b : Int) : ParseError :=
  .fatal ("cannot evaluate " ++ toString a ++ " " ++ String.singleton op ++ " " ++ toString b)

/-- Evaluates a chain from left to right, up to the first operation without a result. -/
def fold : Int → List (Char × Int) → Except ParseError Int
  | a, [] => .ok a
  | a, (op, b) :: rest =>
    match operate a op b with
    | some n => fold n rest
    | none => .error (undefinedOperation a op b)

/-! ## The grammar -/

/-- A character and the blanks after it. -/
def symbol (c : Char) : Part Char := Grammar.lexeme (Grammar.char c)

/-- A chain `operand (op operand)*` with operators from `ops`, evaluated. -/
def chain (ops : List Char) (operand : Part Int) : Part Int :=
  .check (fun (first, rest) => fold first rest)
    (.pair operand (Grammar.many0 (.pair (Grammar.firstOf (ops.map symbol)) operand)))

/-- A sum, wherever the grammar refers to itself. -/
def sum : Part Int := Grammar.ref .sum

/-- A sum in parentheses. -/
def parenthesised : Part Int :=
  Grammar.map (fun ((_, n), _) => n) (.pair (.pair (symbol '(') sum) (symbol ')'))

def factor : Part Int :=
  .label "factor" (Grammar.firstOf [Grammar.lexeme Grammar.integer, parenthesised])

def term : Part Int := .label "term" (chain ['*', '/'] factor)

def rules : Rules TextCursor Name := fun
  | .sum => .label "expr" (chain ['+', '-'] term)

/-! ## Parsing and evaluating -/

/-- The parser of a part of the grammar. -/
def parser {α : Type} (limits : Limits) (g : Part α) : Parser TextCursor ParseError.payloads α :=
  g.parse rules limits

/-- A sum after any blanks.  If there is no sum, the blanks do not make that an error. -/
def spaced (limits : Limits) : Parser TextCursor ParseError.payloads Int :=
  Parser.past (parser limits Grammar.whitespace) (parser limits sum)

/-- The value of a text that is a sum. -/
def evaluate (limits : Limits) (text : String) : Run TextCursor (Except ParseError Int) :=
  Parser.run id (spaced limits) text

end Triad.Calculator
