import Triad.Grammar.Text

/-!
# Lists of numbers

Integers between brackets, separated by commas, with blanks anywhere between them.
-/

namespace Triad.NumberList

/-- A part of the grammar, with a value of type `α`. -/
abbrev Part (α : Type) := Grammar TextCursor NoNames ParseError.payloads α

/-- A number and the blanks after it. -/
def item : Part Int := Grammar.lexeme Grammar.integer

/-- One or more numbers. -/
def items : Part (List Int) :=
  Grammar.map (fun (first, rest) => first :: rest)
    (.pair item
      (Grammar.many0
        (Grammar.map Prod.snd (.pair (Grammar.lexeme (Grammar.char ',')) item))))

/-- What stands between the brackets. -/
def body : Part (List Int) := Grammar.firstOf [items, .succeed [] id]

/-- The whole list. -/
def numbers : Part (List Int) :=
  Grammar.map (fun (((_, _), ns), _) => ns)
    (.pair
      (.pair (.pair Grammar.whitespace (Grammar.lexeme (Grammar.char '['))) body)
      (Grammar.lexeme (Grammar.char ']')))

def parser (limits : Limits) : Parser TextCursor ParseError.payloads (List Int) :=
  numbers.parse Rules.none limits

/-- The numbers of a text that is a list. -/
def read (limits : Limits) (text : String) : Run TextCursor (Except ParseError (List Int)) :=
  Parser.run id (parser limits) text

end Triad.NumberList
