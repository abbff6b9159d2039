import Triad.Word

/-!
# Decimal literals

The value of a run of decimal digits, and of a literal made of an optional minus sign and such a
run.  A literal whose value is no word is refused; the sign tells on which side it lies.
-/

namespace Triad.Decimal

/-- The value of a run of decimal digits, the most significant first. -/
def value (digits : List Char) : Nat := Nat.ofDigitChars 10 digits 0

/-- The integer that a literal denotes. -/
def denotes (negative : Bool) (digits : List Char) : Int :=
  if negative then -(value digits : Int) else (value digits : Int)

/-- Why a literal does not fit in a word. -/
inductive Overflow where
  | tooLarge
  | tooSmall
deriving DecidableEq, Repr

def Overflow.message : Overflow → String
  | tooLarge => "number too large to fit in target type"
  | tooSmall => "number too small to fit in target type"

/-- The word that a literal denotes. -/
def read (negative : Bool) (digits : List Char) : Except Overflow Int :=
  match Word.checked (denotes negative digits) with
  | some n => .ok n
  | none => .error (if negative then .tooSmall else .tooLarge)

end Triad.Decimal
