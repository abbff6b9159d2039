import Triad.Word

/-!
# Values of one type

A grammar that is read from data cannot give its parts types of their own, so all of them share
one type of values.  The functions on it are those that such a grammar may map over its values.
-/

namespace Triad.Uniform

inductive Value where
  | unit
  | char (c : Char)
  | text (s : String)
  | int (n : Int)
  | list (vs : List Value)
  | pair (first second : Value)
  /-- A value under a name. -/
  | tagged (name : String) (v : Value)
deriving BEq, Repr

namespace Value

mutual

/-- The characters, strings and integers inside, in order and put together. -/
def content : Value → String
  | unit => ""
  | char c => String.singleton c
  | text s => s
  | int n => toString n
  | list vs => contents vs
  | pair a b => a.content ++ b.content
  | tagged _ v => v.content

/-- The contents of several values. -/
def contents : List Value → String
  | [] => ""
  | v :: vs => v.content ++ contents vs

end

mutual

/-- The sum of the integers inside. -/
def total : Value → Int
  | int n => n
  | list vs => totals vs
  | pair a b => a.total + b.total
  | tagged _ v => v.total
  | unit | char _ | text _ => 0

/-- The sum of the integers inside several values. -/
def totals : List Value → Int
  | [] => 0
  | v :: vs => v.total + totals vs

end

/-- The sum of the integers inside, as a word. -/
def sum (v : Value) : Value := int (Word.wrap v.total)

/-- One more than the sum, as a word. -/
def increment (v : Value) : Value := int (Word.wrap (v.total + 1))

/-- How many elements a list has, or characters a string; anything else is one thing. -/
def count : Value → Nat
  | list vs => vs.length
  | text s => s.length
  | _ => 1

/-- The first half of a pair. -/
def first : Value → Value
  | pair a _ => a
  | v => v

/-- The second half of a pair. -/
def second : Value → Value
  | pair _ b => b
  | v => v

end Value

end Triad.Uniform
