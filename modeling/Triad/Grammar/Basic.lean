import Triad.Parser.Composition
import Triad.Parser.Repetition
import Triad.ParseError

/-!
# Grammars

A grammar is a parser as data, so that statements about every parser can be made by induction on
it.  `Grammar ι N P α` reads inputs `ι`, carries payloads `P`, gives values `α` and may refer to
rules named by `N`; a name knows the payloads and values of its rule.  What a name stands for is
fixed by `Rules`, which is how a grammar refers to itself.

Callbacks are functions, since nothing is said about them beyond what they answer.
-/

namespace Triad

inductive Grammar (ι : Type) (N : Payloads → Type → Type) : Payloads → Type → Type 1 where
  /-- Succeeds, leaving what `next` makes of the input. -/
  | succeed {P : Payloads} {α : Type} (value : α) (next : ι → ι) : Grammar ι N P α
  | fail {P : Payloads} {α : Type} (payload : P.Failure) : Grammar ι N P α
  | error {P : Payloads} {α : Type} (payload : P.Error) : Grammar ι N P α
  /-- Gives up the whole run. -/
  | abort {P : Payloads} {α : Type} (message : String) : Grammar ι N P α
  | primitive {P : Payloads} {α : Type} (m : Matcher ι α) : Grammar ι N P α
  /-- Demotes an error to a failure. -/
  | attempt {P : Payloads} {α : Type} (demote : P.Error → P.Failure) (p : Grammar ι N P α) :
      Grammar ι N P α
  /-- Promotes a failure to an error. -/
  | escalate {P : Payloads} {α : Type} (promote : P.Failure → P.Error) (p : Grammar ι N P α) :
      Grammar ι N P α
  /-- Maps the value; the callback may give up the run. -/
  | bind {P : Payloads} {α β : Type} (f : α → Except String β) (p : Grammar ι N P α) :
      Grammar ι N P β
  /-- Maps the payload. -/
  | mapPayload {P Q : Payloads} {α : Type} (onFailure : P.Failure → Q.Failure)
      (onError : P.Error → Q.Error) (p : Grammar ι N P α) : Grammar ι N Q α
  /-- Maps the value, or makes the success an error. -/
  | check {P : Payloads} {α β : Type} (f : α → Except P.Error β) (p : Grammar ι N P α) :
      Grammar ι N P β
  /-- Puts a label on the payload. -/
  | context {α : Type} (name : String) (p : Grammar ι N ParseError.payloads α) :
      Grammar ι N ParseError.payloads α
  /-- Puts a label on the trace. -/
  | label {P : Payloads} {α : Type} (name : String) (p : Grammar ι N P α) : Grammar ι N P α
  | many {P : Payloads} {α : Type} (min max : Nat) (p : Grammar ι N P α) : Grammar ι N P (List α)
  /-- One after the other, with both values. -/
  | pair {P : Payloads} {α β : Type} (p : Grammar ι N P α) (q : Grammar ι N P β) :
      Grammar ι N P (α × β)
  /-- The first alternative that does not fail. -/
  | choice {P : Payloads} {α : Type} (count : Nat) (ps : Fin count → Grammar ι N P α) :
      Grammar ι N P α
  | sequence {P : Payloads} {α : Type} (count : Nat) (ps : Fin count → Grammar ι N P α) :
      Grammar ι N P (List α)
  /-- Built on first use. -/
  | defer {P : Payloads} {α : Type} (note : Option String) (p : Grammar ι N P α) : Grammar ι N P α
  /-- Whatever the name stands for. -/
  | rule {P : Payloads} {α : Type} (name : N P α) : Grammar ι N P α
  /-- Records its calls. -/
  | tap {P : Payloads} {α : Type} (id : String) (p : Grammar ι N P α) : Grammar ι N P α

/-- What the names of a grammar stand for. -/
def Rules (ι : Type) (N : Payloads → Type → Type) : Type 1 :=
  ∀ {P : Payloads} {α : Type}, N P α → Grammar ι N P α

/-- No names at all, for a grammar that does not refer to itself. -/
abbrev NoNames : Payloads → Type → Type := fun _ _ => Empty

/-- The rules of a grammar without names. -/
def Rules.none {ι : Type} : Rules ι NoNames := fun name => nomatch name

namespace Grammar

variable {ι : Type} {N : Payloads → Type → Type} {P : Payloads} {α β : Type}

/-! ## Derived forms -/

/-- Maps the value by a function. -/
def map (f : α → β) (p : Grammar ι N P α) : Grammar ι N P β := .bind (fun a => .ok (f a)) p

def many0 (p : Grammar ι N P α) : Grammar ι N P (List α) := .many 0 Bound.limit p

def many1 (p : Grammar ι N P α) : Grammar ι N P (List α) := .many 1 Bound.limit p

/-- As many repetitions as a range of counts admits. -/
def repeated (low high : Bound) (p : Grammar ι N P α) : Grammar ι N P (List α) :=
  .many low.least high.greatest p

/-- The first of a list of alternatives that does not fail. -/
def firstOf (ps : List (Grammar ι N P α)) : Grammar ι N P α := .choice ps.length ps.get

/-- A list of grammars, one after the other. -/
def allOf (ps : List (Grammar ι N P α)) : Grammar ι N P (List α) := .sequence ps.length ps.get

/-- The rule of a name, built on first use. -/
def ref (name : N P α) : Grammar ι N P α := .defer none (.rule name)

end Grammar

end Triad
