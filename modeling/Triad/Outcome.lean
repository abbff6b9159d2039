/-!
# Outcomes

What a parser answers.  A *success* holds a value and the input after what was consumed.  A
*failure* says that nothing matched, so that an alternative may still be tried.  An *error* is
final: input may have been consumed, and nothing is retried.
-/

namespace Triad

/-- The three ways a parse can end. -/
inductive Kind where
  | success
  | failure
  | error
deriving DecidableEq, Repr

/-- The word for a kind in a trace. -/
def Kind.text : Kind → String
  | success => "success"
  | failure => "failure"
  | error => "error"

/-- The part of an outcome that is not a success. -/
inductive Halt (φ ε : Type) where
  | failure (payload : φ)
  | error (payload : ε)
deriving DecidableEq, Repr

def Halt.message {φ ε : Type} [ToString φ] [ToString ε] : Halt φ ε → String
  | failure f => "failure: " ++ toString f
  | error e => "error: " ++ toString e

inductive Outcome (φ ε ι α : Type) where
  | success (value : α) (rest : ι)
  | failure (payload : φ)
  | error (payload : ε)
deriving BEq, DecidableEq, Repr

namespace Outcome

variable {φ ε ι α : Type}

def kind : Outcome φ ε ι α → Kind
  | success _ _ => .success
  | failure _ => .failure
  | error _ => .error

def isSuccess (o : Outcome φ ε ι α) : Bool := o.kind = .success

def isFailure (o : Outcome φ ε ι α) : Bool := o.kind = .failure

def isError (o : Outcome φ ε ι α) : Bool := o.kind = .error

def value? : Outcome φ ε ι α → Option α
  | success a _ => some a
  | _ => none

def rest? : Outcome φ ε ι α → Option ι
  | success _ rest => some rest
  | _ => none

/-- The value with the remaining input, or the payload that stopped the parse. -/
def toExcept : Outcome φ ε ι α → Except (Halt φ ε) (α × ι)
  | success a rest => .ok (a, rest)
  | failure f => .error (.failure f)
  | error e => .error (.error e)

end Outcome

end Triad
