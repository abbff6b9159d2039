import Triad.Parser.Basic

/-!
# Parsers one after another and one instead of another

A sequence commits to what it has consumed: once its first part has matched, a failure of a later
part is an error.  A choice never commits: each alternative starts from the same input, and only a
failure moves on to the next one.
-/

namespace Triad.Parser

variable {ι : Type} {P : Payloads} {α β : Type}

/-- Runs `q` on what `p` leaves, and pairs the two values. -/
def pair (p : Parser ι P α) (q : Parser ι P β) : Parser ι P (α × β) := fun c => do
  match ← p c with
  | .success a rest =>
    match ← q rest with
    | .success b rest => pure (.success (a, b) rest)
    | .failure _ =>
      note "then" noArgument [.failure, .error]
      pure (.error P.incomplete)
    | .error e => pure (.error e)
  | .failure f => pure (.failure f)
  | .error e => pure (.error e)

/-- Runs `p` on what `q` leaves.  Unlike in `pair`, a failure of `p` stays a failure. -/
def past (q : Parser ι P Unit) (p : Parser ι P α) : Parser ι P α := fun c => do
  match ← q c with
  | .success () rest => p rest
  | .failure f => pure (.failure f)
  | .error e => pure (.error e)

/-- Tries the alternatives numbered from `i`, all from the input `c`. -/
def choiceFrom (c : ι) : Nat → List (Parser ι P α) → Run ι (Outcome P.Failure P.Error ι α)
  | i, [] => do
    note "choice" (toString i) [.failure]
    pure (.failure P.noMatch)
  | i, p :: ps => do
    match ← p c with
    | .failure _ => choiceFrom c (i + 1) ps
    | o =>
      note "choice" (toString i) [o.kind]
      pure o

/-- The first alternative that does not fail. -/
def choice (ps : List (Parser ι P α)) : Parser ι P α := fun c => choiceFrom c 0 ps

/-- Runs the parts that are left, `values` being those matched so far. -/
def sequenceFrom (values : Array α) :
    List (Parser ι P α) → ι → Run ι (Outcome P.Failure P.Error ι (List α))
  | [], c => pure (.success values.toList c)
  | p :: ps, c => do
    match ← p c with
    | .success a rest => sequenceFrom (values.push a) ps rest
    | .failure f =>
      if values.isEmpty then pure (.failure f)
      else
        note "sequence" (toString values.size) [.failure, .error]
        pure (.error P.incomplete)
    | .error e => pure (.error e)

/-- Each part on what the one before it leaves. -/
def sequence (ps : List (Parser ι P α)) : Parser ι P (List α) := sequenceFrom #[] ps

end Triad.Parser
