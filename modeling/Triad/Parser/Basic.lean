import Triad.Payload
import Triad.Session

/-!
# Parsers

A parser takes an input to an outcome, within a session.  This module holds the parsers that have
no parts and the combinators that have one: they pass the outcome of their part on, changed in
kind, value or payload.

Only two combinators change the kind.  `attempt` turns an error into a failure, so that an
alternative may be tried after all; `escalate` turns a failure into an error.  `check` can turn a
success into an error.
-/

namespace Triad

/-- A function from an input to an outcome, run in a session. -/
abbrev Parser (ι : Type) (P : Payloads) (α : Type) :=
  ι → Run ι (Outcome P.Failure P.Error ι α)

/-- How a primitive shows up in the trace. -/
structure Note (ι : Type) where
  operation : String
  snippet : ι → String

/-- What a primitive looks for: the value and the input after it, or nothing. -/
structure Matcher (ι α : Type) where
  match? : ι → Option (α × ι)
  /-- Primitives without a note leave no trace. -/
  note : Option (Note ι)

namespace Parser

variable {ι : Type} {P : Payloads} {α β : Type}

/-! ## Parsers without parts -/

/-- Succeeds with `value`, leaving what `next` makes of the input. -/
def succeed (value : α) (next : ι → ι) : Parser ι P α := fun c => pure (.success value (next c))

def fail (payload : P.Failure) : Parser ι P α := fun _ => pure (.failure payload)

def error (payload : P.Error) : Parser ι P α := fun _ => pure (.error payload)

/-- Gives up the whole run. -/
def abort (message : String) : Parser ι P α := fun _ => throw (.aborted message)

/-- Runs out of its allowance. -/
def unfinished : Parser ι P α := fun _ => throw .unfinished

/-- Succeeds where the matcher matches; a miss is a failure. -/
def primitive (m : Matcher ι α) : Parser ι P α := fun c => do
  let found := m.match? c
  if let some n := m.note then
    let kind := if found.isSome then .success else .failure
    Run.trace fun label => ⟨n.snippet c, label, n.operation, [kind]⟩
  match found with
  | some (value, rest) => pure (.success value rest)
  | none => pure (.failure P.noMatch)

/-! ## Traces of combinators -/

/-- A combinator's line: it knows nothing about the input. -/
def note (name argument : String) (kinds : List Kind) : Run ι Unit :=
  Run.trace fun label => ⟨"", label, name ++ "(" ++ argument ++ ")", kinds⟩

/-- The argument of an operation that has none. -/
def noArgument : String := Text.quoteString ""

/-! ## Combinators with one part -/

/-- Demotes an error to a failure.  The input is not rewound, so a later alternative starts where
this parser started. -/
def attempt (demote : P.Error → P.Failure) (p : Parser ι P α) : Parser ι P α := fun c => do
  match ← p c with
  | .error e =>
    note "attempt" noArgument [.error, .failure]
    pure (.failure (demote e))
  | o => pure o

/-- Promotes a failure to an error. -/
def escalate (promote : P.Failure → P.Error) (p : Parser ι P α) : Parser ι P α := fun c => do
  match ← p c with
  | .failure f =>
    note "escalate" noArgument [.failure, .error]
    pure (.error (promote f))
  | o => pure o

/-- Maps the value of a success.  The callback may abort the run. -/
def bind (f : α → Except String β) (p : Parser ι P α) : Parser ι P β := fun c => do
  match ← p c with
  | .success a rest =>
    match f a with
    | .ok b => pure (.success b rest)
    | .error message => throw (.aborted message)
  | .failure f => pure (.failure f)
  | .error e => pure (.error e)

/-- Maps the value of a success by a function. -/
def map (f : α → β) (p : Parser ι P α) : Parser ι P β := bind (fun a => .ok (f a)) p

/-- Maps the payload of an outcome that is no success, possibly to other payload types. -/
def mapPayload {Q : Payloads} (onFailure : P.Failure → Q.Failure) (onError : P.Error → Q.Error)
    (p : Parser ι P α) : Parser ι Q α := fun c => do
  match ← p c with
  | .success a rest => pure (.success a rest)
  | .failure f => pure (.failure (onFailure f))
  | .error e => pure (.error (onError e))

/-- Turns a success into an error if its value does not pass `f`. -/
def check (f : α → Except P.Error β) (p : Parser ι P α) : Parser ι P β := fun c => do
  match ← p c with
  | .success a rest =>
    match f a with
    | .ok b => pure (.success b rest)
    | .error e => pure (.error e)
  | .failure f => pure (.failure f)
  | .error e => pure (.error e)

/-- Runs with `name` as the label in force, and adds a line of its own under that name. -/
def label (name : String) (p : Parser ι P α) : Parser ι P α := fun c =>
  Run.withLabel name do
    let o ← p c
    note "label" (Text.quoteString name) [o.kind]
    pure o

/-- Builds its part the first time it is reached.  `cell` tells the deferred parsers of a grammar
apart. -/
def defer (cell : Path) (note : Option String) (p : Parser ι P α) : Parser ι P α := fun c => do
  Run.build cell note
  p c

/-- Records the input and the kind of outcome of each call. -/
def tap (id : String) (p : Parser ι P α) : Parser ι P α := fun c => do
  Run.record (.enter id c)
  let o ← p c
  Run.record (.leave id o.kind)
  pure o

end Parser

end Triad
