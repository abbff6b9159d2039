import Triad.Grammar.Denotation

/-!
# Readings

A parser runs in a session, and a session only collects what a run leaves
behind.  A `Reading` is the rest: the outcome at every input, or the reason
why there is none.  `Grammar.reading` gives the reading of a grammar node by
node, and `Rules.reading` that of a name.

The combinators on readings are written without accumulators: a sequence is
its first part paired with the sequence of the others, and a repetition
returns the values it still collects.  `Triad.Proofs.Meaning.Adequacy` proves
that the parser of a grammar answers what its reading says, in every session.
-/

namespace Triad

/-- The outcome of a parser at every input, or why the run stops. -/
abbrev Reading (ι : Type) (P : Payloads) (α : Type) :=
  ι → Except Stop (Outcome P.Failure P.Error ι α)

namespace Reading

variable {ι : Type} {P Q : Payloads} {α β : Type}

/-! ## Readings without parts -/

def primitive (m : Matcher ι α) : Reading ι P α := fun c =>
  match m.match? c with
  | some (a, rest) => .ok (.success a rest)
  | none => .ok (.failure P.noMatch)

/-! ## Readings with one part -/

/-- An error becomes a failure. -/
def attempt (demote : P.Error → P.Failure) (p : Reading ι P α) : Reading ι P α := fun c =>
  match p c with
  | .ok (.error e) => .ok (.failure (demote e))
  | x => x

/-- A failure becomes an error. -/
def escalate (promote : P.Failure → P.Error) (p : Reading ι P α) : Reading ι P α := fun c =>
  match p c with
  | .ok (.failure f) => .ok (.error (promote f))
  | x => x

/-- Maps the value, or gives up. -/
def bind (f : α → Except String β) (p : Reading ι P α) : Reading ι P β := fun c =>
  match p c with
  | .ok (.success a rest) =>
    match f a with
    | .ok b => .ok (.success b rest)
    | .error message => .error (.aborted message)
  | .ok (.failure f) => .ok (.failure f)
  | .ok (.error e) => .ok (.error e)
  | .error stop => .error stop

def map (f : α → β) (p : Reading ι P α) : Reading ι P β := bind (fun a => .ok (f a)) p

def mapPayload (onFailure : P.Failure → Q.Failure) (onError : P.Error → Q.Error)
    (p : Reading ι P α) : Reading ι Q α := fun c =>
  match p c with
  | .ok (.success a rest) => .ok (.success a rest)
  | .ok (.failure f) => .ok (.failure (onFailure f))
  | .ok (.error e) => .ok (.error (onError e))
  | .error stop => .error stop

/-- Maps the value, or makes the success an error. -/
def check (f : α → Except P.Error β) (p : Reading ι P α) : Reading ι P β := fun c =>
  match p c with
  | .ok (.success a rest) =>
    match f a with
    | .ok b => .ok (.success b rest)
    | .error e => .ok (.error e)
  | .ok (.failure f) => .ok (.failure f)
  | .ok (.error e) => .ok (.error e)
  | .error stop => .error stop

/-! ## Readings with several parts -/

/-- The second part reads what the first one leaves; its failure is an error. -/
def pair (p : Reading ι P α) (q : Reading ι P β) : Reading ι P (α × β) := fun c =>
  match p c with
  | .ok (.success a rest) =>
    match q rest with
    | .ok (.success b rest) => .ok (.success (a, b) rest)
    | .ok (.failure _) => .ok (.error P.incomplete)
    | .ok (.error e) => .ok (.error e)
    | .error stop => .error stop
  | .ok (.failure f) => .ok (.failure f)
  | .ok (.error e) => .ok (.error e)
  | .error stop => .error stop

/-- The first part that does not fail. -/
def choice : List (Reading ι P α) → Reading ι P α
  | [], _ => .ok (.failure P.noMatch)
  | p :: ps, c =>
    match p c with
    | .ok (.failure _) => choice ps c
    | x => x

def sequence : List (Reading ι P α) → Reading ι P (List α)
  | [] => fun c => .ok (.success [] c)
  | p :: ps => map (fun (a, rest) => a :: rest) (pair p (sequence ps))

/-- The values still to be collected by a repetition that has `count` of them,
with the input they leave. -/
def collect [DecidableEq ι] (max : Nat) (p : Reading ι P α) :
    Nat → Nat → ι → Except Stop (Except P.Error (List α × ι))
  | rounds, count, c =>
    if max ≤ count then .ok (.ok ([], c))
    else
      match rounds with
      | 0 => .error .unfinished
      | rounds + 1 =>
        match p c with
        | .ok (.success a rest) =>
          if rest = c then .ok (.ok ([a], rest))
          else
            match collect max p rounds (count + 1) rest with
            | .ok (.ok (as, rest)) => .ok (.ok (a :: as, rest))
            | x => x
        | .ok (.failure _) => .ok (.ok ([], c))
        | .ok (.error e) => .ok (.error e)
        | .error stop => .error stop

/-- What a repetition with at least `min` values makes of those collected. -/
def settle (min : Nat) (as : List α) (rest : ι) : Outcome P.Failure P.Error ι (List α) :=
  if min ≤ as.length then .success as rest
  else if as = [] then .failure P.noMatch
  else .error P.incomplete

def many [DecidableEq ι] (rounds min max : Nat) (p : Reading ι P α) : Reading ι P (List α) :=
  fun c =>
    match collect max p rounds 0 c with
    | .ok (.ok (as, rest)) => .ok (settle min as rest)
    | .ok (.error e) => .ok (.error e)
    | .error stop => .error stop

end Reading

namespace Grammar

variable {ι : Type} {N : Payloads → Type → Type} [DecidableEq ι]

/-- The reading of a grammar, given those of its names. -/
def reading (rounds : Nat) (named : ∀ {P : Payloads} {α : Type}, N P α → Reading ι P α) :
    {P : Payloads} → {α : Type} → Grammar ι N P α → Reading ι P α
  | _, _, .succeed value next => fun c => .ok (.success value (next c))
  | _, _, .fail payload => fun _ => .ok (.failure payload)
  | _, _, .error payload => fun _ => .ok (.error payload)
  | _, _, .abort message => fun _ => .error (.aborted message)
  | _, _, .primitive m => Reading.primitive m
  | _, _, .attempt demote p => Reading.attempt demote (p.reading rounds named)
  | _, _, .escalate promote p => Reading.escalate promote (p.reading rounds named)
  | _, _, .bind f p => Reading.bind f (p.reading rounds named)
  | _, _, .mapPayload onFailure onError p =>
    Reading.mapPayload onFailure onError (p.reading rounds named)
  | _, _, .check f p => Reading.check f (p.reading rounds named)
  | _, _, .context name p =>
    Reading.mapPayload (ParseError.context name) (ParseError.context name) (p.reading rounds named)
  | _, _, .label _ p => p.reading rounds named
  | _, _, .many min max p => Reading.many rounds min max (p.reading rounds named)
  | _, _, .pair p q => Reading.pair (p.reading rounds named) (q.reading rounds named)
  | _, _, .choice _ ps => Reading.choice (List.ofFn fun i => (ps i).reading rounds named)
  | _, _, .sequence _ ps => Reading.sequence (List.ofFn fun i => (ps i).reading rounds named)
  | _, _, .defer _ p => p.reading rounds named
  | _, _, .rule name => named name
  | _, _, .tap _ p => p.reading rounds named

end Grammar

/-- The reading of a name, unfolding names `depth` deep. -/
def Rules.reading {ι : Type} {N : Payloads → Type → Type} [DecidableEq ι] (rules : Rules ι N)
    (rounds : Nat) : Nat → {P : Payloads} → {α : Type} → N P α → Reading ι P α
  | 0, _, _, _ => fun _ => .error .unfinished
  | depth + 1, _, _, name => (rules name).reading rounds (rules.reading rounds depth)

namespace Grammar

variable {ι : Type} {N : Payloads → Type → Type} [DecidableEq ι] {P : Payloads} {α β : Type}
  {rounds : Nat} {named : ∀ {P : Payloads} {α : Type}, N P α → Reading ι P α}

/-! ## Derived forms -/

@[simp] theorem reading_map (f : α → β) (p : Grammar ι N P α) :
    (map f p).reading rounds named = Reading.map f (p.reading rounds named) := rfl

@[simp] theorem reading_many0 (p : Grammar ι N P α) :
    (many0 p).reading rounds named =
      Reading.many rounds 0 Bound.limit (p.reading rounds named) := rfl

@[simp] theorem reading_many1 (p : Grammar ι N P α) :
    (many1 p).reading rounds named =
      Reading.many rounds 1 Bound.limit (p.reading rounds named) := rfl

@[simp] theorem reading_firstOf (ps : List (Grammar ι N P α)) :
    (firstOf ps).reading rounds named =
      Reading.choice (ps.map fun p => p.reading rounds named) := by
  refine congrArg Reading.choice (List.ext_getElem ?_ ?_)
  · simp
  · intro i _ _
    simp

@[simp] theorem reading_allOf (ps : List (Grammar ι N P α)) :
    (allOf ps).reading rounds named =
      Reading.sequence (ps.map fun p => p.reading rounds named) := by
  refine congrArg Reading.sequence (List.ext_getElem ?_ ?_)
  · simp
  · intro i _ _
    simp

@[simp] theorem reading_ref (name : N P α) :
    (ref name).reading rounds named = named name := rfl

end Grammar

end Triad
