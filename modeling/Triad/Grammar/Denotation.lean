import Triad.Grammar.Basic

/-!
# What a grammar parses

`Grammar.denote` turns a grammar into a parser, node by node.  It walks down with the path of the
node, which identifies each deferred parser: a rule that is unfolded twice is built twice.

Names are unfolded as often as `Limits.depth` allows, and a repetition goes through as many rounds
as `Limits.rounds` allows.  A run that needs more ends as `Stop.unfinished`.
-/

namespace Triad

/-- How long and how deep a run may be. -/
structure Limits where
  /-- Calls that one repetition may make of its part. -/
  rounds : Nat
  /-- Names that may be unfolded inside one another. -/
  depth : Nat
deriving DecidableEq, Repr

namespace Grammar

variable {ι : Type} {N : Payloads → Type → Type} [DecidableEq ι]

/-- The parser of a grammar at the place `path`, given the parsers of its names. -/
def denote (rounds : Nat) (named : ∀ {P : Payloads} {α : Type}, N P α → Path → Parser ι P α) :
    {P : Payloads} → {α : Type} → Grammar ι N P α → Path → Parser ι P α
  | _, _, .succeed value next, _ => Parser.succeed value next
  | _, _, .fail payload, _ => Parser.fail payload
  | _, _, .error payload, _ => Parser.error payload
  | _, _, .abort message, _ => Parser.abort message
  | _, _, .primitive m, _ => Parser.primitive m
  | _, _, .attempt demote p, path => Parser.attempt demote (p.denote rounds named (path.child 0))
  | _, _, .escalate promote p, path =>
    Parser.escalate promote (p.denote rounds named (path.child 0))
  | _, _, .bind f p, path => Parser.bind f (p.denote rounds named (path.child 0))
  | _, _, .mapPayload onFailure onError p, path =>
    Parser.mapPayload onFailure onError (p.denote rounds named (path.child 0))
  | _, _, .check f p, path => Parser.check f (p.denote rounds named (path.child 0))
  | _, _, .context name p, path =>
    Parser.mapPayload (ParseError.context name) (ParseError.context name)
      (p.denote rounds named (path.child 0))
  | _, _, .label name p, path => Parser.label name (p.denote rounds named (path.child 0))
  | _, _, .many min max p, path =>
    Parser.many rounds min max (p.denote rounds named (path.child 0))
  | _, _, .pair p q, path =>
    Parser.pair (p.denote rounds named (path.child 0)) (q.denote rounds named (path.child 1))
  | _, _, .choice _ ps, path =>
    Parser.choice (List.ofFn fun i => (ps i).denote rounds named (path.child i))
  | _, _, .sequence _ ps, path =>
    Parser.sequence (List.ofFn fun i => (ps i).denote rounds named (path.child i))
  | _, _, .defer note p, path =>
    Parser.defer path note (p.denote rounds named (path.child 0))
  | _, _, .rule name, path => named name path
  | _, _, .tap id p, path => Parser.tap id (p.denote rounds named (path.child 0))

/-! ## Derived forms -/

variable {rounds : Nat} {named : ∀ {P : Payloads} {α : Type}, N P α → Path → Parser ι P α}
  {P : Payloads} {α β : Type}

@[simp] theorem denote_map (f : α → β) (p : Grammar ι N P α) (path : Path) :
    (map f p).denote rounds named path =
      Parser.map f (p.denote rounds named (path.child 0)) := rfl

@[simp] theorem denote_firstOf (ps : List (Grammar ι N P α)) (path : Path) :
    (firstOf ps).denote rounds named path =
      Parser.choice (ps.mapIdx fun i p => p.denote rounds named (path.child i)) := by
  refine congrArg Parser.choice (List.ext_getElem ?_ ?_)
  · simp
  · intro i _ _
    simp

@[simp] theorem denote_allOf (ps : List (Grammar ι N P α)) (path : Path) :
    (allOf ps).denote rounds named path =
      Parser.sequence (ps.mapIdx fun i p => p.denote rounds named (path.child i)) := by
  refine congrArg Parser.sequence (List.ext_getElem ?_ ?_)
  · simp
  · intro i _ _
    simp

@[simp] theorem denote_ref (name : N P α) (path : Path) :
    (ref name).denote rounds named path =
      Parser.defer path none (named name (path.child 0)) := rfl

end Grammar

namespace Rules

variable {ι : Type} {N : Payloads → Type → Type} [DecidableEq ι]

/-- The parser of a name, unfolding names `depth` deep. -/
def named (rules : Rules ι N) (rounds : Nat) :
    Nat → {P : Payloads} → {α : Type} → N P α → Path → Parser ι P α
  | 0, _, _, _, _ => Parser.unfinished
  | depth + 1, _, _, name, path =>
    (rules name).denote rounds (rules.named rounds depth) (path.child 0)

end Rules

/-- The parser of a whole grammar. -/
def Grammar.parse {ι : Type} {N : Payloads → Type → Type} [DecidableEq ι] {P : Payloads} {α : Type}
    (rules : Rules ι N) (limits : Limits) (g : Grammar ι N P α) : Parser ι P α :=
  g.denote limits.rounds (rules.named limits.rounds limits.depth) Path.root

end Triad
