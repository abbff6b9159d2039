import Triad.Trace

/-!
# Sessions

Parsers are functions of the input.  What else a run leaves behind is held by a session: the
label in force, which deferred parsers have been built, and a log.  A run that is cut short keeps
the session it reached, and `Run.withLabel` puts the outer label back even then
(`Run.withLabel_label`).
-/

namespace Triad

/-- A place in a grammar: the numbers of the children taken from the root, the last one first.
The depth comes first so that places at different depths are told apart at once. -/
structure Path where
  depth : Nat
  steps : List Nat
deriving DecidableEq, Repr

namespace Path

def root : Path := ⟨0, []⟩

def child (p : Path) (i : Nat) : Path := ⟨p.depth + 1, i :: p.steps⟩

end Path

/-- What a run records, in the order in which it happens. -/
inductive Entry (ι : Type) where
  | line (l : Line)
  /-- A deferred parser was built. -/
  | built (cell : Path) (note : Option String)
  /-- A tap was entered at an input. -/
  | enter (id : String) (input : ι)
  /-- A tap was left with an outcome. -/
  | leave (id : String) (kind : Kind)
deriving DecidableEq, Repr

structure Session (ι : Type) where
  /-- Are trace lines recorded? -/
  tracing : Bool
  /-- The label that trace lines carry. -/
  label : String
  /-- The deferred parsers that have been built. -/
  built : List Path
  log : Array (Entry ι)

namespace Session

variable {ι : Type}

/-- Nothing built, nothing recorded, no label. -/
def fresh (tracing : Bool) : Session ι := ⟨tracing, "", [], #[]⟩

/-- The same parsers later: what was built stays built, the log starts again. -/
def resume (s : Session ι) (tracing : Bool) : Session ι := ⟨tracing, "", s.built, #[]⟩

def record (s : Session ι) (e : Entry ι) : Session ι := { s with log := s.log.push e }

/-- The trace lines of the log. -/
def lines (s : Session ι) : List Line :=
  s.log.toList.filterMap fun
    | .line l => some l
    | _ => none

end Session

/-- Why a run ends without an outcome. -/
inductive Stop where
  /-- A parser or a callback gave up. -/
  | aborted (message : String)
  /-- The run was longer or deeper than it was allowed to be. -/
  | unfinished
deriving DecidableEq, Repr

/-- A computation in a session that may be cut short. -/
abbrev Run (ι : Type) := EStateM Stop (Session ι)

namespace Run

variable {ι α : Type}

def record (e : Entry ι) : Run ι Unit := modify (·.record e)

/-- Records a trace line, given the label in force, if the session is traced. -/
def trace (line : String → Line) : Run ι Unit := fun s =>
  if s.tracing then .ok () (s.record (.line (line s.label))) else .ok () s

/-- Runs with another label in force.  The outer label is in force again afterwards, whichever way
the run ends. -/
def withLabel (name : String) (r : Run ι α) : Run ι α := fun s =>
  let outer := s.label
  match r { s with label := name } with
  | .ok a s => .ok a { s with label := outer }
  | .error e s => .error e { s with label := outer }

/-- Marks a deferred parser as built, unless it has been built before. -/
def build (cell : Path) (note : Option String) : Run ι Unit := fun s =>
  if cell ∈ s.built then .ok () s
  else .ok () { s.record (.built cell note) with built := cell :: s.built }

/-- The session that a run ends in. -/
def final (r : Run ι α) (s : Session ι) : Session ι :=
  match r s with
  | .ok _ s => s
  | .error _ s => s

/-- The result of a run, without its session. -/
def result (r : Run ι α) (s : Session ι) : Except Stop α :=
  match r s with
  | .ok a _ => .ok a
  | .error e _ => .error e

@[simp] theorem withLabel_label (name : String) (r : Run ι α) (s : Session ι) :
    ((withLabel name r).final s).label = s.label := by
  unfold final withLabel
  cases r { s with label := name } <;> rfl

end Run

end Triad
