import Triad.Proofs.Meaning.Reading

/-!
# Histories

The history of a run is the list of its calls: each part of the grammar that
is called is entered at an input and left with an outcome, and the calls that
it makes itself stand between the two.  A call that the run does not come
back from, because it stops, is never left.

A call also knows what becomes of an error that it may end with.  The nodes
around it do not change an error, except for those with a callback on errors;
`Call.raise` is the composition of these callbacks, the innermost one first.

The history is computed from the readings of the parts, which say where each
next part starts.
-/

namespace Triad

universe u

/-- A call of a part of a grammar whose errors are an `ε`. -/
structure Call (ι : Type) (N : Payloads → Type → Type) (ε : Type) : Type 1 where
  {payloads : Payloads}
  {value : Type}
  part : Grammar ι N payloads value
  input : ι
  /-- What the callbacks around the part make of an error of the part. -/
  raise : payloads.Error → ε

inductive Event (ι : Type) (N : Payloads → Type → Type) (ε : Type) : Type 1 where
  | enter (k : Call ι N ε)
  | leave (k : Call ι N ε) (o : Outcome k.payloads.Failure k.payloads.Error ι k.value)

variable {ι : Type} {N : Payloads → Type → Type} {ε : Type} {P : Payloads} {α : Type} {E : Type u}

namespace Event

/-- The call that is entered or left. -/
def call : Event ι N ε → Call ι N ε
  | enter k => k
  | leave k _ => k

/-- What a tap records of the event; calls of other parts leave no record. -/
def record? : Event ι N ε → Option (Entry ι)
  | enter ⟨.tap id _, c, _⟩ => some (.enter id c)
  | leave ⟨.tap id _, _, _⟩ o => some (.leave id o.kind)
  | _ => none

end Event

/-- A call with the calls inside it. -/
def Call.around (k : Call ι N ε) (inner : List (Event ι N ε))
    (x : Except Stop (Outcome k.payloads.Failure k.payloads.Error ι k.value)) :
    List (Event ι N ε) :=
  .enter k :: inner ++
    match x with
    | .ok o => [.leave k o]
    | .error _ => []

namespace History

/-! ## Calls of several parts

Where each part is called depends on the readings only, so what the calls
leave behind may be anything: events, or the marks of `Grammar.marks`. -/

/-- A part by its reading and its history. -/
abbrev Part (ι : Type) (N : Payloads → Type → Type) (ε : Type) (P : Payloads) (α : Type) :=
  Reading ι P α × (ι → List (Event ι N ε))

/-- The second part is called on what the first one leaves. -/
def pair {β : Type} (p : Reading ι P α × (ι → List E)) (q : Reading ι P β × (ι → List E)) (c : ι) :
    List E :=
  p.2 c ++
    match p.1 c with
    | .ok (.success _ rest) => q.2 rest
    | _ => []

/-- The parts are called on the same input, as long as they fail. -/
def choice : List (Reading ι P α × (ι → List E)) → ι → List E
  | [], _ => []
  | p :: ps, c =>
    p.2 c ++
      match p.1 c with
      | .ok (.failure _) => choice ps c
      | _ => []

/-- Each part is called on what the one before it leaves. -/
def sequence : List (Reading ι P α × (ι → List E)) → ι → List E
  | [], _ => []
  | p :: ps, c =>
    p.2 c ++
      match p.1 c with
      | .ok (.success _ rest) => sequence ps rest
      | _ => []

/-- The part is called again on what it leaves, while there are fewer than
`max` values and it moves on. -/
def collect [DecidableEq ι] (max : Nat) (p : Reading ι P α × (ι → List E)) :
    Nat → Nat → ι → List E
  | rounds, count, c =>
    if max ≤ count then []
    else
      match rounds with
      | 0 => []
      | rounds + 1 =>
        p.2 c ++
          match p.1 c with
          | .ok (.success _ rest) => if rest = c then [] else collect max p rounds (count + 1) rest
          | _ => []

end History

namespace Grammar

variable [DecidableEq ι]

/-- The history of a grammar at an input, given the readings and the
histories of its names. -/
def history (rounds : Nat) (named : ∀ {P : Payloads} {α : Type}, N P α → Reading ι P α)
    (called : ∀ {P : Payloads} {α : Type}, N P α → (P.Error → ε) → ι → List (Event ι N ε)) :
    {P : Payloads} → {α : Type} → Grammar ι N P α → (P.Error → ε) → ι → List (Event ι N ε)
  | P, α, g, raise, c =>
    Call.around ⟨g, c, raise⟩
      (match P, α, g, raise with
      | _, _, .succeed _ _, _ => []
      | _, _, .fail _, _ => []
      | _, _, .error _, _ => []
      | _, _, .abort _, _ => []
      | _, _, .primitive _, _ => []
      | _, _, .attempt _ p, raise => p.history rounds named called raise c
      | _, _, .escalate _ p, raise => p.history rounds named called raise c
      | _, _, .bind _ p, raise => p.history rounds named called raise c
      | _, _, .mapPayload _ onError p, raise =>
        p.history rounds named called (fun e => raise (onError e)) c
      | _, _, .check _ p, raise => p.history rounds named called raise c
      | _, _, .context name p, raise =>
        p.history rounds named called (fun e => raise (ParseError.context name e)) c
      | _, _, .label _ p, raise => p.history rounds named called raise c
      | _, _, .many _ max p, raise =>
        History.collect max (p.reading rounds named, p.history rounds named called raise) rounds 0 c
      | _, _, .pair p q, raise =>
        History.pair (p.reading rounds named, p.history rounds named called raise)
          (q.reading rounds named, q.history rounds named called raise) c
      | _, _, .choice _ ps, raise =>
        History.choice (List.ofFn fun i =>
          ((ps i).reading rounds named, (ps i).history rounds named called raise)) c
      | _, _, .sequence _ ps, raise =>
        History.sequence (List.ofFn fun i =>
          ((ps i).reading rounds named, (ps i).history rounds named called raise)) c
      | _, _, .defer _ p, raise => p.history rounds named called raise c
      | _, _, .rule name, raise => called name raise c
      | _, _, .tap _ p, raise => p.history rounds named called raise c)
      (g.reading rounds named c)

end Grammar

/-- The history of a name, unfolding names `depth` deep. -/
def Rules.history [DecidableEq ι] (rules : Rules ι N) (rounds : Nat) :
    Nat → {P : Payloads} → {α : Type} → N P α → (P.Error → ε) → ι → List (Event ι N ε)
  | 0, _, _, _, _, _ => []
  | depth + 1, _, _, name, raise, c =>
    (rules name).history rounds (rules.reading rounds depth) (rules.history rounds depth) raise c

end Triad
