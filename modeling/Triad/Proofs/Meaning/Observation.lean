import Mathlib.Data.List.Forall2
import Triad.Proofs.Meaning.History

/-!
# Observations of runs

An observation says what one sees of a run: a list of things, and how the run
ends.  Of one run after another one sees the two lists, one behind the other.

The combinators work the same whatever is observed.  What one sees of a
combinator is what one sees of its parts, where its reading says that they are
called, and then the lines that it writes itself (`Remark`).  Only labels,
deferred parsers and taps do something else to a session; what one sees of them
is for each observation to say.
-/

namespace Triad

universe u

variable {ι : Type} {P Q : Payloads} {α β : Type}

/-! ## Remarks -/

/-- A line of the trace without its label. -/
structure Remark where
  snippet : String
  operation : String
  kinds : List Kind

/-- The line with the label in force. -/
def Remark.line (remark : Remark) (label : String) : Line :=
  ⟨remark.snippet, label, remark.operation, remark.kinds⟩

/-- What a combinator writes.  It knows nothing about the input. -/
def Remark.of (operation argument : String) (kinds : List Kind) : Remark :=
  ⟨"", operation ++ "(" ++ argument ++ ")", kinds⟩

/-- A primitive with a note tells whether it matches. -/
def Matcher.remarks (m : Matcher ι α) (c : ι) : List Remark :=
  match m.note with
  | some n =>
    [⟨n.snippet c, n.operation, [if (m.match? c).isSome then .success else .failure]⟩]
  | none => []

namespace Reading

open Triad.Parser (noArgument)

/-- An error that is demoted. -/
def attemptRemarks (p : Reading ι P α) (c : ι) : List Remark :=
  match p c with
  | .ok (.error _) => [.of "attempt" noArgument [.error, .failure]]
  | _ => []

/-- A failure that is promoted. -/
def escalateRemarks (p : Reading ι P α) (c : ι) : List Remark :=
  match p c with
  | .ok (.failure _) => [.of "escalate" noArgument [.failure, .error]]
  | _ => []

/-- How the part of a label ends. -/
def labelRemarks (name : String) (p : Reading ι P α) (c : ι) : List Remark :=
  match p c with
  | .ok o => [.of "label" (Text.quoteString name) [o.kind]]
  | .error _ => []

/-- A failure of the second part, which is an error. -/
def pairRemarks (p : Reading ι P α) (q : Reading ι P β) (c : ι) : List Remark :=
  match p c with
  | .ok (.success _ rest) =>
    match q rest with
    | .ok (.failure _) => [.of "then" noArgument [.failure, .error]]
    | _ => []
  | _ => []

/-- The alternative that decides, counted from `i`, or how many there are. -/
def choiceRemarks : Nat → List (Reading ι P α) → ι → List Remark
  | i, [], _ => [.of "choice" (toString i) [.failure]]
  | i, p :: ps, c =>
    match p c with
    | .ok (.failure _) => choiceRemarks (i + 1) ps c
    | .ok o => [.of "choice" (toString i) [o.kind]]
    | .error _ => []

/-- A failure after `count` values, which is an error. -/
def sequenceRemarks : Nat → List (Reading ι P α) → ι → List Remark
  | _, [], _ => []
  | count, p :: ps, c =>
    match p c with
    | .ok (.success _ rest) => sequenceRemarks (count + 1) ps rest
    | .ok (.failure _) =>
      if count = 0 then [] else [.of "sequence" (toString count) [.failure, .error]]
    | _ => []

/-- How a repetition ends. -/
def manyRemarks [DecidableEq ι] (rounds min max : Nat) (p : Reading ι P α) (c : ι) : List Remark :=
  match many rounds min max p c with
  | .ok o => [.of "many" ("(" ++ toString min ++ ", " ++ toString max ++ ")") [o.kind]]
  | .error _ => []

end Reading

/-! ## Observations -/

/-- What is seen of runs. -/
structure Observation (ι : Type) (E : Type u) where
  /-- Of the run one sees the list, and that it ends in this way. -/
  Sees : {α : Type} → Run ι α → List E → Except Stop α → Prop
  /-- What is seen of lines. -/
  lines : List Remark → List E
  lines_nil : lines [] = []
  done : ∀ {α : Type} (a : α), Sees (pure a) [] (.ok a)
  stopped : ∀ {α : Type} (stop : Stop), Sees (throw stop : Run ι α) [] (.error stop)
  /-- One run after another.  If the first one stops, the second one does nothing. -/
  next : ∀ {α β : Type} {r : Run ι α} {f : α → Run ι β} {es es' : List E} {x : Except Stop α}
    {y : Except Stop β}, Sees r es x → (∀ a, x = .ok a → Sees (f a) es' y) →
      (∀ stop, x = .error stop → es' = [] ∧ y = .error stop) → Sees (r >>= f) (es ++ es') y
  trace : ∀ remark : Remark, Sees (Run.trace remark.line) (lines [remark]) (.ok ())

namespace Observation

variable {E : Type u} (O : Observation ι E)

/-- A run whose second half shows nothing. -/
theorem map {r : Run ι α} {f : α → Run ι β} {es : List E} {x : Except Stop α} {y : Except Stop β}
    (hr : O.Sees r es x) (hok : ∀ a, x = .ok a → O.Sees (f a) [] y)
    (hstop : ∀ stop, x = .error stop → y = .error stop) : O.Sees (r >>= f) es y := by
  have h := O.next hr hok fun stop hx => ⟨rfl, hstop stop hx⟩
  rwa [List.append_nil] at h

/-- A line, and then an answer. -/
theorem trace_done (remark : Remark) (a : α) :
    O.Sees (Run.trace remark.line >>= fun _ => (pure a : Run ι α)) (O.lines [remark]) (.ok a) :=
  O.map (O.trace remark) (fun _ _ => O.done a) nofun

/-- An answer without a line. -/
theorem done_quiet (a : α) : O.Sees (pure a : Run ι α) (O.lines []) (.ok a) := by
  rw [O.lines_nil]
  exact O.done a

open Triad.Parser

/-- The line of a combinator, and then an answer. -/
theorem note_done (operation argument : String) (kinds : List Kind) (a : α) :
    O.Sees (note operation argument kinds >>= fun _ => (pure a : Run ι α))
      (O.lines [.of operation argument kinds]) (.ok a) :=
  O.trace_done (.of operation argument kinds) a

/-! ## Combinators with one part at most -/

theorem sees_primitive (m : Matcher ι α) (c : ι) :
    O.Sees (primitive (P := P) m c) (O.lines (m.remarks c)) (Reading.primitive m c) := by
  unfold primitive Reading.primitive Matcher.remarks
  cases m.match? c with
  | none =>
    cases m.note with
    | none => exact O.done_quiet _
    | some n => exact O.trace_done ⟨n.snippet c, n.operation, _⟩ _
  | some found =>
    cases m.note with
    | none => exact O.done_quiet _
    | some n => exact O.trace_done ⟨n.snippet c, n.operation, _⟩ _

section One

variable {p : Parser ι P α} {q : Reading ι P α} {c : ι} {es : List E}

theorem sees_attempt (demote : P.Error → P.Failure) (hp : O.Sees (p c) es (q c)) :
    O.Sees (attempt demote p c) (es ++ O.lines (q.attemptRemarks c))
      (Reading.attempt demote q c) := by
  unfold Reading.attempt Reading.attemptRemarks
  refine O.next hp (fun o ho => ?_) fun stop hstop => by rw [hstop]; exact ⟨O.lines_nil, rfl⟩
  rw [ho]
  cases o with
  | error e => exact O.note_done _ _ _ _
  | success a rest => exact O.done_quiet _
  | failure f => exact O.done_quiet _

theorem sees_escalate (promote : P.Failure → P.Error) (hp : O.Sees (p c) es (q c)) :
    O.Sees (escalate promote p c) (es ++ O.lines (q.escalateRemarks c))
      (Reading.escalate promote q c) := by
  unfold Reading.escalate Reading.escalateRemarks
  refine O.next hp (fun o ho => ?_) fun stop hstop => by rw [hstop]; exact ⟨O.lines_nil, rfl⟩
  rw [ho]
  cases o with
  | failure f => exact O.note_done _ _ _ _
  | success a rest => exact O.done_quiet _
  | error e => exact O.done_quiet _

theorem sees_bind (f : α → Except String β) (hp : O.Sees (p c) es (q c)) :
    O.Sees (bind f p c) es (Reading.bind f q c) := by
  unfold Reading.bind
  refine O.map hp (fun o ho => ?_) fun stop hstop => by rw [hstop]
  rw [ho]
  cases o with
  | success a rest =>
    dsimp only
    cases f a with
    | ok b => exact O.done _
    | error message => exact O.stopped _
  | failure f => exact O.done _
  | error e => exact O.done _

theorem sees_mapPayload (onFailure : P.Failure → Q.Failure) (onError : P.Error → Q.Error)
    (hp : O.Sees (p c) es (q c)) :
    O.Sees (mapPayload onFailure onError p c) es (Reading.mapPayload onFailure onError q c) := by
  unfold Reading.mapPayload
  refine O.map hp (fun o ho => ?_) fun stop hstop => by rw [hstop]
  rw [ho]
  cases o <;> exact O.done _

theorem sees_check (f : α → Except P.Error β) (hp : O.Sees (p c) es (q c)) :
    O.Sees (check f p c) es (Reading.check f q c) := by
  unfold Reading.check
  refine O.map hp (fun o ho => ?_) fun stop hstop => by rw [hstop]
  rw [ho]
  cases o with
  | success a rest =>
    dsimp only
    cases f a <;> exact O.done _
  | failure f => exact O.done _
  | error e => exact O.done _

/-- A label, but for the change of the label in force. -/
theorem sees_signed (name : String) (hp : O.Sees (p c) es (q c)) :
    O.Sees (p c >>= fun o => note "label" (Text.quoteString name) [o.kind] >>= fun _ => pure o)
      (es ++ O.lines (q.labelRemarks name c)) (q c) := by
  unfold Reading.labelRemarks
  refine O.next hp (fun o ho => ?_) fun stop hstop => by rw [hstop]; exact ⟨O.lines_nil, rfl⟩
  rw [ho]
  exact O.note_done _ _ _ _

end One

/-! ## Combinators with several parts -/

/-- Of the parser one sees what the part says, at every input. -/
def Follows (p : Parser ι P α) (part : Reading ι P α × (ι → List E)) : Prop :=
  ∀ c, O.Sees (p c) (part.2 c) (part.1 c)

variable {O}
variable {p : Parser ι P α} {part : Reading ι P α × (ι → List E)} {ps : List (Parser ι P α)}
  {parts : List (Reading ι P α × (ι → List E))}

theorem Follows.pair {q : Parser ι P β} {part' : Reading ι P β × (ι → List E)}
    (hp : O.Follows p part) (hq : O.Follows q part') (c : ι) :
    O.Sees (pair p q c) (History.pair part part' c ++ O.lines (part.1.pairRemarks part'.1 c))
      (Reading.pair part.1 part'.1 c) := by
  unfold History.pair Reading.pair Reading.pairRemarks
  rw [List.append_assoc]
  refine O.next (hp c) (fun o ho => ?_) fun stop hstop => by rw [hstop]; exact ⟨O.lines_nil, rfl⟩
  rw [ho]
  cases o with
  | success a rest =>
    dsimp only
    refine O.next (hq rest) (fun o' ho' => ?_) fun stop hstop => by
      rw [hstop]
      exact ⟨O.lines_nil, rfl⟩
    rw [ho']
    cases o' with
    | failure f => exact O.note_done _ _ _ _
    | success b rest' => exact O.done_quiet _
    | error e => exact O.done_quiet _
  | failure f => exact O.done_quiet _
  | error e => exact O.done_quiet _

theorem sees_choiceFrom (hps : List.Forall₂ O.Follows ps parts) (c : ι) (i : Nat) :
    O.Sees (choiceFrom c i ps)
      (History.choice parts c ++ O.lines (Reading.choiceRemarks i (parts.map Prod.fst) c))
      (Reading.choice (parts.map Prod.fst) c) := by
  induction hps generalizing i with
  | nil => exact O.note_done _ _ _ _
  | @cons p part ps parts hp _ ih =>
    rw [History.choice, List.map_cons, Reading.choice, choiceFrom, Reading.choiceRemarks,
      List.append_assoc]
    refine O.next (hp c) (fun o ho => ?_) fun stop hstop => by
      rw [hstop]
      exact ⟨O.lines_nil, rfl⟩
    rw [ho]
    cases o with
    | failure f => exact ih (i + 1)
    | success a rest => exact O.note_done _ _ _ _
    | error e => exact O.note_done _ _ _ _

/-- What a sequence answers after `values`, if its other parts answer `x`. -/
def continued (values : Array α) (x : Except Stop (Outcome P.Failure P.Error ι (List α))) :
    Except Stop (Outcome P.Failure P.Error ι (List α)) :=
  match x with
  | .ok (.success as rest) => .ok (.success (values.toList ++ as) rest)
  | .ok (.failure f) => if values.size = 0 then .ok (.failure f) else .ok (.error P.incomplete)
  | x => x

/-- The accumulator of a sequence only grows, so the values of the parts that
are left are put behind it. -/
theorem sees_sequenceFrom (hps : List.Forall₂ O.Follows ps parts) (values : Array α) (c : ι) :
    O.Sees (sequenceFrom values ps c)
      (History.sequence parts c ++
        O.lines (Reading.sequenceRemarks values.size (parts.map Prod.fst) c))
      (continued values (Reading.sequence (parts.map Prod.fst) c)) := by
  induction hps generalizing values c with
  | nil =>
    rw [sequenceFrom, List.map_nil, Reading.sequence, continued, List.append_nil]
    exact O.done_quiet _
  | @cons p part ps parts hp _ ih =>
    rw [History.sequence, List.map_cons, Reading.sequence, sequenceFrom, Reading.sequenceRemarks,
      List.append_assoc]
    simp only [Reading.map, Reading.bind, Reading.pair]
    refine O.next (hp c) (fun o ho => ?_) fun stop hstop => by
      rw [hstop]
      exact ⟨O.lines_nil, rfl⟩
    rw [ho]
    cases o with
    | success a rest =>
      have hrest := ih (values.push a) rest
      rw [Array.size_push] at hrest
      dsimp only
      cases hx : Reading.sequence (parts.map Prod.fst) rest with
      | error stop => rw [hx] at hrest; exact hrest
      | ok o =>
        rw [hx] at hrest
        cases o with
        | success as rest' => simpa [continued] using hrest
        | failure f => simpa [continued] using hrest
        | error e => exact hrest
    | failure f =>
      simp only [continued, Array.isEmpty_iff_size_eq_zero, List.nil_append]
      split
      · exact O.done_quiet _
      · exact O.note_done _ _ _ _
    | error e => exact O.done_quiet _

theorem Follows.sequence (hps : List.Forall₂ O.Follows ps parts) (c : ι) :
    O.Sees (sequence ps c)
      (History.sequence parts c ++ O.lines (Reading.sequenceRemarks 0 (parts.map Prod.fst) c))
      (Reading.sequence (parts.map Prod.fst) c) := by
  have h := sees_sequenceFrom hps #[] c
  have hempty : continued #[] (Reading.sequence (parts.map Prod.fst) c) =
      Reading.sequence (parts.map Prod.fst) c := by
    unfold continued
    split <;> simp_all
  rwa [hempty] at h

/-- The values collected so far, in front of those still to be collected. -/
def gathered (values : Array α) (x : Except Stop (Except P.Error (List α × ι))) :
    Except Stop (Except P.Error (Array α × ι)) :=
  x.map (Except.map fun (as, rest) => ((values.toList ++ as).toArray, rest))

theorem sees_collect [DecidableEq ι] (hp : O.Follows p part) (max rounds : Nat) (values : Array α)
    (c : ι) :
    O.Sees (collect max p rounds values c) (History.collect max part rounds values.size c)
      (gathered values (Reading.collect max part.1 rounds values.size c)) := by
  induction rounds generalizing values c with
  | zero =>
    unfold collect History.collect Reading.collect
    by_cases hmax : max ≤ values.size
    · simpa [hmax, gathered, Except.map] using O.done _
    · simpa [hmax, gathered, Except.map] using O.stopped _
  | succ rounds ih =>
    unfold collect History.collect Reading.collect
    by_cases hmax : max ≤ values.size
    · simpa [hmax, gathered, Except.map] using O.done _
    · simp only [hmax, if_false]
      refine O.next (hp c) (fun o ho => ?_) fun stop hstop => by rw [hstop]; exact ⟨rfl, rfl⟩
      rw [ho]
      cases o with
      | success a rest =>
        dsimp only
        by_cases hstall : rest = c
        · have hpush : values.push a = (values.toList ++ [a]).toArray := by
            rw [← Array.toList_push, Array.toArray_toList]
          simp only [hstall, if_true, gathered, Except.map, hpush]
          exact O.done _
        · simp only [hstall, if_false]
          have hrest := ih (values.push a) rest
          rw [Array.size_push] at hrest
          cases hx : Reading.collect max part.1 rounds (values.size + 1) rest with
          | error stop => rw [hx] at hrest; exact hrest
          | ok y =>
            rw [hx] at hrest
            cases y with
            | error e => exact hrest
            | ok found => simpa [gathered, Except.map] using hrest
      | failure f => simpa [gathered, Except.map] using O.done _
      | error e => exact O.done _

theorem settle_toArray (min : Nat) (as : List α) (rest : ι) :
    settle (P := P) min as.toArray rest = Reading.settle min as rest := by
  simp [settle, Reading.settle, List.isEmpty_iff]

theorem Follows.many [DecidableEq ι] (hp : O.Follows p part) (rounds min max : Nat) (c : ι) :
    O.Sees (many rounds min max p c)
      (History.collect max part rounds 0 c ++ O.lines (part.1.manyRemarks rounds min max c))
      (Reading.many rounds min max part.1 c) := by
  have hcollect := sees_collect hp max rounds #[] c
  rw [Array.size_empty] at hcollect
  unfold Parser.many Reading.manyRemarks Reading.many
  cases hx : Reading.collect max part.1 rounds 0 c with
  | error stop =>
    rw [hx] at hcollect
    exact O.next hcollect nofun fun stop' hstop => by cases hstop; exact ⟨O.lines_nil, rfl⟩
  | ok y =>
    rw [hx] at hcollect
    refine O.next hcollect (fun y' hy' => ?_) nofun
    cases y with
    | error e =>
      obtain rfl : Except.error e = y' := by simpa [gathered, Except.map] using hy'
      exact O.note_done _ _ _ _
    | ok found =>
      obtain rfl : Except.ok (found.1.toArray, found.2) = y' := by
        simpa [gathered, Except.map] using hy'
      dsimp only
      rw [← settle_toArray]
      exact O.note_done _ _ _ _

end Observation

end Triad
