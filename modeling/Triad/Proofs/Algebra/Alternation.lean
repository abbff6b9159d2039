import Triad.ParseError
import Triad.Parser.Text
import Triad.Proofs.Algebra.Regrouping
import Triad.Proofs.Algebra.Untraced

/-!
# Choices among choices

A choice gives up an alternative that fails, and with it the payload of the
failure.  So it does not matter whether a failed alternative was a choice
itself: in a list of alternatives, each one that is a choice may be replaced by
its own alternatives (`Parser.choice_flattens`).

* `Parser.tryAll` is a choice without its line.  Trying two lists, one behind
  the other, is trying all of them (`Parser.tryAll_append`); this is where the
  payload of an inner failure is lost.
* `Parser.Tried` says which alternatives are called: all of them on the same
  input, up to and including the first one that does not fail.

An inner choice that fails writes a line, and then the other alternatives run.
That is why they have to ignore the trace.
-/

namespace Triad

variable {ι : Type} {P : Payloads} {α : Type}

namespace Run

/-- Goes on with another run after a failure. -/
def orElse (r r' : Run ι (Outcome P.Failure P.Error ι α)) :
    Run ι (Outcome P.Failure P.Error ι α) := do
  match ← r with
  | .failure _ => r'
  | o => pure o

variable {r r' r₁ r₁' : Run ι (Outcome P.Failure P.Error ι α)}

theorem orElse_assoc (r r' r'' : Run ι (Outcome P.Failure P.Error ι α)) :
    (r.orElse r').orElse r'' = r.orElse (r'.orElse r'') := by
  unfold orElse
  rw [bind_assoc]
  refine bind_congr fun o => ?_
  cases o <;> rfl

theorem silent_orElse (h : r.silent = r₁.silent) (h' : r'.silent = r₁'.silent)
    (hignores : r'.IgnoresTrace) : (r.orElse r').silent = (r₁.orElse r₁').silent := by
  apply silent_bind h
  · intro o
    cases o with
    | failure f => exact h'
    | success a rest | error e => rfl
  · intro o
    cases o with
    | failure f => exact hignores
    | success a rest | error e => exact ignoresTrace_pure _

end Run

namespace Parser

/-! ## Trying alternatives -/

/-- The alternatives on the input `c`, one after the other, while they fail. -/
def tryAll (c : ι) : List (Parser ι P α) → Run ι (Outcome P.Failure P.Error ι α)
  | [] => pure (.failure P.noMatch)
  | p :: ps => (p c).orElse (tryAll c ps)

/-- The alternatives are called on `c` in turn, up to and including the first
one that does not fail, which gives the outcome.  The sessions are those before
the first call and after the last one. -/
inductive Tried (c : ι) : List (Parser ι P α) → Session ι →
    Outcome P.Failure P.Error ι α → Session ι → Prop
  | exhausted {s : Session ι} : Tried c [] s (.failure P.noMatch) s
  | failed {p : Parser ι P α} {ps : List (Parser ι P α)} {s s' t : Session ι} {f : P.Failure}
    {o : Outcome P.Failure P.Error ι α} (hcall : p c s = .ok (.failure f) s')
    (hrest : Tried c ps s' o t) : Tried c (p :: ps) s o t
  | decided {p : Parser ι P α} {ps : List (Parser ι P α)} {s t : Session ι}
    {o : Outcome P.Failure P.Error ι α} (hcall : p c s = .ok o t) (ho : o.kind ≠ .failure) :
    Tried c (p :: ps) s o t

variable {ps qs : List (Parser ι P α)} {c : ι} {s t : Session ι}
  {o : Outcome P.Failure P.Error ι α}

theorem tried_of_tryAll (h : tryAll c ps s = .ok o t) : Tried c ps s o t := by
  induction ps generalizing s with
  | nil =>
    obtain ⟨rfl, rfl⟩ := EStateM.Result.ok.inj h
    exact .exhausted
  | cons p ps ih =>
    unfold tryAll Run.orElse at h
    cases hcall : p c s with
    | error stop s' => rw [Run.bind_of_stop hcall] at h; cases h
    | ok o' s' =>
      rw [Run.bind_of_ok hcall] at h
      cases o' with
      | failure f => exact .failed hcall (ih h)
      | success a rest =>
        obtain ⟨rfl, rfl⟩ := EStateM.Result.ok.inj h
        exact .decided hcall nofun
      | error e =>
        obtain ⟨rfl, rfl⟩ := EStateM.Result.ok.inj h
        exact .decided hcall nofun

/-- The failure of the first list is forgotten when the second one is tried. -/
theorem tryAll_append (c : ι) (ps qs : List (Parser ι P α)) :
    tryAll c (ps ++ qs) = (tryAll c ps).orElse (tryAll c qs) := by
  induction ps with
  | nil => rfl
  | cons p ps ih =>
    calc tryAll c (p :: ps ++ qs)
      _ = (p c).orElse ((tryAll c ps).orElse (tryAll c qs)) := by rw [← ih]; rfl
      _ = (tryAll c (p :: ps)).orElse (tryAll c qs) := (Run.orElse_assoc _ _ _).symm

theorem ignoresTrace_tryAll (hps : ∀ p ∈ ps, p.IgnoresTrace) (c : ι) :
    (tryAll c ps).IgnoresTrace := by
  induction ps with
  | nil => exact Run.ignoresTrace_pure _
  | cons p ps ih =>
    refine (hps p List.mem_cons_self c).bind fun o => ?_
    cases o with
    | failure f => exact ih fun q hq => hps q (List.mem_cons_of_mem _ hq)
    | success a rest | error e => exact Run.ignoresTrace_pure _

/-- A choice only adds a line. -/
theorem silent_choice (ps : List (Parser ι P α)) (c : ι) :
    (choice ps c).silent = (tryAll c ps).silent := by
  have hfrom : ∀ i, (choiceFrom c i ps).silent = (tryAll c ps).silent := by
    induction ps with
    | nil => exact fun i => silent_note_pure _ _ _ _
    | cons p ps ih =>
      intro i
      apply Run.silent_bind_congr
      intro o _ _ _
      cases o with
      | failure f => exact ih (i + 1)
      | success a rest | error e => exact silent_note_pure _ _ _ _
  exact hfrom 0

end Parser

/-! ## Alternatives that are choices themselves -/

/-- A list of alternatives.  Each is a parser or again a choice among
alternatives, of which there may be none. -/
inductive Alternatives (ι : Type) (P : Payloads) (α : Type) where
  | nil
  | parser (p : Parser ι P α) (rest : Alternatives ι P α)
  | choice (inner rest : Alternatives ι P α)

namespace Alternatives

/-- The alternatives as parsers, with those that are choices as choices. -/
def parsers : Alternatives ι P α → List (Parser ι P α)
  | nil => []
  | parser p rest => p :: rest.parsers
  | choice inner rest => Parser.choice inner.parsers :: rest.parsers

/-- The alternatives that are no choices, at any depth and from left to right. -/
def leaves : Alternatives ι P α → List (Parser ι P α)
  | nil => []
  | parser p rest => p :: rest.leaves
  | choice inner rest => inner.leaves ++ rest.leaves

theorem ignoresTrace_parsers {ts : Alternatives ι P α} (h : ∀ p ∈ ts.leaves, p.IgnoresTrace) :
    ∀ p ∈ ts.parsers, p.IgnoresTrace := by
  induction ts with
  | nil => exact h
  | parser p rest ih =>
    obtain ⟨hp, hrest⟩ := List.forall_mem_cons.1 h
    exact List.forall_mem_cons.2 ⟨hp, ih hrest⟩
  | choice inner rest ihinner ihrest =>
    obtain ⟨hinner, hrest⟩ := List.forall_mem_append.1 h
    exact List.forall_mem_cons.2 ⟨.choice (ihinner hinner), ihrest hrest⟩

/-- Trying the alternatives, choices and all, is trying the leaves. -/
theorem silent_tryAll {ts : Alternatives ι P α} (h : ∀ p ∈ ts.leaves, p.IgnoresTrace) (c : ι) :
    (Parser.tryAll c ts.parsers).silent = (Parser.tryAll c ts.leaves).silent := by
  induction ts with
  | nil => rfl
  | parser p rest ih =>
    obtain ⟨-, hrest⟩ := List.forall_mem_cons.1 h
    exact Run.silent_orElse rfl (ih hrest)
      (Parser.ignoresTrace_tryAll (ignoresTrace_parsers hrest) c)
  | choice inner rest ihinner ihrest =>
    obtain ⟨hinner, hrest⟩ := List.forall_mem_append.1 h
    have hchoice : (Parser.choice inner.parsers c).silent = (Parser.tryAll c inner.leaves).silent :=
      (Parser.silent_choice inner.parsers c).trans (ihinner hinner)
    show _ = (Parser.tryAll c (inner.leaves ++ rest.leaves)).silent
    rw [Parser.tryAll_append]
    exact Run.silent_orElse hchoice (ihrest hrest)
      (Parser.ignoresTrace_tryAll (ignoresTrace_parsers hrest) c)

end Alternatives

namespace Parser

/-- Nested choices may be flattened.

* A choice among alternatives that may be choices themselves, at any depth, is
  the choice among the leaves.  The two answer the same, with the same payload,
  and they leave sessions that are the same but for trace lines, so that taps
  around any of the leaves tell of the same calls.
* The leaves that are called are called on the input of the choice, from left to
  right, up to and including the first one that does not fail.

The leaves may be any parsers that ignore the trace, and what is built from a
grammar does. -/
theorem choice_flattens [DecidableEq ι] (ts : Alternatives ι P α) :
    ((∀ p ∈ ts.leaves, p.IgnoresTrace) →
      SameButTrace (choice ts.parsers) (choice ts.leaves) ∧
      ∀ c s o t, choice ts.parsers c s = .ok o t →
        ∃ t', Tried c ts.leaves s o t' ∧ t'.silent = t.silent) ∧
    ∀ {N : Payloads → Type → Type} (rules : Rules ι N) (limits : Limits) (g : Grammar ι N P α),
      (g.parse rules limits).IgnoresTrace := by
  refine ⟨fun h => ?_, Grammar.parse_ignoresTrace⟩
  have htried (c : ι) : (choice ts.parsers c).silent = (tryAll c ts.leaves).silent :=
    (silent_choice ts.parsers c).trans (Alternatives.silent_tryAll h c)
  constructor
  · intro c
    exact (htried c).trans (silent_choice ts.leaves c).symm
  · intro c s o t hchoice
    obtain ⟨t', hall, hsilent⟩ := Run.ok_of_silent (htried c) hchoice
    exact ⟨t', tried_of_tryAll hall, hsilent⟩

/-- Of four letters under choices, the third one is there.  The fourth one is not
tried, and a choice without alternatives is passed over. -/
theorem choice_flattens_of_letters :
    let letter (x : Char) : Parser TextCursor ParseError.payloads Char :=
      tap (String.singleton x) (primitive (.element (· = x)))
    let two : Alternatives TextCursor ParseError.payloads Char :=
      .parser (letter 'a') (.choice (.parser (letter 'b') .nil) .nil)
    let four := Alternatives.choice .nil
      (.choice two (.parser (letter 'c') (.parser (letter 'd') .nil)))
    let c := Cursor.start ['c', 'd']
    (∀ p ∈ four.leaves, p.IgnoresTrace) ∧
      ∃ t, choice four.parsers c (Session.fresh true) =
          .ok (.success 'c' ⟨1, ['d'], ['c', 'd']⟩) t ∧
        t.taps = [.enter "a" c, .leave "a" .failure, .enter "b" c, .leave "b" .failure,
          .enter "c" c, .leave "c" .success] := by
  intro letter two four c
  have hletter (x : Char) : (letter x).IgnoresTrace := (ignoresTrace_primitive _).tap _
  have hleaves : ∀ p ∈ four.leaves, p.IgnoresTrace := by
    show ∀ p ∈ [letter 'a', letter 'b', letter 'c', letter 'd'], p.IgnoresTrace
    intro p hp
    obtain ⟨x, -, rfl⟩ := List.mem_map.1 (show p ∈ ['a', 'b', 'c', 'd'].map letter from hp)
    exact hletter x
  obtain ⟨hsame, -⟩ := (choice_flattens four).1 hleaves
  let log : List (Entry TextCursor) := [.enter "a" c, .leave "a" .failure, .enter "b" c,
    .leave "b" .failure, .enter "c" c, .leave "c" .success,
    .line ⟨"", "", "choice(2)", [.success]⟩]
  have hflat : choice four.leaves c (Session.fresh true) =
      .ok (.success 'c' ⟨1, ['d'], ['c', 'd']⟩) ⟨true, "", [], log.toArray⟩ := rfl
  obtain ⟨t, ht, hsilent⟩ := Run.ok_of_silent (hsame c).symm hflat
  refine ⟨hleaves, t, ht, ?_⟩
  rw [← Session.taps_silent, hsilent]
  rfl

/-- A choice of one parser is not that parser: the payload of a failure is lost. -/
example :
    let miss : Parser TextCursor ParseError.payloads Unit := fail (.fatal "miss")
    let s := Session.fresh false
    (choice [miss] (Cursor.start [])).result s = .ok (.failure .noMatch) ∧
      (miss (Cursor.start [])).result s = .ok (.failure (.fatal "miss")) := ⟨rfl, rfl⟩

end Parser

end Triad
