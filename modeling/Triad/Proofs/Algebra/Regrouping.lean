import Triad.ParseError
import Triad.Parser.Composition
import Triad.Parser.Text
import Triad.Proofs.Algebra.Silent

/-!
# Regrouping a sequence

Where a failure is kept and where it becomes an error depends on whether
something has been matched before it, and not on how the parts are grouped.
So a sequence may be split into two, a pair is a sequence of two parts, and
pairs may be nested to the left or to the right (`Parser.sequence_regroups`).
The first group must not be empty: it would succeed without a match, and a
failure after it would be an error.

A part of the sequence after the first one commits to what has been matched.
What becomes of its outcome is `Outcome.committed`.
-/

namespace Triad

variable {ι : Type} {P : Payloads} {α β γ : Type}

/-! ## Outcomes -/

namespace Outcome

/-- Maps the value of a success. -/
def map {φ ε : Type} (f : α → β) : Outcome φ ε ι α → Outcome φ ε ι β
  | .success a rest => .success (f a) rest
  | .failure e => .failure e
  | .error e => .error e

/-- The outcome of a part that comes after others: a failure is an error. -/
def committed (f : α → β) :
    Outcome P.Failure P.Error ι α → Outcome P.Failure P.Error ι β
  | .success a rest => .success (f a) rest
  | .failure _ => .error P.incomplete
  | .error e => .error e

variable {o : Outcome P.Failure P.Error ι α}

theorem map_committed (f : α → β) (g : β → γ) : (o.committed f).map g = o.committed (g ∘ f) := by
  cases o <;> rfl

theorem committed_map (f : α → β) (g : β → γ) : (o.map f).committed g = o.committed (g ∘ f) := by
  cases o <;> rfl

theorem committed_committed (f : α → β) (g : β → γ) :
    (o.committed f).committed g = o.committed (g ∘ f) := by
  cases o <;> rfl

end Outcome

namespace Run

/-- Goes on after a success. -/
def andThen (r : Run ι (Outcome P.Failure P.Error ι α))
    (f : α → ι → Run ι (Outcome P.Failure P.Error ι β)) :
    Run ι (Outcome P.Failure P.Error ι β) := do
  match ← r with
  | .success a rest => f a rest
  | .failure e => pure (.failure e)
  | .error e => pure (.error e)

variable {r : Run ι (Outcome P.Failure P.Error ι α)}
  {f f' : α → ι → Run ι (Outcome P.Failure P.Error ι β)}

theorem andThen_pure : (r.andThen fun a rest => pure (.success a rest)) = r := by
  refine Eq.trans (bind_congr fun o => ?_) (bind_pure r)
  cases o <;> rfl

theorem map_andThen (g : β → γ) :
    Outcome.map g <$> r.andThen f = r.andThen fun a rest => Outcome.map g <$> f a rest := by
  unfold andThen
  rw [map_bind]
  refine bind_congr fun o => ?_
  cases o <;> rfl

theorem committed_andThen (g : β → γ) :
    Outcome.committed g <$> r.andThen f =
      (Outcome.committed id <$> r).andThen fun a rest => Outcome.committed g <$> f a rest := by
  unfold andThen
  rw [map_bind, bind_map_left]
  refine bind_congr fun o => ?_
  cases o <;> rfl

theorem andThen_committed (g : α → γ) (f : γ → ι → Run ι (Outcome P.Failure P.Error ι β)) :
    (Outcome.committed g <$> r).andThen f =
      (Outcome.committed id <$> r).andThen fun a rest => f (g a) rest := by
  unfold andThen
  rw [bind_map_left, bind_map_left]
  refine bind_congr fun o => ?_
  cases o <;> rfl

theorem andThen_map (g : α → γ) (f : γ → ι → Run ι (Outcome P.Failure P.Error ι β)) :
    (Outcome.map g <$> r).andThen f = r.andThen fun a rest => f (g a) rest := by
  unfold andThen
  rw [bind_map_left]
  refine bind_congr fun o => ?_
  cases o <;> rfl

theorem silent_andThen_congr
    (h : ∀ a rest s t, r s = .ok (.success a rest) t → (f a rest).silent = (f' a rest).silent) :
    (r.andThen f).silent = (r.andThen f').silent := by
  refine silent_bind_congr fun o s t hr => ?_
  cases o with
  | success a rest => exact h a rest s t hr
  | failure e => rfl
  | error e => rfl

end Run

namespace Parser

/-! ## Combinators as runs -/

theorem map_apply (f : α → β) (p : Parser ι P α) (c : ι) :
    map f p c = Outcome.map f <$> p c := by
  rw [← bind_pure_comp]
  refine bind_congr fun o => ?_
  cases o with
  | success a rest => rfl
  | failure e => rfl
  | error e => rfl

/-- The second part of a pair runs after the first one has matched.  Nothing
else runs in between, nor between the parts and what comes after them. -/
theorem silent_pair_andThen (p : Parser ι P α) (q : Parser ι P β) (c : ι)
    (f : α × β → ι → Run ι (Outcome P.Failure P.Error ι γ)) :
    ((pair p q c).andThen f).silent =
      ((p c).andThen fun a rest => (Outcome.committed (a, ·) <$> q rest).andThen f).silent := by
  unfold pair Run.andThen
  rw [bind_assoc]
  refine Run.silent_bind_congr fun o _ _ _ => ?_
  cases o with
  | failure e => rfl
  | error e => rfl
  | success a rest =>
    dsimp only
    rw [bind_assoc, ← bind_pure_comp, bind_assoc]
    refine Run.silent_bind_congr fun o _ _ _ => ?_
    cases o with
    | success b rest => rfl
    | error e => rfl
    | failure e =>
      dsimp only
      rw [bind_assoc]
      exact silent_note_pure _ _ _ _

theorem silent_pair (p : Parser ι P α) (q : Parser ι P β) (c : ι) :
    (pair p q c).silent =
      ((p c).andThen fun a rest => Outcome.committed (a, ·) <$> q rest).silent := by
  have h := silent_pair_andThen p q c fun v rest => pure (.success v rest)
  simp only [Run.andThen_pure] at h
  exact h

/-- A pair whose values are put together. -/
theorem silent_map_pair (f : α × β → γ) (p : Parser ι P α) (q : Parser ι P β) (c : ι) :
    (map f (pair p q) c).silent =
      ((p c).andThen fun a rest => Outcome.committed (fun b => f (a, b)) <$> q rest).silent := by
  rw [map_apply, Run.silent_map, silent_pair, ← Run.silent_map, Run.map_andThen]
  simp only [← comp_map, Function.comp_def, Outcome.map_committed]

/-! ## Sequences -/

/-- A sequence is its first parts and then the others. -/
theorem sequenceFrom_append (values : Array α) (ps qs : List (Parser ι P α)) (c : ι) :
    sequenceFrom values (ps ++ qs) c =
      (sequenceFrom values ps c).andThen fun matched rest =>
        sequenceFrom matched.toArray qs rest := by
  induction ps generalizing values c with
  | nil =>
    show sequenceFrom values qs c = sequenceFrom values.toList.toArray qs c
    rw [Array.toArray_toList]
  | cons p ps ih =>
    unfold Run.andThen
    rw [List.cons_append, sequenceFrom, sequenceFrom, bind_assoc]
    refine bind_congr fun o => ?_
    cases o with
    | success a rest => exact ih (values.push a) rest
    | error e => rfl
    | failure e =>
      dsimp only
      split
      next => rfl
      next => rw [bind_assoc]; rfl

/-- What has been matched before the parts of a sequence goes in front of their
values. -/
theorem silent_sequenceFrom_append_left {before : Array α} (h : before ≠ #[]) (values : Array α)
    (ps : List (Parser ι P α)) (c : ι) :
    (sequenceFrom (before ++ values) ps c).silent =
      (Outcome.committed (before.toList ++ ·) <$> sequenceFrom values ps c).silent := by
  induction ps generalizing values c with
  | nil =>
    show (pure _ : Run ι (Outcome P.Failure P.Error ι (List α))).silent = (pure _ : Run ι _).silent
    rw [Array.toList_append]
    rfl
  | cons p ps ih =>
    rw [sequenceFrom, sequenceFrom, map_bind]
    refine Run.silent_bind_congr fun o _ _ _ => ?_
    cases o with
    | success a rest =>
      dsimp only
      rw [← Array.append_push]
      exact ih (values.push a) rest
    | error e => rfl
    | failure e =>
      have hbefore : ¬ (before ++ values).isEmpty := by simp [h]
      dsimp only
      rw [if_neg hbefore, silent_note_pure]
      split
      next => rfl
      next =>
        rw [map_bind]
        exact (silent_note_pure _ _ _ _).symm

theorem length_of_sequenceFrom {values : Array α} {ps : List (Parser ι P α)} {c rest : ι}
    {matched : List α} {s t : Session ι}
    (h : sequenceFrom values ps c s = .ok (.success matched rest) t) :
    matched.length = values.size + ps.length := by
  induction ps generalizing values c s with
  | nil =>
    obtain ⟨ho, -⟩ := EStateM.Result.ok.inj h
    obtain ⟨rfl, -⟩ := Outcome.success.inj ho
    rw [Array.length_toList, List.length_nil, Nat.add_zero]
  | cons p ps ih =>
    rw [sequenceFrom] at h
    cases hcall : p c s with
    | error stop t' =>
      rw [Run.bind_of_stop hcall] at h
      cases h
    | ok o t' =>
      rw [Run.bind_of_ok hcall] at h
      cases o with
      | error e => cases h
      | success a rest' =>
        rw [ih h, Array.size_push, List.length_cons]
        omega
      | failure f =>
        dsimp only at h
        split at h
        next => cases h
        next =>
          obtain ⟨_, hpure, -⟩ := Run.ok_of_silent (silent_note_pure _ _ _ _) h
          cases hpure

theorem sequence_singleton (p : Parser ι P α) : sequence [p] = map (fun a => [a]) p := by
  funext c
  rw [map_apply, sequence, sequenceFrom, ← bind_pure_comp]
  refine bind_congr fun o => ?_
  cases o <;> rfl

/-! ## Regrouping -/

/-- On every input the parsers answer the same or stop for the same reason, and
the sessions that they leave are the same but for trace lines.  So taps around
any parts of them tell of the same calls. -/
def SameButTrace (p q : Parser ι P α) : Prop := ∀ c, (p c).silent = (q c).silent

theorem sequence_append {ps : List (Parser ι P α)} (h : ps ≠ []) (qs : List (Parser ι P α)) :
    SameButTrace (sequence (ps ++ qs))
      (map (fun v => v.1 ++ v.2) (pair (sequence ps) (sequence qs))) := by
  intro c
  have hnonempty {matched : List α} {rest : ι} {s t : Session ι}
      (hps : sequence ps c s = .ok (.success matched rest) t) : matched.toArray ≠ #[] := by
    intro hempty
    have hlength : matched.length = 0 + ps.length := length_of_sequenceFrom hps
    have hzero : matched.length = 0 := congrArg Array.size hempty
    have hpos := List.length_pos_iff.2 h
    omega
  calc (sequence (ps ++ qs) c).silent
    _ = ((sequence ps c).andThen fun matched rest =>
          sequenceFrom matched.toArray qs rest).silent :=
        congrArg Run.silent (sequenceFrom_append #[] ps qs c)
    _ = ((sequence ps c).andThen fun matched rest =>
          Outcome.committed (matched ++ ·) <$> sequence qs rest).silent :=
        Run.silent_andThen_congr fun matched rest _ _ hps =>
          silent_sequenceFrom_append_left (hnonempty hps) #[] qs rest
    _ = (map (fun v => v.1 ++ v.2) (pair (sequence ps) (sequence qs)) c).silent :=
        (silent_map_pair (fun v => v.1 ++ v.2) (sequence ps) (sequence qs) c).symm

theorem pair_eq_sequence (p q : Parser ι P α) :
    SameButTrace (map (fun v => [v.1, v.2]) (pair p q)) (sequence [p, q]) := by
  intro c
  calc (map (fun v => [v.1, v.2]) (pair p q) c).silent
    _ = ((p c).andThen fun a rest => Outcome.committed (fun b => [a, b]) <$> q rest).silent :=
        silent_map_pair (fun v => [v.1, v.2]) p q c
    _ = (map (fun v => v.1 ++ v.2) (pair (sequence [p]) (sequence [q])) c).silent := by
        rw [silent_map_pair, sequence_singleton, sequence_singleton, map_apply, Run.andThen_map]
        simp only [map_apply, ← comp_map, Function.comp_def, Outcome.committed_map,
          List.singleton_append]
    _ = (sequence [p, q] c).silent := (sequence_append (List.cons_ne_nil p []) [q] c).symm

theorem pair_assoc (p : Parser ι P α) (q : Parser ι P β) (r : Parser ι P γ) :
    SameButTrace (map (fun v => (v.1.1, v.1.2, v.2)) (pair (pair p q) r)) (pair p (pair q r)) := by
  intro c
  calc (map (fun v => (v.1.1, v.1.2, v.2)) (pair (pair p q) r) c).silent
    _ = ((pair p q c).andThen fun v rest =>
          Outcome.committed (fun b => (v.1, v.2, b)) <$> r rest).silent :=
        silent_map_pair (fun v => (v.1.1, v.1.2, v.2)) (pair p q) r c
    _ = ((p c).andThen fun a rest => (Outcome.committed (a, ·) <$> q rest).andThen fun v rest =>
          Outcome.committed (fun b => (v.1, v.2, b)) <$> r rest).silent :=
        silent_pair_andThen p q c _
    _ = ((p c).andThen fun a rest => (Outcome.committed id <$> q rest).andThen fun b rest =>
          Outcome.committed (fun d => (a, b, d)) <$> r rest).silent :=
        Run.silent_andThen_congr fun a rest _ _ _ =>
          congrArg Run.silent (Run.andThen_committed (a, ·) _)
    _ = ((p c).andThen fun a rest => Outcome.committed (a, ·) <$> pair q r rest).silent :=
        Run.silent_andThen_congr fun a rest _ _ _ => by
          rw [Run.silent_map, silent_pair, ← Run.silent_map, Run.committed_andThen]
          simp only [← comp_map, Function.comp_def, Outcome.committed_committed]
    _ = (pair p (pair q r) c).silent := (silent_pair p (pair q r) c).symm

/-- A sequence may be regrouped.

* A sequence is the pair of its two halves, with their values put together, if
  the first half is not empty.
* A pair is a sequence of two parts.
* Of three parts, the first two may be paired first, or the last two.

The parts are any parsers, so there may be a tap around each of them: they are
called on the same inputs in the same order. -/
theorem sequence_regroups (ps qs : List (Parser ι P α)) (a b : Parser ι P α) (p : Parser ι P α)
    (q : Parser ι P β) (r : Parser ι P γ) :
    (ps ≠ [] → SameButTrace (sequence (ps ++ qs))
      (map (fun v => v.1 ++ v.2) (pair (sequence ps) (sequence qs)))) ∧
    SameButTrace (map (fun v => [v.1, v.2]) (pair a b)) (sequence [a, b]) ∧
    SameButTrace (map (fun v => (v.1.1, v.1.2, v.2)) (pair (pair p q) r)) (pair p (pair q r)) :=
  ⟨fun h => sequence_append h qs, pair_eq_sequence a b, pair_assoc p q r⟩

/-- A part that is missing after the first group is an error in both groupings,
after the same calls. -/
theorem sequence_regroups_in_word :
    let letter (x : Char) : Parser TextCursor ParseError.payloads (List Char) :=
      tap (String.singleton x) (primitive (.word [x]))
    let s := Session.fresh false
    let input := ['a', 'b', 'd']
    let place : Nat → TextCursor := fun i => ⟨i, input.drop i, input⟩
    ∃ t, map (fun v => v.1 ++ v.2) (pair (sequence [letter 'a'])
        (sequence [letter 'b', letter 'c'])) (place 0) s = .ok (.error .incomplete) t ∧
      t.taps = [.enter "a" (place 0), .leave "a" .success, .enter "b" (place 1),
        .leave "b" .success, .enter "c" (place 2), .leave "c" .failure] := by
  intro letter s input place
  let log : List (Entry TextCursor) := [.enter "a" (place 0), .leave "a" .success,
    .enter "b" (place 1), .leave "b" .success, .enter "c" (place 2), .leave "c" .failure]
  have hrun : sequence ([letter 'a'] ++ [letter 'b', letter 'c']) (place 0) s =
      .ok (.error .incomplete) ⟨false, "", [], log.toArray⟩ := rfl
  have hsame := (sequence_regroups [letter 'a'] [letter 'b', letter 'c'] (letter 'a') (letter 'b')
    (letter 'a') (letter 'b') (letter 'c')).1 (List.cons_ne_nil _ _) (place 0)
  obtain ⟨t, ht, hsilent⟩ := Run.ok_of_silent hsame hrun
  refine ⟨t, ht, ?_⟩
  rw [← Session.taps_silent, hsilent]
  rfl

/-- Behind an empty group a failure is an error, so nothing may be split off in
front of the first part. -/
example :
    let miss : Parser TextCursor ParseError.payloads Unit := fail ParseError.noMatch
    let split := map (fun v => v.1 ++ v.2) (pair (sequence []) (sequence [miss]))
    let s := Session.fresh false
    sequence [miss] (Cursor.start []) s = .ok (.failure ParseError.noMatch) s ∧
      (split (Cursor.start [])).result s = .ok (.error ParseError.incomplete) := ⟨rfl, rfl⟩

end Parser

end Triad
