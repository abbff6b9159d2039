import Triad.Parser.Repetition
import Triad.Proofs.Algebra.Regrouping

/-!
# Values that are mapped

A combinator hands the values of its parts on and does not look at them.  So it
is the same whether the values are mapped where they come from, or afterwards
where they have been put together (`Parser.mapping_commutes`).  This includes
the loop of a repetition: when it stops depends on the number of values and on
the inputs, never on a value.

The statements are equations between parsers, in which nothing is left out: on
every input and from every session the two runs end alike and leave the same
session.
-/

namespace Triad.Parser

variable {ι : Type} {P : Payloads} {α β γ δ : Type} (f : α → β)

/-! ## Pairs, choices and sequences -/

theorem pair_map (g : γ → δ) (p : Parser ι P α) (q : Parser ι P γ) :
    pair (map f p) (map g q) = map (Prod.map f g) (pair p q) := by
  funext c
  rw [map_apply, pair, pair, map_apply, bind_map_left, map_bind]
  refine bind_congr fun o => ?_
  cases o with
  | failure e | error e => rfl
  | success a rest =>
    dsimp only [Outcome.map]
    rw [map_apply, bind_map_left, map_bind]
    refine bind_congr fun o => ?_
    cases o with
    | success b rest | error e => rfl
    | failure e =>
      dsimp only [Outcome.map]
      rw [map_bind]
      rfl

theorem choiceFrom_map (c : ι) (i : Nat) (ps : List (Parser ι P α)) :
    choiceFrom c i (ps.map (map f)) = Outcome.map f <$> choiceFrom c i ps := by
  induction ps generalizing i with
  | nil =>
    rw [List.map_nil, choiceFrom, choiceFrom, map_bind]
    rfl
  | cons p ps ih =>
    rw [List.map_cons, choiceFrom, choiceFrom, map_apply, bind_map_left, map_bind]
    refine bind_congr fun o => ?_
    cases o with
    | failure e => exact ih (i + 1)
    | success a rest | error e =>
      dsimp only [Outcome.map]
      rw [map_bind]
      rfl

theorem choice_map (ps : List (Parser ι P α)) : choice (ps.map (map f)) = map f (choice ps) := by
  funext c
  rw [map_apply]
  exact choiceFrom_map f c 0 ps

theorem isEmpty_map (values : Array α) : (values.map f).isEmpty = values.isEmpty := by
  unfold Array.isEmpty
  rw [Array.size_map]

theorem sequenceFrom_map (values : Array α) (ps : List (Parser ι P α)) (c : ι) :
    sequenceFrom (values.map f) (ps.map (map f)) c =
      Outcome.map (List.map f) <$> sequenceFrom values ps c := by
  induction ps generalizing values c with
  | nil =>
    show (pure _ : Run ι (Outcome P.Failure P.Error ι (List β))) = pure _
    rw [Array.toList_map]
    rfl
  | cons p ps ih =>
    rw [List.map_cons, sequenceFrom, sequenceFrom, map_apply, bind_map_left, map_bind]
    refine bind_congr fun o => ?_
    cases o with
    | error e => rfl
    | success a rest =>
      dsimp only [Outcome.map]
      rw [← Array.map_push]
      exact ih (values.push a) rest
    | failure e =>
      -- whether there is a value in front does not depend on the values
      dsimp only [Outcome.map]
      rw [isEmpty_map, Array.size_map]
      split
      next => rfl
      next =>
        rw [map_bind]
        rfl

theorem sequence_map (ps : List (Parser ι P α)) :
    sequence (ps.map (map f)) = map (List.map f) (sequence ps) := by
  funext c
  have h := sequenceFrom_map f #[] ps c
  rw [Array.map_empty] at h
  rw [map_apply]
  exact h

/-! ## Repetitions -/

/-- A collection with its values mapped. -/
def mapCollected : Except P.Error (Array α × ι) → Except P.Error (Array β × ι) :=
  Except.map fun v => (v.1.map f, v.2)

theorem settle_map (min : Nat) (values : Array α) (rest : ι) :
    settle (P := P) min (values.map f) rest =
      (settle min values rest).map (List.map f) := by
  unfold settle
  rw [Array.size_map, isEmpty_map, Array.toList_map]
  split
  next => rfl
  next => split <;> rfl

variable [DecidableEq ι]

/-- The loop stops in the same round, since it asks for the number of values and
for the input. -/
theorem collect_map (max rounds : Nat) (p : Parser ι P α) (values : Array α) (c : ι) :
    collect max (map f p) rounds (values.map f) c =
      mapCollected f <$> collect max p rounds values c := by
  induction rounds generalizing values c with
  | zero =>
    rw [collect, collect, Array.size_map]
    split <;> rfl
  | succ rounds ih =>
    rw [collect, collect, Array.size_map]
    split
    next => rfl
    next =>
      rw [map_apply, bind_map_left, map_bind]
      refine bind_congr fun o => ?_
      cases o with
      | failure e | error e => rfl
      | success a rest =>
        dsimp only [Outcome.map]
        rw [← Array.map_push]
        split
        next => rfl
        next => exact ih (values.push a) rest

theorem many_map (rounds min max : Nat) (p : Parser ι P α) :
    many rounds min max (map f p) = map (List.map f) (many rounds min max p) := by
  funext c
  have hcollect := collect_map f max rounds p #[] c
  rw [Array.map_empty] at hcollect
  rw [map_apply, many, many, hcollect, bind_map_left, map_bind]
  refine bind_congr fun x => ?_
  cases x with
  | error e =>
    dsimp only [mapCollected, Except.map]
    rw [map_bind]
    rfl
  | ok v =>
    dsimp only [mapCollected, Except.map]
    rw [settle_map, map_bind]
    cases (settle min v.1 v.2 : Outcome P.Failure P.Error ι (List α)) <;> rfl

/-! ## All combinators -/

/-- Mapping the values of the parts is mapping what becomes of them.

* A repetition of a mapped part gives the mapped list of values, for any bounds
  and in the same rounds.
* A choice among mapped alternatives gives the mapped value.
* A sequence of mapped parts gives the mapped list of values.
* A pair of mapped parts gives the pair with both components mapped.

Outcomes that are no success carry the same payload on both sides.  The parts
are any parsers, so there may be a tap around each of them: they are called on
the same inputs in the same order. -/
theorem mapping_commutes (g : γ → δ) (rounds min max : Nat) (p : Parser ι P α)
    (q : Parser ι P γ) (ps : List (Parser ι P α)) :
    many rounds min max (map f p) = map (List.map f) (many rounds min max p) ∧
      choice (ps.map (map f)) = map f (choice ps) ∧
      sequence (ps.map (map f)) = map (List.map f) (sequence ps) ∧
      pair (map f p) (map g q) = map (Prod.map f g) (pair p q) :=
  ⟨many_map f rounds min max p, choice_map f ps, sequence_map f ps, pair_map f g p q⟩

end Triad.Parser
