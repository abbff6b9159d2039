import Triad.Proofs.Meaning.History
import Triad.Proofs.Meaning.Related

/-!
# Level readings

Two readings are level if they answer the same but for the payloads: both stop
for the same reason, both succeed with the same value and the same rest, both
fail, or both end with an error.  Their payloads may even be of different
types.

Readings are level if they are related by any relation of payloads, so the
combinators keep readings level, whatever they do to the payloads.  They call
parts with level readings at the same places (`History.Abreast`).
-/

namespace Triad

variable {ι : Type} {P P' Q Q' : Payloads} {α β : Type} {φ ε φ' ε' : Type}

theorem forall₂_ofFn {γ : Type*} {δ : Type*} {R : γ → δ → Prop} {count : Nat} {as : Fin count → γ}
    {bs : Fin count → δ} (h : ∀ i, R (as i) (bs i)) :
    List.Forall₂ R (List.ofFn as) (List.ofFn bs) := by
  rw [List.forall₂_iff_get]
  exact ⟨by simp, fun i _ _ => by simpa using h _⟩

/-- The outcome without its payload. -/
def Outcome.bare : Outcome φ ε ι α → Outcome Unit Unit ι α
  | .success a rest => .success a rest
  | .failure _ => .failure ()
  | .error _ => .error ()

/-- The answers are the same but for the payloads. -/
inductive Level : Except Stop (Outcome φ ε ι α) → Except Stop (Outcome φ' ε' ι α) → Prop
  | success (a : α) (rest : ι) : Level (.ok (.success a rest)) (.ok (.success a rest))
  | failure (f : φ) (f' : φ') : Level (.ok (.failure f)) (.ok (.failure f'))
  | error (e : ε) (e' : ε') : Level (.ok (.error e)) (.ok (.error e'))
  | stop (stop : Stop) : Level (.error stop) (.error stop)

/-- Both are the same value, or both are errors. -/
inductive LevelValue {γ : Type} : Except Stop (Except ε γ) → Except Stop (Except ε' γ) → Prop
  | ok (a : γ) : LevelValue (.ok (.ok a)) (.ok (.ok a))
  | error (e : ε) (e' : ε') : LevelValue (.ok (.error e)) (.ok (.error e'))
  | stop (stop : Stop) : LevelValue (.error stop) (.error stop)

theorem LevelValue.bare_eq {x : Except Stop (Except ε α)} {x' : Except Stop (Except ε' α)}
    (h : LevelValue x x') :
    x.map (Except.mapError fun _ => ()) = x'.map (Except.mapError fun _ => ()) := by
  cases h <;> rfl

namespace Level

theorem refl (x : Except Stop (Outcome φ ε ι α)) : Level x x := by
  rcases x with stop | ⟨a, rest⟩ | f | e
  · exact .stop stop
  · exact .success a rest
  · exact .failure f f
  · exact .error e e

theorem bare_eq {x : Except Stop (Outcome φ ε ι α)} {x' : Except Stop (Outcome φ' ε' ι α)}
    (h : Level x x') : x.map Outcome.bare = x'.map Outcome.bare := by
  cases h <;> rfl

end Level

/-- Any two payloads are related. -/
theorem level_iff_related_true {x : Except Stop (Outcome φ ε ι α)}
    {x' : Except Stop (Outcome φ' ε' ι α)} :
    Level x x' ↔ Related (fun _ _ => True) (fun _ _ => True) x x' := by
  refine ⟨fun h => ?_, fun h => ?_⟩
  · cases h with
    | success a rest => exact .success a rest
    | failure f f' => exact .failure trivial
    | error e e' => exact .error trivial
    | stop stop => exact .stop stop
  · cases h with
    | success a rest => exact .success a rest
    | failure h => exact .failure _ _
    | error h => exact .error _ _
    | stop stop => exact .stop stop

namespace Reading

/-- The readings answer the same at every input but for the payloads. -/
def Level (p : Reading ι P α) (p' : Reading ι P' α) : Prop := ∀ c, Triad.Level (p c) (p' c)

theorem Level.refl (p : Reading ι P α) : p.Level p := fun c => .refl (p c)

theorem level_iff_related {p : Reading ι P α} {p' : Reading ι P' α} :
    p.Level p' ↔ Related (fun _ _ => True) (fun _ _ => True) p p' :=
  forall_congr' fun _ => level_iff_related_true

/-- What is related any way is level. -/
theorem Related.level {F : P.Failure → P'.Failure → Prop} {E : P.Error → P'.Error → Prop}
    {p : Reading ι P α} {p' : Reading ι P' α} (h : Related F E p p') : p.Level p' :=
  level_iff_related.2 (h.mono (fun _ _ _ => trivial) fun _ _ _ => trivial)

/-! ## The combinators -/

theorem level_primitive (m : Matcher ι α) :
    (primitive m : Reading ι P α).Level (primitive m : Reading ι P' α) :=
  level_iff_related.2 (related_primitive trivial m)

namespace Level

variable {p : Reading ι P α} {p' : Reading ι P' α} {q : Reading ι P β} {q' : Reading ι P' β}
  {ps : List (Reading ι P α)} {ps' : List (Reading ι P' α)}

theorem attempt (hp : p.Level p') (demote : P.Error → P.Failure) (demote' : P'.Error → P'.Failure) :
    (attempt demote p).Level (attempt demote' p') :=
  level_iff_related.2 ((level_iff_related.1 hp).attempt fun _ _ _ => trivial)

theorem escalate (hp : p.Level p') (promote : P.Failure → P.Error)
    (promote' : P'.Failure → P'.Error) :
    (escalate promote p).Level (escalate promote' p') :=
  level_iff_related.2 ((level_iff_related.1 hp).escalate fun _ _ _ => trivial)

theorem bind (hp : p.Level p') (f : α → Except String β) : (bind f p).Level (bind f p') :=
  level_iff_related.2 ((level_iff_related.1 hp).bind f)

theorem mapPayload (hp : p.Level p') (onFailure : P.Failure → Q.Failure)
    (onError : P.Error → Q.Error) (onFailure' : P'.Failure → Q'.Failure)
    (onError' : P'.Error → Q'.Error) :
    (mapPayload onFailure onError p).Level (mapPayload onFailure' onError' p') :=
  level_iff_related.2
    ((level_iff_related.1 hp).mapPayload (fun _ _ _ => trivial) fun _ _ _ => trivial)

/-- A map of payloads may be left out. -/
theorem unmapped (hp : p.Level p') (onFailure : P.Failure → Q.Failure)
    (onError : P.Error → Q.Error) : (Reading.mapPayload onFailure onError p).Level p' :=
  level_iff_related.2
    ((level_iff_related.1 hp).unmapped (fun _ _ _ => trivial) fun _ _ _ => trivial)

/-- The two checks let the same values through. -/
theorem check (hp : p.Level p') {f : α → Except P.Error β} {f' : α → Except P'.Error β}
    (hf : ∀ a b, f a = .ok b ↔ f' a = .ok b) : (check f p).Level (check f' p') :=
  level_iff_related.2 ((level_iff_related.1 hp).check hf fun _ _ _ _ _ => trivial)

theorem pair (hp : p.Level p') (hq : q.Level q') : (pair p q).Level (pair p' q') :=
  level_iff_related.2 (.pair trivial (level_iff_related.1 hp) (level_iff_related.1 hq))

theorem choice (hps : List.Forall₂ Level ps ps') : (choice ps).Level (choice ps') :=
  level_iff_related.2 (.choice trivial (hps.imp fun _ _ h => level_iff_related.1 h))

theorem sequence (hps : List.Forall₂ Level ps ps') : (sequence ps).Level (sequence ps') :=
  level_iff_related.2 (.sequence trivial (hps.imp fun _ _ h => level_iff_related.1 h))

theorem many [DecidableEq ι] (hp : p.Level p') (rounds min max : Nat) :
    (many rounds min max p).Level (many rounds min max p') :=
  level_iff_related.2 (.many trivial trivial (level_iff_related.1 hp) rounds min max)

end Level

end Reading

/-! ## The calls of several parts -/

namespace History

universe u v

variable {E : Type u} {F : Type v}

/-- The parts have level readings, and wherever they are called, what the
calls leave behind is related. -/
structure Abreast (R : List E → List F → Prop) (p : Reading ι P α × (ι → List E))
    (p' : Reading ι P' α × (ι → List F)) : Prop where
  reading : p.1.Level p'.1
  calls : ∀ c, R (p.2 c) (p'.2 c)

namespace Abreast

variable {R : List E → List F → Prop} {p : Reading ι P α × (ι → List E)}
  {p' : Reading ι P' α × (ι → List F)} {q : Reading ι P β × (ι → List E)}
  {q' : Reading ι P' β × (ι → List F)} {ps : List (Reading ι P α × (ι → List E))}
  {ps' : List (Reading ι P' α × (ι → List F))}
  (hnil : R [] []) (happend : ∀ {es es' fs fs'}, R es fs → R es' fs' → R (es ++ es') (fs ++ fs'))

include hnil happend

theorem pair (hp : Abreast R p p') (hq : Abreast R q q') (c : ι) :
    R (pair p q c) (pair p' q' c) := by
  refine happend (hp.calls c) ?_
  have h := hp.reading c
  generalize p.1 c = x, p'.1 c = x' at h
  cases h with
  | success a rest => exact hq.calls rest
  | failure f f' => exact hnil
  | error e e' => exact hnil
  | stop stop => exact hnil

theorem choice (hps : List.Forall₂ (Abreast R) ps ps') (c : ι) :
    R (choice ps c) (choice ps' c) := by
  induction hps with
  | nil => exact hnil
  | @cons p p' ps ps' hp _ ih =>
    refine happend (hp.calls c) ?_
    have h := hp.reading c
    generalize p.1 c = x, p'.1 c = x' at h
    cases h with
    | success a rest => exact hnil
    | failure f f' => exact ih
    | error e e' => exact hnil
    | stop stop => exact hnil

theorem sequence (hps : List.Forall₂ (Abreast R) ps ps') (c : ι) :
    R (sequence ps c) (sequence ps' c) := by
  induction hps generalizing c with
  | nil => exact hnil
  | @cons p p' ps ps' hp _ ih =>
    refine happend (hp.calls c) ?_
    have h := hp.reading c
    generalize p.1 c = x, p'.1 c = x' at h
    cases h with
    | success a rest => exact ih rest
    | failure f f' => exact hnil
    | error e e' => exact hnil
    | stop stop => exact hnil

theorem collect [DecidableEq ι] (hp : Abreast R p p') (max rounds count : Nat) (c : ι) :
    R (collect max p rounds count c) (collect max p' rounds count c) := by
  induction rounds generalizing count c with
  | zero =>
    unfold History.collect
    split <;> exact hnil
  | succ rounds ih =>
    unfold History.collect
    split
    · exact hnil
    · refine happend (hp.calls c) ?_
      have h := hp.reading c
      generalize p.1 c = x, p'.1 c = x' at h
      cases h with
      | success a rest =>
        dsimp only
        split
        · exact hnil
        · exact ih (count + 1) rest
      | failure f f' => exact hnil
      | error e e' => exact hnil
      | stop stop => exact hnil

end Abreast

end History

end Triad
