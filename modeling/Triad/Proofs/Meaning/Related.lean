import Mathlib.Data.List.Forall2
import Triad.Proofs.Meaning.Reading

/-!
# Related payloads

Two readings are related if they answer the same but for the payloads, and the
payloads are related: those of failures by `F` and those of errors by `E`.
They may be of different types.

Nothing but the kind of an answer, its value and its rest decides where a
combinator goes on.  So each combinator keeps readings related if it keeps
payloads related: if the payloads that it invents are related, and what its
callbacks make of related payloads.
-/

namespace Triad

variable {ι : Type} {P P' Q Q' : Payloads} {α β : Type} {φ ε φ' ε' : Type}

/-- The answers are the same but for the payloads, and these are related. -/
inductive Related (F : φ → φ' → Prop) (E : ε → ε' → Prop) :
    Except Stop (Outcome φ ε ι α) → Except Stop (Outcome φ' ε' ι α) → Prop
  | success (a : α) (rest : ι) : Related F E (.ok (.success a rest)) (.ok (.success a rest))
  | failure {f : φ} {f' : φ'} (h : F f f') : Related F E (.ok (.failure f)) (.ok (.failure f'))
  | error {e : ε} {e' : ε'} (h : E e e') : Related F E (.ok (.error e)) (.ok (.error e'))
  | stop (stop : Stop) : Related F E (.error stop) (.error stop)

/-- Both are the same value, or both are errors with related payloads. -/
inductive RelatedValue {γ : Type} (E : ε → ε' → Prop) :
    Except Stop (Except ε γ) → Except Stop (Except ε' γ) → Prop
  | ok (a : γ) : RelatedValue E (.ok (.ok a)) (.ok (.ok a))
  | error {e : ε} {e' : ε'} (h : E e e') : RelatedValue E (.ok (.error e)) (.ok (.error e'))
  | stop (stop : Stop) : RelatedValue E (.error stop) (.error stop)

theorem Related.mono {F F₁ : φ → φ' → Prop} {E E₁ : ε → ε' → Prop}
    {x : Except Stop (Outcome φ ε ι α)} {x' : Except Stop (Outcome φ' ε' ι α)}
    (h : Related F E x x') (hF : ∀ f f', F f f' → F₁ f f') (hE : ∀ e e', E e e' → E₁ e e') :
    Related F₁ E₁ x x' := by
  cases h with
  | success a rest => exact .success a rest
  | failure h => exact .failure (hF _ _ h)
  | error h => exact .error (hE _ _ h)
  | stop stop => exact .stop stop

namespace Reading

/-- The readings answer the same at every input but for the payloads, and these
are related. -/
def Related (F : P.Failure → P'.Failure → Prop) (E : P.Error → P'.Error → Prop)
    (p : Reading ι P α) (p' : Reading ι P' α) : Prop :=
  ∀ c, Triad.Related F E (p c) (p' c)

variable {F : P.Failure → P'.Failure → Prop} {E : P.Error → P'.Error → Prop}

theorem related_primitive (hmiss : F P.noMatch P'.noMatch) (m : Matcher ι α) :
    Related F E (primitive m) (primitive m) := by
  intro c
  unfold primitive
  cases m.match? c with
  | none => exact .failure hmiss
  | some found => exact .success found.1 found.2

namespace Related

variable {p : Reading ι P α} {p' : Reading ι P' α} {q : Reading ι P β} {q' : Reading ι P' β}
  {ps : List (Reading ι P α)} {ps' : List (Reading ι P' α)}

theorem mono {F₁ : P.Failure → P'.Failure → Prop} {E₁ : P.Error → P'.Error → Prop}
    (hp : Related F E p p') (hF : ∀ f f', F f f' → F₁ f f') (hE : ∀ e e', E e e' → E₁ e e') :
    Related F₁ E₁ p p' := fun c => (hp c).mono hF hE

/-! ## One part -/

theorem attempt {demote : P.Error → P.Failure} {demote' : P'.Error → P'.Failure}
    (hp : Related F E p p') (hdemote : ∀ e e', E e e' → F (demote e) (demote' e')) :
    Related F E (attempt demote p) (attempt demote' p') := by
  intro c
  unfold Reading.attempt
  have h := hp c
  generalize p c = x, p' c = x' at h
  cases h with
  | success a rest => exact .success a rest
  | failure h => exact .failure h
  | error h => exact .failure (hdemote _ _ h)
  | stop stop => exact .stop stop

theorem escalate {promote : P.Failure → P.Error} {promote' : P'.Failure → P'.Error}
    (hp : Related F E p p') (hpromote : ∀ f f', F f f' → E (promote f) (promote' f')) :
    Related F E (escalate promote p) (escalate promote' p') := by
  intro c
  unfold Reading.escalate
  have h := hp c
  generalize p c = x, p' c = x' at h
  cases h with
  | success a rest => exact .success a rest
  | failure h => exact .error (hpromote _ _ h)
  | error h => exact .error h
  | stop stop => exact .stop stop

theorem bind (hp : Related F E p p') (f : α → Except String β) :
    Related F E (bind f p) (bind f p') := by
  intro c
  unfold Reading.bind
  have h := hp c
  generalize p c = x, p' c = x' at h
  cases h with
  | success a rest =>
    dsimp only
    cases f a with
    | ok b => exact .success b rest
    | error message => exact .stop _
  | failure h => exact .failure h
  | error h => exact .error h
  | stop stop => exact .stop stop

theorem mapPayload {G : Q.Failure → Q'.Failure → Prop} {H : Q.Error → Q'.Error → Prop}
    {onFailure : P.Failure → Q.Failure} {onError : P.Error → Q.Error}
    {onFailure' : P'.Failure → Q'.Failure} {onError' : P'.Error → Q'.Error}
    (hp : Related F E p p') (hfailure : ∀ f f', F f f' → G (onFailure f) (onFailure' f'))
    (herror : ∀ e e', E e e' → H (onError e) (onError' e')) :
    Related G H (mapPayload onFailure onError p) (mapPayload onFailure' onError' p') := by
  intro c
  unfold Reading.mapPayload
  have h := hp c
  generalize p c = x, p' c = x' at h
  cases h with
  | success a rest => exact .success a rest
  | failure h => exact .failure (hfailure _ _ h)
  | error h => exact .error (herror _ _ h)
  | stop stop => exact .stop stop

/-- A map of payloads on one side only. -/
theorem unmapped {G : Q.Failure → P'.Failure → Prop} {H : Q.Error → P'.Error → Prop}
    {onFailure : P.Failure → Q.Failure} {onError : P.Error → Q.Error} (hp : Related F E p p')
    (hfailure : ∀ f f', F f f' → G (onFailure f) f') (herror : ∀ e e', E e e' → H (onError e) e') :
    Related G H (Reading.mapPayload onFailure onError p) p' := by
  intro c
  unfold Reading.mapPayload
  have h := hp c
  generalize p c = x, p' c = x' at h
  cases h with
  | success a rest => exact .success a rest
  | failure h => exact .failure (hfailure _ _ h)
  | error h => exact .error (herror _ _ h)
  | stop stop => exact .stop stop

/-- The two checks let the same values through. -/
theorem check {f : α → Except P.Error β} {f' : α → Except P'.Error β} (hp : Related F E p p')
    (hf : ∀ a b, f a = .ok b ↔ f' a = .ok b)
    (herror : ∀ a e e', f a = .error e → f' a = .error e' → E e e') :
    Related F E (check f p) (check f' p') := by
  intro c
  unfold Reading.check
  have h := hp c
  generalize p c = x, p' c = x' at h
  cases h with
  | success a rest =>
    dsimp only
    cases hfa : f a with
    | ok b =>
      rw [(hf a b).1 hfa]
      exact .success b rest
    | error e =>
      cases hfa' : f' a with
      | ok b => rw [(hf a b).2 hfa'] at hfa; cases hfa
      | error e' => exact .error (herror a e e' hfa hfa')
  | failure h => exact .failure h
  | error h => exact .error h
  | stop stop => exact .stop stop

/-! ## Several parts -/

theorem pair (hincomplete : E P.incomplete P'.incomplete) (hp : Related F E p p')
    (hq : Related F E q q') : Related F E (pair p q) (pair p' q') := by
  intro c
  unfold Reading.pair
  have h := hp c
  generalize p c = x, p' c = x' at h
  cases h with
  | success a rest =>
    dsimp only
    have h := hq rest
    generalize q rest = x, q' rest = x' at h
    cases h with
    | success b rest => exact .success (a, b) rest
    | failure h => exact .error hincomplete
    | error h => exact .error h
    | stop stop => exact .stop stop
  | failure h => exact .failure h
  | error h => exact .error h
  | stop stop => exact .stop stop

theorem choice (hmiss : F P.noMatch P'.noMatch) (hps : List.Forall₂ (Related F E) ps ps') :
    Related F E (choice ps) (choice ps') := by
  intro c
  induction hps with
  | nil => exact .failure hmiss
  | @cons p p' ps ps' hp _ ih =>
    unfold Reading.choice
    have h := hp c
    generalize p c = x, p' c = x' at h
    cases h with
    | success a rest => exact .success a rest
    | failure h => exact ih
    | error h => exact .error h
    | stop stop => exact .stop stop

theorem sequence (hincomplete : E P.incomplete P'.incomplete)
    (hps : List.Forall₂ (Related F E) ps ps') : Related F E (sequence ps) (sequence ps') := by
  induction hps with
  | nil => exact fun c => .success [] c
  | cons hp _ ih =>
    unfold Reading.sequence Reading.map
    exact (pair hincomplete hp ih).bind _

theorem settle (hmiss : F P.noMatch P'.noMatch) (hincomplete : E P.incomplete P'.incomplete)
    (min : Nat) (as : List α) (rest : ι) :
    Triad.Related F E (.ok (Reading.settle (P := P) min as rest))
      (.ok (Reading.settle (P := P') min as rest)) := by
  unfold Reading.settle
  split
  · exact .success as rest
  · split
    · exact .failure hmiss
    · exact .error hincomplete

variable [DecidableEq ι]

theorem collect (hp : Related F E p p') (max rounds count : Nat) (c : ι) :
    RelatedValue E (Reading.collect max p rounds count c)
      (Reading.collect max p' rounds count c) := by
  induction rounds generalizing count c with
  | zero =>
    unfold Reading.collect
    split
    · exact .ok _
    · exact .stop _
  | succ rounds ih =>
    unfold Reading.collect
    split
    · exact .ok _
    · have h := hp c
      generalize p c = x, p' c = x' at h
      cases h with
      | success a rest =>
        dsimp only
        split
        · exact .ok _
        · have hrest := ih (count + 1) rest
          generalize Reading.collect max p rounds (count + 1) rest = y,
            Reading.collect max p' rounds (count + 1) rest = y' at hrest
          cases hrest with
          | ok found => exact .ok _
          | error h => exact .error h
          | stop stop => exact .stop stop
      | failure h => exact .ok _
      | error h => exact .error h
      | stop stop => exact .stop stop

theorem many (hmiss : F P.noMatch P'.noMatch) (hincomplete : E P.incomplete P'.incomplete)
    (hp : Related F E p p') (rounds min max : Nat) :
    Related F E (many rounds min max p) (many rounds min max p') := by
  intro c
  unfold Reading.many
  have h := hp.collect max rounds 0 c
  generalize Reading.collect max p rounds 0 c = y, Reading.collect max p' rounds 0 c = y' at h
  cases h with
  | ok found => exact settle hmiss hincomplete min found.1 found.2
  | error h => exact .error h
  | stop stop => exact .stop stop

end Related

end Reading

end Triad
