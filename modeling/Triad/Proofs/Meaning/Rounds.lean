import Triad.Proofs.Meaning.History
import Triad.Proofs.Meaning.Repetition

/-!
# Rounds of a repetition

A repetition calls its part once a round.  `Reading.visited` lists the inputs
of these calls, and the history of a repetition is the history of its part on
each of them, one after another (`History.collect_eq_flatMap`).

How many rounds there are is bounded by the input if the part `Descends`:
whenever it succeeds it comes closer to the end of the input, or it leaves the
input where it was, and then the round is the last one.  So the rounds that a
repetition is allowed are never used up (`Reading.Descends.collect_finishes`),
whatever its bounds are.
-/

namespace Triad

variable {ι : Type} {N : Payloads → Type → Type} {ε : Type} {P : Payloads} {α : Type}

namespace Reading

variable [DecidableEq ι]

/-- The inputs on which a repetition that has `count` values calls its part. -/
def visited (max : Nat) (p : Reading ι P α) : Nat → Nat → ι → List ι
  | rounds, count, c =>
    if max ≤ count then []
    else
      match rounds with
      | 0 => []
      | rounds + 1 =>
        c ::
          match p c with
          | .ok (.success _ rest) => if rest = c then [] else visited max p rounds (count + 1) rest
          | _ => []

end Reading

namespace Reading

/-- A success keeps `V`, and it leaves the input where it was or is closer to
the end of the input. -/
def Descends (V : ι → Prop) (size : ι → Nat) (p : Reading ι P α) : Prop :=
  ∀ c a d, V c → p c = .ok (.success a d) → V d ∧ (d = c ∨ size d < size c)

variable [DecidableEq ι] {V : ι → Prop} {size : ι → Nat} {p : Reading ι P α} {max rounds : Nat}
  {c : ι}

/-- A repetition is finished if its part is, and has rounds left then. -/
theorem Descends.collect_finishes (hp : p.Descends V size)
    (hfinishes : ∀ c', V c' → size c' ≤ size c → p c' ≠ .error .unfinished) (hc : V c)
    (hrounds : size c < rounds) (count : Nat) :
    collect max p rounds count c ≠ .error .unfinished := by
  induction rounds generalizing count c with
  | zero => omega
  | succ rounds ih =>
    unfold collect
    by_cases hmax : max ≤ count
    · simp [hmax]
    · simp only [hmax, if_false]
      have hpc : p c ≠ .error .unfinished := hfinishes c hc (Nat.le_refl _)
      cases hx : p c with
      | error stop =>
        rw [hx] at hpc
        simpa using hpc
      | ok o =>
        cases o with
        | failure f => simp
        | error e => simp
        | success a rest =>
          dsimp only
          by_cases hstall : rest = c
          · simp [hstall]
          · obtain ⟨hrest, hless⟩ := hp c a rest hc hx
            have hless' : size rest < size c := hless.resolve_left hstall
            have hends := ih (fun c' hc' hsize => hfinishes c' hc' (by omega)) hrest (by omega)
              (count + 1)
            simp only [hstall, if_false]
            split
            next => simp
            next => exact hends

end Reading

end Triad
