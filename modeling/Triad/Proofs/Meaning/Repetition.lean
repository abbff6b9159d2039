import Triad.Proofs.Meaning.Inversion

/-!
# Repeated parts

`Reading.Repeats p c as d`: reading `p` again and again from `c` gives the
values `as` and leaves `d`.  A repetition collects the values of such a chain
of successes.  `collect_eq_ok` and `collect_eq_error` read that off an answer;
`collect_of_repeats` computes the answer from a chain, provided that the part
moves on whenever it succeeds and that there is room for all its values.
-/

namespace Triad.Reading

variable {ι : Type} {P : Payloads} {α : Type} {p : Reading ι P α}

inductive Repeats (p : Reading ι P α) : ι → List α → ι → Prop
  | nil {c : ι} : Repeats p c [] c
  | cons {c d rest : ι} {a : α} {as : List α} (hstep : p c = .ok (.success a d))
      (hrest : Repeats p d as rest) : Repeats p c (a :: as) rest

/-- No success leaves the input where it was. -/
def Moves (p : Reading ι P α) : Prop := ∀ c a, p c ≠ .ok (.success a c)

theorem Repeats.snoc {c d rest : ι} {as : List α} {a : α} (h : Repeats p c as d)
    (hstep : p d = .ok (.success a rest)) : Repeats p c (as ++ [a]) rest := by
  induction h with
  | nil => exact .cons hstep .nil
  | cons hfirst _ ih => exact .cons hfirst (ih hstep)

@[simp] theorem settle_zero (as : List α) (d : ι) :
    settle (P := P) 0 as d = .success as d := by simp [settle]

/-- Every value of a chain brings it closer to the end of the input. -/
theorem Repeats.length_le (size : ι → Nat)
    (hp : ∀ c a d, p c = .ok (.success a d) → size d < size c) {c d : ι} {as : List α}
    (h : Repeats p c as d) : as.length + size d ≤ size c := by
  induction h with
  | nil => simp
  | cons hstep _ ih =>
    have hless := hp _ _ _ hstep
    rw [List.length_cons]
    omega

variable [DecidableEq ι] {max rounds count : Nat} {c d : ι} {as : List α} {e : P.Error}

/-! ## From the answer to the chain -/

theorem collect_eq_ok (h : collect max p rounds count c = .ok (.ok (as, d))) :
    Repeats p c as d := by
  induction rounds generalizing count c as with
  | zero =>
    unfold collect at h
    split at h
    · obtain ⟨rfl, rfl⟩ := by simpa using h
      exact .nil
    · simp at h
  | succ rounds ih =>
    unfold collect at h
    split at h
    · obtain ⟨rfl, rfl⟩ := by simpa using h
      exact .nil
    · dsimp only at h
      split at h
      next a rest hstep =>
        split at h
        next hstall =>
          obtain ⟨rfl, rfl⟩ := by simpa using h
          exact .cons hstep .nil
        next =>
          split at h
          next as' rest' hrest =>
            obtain ⟨rfl, rfl⟩ := by simpa using h
            exact .cons hstep (ih hrest)
          next hne => exact absurd h (hne as d)
      next =>
        obtain ⟨rfl, rfl⟩ := by simpa using h
        exact .nil
      next => simp at h
      next => simp at h

/-- A repetition of a part that moves ends at its bound or where the part fails. -/
theorem collect_ends (hmoves : p.Moves) (h : collect max p rounds count c = .ok (.ok (as, d))) :
    max ≤ count + as.length ∨ ∃ f, p d = .ok (.failure f) := by
  induction rounds generalizing count c as with
  | zero =>
    unfold collect at h
    split at h
    next hmax => exact .inl (by omega)
    next => simp at h
  | succ rounds ih =>
    unfold collect at h
    split at h
    next hmax => exact .inl (by omega)
    next =>
      dsimp only at h
      split at h
      next a rest hstep =>
        have hstall : rest ≠ c := by
          rintro rfl
          exact hmoves _ _ hstep
        rw [if_neg hstall] at h
        split at h
        next as' rest' hrest =>
          obtain ⟨rfl, rfl⟩ := by simpa using h
          rcases ih hrest with hmax | hend
          · exact .inl (by rw [List.length_cons]; omega)
          · exact .inr hend
        next hne => exact absurd h (hne as d)
      next f hstep =>
        obtain ⟨-, rfl⟩ := by simpa using h
        exact .inr ⟨f, hstep⟩
      next => simp at h
      next => simp at h

theorem collect_eq_error (h : collect max p rounds count c = .ok (.error e)) :
    ∃ as d, Repeats p c as d ∧ p d = .ok (.error e) := by
  induction rounds generalizing count c with
  | zero =>
    unfold collect at h
    split at h <;> simp at h
  | succ rounds ih =>
    unfold collect at h
    split at h
    · simp at h
    · dsimp only at h
      split at h
      next a rest hstep =>
        split at h
        next => simp at h
        next =>
          split at h
          next => simp at h
          next =>
            obtain ⟨as, d, hrest, herror⟩ := ih h
            exact ⟨a :: as, d, .cons hstep hrest, herror⟩
      next => simp at h
      next e' herror =>
        obtain rfl : e' = e := by simpa using h
        exact ⟨[], c, .nil, herror⟩
      next => simp at h

/-- A repetition stops because its part does or because its rounds are used up. -/
theorem collect_eq_stop {stop : Stop} (h : collect max p rounds count c = .error stop) :
    stop = .unfinished ∨ ∃ d, p d = .error stop := by
  induction rounds generalizing count c with
  | zero =>
    unfold collect at h
    split at h
    · simp at h
    · exact .inl (Except.error.inj h).symm
  | succ rounds ih =>
    unfold collect at h
    split at h
    · simp at h
    · dsimp only at h
      split at h
      next a rest hstep =>
        split at h
        next => simp at h
        next =>
          split at h
          next => simp at h
          next => exact ih h
      next => simp at h
      next => simp at h
      next stop' hstop =>
        obtain rfl := Except.error.inj h
        exact .inr ⟨c, hstop⟩

/-! ## From the chain to the answer -/

/-- Values in front of those that are still collected. -/
def prepend (as : List α) (x : Except Stop (Except P.Error (List α × ι))) :
    Except Stop (Except P.Error (List α × ι)) :=
  x.map (Except.map fun (bs, d) => (as ++ bs, d))

/-- A repetition goes along a chain of successes. -/
theorem collect_of_repeats (hmoves : p.Moves) (h : Repeats p c as d)
    (hmax : count + as.length ≤ max) :
    collect max p (rounds + as.length) count c =
      prepend as (collect max p rounds (count + as.length) d) := by
  induction h generalizing count with
  | @nil c =>
    show collect max p rounds count c = _
    cases collect max p rounds count c with
    | error stop => simp [prepend, Except.map]
    | ok y => cases y <;> simp [prepend, Except.map]
  | @cons c d rest a as hstep _ ih =>
    rw [List.length_cons] at hmax ⊢
    have hcount : ¬ max ≤ count := by omega
    have hstall : d ≠ c := by
      rintro rfl
      exact hmoves _ _ hstep
    have hmax' : count + 1 + as.length ≤ max := by omega
    have hrest := ih hmax'
    rw [show count + 1 + as.length = count + (as.length + 1) by omega] at hrest
    rw [← Nat.add_assoc, collect]
    simp only [hcount, if_false, hstep, hstall, hrest]
    cases collect max p rounds (count + (as.length + 1)) rest with
    | error stop => simp [prepend, Except.map]
    | ok y => cases y <;> simp [prepend, Except.map]

/-- A repetition ends with an answer if its part answers and gets closer to
the end of the input whenever it succeeds. -/
theorem collect_answers (size : ι → Nat) (hp : ∀ c', size c' ≤ size c → p.Answers c')
    (hless : ∀ c a d, p c = .ok (.success a d) → size d < size c) (hrounds : size c < rounds) :
    ∃ y, collect max p rounds count c = .ok y := by
  induction rounds generalizing count c with
  | zero => omega
  | succ rounds ih =>
    unfold collect
    by_cases hmax : max ≤ count
    · exact ⟨.ok ([], c), by simp [hmax]⟩
    · simp only [hmax, if_false]
      obtain ⟨o, ho⟩ := hp c (Nat.le_refl _)
      rw [ho]
      cases o with
      | failure f => exact ⟨.ok ([], c), rfl⟩
      | error e => exact ⟨.error e, rfl⟩
      | success a d =>
        have hd : size d < size c := hless c a d ho
        have hne : d ≠ c := by
          rintro rfl
          omega
        obtain ⟨y, hy⟩ : ∃ y, collect max p rounds (count + 1) d = .ok y :=
          ih (fun c' hc' => hp c' (by omega)) (by omega)
        simp only [hne, if_false, hy]
        cases y with
        | error e => exact ⟨.error e, rfl⟩
        | ok found => exact ⟨.ok (a :: found.1, found.2), rfl⟩

/-- At the end of a chain there is still a call left. -/
theorem collect_along (hmoves : p.Moves) (h : Repeats p c as d) (hmax : as.length ≤ max)
    (hrounds : as.length < rounds) :
    ∃ left, collect max p rounds 0 c =
      prepend as (collect max p (left + 1) as.length d) := by
  obtain ⟨left, rfl⟩ : ∃ left, rounds = left + 1 + as.length := ⟨rounds - as.length - 1, by omega⟩
  have hcollect : collect max p (left + 1 + as.length) 0 c =
      prepend as (collect max p (left + 1) (0 + as.length) d) :=
    collect_of_repeats hmoves h (by omega)
  rw [Nat.zero_add] at hcollect
  exact ⟨left, hcollect⟩

/-- The repetition ends where the part fails. -/
theorem many_of_failure (hmoves : p.Moves) (h : Repeats p c as d) (hmax : as.length ≤ max)
    (hrounds : as.length < rounds) {f : P.Failure} (hend : p d = .ok (.failure f)) (min : Nat) :
    many rounds min max p c = .ok (settle min as d) := by
  obtain ⟨left, hcollect⟩ := collect_along hmoves h hmax hrounds
  have hlast : collect max p (left + 1) as.length d = .ok (.ok ([], d)) := by
    rw [collect, hend]
    split <;> rfl
  unfold many
  rw [hcollect, hlast]
  simp [prepend, Except.map]

/-- The repetition errs where the part errs. -/
theorem many_of_error (hmoves : p.Moves) (h : Repeats p c as d) (hmax : as.length < max)
    (hrounds : as.length < rounds) (hend : p d = .ok (.error e)) (min : Nat) :
    many rounds min max p c = .ok (.error e) := by
  obtain ⟨left, hcollect⟩ := collect_along hmoves h (Nat.le_of_lt hmax) hrounds
  have hlast : collect max p (left + 1) as.length d = .ok (.error e) := by
    rw [collect, hend, if_neg (by omega)]
  unfold many
  rw [hcollect, hlast]
  simp [prepend, Except.map]

/-! ## Answers of repetitions -/

theorem many_eq_success_iff {min : Nat} :
    many rounds min max p c = .ok (.success as d) ↔
      collect max p rounds 0 c = .ok (.ok (as, d)) ∧ min ≤ as.length := by
  unfold many settle
  cases collect max p rounds 0 c with
  | error stop => simp
  | ok y =>
    cases y with
    | error e => simp
    | ok found => grind

theorem many_eq_success {min : Nat} (h : many rounds min max p c = .ok (.success as d)) :
    Repeats p c as d ∧ min ≤ as.length := by
  obtain ⟨hcollect, hmin⟩ := many_eq_success_iff.1 h
  exact ⟨collect_eq_ok hcollect, hmin⟩

/-- A repetition that fails has collected nothing. -/
theorem many_eq_failure {min : Nat} {f : P.Failure}
    (h : many rounds min max p c = .ok (.failure f)) :
    ∃ rest, collect max p rounds 0 c = .ok (.ok ([], rest)) := by
  unfold many at h
  split at h
  next as rest hcollect =>
    have has : as = [] := by
      unfold settle at h
      split at h
      · simp at h
      · split at h
        · assumption
        · simp at h
    exact ⟨rest, has ▸ hcollect⟩
  · simp at h
  · simp at h

theorem many_eq_stop_iff {stop : Stop} {min : Nat} :
    many rounds min max p c = .error stop ↔ collect max p rounds 0 c = .error stop := by
  unfold many
  cases collect max p rounds 0 c with
  | error stop' => simp
  | ok y => cases y <;> simp

theorem many0_ne_failure {f : P.Failure} : many rounds 0 max p c ≠ .ok (.failure f) := by
  unfold many settle
  split <;> simp

theorem many0_eq_error (h : many rounds 0 max p c = .ok (.error e)) :
    ∃ as d, Repeats p c as d ∧ p d = .ok (.error e) := by
  unfold many settle at h
  split at h
  · simp at h
  next e' hcollect =>
    obtain rfl : e' = e := by simpa using h
    exact collect_eq_error hcollect
  · simp at h

theorem Answers.many0 (size : ι → Nat) (hp : ∀ c', size c' ≤ size c → p.Answers c')
    (hless : ∀ c a d, p c = .ok (.success a d) → size d < size c) (hrounds : size c < rounds) :
    (many rounds 0 max p).Answers c := by
  obtain ⟨y, hy⟩ : ∃ y, collect max p rounds 0 c = .ok y := collect_answers size hp hless hrounds
  unfold Answers many
  rw [hy]
  cases y with
  | error e => exact ⟨.error e, rfl⟩
  | ok found => exact ⟨settle 0 found.1 found.2, rfl⟩

end Triad.Reading
