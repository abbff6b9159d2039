import Triad.Proofs.Meaning.Repetition
import Triad.Proofs.Meaning.Whole

/-!
# Larger limits

A run that is finished within its limits has not felt them.  `p.Below q` says
that `q` answers as `p` does wherever `p` is finished: the two may only differ
where `p` was longer or deeper than it was allowed to be.  The reading of a
grammar is below its reading with more rounds and more depth
(`Grammar.answer_mono`), so a finished answer, even that a run is aborted, does
not depend on the limits any more.
-/

namespace Triad

variable {ι : Type} {N : Payloads → Type → Type} {P Q : Payloads} {α β : Type}

/-! ## Readings -/

namespace Reading

/-- Wherever `p` is finished, `q` answers the same. -/
def Below (p q : Reading ι P α) : Prop := ∀ c, p c ≠ .error .unfinished → q c = p c

variable {p p' : Reading ι P α} {q q' : Reading ι P β}

theorem Below.refl (p : Reading ι P α) : p.Below p := fun _ _ => rfl

/-- A node around a part is below one around a part that is above, if it is
finished only where its part is. -/
theorem Below.around {x x' : Reading ι Q β} (hp : p.Below p')
    (hstop : ∀ c, p c = .error .unfinished → x c = .error .unfinished)
    (hsame : ∀ c, p' c = p c → x' c = x c) : x.Below x' :=
  fun c hc => hsame c (hp c fun h => hc (hstop c h))

theorem Below.map (f : α → β) (hp : p.Below p') : (map f p).Below (map f p') :=
  hp.around (fun _ => map_eq_stop_iff.2) fun c hc => by
    unfold Reading.map Reading.bind
    rw [hc]

theorem Below.pair (hp : p.Below p') (hq : q.Below q') : (pair p q).Below (pair p' q') := by
  intro c hc
  have hpc : p c ≠ .error .unfinished := fun h => hc (pair_eq_stop_iff.2 (.inl h))
  unfold Reading.pair
  rw [hp c hpc]
  cases hx : p c with
  | error stop => rfl
  | ok o =>
    cases o with
    | failure f => rfl
    | error e => rfl
    | success a rest =>
      have hrest : q rest ≠ .error .unfinished := fun h =>
        hc (pair_eq_stop_iff.2 (.inr ⟨a, rest, hx, h⟩))
      dsimp only
      rw [hq rest hrest]

theorem Below.past {q q' : Reading ι P Unit} (hq : q.Below q') (hp : p.Below p') :
    (past q p).Below (past q' p') := by
  intro c hc
  have hqc : q c ≠ .error .unfinished := by
    intro h
    rw [Reading.past, h] at hc
    exact hc rfl
  unfold Reading.past at hc ⊢
  rw [hq c hqc]
  cases hx : q c with
  | error stop => rfl
  | ok o =>
    rw [hx] at hc
    cases o with
    | failure f => rfl
    | error e => rfl
    | success _ rest => exact hp rest hc

theorem Below.choice {ps ps' : List (Reading ι P α)} (hps : List.Forall₂ Below ps ps') :
    (choice ps).Below (choice ps') := by
  intro c hc
  induction hps with
  | nil => rfl
  | @cons p p' ps ps' hp _ ih =>
    have hpc : p c ≠ .error .unfinished := by
      intro h
      rw [Reading.choice, h] at hc
      exact hc rfl
    rw [Reading.choice, Reading.choice, hp c hpc]
    rw [Reading.choice] at hc
    cases hx : p c with
    | error stop => rfl
    | ok o =>
      rw [hx] at hc
      cases o with
      | success a d => rfl
      | error e => rfl
      | failure f => exact ih hc

theorem Below.sequence {ps ps' : List (Reading ι P α)} (hps : List.Forall₂ Below ps ps') :
    (sequence ps).Below (sequence ps') := by
  induction hps with
  | nil => exact .refl _
  | cons hp _ ih => exact (hp.pair ih).map _

variable [DecidableEq ι]

theorem Below.collect (hp : p.Below p') {rounds rounds' : Nat} (hrounds : rounds ≤ rounds')
    (max count : Nat) (c : ι) (hc : collect max p rounds count c ≠ .error .unfinished) :
    collect max p' rounds' count c = collect max p rounds count c := by
  induction rounds generalizing rounds' count c with
  | zero =>
    unfold Reading.collect at hc ⊢
    by_cases hmax : max ≤ count
    · simp [hmax]
    · simp [hmax] at hc
  | succ rounds ih =>
    obtain ⟨more, rfl⟩ : ∃ more, rounds' = more + 1 := ⟨rounds' - 1, by omega⟩
    unfold Reading.collect at hc ⊢
    by_cases hmax : max ≤ count
    · simp [hmax]
    · simp only [hmax, if_false] at hc ⊢
      have hpc : p c ≠ .error .unfinished := by
        intro h
        rw [h] at hc
        exact hc rfl
      rw [hp c hpc]
      cases hx : p c with
      | error stop => rfl
      | ok o =>
        rw [hx] at hc
        cases o with
        | failure f => rfl
        | error e => rfl
        | success a rest =>
          dsimp only at hc ⊢
          by_cases hstall : rest = c
          · simp [hstall]
          · simp only [hstall, if_false] at hc ⊢
            have hrest : Reading.collect max p rounds (count + 1) rest ≠ .error .unfinished := by
              intro h
              rw [h] at hc
              exact hc rfl
            rw [ih (by omega) _ _ hrest]

theorem Below.many (hp : p.Below p') {rounds rounds' : Nat} (hrounds : rounds ≤ rounds')
    (min max : Nat) : (many rounds min max p).Below (many rounds' min max p') := by
  intro c hc
  have hcollect := hp.collect hrounds max 0 c fun h => hc (many_eq_stop_iff.2 h)
  unfold Reading.many
  rw [hcollect]

end Reading

/-! ## Grammars -/

variable [DecidableEq ι]

/-- The step of the induction over names: more rounds and names that are above
give a reading that is above. -/
theorem Grammar.reading_below {rounds rounds' : Nat} (hrounds : rounds ≤ rounds')
    {reads reads' : ∀ {P : Payloads} {α : Type}, N P α → Reading ι P α}
    (hnamed : ∀ {P : Payloads} {α : Type} (name : N P α), (reads name).Below (reads' name))
    (g : Grammar ι N P α) : (g.reading rounds reads).Below (g.reading rounds' reads') := by
  induction g with
  | succeed | fail | error | abort | primitive => exact .refl _
  | attempt demote p ih =>
    exact ih.around (fun _ => Reading.attempt_eq_stop_iff.2) fun c hc => by
      unfold reading Reading.attempt
      rw [hc]
  | escalate promote p ih =>
    exact ih.around (fun _ => Reading.escalate_eq_stop_iff.2) fun c hc => by
      unfold reading Reading.escalate
      rw [hc]
  | bind f p ih =>
    exact ih.around (fun _ h => Reading.bind_eq_stop_iff.2 (.inl h)) fun c hc => by
      unfold reading Reading.bind
      rw [hc]
  | mapPayload onFailure onError p ih =>
    exact ih.around (fun _ => Reading.mapPayload_eq_stop_iff.2) fun c hc => by
      unfold reading Reading.mapPayload
      rw [hc]
  | check f p ih =>
    exact ih.around (fun _ => Reading.check_eq_stop_iff.2) fun c hc => by
      unfold reading Reading.check
      rw [hc]
  | context name p ih =>
    exact ih.around (fun _ => Reading.mapPayload_eq_stop_iff.2) fun c hc => by
      unfold reading Reading.mapPayload
      rw [hc]
  | label _ p ih | defer _ p ih | tap _ p ih => exact ih
  | many min max p ih => exact ih.many hrounds min max
  | pair p q ihp ihq => exact ihp.pair ihq
  | choice count ps ih => exact Reading.Below.choice (forall₂_ofFn ih)
  | sequence count ps ih => exact Reading.Below.sequence (forall₂_ofFn ih)
  | rule name => exact hnamed name

theorem Rules.reading_below (rules : Rules ι N) {rounds rounds' depth depth' : Nat}
    (hrounds : rounds ≤ rounds') (hdepth : depth ≤ depth') (name : N P α) :
    (rules.reading rounds depth name).Below (rules.reading rounds' depth' name) := by
  induction depth generalizing depth' P α with
  | zero => exact fun c hc => absurd rfl hc
  | succ depth ih =>
    obtain ⟨more, rfl⟩ : ∃ more, depth' = more + 1 := ⟨depth' - 1, by omega⟩
    exact Grammar.reading_below hrounds (ih (by omega)) (rules name)

/-- An answer that is finished within its limits is the answer within larger
limits. -/
theorem Grammar.answer_mono {limits limits' : Limits} (h : limits ≤ limits') {rules : Rules ι N}
    {g : Grammar ι N P α} {c : ι} (hc : g.answer rules limits c ≠ .error .unfinished) :
    g.answer rules limits' c = g.answer rules limits c :=
  reading_below h.1 (rules.reading_below h.1 h.2) g c hc

end Triad
