import Triad.Proofs.Meaning.Reading

/-!
# What an answer says about the parts

A combinator answers as it does because its parts answered as they did.  The
lemmas of this file read an answer backwards: each says which answers of the
parts lead to a success, to a failure or to an error of the combinator, or why
it stops.  A reading that does not stop `Answers`.
-/

namespace Triad.Reading

variable {ι : Type} {P Q : Payloads} {α β : Type} {p : Reading ι P α} {q : Reading ι P β}
  {c d : ι} {a : α} {b : β} {e : P.Error}

/-! ## One part -/

theorem primitive_eq_success_iff {m : Matcher ι α} :
    primitive (P := P) m c = .ok (.success a d) ↔ m.match? c = some (a, d) := by
  unfold primitive
  cases m.match? c with
  | none => simp
  | some found => cases found; simp

theorem attempt_eq_success_iff {demote : P.Error → P.Failure} :
    attempt demote p c = .ok (.success a d) ↔ p c = .ok (.success a d) := by
  unfold attempt
  split <;> simp_all

theorem escalate_eq_success_iff {promote : P.Failure → P.Error} :
    escalate promote p c = .ok (.success a d) ↔ p c = .ok (.success a d) := by
  unfold escalate
  split <;> simp_all

theorem escalate_ne_failure {promote : P.Failure → P.Error} {f : P.Failure} :
    escalate promote p c ≠ .ok (.failure f) := by
  unfold escalate
  split <;> simp_all

theorem bind_eq_success_iff {g : α → Except String β} :
    bind g p c = .ok (.success b d) ↔ ∃ a, p c = .ok (.success a d) ∧ g a = .ok b := by
  unfold bind
  cases p c with
  | error stop => simp
  | ok o =>
    cases o with
    | success a rest => cases hg : g a <;> grind
    | failure f => simp
    | error e => simp

theorem bind_eq_failure_iff {g : α → Except String β} {f : P.Failure} :
    bind g p c = .ok (.failure f) ↔ p c = .ok (.failure f) := by
  unfold bind
  cases p c with
  | error stop => simp
  | ok o =>
    cases o with
    | success a rest => cases hg : g a <;> simp [hg]
    | failure f => simp
    | error e => simp

theorem bind_eq_error_iff {g : α → Except String β} :
    bind g p c = .ok (.error e) ↔ p c = .ok (.error e) := by
  unfold bind
  cases p c with
  | error stop => simp
  | ok o =>
    cases o with
    | success a rest => cases hg : g a <;> simp [hg]
    | failure f => simp
    | error e => simp

theorem map_eq_success_iff {g : α → β} :
    map g p c = .ok (.success b d) ↔ ∃ a, p c = .ok (.success a d) ∧ g a = b := by
  unfold map
  rw [bind_eq_success_iff]
  simp

theorem map_eq_failure_iff {g : α → β} {f : P.Failure} :
    map g p c = .ok (.failure f) ↔ p c = .ok (.failure f) := bind_eq_failure_iff

theorem map_eq_error_iff {g : α → β} : map g p c = .ok (.error e) ↔ p c = .ok (.error e) :=
  bind_eq_error_iff

theorem check_eq_success_iff {g : α → Except P.Error β} :
    check g p c = .ok (.success b d) ↔ ∃ a, p c = .ok (.success a d) ∧ g a = .ok b := by
  unfold check
  cases p c with
  | error stop => simp
  | ok o =>
    cases o with
    | success a rest => cases hg : g a <;> grind
    | failure f => simp
    | error e => simp

theorem check_eq_failure_iff {g : α → Except P.Error β} {f : P.Failure} :
    check g p c = .ok (.failure f) ↔ p c = .ok (.failure f) := by
  unfold check
  cases p c with
  | error stop => simp
  | ok o =>
    cases o with
    | success a rest => cases hg : g a <;> simp [hg]
    | failure f => simp
    | error e => simp

theorem check_eq_error_iff {g : α → Except P.Error β} :
    check g p c = .ok (.error e) ↔
      p c = .ok (.error e) ∨ ∃ a d, p c = .ok (.success a d) ∧ g a = .error e := by
  unfold check
  cases p c with
  | error stop => simp
  | ok o =>
    cases o with
    | success a rest => cases hg : g a <;> simp +contextual [hg, eq_comm]
    | failure f => simp
    | error e => simp

theorem mapPayload_eq_success_iff {onFailure : P.Failure → Q.Failure}
    {onError : P.Error → Q.Error} :
    mapPayload onFailure onError p c = .ok (.success a d) ↔ p c = .ok (.success a d) := by
  unfold mapPayload
  split <;> simp_all

theorem mapPayload_eq_failure {onFailure : P.Failure → Q.Failure} {onError : P.Error → Q.Error}
    {f : Q.Failure} (h : mapPayload onFailure onError p c = .ok (.failure f)) :
    ∃ f', p c = .ok (.failure f') := by
  unfold mapPayload at h
  split at h
  · simp at h
  next f' hf' => exact ⟨f', hf'⟩
  · simp at h
  · simp at h

/-! ## Several parts -/

theorem pair_eq_success_iff :
    pair p q c = .ok (.success (a, b) d) ↔
      ∃ rest, p c = .ok (.success a rest) ∧ q rest = .ok (.success b d) := by
  unfold pair
  cases p c with
  | error stop => simp
  | ok o =>
    cases o with
    | success a rest =>
      cases hq : q rest with
      | error stop => grind
      | ok o => cases o <;> grind
    | failure f => simp
    | error e => simp

theorem pair_eq_failure_iff {f : P.Failure} :
    pair p q c = .ok (.failure f) ↔ p c = .ok (.failure f) := by
  unfold pair
  cases p c with
  | error stop => simp
  | ok o =>
    cases o with
    | success a rest =>
      cases hq : q rest with
      | error stop => simp [hq]
      | ok o => cases o <;> simp [hq]
    | failure f => simp
    | error e => simp

theorem pair_eq_error_iff :
    pair p q c = .ok (.error e) ↔
      p c = .ok (.error e) ∨
        ∃ a rest, p c = .ok (.success a rest) ∧
          (q rest = .ok (.error e) ∨ e = P.incomplete ∧ ∃ f, q rest = .ok (.failure f)) := by
  unfold pair
  cases p c with
  | error stop => simp
  | ok o =>
    cases o with
    | success a rest =>
      cases hq : q rest with
      | error stop => grind
      | ok o => cases o <;> grind
    | failure f => simp
    | error e => simp

/-- The first of several alternatives decides, unless it fails. -/
theorem choice_cons_iff {ps : List (Reading ι P α)}
    {o : Outcome P.Failure P.Error ι α} :
    choice (p :: ps) c = .ok o ↔
      p c = .ok o ∧ (∀ f, o ≠ .failure f) ∨
        (∃ f, p c = .ok (.failure f)) ∧ choice ps c = .ok o := by
  rw [choice]
  cases p c with
  | error stop => simp
  | ok o' => cases o' <;> grind

theorem choice_of_success {ps : List (Reading ι P α)} {a : α} (h : p c = .ok (.success a d)) :
    choice (p :: ps) c = .ok (.success a d) := by
  rw [choice, h]

theorem choice_of_error {ps : List (Reading ι P α)} {e : P.Error} (h : p c = .ok (.error e)) :
    choice (p :: ps) c = .ok (.error e) := by
  rw [choice, h]

theorem choice_of_failure {ps : List (Reading ι P α)} {f : P.Failure}
    (h : p c = .ok (.failure f)) : choice (p :: ps) c = choice ps c := by
  rw [choice, h]

/-! ## Readings that stop -/

variable {stop : Stop}

theorem attempt_eq_stop_iff {demote : P.Error → P.Failure} :
    attempt demote p c = .error stop ↔ p c = .error stop := by
  unfold attempt
  split <;> simp_all

theorem escalate_eq_stop_iff {promote : P.Failure → P.Error} :
    escalate promote p c = .error stop ↔ p c = .error stop := by
  unfold escalate
  split <;> simp_all

theorem mapPayload_eq_stop_iff {onFailure : P.Failure → Q.Failure}
    {onError : P.Error → Q.Error} :
    mapPayload onFailure onError p c = .error stop ↔ p c = .error stop := by
  unfold mapPayload
  split <;> simp_all

theorem bind_eq_stop_iff {g : α → Except String β} :
    bind g p c = .error stop ↔
      p c = .error stop ∨
        ∃ a d message, p c = .ok (.success a d) ∧ g a = .error message ∧
          stop = .aborted message := by
  unfold bind
  cases p c with
  | error stop' => simp
  | ok o =>
    cases o with
    | success a rest => cases hg : g a <;> grind
    | failure f => simp
    | error e => simp

theorem map_eq_stop_iff {g : α → β} : map g p c = .error stop ↔ p c = .error stop := by
  unfold map
  rw [bind_eq_stop_iff]
  simp

theorem check_eq_stop_iff {g : α → Except P.Error β} :
    check g p c = .error stop ↔ p c = .error stop := by
  unfold check
  cases p c with
  | error stop' => simp
  | ok o =>
    cases o with
    | success a rest => cases hg : g a <;> simp [hg]
    | failure f => simp
    | error e => simp

theorem pair_eq_stop_iff :
    pair p q c = .error stop ↔
      p c = .error stop ∨ ∃ a rest, p c = .ok (.success a rest) ∧ q rest = .error stop := by
  unfold pair
  cases p c with
  | error stop' => simp
  | ok o =>
    cases o with
    | success a rest =>
      cases hq : q rest with
      | error stop' => grind
      | ok o => cases o <;> grind
    | failure f => simp
    | error e => simp

theorem choice_eq_stop {ps : List (Reading ι P α)} (h : choice ps c = .error stop) :
    ∃ p ∈ ps, p c = .error stop := by
  induction ps with
  | nil => simp [choice] at h
  | cons p ps ih =>
    rw [choice] at h
    split at h
    · obtain ⟨q, hq, hstop⟩ := ih h
      exact ⟨q, List.mem_cons_of_mem _ hq, hstop⟩
    · exact ⟨p, List.mem_cons_self, h⟩

/-- Where a sequence stops, one of its parts does, on an input with a property
that the successes of its parts keep. -/
theorem sequence_eq_stop_within {V : ι → Prop} {ps : List (Reading ι P α)}
    (hps : ∀ p ∈ ps, ∀ c a d, V c → p c = .ok (.success a d) → V d) (hc : V c)
    (h : sequence ps c = .error stop) : ∃ p ∈ ps, ∃ d, V d ∧ p d = .error stop := by
  induction ps generalizing c with
  | nil => simp [sequence] at h
  | cons p ps ih =>
    rcases pair_eq_stop_iff.1 (map_eq_stop_iff.1 h) with hp | ⟨a, rest, hfirst, hrest⟩
    · exact ⟨p, List.mem_cons_self, c, hc, hp⟩
    · have hrestV : V rest := hps p List.mem_cons_self c a rest hc hfirst
      obtain ⟨q, hq, hstop⟩ := ih (fun q hq => hps q (List.mem_cons_of_mem _ hq)) hrestV hrest
      exact ⟨q, List.mem_cons_of_mem _ hq, hstop⟩

theorem sequence_eq_stop {ps : List (Reading ι P α)} (h : sequence ps c = .error stop) :
    ∃ p ∈ ps, ∃ d, p d = .error stop := by
  obtain ⟨p, hp, d, -, hstop⟩ :=
    sequence_eq_stop_within (V := fun _ => True) (fun _ _ _ _ _ _ _ => trivial) trivial h
  exact ⟨p, hp, d, hstop⟩

/-! ## Readings that answer -/

/-- The reading does not stop at `c`. -/
def Answers (p : Reading ι P α) (c : ι) : Prop := ∃ o, p c = .ok o

theorem Answers.map (g : α → β) (hp : p.Answers c) : (map g p).Answers c := by
  obtain ⟨o, ho⟩ := hp
  cases o with
  | success a d => exact ⟨_, map_eq_success_iff.2 ⟨a, ho, rfl⟩⟩
  | failure f => exact ⟨_, map_eq_failure_iff.2 ho⟩
  | error e => exact ⟨_, map_eq_error_iff.2 ho⟩

theorem Answers.pair (hp : p.Answers c) (hq : ∀ a d, p c = .ok (.success a d) → q.Answers d) :
    (pair p q).Answers c := by
  obtain ⟨o, ho⟩ := hp
  cases o with
  | failure f => exact ⟨_, pair_eq_failure_iff.2 ho⟩
  | error e => exact ⟨_, pair_eq_error_iff.2 (.inl ho)⟩
  | success a d =>
    obtain ⟨o, hd⟩ := hq a d ho
    cases o with
    | success b rest => exact ⟨_, pair_eq_success_iff.2 ⟨d, ho, hd⟩⟩
    | failure f => exact ⟨_, pair_eq_error_iff.2 (.inr ⟨a, d, ho, .inr ⟨rfl, f, hd⟩⟩)⟩
    | error e => exact ⟨_, pair_eq_error_iff.2 (.inr ⟨a, d, ho, .inl hd⟩)⟩

theorem Answers.choice {ps : List (Reading ι P α)} (hps : ∀ p ∈ ps, p.Answers c) :
    (choice ps).Answers c := by
  induction ps with
  | nil => exact ⟨_, rfl⟩
  | cons p ps ih =>
    obtain ⟨o, ho⟩ := hps p List.mem_cons_self
    cases o with
    | failure f =>
      obtain ⟨o, hrest⟩ := ih fun p hp => hps p (List.mem_cons_of_mem _ hp)
      exact ⟨o, (choice_of_failure ho).trans hrest⟩
    | success a d => exact ⟨_, choice_of_success ho⟩
    | error e => exact ⟨_, choice_of_error ho⟩

end Triad.Reading
