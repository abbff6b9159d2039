import Mathlib.Data.List.OfFn
import Triad.Proofs.Meaning.Everywhere

/-!
# What parts leave behind

Calls that are made one after another leave behind what each of them leaves,
one behind the other.  All but the last one have answered, since otherwise
there would be no further call.  So there are two things to say of a part: what
it leaves when it answers, and what it leaves in any case.  `Leaves` says both,
and the combinators keep it if the two properties are closed under putting
lists together.  So what a call keeps holds of the history of a grammar
(`Grammar.history_leaves`).
-/

namespace Triad

namespace History

universe u

variable {ι : Type} {P Q : Payloads} {α β : Type} {E : Type u} {A B : List E → Prop}

/-- An element of two lists put together is in the first one or in the second one. -/
theorem split_append {es fs before after : List E} {e : E} (h : es ++ fs = before ++ e :: after) :
    (∃ rest, es = before ++ e :: rest ∧ after = rest ++ fs) ∨
      ∃ front, before = es ++ front ∧ fs = front ++ e :: after := by
  rcases List.append_eq_append_iff.1 h with ⟨middle, hbefore, hfs⟩ | ⟨middle, hes, hafter⟩
  · exact .inr ⟨middle, hbefore, hfs⟩
  · cases middle with
    | nil => exact .inr ⟨[], by simpa using hes.symm, hafter.symm⟩
    | cons e' middle =>
      obtain ⟨rfl, rfl⟩ := List.cons.inj hafter
      exact .inl ⟨middle, hes, rfl⟩

/-- `A` holds of lists put together from those that it holds of.  `B` is
weaker, and the last list need not have more than `B`. -/
structure Closed (A B : List E → Prop) : Prop where
  nil : A []
  append : ∀ {es fs}, A es → A fs → A (es ++ fs)
  weaken : ∀ {es}, A es → B es
  last : ∀ {es fs}, A es → B fs → B (es ++ fs)

/-- A property that any part may have. -/
theorem Closed.uniform (hnil : A []) (happend : ∀ {es fs}, A es → A fs → A (es ++ fs)) :
    Closed A A := ⟨hnil, happend, id, happend⟩

/-- A property that only parts that answer need to have. -/
theorem Closed.ofAnswers (hnil : A []) (happend : ∀ {es fs}, A es → A fs → A (es ++ fs)) :
    Closed A fun _ => True := ⟨hnil, happend, fun _ => trivial, fun _ _ => trivial⟩

/-- Where the part answers, it leaves a list with `A`, and otherwise one with `B`. -/
structure Leaves (A B : List E → Prop) (p : Reading ι P α × (ι → List E)) : Prop where
  answers : ∀ {c o}, p.1 c = .ok o → A (p.2 c)
  always : ∀ c, B (p.2 c)

namespace Leaves

variable {p : Reading ι P α × (ι → List E)} {q : Reading ι P β × (ι → List E)}
  {ps : List (Reading ι P α × (ι → List E))}

/-- A reading that stops where the part does leaves what the part leaves. -/
theorem through (hp : Leaves A B p) {x : Reading ι Q β}
    (hx : ∀ {c stop}, p.1 c = .error stop → x c = .error stop) : Leaves A B (x, p.2) where
  answers := by
    intro c o ho
    cases hpc : p.1 c with
    | error stop => cases ho.symm.trans (hx hpc)
    | ok o' => exact hp.answers hpc
  always := hp.always

/-- A reading that calls no parts. -/
theorem silent (h : Closed A B) (x : Reading ι P α) : Leaves A B (x, fun _ => []) :=
  ⟨fun _ => h.nil, fun _ => h.weaken h.nil⟩

variable (h : Closed A B)

include h

/-- What is left before the first part stops, or by all parts. -/
theorem pair (hp : Leaves A B p) (hq : Leaves A B q) :
    Leaves A B (Reading.pair p.1 q.1, History.pair p q) where
  answers := by
    intro c o ho
    dsimp only [Reading.pair, History.pair] at ho ⊢
    cases hpc : p.1 c with
    | error stop => simp [hpc] at ho
    | ok o' =>
      refine h.append (hp.answers hpc) ?_
      cases o' with
      | success a rest =>
        cases hqc : q.1 rest with
        | error stop => simp [hpc, hqc] at ho
        | ok o'' => exact hq.answers hqc
      | failure f => exact h.nil
      | error e => exact h.nil
  always := by
    intro c
    dsimp only [History.pair]
    cases hpc : p.1 c with
    | error stop => simpa using hp.always c
    | ok o =>
      refine h.last (hp.answers hpc) ?_
      cases o with
      | success a rest => exact hq.always rest
      | failure f => exact h.weaken h.nil
      | error e => exact h.weaken h.nil

theorem choice (hps : ∀ p ∈ ps, Leaves A B p) :
    Leaves A B (Reading.choice (ps.map Prod.fst), History.choice ps) := by
  induction ps with
  | nil => exact ⟨fun _ => h.nil, fun _ => h.weaken h.nil⟩
  | cons p ps ih =>
    have hp := hps p List.mem_cons_self
    have hrest := ih fun p hp => hps p (List.mem_cons_of_mem _ hp)
    refine ⟨fun {c o} ho => ?_, fun c => ?_⟩
    · dsimp only at ho
      rw [List.map_cons, Reading.choice] at ho
      dsimp only [History.choice]
      cases hpc : p.1 c with
      | error stop => simp [hpc] at ho
      | ok o' =>
        refine h.append (hp.answers hpc) ?_
        cases o' with
        | failure f =>
          rw [hpc] at ho
          exact hrest.answers ho
        | success a rest => exact h.nil
        | error e => exact h.nil
    · dsimp only [History.choice]
      cases hpc : p.1 c with
      | error stop => simpa using hp.always c
      | ok o =>
        refine h.last (hp.answers hpc) ?_
        cases o with
        | failure f => exact hrest.always c
        | success a rest => exact h.weaken h.nil
        | error e => exact h.weaken h.nil

theorem sequence (hps : ∀ p ∈ ps, Leaves A B p) :
    Leaves A B (Reading.sequence (ps.map Prod.fst), History.sequence ps) := by
  induction ps with
  | nil => exact ⟨fun _ => h.nil, fun _ => h.weaken h.nil⟩
  | cons p ps ih =>
    have hrest := ih fun p hp => hps p (List.mem_cons_of_mem _ hp)
    have hpair := pair h (hps p List.mem_cons_self) hrest
    refine ⟨fun {c o} ho => ?_, hpair.always⟩
    cases hx : Reading.pair p.1 (Reading.sequence (ps.map Prod.fst)) c with
    | ok o' => exact hpair.answers hx
    | error stop => simp [Reading.sequence, Reading.map, Reading.bind, hx] at ho

variable [DecidableEq ι]

theorem collect_answers (hp : Leaves A B p) {max rounds count : Nat} {c : ι}
    {y : Except P.Error (List α × ι)} (hy : Reading.collect max p.1 rounds count c = .ok y) :
    A (History.collect max p rounds count c) := by
  induction rounds generalizing count c y with
  | zero =>
    unfold History.collect
    split <;> exact h.nil
  | succ rounds ih =>
    unfold Reading.collect at hy
    unfold History.collect
    split
    · exact h.nil
    next hmax =>
      rw [if_neg hmax] at hy
      cases hpc : p.1 c with
      | error stop => simp [hpc] at hy
      | ok o =>
        refine h.append (hp.answers hpc) ?_
        cases o with
        | failure f => exact h.nil
        | error e => exact h.nil
        | success a rest =>
          dsimp only
          split
          · exact h.nil
          next hmoves =>
            cases hrest : Reading.collect max p.1 rounds (count + 1) rest with
            | error stop => simp [hpc, hmoves, hrest] at hy
            | ok y' => exact ih hrest

theorem collect_always (hp : Leaves A B p) (max rounds count : Nat) (c : ι) :
    B (History.collect max p rounds count c) := by
  induction rounds generalizing count c with
  | zero =>
    unfold History.collect
    split <;> exact h.weaken h.nil
  | succ rounds ih =>
    unfold History.collect
    split
    · exact h.weaken h.nil
    · cases hpc : p.1 c with
      | error stop => simpa using hp.always c
      | ok o =>
        refine h.last (hp.answers hpc) ?_
        cases o with
        | failure f => exact h.weaken h.nil
        | error e => exact h.weaken h.nil
        | success a rest =>
          dsimp only
          split
          · exact h.weaken h.nil
          · exact ih (count + 1) rest

theorem many (hp : Leaves A B p) (rounds min max : Nat) :
    Leaves A B (Reading.many rounds min max p.1, History.collect max p rounds 0) where
  answers := by
    intro c o ho
    cases hy : Reading.collect max p.1 rounds 0 c with
    | ok y => exact collect_answers h hp hy
    | error stop => simp [Reading.many, hy] at ho
  always := collect_always h hp max rounds 0

end Leaves

end History

/-! ## Histories of grammars -/

open History in
/-- `A` holds of the history of a grammar where it answers, and `B` in any
case.  It is enough that a call keeps them, given that they hold of what its
parts leave. -/
theorem Grammar.history_leaves {ι : Type} {N : Payloads → Type → Type} {ε : Type} {P : Payloads}
    {α : Type} [DecidableEq ι] {ok : ∀ {P : Payloads} {α : Type}, Grammar ι N P α → Prop}
    {rounds : Nat} {reads : ∀ {P : Payloads} {α : Type}, N P α → Reading ι P α}
    {called : ∀ {P : Payloads} {α : Type}, N P α → (P.Error → ε) → ι → List (Event ι N ε)}
    {A B : List (Event ι N ε) → Prop} (h : Closed A B)
    (hcall : ∀ {P : Payloads} {α : Type} (g : Grammar ι N P α) (raise : P.Error → ε)
      {inner : ι → List (Event ι N ε)}, g.Everywhere ok →
      (∀ c, g.history rounds reads called raise c =
        Call.around ⟨g, c, raise⟩ (inner c) (g.reading rounds reads c)) →
      Leaves A B (g.reading rounds reads, inner) →
      Leaves A B (g.reading rounds reads, g.history rounds reads called raise))
    (hnamed : ∀ {P : Payloads} {α : Type} (name : N P α), ok (.rule name) →
      ∀ raise : P.Error → ε, Leaves A B (reads name, called name raise))
    {g : Grammar ι N P α} (hg : g.Everywhere ok) (raise : P.Error → ε) :
    Leaves A B (g.reading rounds reads, g.history rounds reads called raise) := by
  have hsilent {P : Payloads} {α : Type} (x : Reading ι P α) :
      Leaves A B (x, fun _ => ([] : List (Event ι N ε))) := .silent h x
  induction g with
  | succeed value next => exact hcall (.succeed value next) raise hg (fun _ => rfl) (hsilent _)
  | fail payload => exact hcall (.fail payload) raise hg (fun _ => rfl) (hsilent _)
  | error payload => exact hcall (.error payload) raise hg (fun _ => rfl) (hsilent _)
  | abort message => exact hcall (.abort message) raise hg (fun _ => rfl) (hsilent _)
  | primitive m => exact hcall (.primitive m) raise hg (fun _ => rfl) (hsilent _)
  | attempt demote p ih =>
    exact hcall (.attempt demote p) raise hg (fun _ => rfl)
      ((ih hg.2 raise).through Reading.attempt_eq_stop_iff.2)
  | escalate promote p ih =>
    exact hcall (.escalate promote p) raise hg (fun _ => rfl)
      ((ih hg.2 raise).through Reading.escalate_eq_stop_iff.2)
  | bind f p ih =>
    exact hcall (.bind f p) raise hg (fun _ => rfl)
      ((ih hg.2 raise).through fun hstop => Reading.bind_eq_stop_iff.2 (.inl hstop))
  | mapPayload onFailure onError p ih =>
    exact hcall (.mapPayload onFailure onError p) raise hg (fun _ => rfl)
      ((ih hg.2 _).through Reading.mapPayload_eq_stop_iff.2)
  | check f p ih =>
    exact hcall (.check f p) raise hg (fun _ => rfl)
      ((ih hg.2 raise).through Reading.check_eq_stop_iff.2)
  | context name p ih =>
    exact hcall (.context name p) raise hg (fun _ => rfl)
      ((ih hg.2 _).through Reading.mapPayload_eq_stop_iff.2)
  | label name p ih => exact hcall (.label name p) raise hg (fun _ => rfl) (ih hg.2 raise)
  | many min max p ih =>
    exact hcall (.many min max p) raise hg (fun _ => rfl) ((ih hg.2 raise).many h rounds min max)
  | pair p q ihp ihq =>
    exact hcall (.pair p q) raise hg (fun _ => rfl) ((ihp hg.2.1 raise).pair h (ihq hg.2.2 raise))
  | choice count ps ih =>
    have hps := Leaves.choice h (List.forall_mem_ofFn_iff.2 fun i => ih i (hg.2 i) raise)
    rw [List.map_ofFn] at hps
    exact hcall (.choice count ps) raise hg (fun _ => rfl) hps
  | sequence count ps ih =>
    have hps := Leaves.sequence h (List.forall_mem_ofFn_iff.2 fun i => ih i (hg.2 i) raise)
    rw [List.map_ofFn] at hps
    exact hcall (.sequence count ps) raise hg (fun _ => rfl) hps
  | defer note p ih => exact hcall (.defer note p) raise hg (fun _ => rfl) (ih hg.2 raise)
  | rule name => exact hcall (.rule name) raise hg (fun _ => rfl) (hnamed name hg.1 raise)
  | tap id p ih => exact hcall (.tap id p) raise hg (fun _ => rfl) (ih hg.2 raise)

end Triad
