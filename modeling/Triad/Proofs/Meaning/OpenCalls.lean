import Triad.Proofs.Meaning.Leaves

/-!
# Open calls

At every moment of a run some calls are open: they have been entered and not
been left.  `opened` lists them, the innermost first.

A part that answers has left all calls that it has entered, so it leaves the
open calls as it found them (`Grammar.history_balanced`).  This makes a
statement about all entries of a run, and what is open at each of them, one
about the parts: it holds of a node if it holds of the parts, where each part
begins after what the parts before it did (`Part.Admits.pair` and so on).
-/

namespace Triad

variable {ι : Type} {N : Payloads → Type → Type} {ε : Type} {P Q : Payloads} {α β : Type}

/-- The calls that are open after the events, if `stack` was open before. -/
def opened (stack : List (Call ι N ε)) : List (Event ι N ε) → List (Call ι N ε)
  | [] => stack
  | .enter k :: evs => opened (k :: stack) evs
  | .leave _ _ :: evs => opened stack.tail evs

@[simp] theorem opened_append (stack : List (Call ι N ε)) (evs evs' : List (Event ι N ε)) :
    opened stack (evs ++ evs') = opened (opened stack evs) evs' := by
  induction evs generalizing stack with
  | nil => rfl
  | cons ev evs ih =>
    cases ev with
    | enter k => exact ih _
    | leave k o => exact ih _

/-! ## Parts that answer -/

/-- All that was entered has been left again. -/
def Balanced (evs : List (Event ι N ε)) : Prop := ∀ stack, opened stack evs = stack

theorem Balanced.nil : Balanced ([] : List (Event ι N ε)) := fun _ => rfl

theorem Balanced.append {evs evs' : List (Event ι N ε)} (h : Balanced evs) (h' : Balanced evs') :
    Balanced (evs ++ evs') := by
  intro stack
  rw [opened_append, h, h']

theorem Balanced.around {k : Call ι N ε} {inner : List (Event ι N ε)} (h : Balanced inner)
    (o : Outcome k.payloads.Failure k.payloads.Error ι k.value) :
    Balanced (k.around inner (.ok o)) := by
  intro stack
  show opened (k :: stack) (inner ++ [.leave k o]) = stack
  rw [opened_append, h]
  rfl

namespace History

/-- Where the part does not stop, it leaves the open calls as they were. -/
def Part.Balanced (p : Part ι N ε P α) : Prop :=
  ∀ c, (∀ stop, p.1 c ≠ .error stop) → Triad.Balanced (p.2 c)

theorem Part.Balanced.iff_leaves {p : Part ι N ε P α} :
    p.Balanced ↔ Leaves Triad.Balanced (fun _ => True) p := by
  refine ⟨fun hp => ⟨fun {c o} ho => hp c ?_, fun _ => trivial⟩, fun hp c hc => ?_⟩
  · simp [ho]
  · cases ho : p.1 c with
    | ok o => exact hp.answers ho
    | error stop => exact absurd ho (hc stop)

end History

/-! ## Entries -/

/-- Each call that is entered is admitted after what was done before, `past`
included. -/
def Admits (A : List (Event ι N ε) → Call ι N ε → Prop) (past evs : List (Event ι N ε)) : Prop :=
  ∀ before k after, evs = before ++ .enter k :: after → A (past ++ before) k

namespace Admits

variable {A : List (Event ι N ε) → Call ι N ε → Prop} {past evs evs' : List (Event ι N ε)}

theorem nil : Admits A past [] := by
  intro before k after h
  simp at h

theorem append (h : Admits A past evs) (h' : Admits A (past ++ evs) evs') :
    Admits A past (evs ++ evs') := by
  intro before k after hevs
  rcases History.split_append hevs with ⟨rest, hleft, -⟩ | ⟨front, rfl, hright⟩
  · exact h before k rest hleft
  · rw [← List.append_assoc]
    exact h' front k after hright

theorem around {k : Call ι N ε} (hk : A past k) (h : Admits A (past ++ [.enter k]) evs)
    (x : Except Stop (Outcome k.payloads.Failure k.payloads.Error ι k.value)) :
    Admits A past (k.around evs x) := by
  have henter : Admits A past [.enter k] := by
    intro before k' after hevs
    cases before with
    | nil =>
      obtain rfl : k = k' := Event.enter.inj (List.cons.inj hevs).1
      rwa [List.append_nil]
    | cons ev before => simp at hevs
  have hleave : ∀ past' o, Admits A past' [.leave k o] := by
    intro past' o before k' after hevs
    simp [List.cons_eq_append_iff] at hevs
  refine (henter.append h).append ?_
  cases x with
  | ok o => exact hleave _ o
  | error stop => exact .nil

end Admits

namespace History

/-- The part enters admitted calls only, if `V` holds of the open calls and
the input on which it is called. -/
def Part.Admits (A : List (Event ι N ε) → Call ι N ε → Prop) (V : List (Call ι N ε) → ι → Prop)
    (p : Part ι N ε P α) : Prop :=
  ∀ past c, V (opened [] past) c → Triad.Admits A past (p.2 c)

namespace Part.Admits

variable {A : List (Event ι N ε) → Call ι N ε → Prop} {V : List (Call ι N ε) → ι → Prop}
  {p : Part ι N ε P α} {q : Part ι N ε P β} {ps : List (Part ι N ε P α)}

theorem around (hp : p.Admits A V) {g : Grammar ι N Q β} {raise : Q.Error → ε}
    (hk : ∀ past c, V (opened [] past) c →
      A past ⟨g, c, raise⟩ ∧ V (⟨g, c, raise⟩ :: opened [] past) c)
    (x : Reading ι Q β) :
    Part.Admits A V (x, fun c => Call.around ⟨g, c, raise⟩ (p.2 c) (x c)) := by
  intro past c hc
  obtain ⟨hadmitted, hinside⟩ := hk past c hc
  refine Triad.Admits.around (k := ⟨g, c, raise⟩) hadmitted (hp _ c ?_) _
  rwa [opened_append]

/-- The second part begins with the calls open that were open before the first. -/
theorem pair (hp : p.Admits A V) (hbalanced : p.Balanced)
    (hleaves : ∀ {stack c a d}, V stack c → p.1 c = .ok (.success a d) → V stack d)
    (hq : q.Admits A V) : Part.Admits A V (Reading.pair p.1 q.1, History.pair p q) := by
  intro past c hc
  refine (hp past c hc).append ?_
  split
  next a rest hpc =>
    refine hq _ rest ?_
    rw [opened_append, hbalanced c (by simp [hpc])]
    exact hleaves hc hpc
  next => exact .nil

theorem choice (hps : ∀ p ∈ ps, p.Admits A V ∧ p.Balanced) :
    Part.Admits A V (Reading.choice (ps.map Prod.fst), History.choice ps) := by
  intro past c hc
  dsimp only
  induction ps generalizing past with
  | nil => exact .nil
  | cons p ps ih =>
    obtain ⟨hp, hbalanced⟩ := hps p List.mem_cons_self
    refine (hp past c hc).append ?_
    split
    next f hpc =>
      refine ih (fun q hq => hps q (List.mem_cons_of_mem _ hq)) _ ?_
      rwa [opened_append, hbalanced c (by simp [hpc])]
    next => exact .nil

theorem many [DecidableEq ι] (hp : p.Admits A V) (hbalanced : p.Balanced)
    (hleaves : ∀ {stack c a d}, V stack c → p.1 c = .ok (.success a d) → V stack d)
    (rounds min max : Nat) :
    Part.Admits A V (Reading.many rounds min max p.1, History.collect max p rounds 0) := by
  -- the calls of the rounds that are left
  have hcollect : ∀ rounds count past c, V (opened [] past) c →
      Triad.Admits A past (History.collect max p rounds count c) := by
    intro rounds
    induction rounds with
    | zero =>
      intro count past c _
      unfold History.collect
      split <;> exact .nil
    | succ rounds ih =>
      intro count past c hc
      unfold History.collect
      split
      · exact .nil
      · refine (hp past c hc).append ?_
        split
        next a rest hpc =>
          split
          · exact .nil
          · refine ih _ _ rest ?_
            rw [opened_append, hbalanced c (by simp [hpc])]
            exact hleaves hc hpc
        next => exact .nil
  exact fun past c hc => hcollect rounds 0 past c hc

end Part.Admits

end History

/-! ## Grammars -/

section Grammars

variable [DecidableEq ι]

/-- The history of a grammar is a call of it. -/
theorem Grammar.history_eq_around {rounds : Nat}
    {reads : ∀ {P : Payloads} {α : Type}, N P α → Reading ι P α}
    {called : ∀ {P : Payloads} {α : Type}, N P α → (P.Error → ε) → ι → List (Event ι N ε)}
    (g : Grammar ι N P α) (raise : P.Error → ε) (c : ι) :
    ∃ inner, g.history rounds reads called raise c =
      Call.around ⟨g, c, raise⟩ inner (g.reading rounds reads c) := by
  cases g <;> exact ⟨_, rfl⟩

open History in
/-- The history of a grammar is balanced if those of the names are. -/
theorem Grammar.history_balanced {rounds : Nat}
    {reads : ∀ {P : Payloads} {α : Type}, N P α → Reading ι P α}
    {called : ∀ {P : Payloads} {α : Type}, N P α → (P.Error → ε) → ι → List (Event ι N ε)}
    (hnamed : ∀ {P : Payloads} {α : Type} (name : N P α) (raise : P.Error → ε),
      Part.Balanced (reads name, called name raise))
    (g : Grammar ι N P α) (raise : P.Error → ε) :
    Part.Balanced (g.reading rounds reads, g.history rounds reads called raise) := by
  have hg : g.Everywhere fun _ => True := everywhere_of_forall (fun _ => trivial) g
  refine Part.Balanced.iff_leaves.2 (history_leaves (.ofAnswers .nil .append)
    (fun g raise inner _ hhistory hinner => ?_)
    (fun name _ raise => Part.Balanced.iff_leaves.1 (hnamed name raise)) hg raise)
  refine ⟨fun {c o} ho => ?_, fun _ => trivial⟩
  dsimp only at ho ⊢
  rw [hhistory, ho]
  exact Balanced.around (k := ⟨g, c, raise⟩) (hinner.answers ho) o

theorem Rules.history_balanced (rules : Rules ι N) (rounds depth : Nat) (name : N P α)
    (raise : P.Error → ε) :
    History.Part.Balanced
      (rules.reading rounds depth name, rules.history rounds depth name raise) := by
  induction depth generalizing P α with
  | zero => exact fun _ _ => .nil
  | succ depth ih => exact Grammar.history_balanced ih (rules name) raise

end Grammars

end Triad
