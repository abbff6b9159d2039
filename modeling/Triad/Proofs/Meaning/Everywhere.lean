import Mathlib.Data.List.OfFn
import Triad.Proofs.Meaning.Repetition
import Triad.Proofs.Meaning.Watched

/-!
# What holds of all parts of a grammar

Classes of grammars are given by what their nodes may be.  A property of nodes
holds `Everywhere` in a grammar if it holds of the grammar and of all its
parts; names are left to the rules.

The class that most statements about inputs need is `Grammar.MadeOf`.  Only
constants and primitives touch an input; a grammar is made of those that two
properties admit, one for how a constant moves the input and one for the
primitives.  If these keep a property of inputs, then so does every success of
the grammar, and every call of a run is made on an input that has it
(`Grammar.keeps`, `Rules.keeps`).
-/

namespace Triad

variable {ι : Type} {N : Payloads → Type → Type} {ε : Type} {P : Payloads} {α β : Type}

namespace Grammar

/-- `ok` holds of the grammar and of all its parts. -/
def Everywhere (ok : ∀ {P : Payloads} {α : Type}, Grammar ι N P α → Prop) :
    {P : Payloads} → {α : Type} → Grammar ι N P α → Prop
  | P, α, g =>
    ok g ∧
      match P, α, g with
      | _, _, .succeed _ _ | _, _, .fail _ | _, _, .error _ | _, _, .abort _ => True
      | _, _, .primitive _ | _, _, .rule _ => True
      | _, _, .attempt _ p | _, _, .escalate _ p | _, _, .bind _ p => p.Everywhere ok
      | _, _, .mapPayload _ _ p | _, _, .check _ p | _, _, .context _ p => p.Everywhere ok
      | _, _, .label _ p | _, _, .many _ _ p | _, _, .defer _ p => p.Everywhere ok
      | _, _, .tap _ p => p.Everywhere ok
      | _, _, .pair p q => p.Everywhere ok ∧ q.Everywhere ok
      | _, _, .choice _ ps | _, _, .sequence _ ps => ∀ i, (ps i).Everywhere ok

variable {ok ok' : ∀ {P : Payloads} {α : Type}, Grammar ι N P α → Prop}

theorem Everywhere.here {g : Grammar ι N P α} (hg : g.Everywhere ok) : ok g := by
  cases g <;> exact hg.1

theorem everywhere_of_forall (h : ∀ {P : Payloads} {α : Type} (g : Grammar ι N P α), ok g)
    (g : Grammar ι N P α) : g.Everywhere ok := by
  induction g with
  | succeed | fail | error | abort | primitive | rule => exact ⟨h _, trivial⟩
  | attempt _ _ ih | escalate _ _ ih | bind _ _ ih | check _ _ ih => exact ⟨h _, ih⟩
  | context _ _ ih | label _ _ ih | defer _ _ ih | tap _ _ ih => exact ⟨h _, ih⟩
  | mapPayload _ _ _ ih | many _ _ _ ih => exact ⟨h _, ih⟩
  | pair _ _ ihp ihq => exact ⟨h _, ihp, ihq⟩
  | choice _ _ ih | sequence _ _ ih => exact ⟨h _, ih⟩

theorem Everywhere.mono (h : ∀ {P : Payloads} {α : Type} (g : Grammar ι N P α), ok g → ok' g)
    {g : Grammar ι N P α} (hg : g.Everywhere ok) : g.Everywhere ok' := by
  induction g with
  | succeed | fail | error | abort | primitive | rule => exact ⟨h _ hg.1, trivial⟩
  | attempt _ _ ih | escalate _ _ ih | bind _ _ ih | check _ _ ih => exact ⟨h _ hg.1, ih hg.2⟩
  | context _ _ ih | label _ _ ih | defer _ _ ih | tap _ _ ih => exact ⟨h _ hg.1, ih hg.2⟩
  | mapPayload _ _ _ ih | many _ _ _ ih => exact ⟨h _ hg.1, ih hg.2⟩
  | pair _ _ ihp ihq => exact ⟨h _ hg.1, ihp hg.2.1, ihq hg.2.2⟩
  | choice _ _ ih | sequence _ _ ih => exact ⟨h _ hg.1, fun i => ih i (hg.2 i)⟩

/-- Watching keeps what holds everywhere, if taps may stand anywhere. -/
theorem Everywhere.watched {id : String}
    (h : ∀ {P : Payloads} {α : Type} (g : Grammar ι N P α), ok g → ok (g.watched id))
    {g : Grammar ι N P α} (hg : g.Everywhere ok) : (g.watched id).Everywhere ok := by
  induction g with
  | succeed | fail | error | abort | primitive => exact ⟨h _ hg.1, hg⟩
  | rule => exact ⟨h _ hg.1, trivial⟩
  | attempt _ _ ih | escalate _ _ ih | bind _ _ ih | check _ _ ih => exact ⟨h _ hg.1, ih hg.2⟩
  | context _ _ ih | label _ _ ih | defer _ _ ih | tap _ _ ih => exact ⟨h _ hg.1, ih hg.2⟩
  | mapPayload _ _ _ ih | many _ _ _ ih => exact ⟨h _ hg.1, ih hg.2⟩
  | pair _ _ ihp ihq => exact ⟨h _ hg.1, ihp hg.2.1, ihq hg.2.2⟩
  | choice _ _ ih | sequence _ _ ih => exact ⟨h _ hg.1, fun i => ih i (hg.2 i)⟩

theorem everywhere_firstOf {ps : List (Grammar ι N P α)} :
    (firstOf ps).Everywhere ok ↔ ok (firstOf ps) ∧ ∀ p ∈ ps, p.Everywhere ok := by
  rw [List.forall_mem_iff_get]
  exact Iff.rfl

/-- A constant that moves the input as `moves` admits, a primitive that
`reads` admits, or a node that does not touch the input. -/
def LeafOf (moves : (ι → ι) → Prop) (reads : ∀ {α : Type}, Matcher ι α → Prop) :
    Grammar ι N P α → Prop
  | .succeed _ next => moves next
  | .primitive m => reads m
  | _ => True

/-- The grammar is made of such constants and primitives, in any way. -/
def MadeOf (moves : (ι → ι) → Prop) (reads : ∀ {α : Type}, Matcher ι α → Prop)
    (g : Grammar ι N P α) : Prop :=
  g.Everywhere (LeafOf moves reads)

variable {moves moves' : (ι → ι) → Prop} {reads reads' : ∀ {α : Type}, Matcher ι α → Prop}

theorem MadeOf.mono (hmoves : ∀ next, moves next → moves' next)
    (hreads : ∀ {α : Type} (m : Matcher ι α), reads m → reads' m) {g : Grammar ι N P α}
    (hg : g.MadeOf moves reads) : g.MadeOf moves' reads' := by
  refine Everywhere.mono (fun g hg => ?_) hg
  cases g with
  | succeed value next => exact hmoves next hg
  | primitive m => exact hreads m hg
  | _ => trivial

theorem MadeOf.watched (id : String) {g : Grammar ι N P α} (hg : g.MadeOf moves reads) :
    (g.watched id).MadeOf moves reads :=
  Everywhere.watched (fun g _ => by cases g <;> trivial) hg

@[simp] theorem madeOf_firstOf {ps : List (Grammar ι N P α)} :
    (firstOf ps).MadeOf moves reads ↔ ∀ p ∈ ps, p.MadeOf moves reads :=
  everywhere_firstOf.trans (and_iff_right trivial)

end Grammar

/-- All rules are made of such constants and primitives. -/
def Rules.MadeOf (moves : (ι → ι) → Prop) (reads : ∀ {α : Type}, Matcher ι α → Prop)
    (rules : Rules ι N) : Prop :=
  ∀ {P : Payloads} {α : Type} (name : N P α), (rules name).MadeOf moves reads

theorem Rules.madeOf_none {moves : (ι → ι) → Prop} {reads : ∀ {α : Type}, Matcher ι α → Prop} :
    Rules.MadeOf moves reads Rules.none := fun name => name.elim

/-! ## What successes and calls keep -/

/-- Where the part succeeds, it leaves an input with the property, and its
calls are made on such inputs, if it is called on one itself. -/
structure History.Part.Keeps (V : ι → Prop) (part : History.Part ι N ε P α) : Prop where
  leaves : ∀ {c a d}, V c → part.1 c = .ok (.success a d) → V d
  calls : ∀ {c}, V c → ∀ ev ∈ part.2 c, V ev.call.input

namespace History

variable {V : ι → Prop} {p : Part ι N ε P α}

/-- A node around a part keeps what the part keeps, if its successes leave
what those of the part leave. -/
theorem Part.Keeps.around {Q : Payloads} (hp : p.Keeps V) {g : Grammar ι N Q β}
    {raise : Q.Error → ε} {x : Reading ι Q β}
    (hx : ∀ c b d, x c = .ok (.success b d) → ∃ a, p.1 c = .ok (.success a d)) :
    Part.Keeps V (x, fun c => Call.around ⟨g, c, raise⟩ (p.2 c) (x c)) where
  leaves := by
    intro c b d hc h
    obtain ⟨a, ha⟩ := hx c b d h
    exact hp.leaves hc ha
  calls := by
    intro c hc ev hev
    rcases List.mem_append.1 hev with hev | hev
    · rcases List.mem_cons.1 hev with rfl | hev
      · exact hc
      · exact hp.calls hc ev hev
    · split at hev
      · obtain rfl := List.mem_singleton.1 hev
        exact hc
      · simp at hev

/-- A node without parts. -/
theorem Part.Keeps.leaf {g : Grammar ι N P α} {raise : P.Error → ε} {x : Reading ι P α}
    (hx : ∀ c a d, V c → x c = .ok (.success a d) → V d) :
    Part.Keeps V (x, fun c => Call.around ⟨g, c, raise⟩ [] (x c)) := by
  have hsilent : Part.Keeps V (x, fun _ => ([] : List (Event ι N ε))) :=
    ⟨fun hc h => hx _ _ _ hc h, fun _ _ hev => nomatch hev⟩
  exact hsilent.around fun _ b _ h => ⟨b, h⟩

theorem Part.Keeps.pair {q : Part ι N ε P β} (hp : p.Keeps V) (hq : q.Keeps V) :
    Part.Keeps V (Reading.pair p.1 q.1, History.pair p q) where
  leaves := by
    rintro c ⟨a, b⟩ d hc h
    obtain ⟨rest, hpc, hqc⟩ := Reading.pair_eq_success_iff.1 h
    exact hq.leaves (hp.leaves hc hpc) hqc
  calls := by
    intro c hc ev hev
    rcases List.mem_append.1 hev with hev | hev
    · exact hp.calls hc ev hev
    · split at hev
      next a rest hpc => exact hq.calls (hp.leaves hc hpc) ev hev
      next => simp at hev

theorem Part.Keeps.choice {ps : List (Part ι N ε P α)} (hps : ∀ p ∈ ps, p.Keeps V) :
    Part.Keeps V (Reading.choice (ps.map Prod.fst), History.choice ps) where
  leaves := by
    intro c a d hc h
    induction ps with
    | nil => simp [Reading.choice] at h
    | cons p ps ih =>
      rcases Reading.choice_cons_iff.1 h with ⟨hpc, -⟩ | ⟨-, hrest⟩
      · exact (hps p List.mem_cons_self).leaves hc hpc
      · exact ih (fun p hp => hps p (List.mem_cons_of_mem _ hp)) hrest
  calls := by
    intro c hc
    induction ps with
    | nil =>
      intro ev hev
      simp [History.choice] at hev
    | cons p ps ih =>
      intro ev hev
      rcases List.mem_append.1 hev with hev | hev
      · exact (hps p List.mem_cons_self).calls hc ev hev
      · split at hev
        next => exact ih (fun p hp => hps p (List.mem_cons_of_mem _ hp)) ev hev
        next => simp at hev

theorem Part.Keeps.sequence {ps : List (Part ι N ε P α)} (hps : ∀ p ∈ ps, p.Keeps V) :
    Part.Keeps V (Reading.sequence (ps.map Prod.fst), History.sequence ps) := by
  induction ps with
  | nil =>
    refine ⟨fun {c a d} hc h => ?_, fun _ => nofun⟩
    obtain ⟨-, rfl⟩ : [] = a ∧ c = d := by simpa [Reading.sequence] using h
    exact hc
  | cons p ps ih =>
    have hrest := ih fun p hp => hps p (List.mem_cons_of_mem _ hp)
    have hpair := (hps p List.mem_cons_self).pair hrest
    refine ⟨fun hc h => ?_, hpair.calls⟩
    obtain ⟨_, hs, -⟩ := Reading.map_eq_success_iff.1 h
    exact hpair.leaves hc hs

theorem Part.Keeps.repeats (hp : p.Keeps V) {c d : ι} {as : List α} (hc : V c)
    (h : Reading.Repeats p.1 c as d) : V d := by
  induction h with
  | nil => exact hc
  | cons hstep _ ih => exact ih (hp.leaves hc hstep)

theorem Part.Keeps.collect_calls [DecidableEq ι] (hp : p.Keeps V) {max rounds count : Nat} {c : ι}
    (hc : V c) : ∀ ev ∈ History.collect max p rounds count c, V ev.call.input := by
  induction rounds generalizing count c with
  | zero =>
    intro ev hev
    unfold History.collect at hev
    split at hev <;> simp at hev
  | succ rounds ih =>
    intro ev hev
    unfold History.collect at hev
    split at hev
    next => simp at hev
    next =>
      rcases List.mem_append.1 hev with hev | hev
      · exact hp.calls hc ev hev
      · split at hev
        next a rest hstep =>
          split at hev
          next => simp at hev
          next => exact ih (hp.leaves hc hstep) ev hev
        next => simp at hev

theorem Part.Keeps.many [DecidableEq ι] (hp : p.Keeps V) (rounds min max : Nat) :
    Part.Keeps V (Reading.many rounds min max p.1, History.collect max p rounds 0) where
  leaves := fun hc h => hp.repeats hc (Reading.many_eq_success h).1
  calls := fun hc => hp.collect_calls hc

end History

/-- A constant keeps `V` as it moves the input, and a primitive as it matches. -/
abbrev Grammar.MadeFor (V : ι → Prop) (g : Grammar ι N P α) : Prop :=
  g.MadeOf (fun next => ∀ c, V c → V (next c))
    fun m => ∀ c a d, V c → m.match? c = some (a, d) → V d

abbrev Rules.MadeFor (V : ι → Prop) (rules : Rules ι N) : Prop :=
  rules.MadeOf (fun next => ∀ c, V c → V (next c))
    fun m => ∀ c a d, V c → m.match? c = some (a, d) → V d

open History in
/-- The step of the induction over names: a grammar keeps what its constants
and primitives keep, if the names do. -/
theorem Grammar.keeps [DecidableEq ι] {V : ι → Prop} {rounds : Nat}
    {reads : ∀ {P : Payloads} {α : Type}, N P α → Reading ι P α}
    {called : ∀ {P : Payloads} {α : Type}, N P α → (P.Error → ε) → ι → List (Event ι N ε)}
    (hnamed : ∀ {P : Payloads} {α : Type} (name : N P α) (raise : P.Error → ε),
      Part.Keeps V (reads name, called name raise))
    {g : Grammar ι N P α} (hg : g.MadeFor V) (raise : P.Error → ε) :
    Part.Keeps V (g.reading rounds reads, g.history rounds reads called raise) := by
  induction g with
  | succeed value next =>
    refine Part.Keeps.leaf fun c a d hc h => ?_
    obtain ⟨-, rfl⟩ : value = a ∧ next c = d := by simpa [reading] using h
    exact hg.1 c hc
  | fail payload | error payload | abort message =>
    exact Part.Keeps.leaf fun c a d _ h => by simp [reading] at h
  | primitive m =>
    refine Part.Keeps.leaf fun c a d hc h => ?_
    exact hg.1 c a d hc (Reading.primitive_eq_success_iff.1 h)
  | attempt demote p ih =>
    exact (ih hg.2 raise).around fun c b d h => ⟨b, Reading.attempt_eq_success_iff.1 h⟩
  | escalate promote p ih =>
    exact (ih hg.2 raise).around fun c b d h => ⟨b, Reading.escalate_eq_success_iff.1 h⟩
  | bind f p ih =>
    refine (ih hg.2 raise).around fun c b d h => ?_
    obtain ⟨a, ha, -⟩ := Reading.bind_eq_success_iff.1 h
    exact ⟨a, ha⟩
  | check f p ih =>
    refine (ih hg.2 raise).around fun c b d h => ?_
    obtain ⟨a, ha, -⟩ := Reading.check_eq_success_iff.1 h
    exact ⟨a, ha⟩
  | mapPayload onFailure onError p ih =>
    exact (ih hg.2 _).around fun c b d h => ⟨b, Reading.mapPayload_eq_success_iff.1 h⟩
  | context name p ih =>
    exact (ih hg.2 _).around fun c b d h => ⟨b, Reading.mapPayload_eq_success_iff.1 h⟩
  | label name p ih | defer note p ih | tap id p ih =>
    exact (ih hg.2 raise).around fun c b d h => ⟨b, h⟩
  | many min max p ih =>
    exact ((ih hg.2 raise).many rounds min max).around fun c b d h => ⟨b, h⟩
  | pair p q ihp ihq =>
    exact ((ihp hg.2.1 raise).pair (ihq hg.2.2 raise)).around fun c b d h => ⟨b, h⟩
  | choice count ps ih =>
    refine (Part.Keeps.choice (List.forall_mem_ofFn_iff.2 fun i => ih i (hg.2 i) raise)).around
      fun c b d h => ⟨b, ?_⟩
    rw [List.map_ofFn]
    exact h
  | sequence count ps ih =>
    refine (Part.Keeps.sequence (List.forall_mem_ofFn_iff.2 fun i => ih i (hg.2 i) raise)).around
      fun c b d h => ⟨b, ?_⟩
    rw [List.map_ofFn]
    exact h
  | rule name =>
    exact (hnamed name raise).around fun c b d h => ⟨b, h⟩

theorem Rules.keeps [DecidableEq ι] {V : ι → Prop} {rules : Rules ι N} (hrules : rules.MadeFor V)
    (rounds depth : Nat) (name : N P α) (raise : P.Error → ε) :
    History.Part.Keeps V
      (rules.reading rounds depth name, rules.history rounds depth name raise) := by
  induction depth generalizing P α with
  | zero => exact ⟨fun _ => nofun, fun _ => nofun⟩
  | succ depth ih => exact Grammar.keeps ih (hrules name) raise

end Triad
