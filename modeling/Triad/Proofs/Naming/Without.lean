import Triad.Proofs.Meaning.Twins

/-!
# Grammars without names

Two kinds of nodes only give a name to what happens inside them: a label names
lines of the trace, and a context names payloads.  `Grammar.without` takes the
nodes of one kind out of a grammar.

A grammar and what is left of it have level readings
(`Grammar.reading_without`).  So they call the same parts in the same order,
but for the nodes that were taken out; these are neither primitives nor taps
(`Grammar.calls_without`).
-/

namespace Triad

variable {ι : Type} {N : Payloads → Type → Type} {ε ε' : Type} {P P' Q : Payloads} {α : Type}

/-- The nodes that only give a name. -/
inductive Naming where
  | label
  | context
deriving DecidableEq

/-- The grammar without its nodes of one kind. -/
def Grammar.without (dropped : Naming) :
    {P : Payloads} → {α : Type} → Grammar ι N P α → Grammar ι N P α
  | _, _, .succeed value next => .succeed value next
  | _, _, .fail payload => .fail payload
  | _, _, .error payload => .error payload
  | _, _, .abort message => .abort message
  | _, _, .primitive m => .primitive m
  | _, _, .attempt demote p => .attempt demote (p.without dropped)
  | _, _, .escalate promote p => .escalate promote (p.without dropped)
  | _, _, .bind f p => .bind f (p.without dropped)
  | _, _, .mapPayload onFailure onError p => .mapPayload onFailure onError (p.without dropped)
  | _, _, .check f p => .check f (p.without dropped)
  | _, _, .context name p =>
    if dropped = .context then p.without dropped else .context name (p.without dropped)
  | _, _, .label name p =>
    if dropped = .label then p.without dropped else .label name (p.without dropped)
  | _, _, .many min max p => .many min max (p.without dropped)
  | _, _, .pair p q => .pair (p.without dropped) (q.without dropped)
  | _, _, .choice count ps => .choice count fun i => (ps i).without dropped
  | _, _, .sequence count ps => .sequence count fun i => (ps i).without dropped
  | _, _, .defer note p => .defer note (p.without dropped)
  | _, _, .rule name => .rule name
  | _, _, .tap id p => .tap id (p.without dropped)

def Rules.without (dropped : Naming) (rules : Rules ι N) : Rules ι N := fun name =>
  (rules name).without dropped

/-- It makes no difference when the taps are put in. -/
theorem Grammar.watched_without (id : String) (dropped : Naming) (g : Grammar ι N P α) :
    (g.without dropped).watched id = (g.watched id).without dropped := by
  induction g with
  | succeed | fail | error | abort | primitive | rule => rfl
  | attempt _ _ ih | escalate _ _ ih | bind _ _ ih | check _ _ ih | mapPayload _ _ _ ih =>
    simp only [without, watched, ih]
  | many _ _ _ ih | defer _ _ ih | tap _ _ ih => simp only [without, watched, ih]
  | pair _ _ ihp ihq => simp only [without, watched, ihp, ihq]
  | choice _ _ ih | sequence _ _ ih => simp only [without, watched, ih]
  | context name p ih | label name p ih =>
    simp only [without, watched]
    split
    · exact ih
    · simp only [watched, ih]

theorem Rules.watched_without (id : String) (dropped : Naming) (rules : Rules ι N) :
    @Rules.watched ι N id (rules.without dropped) =
      @Rules.without ι N dropped (rules.watched id) := by
  funext P α name
  exact Grammar.watched_without id dropped (rules name)

/-! ## Readings -/

section Readings

variable [DecidableEq ι]

theorem Grammar.reading_without {rounds : Nat}
    {reads reads' : ∀ {P : Payloads} {α : Type}, N P α → Reading ι P α}
    (hnamed : ∀ {P : Payloads} {α : Type} (name : N P α), (reads name).Level (reads' name))
    (dropped : Naming) (g : Grammar ι N P α) :
    (g.reading rounds reads).Level ((g.without dropped).reading rounds reads') := by
  induction g with
  | succeed | fail | error | abort | primitive => exact .refl _
  | attempt demote p ih => exact ih.attempt demote demote
  | escalate promote p ih => exact ih.escalate promote promote
  | bind f p ih => exact ih.bind f
  | mapPayload onFailure onError p ih => exact ih.mapPayload _ _ _ _
  | check f p ih => exact ih.check fun _ _ => Iff.rfl
  | context name p ih =>
    unfold without
    split
    · exact ih.unmapped _ _
    · exact ih.mapPayload _ _ _ _
  | label name p ih =>
    unfold without
    split <;> exact ih
  | many min max p ih => exact ih.many rounds min max
  | pair p q ihp ihq => exact ihp.pair ihq
  | choice count ps ih => exact Reading.Level.choice (forall₂_ofFn ih)
  | sequence count ps ih => exact Reading.Level.sequence (forall₂_ofFn ih)
  | defer note p ih => exact ih
  | rule name => exact hnamed name
  | tap id p ih => exact ih

theorem Rules.reading_without (dropped : Naming) (rules : Rules ι N) (rounds depth : Nat)
    (name : N P α) :
    (rules.reading rounds depth name).Level
      (Rules.reading (rules.without dropped) rounds depth name) := by
  induction depth generalizing P α with
  | zero => exact fun c => .stop _
  | succ depth ih => exact Grammar.reading_without ih dropped (rules name)

end Readings

/-! ## Calls -/

/-- Both lists show the same primitives and the same taps. -/
structure Alike (evs : List (Event ι N ε)) (evs' : List (Event ι N ε')) : Prop where
  asked : evs.filterMap Event.asked? = evs'.filterMap Event.asked?
  record : evs.filterMap Event.record? = evs'.filterMap Event.record?

namespace Alike

variable {evs fs : List (Event ι N ε)} {evs' fs' : List (Event ι N ε')}

theorem nil : Alike ([] : List (Event ι N ε)) ([] : List (Event ι N ε')) := ⟨rfl, rfl⟩

theorem append (h : Alike evs evs') (h' : Alike fs fs') : Alike (evs ++ fs) (evs' ++ fs') := by
  refine ⟨?_, ?_⟩
  · rw [List.filterMap_append, List.filterMap_append, h.asked, h'.asked]
  · rw [List.filterMap_append, List.filterMap_append, h.record, h'.record]

/-- Calls on the same input that show the same when they are entered and when
they are left with level answers. -/
theorem around {g : Grammar ι N P α} {g' : Grammar ι N P' α} {c : ι} {raise : P.Error → ε}
    {raise' : P'.Error → ε'} (h : Alike evs evs')
    (henter : Alike [.enter ⟨g, c, raise⟩] [.enter ⟨g', c, raise'⟩])
    (hleave : ∀ {o o'}, Level (.ok o) (.ok o') →
      (Event.leave ⟨g, c, raise⟩ o).record? = (Event.leave ⟨g', c, raise'⟩ o').record?)
    {x : Except Stop (Outcome P.Failure P.Error ι α)}
    {x' : Except Stop (Outcome P'.Failure P'.Error ι α)} (hx : Level x x') :
    Alike (Call.around ⟨g, c, raise⟩ evs x) (Call.around ⟨g', c, raise'⟩ evs' x') := by
  have hleft : ∀ o o', Level (.ok o) (.ok o') →
      Alike [.leave ⟨g, c, raise⟩ o] [.leave ⟨g', c, raise'⟩ o'] := by
    intro o o' ho
    refine ⟨rfl, ?_⟩
    rw [List.filterMap_cons, List.filterMap_cons, hleave ho]
    rfl
  refine (henter.append h).append ?_
  cases hx with
  | success a rest => exact hleft _ _ (.success a rest)
  | failure f f' => exact hleft _ _ (.failure f f')
  | error e e' => exact hleft _ _ (.error e e')
  | stop stop => exact .nil

/-- A call that shows nothing itself may be left out. -/
theorem around_left {k : Call ι N ε} (h : Alike evs evs')
    (henter : Alike [.enter k] ([] : List (Event ι N ε')))
    (hleave : ∀ o, (Event.leave k o).record? = none)
    (x : Except Stop (Outcome k.payloads.Failure k.payloads.Error ι k.value)) :
    Alike (k.around evs x) evs' := by
  have hentered := henter.append h
  cases x with
  | error stop => simpa [Call.around] using hentered
  | ok o =>
    have hleft : Alike [.leave k o] ([] : List (Event ι N ε')) :=
      ⟨rfl, by rw [List.filterMap_cons, hleave]; rfl⟩
    have hcall := hentered.append hleft
    rwa [List.nil_append, List.append_nil] at hcall

end Alike

section Histories

variable [DecidableEq ι]

theorem Grammar.history_without {rounds : Nat}
    {reads reads' : ∀ {P : Payloads} {α : Type}, N P α → Reading ι P α}
    {called : ∀ {P : Payloads} {α : Type}, N P α → (P.Error → ε) → ι → List (Event ι N ε)}
    {called' : ∀ {P : Payloads} {α : Type}, N P α → (P.Error → ε') → ι → List (Event ι N ε')}
    (hnamed : ∀ {P : Payloads} {α : Type} (name : N P α), (reads name).Level (reads' name))
    (hcalled : ∀ {P : Payloads} {α : Type} (name : N P α) (raise : P.Error → ε)
      (raise' : P.Error → ε') (c : ι), Alike (called name raise c) (called' name raise' c))
    (dropped : Naming) (g : Grammar ι N P α) (raise : P.Error → ε) (raise' : P.Error → ε') (c : ι) :
    Alike (g.history rounds reads called raise c)
      ((g.without dropped).history rounds reads' called' raise' c) := by
  have hlevel {P : Payloads} {α : Type} (g : Grammar ι N P α) :
      (g.reading rounds reads).Level ((g.without dropped).reading rounds reads') :=
    g.reading_without hnamed dropped
  have hpart {P : Payloads} {α : Type} {g : Grammar ι N P α} {raise : P.Error → ε}
      {raise' : P.Error → ε'}
      (h : ∀ c, Alike (g.history rounds reads called raise c)
        ((g.without dropped).history rounds reads' called' raise' c)) :
      History.Abreast Alike (g.reading rounds reads, g.history rounds reads called raise)
        ((g.without dropped).reading rounds reads',
          (g.without dropped).history rounds reads' called' raise') := ⟨hlevel g, h⟩
  -- the calls inside are left to show, since most nodes are still there
  have call {P : Payloads} {α : Type} (g : Grammar ι N P α) (raise : P.Error → ε)
      (raise' : P.Error → ε') (c : ι) {es : List (Event ι N ε)} {es' : List (Event ι N ε')}
      (hes : Alike es es')
      (henter : Alike [.enter ⟨g, c, raise⟩] [.enter ⟨g.without dropped, c, raise'⟩])
      (hleave : ∀ {o o'}, Level (.ok o) (.ok o') → (Event.leave ⟨g, c, raise⟩ o).record? =
        (Event.leave ⟨g.without dropped, c, raise'⟩ o').record?) :
      Alike (Call.around ⟨g, c, raise⟩ es (g.reading rounds reads c))
        (Call.around ⟨g.without dropped, c, raise'⟩ es'
          ((g.without dropped).reading rounds reads' c)) :=
    hes.around henter hleave (hlevel g c)
  induction g generalizing c with
  | succeed value next =>
    exact call (.succeed value next) raise raise' c .nil ⟨rfl, rfl⟩ fun _ => rfl
  | fail payload => exact call (.fail payload) raise raise' c .nil ⟨rfl, rfl⟩ fun _ => rfl
  | error payload => exact call (.error payload) raise raise' c .nil ⟨rfl, rfl⟩ fun _ => rfl
  | abort message => exact call (.abort message) raise raise' c .nil ⟨rfl, rfl⟩ fun _ => rfl
  | primitive m => exact call (.primitive m) raise raise' c .nil ⟨rfl, rfl⟩ fun _ => rfl
  | attempt demote p ih =>
    exact call (.attempt demote p) raise raise' c (ih raise raise' c) ⟨rfl, rfl⟩ fun _ => rfl
  | escalate promote p ih =>
    exact call (.escalate promote p) raise raise' c (ih raise raise' c) ⟨rfl, rfl⟩ fun _ => rfl
  | bind f p ih => exact call (.bind f p) raise raise' c (ih raise raise' c) ⟨rfl, rfl⟩ fun _ => rfl
  | mapPayload onFailure onError p ih =>
    exact call (.mapPayload onFailure onError p) raise raise' c (ih _ _ c) ⟨rfl, rfl⟩ fun _ => rfl
  | check f p ih =>
    exact call (.check f p) raise raise' c (ih raise raise' c) ⟨rfl, rfl⟩ fun _ => rfl
  | context name p ih =>
    rw [history]
    by_cases hdropped : dropped = .context
    · have hwithout : (context name p).without dropped = p.without dropped := if_pos hdropped
      rw [hwithout]
      exact (ih _ raise' c).around_left ⟨rfl, rfl⟩ (fun _ => rfl) _
    · have hwithout : (context name p).without dropped = .context name (p.without dropped) :=
        if_neg hdropped
      have hcall := call (.context name p) raise raise' c
        (ih (fun e => raise (.context name e)) (fun e => raise' (.context name e)) c)
      rw [hwithout] at hcall ⊢
      exact hcall ⟨rfl, rfl⟩ fun _ => rfl
  | label name p ih =>
    rw [history]
    by_cases hdropped : dropped = .label
    · have hwithout : (label name p).without dropped = p.without dropped := if_pos hdropped
      rw [hwithout]
      exact (ih raise raise' c).around_left ⟨rfl, rfl⟩ (fun _ => rfl) _
    · have hwithout : (label name p).without dropped = .label name (p.without dropped) :=
        if_neg hdropped
      have hcall := call (.label name p) raise raise' c (ih raise raise' c)
      rw [hwithout] at hcall ⊢
      exact hcall ⟨rfl, rfl⟩ fun _ => rfl
  | many min max p ih =>
    have hcalls := (hpart (ih raise raise')).collect .nil .append max rounds 0 c
    exact call (.many min max p) raise raise' c hcalls ⟨rfl, rfl⟩ fun _ => rfl
  | pair p q ihp ihq =>
    have hcalls := (hpart (ihp raise raise')).pair .nil .append (hpart (ihq raise raise')) c
    exact call (.pair p q) raise raise' c hcalls ⟨rfl, rfl⟩ fun _ => rfl
  | choice count ps ih =>
    have hcalls := History.Abreast.choice .nil .append
      (forall₂_ofFn fun i => hpart (ih i raise raise')) c
    exact call (.choice count ps) raise raise' c hcalls ⟨rfl, rfl⟩ fun _ => rfl
  | sequence count ps ih =>
    have hcalls := History.Abreast.sequence .nil .append
      (forall₂_ofFn fun i => hpart (ih i raise raise')) c
    exact call (.sequence count ps) raise raise' c hcalls ⟨rfl, rfl⟩ fun _ => rfl
  | defer note p ih =>
    exact call (.defer note p) raise raise' c (ih raise raise' c) ⟨rfl, rfl⟩ fun _ => rfl
  | rule name =>
    exact call (.rule name) raise raise' c (hcalled name raise raise' c) ⟨rfl, rfl⟩ fun _ => rfl
  | tap id p ih =>
    refine call (.tap id p) raise raise' c (ih raise raise' c) ⟨rfl, rfl⟩ fun ho => ?_
    cases ho <;> rfl

theorem Rules.history_without (dropped : Naming) (rules : Rules ι N) (rounds depth : Nat)
    (name : N P α) (raise : P.Error → ε) (raise' : P.Error → ε') (c : ι) :
    Alike (rules.history rounds depth name raise c)
      (Rules.history (rules.without dropped) rounds depth name raise' c) := by
  induction depth generalizing P α c with
  | zero => exact .nil
  | succ depth ih =>
    exact Grammar.history_without (rules.reading_without dropped rounds depth) ih dropped
      (rules name) raise raise' c

/-- Taking names out of a whole grammar and its rules. -/
theorem Grammar.calls_without (dropped : Naming) (rules : Rules ι N) (limits : Limits)
    (g : Grammar ι N P α) (c : ι) :
    Alike (g.calls rules limits c) ((g.without dropped).calls (rules.without dropped) limits c) :=
  history_without (rules.reading_without dropped limits.rounds limits.depth)
    (rules.history_without dropped limits.rounds limits.depth) dropped g id id c

/-- What the taps around the primitives record is the same without the names,
and in every session. -/
theorem Grammar.watched_taps_without (dropped : Naming) (rules : Rules ι N) (limits : Limits)
    (g : Grammar ι N P α) (c : ι) (id : String) :
    ∃ es, ∀ s : Session ι,
      (((g.watched id).parse (rules.watched id) limits c).final s).taps = s.taps ++ es ∧
      ((((g.without dropped).watched id).parse (Rules.watched id (rules.without dropped)) limits
        c).final s).taps = s.taps ++ es := by
  refine ⟨_, fun s => ⟨Grammar.parse_taps _ _ _ _ _, ?_⟩⟩
  rw [(Grammar.calls_without dropped (rules.watched id) limits (g.watched id) c).record,
    ← Grammar.watched_without, ← Rules.watched_without]
  exact Grammar.parse_taps _ _ _ _ _

end Histories

end Triad
