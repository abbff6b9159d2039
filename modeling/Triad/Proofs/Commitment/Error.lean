import Triad.NumberList
import Triad.Proofs.Commitment.Failure

/-!
# An error is final

In a run of a grammar without `attempt`, a call that ends with an error is the
last one: no call is entered after it, and the run ends with that error,
changed by the callbacks on errors around the call (`error_is_final`).

The proof is an induction on the grammar over the history of the run.  `Ends`
is its invariant: how the history of a part looks, given the error that the
part ends with, if it ends with one.
-/

namespace Triad

variable {ι : Type} {N : Payloads → Type → Type} {ε : Type} {P : Payloads} {α β : Type}

/-- The event leaves a call with an error. -/
def Event.Errs : Event ι N ε → Prop
  | leave _ (.error _) => True
  | _ => False

/-- The event leaves a call with an error that the callbacks around it make `v`. -/
def Event.Raises (v : ε) : Event ι N ε → Prop
  | leave k (.error e) => k.raise e = v
  | _ => False

/-- The error that a part ends with, changed by the callbacks around the part. -/
def raised {P : Payloads} {α : Type} (raise : P.Error → ε)
    (x : Except Stop (Outcome P.Failure P.Error ι α)) : Option ε :=
  match x with
  | .ok (.error e) => some (raise e)
  | _ => none

/-- How the history of a part looks when the part ends as `raised` says.  No
call errs if the part does not.  If it does, then from the first call that
errs on calls are only left, all with what becomes the same error. -/
def Ends (es : List (Event ι N ε)) : Option ε → Prop
  | none => ∀ ev ∈ es, ¬ ev.Errs
  | some v => ∃ before after, es = before ++ after ∧ (∀ ev ∈ before, ¬ ev.Errs) ∧
      ∀ ev ∈ after, ev.Raises v

namespace Ends

variable {es es' : List (Event ι N ε)} {v : Option ε}

theorem nil : Ends ([] : List (Event ι N ε)) v := by
  cases v with
  | none => exact nofun
  | some v => exact ⟨[], [], rfl, nofun, nofun⟩

/-- Calls that do not err may stand in front. -/
theorem append (h : Ends es none) (h' : Ends es' v) : Ends (es ++ es') v := by
  cases v with
  | none =>
    intro ev hev
    rcases List.mem_append.1 hev with hev | hev
    · exact h ev hev
    · exact h' ev hev
  | some v =>
    obtain ⟨before, after, rfl, hbefore, hafter⟩ := h'
    refine ⟨es ++ before, after, by rw [List.append_assoc], ?_, hafter⟩
    intro ev hev
    rcases List.mem_append.1 hev with hev | hev
    · exact h ev hev
    · exact hbefore ev hev

/-- If no call inside a part erred, the part may end either way. -/
theorem of_none (h : Ends es none) : Ends es v := by
  have h' := h.append (nil (v := v))
  rwa [List.append_nil] at h'

/-- The calls inside a part look as they do inside another one that errs
whenever the part does, with what becomes the same error. -/
theorem transfer {Q : Payloads} {raise : P.Error → ε} {raise' : Q.Error → ε}
    {x : Except Stop (Outcome P.Failure P.Error ι α)}
    {y : Except Stop (Outcome Q.Failure Q.Error ι β)} (h : Ends es (raised raise x))
    (hxy : ∀ e, x = .ok (.error e) → ∃ e', y = .ok (.error e') ∧ raise' e' = raise e) :
    Ends es (raised raise' y) := by
  unfold raised at h
  split at h
  next e =>
    obtain ⟨e', rfl, he⟩ := hxy e rfl
    simpa [raised, he] using h
  · exact of_none h

/-- A call ends as the calls inside it do. -/
theorem around {k : Call ι N ε}
    {x : Except Stop (Outcome k.payloads.Failure k.payloads.Error ι k.value)}
    (h : Ends es (raised k.raise x)) : Ends (k.around es x) (raised k.raise x) := by
  have henter : Ends [Event.enter k] none := by
    intro ev hev
    obtain rfl := List.mem_singleton.1 hev
    exact not_false
  have hentered := henter.append h
  cases x with
  | error stop => simpa [Call.around] using hentered
  | ok o =>
    cases o with
    | error e =>
      obtain ⟨before, after, hsplit, hbefore, hafter⟩ := hentered
      refine ⟨before, after ++ [.leave k (.error e)], ?_, hbefore, ?_⟩
      · rw [← List.append_assoc, ← hsplit]
        rfl
      · intro ev hev
        rcases List.mem_append.1 hev with hev | hev
        · exact hafter ev hev
        · obtain rfl := List.mem_singleton.1 hev
          exact rfl
    | success a rest =>
      refine Ends.append hentered (v := none) fun ev hev => ?_
      obtain rfl := List.mem_singleton.1 hev
      exact not_false
    | failure f =>
      refine Ends.append hentered (v := none) fun ev hev => ?_
      obtain rfl := List.mem_singleton.1 hev
      exact not_false

/-- After a call has erred, no call is entered, and the part ends with what
became of that error. -/
theorem final {before after : List (Event ι N ε)} {k : Call ι N ε} {e : k.payloads.Error}
    (h : Ends es v) (hes : es = before ++ .leave k (.error e) :: after) :
    v = some (k.raise e) ∧ ∀ ev ∈ after, ev.Errs := by
  have hmem : Event.leave k (.error e) ∈ es := by
    rw [hes]
    exact List.mem_append_right _ List.mem_cons_self
  cases v with
  | none => exact absurd trivial (h _ hmem)
  | some v =>
    obtain ⟨calm, last, hsplit, hcalm, hlast⟩ := h
    have hraises : ∀ ev ∈ Event.leave k (.error e) :: after, ev ∈ last := by
      rw [hes] at hsplit
      rcases List.append_eq_append_iff.1 hsplit with ⟨gap, hcut, hrest⟩ | ⟨gap, hcut, hrest⟩
      · cases gap with
        | nil =>
          rw [hrest]
          exact fun ev hev => hev
        | cons ev gap =>
          obtain ⟨rfl, _⟩ := List.cons.inj hrest
          refine absurd trivial (hcalm (.leave k (.error e)) ?_)
          rw [hcut]
          exact List.mem_append_right _ List.mem_cons_self
      · rw [hrest]
        exact fun ev hev => List.mem_append_right _ hev
    have hv : k.raise e = v := hlast _ (hraises _ List.mem_cons_self)
    refine ⟨by rw [hv], fun ev hev => ?_⟩
    have := hlast ev (hraises ev (List.mem_cons_of_mem _ hev))
    unfold Event.Raises at this
    unfold Event.Errs
    split at this <;> simp_all

end Ends

/-- The history of the part looks as the part ends, at every input. -/
def History.Part.EndsAs (part : History.Part ι N ε P α) (raise : P.Error → ε) : Prop :=
  ∀ c, Ends (part.2 c) (raised raise (part.1 c))

namespace History

variable {raise : P.Error → ε}

theorem pair_ends {p : Part ι N ε P α} {q : Part ι N ε P β} (hp : p.EndsAs raise)
    (hq : q.EndsAs raise) (c : ι) :
    Ends (pair p q c) (raised raise (Reading.pair p.1 q.1 c)) := by
  have hpc := hp c
  unfold pair Reading.pair
  cases hx : p.1 c with
  | error stop => simpa [hx, raised] using hpc
  | ok o =>
    rw [hx] at hpc
    cases o with
    | success a rest =>
      have hqc := hq rest
      have hcalm : Ends (p.2 c) none := hpc
      refine hcalm.append ?_
      dsimp only
      cases hy : q.1 rest with
      | error stop => rw [hy] at hqc; exact hqc
      | ok o =>
        rw [hy] at hqc
        cases o with
        | success b rest' => exact hqc
        | failure f => exact Ends.of_none hqc
        | error e => exact hqc
    | failure f => simpa [raised] using hpc
    | error e => simpa [raised] using hpc

theorem choice_ends {ps : List (Part ι N ε P α)} (hps : ∀ p ∈ ps, p.EndsAs raise) (c : ι) :
    Ends (choice ps c) (raised raise (Reading.choice (ps.map Prod.fst) c)) := by
  induction ps with
  | nil => exact Ends.nil
  | cons p ps ih =>
    have hpc := hps p List.mem_cons_self c
    rw [choice, List.map_cons, Reading.choice]
    cases hx : p.1 c with
    | error stop => simpa [hx, raised] using hpc
    | ok o =>
      rw [hx] at hpc
      cases o with
      | success a rest => simpa [raised] using hpc
      | failure f =>
        exact Ends.append hpc (ih fun p hp => hps p (List.mem_cons_of_mem _ hp))
      | error e => simpa [raised] using hpc

theorem sequence_ends {ps : List (Part ι N ε P α)} (hps : ∀ p ∈ ps, p.EndsAs raise) (c : ι) :
    Ends (sequence ps c) (raised raise (Reading.sequence (ps.map Prod.fst) c)) := by
  induction ps generalizing c with
  | nil => exact Ends.nil
  | cons p ps ih =>
    have hrest : Part.EndsAs (Reading.sequence (ps.map Prod.fst), sequence ps) raise :=
      fun c => ih (fun p hp => hps p (List.mem_cons_of_mem _ hp)) c
    have hpair := pair_ends (hps p List.mem_cons_self) hrest c
    rw [List.map_cons, Reading.sequence]
    exact hpair.transfer fun e he => ⟨e, by simp [Reading.map, Reading.bind, he], rfl⟩

theorem ofFn_endsAs {count : Nat} {parts : Fin count → Part ι N ε P α}
    (h : ∀ i, (parts i).EndsAs raise) : ∀ p ∈ List.ofFn parts, p.EndsAs raise := by
  intro p hp
  obtain ⟨i, rfl⟩ := List.mem_ofFn.1 hp
  exact h i

/-- The error that a repetition ends with is that of its last call. -/
def collectRaised (raise : P.Error → ε) (x : Except Stop (Except P.Error (List α × ι))) :
    Option ε :=
  match x with
  | .ok (.error e) => some (raise e)
  | _ => none

theorem collect_ends [DecidableEq ι] {p : Part ι N ε P α} (hp : p.EndsAs raise)
    (max rounds count : Nat) (c : ι) :
    Ends (collect max p rounds count c)
      (collectRaised raise (Reading.collect max p.1 rounds count c)) := by
  induction rounds generalizing count c with
  | zero =>
    unfold collect Reading.collect
    by_cases hmax : max ≤ count
    · simpa [hmax] using Ends.nil
    · simpa [hmax] using Ends.nil
  | succ rounds ih =>
    unfold collect Reading.collect
    by_cases hmax : max ≤ count
    · simpa [hmax] using Ends.nil
    · simp only [hmax, if_false]
      have hpc := hp c
      cases hx : p.1 c with
      | error stop => simpa [hx, raised, collectRaised] using hpc
      | ok o =>
        rw [hx] at hpc
        cases o with
        | success a rest =>
          have hcalm : Ends (p.2 c) none := hpc
          refine hcalm.append ?_
          dsimp only
          by_cases hstall : rest = c
          · simpa [hstall] using Ends.nil
          · simp only [hstall, if_false]
            have hrest := ih (count + 1) rest
            cases hy : Reading.collect max p.1 rounds (count + 1) rest with
            | error stop => rw [hy] at hrest; exact hrest
            | ok y => rw [hy] at hrest; cases y <;> exact hrest
        | failure f => simpa [raised, collectRaised] using hpc
        | error e => simpa [raised, collectRaised] using hpc

end History

namespace Grammar

variable [DecidableEq ι]

/-- The step of the induction over names: the history of the grammar looks as
the grammar ends, if that holds of the names. -/
theorem history_ends {rounds : Nat}
    {reads : ∀ {P : Payloads} {α : Type}, N P α → Reading ι P α}
    {called : ∀ {P : Payloads} {α : Type}, N P α → (P.Error → ε) → ι → List (Event ι N ε)}
    (hnamed : ∀ {P : Payloads} {α : Type} (name : N P α) (raise : P.Error → ε),
      History.Part.EndsAs (reads name, called name raise) raise)
    {g : Grammar ι N P α} (hg : g.Unattempted) (raise : P.Error → ε) (c : ι) :
    Ends (g.history rounds reads called raise c) (raised raise (g.reading rounds reads c)) := by
  induction g generalizing c with
  | attempt demote p ih => exact hg.elim
  | succeed | fail | error | abort | primitive =>
    rw [history]
    exact Ends.around Ends.nil
  | escalate promote p ih =>
    rw [history]
    exact Ends.around ((ih hg raise c).transfer fun e he =>
      ⟨e, by simp [reading, Reading.escalate, he], rfl⟩)
  | bind f p ih =>
    rw [history]
    exact Ends.around ((ih hg raise c).transfer fun e he =>
      ⟨e, by simp [reading, Reading.bind, he], rfl⟩)
  | check f p ih =>
    rw [history]
    exact Ends.around ((ih hg raise c).transfer fun e he =>
      ⟨e, by simp [reading, Reading.check, he], rfl⟩)
  | mapPayload onFailure onError p ih =>
    rw [history]
    exact Ends.around ((ih hg _ c).transfer fun e he =>
      ⟨onError e, by simp [reading, Reading.mapPayload, he], rfl⟩)
  | context name p ih =>
    rw [history]
    exact Ends.around ((ih hg _ c).transfer fun e he =>
      ⟨.context name e, by simp [reading, Reading.mapPayload, he], rfl⟩)
  | label name p ih | defer note p ih | tap id p ih =>
    rw [history]
    exact Ends.around (ih hg raise c)
  | many min max p ih =>
    rw [history]
    have hcollect := History.collect_ends (p := (p.reading rounds reads, _))
      (fun c => ih hg raise c) max rounds 0 c
    refine Ends.around ?_
    dsimp only [reading, Reading.many]
    cases hx : Reading.collect max (p.reading rounds reads) rounds 0 c with
    | error stop =>
      rw [hx] at hcollect
      exact hcollect
    | ok y =>
      rw [hx] at hcollect
      cases y with
      | error e => exact hcollect
      | ok found => exact Ends.of_none hcollect
  | pair p q ihp ihq =>
    rw [history]
    exact Ends.around (History.pair_ends (fun c => ihp hg.1 raise c) (fun c => ihq hg.2 raise c) c)
  | choice count ps ih =>
    rw [history]
    have hps : ∀ i, History.Part.EndsAs
        ((ps i).reading rounds reads, (ps i).history rounds reads called raise) raise :=
      fun i c => ih i (hg i) raise c
    have h := History.choice_ends (History.ofFn_endsAs hps) c
    rw [List.map_ofFn] at h
    exact Ends.around h
  | sequence count ps ih =>
    rw [history]
    have hps : ∀ i, History.Part.EndsAs
        ((ps i).reading rounds reads, (ps i).history rounds reads called raise) raise :=
      fun i c => ih i (hg i) raise c
    have h := History.sequence_ends (History.ofFn_endsAs hps) c
    rw [List.map_ofFn] at h
    exact Ends.around h
  | rule name =>
    rw [history]
    exact Ends.around (hnamed name raise c)

end Grammar

theorem Rules.history_ends [DecidableEq ι] {rules : Rules ι N} (hrules : rules.Unattempted)
    (rounds depth : Nat) (name : N P α) (raise : P.Error → ε) :
    History.Part.EndsAs (rules.reading rounds depth name, rules.history rounds depth name raise)
      raise := by
  induction depth generalizing P α with
  | zero => exact fun c => Ends.nil
  | succ depth ih => exact fun c => Grammar.history_ends ih (hrules name) raise c

/-- An error is final.  If a call anywhere in the run ends with an error, then
no call is entered any more and the calls around it end with errors too; the
run ends with that error, changed by the callbacks on errors around the call.
What was collected before is dropped and no alternative is tried.  The taps of
the run record these calls and no others. -/
theorem error_is_final [DecidableEq ι] {rules : Rules ι N} (hrules : rules.Unattempted)
    {g : Grammar ι N P α} (hg : g.Unattempted) {limits : Limits} {c : ι}
    {before after : List (Event ι N P.Error)} {k : Call ι N P.Error} {e : k.payloads.Error}
    (hleave : g.calls rules limits c = before ++ .leave k (.error e) :: after) (s : Session ι) :
    (g.parse rules limits c).result s = .ok (.error (k.raise e)) ∧
      (∀ ev ∈ after, ∃ k' e', ev = .leave k' (.error e')) ∧
      ((g.parse rules limits c).final s).taps =
        s.taps ++ (before ++ .leave k (.error e) :: after).filterMap Event.record? := by
  have hends : Ends (g.calls rules limits c) (raised id (g.answer rules limits c)) :=
    Grammar.history_ends (Rules.history_ends hrules limits.rounds limits.depth) hg id c
  obtain ⟨hraised, hafter⟩ := hends.final hleave
  refine ⟨?_, fun ev hev => ?_, ?_⟩
  · rw [Grammar.parse_result]
    unfold raised at hraised
    split at hraised <;> simp_all
  · have herrs := hafter ev hev
    unfold Event.Errs at herrs
    split at herrs
    · exact ⟨_, _, rfl⟩
    · exact herrs.elim
  · rw [Grammar.parse_taps, hleave]

/-- A sign without digits is an error inside the items of a list.  It gets the
label around the list, and the empty list is not tried. -/
theorem error_is_final_in_list :
    ((Grammar.context "list" NumberList.body).parse Rules.none ⟨1, 0⟩
        (Cursor.start ['-'])).result (Session.fresh false) =
      .ok (.error (.context "list" .incomplete)) := by
  have hitem : NumberList.item.Unattempted :=
    Grammar.unattempted_lexeme Grammar.unattempted_integer
  have hg : (Grammar.context "list" NumberList.body).Unattempted := by
    show (Grammar.firstOf [NumberList.items, .succeed [] id]).Unattempted
    rw [Grammar.unattempted_firstOf]
    intro p hp
    rcases List.mem_pair.1 hp with rfl | rfl
    · exact ⟨hitem, ⟨trivial, trivial⟩, hitem⟩
    · exact trivial
  let calls := (Grammar.context "list" NumberList.body).calls Rules.none ⟨1, 0⟩ (Cursor.start ['-'])
  let call : Call TextCursor NoNames ParseError :=
    ⟨.pair (P := ParseError.payloads) (Grammar.char '-') (Grammar.many1 Grammar.digit),
      Cursor.start ['-'], ParseError.context "list"⟩
  have hleave : calls = calls.take 17 ++
      .leave call (.error ParseError.incomplete) :: calls.drop 18 := rfl
  exact (error_is_final Rules.unattempted_none hg hleave _).1

end Triad
