import Triad.Grammar.Text
import Triad.Proofs.Meaning.Repetition
import Triad.Proofs.Meaning.Watched

/-!
# A failure has matched nothing

A grammar without `attempt` never goes back on what it has matched: when its
run ends with a failure, every call of the run was made on the input of the
run and failed there (`failure_matched_nothing`).

The proof is an induction on the grammar over the history of the run, and on
how deep names are unfolded.  A combinator answers with a failure only if it
has passed on the failure of its first part, or if all its parts have failed;
these are the lemmas about readings.  So the calls inside it look as
`Event.FailsAt` says if those inside its parts do.
-/

namespace Triad

variable {ι : Type} {N : Payloads → Type → Type} {ε : Type} {P : Payloads} {α β : Type}

/-! ## Grammars without `attempt` -/

/-- No error is demoted to a failure anywhere in the grammar. -/
def Grammar.Unattempted {ι : Type} {N : Payloads → Type → Type} :
    {P : Payloads} → {α : Type} → Grammar ι N P α → Prop
  | _, _, .attempt _ _ => False
  | _, _, .succeed _ _ | _, _, .fail _ | _, _, .error _ | _, _, .abort _ => True
  | _, _, .primitive _ | _, _, .rule _ => True
  | _, _, .escalate _ p | _, _, .bind _ p | _, _, .mapPayload _ _ p => p.Unattempted
  | _, _, .check _ p | _, _, .context _ p | _, _, .label _ p => p.Unattempted
  | _, _, .many _ _ p | _, _, .defer _ p | _, _, .tap _ p => p.Unattempted
  | _, _, .pair p q => p.Unattempted ∧ q.Unattempted
  | _, _, .choice _ ps | _, _, .sequence _ ps => ∀ i, (ps i).Unattempted

def Rules.Unattempted (rules : Rules ι N) : Prop :=
  ∀ {P : Payloads} {α : Type} (name : N P α), (rules name).Unattempted

theorem Rules.unattempted_none : Rules.Unattempted (Rules.none (ι := ι)) := fun name => nomatch name

namespace Grammar

@[simp] theorem unattempted_firstOf {ps : List (Grammar ι N P α)} :
    (firstOf ps).Unattempted ↔ ∀ p ∈ ps, p.Unattempted := by
  show (∀ i, (ps.get i).Unattempted) ↔ _
  rw [List.forall_mem_iff_get]

@[simp] theorem unattempted_allOf {ps : List (Grammar ι N P α)} :
    (allOf ps).Unattempted ↔ ∀ p ∈ ps, p.Unattempted := by
  show (∀ i, (ps.get i).Unattempted) ↔ _
  rw [List.forall_mem_iff_get]

/-! The ready-made grammars of text do without `attempt`. -/

theorem unattempted_string (word : String) :
    (string word : Grammar TextCursor N P String).Unattempted := by
  show (allOf (word.toList.map char)).Unattempted
  rw [unattempted_allOf, List.forall_mem_map]
  exact fun _ _ => trivial

theorem unattempted_lexeme {p : Grammar TextCursor N P α} (hp : p.Unattempted) :
    (lexeme p).Unattempted := ⟨hp, trivial⟩

theorem unattempted_integer :
    (integer : Grammar TextCursor N ParseError.payloads Int).Unattempted := by
  show (literal (N := N) (P := ParseError.payloads)).Unattempted
  rw [literal, unattempted_firstOf]
  intro p hp
  rcases List.mem_pair.1 hp with rfl | rfl
  · exact ⟨trivial, trivial⟩
  · exact trivial

end Grammar

/-! ## The calls of a part that fails -/

/-- The event belongs to a call on `c` that fails, if it ends at all. -/
def Event.FailsAt (c : ι) : Event ι N ε → Prop
  | enter k => k.input = c
  | leave k o => k.input = c ∧ o.kind = .failure

/-- Where the part fails, so do all the calls inside it. -/
def History.Part.FailsWhole (part : History.Part ι N ε P α) : Prop :=
  ∀ c f, part.1 c = .ok (.failure f) → ∀ ev ∈ part.2 c, ev.FailsAt c

theorem Call.failsAt_around {k : Call ι N ε} {inner : List (Event ι N ε)}
    {x : Except Stop (Outcome k.payloads.Failure k.payloads.Error ι k.value)}
    {f : k.payloads.Failure} (hx : x = .ok (.failure f))
    (hinner : ∀ ev ∈ inner, ev.FailsAt k.input) : ∀ ev ∈ k.around inner x, ev.FailsAt k.input := by
  subst hx
  intro ev hev
  rcases List.mem_append.1 hev with hev | hev
  · rcases List.mem_cons.1 hev with rfl | hev
    · exact rfl
    · exact hinner ev hev
  · obtain rfl := List.mem_singleton.1 hev
    exact ⟨rfl, rfl⟩

namespace History

theorem pair_failsAt {p : Part ι N ε P α} {q : Part ι N ε P β} (hp : p.FailsWhole) {c : ι}
    {f : P.Failure} (h : Reading.pair p.1 q.1 c = .ok (.failure f)) :
    ∀ ev ∈ pair p q c, ev.FailsAt c := by
  rw [Reading.pair_eq_failure_iff] at h
  unfold pair
  simpa [h] using hp c f h

theorem choice_failsAt {ps : List (Part ι N ε P α)} (hps : ∀ p ∈ ps, p.FailsWhole) {c : ι}
    {f : P.Failure} (h : Reading.choice (ps.map Prod.fst) c = .ok (.failure f)) :
    ∀ ev ∈ choice ps c, ev.FailsAt c := by
  induction ps with
  | nil => simp [choice]
  | cons p ps ih =>
    rcases Reading.choice_cons_iff.1 h with ⟨-, hne⟩ | ⟨⟨f', hf'⟩, hrest⟩
    · exact absurd rfl (hne f)
    · rw [choice, hf']
      intro ev hev
      rcases List.mem_append.1 hev with hev | hev
      · exact hps p List.mem_cons_self c f' hf' ev hev
      · exact ih (fun p hp => hps p (List.mem_cons_of_mem _ hp)) hrest ev hev

theorem sequence_failsAt {ps : List (Part ι N ε P α)} (hps : ∀ p ∈ ps, p.FailsWhole) {c : ι}
    {f : P.Failure} (h : Reading.sequence (ps.map Prod.fst) c = .ok (.failure f)) :
    ∀ ev ∈ sequence ps c, ev.FailsAt c := by
  cases ps with
  | nil => simp [sequence]
  | cons p ps =>
    rw [List.map_cons, Reading.sequence] at h
    have hpair := Reading.bind_eq_failure_iff.1 h
    exact pair_failsAt (q := (_, sequence ps)) (hps p List.mem_cons_self) hpair

/-- A repetition that has collected nothing has called its part at most once,
and then the part failed. -/
theorem collect_failsAt [DecidableEq ι] {p : Part ι N ε P α} (hp : p.FailsWhole)
    {max rounds count : Nat} {c rest : ι}
    (h : Reading.collect max p.1 rounds count c = .ok (.ok ([], rest))) :
    ∀ ev ∈ collect max p rounds count c, ev.FailsAt c := by
  unfold Reading.collect at h
  unfold collect
  split at h
  next hmax => simp [hmax]
  next hmax =>
    split at h
    · simp at h
    next rounds =>
      split at h
      · split at h
        · simp at h
        · split at h <;> simp_all
      next f hf => simpa [hmax, hf] using hp c f hf
      · simp at h
      · simp at h

end History

namespace Grammar

variable [DecidableEq ι]

/-- The step of the induction over names: where the grammar fails, so do all
the calls of its history, if that holds of the names. -/
theorem history_failsAt {rounds : Nat}
    {reads : ∀ {P : Payloads} {α : Type}, N P α → Reading ι P α}
    {called : ∀ {P : Payloads} {α : Type}, N P α → (P.Error → ε) → ι → List (Event ι N ε)}
    (hnamed : ∀ {P : Payloads} {α : Type} (name : N P α) (raise : P.Error → ε),
      History.Part.FailsWhole (reads name, called name raise))
    {g : Grammar ι N P α} (hg : g.Unattempted) (raise : P.Error → ε) {c : ι} {f : P.Failure}
    (h : g.reading rounds reads c = .ok (.failure f)) :
    ∀ ev ∈ g.history rounds reads called raise c, ev.FailsAt c := by
  induction g generalizing c with
  | attempt demote p ih => exact hg.elim
  | succeed value next | error payload | abort message => simp [reading] at h
  | fail payload | primitive m =>
    rw [history]
    exact Call.failsAt_around h (by simp)
  | escalate promote p ih => exact absurd h Reading.escalate_ne_failure
  | bind g p ih =>
    rw [history]
    exact Call.failsAt_around h (ih hg raise (Reading.bind_eq_failure_iff.1 h))
  | check g p ih =>
    rw [history]
    exact Call.failsAt_around h (ih hg raise (Reading.check_eq_failure_iff.1 h))
  | mapPayload onFailure onError p ih =>
    obtain ⟨f', hf'⟩ := Reading.mapPayload_eq_failure h
    rw [history]
    exact Call.failsAt_around h (ih hg _ hf')
  | context name p ih =>
    obtain ⟨f', hf'⟩ := Reading.mapPayload_eq_failure h
    rw [history]
    exact Call.failsAt_around h (ih hg _ hf')
  | label name p ih | defer note p ih | tap id p ih =>
    rw [history]
    exact Call.failsAt_around h (ih hg raise h)
  | many min max p ih =>
    obtain ⟨rest, hcollect⟩ := Reading.many_eq_failure h
    rw [history]
    exact Call.failsAt_around h
      (History.collect_failsAt (fun c f hf => ih hg raise hf) hcollect)
  | pair p q ihp ihq =>
    rw [history]
    exact Call.failsAt_around h (History.pair_failsAt (fun c f hf => ihp hg.1 raise hf) h)
  | choice count ps ih =>
    rw [history]
    refine Call.failsAt_around h (History.choice_failsAt (f := f) ?_ (by rwa [List.map_ofFn]))
    intro p hp
    obtain ⟨i, rfl⟩ := List.mem_ofFn.1 hp
    exact fun c f hf => ih i (hg i) raise hf
  | sequence count ps ih =>
    rw [history]
    refine Call.failsAt_around h (History.sequence_failsAt (f := f) ?_ (by rwa [List.map_ofFn]))
    intro p hp
    obtain ⟨i, rfl⟩ := List.mem_ofFn.1 hp
    exact fun c f hf => ih i (hg i) raise hf
  | rule name =>
    rw [history]
    exact Call.failsAt_around h (hnamed name raise c f h)

end Grammar

/-- Where a name fails, so do all the calls of its history. -/
theorem Rules.history_failsAt [DecidableEq ι] {rules : Rules ι N} (hrules : rules.Unattempted)
    (rounds depth : Nat) (name : N P α) (raise : P.Error → ε) :
    History.Part.FailsWhole
      (rules.reading rounds depth name, rules.history rounds depth name raise) := by
  induction depth generalizing P α with
  | zero =>
    intro c f h
    simp [reading] at h
  | succ depth ih =>
    intro c f h
    exact Grammar.history_failsAt ih (hrules name) raise h

/-- Where a whole grammar fails, so do all the calls of its run. -/
theorem Grammar.calls_failsAt [DecidableEq ι] {rules : Rules ι N} (hrules : rules.Unattempted)
    {g : Grammar ι N P α} (hg : g.Unattempted) {limits : Limits} {c : ι} {f : P.Failure}
    (h : g.answer rules limits c = .ok (.failure f)) :
    ∀ ev ∈ g.calls rules limits c, ev.FailsAt c :=
  history_failsAt (Rules.history_failsAt hrules limits.rounds limits.depth) hg id h

/-- The entry says that a part was entered at `c`, or that it failed. -/
def Entry.FailsAt (c : ι) : Entry ι → Prop
  | .enter _ x => x = c
  | .leave _ kind => kind = .failure
  | _ => False

theorem Event.failsAt_entry {ev : Event ι N ε} {c : ι} {e : Entry ι} (hev : ev.FailsAt c)
    (he : ev.record? = some e) : e.FailsAt c := by
  unfold Event.record? at he
  split at he
  · obtain rfl := Option.some.inj he
    exact hev
  · obtain rfl := Option.some.inj he
    exact hev.2
  · simp at he

theorem Grammar.unattempted_watched (id : String) {g : Grammar ι N P α} (hg : g.Unattempted) :
    (g.watched id).Unattempted := by
  induction g with
  | attempt demote p ih => exact hg.elim
  | pair p q ihp ihq => exact ⟨ihp hg.1, ihq hg.2⟩
  | choice count ps ih | sequence count ps ih => exact fun i => ih i (hg i)
  | succeed | fail | error | abort | primitive | rule => trivial
  | escalate _ _ ih | bind _ _ ih | mapPayload _ _ _ ih | check _ _ ih => exact ih hg
  | context _ _ ih | label _ _ ih | many _ _ _ ih | defer _ _ ih | tap _ _ ih => exact ih hg

/-- A run that fails has matched nothing: every call of the run was made on the
input of the run and failed.  Taps around the primitives show it: they are
entered at that input only and left with failures only. -/
theorem failure_matched_nothing [DecidableEq ι] {rules : Rules ι N} (hrules : rules.Unattempted)
    {g : Grammar ι N P α} (hg : g.Unattempted) {limits : Limits} {c : ι} {s : Session ι}
    {f : P.Failure} (hfailure : (g.parse rules limits c).result s = .ok (.failure f)) :
    (∀ ev ∈ g.calls rules limits c, ev.FailsAt c) ∧
      ∀ id, ∃ es,
        ((g.watched id).parse (rules.watched id) limits c).result s = .ok (.failure f) ∧
        (((g.watched id).parse (rules.watched id) limits c).final s).taps = s.taps ++ es ∧
        ∀ e ∈ es, e.FailsAt c := by
  rw [Grammar.parse_result] at hfailure
  refine ⟨Grammar.calls_failsAt hrules hg hfailure, fun id => ?_⟩
  have hwatched : (g.watched id).answer (rules.watched id) limits c = .ok (.failure f) := by
    rw [Grammar.answer_watched]
    exact hfailure
  refine ⟨_, ?_, Grammar.parse_taps _ _ _ _ _, ?_⟩
  · rw [Grammar.parse_result]
    exact hwatched
  · intro e he
    obtain ⟨ev, hev, hentry⟩ := List.mem_filterMap.1 he
    have hrules' : Rules.Unattempted (rules.watched id) :=
      fun name => Grammar.unattempted_watched id (hrules name)
    exact Event.failsAt_entry
      (Grammar.calls_failsAt hrules' (Grammar.unattempted_watched id hg) hwatched ev hev) hentry

/-- Two words, one of which may stand next. -/
def words : Grammar TextCursor NoNames ParseError.payloads String :=
  Grammar.firstOf [Grammar.string "let", Grammar.string "var"]

/-- No alternative matches, so each of them was tried at the start. -/
theorem failure_matched_nothing_of_words :
    (words.parse Rules.none ⟨1, 0⟩ (Cursor.start ['x'])).result (Session.fresh false) =
        .ok (.failure .noMatch) ∧
      ∀ ev ∈ words.calls Rules.none ⟨1, 0⟩ (Cursor.start ['x']),
        ev.FailsAt (Cursor.start ['x']) := by
  have hwords : words.Unattempted := by
    show (Grammar.firstOf [Grammar.string "let", Grammar.string "var"]).Unattempted
    simp [Grammar.unattempted_string]
  have hfailure : (words.parse Rules.none ⟨1, 0⟩ (Cursor.start ['x'])).result
      (Session.fresh false) = .ok (.failure .noMatch) := by
    rw [Grammar.parse_result]
    rfl
  exact ⟨hfailure, (failure_matched_nothing Rules.unattempted_none hwords hfailure).1⟩

end Triad
