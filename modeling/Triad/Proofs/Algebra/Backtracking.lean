import Triad.Grammar.Text
import Triad.Proofs.Meaning.Adequacy
import Triad.Proofs.Meaning.Inversion

/-!
# Alternatives that are attempted

An alternative that errs ends a choice, however little it has consumed.  If
every alternative is attempted, errors are failures, and the choice goes on to
the first alternative that succeeds (`Grammar.attempts_backtrack`).  It has not
to be rewound for that: an alternative is called on the input of the choice, so
what an earlier one has consumed is forgotten with its error.

`Reading.Misses` says of an alternative that it answers and is no success.  The
calls of a choice are those of the alternatives that miss, each on the same
input, and then those of the alternative that decides
(`History.choice_of_misses`).
-/

namespace Triad

universe u

variable {ι : Type} {P : Payloads} {α : Type} {c d : ι} {a : α}

namespace Reading

/-- The reading answers, but with a failure or an error. -/
def Misses (p : Reading ι P α) (c : ι) : Prop := ∃ o, p c = .ok o ∧ o.kind ≠ .success

variable {demote : P.Error → P.Failure} {p : Reading ι P α}

/-! ## One alternative -/

/-- A miss is a failure, once it is attempted. -/
theorem misses_iff : p.Misses c ↔ ∃ f, attempt demote p c = .ok (.failure f) := by
  unfold Misses attempt
  cases p c with
  | error stop => simp
  | ok o => cases o <;> simp [Outcome.kind]

theorem attempt_ne_error {e : P.Error} : attempt demote p c ≠ .ok (.error e) := by
  unfold attempt
  split <;> simp_all

/-! ## All alternatives

The alternatives are what `read` makes of the elements of a list. -/

variable {κ : Type u} {read : κ → Reading ι P α} {xs : List κ}

theorem choice_attempts_eq_success_iff :
    choice (xs.map fun x => attempt demote (read x)) c = .ok (.success a d) ↔
      ∃ before x after, xs = before ++ x :: after ∧ (∀ y ∈ before, (read y).Misses c) ∧
        read x c = .ok (.success a d) := by
  induction xs with
  | nil => simp [choice]
  | cons x xs ih =>
    rw [List.map_cons, choice_cons_iff, attempt_eq_success_iff, ← misses_iff, ih]
    constructor
    · rintro (⟨hx, -⟩ | ⟨hx, before, y, after, rfl, hbefore, hy⟩)
      · exact ⟨[], x, xs, rfl, List.forall_mem_nil _, hx⟩
      · exact ⟨x :: before, y, after, rfl, List.forall_mem_cons.2 ⟨hx, hbefore⟩, hy⟩
    · rintro ⟨before, y, after, hxs, hbefore, hy⟩
      cases before with
      | nil =>
        obtain ⟨rfl, rfl⟩ := List.cons.inj hxs
        exact .inl ⟨hy, by simp⟩
      | cons x' before =>
        obtain ⟨rfl, rfl⟩ := List.cons.inj hxs
        obtain ⟨hx, hbefore⟩ := List.forall_mem_cons.1 hbefore
        exact .inr ⟨hx, before, y, after, rfl, hbefore, hy⟩

theorem choice_attempts_eq_failure_iff {f : P.Failure} :
    choice (xs.map fun x => attempt demote (read x)) c = .ok (.failure f) ↔
      f = P.noMatch ∧ ∀ x ∈ xs, (read x).Misses c := by
  induction xs with
  | nil => simp [choice, eq_comm]
  | cons x xs ih =>
    rw [List.map_cons, choice_cons_iff, ← misses_iff, ih, List.forall_mem_cons]
    constructor
    · rintro (⟨-, hne⟩ | ⟨hx, hf, hxs⟩)
      · exact absurd rfl (hne f)
      · exact ⟨hf, hx, hxs⟩
    · rintro ⟨hf, hx, hxs⟩
      exact .inr ⟨hx, hf, hxs⟩

theorem choice_attempts_ne_error {e : P.Error} :
    choice (xs.map fun x => attempt demote (read x)) c ≠ .ok (.error e) := by
  induction xs with
  | nil => simp [choice]
  | cons x xs ih =>
    intro h
    rcases choice_cons_iff.1 h with ⟨hx, -⟩ | ⟨-, hxs⟩
    · exact attempt_ne_error hx
    · exact ih hxs

end Reading

/-! ## Calls -/

theorem History.choice_of_success {E : Type u} {p : Reading ι P α × (ι → List E)}
    (h : p.1 c = .ok (.success a d)) (ps : List (Reading ι P α × (ι → List E))) :
    choice (p :: ps) c = p.2 c := by
  rw [choice, h]
  exact List.append_nil _

/-- As long as alternatives fail, the calls of a choice are theirs, and then
those of the choice among the others. -/
theorem History.choice_of_failures {E : Type u} {ps : List (Reading ι P α × (ι → List E))}
    (h : ∀ p ∈ ps, ∃ f, p.1 c = .ok (.failure f)) (qs : List (Reading ι P α × (ι → List E))) :
    choice (ps ++ qs) c = ps.flatMap (fun p => p.2 c) ++ choice qs c := by
  induction ps with
  | nil => rfl
  | cons p ps ih =>
    obtain ⟨⟨f, hp⟩, hps⟩ := List.forall_mem_cons.1 h
    rw [List.cons_append, choice, hp, List.flatMap_cons, List.append_assoc]
    exact congrArg (p.2 c ++ ·) (ih hps)

namespace Grammar

variable {N : Payloads → Type → Type} [DecidableEq ι]

variable (rules : Rules ι N) (limits : Limits) (demote : P.Error → P.Failure)

/-- What a whole grammar reads, and its calls. -/
def part (g : Grammar ι N P α) : History.Part ι N P.Error P α :=
  (g.answer rules limits, g.calls rules limits)

/-- The calls of a choice are made by its alternatives. -/
theorem calls_firstOf (ps : List (Grammar ι N P α)) (c : ι) :
    (firstOf ps).calls rules limits c =
      Call.around ⟨firstOf ps, c, id⟩ (History.choice (ps.map (part rules limits)) c)
        ((firstOf ps).answer rules limits c) := by
  have hparts : (List.ofFn fun i => part rules limits (ps.get i)) = ps.map (part rules limits) := by
    apply List.ext_getElem
    · simp
    · intro i _ _
      simp
  rw [← hparts]
  rfl

/-! ## Attempted alternatives -/

theorem answer_attempts (ps : List (Grammar ι N P α)) :
    (firstOf (ps.map (attempt demote))).answer rules limits =
      Reading.choice (ps.map fun p => Reading.attempt demote (p.answer rules limits)) := by
  unfold answer
  rw [reading_firstOf, List.map_map]
  rfl

/-- The calls of alternatives that miss, and then those of the others. -/
theorem calls_attempts {before : List (Grammar ι N P α)}
    (hbefore : ∀ q ∈ before, (q.answer rules limits).Misses c) (ps : List (Grammar ι N P α)) :
    History.choice (((before ++ ps).map (attempt demote)).map (part rules limits)) c =
      (before.flatMap fun q => (attempt demote q).calls rules limits c) ++
        History.choice ((ps.map (attempt demote)).map (part rules limits)) c := by
  have hfail : ∀ q ∈ (before.map (attempt demote)).map (part rules limits),
      ∃ f, q.1 c = .ok (.failure f) := by
    intro q hq
    rw [List.map_map] at hq
    obtain ⟨p, hp, rfl⟩ := List.mem_map.1 hq
    exact Reading.misses_iff.1 (hbefore p hp)
  rw [List.map_append, List.map_append, History.choice_of_failures hfail, List.flatMap_map,
    List.flatMap_map]
  rfl

/-- Behind alternatives that miss, a success ends the calls. -/
theorem calls_attempts_of_success {before : List (Grammar ι N P α)} {p : Grammar ι N P α}
    (hbefore : ∀ q ∈ before, (q.answer rules limits).Misses c)
    (hp : p.answer rules limits c = .ok (.success a d)) (after : List (Grammar ι N P α)) :
    History.choice (((before ++ p :: after).map (attempt demote)).map (part rules limits)) c =
      (before ++ [p]).flatMap fun q => (attempt demote q).calls rules limits c := by
  have hattempt : (attempt demote p).answer rules limits c = .ok (.success a d) :=
    Reading.attempt_eq_success_iff.2 hp
  have hlast : History.choice (((p :: after).map (attempt demote)).map (part rules limits)) c =
      (attempt demote p).calls rules limits c :=
    History.choice_of_success hattempt _
  rw [calls_attempts rules limits demote hbefore, hlast, List.flatMap_append,
    List.flatMap_singleton]

/-- A choice among attempted alternatives backtracks.  In the statement, an
alternative misses if it answers on the input of the choice with a failure or an
error, however much it has consumed until then.

* If some alternatives miss and the one behind them succeeds, then the choice
  answers what that one does.  These are the alternatives that are called, each
  with the calls that it makes by itself on the input of the choice.
* If all alternatives miss, then the choice fails with *no match*, and all are
  called in that way.
* There are no other answers, so the choice never errs. -/
theorem attempts_backtrack (ps : List (Grammar ι N P α)) (c : ι) (s : Session ι) :
    let answer (p : Grammar ι N P α) := (p.parse rules limits c).result s
    let misses (p : Grammar ι N P α) := ∃ o, answer p = .ok o ∧ o.kind ≠ .success
    let attempted (p : Grammar ι N P α) := (attempt demote p).calls rules limits c
    let first := firstOf (ps.map (attempt demote))
    (∀ before p after a d, ps = before ++ p :: after → (∀ q ∈ before, misses q) →
      answer p = .ok (.success a d) →
      answer first = .ok (.success a d) ∧
        first.calls rules limits c =
          Call.around ⟨first, c, id⟩ ((before ++ [p]).flatMap attempted) (answer p)) ∧
    ((∀ q ∈ ps, misses q) →
      answer first = .ok (.failure P.noMatch) ∧
        first.calls rules limits c =
          Call.around ⟨first, c, id⟩ (ps.flatMap attempted) (.ok (.failure P.noMatch))) ∧
    ∀ o, answer first = .ok o →
      (∃ before p after, ps = before ++ p :: after ∧ (∀ q ∈ before, misses q) ∧
        answer p = .ok o ∧ o.kind = .success) ∨
      o = .failure P.noMatch ∧ ∀ q ∈ ps, misses q := by
  intro answer misses attempted first
  have hmisses : ∀ q, misses q ↔ (q.answer rules limits).Misses c := by
    intro q
    dsimp only [misses, answer]
    rw [parse_result]
    rfl
  have hfirst : first.answer rules limits c =
      Reading.choice (ps.map fun p => Reading.attempt demote (p.answer rules limits)) c :=
    congrFun (answer_attempts rules limits demote ps) c
  have hcalls : first.calls rules limits c = Call.around ⟨first, c, id⟩
      (History.choice ((ps.map (attempt demote)).map (part rules limits)) c)
      (first.answer rules limits c) :=
    calls_firstOf rules limits (ps.map (attempt demote)) c
  have hanswer : answer first = first.answer rules limits c := parse_result rules limits first c s
  refine ⟨?success, ?failure, ?others⟩
  case success =>
    intro before p after a d hps hbefore hp
    have hbefore' : ∀ q ∈ before, (q.answer rules limits).Misses c := fun q hq =>
      (hmisses q).1 (hbefore q hq)
    have hp' : p.answer rules limits c = .ok (.success a d) :=
      (parse_result rules limits p c s).symm.trans hp
    have hsuccess : first.answer rules limits c = .ok (.success a d) := by
      rw [hfirst]
      exact Reading.choice_attempts_eq_success_iff.2 ⟨before, p, after, hps, hbefore', hp'⟩
    refine ⟨hanswer.trans hsuccess, ?_⟩
    have hbackwards := calls_attempts_of_success rules limits demote hbefore' hp' after
    rw [hcalls, hsuccess, hp, ← hbackwards, ← hps]
  case failure =>
    intro hps
    have hps' : ∀ q ∈ ps, (q.answer rules limits).Misses c := fun q hq => (hmisses q).1 (hps q hq)
    have hfailure : first.answer rules limits c = .ok (.failure P.noMatch) := by
      rw [hfirst]
      exact Reading.choice_attempts_eq_failure_iff.2 ⟨rfl, hps'⟩
    refine ⟨hanswer.trans hfailure, ?_⟩
    have hall := calls_attempts rules limits demote hps' []
    rw [List.append_nil] at hall
    rw [hcalls, hfailure, hall]
    exact congrArg (Call.around _ · _) (List.append_nil _)
  case others =>
    intro o ho
    rw [hanswer, hfirst] at ho
    cases o with
    | error e => exact absurd ho Reading.choice_attempts_ne_error
    | failure f =>
      obtain ⟨rfl, hps⟩ := Reading.choice_attempts_eq_failure_iff.1 ho
      exact .inr ⟨rfl, fun q hq => (hmisses q).2 (hps q hq)⟩
    | success a d =>
      obtain ⟨before, p, after, hps, hbefore, hp⟩ := Reading.choice_attempts_eq_success_iff.1 ho
      have hanswer : answer p = .ok (.success a d) := (parse_result rules limits p c s).trans hp
      exact .inl ⟨before, p, after, hps, fun q hq => (hmisses q).2 (hbefore q hq), hanswer, rfl⟩

/-- The first word errs behind its first letter, and the second one begins with
that letter all the same. -/
theorem attempts_backtrack_in_words :
    let words : List (Grammar TextCursor NoNames ParseError.payloads String) :=
      [string "ax", string "ab", string "a"]
    let c := Cursor.start ['a', 'b', 'c']
    let answer (p : Grammar TextCursor NoNames ParseError.payloads String) :=
      (p.parse Rules.none ⟨0, 0⟩ c).result (Session.fresh false)
    answer (string "ax") = .ok (.error .incomplete) ∧
      answer (firstOf (words.map (attempt fun e => e))) =
        .ok (.success "ab" ⟨2, ['c'], ['a', 'b', 'c']⟩) := by
  intro words c answer
  have hfirst : answer (string "ax") = .ok (.error .incomplete) := by
    dsimp only [answer]
    rw [parse_result]
    rfl
  have hsecond : answer (string "ab") = .ok (.success "ab" ⟨2, ['c'], ['a', 'b', 'c']⟩) := by
    dsimp only [answer]
    rw [parse_result]
    rfl
  obtain ⟨hsuccess, -⟩ := attempts_backtrack Rules.none ⟨0, 0⟩ (fun e => e) words c
    (Session.fresh false)
  have hmisses : ∀ q ∈ [string "ax"], ∃ o, answer q = .ok o ∧ o.kind ≠ .success := by
    intro q hq
    obtain rfl := List.mem_singleton.1 hq
    exact ⟨_, hfirst, nofun⟩
  obtain ⟨hanswer, -⟩ :=
    hsuccess [string "ax"] (string "ab") [string "a"] "ab" _ rfl hmisses hsecond
  exact ⟨hfirst, hanswer⟩

end Grammar

end Triad
