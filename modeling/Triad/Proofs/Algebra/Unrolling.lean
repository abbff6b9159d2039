import Triad.Parser.Repetition
import Triad.Proofs.Algebra.Regrouping
import Triad.Proofs.Meaning.Inversion
import Triad.Proofs.Repetition.Reference

/-!
# Unrolling a repetition

A repetition that needs `n` values may be written as a sequence of `n` parts
and a repetition that needs none, with the two lists put together
(`Parser.many_unrolls`).  A repetition looks at the number of its values when it
is over, and a sequence at its place when a part fails; both make the failure an
error if something has been matched.  They differ in one thing: without a match
the repetition fails with a payload of its own, and the sequence with that of
its part (`Outcome.plain`).

The part has to move on whenever it succeeds (`Parser.Moves`), because a
repetition ends with a match that does not, and a sequence goes on.

The heart of it is `silent_collect_sequence`, by induction on the parts that are
still needed: the loop and the sequence make the same calls, with the same values
behind them.
-/

namespace Triad

variable {ι : Type} {P : Payloads} {α β γ : Type}

/-- The outcome with the payload that a repetition gives to its failures. -/
def Outcome.plain : Outcome P.Failure P.Error ι α → Outcome P.Failure P.Error ι α
  | .failure _ => .failure P.noMatch
  | o => o

namespace Parser

/-- No success leaves the input where it was. -/
def Moves (p : Parser ι P α) : Prop :=
  ∀ c s a rest t, p c s = .ok (.success a rest) t → rest ≠ c

theorem moves_primitive {m : Matcher ι α} (hm : ∀ c a, m.match? c ≠ some (a, c)) :
    (primitive (P := P) m).Moves := by
  rintro c s a rest t hcall rfl
  have hresult := (Run.memory.sees_primitive (P := P) m rest s).1
  rw [Run.result_of_ok hcall] at hresult
  exact hm rest a (Reading.primitive_eq_success_iff.1 hresult.symm)

/-- An element that is accepted has been consumed. -/
theorem moves_element {τ : Type} [Width τ] (accept : τ → Bool) :
    (primitive (P := P) (Matcher.element accept)).Moves := by
  refine moves_primitive fun c a h => ?_
  obtain ⟨position, rest, input⟩ := c
  cases rest with
  | nil => cases h
  | cons x xs => simp [Matcher.element, Matcher.next, Cursor.next?] at h

/-! ## What a repetition makes of a collection -/

/-- What a repetition makes of what it has collected, or of an error. -/
def settled (min : Nat) : Except P.Error (Array α × ι) → Outcome P.Failure P.Error ι (List α)
  | .ok (values, rest) => settle min values rest
  | .error e => .error e

/-- A collection with values in front. -/
def inFront (before : Array α) : Except P.Error (Array α × ι) → Except P.Error (Array α × ι)
  | .ok (values, rest) => .ok (before ++ values, rest)
  | .error e => .error e

theorem plain_settled (min : Nat) (x : Except P.Error (Array α × ι)) :
    (settled min x : Outcome P.Failure P.Error ι (List α)).plain = settled min x := by
  cases x with
  | error e => rfl
  | ok v =>
    unfold settled settle
    dsimp only
    split
    next => rfl
    next => split <;> rfl

/-- With enough values in front, nothing is missing. -/
theorem settled_inFront {min : Nat} {before : Array α} (h : min ≤ before.size)
    (x : Except P.Error (Array α × ι)) :
    settled min (inFront before x) = (settled 0 x).committed (before.toList ++ ·) := by
  cases x with
  | error e => rfl
  | ok v =>
    have hmin : min ≤ (before ++ v.1).size := by
      rw [Array.size_append]
      omega
    show settle min (before ++ v.1) v.2 = (settle 0 v.1 v.2).committed (before.toList ++ ·)
    unfold settle
    rw [if_pos hmin, if_pos (Nat.zero_le _), Array.toList_append]
    rfl

/-- One part in front is a sequence of one part. -/
theorem silent_cons_eq_append (p : Parser ι P α) (q : Parser ι P (List α)) (c : ι) :
    (map (fun v => v.1 :: v.2) (pair p q) c).silent =
      (map (fun v => v.1 ++ v.2) (pair (sequence [p]) q) c).silent := by
  rw [silent_map_pair, silent_map_pair, sequence_singleton, map_apply, Run.andThen_map]
  rfl

/-! ## The loop -/

section Loop

variable [DecidableEq ι] {p : Parser ι P α}

theorem silent_many (rounds min max : Nat) (p : Parser ι P α) (c : ι) :
    (many rounds min max p c).silent = (settled min <$> collect max p rounds #[] c).silent := by
  rw [← bind_pure_comp]
  refine Run.silent_bind_congr fun x _ _ _ => ?_
  cases x with
  | ok v => exact silent_note_pure _ _ _ _
  | error e => exact silent_note_pure _ _ _ _

/-- Values in front take up room. -/
theorem collect_append_left {max : Nat} {before : Array α} (h : before.size ≤ max) (rounds : Nat)
    (values : Array α) (c : ι) :
    collect max p rounds (before ++ values) c =
      inFront before <$> collect (max - before.size) p rounds values c := by
  have hroom (more : Array α) : max ≤ (before ++ more).size ↔ max - before.size ≤ more.size := by
    rw [Array.size_append]
    omega
  induction rounds generalizing values c with
  | zero =>
    unfold collect
    simp only [hroom]
    split <;> rfl
  | succ rounds ih =>
    unfold collect
    simp only [hroom]
    split
    next => rfl
    next =>
      rw [map_bind]
      refine bind_congr fun o => ?_
      cases o with
      | failure e => rfl
      | error e => rfl
      | success a rest =>
        dsimp only
        rw [← Array.append_push]
        split
        next => rfl
        next => exact ih (values.push a) rest

/-! ## Unrolling -/

/-- The first rounds of a repetition are a sequence, as long as there are fewer
values than have been asked for. -/
theorem silent_collect_sequence (hp : p.Moves) {min max n : Nat} (hmax : min ≤ max) (rounds : Nat)
    (values : Array α) (hn : values.size + n = min) (c : ι) :
    (settled min <$> collect max p (rounds + n) values c).silent =
      (Outcome.plain <$> (sequenceFrom values (List.replicate n p) c).andThen fun matched rest =>
        settled min <$> collect max p rounds matched.toArray rest).silent := by
  induction n generalizing values c with
  | zero =>
    show _ = (Outcome.plain <$> settled min <$> collect max p rounds values.toList.toArray c).silent
    rw [Array.toArray_toList, ← comp_map]
    simp only [Function.comp_def, plain_settled]
    rfl
  | succ n ih =>
    have hroom : ¬ max ≤ values.size := by omega
    unfold Run.andThen
    rw [← Nat.add_assoc, collect, if_neg hroom, List.replicate_succ, sequenceFrom, bind_assoc,
      map_bind, map_bind]
    refine Run.silent_bind_congr fun o s t hcall => ?_
    cases o with
    | error e => rfl
    | success a rest =>
      -- the loop goes on as well, because the part has moved
      dsimp only
      rw [if_neg (hp c s a rest t hcall)]
      refine ih (values.push a) ?_ rest
      rw [Array.size_push]
      omega
    | failure f =>
      -- there are too few values, and both ask whether there are any
      have hless : ¬ min ≤ values.size := by omega
      show (pure (settle min values c) : Run ι (Outcome P.Failure P.Error ι (List α))).silent = _
      unfold settle
      rw [if_neg hless]
      dsimp only
      by_cases hempty : values.isEmpty
      · rw [if_pos hempty, if_pos hempty]
        rfl
      · rw [if_neg hempty, if_neg hempty, bind_assoc, map_bind]
        exact (silent_note_pure _ _ _ _).symm

/-- With as many values as have been asked for, the repetition that goes on asks
for none. -/
theorem silent_collect_rest {matched : List α} {max : Nat} (h : matched.length ≤ max)
    (rounds : Nat) (rest : ι) :
    (settled matched.length <$> collect max p rounds matched.toArray rest).silent =
      (Outcome.committed (matched ++ ·) <$>
        many rounds 0 (max - matched.length) p rest).silent := by
  have hcollect : collect max p rounds matched.toArray rest =
      inFront matched.toArray <$> collect (max - matched.length) p rounds #[] rest :=
    collect_append_left h rounds #[] rest
  have hsettled (x : Except P.Error (Array α × ι)) :
      (settled matched.length (inFront matched.toArray x) : Outcome P.Failure P.Error ι _) =
        (settled 0 x).committed (matched ++ ·) :=
    settled_inFront (Nat.le_refl matched.length) x
  rw [hcollect, Run.silent_map (Outcome.committed _), silent_many, ← Run.silent_map, ← comp_map,
    ← comp_map]
  simp only [Function.comp_def, hsettled]

/-- A repetition with at least `n` values is a sequence of `n` of its parts, and
then a repetition of what is left. -/
theorem silent_many_unrolled (hp : p.Moves) {n max : Nat} (h : n ≤ max) (rounds : Nat) (c : ι) :
    (many (rounds + n) n max p c).silent =
      (Outcome.plain <$> map (fun v => v.1 ++ v.2)
        (pair (sequence (List.replicate n p)) (many rounds 0 (max - n) p)) c).silent := by
  calc (many (rounds + n) n max p c).silent
    _ = (settled n <$> collect max p (rounds + n) #[] c).silent := silent_many _ _ _ _ _
    _ = (Outcome.plain <$> (sequence (List.replicate n p) c).andThen fun matched rest =>
          settled n <$> collect max p rounds matched.toArray rest).silent :=
        silent_collect_sequence hp h rounds #[] (Nat.zero_add n) c
    _ = (Outcome.plain <$> (sequence (List.replicate n p) c).andThen fun matched rest =>
          Outcome.committed (matched ++ ·) <$> many rounds 0 (max - n) p rest).silent := by
        rw [Run.silent_map, Run.silent_map]
        refine congrArg _ (Run.silent_andThen_congr fun matched rest s t hmatched => ?_)
        obtain rfl : matched.length = n := by
          rw [length_of_sequenceFrom hmatched, List.length_replicate]
          exact Nat.zero_add n
        exact silent_collect_rest h rounds rest
    _ = (Outcome.plain <$> map (fun v => v.1 ++ v.2)
          (pair (sequence (List.replicate n p)) (many rounds 0 (max - n) p)) c).silent := by
        rw [Run.silent_map, Run.silent_map, silent_map_pair]

end Loop

/-! ## Room that is not needed -/

variable {p : Parser ι P α} {min max larger n : Nat} {c : ι} {s t : Session ι} {k : Stage ι α}
  {o : Outcome P.Failure P.Error ι (List α)}

theorem isLeast_of_larger (hn : IsLeast {i | p.StopsAt max c s i} n) (hless : n < max)
    (hlarger : max ≤ larger) : IsLeast {i | p.StopsAt larger c s i} n := by
  constructor
  · rcases hn.1 with hmax | hreason
    · exact absurd hmax (Nat.ne_of_lt hless)
    · exact .inr hreason
  · rintro i (hmax | hreason)
    · omega
    · exact hn.2 (.inr hreason)

theorem Ends.of_larger {calls : Nat} (h : p.Ends min max n k calls o) (hless : n < max)
    (hlarger : max ≤ larger) : p.Ends min larger n k calls o := by
  cases h with
  | full hfull ho => exact .full (.inr (hfull.resolve_left (Nat.ne_of_lt hless))) ho
  | failed hopen hcall ho =>
    exact .failed (fun hfull => hopen (.inr (hfull.resolve_left (by omega)))) hcall ho
  | erred hopen hcall =>
    exact .erred (fun hfull => hopen (.inr (hfull.resolve_left (by omega)))) hcall

/-- A repetition that has collected `max` values, and not less than it was asked
for, succeeds. -/
theorem Ends.success_of_eq {calls : Nat} (h : p.Ends min max n k calls o)
    (hk : p.stage? c s n = some k) (hmin : min ≤ max) (heq : n = max) :
    o = .success k.values k.input := by
  have hlength := (length_of_stage? hk).2
  cases h with
  | failed hopen => exact absurd (.inl heq) hopen
  | erred hopen => exact absurd (.inl heq) hopen
  | full _ ho =>
    cases ho with
    | enough => rfl
    | nothing hzero hpos => omega
    | short hpos hless => omega

variable [DecidableEq ι]

/-- If there is room left, more room changes nothing. -/
theorem many_of_larger {rounds : Nat} (h : many rounds min max p c s = .ok o t) (hmin : min ≤ max)
    (hroom : ∀ values rest, o = .success values rest → values.length < max)
    (hlarger : max ≤ larger) :
    ∃ t', many rounds min larger p c s = .ok o t' ∧ t'.silent = t.silent := by
  obtain ⟨n, k, calls, hn, hk, hends, hcalls⟩ := exists_ends h
  have hle : n ≤ max := le_max (not_stopsAt_before hn)
  have hless : n < max := by
    refine lt_of_le_of_ne hle fun heq => ?_
    have hvalues := hroom _ _ (hends.success_of_eq hk hmin heq)
    rw [(length_of_stage? hk).2] at hvalues
    omega
  have hsame : (p.visit (k.inputs.take calls) >>= fun _ => conclude min max o).silent =
      (p.visit (k.inputs.take calls) >>= fun _ => conclude min larger o).silent :=
    Run.silent_bind_congr fun _ _ _ _ =>
      (silent_note_pure _ _ _ o).trans (silent_note_pure _ _ _ o).symm
  rw [many_of_ends hn hk hends hcalls] at h
  rw [many_of_ends (isLeast_of_larger hn hless hlarger) hk (hends.of_larger hless hlarger) hcalls]
  exact Run.ok_of_silent hsame h

/-- What a repetition and its unrolling answer, if both answer. -/
theorem eq_of_unrolled (hp : p.Moves) {n max : Nat} (hmax : n ≤ max) {rounds rounds' : Nat} {c : ι}
    {s t t' : Session ι} {o o' : Outcome P.Failure P.Error ι (List α)}
    (h : many rounds n max p c s = .ok o t)
    (h' : map (fun v => v.1 ++ v.2)
      (pair (sequence (List.replicate n p)) (many rounds' 0 (max - n) p)) c s = .ok o' t') :
    o = o'.plain ∧ t.silent = t'.silent := by
  obtain ⟨u, hu, hsilent⟩ := Run.ok_of_silent (silent_many_unrolled hp hmax rounds' c).symm
    (Run.map_of_ok Outcome.plain h')
  have hlong := many_mono (Nat.le_max_left rounds (rounds' + n)) h
  have hlong' := many_mono (Nat.le_max_right rounds (rounds' + n)) hu
  obtain ⟨rfl, rfl⟩ := EStateM.Result.ok.inj (hlong.symm.trans hlong')
  exact ⟨rfl, hsilent⟩

/-- A repetition may be unrolled if its part moves on with every success.

* With at least `n` and at most `max` values it is a sequence of `n` parts and
  then a repetition with at most `max - n` values.  The two go through the same
  calls, so they need the same rounds, and they differ only in the payload of a
  failure: a repetition has its own, a sequence that of its part.
* So if both answer, in whichever rounds, the answers differ only in that.
* One or more is one and then any number, as long as the largest count of values
  is not reached. -/
theorem many_unrolls (p : Parser ι P α) (hp : p.Moves) :
    (∀ n max rounds c, n ≤ max → (many (rounds + n) n max p c).silent =
      (Outcome.plain <$> map (fun v => v.1 ++ v.2)
        (pair (sequence (List.replicate n p)) (many rounds 0 (max - n) p)) c).silent) ∧
    (∀ n max rounds rounds' c s o o' t t', n ≤ max → many rounds n max p c s = .ok o t →
      map (fun v => v.1 ++ v.2)
        (pair (sequence (List.replicate n p)) (many rounds' 0 (max - n) p)) c s = .ok o' t' →
      o = o'.plain ∧ t.silent = t'.silent) ∧
    (∀ rounds rounds' c s o o' t t', many rounds 1 Bound.limit p c s = .ok o t →
      (∀ values rest, o = .success values rest → values.length < Bound.limit) →
      map (fun v => v.1 :: v.2) (pair p (many rounds' 0 Bound.limit p)) c s = .ok o' t' →
      o = o'.plain ∧ t.silent = t'.silent) := by
  refine ⟨fun n max rounds c hmax => silent_many_unrolled hp hmax rounds c,
    fun n max rounds rounds' c s o o' t t' hmax h h' => eq_of_unrolled hp hmax h h',
    fun rounds rounds' c s o o' t t' h hroom h' => ?_⟩
  obtain ⟨u, hu, hsilent⟩ := many_of_larger h (by decide) hroom (Nat.le_succ Bound.limit)
  obtain ⟨u', hu', hsilent'⟩ := Run.ok_of_silent (silent_cons_eq_append p _ c) h'
  obtain ⟨ho, hsame⟩ := eq_of_unrolled hp (by decide : 1 ≤ Bound.limit + 1) hu hu'
  exact ⟨ho, hsilent.symm.trans (hsame.trans hsilent')⟩

/-- Two letters at least, and one at least, of three that there are. -/
theorem many_unrolls_in_letters :
    let letter : Parser TextCursor ParseError.payloads Char := primitive (.element (· = 'a'))
    let s := Session.fresh false
    let c := Cursor.start ['a', 'a', 'a', 'b']
    let found : Outcome ParseError ParseError TextCursor (List Char) :=
      .success ['a', 'a', 'a'] ⟨3, ['b'], ['a', 'a', 'a', 'b']⟩
    let twoFirst := map (fun v => v.1 ++ v.2) (pair (sequence [letter, letter]) (many 2 0 3 letter))
    let oneFirst := map (fun v => v.1 :: v.2) (pair letter (many 3 0 Bound.limit letter))
    (∃ o t, twoFirst c s = .ok o t ∧ found = o.plain) ∧
      ∃ o t, oneFirst c s = .ok o t ∧ found = o.plain := by
  intro letter s c found twoFirst oneFirst
  obtain ⟨-, hbounded, hone⟩ := many_unrolls letter (moves_element _)
  have hmany : many 4 2 5 letter c s = .ok found s := rfl
  have hmany1 : many 4 1 Bound.limit letter c s = .ok found s := rfl
  have htwoFirst : twoFirst c s = .ok found s := rfl
  have honeFirst : oneFirst c s = .ok found s := rfl
  have hroom : ∀ values rest, found = .success values rest → values.length < Bound.limit := by
    intro values rest h
    obtain ⟨rfl, -⟩ := Outcome.success.inj h
    decide
  have hle : 2 ≤ 5 := by decide
  exact ⟨⟨found, s, htwoFirst, (hbounded 2 5 4 2 c s _ _ _ _ hle hmany htwoFirst).1⟩,
    found, s, honeFirst, (hone 4 3 c s _ _ _ _ hmany1 hroom honeFirst).1⟩

/-- A match that does not move on ends a repetition, but not a sequence. -/
example :
    let stay : Parser TextCursor ParseError.payloads Unit := succeed () fun c => c
    let s := Session.fresh false
    (many 2 2 3 stay (Cursor.start [])).result s = .ok (.error ParseError.incomplete) ∧
      sequence (List.replicate 2 stay) (Cursor.start []) s =
        .ok (.success [(), ()] (Cursor.start [])) s := ⟨rfl, rfl⟩

end Parser

end Triad
