import Mathlib.Order.Bounds.Basic
import Mathlib.Data.Nat.Find
import Triad.Parser.Repetition
import Triad.Parser.Text
import Triad.ParseError
import Triad.Proofs.Meaning.Steps

/-!
# What a repetition answers

A repetition calls its part again and again and may stop for four reasons:
there are enough values, the part fails, the part errs, or it succeeds without
moving on.  This file says what it answers without a loop.  `Parser.stage?`
follows the part through one success after another, and the repetition ends at
the first stage with a reason to stop (`Parser.StopsAt`).

`Parser.Ends` says how it ends there and how many calls it has made.  The
statements are about any parser at all: each call runs in the session that the
one before it has left, and the part may answer as it likes there.
-/

namespace Triad

variable {ι : Type} {P : Payloads} {α : Type}

/-! ## Stages -/

/-- Where a repetition is after some successes of its part. -/
structure Stage (ι α : Type) where
  /-- The inputs on which the part has been called. -/
  visited : List ι
  /-- The values that it has given. -/
  values : List α
  /-- The input that is left. -/
  input : ι
  session : Session ι

namespace Stage

/-- Before the first call. -/
def start (c : ι) (s : Session ι) : Stage ι α := ⟨[], [], c, s⟩

/-- The stage after one more success of the part. -/
def next? (p : Parser ι P α) (k : Stage ι α) : Option (Stage ι α) :=
  match p k.input k.session with
  | .ok (.success a rest) s => some ⟨k.visited ++ [k.input], k.values ++ [a], rest, s⟩
  | _ => none

/-- The last success has left the input where it was. -/
def Stalled (k : Stage ι α) : Prop := k.visited.getLast? = some k.input

instance [DecidableEq ι] (k : Stage ι α) : Decidable k.Stalled := inferInstanceAs (Decidable (_ = _))

/-- The inputs of all calls that have been made, and of the next one. -/
def inputs (k : Stage ι α) : List ι := k.visited ++ [k.input]

variable {p : Parser ι P α} {k k' : Stage ι α}

theorem next?_eq_some (h : k.next? p = some k') :
    ∃ a, p k.input k.session = .ok (.success a k'.input) k'.session ∧
      k'.visited = k.visited ++ [k.input] ∧ k'.values = k.values ++ [a] := by
  unfold next? at h
  split at h
  next a rest s hcall =>
    obtain rfl := Option.some.inj h
    exact ⟨a, hcall, rfl, rfl⟩
  next => contradiction

theorem stalled_next_iff (h : k.next? p = some k') : k'.Stalled ↔ k'.input = k.input := by
  obtain ⟨a, -, hvisited, -⟩ := next?_eq_some h
  unfold Stalled
  rw [hvisited, List.getLast?_concat, Option.some_inj, eq_comm]

/-- What the values of a stage amount to if `min` are asked for: there are
enough, there are none, or something has been consumed in vain. -/
inductive Settles (min : Nat) (k : Stage ι α) : Outcome P.Failure P.Error ι (List α) → Prop
  | enough (h : min ≤ k.values.length) : Settles min k (.success k.values k.input)
  | nothing (h : k.values.length = 0) (hmin : 0 < min) : Settles min k (.failure P.noMatch)
  | short (h : 0 < k.values.length) (hmin : k.values.length < min) :
    Settles min k (.error P.incomplete)

theorem settles_iff {min : Nat} {o : Outcome P.Failure P.Error ι (List α)} :
    k.Settles min o ↔ Parser.settle min k.values.toArray k.input = o := by
  have hempty : k.values.toArray.isEmpty ↔ k.values.length = 0 := by simp
  unfold Parser.settle
  rw [List.size_toArray]
  constructor
  · rintro (h | ⟨h, hmin⟩ | ⟨h, hmin⟩)
    · rw [if_pos h]
    · rw [if_neg (by omega), if_pos (hempty.2 h)]
    · have hsome : ¬ k.values.toArray.isEmpty := fun hnone => by
        have hzero := hempty.1 hnone
        omega
      rw [if_neg (by omega), if_neg hsome]
  · rintro rfl
    split
    next h => exact .enough h
    next h =>
      split
      next hnone => exact .nothing (hempty.1 hnone) (by have := hempty.1 hnone; omega)
      next hsome => exact .short (by have := mt hempty.2 hsome; omega) (by omega)

end Stage

namespace Parser

/-- The stage after `i` successes, if the part succeeds so often. -/
def stage? (p : Parser ι P α) (c : ι) (s : Session ι) : Nat → Option (Stage ι α)
  | 0 => some (.start c s)
  | i + 1 => (p.stage? c s i).bind (Stage.next? p)

/-- There is a reason to stop after `i` successes: they are `max`, the next
call is no success, or the last success has left the input where it was. -/
def StopsAt (p : Parser ι P α) (max : Nat) (c : ι) (s : Session ι) (i : Nat) : Prop :=
  i = max ∨ p.stage? c s (i + 1) = none ∨ ∃ k, p.stage? c s i = some k ∧ k.Stalled

/-- How a repetition ends after `n` successes: the number of calls it has made,
and its outcome.  If it has `max` values or is stalled, it makes no further
call; otherwise one more, which fails or errs. -/
inductive Ends (p : Parser ι P α) (min max n : Nat) (k : Stage ι α) :
    Nat → Outcome P.Failure P.Error ι (List α) → Prop
  | full {o : Outcome P.Failure P.Error ι (List α)} (h : n = max ∨ k.Stalled)
    (ho : k.Settles min o) : Ends p min max n k n o
  | failed {o : Outcome P.Failure P.Error ι (List α)} {f : P.Failure} {t : Session ι}
    (h : ¬ (n = max ∨ k.Stalled)) (hcall : p k.input k.session = .ok (.failure f) t)
    (ho : k.Settles min o) : Ends p min max n k (n + 1) o
  | erred {e : P.Error} {t : Session ι} (h : ¬ (n = max ∨ k.Stalled))
    (hcall : p k.input k.session = .ok (.error e) t) : Ends p min max n k (n + 1) (.error e)

/-! ## Calls -/

/-- Calls the parser on each of the inputs, whatever it answers. -/
def visit (p : Parser ι P α) : List ι → Run ι Unit
  | [] => pure ()
  | c :: cs => do
    let _ ← p c
    p.visit cs

/-- The line of a repetition, and its outcome. -/
def conclude (min max : Nat) (o : Outcome P.Failure P.Error ι (List α)) :
    Run ι (Outcome P.Failure P.Error ι (List α)) := do
  note "many" ("(" ++ toString min ++ ", " ++ toString max ++ ")") [o.kind]
  pure o

end Parser

/-! ## What a tap shows -/

/-- The inputs at which the tap `id` has been entered, in order. -/
def Session.entered (id : String) (s : Session ι) : List ι :=
  s.log.toList.filterMap fun
    | .enter id' c => if id' = id then some c else none
    | _ => none

namespace Run

variable {β : Type} {id : String} {r : Run ι α} {f : α → Run ι β}

/-- The run does not enter the tap `id`. -/
def Skips (id : String) (r : Run ι α) : Prop := ∀ s, (r.final s).entered id = s.entered id

theorem skips_pure (a : α) : (pure a : Run ι α).Skips id := fun _ => rfl

theorem skips_trace (line : String → Line) : (trace line : Run ι Unit).Skips id := by
  intro s
  cases htracing : s.tracing with
  | false => simp [final, trace, htracing]
  | true => simp [final, trace, htracing, Session.entered, Session.record]

theorem skips_leave (id' : String) (kind : Kind) :
    (record (.leave id' kind) : Run ι Unit).Skips id := by
  intro s
  show (s.record (.leave id' kind)).entered id = s.entered id
  simp [Session.entered, Session.record]

theorem Skips.bind (hr : r.Skips id) (hf : ∀ a, (f a).Skips id) : (r >>= f).Skips id := by
  intro s
  have hs := hr s
  cases hrun : r s with
  | error stop t =>
    rw [final, bind_of_stop hrun]
    rwa [final, hrun] at hs
  | ok a t =>
    have ht := hf a t
    rw [final, hrun] at hs
    rw [final, bind_of_ok hrun]
    exact ht.trans hs

end Run

namespace Parser

/-- Each call enters the tap `id` once, at its input. -/
def Signs (id : String) (p : Parser ι P α) : Prop :=
  ∀ c s, ((p c).final s).entered id = s.entered id ++ [c]

theorem skips_conclude {id : String} (min max : Nat)
    (o : Outcome P.Failure P.Error ι (List α)) : (conclude min max o).Skips id :=
  (Run.skips_trace _).bind fun _ => Run.skips_pure o

theorem skips_primitive {id : String} (m : Matcher ι α) (c : ι) :
    (primitive (P := P) m c).Skips id := by
  unfold primitive
  cases m.match? c with
  | none =>
    cases m.note with
    | none => exact Run.skips_pure _
    | some n => exact (Run.skips_trace _).bind fun _ => Run.skips_pure _
  | some found =>
    cases m.note with
    | none => exact Run.skips_pure _
    | some n => exact (Run.skips_trace _).bind fun _ => Run.skips_pure _

/-- A parser with a tap around it that it does not enter itself. -/
theorem signs_tap {id : String} {p : Parser ι P α} (hp : ∀ c, (p c).Skips id) :
    (tap id p).Signs id := by
  intro c s
  have henter : Run.record (.enter id c) s = .ok () (s.record (.enter id c)) := rfl
  have hrest : Run.Skips id (p c >>= fun o => Run.record (.leave id o.kind) >>= fun _ => pure o) :=
    (hp c).bind fun o => (Run.skips_leave id o.kind).bind fun _ => Run.skips_pure o
  have hentered := hrest (s.record (.enter id c))
  unfold tap
  rw [Run.final, Run.bind_of_ok henter]
  refine hentered.trans ?_
  simp [Session.entered, Session.record]

/-! ## Stages and calls -/

variable {p : Parser ι P α} {min max rounds i n : Nat} {c : ι} {s t : Session ι}
  {k k' : Stage ι α}

theorem stage?_succ_eq_some (h : p.stage? c s (i + 1) = some k') :
    ∃ k, p.stage? c s i = some k ∧ k.next? p = some k' := Option.bind_eq_some_iff.1 h

theorem length_of_stage? (h : p.stage? c s i = some k) :
    k.visited.length = i ∧ k.values.length = i := by
  induction i generalizing k with
  | zero =>
    obtain rfl := Option.some.inj h
    exact ⟨rfl, rfl⟩
  | succ i ih =>
    obtain ⟨k₀, hk₀, hnext⟩ := stage?_succ_eq_some h
    obtain ⟨a, -, hvisited, hvalues⟩ := Stage.next?_eq_some hnext
    obtain ⟨hvisited₀, hvalues₀⟩ := ih hk₀
    rw [hvisited, hvalues, List.length_append, List.length_append, hvisited₀, hvalues₀]
    exact ⟨rfl, rfl⟩

/-- As long as there is no reason to stop, there is a next stage. -/
theorem exists_stage? (h : ∀ j < i, ¬ p.StopsAt max c s j) : ∃ k, p.stage? c s i = some k := by
  cases i with
  | zero => exact ⟨_, rfl⟩
  | succ i =>
    have hnone : p.stage? c s (i + 1) ≠ none := fun hnone =>
      h i (Nat.lt_succ_self i) (.inr (.inl hnone))
    exact Option.ne_none_iff_exists'.1 hnone

theorem le_max (h : ∀ j < i, ¬ p.StopsAt max c s j) : i ≤ max := by
  by_contra hle
  exact h max (Nat.not_le.1 hle) (.inl rfl)

theorem not_stopsAt_before (hn : IsLeast {i | p.StopsAt max c s i} n) :
    ∀ j < n, ¬ p.StopsAt max c s j :=
  fun _ hj hstop => Nat.not_le.2 hj (hn.2 hstop)

/-- Where there is no reason to stop there is room for a value, and the last
success has moved on. -/
theorem open_of_not_stopsAt (h : ∀ j < i + 1, ¬ p.StopsAt max c s j)
    (hk : p.stage? c s i = some k) : k.values.length < max ∧ ¬ k.Stalled := by
  constructor
  · rw [(length_of_stage? hk).2]
    exact le_max h
  · exact fun hstall => h i (Nat.lt_succ_self i) (.inr (.inr ⟨k, hk, hstall⟩))

/-- Without a reason to stop but for the next call, that call is no success. -/
theorem ne_success_of_open (hn : p.StopsAt max c s n) (hk : p.stage? c s n = some k)
    (hopen : ¬ (n = max ∨ k.Stalled)) (a : α) (rest : ι) (t : Session ι) :
    p k.input k.session ≠ .ok (.success a rest) t := by
  intro hcall
  have hnext : p.stage? c s (n + 1) = k.next? p := by
    rw [stage?, hk]
    rfl
  rcases hn with hmax | hnone | ⟨k', hk', hstall⟩
  · exact hopen (.inl hmax)
  · rw [hnext, Stage.next?, hcall] at hnone
    cases hnone
  · obtain rfl := Option.some.inj (hk.symm.trans hk')
    exact hopen (.inr hstall)

theorem visit_append (xs ys : List ι) :
    p.visit (xs ++ ys) = p.visit xs >>= fun _ => p.visit ys := by
  induction xs with
  | nil => rfl
  | cons x xs ih =>
    simp only [List.cons_append, visit, ih, bind_assoc]

/-- The calls of a stage lead to its session. -/
theorem visit_of_stage? (h : p.stage? c s i = some k) : p.visit k.visited s = .ok () k.session := by
  induction i generalizing k with
  | zero =>
    obtain rfl := Option.some.inj h
    rfl
  | succ i ih =>
    obtain ⟨k₀, hk₀, hnext⟩ := stage?_succ_eq_some h
    obtain ⟨a, hcall, hvisited, -⟩ := Stage.next?_eq_some hnext
    rw [hvisited, visit_append, Run.bind_of_ok (ih hk₀), visit, Run.bind_of_ok hcall]
    rfl

theorem take_inputs (hk : p.stage? c s n = some k) :
    k.inputs.take n = k.visited ∧ k.inputs.take (n + 1) = k.visited ++ [k.input] := by
  have hlength := (length_of_stage? hk).1
  unfold Stage.inputs
  rw [← hlength]
  refine ⟨List.take_left, ?_⟩
  rw [List.take_of_length_le]
  simp

/-- A further call after those of a stage. -/
theorem visit_snoc {o : Outcome P.Failure P.Error ι α} (hk : p.stage? c s n = some k)
    (hcall : p k.input k.session = .ok o t) : p.visit (k.visited ++ [k.input]) s = .ok () t := by
  rw [visit_append, Run.bind_of_ok (visit_of_stage? hk), visit, Run.bind_of_ok hcall]
  rfl

theorem entered_of_visit {id : String} (hp : p.Signs id) {inputs : List ι} {s t : Session ι}
    (h : p.visit inputs s = .ok () t) : t.entered id = s.entered id ++ inputs := by
  induction inputs generalizing s with
  | nil =>
    obtain ⟨-, rfl⟩ := EStateM.Result.ok.inj h
    exact (List.append_nil _).symm
  | cons d inputs ih =>
    have hfirst := hp d s
    cases hcall : p d s with
    | error stop t' =>
      rw [visit, Run.bind_of_stop hcall] at h
      cases h
    | ok o t' =>
      rw [visit, Run.bind_of_ok hcall] at h
      rw [Run.final, hcall] at hfirst
      rw [ih h, hfirst, List.append_assoc, List.singleton_append]

theorem exists_conclude (min max : Nat) (o : Outcome P.Failure P.Error ι (List α))
    (s : Session ι) : ∃ t, conclude min max o s = .ok o t := by
  unfold conclude note Run.trace
  cases htracing : s.tracing <;>
  · simp only [Bind.bind, EStateM.bind, htracing]
    exact ⟨_, rfl⟩

theorem conclude_eq_ok {o o' : Outcome P.Failure P.Error ι (List α)}
    (h : conclude min max o s = .ok o' t) : o' = o := by
  obtain ⟨t', ht'⟩ := exists_conclude min max o s
  exact (EStateM.Result.ok.inj (ht'.symm.trans h)).1.symm

theorem visit_conclude_eq_ok {inputs : List ι} {o o' : Outcome P.Failure P.Error ι (List α)}
    (h : (p.visit inputs >>= fun _ => conclude min max o) s = .ok o' t) :
    o' = o ∧ ∀ id, p.Signs id → t.entered id = s.entered id ++ inputs := by
  cases hvisit : p.visit inputs s with
  | error stop u =>
    rw [Run.bind_of_stop hvisit] at h
    cases h
  | ok _ u =>
    rw [Run.bind_of_ok hvisit] at h
    refine ⟨conclude_eq_ok h, fun id hp => ?_⟩
    have hskips : (conclude min max o).Skips id := skips_conclude min max o
    have hentered := hskips u
    rwa [Run.final, h, entered_of_visit hp hvisit] at hentered

/-- The number of values is within the bounds. -/
theorem Ends.within {calls : Nat} {values : List α} {rest : ι}
    (h : p.Ends min max n k calls (.success values rest)) (hk : p.stage? c s n = some k)
    (hn : n ≤ max) : min ≤ values.length ∧ values.length ≤ max := by
  have hlength := (length_of_stage? hk).2
  have hsettles : k.Settles min (.success values rest : Outcome P.Failure P.Error ι _) := by
    cases h <;> assumption
  cases hsettles with
  | enough hmin => exact ⟨hmin, by omega⟩

theorem Ends.ne_failure {calls : Nat} {f : P.Failure} :
    ¬ p.Ends 0 max n k calls (.failure f) := by
  rintro (⟨-, ⟨⟩⟩ | ⟨-, -, ⟨⟩⟩) <;> contradiction

/-! ## The loop from stage to stage -/

variable [DecidableEq ι]

theorem collect_of_max_le (h : max ≤ k.values.length) :
    collect max p rounds k.values.toArray k.input k.session =
      .ok (.ok (k.values.toArray, k.input)) k.session := by
  have hsize : max ≤ k.values.toArray.size := h
  cases rounds <;> rw [collect, if_pos hsize] <;> rfl

/-- A round in which the part succeeds. -/
theorem collect_of_next (hmax : k.values.length < max) (h : k.next? p = some k') :
    collect max p (rounds + 1) k.values.toArray k.input k.session =
      if k'.input = k.input then .ok (.ok (k'.values.toArray, k'.input)) k'.session
      else collect max p rounds k'.values.toArray k'.input k'.session := by
  obtain ⟨a, hcall, -, hvalues⟩ := Stage.next?_eq_some h
  have hpush : k.values.toArray.push a = k'.values.toArray := by rw [hvalues, List.push_toArray]
  rw [collect, List.size_toArray, if_neg (Nat.not_le.2 hmax), Run.bind_of_ok hcall]
  dsimp only
  rw [hpush]
  split <;> rfl

/-- While there is no reason to stop, the loop goes from stage to stage, one
round for each. -/
theorem collect_eq_collect (hstops : ∀ j < i, ¬ p.StopsAt max c s j)
    (hk : p.stage? c s i = some k) (hstall : ¬ k.Stalled) (rounds : Nat) :
    collect max p (rounds + i) #[] c s =
      collect max p rounds k.values.toArray k.input k.session := by
  induction i generalizing k rounds with
  | zero =>
    obtain rfl := Option.some.inj hk
    rfl
  | succ i ih =>
    obtain ⟨k₀, hk₀, hnext⟩ := stage?_succ_eq_some hk
    obtain ⟨hmax, hstall₀⟩ := open_of_not_stopsAt hstops hk₀
    have hmoved : k.input ≠ k₀.input := mt (Stage.stalled_next_iff hnext).2 hstall
    rw [show rounds + (i + 1) = rounds + 1 + i by omega,
      ih (fun j hj => hstops j (by omega)) hk₀ hstall₀, collect_of_next hmax hnext, if_neg hmoved]

/-- Where there has been no reason to stop and there is not one yet but for the
next call, the loop cannot go on without a round. -/
theorem collect_unfinished (hstops : ∀ j < i, ¬ p.StopsAt max c s j)
    (hk : p.stage? c s i = some k) (hopen : ¬ (i = max ∨ k.Stalled)) :
    collect max p i #[] c s = .error .unfinished k.session := by
  have hmax : ¬ max ≤ k.values.toArray.size := by
    rw [List.size_toArray, (length_of_stage? hk).2]
    have hle := le_max hstops
    omega
  have hcollect := collect_eq_collect hstops hk (fun h => hopen (.inr h)) 0
  rw [Nat.zero_add] at hcollect
  rw [hcollect, collect, if_neg hmax]
  rfl

/-- The loop is over without a further call. -/
theorem collect_of_full (hn : IsLeast {i | p.StopsAt max c s i} n) (hk : p.stage? c s n = some k)
    (hfull : n = max ∨ k.Stalled) (hrounds : n ≤ rounds) :
    collect max p rounds #[] c s = .ok (.ok (k.values.toArray, k.input)) k.session := by
  have hstops := not_stopsAt_before hn
  obtain ⟨left, rfl⟩ := Nat.exists_eq_add_of_le' hrounds
  by_cases hstall : k.Stalled
  · -- the match before the last one is the one that the loop stops after
    cases n with
    | zero =>
      obtain rfl := Option.some.inj hk
      cases hstall
    | succ n =>
      obtain ⟨k₀, hk₀, hnext⟩ := stage?_succ_eq_some hk
      obtain ⟨hmax, hstall₀⟩ := open_of_not_stopsAt hstops hk₀
      rw [show left + (n + 1) = left + 1 + n by omega,
        collect_eq_collect (fun j hj => hstops j (by omega)) hk₀ hstall₀,
        collect_of_next hmax hnext, if_pos ((Stage.stalled_next_iff hnext).1 hstall)]
  · obtain rfl := hfull.resolve_right hstall
    rw [collect_eq_collect hstops hk hstall, collect_of_max_le]
    rw [(length_of_stage? hk).2]

/-- What the loop makes of its last call, which is no success. -/
def lastCall (k : Stage ι α) :
    EStateM.Result Stop (Session ι) (Outcome P.Failure P.Error ι α) →
      EStateM.Result Stop (Session ι) (Except P.Error (Array α × ι))
  | .ok (.error e) t => .ok (.error e) t
  | .ok _ t => .ok (.ok (k.values.toArray, k.input)) t
  | .error stop t => .error stop t

/-- The loop is over with a further call. -/
theorem collect_of_open (hn : IsLeast {i | p.StopsAt max c s i} n) (hk : p.stage? c s n = some k)
    (hopen : ¬ (n = max ∨ k.Stalled)) (hrounds : n < rounds) :
    collect max p rounds #[] c s = lastCall k (p k.input k.session) := by
  have hstops := not_stopsAt_before hn
  obtain ⟨left, rfl⟩ : ∃ left, rounds = left + 1 + n := ⟨rounds - n - 1, by omega⟩
  have hmax : ¬ max ≤ k.values.toArray.size := by
    rw [List.size_toArray, (length_of_stage? hk).2]
    have hle := le_max hstops
    omega
  rw [collect_eq_collect hstops hk (fun h => hopen (.inr h)), collect, if_neg hmax]
  cases hcall : p k.input k.session with
  | error stop t => rw [Run.bind_of_stop hcall]; rfl
  | ok o t =>
    rw [Run.bind_of_ok hcall]
    cases o with
    | failure f => rfl
    | error e => rfl
    | success a rest => exact absurd hcall (ne_success_of_open hn.1 hk hopen a rest t)

/-! ## The repetition -/

theorem many_of_collect_ok {values : List α} {rest : ι}
    (h : collect max p rounds #[] c s = .ok (.ok (values.toArray, rest)) t) :
    many rounds min max p c s = conclude min max (settle min values.toArray rest) t := by
  unfold many
  rw [Run.bind_of_ok h]
  rfl

theorem many_of_collect_error {e : P.Error}
    (h : collect max p rounds #[] c s = .ok (.error e) t) :
    many rounds min max p c s = conclude min max (.error e) t := by
  unfold many
  rw [Run.bind_of_ok h]
  rfl

theorem many_of_collect_stop {stop : Stop} (h : collect max p rounds #[] c s = .error stop t) :
    many rounds min max p c s = .error stop t := by
  unfold many
  rw [Run.bind_of_stop h]

/-- Without room for a value there is no call. -/
theorem many_zero (rounds min : Nat) (p : Parser ι P α) (c : ι) (s : Session ι) :
    ∃ t, many rounds min 0 p c s =
      .ok (if min = 0 then .success [] c else .failure P.noMatch) t := by
  have hsettle : settle min (#[] : Array α) c =
      if min = 0 then .success [] c else .failure P.noMatch := by
    unfold settle
    cases min <;> rfl
  have hcollect : collect 0 p rounds [].toArray c s = .ok (.ok ([].toArray, c)) s :=
    collect_of_max_le (k := .start c s) (Nat.zero_le _)
  rw [many_of_collect_ok hcollect, hsettle]
  exact exists_conclude min 0 _ s

/-- A repetition that answers gets to a stage with a reason to stop, in the
rounds that it has. -/
theorem exists_isLeast {o : Outcome P.Failure P.Error ι (List α)}
    (h : many rounds min max p c s = .ok o t) :
    ∃ n ≤ rounds, IsLeast {i | p.StopsAt max c s i} n := by
  classical
  have hstops : ∃ i, i ≤ rounds ∧ p.StopsAt max c s i := by
    by_contra hnever
    have hbefore : ∀ i ≤ rounds, ¬ p.StopsAt max c s i := fun i hi hstop =>
      hnever ⟨i, hi, hstop⟩
    obtain ⟨k, hk⟩ := exists_stage? fun j hj => hbefore j (Nat.le_of_lt hj)
    have hopen : ¬ (rounds = max ∨ k.Stalled) := by
      rintro (hmax | hstall)
      · exact hbefore rounds (Nat.le_refl _) (.inl hmax)
      · exact hbefore rounds (Nat.le_refl _) (.inr (.inr ⟨k, hk, hstall⟩))
    have hcollect := collect_unfinished (fun j hj => hbefore j (Nat.le_of_lt hj)) hk hopen
    rw [many_of_collect_stop hcollect] at h
    cases h
  obtain ⟨i, hi, hstop⟩ := hstops
  have hfound : ∃ i, p.StopsAt max c s i := ⟨i, hstop⟩
  exact ⟨Nat.find hfound, (Nat.find_min' hfound hstop).trans hi, Nat.find_spec hfound,
    fun j hj => Nat.find_min' hfound hj⟩

/-- The repetition makes its calls and then concludes. -/
theorem many_of_ends {calls : Nat} {o : Outcome P.Failure P.Error ι (List α)}
    (hn : IsLeast {i | p.StopsAt max c s i} n) (hk : p.stage? c s n = some k)
    (hends : p.Ends min max n k calls o) (hrounds : calls ≤ rounds) :
    many rounds min max p c s =
      (p.visit (k.inputs.take calls) >>= fun _ => conclude min max o) s := by
  cases hends with
  | full hfull ho =>
    rw [(take_inputs hk).1, Run.bind_of_ok (visit_of_stage? hk), ← Stage.settles_iff.1 ho]
    exact many_of_collect_ok (collect_of_full hn hk hfull hrounds)
  | failed hopen hcall ho =>
    have hcollect := collect_of_open hn hk hopen hrounds
    rw [hcall] at hcollect
    rw [(take_inputs hk).2, Run.bind_of_ok (visit_snoc hk hcall), ← Stage.settles_iff.1 ho]
    exact many_of_collect_ok hcollect
  | erred hopen hcall =>
    have hcollect := collect_of_open hn hk hopen hrounds
    rw [hcall] at hcollect
    rw [(take_inputs hk).2, Run.bind_of_ok (visit_snoc hk hcall)]
    exact many_of_collect_error hcollect

/-- A repetition that answers has ended at its first stage with a reason to
stop, whatever it has made of that. -/
theorem exists_last_stage {o : Outcome P.Failure P.Error ι (List α)}
    (h : many rounds min max p c s = .ok o t) :
    ∃ n k calls o', IsLeast {i | p.StopsAt max c s i} n ∧ p.stage? c s n = some k ∧
      p.Ends min max n k calls o' ∧ calls ≤ rounds := by
  obtain ⟨n, hrounds, hn⟩ := exists_isLeast h
  have hstops := not_stopsAt_before hn
  obtain ⟨k, hk⟩ := exists_stage? hstops
  by_cases hfull : n = max ∨ k.Stalled
  · exact ⟨n, k, n, _, hn, hk, .full hfull (Stage.settles_iff.2 rfl), hrounds⟩
  · have hless : n < rounds := by
      refine lt_of_le_of_ne hrounds fun heq => ?_
      subst heq
      rw [many_of_collect_stop (collect_unfinished hstops hk hfull)] at h
      cases h
    have hcollect := collect_of_open hn hk hfull hless
    cases hcall : p k.input k.session with
    | error stop t' =>
      rw [hcall] at hcollect
      rw [many_of_collect_stop hcollect] at h
      cases h
    | ok o' t' =>
      cases o' with
      | failure f =>
        exact ⟨n, k, n + 1, _, hn, hk, .failed hfull hcall (Stage.settles_iff.2 rfl), hless⟩
      | error e => exact ⟨n, k, n + 1, _, hn, hk, .erred hfull hcall, hless⟩
      | success a rest => exact absurd hcall (ne_success_of_open hn.1 hk hfull a rest t')

/-- A repetition that answers ends so at its last stage. -/
theorem exists_ends {o : Outcome P.Failure P.Error ι (List α)}
    (h : many rounds min max p c s = .ok o t) :
    ∃ n k calls, IsLeast {i | p.StopsAt max c s i} n ∧ p.stage? c s n = some k ∧
      p.Ends min max n k calls o ∧ calls ≤ rounds := by
  obtain ⟨n, k, calls, o', hn, hk, hends, hrounds⟩ := exists_last_stage h
  rw [many_of_ends hn hk hends hrounds] at h
  obtain ⟨rfl, -⟩ := visit_conclude_eq_ok h
  exact ⟨n, k, calls, hn, hk, hends, hrounds⟩

/-- Further rounds change nothing. -/
theorem many_mono {o : Outcome P.Failure P.Error ι (List α)} {rounds' : Nat}
    (hrounds : rounds ≤ rounds') (h : many rounds min max p c s = .ok o t) :
    many rounds' min max p c s = .ok o t := by
  obtain ⟨n, k, calls, hn, hk, hends, hcalls⟩ := exists_ends h
  rw [many_of_ends hn hk hends (hcalls.trans hrounds), ← many_of_ends hn hk hends hcalls]
  exact h

/-- A success has collected as many values as the bounds allow. -/
theorem many_within {values : List α} {rest : ι}
    (h : many rounds min max p c s = .ok (.success values rest) t) :
    min ≤ values.length ∧ values.length ≤ max := by
  obtain ⟨n, k, calls, hn, hk, hends, -⟩ := exists_ends h
  exact hends.within hk (le_max (not_stopsAt_before hn))

/-- A repetition ends at its first stage with a reason to stop.

* It answers if and only if there is such a stage, the rounds suffice for its
  calls and a last call does not stop the run.  The answer is read off the
  stage: with `max` values, a stall or a failure it depends on whether there
  are `min` of them, and an error stays the error that it is.  The calls are
  made on the inputs of the stages, one after another: as many as there are
  values if the maximum or a stall ends the repetition, and otherwise one more.
* A tap around the part shows these calls.
* So there are never fewer values than `min` nor more than `max`, and a
  repetition that asks for no values never fails. -/
theorem many_ends_at_first_stop (p : Parser ι P α) (rounds min max : Nat) (c : ι)
    (s : Session ι) :
    (∀ o t, many rounds min max p c s = .ok o t ↔
      ∃ n k calls, IsLeast {i | p.StopsAt max c s i} n ∧ p.stage? c s n = some k ∧
        k.values.length = n ∧ k.visited.length = n ∧
        p.Ends min max n k calls o ∧ calls ≤ rounds ∧
        (p.visit (k.inputs.take calls) >>= fun _ => conclude min max o) s = .ok o t) ∧
    (∀ id inputs (o : Outcome P.Failure P.Error ι (List α)) t, p.Signs id →
      (p.visit inputs >>= fun _ => conclude min max o) s = .ok o t →
        t.entered id = s.entered id ++ inputs) ∧
    (∀ values rest t, many rounds min max p c s = .ok (.success values rest) t →
      min ≤ values.length ∧ values.length ≤ max) ∧
    (min = 0 → ∀ f t, many rounds min max p c s ≠ .ok (.failure f) t) := by
  refine ⟨fun o t => ⟨fun h => ?_, ?_⟩, fun id inputs o t hp h => ?_,
    fun values rest t => many_within, ?_⟩
  · obtain ⟨n, k, calls, hn, hk, hends, hrounds⟩ := exists_ends h
    obtain ⟨hvisited, hvalues⟩ := length_of_stage? hk
    rw [many_of_ends hn hk hends hrounds] at h
    exact ⟨n, k, calls, hn, hk, hvalues, hvisited, hends, hrounds, h⟩
  · rintro ⟨n, k, calls, hn, hk, -, -, hends, hrounds, h⟩
    rw [many_of_ends hn hk hends hrounds]
    exact h
  · exact (visit_conclude_eq_ok h).2 id hp
  · rintro rfl f t h
    obtain ⟨n, k, calls, -, -, hends, -⟩ := exists_ends h
    exact hends.ne_failure

/-- A letter, or nothing. -/
def letterOrNothing : Parser TextCursor ParseError.payloads (List Char) :=
  tap "letter" (choice [primitive (.word ['a']), succeed [] fun c => c])

theorem letterOrNothing_signs : letterOrNothing.Signs "letter" := by
  refine signs_tap fun c => (skips_primitive _ c).bind fun o => ?_
  cases o with
  | failure f => exact (Run.skips_trace _).bind fun _ => Run.skips_pure _
  | success a rest => exact (Run.skips_trace _).bind fun _ => Run.skips_pure _
  | error e => exact (Run.skips_trace _).bind fun _ => Run.skips_pure _

/-- Two letters and nothing: the third match stalls, and there is no fourth call. -/
theorem many_ends_at_first_stop_in_stall :
    let s := Session.fresh false
    let input := ['a', 'a', 'b']
    let places : List TextCursor := [⟨0, input, input⟩, ⟨1, ['a', 'b'], input⟩, ⟨2, ['b'], input⟩]
    ∃ t, many 3 2 5 letterOrNothing (Cursor.start input) s =
        .ok (.success [['a'], ['a'], []] ⟨2, ['b'], input⟩) t ∧
      t.entered "letter" = places := by
  intro s input places
  let calls : TextCursor → List (Entry TextCursor) := fun d =>
    [.enter "letter" d, .leave "letter" .success]
  let t : Session TextCursor := ⟨false, "", [], (places.flatMap calls).toArray⟩
  let k : Stage TextCursor (List Char) := ⟨places, [['a'], ['a'], []], ⟨2, ['b'], input⟩, t⟩
  obtain ⟨hiff, hshown, -⟩ := many_ends_at_first_stop letterOrNothing 3 2 5 (Cursor.start input) s
  have hk : letterOrNothing.stage? (Cursor.start input) s 3 = some k := rfl
  have hn : IsLeast {i | letterOrNothing.StopsAt 5 (Cursor.start input) s i} 3 := by
    refine ⟨.inr (.inr ⟨k, hk, rfl⟩), fun i hi => ?_⟩
    by_contra hless
    obtain rfl | rfl | rfl : i = 0 ∨ i = 1 ∨ i = 2 := by omega
    all_goals
      rcases hi with hmax | hnone | ⟨k', hk', hstall⟩
      · contradiction
      · cases hnone
      · obtain rfl := Option.some.inj hk'
        exact absurd hstall (by decide)
  let o : Outcome ParseError ParseError TextCursor (List (List Char)) :=
    .success k.values k.input
  have hcalls : (letterOrNothing.visit (k.inputs.take 3) >>= fun _ =>
      conclude (P := ParseError.payloads) 2 5 o) s = .ok o t := rfl
  refine ⟨t, (hiff _ t).2 ⟨3, k, 3, hn, hk, rfl, rfl, .full (.inr rfl) (.enough ?_), ?_, hcalls⟩, ?_⟩
  · decide
  · decide
  · exact hshown "letter" _ _ t letterOrNothing_signs hcalls

end Parser

end Triad
