import Triad.Proofs.Meaning.Steps
import Triad.Proofs.Meaning.Whole
import Triad.Proofs.Text.Safety

/-!
# Complete parses

`finalize` lets a success through if it has got to the end of the text and
turns everything else into an error.  `run` is `finalize` at the beginning of a
text.  The statements of this file are about any parser at all, also one that
is no grammar: it may answer as it likes, and otherwise in every session.

`Outcome.completed` is what becomes of an outcome.  A parser that runs in one
fixed session is a reading, so the lemmas about readings apply to it
(`Parser.finalize_result`, `Parser.run_result_in`).
-/

namespace Triad

variable {P : Payloads} {α : Type}

/-! ## Outcomes -/

/-- The outcome of a parse that has to get to the end of the text. -/
def Outcome.completed (promote : P.Failure → P.Error) :
    Outcome P.Failure P.Error TextCursor α → Outcome P.Failure P.Error TextCursor α
  | .success a d => if d.isEnd then .success a d else .error P.incomplete
  | .failure f => .error (promote f)
  | .error e => .error e

namespace Outcome

variable {promote : P.Failure → P.Error} {o : Outcome P.Failure P.Error TextCursor α}

theorem completed_ne_failure (f : P.Failure) : o.completed promote ≠ .failure f := by
  unfold completed
  split
  · split <;> simp
  · simp
  · simp

theorem completed_eq_success_iff {a : α} {d : TextCursor} :
    o.completed promote = .success a d ↔ o = .success a d ∧ d.isEnd := by
  cases o with
  | failure f => simp [completed]
  | error e => simp [completed]
  | success b d' =>
    show (if d'.isEnd then _ else _) = _ ↔ _
    by_cases hend : d'.isEnd
    · rw [if_pos hend]
      refine ⟨fun h => ⟨h, ?_⟩, And.left⟩
      obtain ⟨-, rfl⟩ := Outcome.success.inj h
      exact hend
    · rw [if_neg hend]
      refine ⟨fun h => by simp at h, ?_⟩
      rintro ⟨h, hend'⟩
      obtain ⟨-, rfl⟩ := Outcome.success.inj h
      exact absurd hend' hend

/-- What has been completed once is complete. -/
theorem completed_completed : (o.completed promote).completed promote = o.completed promote := by
  cases o with
  | failure f => rfl
  | error e => rfl
  | success a d =>
    by_cases hend : d.isEnd
    · simp [completed, hend]
    · simp [completed, hend]

end Outcome

/-! ## Readings -/

namespace Reading

variable (promote : P.Failure → P.Error) (p : Reading TextCursor P α)

theorem finalize_eq_completed (c : TextCursor) :
    finalize promote p c = (p c).map (Outcome.completed promote) := by
  unfold finalize map bind escalate pair
  cases p c with
  | error stop => rfl
  | ok o =>
    cases o with
    | failure f => rfl
    | error e => rfl
    | success a d =>
      by_cases hend : d.isEnd
      · simp [primitive, Matcher.endOfText, Outcome.completed, hend, Except.map]
      · simp [primitive, Matcher.endOfText, Outcome.completed, hend, Except.map]

theorem finalize_finalize : finalize promote (finalize promote p) = finalize promote p := by
  funext c
  rw [finalize_eq_completed, finalize_eq_completed]
  cases p c with
  | error stop => rfl
  | ok o => exact congrArg Except.ok Outcome.completed_completed

theorem run_finalize (text : String) :
    run promote (finalize promote p) text = run promote p text := by
  rw [run_eq_finalize, run_eq_finalize, finalize_finalize]

end Reading

/-! ## Parsers in a session -/

/-- At the end of the text there is one place only. -/
theorem Cursor.Valid.eq_toEnd {c : TextCursor} (valid : c.Valid) (hend : c.rest = []) :
    c = c.toEnd := by
  obtain ⟨consumed, hinput, hwidth⟩ := valid
  rw [hend, List.append_nil] at hinput
  have hposition : c.position = Width.total c.input := by rw [← hwidth, hinput]
  show (⟨c.position, c.rest, c.input⟩ : TextCursor) = ⟨Width.total c.input, [], c.input⟩
  rw [hposition, hend]

namespace Parser

variable (promote : P.Failure → P.Error) (p : Parser TextCursor P α)

/-- What the parser answers in the session, at every place. -/
def readingIn (s : Session TextCursor) : Reading TextCursor P α := fun c => (p c).result s

/-- Only the outcome of the part counts, not where it comes from. -/
theorem finalize_eq_bind (c : TextCursor) :
    finalize promote p c = p c >>= fun o => finalize promote (fun _ => pure o) c := by
  unfold finalize map bind escalate pair
  simp only [bind_assoc, pure_bind]

theorem readingIn_finalize (s : Session TextCursor) :
    (finalize promote p).readingIn s = Reading.finalize promote (p.readingIn s) := by
  funext c
  rw [Reading.finalize_eq_completed, readingIn, finalize_eq_bind]
  unfold readingIn
  cases h : p c s with
  | error stop s' =>
    rw [Run.result_of_stop h, Run.result_of_stop (Run.bind_of_stop h)]
    rfl
  | ok o s' =>
    let constant : Parser TextCursor P α := fun _ => pure o
    have hconstant : constant.Follows (fun _ => .ok o, fun _ => []) := fun _ => Run.does_pure o
    have hfinalize := (does_finalize promote hconstant c s').1
    rw [Reading.finalize_eq_completed] at hfinalize
    rw [Run.result_of_ok h, ← hfinalize, Run.result, Run.bind_of_ok h]
    rfl

/-- `run` with something else to do after a failure. -/
def runOr (never : P.Failure → Run TextCursor (Except P.Error α)) (text : String) :
    Run TextCursor (Except P.Error α) := do
  let c ← start text
  let o ← finalize promote p c
  Run.trace fun label => ⟨c.snippet, label, "run(" ++ noArgument ++ ")", [o.kind]⟩
  match o with
  | .success a _ => pure (.ok a)
  | .failure f => never f
  | .error e => pure (.error e)

theorem finalize_ne_failure (c : TextCursor) (s : Session TextCursor) (f : P.Failure) :
    (finalize promote p c).result s ≠ .ok (.failure f) := by
  show (finalize promote p).readingIn s c ≠ _
  rw [readingIn_finalize, Reading.finalize_eq_completed]
  cases p.readingIn s c with
  | error stop => simp [Except.map]
  | ok o => exact fun h => Outcome.completed_ne_failure f (Except.ok.inj h)

/-- A run never gets to what there is to do after a failure. -/
theorem runOr_eq_run (never : P.Failure → Run TextCursor (Except P.Error α)) (text : String) :
    runOr promote p never text = run promote p text := by
  refine congrArg (start text >>= ·) (funext fun c => funext fun s => ?_)
  cases h : finalize promote p c s with
  | error stop s' => rw [Run.bind_of_stop h, Run.bind_of_stop h]
  | ok o s' =>
    rw [Run.bind_of_ok h, Run.bind_of_ok h]
    cases o with
    | success a d => rfl
    | failure f => exact absurd (Run.result_of_ok h) (finalize_ne_failure promote p c s f)
    | error e => rfl

theorem run_result_in (text : String) (s : Session TextCursor) :
    (run promote p text).result s =
      Reading.run promote (p.readingIn ((start text).final s)) text := by
  have hstart := Run.ok_of_result (does_start text s).1
  rw [Reading.run_eq_finalize, ← readingIn_finalize, readingIn, run, Run.result,
    Run.bind_of_ok hstart]
  cases h : finalize promote p (Cursor.start text.toList) ((start text).final s) with
  | error stop s' => rw [Run.bind_of_stop h, Run.result_of_stop h]
  | ok o s' =>
    rw [Run.bind_of_ok h, Run.result_of_ok h]
    cases o with
    | success a d => exact (Run.memory.trace_done ⟨_, _, _⟩ _ s').1
    | failure f => exact (Run.memory.trace_done ⟨_, _, _⟩ _ s').1
    | error e => exact (Run.memory.trace_done ⟨_, _, _⟩ _ s').1

/-- A success leaves a place of the same input. -/
def StaysOnInput (p : Parser TextCursor P α) : Prop :=
  ∀ c s a d, c.Valid → (p c).result s = .ok (.success a d) → d.Valid ∧ d.input = c.input

theorem staysOnInput_parse {N : Payloads → Type → Type} {rules : Rules TextCursor N}
    {g : Grammar TextCursor N P α} (hrules : rules.OfText (· = id)) (hg : g.OfText (· = id))
    (limits : Limits) : (g.parse rules limits).StaysOnInput := by
  intro c s a d valid h
  rw [Grammar.parse_result] at h
  have hreaches : c.Reaches d :=
    (Grammar.keeps_of_reaches (fun _ _ hd h => hd.trans h) hrules hg limits).leaves (.refl c) h
  exact ⟨hreaches.valid valid, hreaches.input⟩

/-- Complete parses are accepted and no others.

* Where the parser answers, the finalized one succeeds if and only if the
  parser does and is at the end of the text then; otherwise it errs, and the
  outcome of the parser decides the payload.
* It never fails, so a run never gets to what there is to do after a failure.
* Finalizing once more changes nothing, at no place and in no run.
* If the parser stays on the input, then a run has a value if and only if the
  parser has consumed all of the text. -/
theorem complete_parses_are_accepted (promote : P.Failure → P.Error) (p : Parser TextCursor P α) :
    (∀ c s o, (p c).result s = .ok o →
      (∀ a d, (finalize promote p c).result s = .ok (.success a d) ↔
        o = .success a d ∧ d.isEnd) ∧
      (∀ a d, o = .success a d → ¬ d.isEnd →
        (finalize promote p c).result s = .ok (.error P.incomplete)) ∧
      (∀ f, o = .failure f → (finalize promote p c).result s = .ok (.error (promote f))) ∧
      ∀ e, o = .error e → (finalize promote p c).result s = .ok (.error e)) ∧
    (∀ c s f, (finalize promote p c).result s ≠ .ok (.failure f)) ∧
    (∀ never text, runOr promote p never text = run promote p text) ∧
    (∀ c s, (finalize promote (finalize promote p) c).result s =
      (finalize promote p c).result s) ∧
    (∀ text s, (run promote (finalize promote p) text).result s = (run promote p text).result s) ∧
    (p.StaysOnInput → ∀ text s a,
      let c := Cursor.start text.toList
      (run promote p text).result s = .ok (.ok a) ↔
        (p c).result ((start text).final s) = .ok (.success a c.toEnd)) := by
  have hfinalize : ∀ c s, (finalize promote p c).result s =
      ((p c).result s).map (Outcome.completed promote) := by
    intro c s
    show (finalize promote p).readingIn s c = _
    rw [readingIn_finalize, Reading.finalize_eq_completed]
    rfl
  refine ⟨fun c s o ho => ?_, finalize_ne_failure promote p, runOr_eq_run promote p, ?_, ?_, ?_⟩
  · rw [hfinalize, ho]
    refine ⟨fun a d => ?_, fun a d h hend => ?_, fun f h => ?_, fun e h => ?_⟩
    · rw [← Outcome.completed_eq_success_iff]
      exact ⟨Except.ok.inj, congrArg Except.ok⟩
    · simp [Except.map, Outcome.completed, h, hend]
    · rw [h]
      rfl
    · rw [h]
      rfl
  · intro c s
    show (finalize promote (finalize promote p)).readingIn s c = (finalize promote p).readingIn s c
    rw [readingIn_finalize, readingIn_finalize, Reading.finalize_finalize]
  · intro text s
    rw [run_result_in, run_result_in, readingIn_finalize, Reading.run_finalize]
  · intro hstays text s a c
    rw [run_result_in, Reading.run_eq_ok_iff]
    constructor
    · rintro ⟨d, hd, hend⟩
      obtain ⟨valid, hinput⟩ := hstays _ _ _ _ (Cursor.valid_start _) hd
      have hd' : d = c.toEnd := by
        rw [valid.eq_toEnd hend, Cursor.toEnd, hinput]
        rfl
      rw [← hd']
      exact hd
    · intro h
      exact ⟨c.toEnd, h, rfl⟩

/-- A letter of two bytes.  Failures are flags and errors are parse errors. -/
def letter : Grammar TextCursor NoNames (Payloads.of Bool ParseError) Char := .char 'é'

/-- The letter at the end of the text, in front of more text, and missing. -/
theorem complete_parses_are_accepted_of_letter :
    let p := letter.parse Rules.none ⟨0, 0⟩
    let promote : Bool → ParseError := fun miss => if miss then .noMatch else .incomplete
    (finalize promote p (Cursor.start ['é'])).result (Session.fresh true) =
        .ok (.success 'é' ⟨2, [], ['é']⟩) ∧
      (finalize promote p (Cursor.start ['é', 'x'])).result (Session.fresh true) =
        .ok (.error .incomplete) ∧
      (finalize promote p (Cursor.start ['x'])).result (Session.fresh true) =
        .ok (.error .noMatch) ∧
      (run promote p "é").result (Session.fresh true) = .ok (.ok 'é') := by
  intro p promote
  obtain ⟨houtcome, -, -, -, -, hrun⟩ := complete_parses_are_accepted promote p
  have hp : ∀ c s, (p c).result s = letter.answer Rules.none ⟨0, 0⟩ c :=
    Grammar.parse_result Rules.none ⟨0, 0⟩ letter
  have hstays : p.StaysOnInput :=
    staysOnInput_parse Rules.madeOf_none (Grammar.ofText_char 'é') ⟨0, 0⟩
  have hend := houtcome (Cursor.start ['é']) (Session.fresh true) _ (hp _ _)
  have hmore := houtcome (Cursor.start ['é', 'x']) (Session.fresh true) _ (hp _ _)
  have hmissing := houtcome (Cursor.start ['x']) (Session.fresh true) _ (hp _ _)
  refine ⟨(hend.1 _ _).2 ⟨rfl, rfl⟩, hmore.2.1 _ _ rfl (by decide), hmissing.2.2.1 true rfl, ?_⟩
  exact (hrun hstays "é" (Session.fresh true) 'é').2 (hp _ _)

end Parser

end Triad
