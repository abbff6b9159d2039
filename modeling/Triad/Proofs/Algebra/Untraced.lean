import Mathlib.Data.List.OfFn
import Triad.Proofs.Algebra.Silent

/-!
# Parsers that do not read their trace

A trace is there to be looked at from outside.  `Run.IgnoresTrace` says that a
run does the same whatever lines the session holds when it starts.  Behind such
a run, one may write more lines or fewer, and what runs afterwards does not
change (`Run.silent_bind`).

Nothing that a parser is built of reads the lines of a session.  So every
grammar gives a parser that ignores the trace (`Grammar.parse_ignoresTrace`):
this is an induction on the grammar, and each step puts runs together with
`Run.IgnoresTrace.bind`.
-/

namespace Triad

variable {ι : Type} {P Q : Payloads} {α β : Type}

namespace Session

@[simp] theorem silent_silent (s : Session ι) : s.silent.silent = s.silent := by simp [silent]

/-- Lines that come before a record may be left out first. -/
theorem silent_record_silent (s : Session ι) (e : Entry ι) :
    (s.silent.record e).silent = (s.record e).silent := by
  unfold silent record
  congr 1
  apply Array.toList_inj.1
  simp [List.filter_filter]

end Session

namespace Run

/-- Without the lines of the session the run does the same. -/
def IgnoresTrace (r : Run ι α) : Prop := ∀ s, r.silent s.silent = r.silent s

variable {r r' : Run ι α} {f f' : α → Run ι β}

theorem IgnoresTrace.congr (hr : r.IgnoresTrace) {s t : Session ι} (h : s.silent = t.silent) :
    r.silent s = r.silent t := by
  rw [← hr s, h, hr t]

/-! ## Putting runs together -/

theorem silent_bind_apply (r : Run ι α) (f : α → Run ι β) (s : Session ι) :
    (r >>= f).silent s =
      match r s with
      | .ok a t => (f a).silent t
      | .error stop t => .error stop t.silent := by
  cases hr : r s with
  | ok a t =>
    unfold silent
    rw [bind_of_ok hr]
  | error stop t => exact silent_of_stop (bind_of_stop hr)

/-- One run after another, from sessions in which the first runs do the same
but for their trace. -/
theorem silent_bind_of_silent {s s' : Session ι} (h : r.silent s = r'.silent s')
    (hf : ∀ a, (f a).silent = (f' a).silent) (hignores : ∀ a, (f a).IgnoresTrace) :
    (r >>= f).silent s = (r' >>= f').silent s' := by
  rw [silent_bind_apply, silent_bind_apply]
  unfold silent at h
  cases hr : r s with
  | ok a t =>
    cases hr' : r' s' with
    | error stop t' => rw [hr, hr'] at h; cases h
    | ok a' t' =>
      rw [hr, hr'] at h
      obtain ⟨rfl, ht⟩ := EStateM.Result.ok.inj h
      calc (f a).silent t
        _ = (f a).silent t' := (hignores a).congr ht
        _ = (f' a).silent t' := congrFun (hf a) t'
  | error stop t =>
    cases hr' : r' s' with
    | ok a' t' => rw [hr, hr'] at h; cases h
    | error stop' t' =>
      rw [hr, hr'] at h
      obtain ⟨rfl, ht⟩ := EStateM.Result.error.inj h
      exact congrArg (EStateM.Result.error stop) ht

/-- After two first runs that are the same but for their trace, a second run
does the same if it ignores the trace. -/
theorem silent_bind (h : r.silent = r'.silent) (hf : ∀ a, (f a).silent = (f' a).silent)
    (hignores : ∀ a, (f a).IgnoresTrace) : (r >>= f).silent = (r' >>= f').silent := by
  funext s
  exact silent_bind_of_silent (congrFun h s) hf hignores

theorem IgnoresTrace.bind (hr : r.IgnoresTrace) (hf : ∀ a, (f a).IgnoresTrace) :
    (r >>= f).IgnoresTrace := by
  intro s
  exact silent_bind_of_silent (hr s) (fun _ => rfl) hf

theorem ignoresTrace_pure (a : α) : (pure a : Run ι α).IgnoresTrace := by
  intro s
  exact congrArg (EStateM.Result.ok a) s.silent_silent

theorem ignoresTrace_throw (stop : Stop) : (throw stop : Run ι α).IgnoresTrace := by
  intro s
  exact congrArg (EStateM.Result.error stop) s.silent_silent

/-! ## What a run does to its session -/

theorem ignoresTrace_trace (line : String → Line) : (trace line : Run ι Unit).IgnoresTrace := by
  have hquiet : ∀ s : Session ι, (trace line).silent s = .ok () s.silent := by
    intro s
    unfold silent trace
    cases s.tracing with
    | false => rfl
    | true => exact congrArg (EStateM.Result.ok ()) (s.silent_record_line _)
  intro s
  rw [hquiet, hquiet, Session.silent_silent]

theorem ignoresTrace_record (e : Entry ι) : (record e).IgnoresTrace := by
  intro s
  exact congrArg (EStateM.Result.ok ()) (s.silent_record_silent e)

theorem ignoresTrace_build (cell : Path) (note : Option String) :
    (build cell note : Run ι Unit).IgnoresTrace := by
  intro s
  unfold silent build
  by_cases hcell : cell ∈ s.built
  · have hcell' : cell ∈ s.silent.built := hcell
    rw [if_pos hcell, if_pos hcell']
    exact congrArg (EStateM.Result.ok ()) s.silent_silent
  · have hcell' : cell ∉ s.silent.built := hcell
    have hrecord := s.silent_record_silent (.built cell note)
    rw [if_neg hcell, if_neg hcell']
    exact congrArg (fun t => EStateM.Result.ok () { t with built := cell :: s.built }) hrecord

theorem IgnoresTrace.withLabel (name : String) (hr : r.IgnoresTrace) :
    (withLabel name r).IgnoresTrace := by
  -- a label does not touch the log, so the session may be silenced before or after
  have hlabel : ∀ s : Session ι, (Run.withLabel name r).silent s =
      match r.silent { s with label := name } with
      | .ok a t => .ok a { t with label := s.label }
      | .error stop t => .error stop { t with label := s.label } := by
    intro s
    unfold silent Run.withLabel
    cases r { s with label := name } <;> rfl
  intro s
  rw [hlabel, hlabel, ← hr { s with label := name }]
  rfl

end Run

/-! ## Parsers -/

namespace Parser

open Run

/-- On every input the parser ignores the trace. -/
def IgnoresTrace (p : Parser ι P α) : Prop := ∀ c, (p c).IgnoresTrace

variable {p : Parser ι P α} {ps : List (Parser ι P α)}

/-- The line of a combinator, and then an answer. -/
theorem ignoresTrace_note (name argument : String) (kinds : List Kind) (a : α) :
    (note name argument kinds >>= fun _ => (pure a : Run ι α)).IgnoresTrace :=
  (ignoresTrace_trace _).bind fun _ => ignoresTrace_pure a

theorem ignoresTrace_primitive (m : Matcher ι α) : (primitive (P := P) m).IgnoresTrace := by
  intro c
  unfold primitive
  cases m.match? c with
  | none =>
    cases m.note with
    | none => exact ignoresTrace_pure _
    | some n => exact (ignoresTrace_trace _).bind fun _ => ignoresTrace_pure _
  | some found =>
    cases m.note with
    | none => exact ignoresTrace_pure _
    | some n => exact (ignoresTrace_trace _).bind fun _ => ignoresTrace_pure _

namespace IgnoresTrace

theorem attempt (demote : P.Error → P.Failure) (hp : p.IgnoresTrace) :
    (attempt demote p).IgnoresTrace := by
  intro c
  refine (hp c).bind fun o => ?_
  cases o with
  | error e => exact ignoresTrace_note _ _ _ _
  | success a rest | failure f => exact ignoresTrace_pure _

theorem escalate (promote : P.Failure → P.Error) (hp : p.IgnoresTrace) :
    (escalate promote p).IgnoresTrace := by
  intro c
  refine (hp c).bind fun o => ?_
  cases o with
  | failure f => exact ignoresTrace_note _ _ _ _
  | success a rest | error e => exact ignoresTrace_pure _

theorem bind (f : α → Except String β) (hp : p.IgnoresTrace) : (bind f p).IgnoresTrace := by
  intro c
  refine (hp c).bind fun o => ?_
  cases o with
  | failure f | error e => exact ignoresTrace_pure _
  | success a rest =>
    dsimp only
    cases f a with
    | ok b => exact ignoresTrace_pure _
    | error message => exact ignoresTrace_throw _

theorem mapPayload (onFailure : P.Failure → Q.Failure) (onError : P.Error → Q.Error)
    (hp : p.IgnoresTrace) : (mapPayload onFailure onError p).IgnoresTrace := by
  intro c
  refine (hp c).bind fun o => ?_
  cases o <;> exact ignoresTrace_pure _

theorem check (f : α → Except P.Error β) (hp : p.IgnoresTrace) : (check f p).IgnoresTrace := by
  intro c
  refine (hp c).bind fun o => ?_
  cases o with
  | failure f | error e => exact ignoresTrace_pure _
  | success a rest =>
    dsimp only
    cases f a <;> exact ignoresTrace_pure _

theorem label (name : String) (hp : p.IgnoresTrace) : (label name p).IgnoresTrace := by
  intro c
  exact Run.IgnoresTrace.withLabel name ((hp c).bind fun o => ignoresTrace_note _ _ _ _)

theorem defer (cell : Path) (note : Option String) (hp : p.IgnoresTrace) :
    (defer cell note p).IgnoresTrace := by
  intro c
  exact (ignoresTrace_build cell note).bind fun _ => hp c

theorem tap (id : String) (hp : p.IgnoresTrace) : (tap id p).IgnoresTrace := by
  intro c
  refine (ignoresTrace_record _).bind fun _ => (hp c).bind fun o => ?_
  exact (ignoresTrace_record _).bind fun _ => ignoresTrace_pure o

theorem pair {q : Parser ι P β} (hp : p.IgnoresTrace) (hq : q.IgnoresTrace) :
    (pair p q).IgnoresTrace := by
  intro c
  refine (hp c).bind fun o => ?_
  cases o with
  | failure f | error e => exact ignoresTrace_pure _
  | success a rest =>
    refine (hq rest).bind fun o => ?_
    cases o with
    | failure f => exact ignoresTrace_note _ _ _ _
    | success b rest | error e => exact ignoresTrace_pure _

theorem choice (hps : ∀ p ∈ ps, p.IgnoresTrace) : (choice ps).IgnoresTrace := by
  have hfrom : ∀ c i, (choiceFrom c i ps).IgnoresTrace := by
    intro c
    induction ps with
    | nil => exact fun i => ignoresTrace_note _ _ _ _
    | cons p ps ih =>
      intro i
      refine (hps p List.mem_cons_self c).bind fun o => ?_
      cases o with
      | failure f => exact ih (fun p hp => hps p (List.mem_cons_of_mem _ hp)) (i + 1)
      | success a rest | error e => exact ignoresTrace_note _ _ _ _
  exact fun c => hfrom c 0

theorem sequence (hps : ∀ p ∈ ps, p.IgnoresTrace) : (sequence ps).IgnoresTrace := by
  have hfrom : ∀ values c, (sequenceFrom values ps c).IgnoresTrace := by
    induction ps with
    | nil => exact fun values c => ignoresTrace_pure _
    | cons p ps ih =>
      intro values c
      refine (hps p List.mem_cons_self c).bind fun o => ?_
      cases o with
      | success a rest =>
        exact ih (fun p hp => hps p (List.mem_cons_of_mem _ hp)) (values.push a) rest
      | error e => exact ignoresTrace_pure _
      | failure f =>
        dsimp only
        split
        · exact ignoresTrace_pure _
        · exact ignoresTrace_note _ _ _ _
  exact hfrom #[]

variable [DecidableEq ι]

theorem collect (hp : p.IgnoresTrace) (max rounds : Nat) (values : Array α) (c : ι) :
    (collect max p rounds values c).IgnoresTrace := by
  induction rounds generalizing values c with
  | zero =>
    unfold Parser.collect
    split
    · exact ignoresTrace_pure _
    · exact ignoresTrace_throw _
  | succ rounds ih =>
    unfold Parser.collect
    split
    · exact ignoresTrace_pure _
    · refine (hp c).bind fun o => ?_
      cases o with
      | failure f | error e => exact ignoresTrace_pure _
      | success a rest =>
        dsimp only
        split
        · exact ignoresTrace_pure _
        · exact ih (values.push a) rest

theorem many (hp : p.IgnoresTrace) (rounds min max : Nat) :
    (many rounds min max p).IgnoresTrace := by
  intro c
  refine (hp.collect max rounds #[] c).bind fun x => ?_
  cases x <;> exact ignoresTrace_note _ _ _ _

end IgnoresTrace

end Parser

/-! ## Grammars -/

variable {N : Payloads → Type → Type} [DecidableEq ι]

/-- A grammar ignores the trace if the parsers of its names do. -/
theorem Grammar.denote_ignoresTrace {rounds : Nat}
    {named : ∀ {P : Payloads} {α : Type}, N P α → Path → Parser ι P α}
    (hnamed : ∀ {P : Payloads} {α : Type} (name : N P α) (path : Path),
      (named name path).IgnoresTrace) (g : Grammar ι N P α) (path : Path) :
    (g.denote rounds named path).IgnoresTrace := by
  induction g generalizing path with
  | succeed | fail | error => exact fun c => Run.ignoresTrace_pure _
  | abort message => exact fun c => Run.ignoresTrace_throw _
  | primitive m => exact Parser.ignoresTrace_primitive m
  | attempt demote p ih => exact (ih _).attempt demote
  | escalate promote p ih => exact (ih _).escalate promote
  | bind f p ih => exact (ih _).bind f
  | mapPayload onFailure onError p ih => exact (ih _).mapPayload onFailure onError
  | check f p ih => exact (ih _).check f
  | context name p ih => exact (ih _).mapPayload _ _
  | label name p ih => exact (ih _).label name
  | many min max p ih => exact (ih _).many rounds min max
  | pair p q ihp ihq => exact (ihp _).pair (ihq _)
  | choice count ps ih => exact .choice (List.forall_mem_ofFn_iff.2 fun i => ih i _)
  | sequence count ps ih => exact .sequence (List.forall_mem_ofFn_iff.2 fun i => ih i _)
  | defer note p ih => exact (ih _).defer path note
  | rule name => exact hnamed name path
  | tap id p ih => exact (ih _).tap id

theorem Rules.named_ignoresTrace (rules : Rules ι N) (rounds depth : Nat) (name : N P α)
    (path : Path) : (rules.named rounds depth name path).IgnoresTrace := by
  induction depth generalizing P α path with
  | zero => exact fun c => Run.ignoresTrace_throw _
  | succ depth ih => exact Grammar.denote_ignoresTrace ih (rules name) (path.child 0)

/-- The parser of a grammar ignores the trace. -/
theorem Grammar.parse_ignoresTrace (rules : Rules ι N) (limits : Limits) (g : Grammar ι N P α) :
    (g.parse rules limits).IgnoresTrace :=
  denote_ignoresTrace (rules.named_ignoresTrace limits.rounds limits.depth) g Path.root

end Triad
