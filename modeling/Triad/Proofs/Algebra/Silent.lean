import Triad.Proofs.Meaning.Adequacy
import Triad.Proofs.Meaning.Steps

/-!
# Runs but for their trace

Two ways to write a parser may do the same and only tell of it in other words:
a combinator writes a trace line under its own name.  `Run.silent` is a run
whose session ends without trace lines.  Two runs with the same `silent` answer
the same in every session, or stop for the same reason; they build the same
deferred parsers, and their taps record the same calls in the same order
(`Run.result_eq_of_silent`, `Run.taps_eq_of_silent`).

Runs may be replaced inside a larger one as long as nothing runs in the session
that they leave but an answer (`Run.silent_map`, `Run.silent_bind_congr`).
-/

namespace Triad

variable {ι : Type} {α β γ : Type}

namespace Session

/-- The session without its trace lines. -/
def silent (s : Session ι) : Session ι := { s with log := s.log.filter fun e => !e.isLine }

theorem silent_record_line (s : Session ι) (l : Line) : (s.record (.line l)).silent = s.silent := by
  simp [silent, record, Entry.isLine]

theorem taps_silent (s : Session ι) : s.silent.taps = s.taps := by
  unfold taps silent
  rw [Array.toList_filter, List.filter_filter]
  refine List.filter_congr fun e _ => ?_
  cases e <;> rfl

end Session

namespace Run

/-- The run, with no trace lines in the session that it leaves. -/
def silent (r : Run ι α) : Run ι α := fun s =>
  match r s with
  | .ok a t => .ok a t.silent
  | .error stop t => .error stop t.silent

variable {r r' : Run ι α} {f f' : α → Run ι β} {s t : Session ι} {a : α} {stop : Stop}

theorem silent_of_ok (h : r s = .ok a t) : r.silent s = .ok a t.silent := by rw [silent, h]

theorem silent_of_stop (h : r s = .error stop t) : r.silent s = .error stop t.silent := by
  rw [silent, h]

theorem result_silent (r : Run ι α) (s : Session ι) : r.silent.result s = r.result s := by
  unfold result silent
  cases r s <;> rfl

theorem final_silent (r : Run ι α) (s : Session ι) : r.silent.final s = (r.final s).silent := by
  unfold final silent
  cases r s <;> rfl

theorem result_eq_of_silent (h : r.silent = r'.silent) (s : Session ι) :
    r.result s = r'.result s := by
  rw [← result_silent, h, result_silent]

theorem taps_eq_of_silent (h : r.silent = r'.silent) (s : Session ι) :
    (r.final s).taps = (r'.final s).taps := by
  rw [← Session.taps_silent, ← final_silent, h, final_silent, Session.taps_silent]

/-- What the first of two such runs answers, the second one answers as well. -/
theorem ok_of_silent (h : r.silent = r'.silent) (hr : r s = .ok a t) :
    ∃ t', r' s = .ok a t' ∧ t'.silent = t.silent := by
  have hs := silent_of_ok hr
  rw [h] at hs
  cases hr' : r' s with
  | error stop t' =>
    rw [silent_of_stop hr'] at hs
    cases hs
  | ok a' t' =>
    rw [silent_of_ok hr'] at hs
    obtain ⟨rfl, hsilent⟩ := EStateM.Result.ok.inj hs
    exact ⟨t', rfl, hsilent⟩

/-- A line, and then an answer. -/
theorem silent_trace_pure (line : String → Line) (a : α) :
    (trace line >>= fun _ => (pure a : Run ι α)).silent = (pure a : Run ι α).silent := by
  funext s
  cases htracing : s.tracing with
  | false => simp [silent, trace, htracing, Bind.bind, EStateM.bind]
  | true =>
    simp only [silent, trace, htracing, Bind.bind, EStateM.bind]
    exact congrArg (EStateM.Result.ok a) (s.silent_record_line _)

theorem map_of_ok (g : α → β) (h : r s = .ok a t) : (g <$> r) s = .ok (g a) t := by
  simp only [Functor.map, EStateM.map, h]

theorem silent_map (g : α → β) (r : Run ι α) : (g <$> r).silent = g <$> r.silent := by
  funext s
  unfold silent
  simp only [Functor.map, EStateM.map]
  cases r s <;> rfl

/-- After the same first run, two second ones with the same silent run. -/
theorem silent_bind_congr (h : ∀ a s t, r s = .ok a t → (f a).silent = (f' a).silent) :
    (r >>= f).silent = (r >>= f').silent := by
  funext s
  cases hr : r s with
  | error stop t => rw [silent_of_stop (bind_of_stop hr), silent_of_stop (bind_of_stop hr)]
  | ok a t =>
    have hnext := congrFun (h a s t hr) t
    unfold silent at hnext ⊢
    rw [bind_of_ok hr, bind_of_ok hr]
    exact hnext

end Run

namespace Parser

/-- The line of a combinator, and then an answer. -/
theorem silent_note_pure (name argument : String) (kinds : List Kind) (a : α) :
    (note name argument kinds >>= fun _ => (pure a : Run ι α)).silent =
      (pure a : Run ι α).silent := Run.silent_trace_pure _ a

end Parser

end Triad
