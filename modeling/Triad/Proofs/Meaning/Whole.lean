import Triad.Parser.Text
import Triad.Proofs.Meaning.Adequacy

/-!
# Whole texts

A grammar is run on a whole text by putting it between the beginning and the
end of the text.  `Reading.run` says what comes out, and `Parser.run_result`
that the run answers so in every session.  A `Request` is one or the other: a
parse from an input, or a run on a whole text.

A run answers within its limits or stops.  `Returns` says what it answers
once the limits are large enough, which is all that a caller without limits
would see.
-/

namespace Triad

variable {ι : Type} {P : Payloads} {α : Type}

/-! ## Readings -/

namespace Reading

/-- The second part reads what the first one leaves; its failure stays one. -/
def past (q : Reading ι P Unit) (p : Reading ι P α) : Reading ι P α := fun c =>
  match q c with
  | .ok (.success () rest) => p rest
  | .ok (.failure f) => .ok (.failure f)
  | .ok (.error e) => .ok (.error e)
  | .error stop => .error stop

def finalize (promote : P.Failure → P.Error) (p : Reading TextCursor P α) :
    Reading TextCursor P α :=
  map Prod.fst (escalate promote (pair p (primitive Matcher.endOfText)))

/-- The answer for a whole text. -/
def run (promote : P.Failure → P.Error) (p : Reading TextCursor P α) (text : String) :
    Except Stop (Except P.Error α) :=
  match p (Cursor.start text.toList) with
  | .ok (.success a rest) => if rest.rest = [] then .ok (.ok a) else .ok (.error P.incomplete)
  | .ok (.failure f) => .ok (.error (promote f))
  | .ok (.error e) => .ok (.error e)
  | .error stop => .error stop

/-- Running a reading on a whole text is finalizing it at the beginning. -/
theorem run_eq_finalize (promote : P.Failure → P.Error) (p : Reading TextCursor P α)
    (text : String) :
    run promote p text =
      match finalize promote p (Cursor.start text.toList) with
      | .ok (.success a _) => .ok (.ok a)
      | .ok (.failure f) => .ok (.error (promote f))
      | .ok (.error e) => .ok (.error e)
      | .error stop => .error stop := by
  unfold run finalize map bind escalate pair
  cases p (Cursor.start text.toList) with
  | error stop => rfl
  | ok o =>
    cases o with
    | failure f => rfl
    | error e => rfl
    | success a rest =>
      by_cases hend : rest.rest = []
      · simp [primitive, Matcher.endOfText, Cursor.isEnd, hend]
      · simp [primitive, Matcher.endOfText, Cursor.isEnd, hend]

theorem past_eq_success_iff {q : Reading ι P Unit} {p : Reading ι P α} {c d : ι} {a : α} :
    past q p c = .ok (.success a d) ↔
      ∃ rest, q c = .ok (.success () rest) ∧ p rest = .ok (.success a d) := by
  unfold past
  cases q c with
  | error stop => simp
  | ok o => cases o <;> simp

theorem past_eq_stop_iff {q : Reading ι P Unit} {p : Reading ι P α} {c : ι} {stop : Stop} :
    past q p c = .error stop ↔
      q c = .error stop ∨ ∃ rest, q c = .ok (.success () rest) ∧ p rest = .error stop := by
  unfold past
  cases q c with
  | error stop' => simp
  | ok o => cases o <;> simp

/-- A whole text is answered with a value if the reading gets to its end. -/
theorem run_eq_ok_iff {promote : P.Failure → P.Error} {p : Reading TextCursor P α} {text : String}
    {a : α} :
    run promote p text = .ok (.ok a) ↔
      ∃ d, p (Cursor.start text.toList) = .ok (.success a d) ∧ d.rest = [] := by
  unfold run
  cases p (Cursor.start text.toList) with
  | error stop => simp
  | ok o =>
    cases o with
    | failure f => simp
    | error e => simp
    | success b d =>
      dsimp only
      by_cases hend : d.rest = []
      · rw [if_pos hend]
        refine ⟨fun h => ⟨d, ?_, hend⟩, ?_⟩
        · obtain rfl : b = a := by simpa using h
          rfl
        · rintro ⟨d', h, -⟩
          obtain ⟨rfl, -⟩ : b = a ∧ d = d' := by simpa using h
          rfl
      · rw [if_neg hend]
        refine ⟨fun h => by simp at h, ?_⟩
        rintro ⟨d', h, hend'⟩
        obtain ⟨-, rfl⟩ : b = a ∧ d = d' := by simpa using h
        exact absurd hend' hend

/-- A whole text is answered with an error if the reading ends with it, fails
with what becomes it, or does not get to the end. -/
theorem run_eq_error_iff {promote : P.Failure → P.Error} {p : Reading TextCursor P α}
    {text : String} {e : P.Error} :
    run promote p text = .ok (.error e) ↔
      p (Cursor.start text.toList) = .ok (.error e) ∨
        (∃ f, p (Cursor.start text.toList) = .ok (.failure f) ∧ promote f = e) ∨
          ∃ a d, p (Cursor.start text.toList) = .ok (.success a d) ∧ d.rest ≠ [] ∧
            P.incomplete = e := by
  unfold run
  cases p (Cursor.start text.toList) with
  | error stop => simp
  | ok o =>
    cases o with
    | failure f => simp
    | error e' => simp
    | success a d =>
      by_cases hend : d.rest = []
      · simp [hend]
      · simp [hend]

/-- Of a reading that answers at the beginning, a whole text has an answer. -/
theorem run_answers {p : Reading TextCursor P α} {text : String}
    {o : Outcome P.Failure P.Error TextCursor α} (h : p (Cursor.start text.toList) = .ok o)
    (promote : P.Failure → P.Error) :
    ∃ r, run promote p text = .ok r := by
  unfold run
  rw [h]
  cases o with
  | failure f => exact ⟨.error (promote f), rfl⟩
  | error e => exact ⟨.error e, rfl⟩
  | success a d =>
    dsimp only
    split
    · exact ⟨.ok a, rfl⟩
    · exact ⟨.error P.incomplete, rfl⟩

end Reading

/-! ## Runs -/

namespace Parser

open Run

theorem follows_past {q : Parser ι P Unit} {p : Parser ι P α} {part : Marked ι P Unit}
    {part' : Marked ι P α} (hq : q.Follows part) (hp : p.Follows part') :
    (past q p).Follows (Reading.past part.1 part'.1, History.pair part part') := by
  intro c
  dsimp only [History.pair, Reading.past]
  refine (hq c).bind (fun o ho => ?_) fun stop hstop => by rw [hstop]; exact ⟨rfl, rfl⟩
  rw [ho]
  cases o with
  | success a rest => exact hp rest
  | failure f => exact does_pure _
  | error e => exact does_pure _

variable {p : Parser TextCursor P α} {part : Marked TextCursor P α}

/-- Asking for the end of the text leaves no marks of its own. -/
theorem does_finalize (promote : P.Failure → P.Error) (hp : p.Follows part) (c : TextCursor) :
    (finalize promote p c).Does (part.2 c) (Reading.finalize promote part.1 c) := by
  let ending : Marked TextCursor P Unit := (Reading.primitive Matcher.endOfText, fun _ => [])
  have hend : Run.memory.Follows (primitive Matcher.endOfText) ending :=
    Run.memory.sees_primitive _
  have hmarks : History.pair part ending c = part.2 c := by
    unfold History.pair
    split <;> exact List.append_nil _
  have hpart : Run.memory.Follows p part := hp
  have hpair := Run.Does.of_memory (hpart.pair hend c)
  rw [hmarks] at hpair
  have hescalate := Run.Does.of_memory (Run.memory.sees_escalate promote hpair)
  exact Run.memory.sees_bind (fun found => .ok found.1) hescalate

theorem does_start (text : String) :
    (start text).Does [] (.ok (Cursor.start text.toList)) :=
  (does_trace _).map (fun _ _ => does_pure _) nofun

/-- The run on a whole text answers what the reading says and leaves the marks
of a parse that starts at the beginning. -/
theorem does_run (promote : P.Failure → P.Error) (hp : p.Follows part) (text : String) :
    (run promote p text).Does (part.2 (Cursor.start text.toList))
      (Reading.run promote part.1 text) := by
  refine (does_start text).bind (fun c hc => ?_) nofun
  obtain rfl := Except.ok.inj hc
  rw [Reading.run_eq_finalize]
  refine (does_finalize promote hp _).map (fun o ho => ?_) fun stop hstop => by rw [hstop]
  rw [ho]
  refine (does_trace _).bind (fun _ _ => ?_) nofun
  cases o <;> exact does_pure _

/-- The run on a whole text answers what the reading says, in every session. -/
theorem run_result (promote : P.Failure → P.Error) (hp : p.Follows part) (text : String)
    (s : Session TextCursor) :
    (run promote p text).result s = Reading.run promote part.1 text :=
  (does_run promote hp text s).1

end Parser

/-! ## Requests -/

/-- What is asked of a parser: to parse from an input, or to parse all of a
text. -/
inductive Request : Type → Type 1
  | parse {ι : Type} (c : ι) : Request ι
  | run (text : String) : Request TextCursor

namespace Request

/-- Where the parser starts. -/
def input : Request ι → ι
  | parse c => c
  | run text => Cursor.start text.toList

def Reply (P : Payloads) (α : Type) : Request ι → Type
  | parse _ => Outcome P.Failure P.Error ι α
  | run _ => Except P.Error α

def perform (promote : P.Failure → P.Error) : (q : Request ι) → Parser ι P α → Run ι (q.Reply P α)
  | parse c, p => p c
  | run text, p => Parser.run promote p text

/-- What a reading answers to the request. -/
def answer (promote : P.Failure → P.Error) :
    (q : Request ι) → Reading ι P α → Except Stop (q.Reply P α)
  | parse c, p => p c
  | run text, p => Reading.run promote p text

theorem perform_does (promote : P.Failure → P.Error) {p : Parser ι P α} {part : Marked ι P α}
    (hp : p.Follows part) (q : Request ι) :
    (q.perform promote p).Does (part.2 q.input) (q.answer promote part.1) := by
  cases q with
  | parse c => exact hp c
  | run text => exact Parser.does_run promote hp text

variable [DecidableEq ι] {N : Payloads → Type → Type} (promote : P.Failure → P.Error)
  (rules : Rules ι N) (limits : Limits) (g : Grammar ι N P α) (q : Request ι) (s : Session ι)

theorem perform_result :
    (q.perform promote (g.parse rules limits)).result s =
      q.answer promote (g.answer rules limits) :=
  (q.perform_does promote (g.parse_follows rules limits) s).1

theorem perform_taps :
    ((q.perform promote (g.parse rules limits)).final s).taps =
      s.taps ++ (g.calls rules limits q.input).filterMap Event.record? := by
  have hdoes := q.perform_does promote (g.parse_follows rules limits)
  rw [hdoes.taps_eq, Grammar.imprint_shows]

end Request

/-! ## What a run returns -/

/-- One allowance is within another. -/
instance : LE Limits := ⟨fun a b => a.rounds ≤ b.rounds ∧ a.depth ≤ b.depth⟩

/-- The run returns `a` whenever its limits are large enough, in every session. -/
def Returns (r : Limits → Run ι α) (a : α) : Prop :=
  ∃ least, ∀ limits, least ≤ limits → ∀ s, (r limits).result s = .ok a

namespace Returns

variable {r : Limits → Run ι α} {a b : α}

/-- Limits that let the run return may be as large as one likes. -/
theorem within (h : Returns r a) (least : Limits) :
    ∃ limits, least ≤ limits ∧ ∀ s, (r limits).result s = .ok a := by
  obtain ⟨enough, henough⟩ := h
  refine ⟨⟨max least.rounds enough.rounds, max least.depth enough.depth⟩, ?_, henough _ ?_⟩
  · exact ⟨Nat.le_max_left _ _, Nat.le_max_left _ _⟩
  · exact ⟨Nat.le_max_right _ _, Nat.le_max_right _ _⟩

theorem unique (ha : Returns r a) (hb : Returns r b) : a = b := by
  obtain ⟨least, hleast⟩ := ha
  obtain ⟨limits, hlimits, hresult⟩ := hb.within least
  have h := hleast limits hlimits (Session.fresh false)
  rw [hresult] at h
  exact (Except.ok.inj h).symm

end Returns

end Triad
