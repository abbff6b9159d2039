import Triad.Proofs.Meaning.Leaves

/-!
# Transcripts

The transcript of a run lists its calls and the lines that it writes, in the
order in which they happen.  Unlike the history it depends on the label that
is in force around the run, since the lines carry labels.

A session shows no more of a transcript than taps and lines, and the lines only
if it is traced.  This much is in its log after the run
(`Grammar.parse_tells`), whichever way the run ends, and then the label of
before is in force again.
-/

namespace Triad

variable {ι : Type} {N : Payloads → Type → Type} {ε : Type} {P : Payloads} {α β : Type}

/-- A call is entered or left, or a line is written. -/
inductive Moment (ι : Type) (N : Payloads → Type → Type) (ε : Type) : Type 1 where
  | call (ev : Event ι N ε)
  | line (l : Line)

namespace Moment

def event? : Moment ι N ε → Option (Event ι N ε)
  | call ev => some ev
  | line _ => none

/-- What a session records of the moment. -/
def entry? (tracing : Bool) : Moment ι N ε → Option (Entry ι)
  | call ev => ev.record?
  | line l => if tracing then some (.line l) else none

end Moment

/-- The calls among the moments. -/
def events (t : List (Moment ι N ε)) : List (Event ι N ε) := t.filterMap Moment.event?

@[simp] theorem events_append (t t' : List (Moment ι N ε)) :
    events (t ++ t') = events t ++ events t' := List.filterMap_append

/-- Lines that are written while the label is in force. -/
def lined (label : String) (remarks : List Remark) : List (Moment ι N ε) :=
  remarks.map fun remark => .line (remark.line label)

@[simp] theorem events_lined (label : String) (remarks : List Remark) :
    events (lined label remarks : List (Moment ι N ε)) = [] := by
  induction remarks with
  | nil => rfl
  | cons remark remarks ih => exact ih

/-- A call with the moments inside it. -/
def Call.moments (k : Call ι N ε) (inner : List (Moment ι N ε))
    (x : Except Stop (Outcome k.payloads.Failure k.payloads.Error ι k.value)) :
    List (Moment ι N ε) :=
  .call (.enter k) :: inner ++
    match x with
    | .ok o => [.call (.leave k o)]
    | .error _ => []

theorem Call.events_moments (k : Call ι N ε) (inner : List (Moment ι N ε))
    (x : Except Stop (Outcome k.payloads.Failure k.payloads.Error ι k.value)) :
    events (k.moments inner x) = k.around (events inner) x := by
  have henter : events (.call (.enter k) :: inner) = .enter k :: events inner := rfl
  unfold Call.moments Call.around
  rw [events_append, henter]
  cases x <;> rfl

/-! ## The transcript of a grammar -/

/-- The label in force inside the grammar. -/
def Grammar.under (outer : String) : {P : Payloads} → {α : Type} → Grammar ι N P α → String
  | _, _, .label name _ => name
  | _, _, _ => outer

variable [DecidableEq ι]

/-- The lines that the grammar writes itself.  They come after those of its parts. -/
def Grammar.remarks (rounds : Nat) (reads : ∀ {P : Payloads} {α : Type}, N P α → Reading ι P α) :
    {P : Payloads} → {α : Type} → Grammar ι N P α → ι → List Remark
  | _, _, .primitive m, c => m.remarks c
  | _, _, .attempt _ p, c => (p.reading rounds reads).attemptRemarks c
  | _, _, .escalate _ p, c => (p.reading rounds reads).escalateRemarks c
  | _, _, .label name p, c => (p.reading rounds reads).labelRemarks name c
  | _, _, .many min max p, c => (p.reading rounds reads).manyRemarks rounds min max c
  | _, _, .pair p q, c => (p.reading rounds reads).pairRemarks (q.reading rounds reads) c
  | _, _, .choice _ ps, c =>
    Reading.choiceRemarks 0 (List.ofFn fun i => (ps i).reading rounds reads) c
  | _, _, .sequence _ ps, c =>
    Reading.sequenceRemarks 0 (List.ofFn fun i => (ps i).reading rounds reads) c
  | _, _, _, _ => []

/-- The transcript of a grammar at an input where `outer` is the label in force, given
the readings and the transcripts of its names. -/
def Grammar.transcript (rounds : Nat)
    (reads : ∀ {P : Payloads} {α : Type}, N P α → Reading ι P α)
    (told : ∀ {P : Payloads} {α : Type},
      N P α → (P.Error → ε) → String → ι → List (Moment ι N ε)) :
    {P : Payloads} → {α : Type} → Grammar ι N P α → (P.Error → ε) → String → ι →
      List (Moment ι N ε)
  | P, α, g, raise, outer, c =>
    Call.moments ⟨g, c, raise⟩
      ((match P, α, g, raise with
        | _, _, .succeed _ _, _ => []
        | _, _, .fail _, _ => []
        | _, _, .error _, _ => []
        | _, _, .abort _, _ => []
        | _, _, .primitive _, _ => []
        | _, _, .attempt _ p, raise => p.transcript rounds reads told raise outer c
        | _, _, .escalate _ p, raise => p.transcript rounds reads told raise outer c
        | _, _, .bind _ p, raise => p.transcript rounds reads told raise outer c
        | _, _, .mapPayload _ onError p, raise =>
          p.transcript rounds reads told (fun e => raise (onError e)) outer c
        | _, _, .check _ p, raise => p.transcript rounds reads told raise outer c
        | _, _, .context name p, raise =>
          p.transcript rounds reads told (fun e => raise (ParseError.context name e)) outer c
        | _, _, .label name p, raise => p.transcript rounds reads told raise name c
        | _, _, .many _ max p, raise =>
          History.collect max
            (p.reading rounds reads, p.transcript rounds reads told raise outer) rounds 0 c
        | _, _, .pair p q, raise =>
          History.pair (p.reading rounds reads, p.transcript rounds reads told raise outer)
            (q.reading rounds reads, q.transcript rounds reads told raise outer) c
        | _, _, .choice _ ps, raise =>
          History.choice (List.ofFn fun i =>
            ((ps i).reading rounds reads, (ps i).transcript rounds reads told raise outer)) c
        | _, _, .sequence _ ps, raise =>
          History.sequence (List.ofFn fun i =>
            ((ps i).reading rounds reads, (ps i).transcript rounds reads told raise outer)) c
        | _, _, .defer _ p, raise => p.transcript rounds reads told raise outer c
        | _, _, .rule name, raise => told name raise outer c
        | _, _, .tap _ p, raise => p.transcript rounds reads told raise outer c) ++
        lined (g.under outer) (g.remarks rounds reads c))
      (g.reading rounds reads c)

/-- The transcript of a name, unfolding names `depth` deep. -/
def Rules.transcript (rules : Rules ι N) (rounds : Nat) :
    Nat → {P : Payloads} → {α : Type} → N P α → (P.Error → ε) → String → ι →
      List (Moment ι N ε)
  | 0, _, _, _, _, _, _ => []
  | depth + 1, _, _, name, raise, outer, c =>
    (rules name).transcript rounds (rules.reading rounds depth) (rules.transcript rounds depth)
      raise outer c

/-! ## The calls of a transcript -/

/-- The moments have these events. -/
def Calls (t : List (Moment ι N ε)) (evs : List (Event ι N ε)) : Prop := events t = evs

omit [DecidableEq ι] in
theorem Calls.nil : Calls ([] : List (Moment ι N ε)) [] := rfl

omit [DecidableEq ι] in
theorem Calls.append {t t' : List (Moment ι N ε)} {evs evs' : List (Event ι N ε)}
    (h : Calls t evs) (h' : Calls t' evs') : Calls (t ++ t') (evs ++ evs') := by
  unfold Calls at h h' ⊢
  rw [events_append, h, h']

/-- The calls of a transcript are those of the history. -/
theorem Grammar.transcript_calls {rounds : Nat}
    {reads : ∀ {P : Payloads} {α : Type}, N P α → Reading ι P α}
    {told : ∀ {P : Payloads} {α : Type}, N P α → (P.Error → ε) → String → ι → List (Moment ι N ε)}
    {called : ∀ {P : Payloads} {α : Type}, N P α → (P.Error → ε) → ι → List (Event ι N ε)}
    (hnamed : ∀ {P : Payloads} {α : Type} (name : N P α) (raise : P.Error → ε) (outer : String)
      (c : ι), Calls (told name raise outer c) (called name raise c))
    (g : Grammar ι N P α) (raise : P.Error → ε) (outer : String) (c : ι) :
    Calls (g.transcript rounds reads told raise outer c)
      (g.history rounds reads called raise c) := by
  have call {P : Payloads} {α : Type} (g : Grammar ι N P α) (raise : P.Error → ε)
      (outer : String) (c : ι) {inner : List (Moment ι N ε)} {evs : List (Event ι N ε)}
      (h : Calls inner evs) :
      Calls (Call.moments ⟨g, c, raise⟩
          (inner ++ lined (g.under outer) (g.remarks rounds reads c)) (g.reading rounds reads c))
        (Call.around ⟨g, c, raise⟩ evs (g.reading rounds reads c)) := by
    unfold Calls at h ⊢
    rw [Call.events_moments, events_append, events_lined, List.append_nil, h]
  have hpart {P : Payloads} {α : Type} {p : Grammar ι N P α} {raise : P.Error → ε}
      {outer : String}
      (h : ∀ c, Calls (p.transcript rounds reads told raise outer c)
        (p.history rounds reads called raise c)) :
      History.Abreast Calls (p.reading rounds reads, p.transcript rounds reads told raise outer)
        (p.reading rounds reads, p.history rounds reads called raise) := ⟨.refl _, h⟩
  induction g generalizing outer c with
  | succeed value next => exact call (.succeed value next) raise outer c .nil
  | fail payload => exact call (.fail payload) raise outer c .nil
  | error payload => exact call (.error payload) raise outer c .nil
  | abort message => exact call (.abort message) raise outer c .nil
  | primitive m => exact call (.primitive m) raise outer c .nil
  | attempt demote p ih => exact call (.attempt demote p) raise outer c (ih raise outer c)
  | escalate promote p ih => exact call (.escalate promote p) raise outer c (ih raise outer c)
  | bind f p ih => exact call (.bind f p) raise outer c (ih raise outer c)
  | mapPayload onFailure onError p ih =>
    exact call (.mapPayload onFailure onError p) raise outer c (ih _ outer c)
  | check f p ih => exact call (.check f p) raise outer c (ih raise outer c)
  | context name p ih => exact call (.context name p) raise outer c (ih _ outer c)
  | label name p ih => exact call (.label name p) raise outer c (ih raise name c)
  | many min max p ih =>
    have hcalls := (hpart (ih raise outer)).collect .nil .append max rounds 0 c
    exact call (.many min max p) raise outer c hcalls
  | pair p q ihp ihq =>
    have hcalls := (hpart (ihp raise outer)).pair .nil .append (hpart (ihq raise outer)) c
    exact call (.pair p q) raise outer c hcalls
  | choice count ps ih =>
    have hcalls := History.Abreast.choice .nil .append
      (forall₂_ofFn fun i => hpart (ih i raise outer)) c
    exact call (.choice count ps) raise outer c hcalls
  | sequence count ps ih =>
    have hcalls := History.Abreast.sequence .nil .append
      (forall₂_ofFn fun i => hpart (ih i raise outer)) c
    exact call (.sequence count ps) raise outer c hcalls
  | defer note p ih => exact call (.defer note p) raise outer c (ih raise outer c)
  | rule name => exact call (.rule name) raise outer c (hnamed name raise outer c)
  | tap id p ih => exact call (.tap id p) raise outer c (ih raise outer c)

theorem Rules.transcript_calls (rules : Rules ι N) (rounds depth : Nat) (name : N P α)
    (raise : P.Error → ε) (outer : String) (c : ι) :
    Calls (rules.transcript rounds depth name raise outer c)
      (rules.history rounds depth name raise c) := by
  induction depth generalizing P α outer c with
  | zero => rfl
  | succ depth ih => exact Grammar.transcript_calls ih (rules name) raise outer c

/-! ## Grammars that stop -/

namespace Reading

omit [DecidableEq ι]

variable {ps : List (Reading ι P α)} {c : ι} {stop : Stop}

theorem choiceRemarks_of_stop (h : choice ps c = .error stop) (i : Nat) :
    choiceRemarks i ps c = [] := by
  induction ps generalizing i with
  | nil => cases h
  | cons p ps ih =>
    rw [choice] at h
    rw [choiceRemarks]
    cases hp : p c with
    | error stop' => rfl
    | ok o =>
      rw [hp] at h
      cases o with
      | failure f => exact ih h (i + 1)
      | success a rest => cases h
      | error e => cases h

theorem sequenceRemarks_of_stop (h : sequence ps c = .error stop) (count : Nat) :
    sequenceRemarks count ps c = [] := by
  induction ps generalizing c count with
  | nil => cases h
  | cons p ps ih =>
    rw [sequenceRemarks]
    rcases pair_eq_stop_iff.1 (map_eq_stop_iff.1 h) with hp | ⟨a, rest, hp, hrest⟩
    · rw [hp]
    · rw [hp]
      exact ih hrest (count + 1)

end Reading

/-- A grammar that stops writes nothing itself. -/
theorem Grammar.remarks_of_stop {rounds : Nat}
    {reads : ∀ {P : Payloads} {α : Type}, N P α → Reading ι P α} {g : Grammar ι N P α} {c : ι}
    {stop : Stop} (h : g.reading rounds reads c = .error stop) :
    g.remarks rounds reads c = [] := by
  cases g with
  | primitive m =>
    change Reading.primitive m c = .error stop at h
    unfold Reading.primitive at h
    cases hm : m.match? c <;> simp [hm] at h
  | attempt demote p => simp [remarks, Reading.attemptRemarks, Reading.attempt_eq_stop_iff.1 h]
  | escalate promote p => simp [remarks, Reading.escalateRemarks, Reading.escalate_eq_stop_iff.1 h]
  | label name p =>
    have hp : p.reading rounds reads c = .error stop := h
    simp [remarks, Reading.labelRemarks, hp]
  | many min max p =>
    change Reading.many rounds min max (p.reading rounds reads) c = .error stop at h
    simp [remarks, Reading.manyRemarks, h]
  | pair p q =>
    rcases Reading.pair_eq_stop_iff.1 h with hp | ⟨a, rest, hp, hq⟩
    · simp [remarks, Reading.pairRemarks, hp]
    · simp [remarks, Reading.pairRemarks, hp, hq]
  | choice count ps => exact Reading.choiceRemarks_of_stop h 0
  | sequence count ps => exact Reading.sequenceRemarks_of_stop h 0
  | succeed | fail | error | abort | bind | mapPayload | check | context | defer | rule | tap => rfl

/-! ## Invariants of transcripts -/

/-- `A` holds of what a grammar leaves where it answers, and `B` in any case.
Both may be statements about the label in force around it.  It is enough that a
call keeps them, given that they hold of what its parts leave. -/
theorem Grammar.transcript_leaves {rounds : Nat}
    {reads : ∀ {P : Payloads} {α : Type}, N P α → Reading ι P α}
    {told : ∀ {P : Payloads} {α : Type}, N P α → (P.Error → ε) → String → ι → List (Moment ι N ε)}
    {A B : String → List (Moment ι N ε) → Prop}
    (hclosed : ∀ outer, History.Closed (A outer) (B outer))
    (hcall : ∀ {P : Payloads} {α : Type} (g : Grammar ι N P α) (raise : P.Error → ε)
      (outer : String) {inner : ι → List (Moment ι N ε)},
      (∀ c, g.transcript rounds reads told raise outer c = Call.moments ⟨g, c, raise⟩
        (inner c ++ lined (g.under outer) (g.remarks rounds reads c)) (g.reading rounds reads c)) →
      History.Leaves (A (g.under outer)) (B (g.under outer)) (g.reading rounds reads, inner) →
      History.Leaves (A outer) (B outer)
        (g.reading rounds reads, g.transcript rounds reads told raise outer))
    (hnamed : ∀ {P : Payloads} {α : Type} (name : N P α) (raise : P.Error → ε) (outer : String),
      History.Leaves (A outer) (B outer) (reads name, told name raise outer))
    (g : Grammar ι N P α) (raise : P.Error → ε) (outer : String) :
    History.Leaves (A outer) (B outer)
      (g.reading rounds reads, g.transcript rounds reads told raise outer) := by
  have hsilent {P : Payloads} {α : Type} (x : Reading ι P α) (outer : String) :
      History.Leaves (A outer) (B outer) (x, fun _ => []) := .silent (hclosed outer) x
  induction g generalizing outer with
  | succeed value next => exact hcall (.succeed value next) raise outer (fun _ => rfl) (hsilent _ _)
  | fail payload => exact hcall (.fail payload) raise outer (fun _ => rfl) (hsilent _ _)
  | error payload => exact hcall (.error payload) raise outer (fun _ => rfl) (hsilent _ _)
  | abort message => exact hcall (.abort message) raise outer (fun _ => rfl) (hsilent _ _)
  | primitive m => exact hcall (.primitive m) raise outer (fun _ => rfl) (hsilent _ _)
  | attempt demote p ih =>
    exact hcall (.attempt demote p) raise outer (fun _ => rfl)
      ((ih raise outer).through Reading.attempt_eq_stop_iff.2)
  | escalate promote p ih =>
    exact hcall (.escalate promote p) raise outer (fun _ => rfl)
      ((ih raise outer).through Reading.escalate_eq_stop_iff.2)
  | bind f p ih =>
    exact hcall (.bind f p) raise outer (fun _ => rfl)
      ((ih raise outer).through fun h => Reading.bind_eq_stop_iff.2 (.inl h))
  | mapPayload onFailure onError p ih =>
    exact hcall (.mapPayload onFailure onError p) raise outer (fun _ => rfl)
      ((ih _ outer).through Reading.mapPayload_eq_stop_iff.2)
  | check f p ih =>
    exact hcall (.check f p) raise outer (fun _ => rfl)
      ((ih raise outer).through Reading.check_eq_stop_iff.2)
  | context name p ih =>
    exact hcall (.context name p) raise outer (fun _ => rfl)
      ((ih _ outer).through Reading.mapPayload_eq_stop_iff.2)
  | label name p ih => exact hcall (.label name p) raise outer (fun _ => rfl) (ih raise name)
  | many min max p ih =>
    have hp := (ih raise outer).many (hclosed outer) rounds min max
    exact hcall (.many min max p) raise outer (fun _ => rfl) hp
  | pair p q ihp ihq =>
    have hpq := (ihp raise outer).pair (hclosed outer) (ihq raise outer)
    exact hcall (.pair p q) raise outer (fun _ => rfl) hpq
  | choice count ps ih =>
    have hps := History.Leaves.choice (hclosed outer)
      (List.forall_mem_ofFn_iff.2 fun i => ih i raise outer)
    rw [List.map_ofFn] at hps
    exact hcall (.choice count ps) raise outer (fun _ => rfl) hps
  | sequence count ps ih =>
    have hps := History.Leaves.sequence (hclosed outer)
      (List.forall_mem_ofFn_iff.2 fun i => ih i raise outer)
    rw [List.map_ofFn] at hps
    exact hcall (.sequence count ps) raise outer (fun _ => rfl) hps
  | defer note p ih => exact hcall (.defer note p) raise outer (fun _ => rfl) (ih raise outer)
  | rule name => exact hcall (.rule name) raise outer (fun _ => rfl) (hnamed name raise outer)
  | tap id p ih => exact hcall (.tap id p) raise outer (fun _ => rfl) (ih raise outer)

/-! ## What a session records -/

def Entry.isBuilt : Entry ι → Bool
  | .built _ _ => true
  | _ => false

/-- The lines and what taps have recorded, in their order. -/
def Session.told (s : Session ι) : List (Entry ι) := s.log.toList.filter fun e => !e.isBuilt

omit [DecidableEq ι] in
theorem Session.told_record (s : Session ι) (e : Entry ι) :
    (s.record e).told = s.told ++ if e.isBuilt then [] else [e] := by
  unfold told record
  cases h : e.isBuilt <;> simp [h]

namespace Run

/-- In every session with this label in force, traced or not, the run ends as
`x` and the session records the moments.  The label is in force again. -/
def Tells (outer : String) (r : Run ι α) (t : List (Moment ι N ε)) (x : Except Stop α) : Prop :=
  ∀ s, s.label = outer → r.result s = x ∧ (r.final s).label = outer ∧
    (r.final s).tracing = s.tracing ∧
    (r.final s).told = s.told ++ t.filterMap (Moment.entry? s.tracing)

section

omit [DecidableEq ι]

variable {outer : String} {r : Run ι α} {f : α → Run ι β} {t t' : List (Moment ι N ε)}
  {x : Except Stop α} {y : Except Stop β}

theorem tells_pure (a : α) : Tells outer (pure a : Run ι α) ([] : List (Moment ι N ε)) (.ok a) :=
  fun _ hs => ⟨rfl, hs, rfl, (List.append_nil _).symm⟩

theorem tells_throw (stop : Stop) :
    Tells outer (throw stop : Run ι α) ([] : List (Moment ι N ε)) (.error stop) :=
  fun _ hs => ⟨rfl, hs, rfl, (List.append_nil _).symm⟩

theorem Tells.bind (hr : Tells outer r t x) (hok : ∀ a, x = .ok a → Tells outer (f a) t' y)
    (hstop : ∀ stop, x = .error stop → t' = [] ∧ y = .error stop) :
    Tells outer (r >>= f) (t ++ t') y := by
  intro s hs
  have hfirst := hr s hs
  simp only [result, final, Bind.bind, EStateM.bind] at hfirst ⊢
  cases hrun : r s with
  | ok a s' =>
    rw [hrun] at hfirst
    obtain ⟨hx, hlabel, htracing, htold⟩ := hfirst
    have hsecond := hok a hx.symm s' hlabel
    simp only [result, final] at hsecond
    rw [htracing, htold, List.append_assoc, ← List.filterMap_append] at hsecond
    exact hsecond
  | error stop s' =>
    rw [hrun] at hfirst
    obtain ⟨hx, hlabel, htracing, htold⟩ := hfirst
    obtain ⟨rfl, rfl⟩ := hstop stop hx.symm
    rw [List.append_nil]
    exact ⟨rfl, hlabel, htracing, htold⟩

theorem tells_trace (remark : Remark) :
    Tells outer (trace remark.line : Run ι Unit) (lined outer [remark] : List (Moment ι N ε))
      (.ok ()) := by
  rintro s rfl
  cases htracing : s.tracing with
  | false => simp [result, final, trace, htracing, lined, Moment.entry?]
  | true =>
    let l := remark.line s.label
    have htold : (s.record (.line l)).told = s.told ++ [.line l] := s.told_record _
    have hkept : (s.record (.line l)).label = s.label ∧ (s.record (.line l)).tracing = s.tracing :=
      ⟨rfl, rfl⟩
    simp [result, final, trace, htracing, lined, Moment.entry?, htold, hkept, l]

/-- The transcript of a run where this label is in force, as an observation. -/
def transcription (outer : String) : Observation ι (Moment ι N ε) where
  Sees := Tells outer
  lines := lined outer
  lines_nil := rfl
  done := tells_pure
  stopped := tells_throw
  next := Tells.bind
  trace := tells_trace

/-- A run to which no lines are added. -/
theorem Tells.quiet (h : Tells outer r t x) : Tells outer r (t ++ []) x := by
  rwa [List.append_nil]

theorem Tells.withLabel (name : String) (hr : Tells name r t x) :
    Tells outer (withLabel name r) t x := by
  rintro s rfl
  have hinner := hr { s with label := name } rfl
  simp only [result, final, Run.withLabel] at hinner ⊢
  cases hrun : r { s with label := name } <;> rw [hrun] at hinner <;>
    exact ⟨hinner.1, rfl, hinner.2.2⟩

theorem tells_record {ev : Event ι N ε} {e : Entry ι} (hev : ev.record? = some e)
    (he : e.isBuilt = false) : Tells outer (record e) [.call ev] (.ok ()) := by
  rintro s rfl
  refine ⟨rfl, rfl, rfl, ?_⟩
  show (s.record e).told = _
  simp [Session.told_record, Moment.entry?, hev, he]

theorem tells_build (cell : Path) (note : Option String) :
    Tells outer (build cell note : Run ι Unit) ([] : List (Moment ι N ε)) (.ok ()) := by
  rintro s rfl
  unfold result final build
  by_cases hcell : cell ∈ s.built
  · rw [if_pos hcell]
    exact ⟨rfl, rfl, rfl, (List.append_nil _).symm⟩
  · rw [if_neg hcell]
    exact ⟨rfl, rfl, rfl, s.told_record _⟩

/-- A call that no tap records shows as what is inside it. -/
theorem Tells.call {k : Call ι N ε} (henter : (Event.enter k).record? = none)
    (hleave : ∀ o, (Event.leave k o).record? = none)
    {r : Run ι (Outcome k.payloads.Failure k.payloads.Error ι k.value)}
    {y x : Except Stop (Outcome k.payloads.Failure k.payloads.Error ι k.value)}
    (h : Tells outer r t y) : Tells outer r (k.moments t x) y := by
  have hshown : ∀ tracing : Bool, (k.moments t x).filterMap (Moment.entry? tracing) =
      t.filterMap (Moment.entry? tracing) := by
    intro tracing
    cases x <;> simp [Call.moments, Moment.entry?, henter, hleave]
  intro s hs
  rw [hshown]
  exact h s hs

/-- A call of a tap is recorded. -/
theorem Tells.tap {P : Payloads} {β : Type} (id : String) (part : Grammar ι N P β)
    (raise : P.Error → ε) {p : Parser ι P β} {c : ι}
    {x : Except Stop (Outcome P.Failure P.Error ι β)} (hp : Tells outer (p c) t x) :
    Tells outer (Parser.tap id p c) (Call.moments ⟨.tap id part, c, raise⟩ t x) x := by
  have henter : Tells outer (record (.enter id c))
      [.call (.enter (⟨.tap id part, c, raise⟩ : Call ι N ε))] (.ok ()) := tells_record rfl rfl
  unfold Call.moments
  rw [List.cons_append, ← List.singleton_append]
  refine henter.bind (fun _ _ => hp.bind (fun o ho => ?_) fun stop hstop => ?_) nofun
  · rw [ho]
    have hleave : Tells outer (record (.leave id o.kind))
        [.call (.leave (⟨.tap id part, c, raise⟩ : Call ι N ε) o)] (.ok ()) := tells_record rfl rfl
    exact (transcription outer).map hleave (fun _ _ => tells_pure o) nofun
  · rw [hstop]
    exact ⟨rfl, rfl⟩

end

end Run

/-! ## What the parser of a grammar tells -/

/-- If the parsers of the names tell what the transcripts of the names say,
then so does the parser of a grammar. -/
theorem Grammar.denote_tells {rounds : Nat}
    {named : ∀ {P : Payloads} {α : Type}, N P α → Path → Parser ι P α}
    {reads : ∀ {P : Payloads} {α : Type}, N P α → Reading ι P α}
    {told : ∀ {P : Payloads} {α : Type}, N P α → (P.Error → ε) → String → ι → List (Moment ι N ε)}
    (hnamed : ∀ {P : Payloads} {α : Type} (name : N P α) (path : Path) (raise : P.Error → ε)
      (outer : String) (c : ι),
      (named name path c).Tells outer (told name raise outer c) (reads name c))
    (g : Grammar ι N P α) (path : Path) (raise : P.Error → ε) (outer : String) (c : ι) :
    (g.denote rounds named path c).Tells outer (g.transcript rounds reads told raise outer c)
      (g.reading rounds reads c) := by
  -- the moments inside are left to show, since most nodes are not recorded
  have call {P : Payloads} {α : Type} (g : Grammar ι N P α) (path : Path) (raise : P.Error → ε)
      (outer : String) (c : ι) {inner : List (Moment ι N ε)}
      (h : (g.denote rounds named path c).Tells outer
        (inner ++ lined (g.under outer) (g.remarks rounds reads c)) (g.reading rounds reads c))
      (henter : (Event.enter (⟨g, c, raise⟩ : Call ι N ε)).record? = none)
      (hleave : ∀ o, (Event.leave (⟨g, c, raise⟩ : Call ι N ε) o).record? = none) :
      (g.denote rounds named path c).Tells outer
        (Call.moments ⟨g, c, raise⟩
          (inner ++ lined (g.under outer) (g.remarks rounds reads c)) (g.reading rounds reads c))
        (g.reading rounds reads c) := .call henter hleave h
  have follows {P : Payloads} {α : Type} {p : Grammar ι N P α} {path : Path} {raise : P.Error → ε}
      {outer : String}
      (h : ∀ c, (p.denote rounds named path c).Tells outer
        (p.transcript rounds reads told raise outer c) (p.reading rounds reads c)) :
      (Run.transcription outer).Follows (p.denote rounds named path)
        (p.reading rounds reads, p.transcript rounds reads told raise outer) := h
  induction g generalizing path outer c with
  | succeed value next =>
    exact call (.succeed value next) path raise outer c (Run.tells_pure _) rfl fun _ => rfl
  | fail payload =>
    exact call (.fail payload) path raise outer c (Run.tells_pure _) rfl fun _ => rfl
  | error payload =>
    exact call (.error payload) path raise outer c (Run.tells_pure _) rfl fun _ => rfl
  | abort message =>
    exact call (.abort message) path raise outer c (Run.tells_throw _) rfl fun _ => rfl
  | primitive m =>
    exact call (.primitive m) path raise outer c ((Run.transcription outer).sees_primitive m c) rfl
      fun _ => rfl
  | attempt demote p ih =>
    have hp := (Run.transcription outer).sees_attempt demote (ih (path.child 0) raise outer c)
    exact call (.attempt demote p) path raise outer c hp rfl fun _ => rfl
  | escalate promote p ih =>
    have hp := (Run.transcription outer).sees_escalate promote (ih (path.child 0) raise outer c)
    exact call (.escalate promote p) path raise outer c hp rfl fun _ => rfl
  | bind f p ih =>
    have hp := (Run.transcription outer).sees_bind f (ih (path.child 0) raise outer c)
    exact call (.bind f p) path raise outer c (.quiet hp) rfl fun _ => rfl
  | mapPayload onFailure onError p ih =>
    have hp := (Run.transcription outer).sees_mapPayload onFailure onError
      (ih (path.child 0) (fun e => raise (onError e)) outer c)
    exact call (.mapPayload onFailure onError p) path raise outer c (.quiet hp) rfl fun _ => rfl
  | check f p ih =>
    have hp := (Run.transcription outer).sees_check f (ih (path.child 0) raise outer c)
    exact call (.check f p) path raise outer c (.quiet hp) rfl fun _ => rfl
  | context name p ih =>
    have hp := (Run.transcription outer).sees_mapPayload (Q := ParseError.payloads)
      (ParseError.context name) (ParseError.context name)
      (ih (path.child 0) (fun e => raise (.context name e)) outer c)
    exact call (.context name p) path raise outer c (.quiet hp) rfl fun _ => rfl
  | label name p ih =>
    have hp := (Run.transcription name).sees_signed name (ih (path.child 0) raise name c)
    exact call (.label name p) path raise outer c (.withLabel name hp) rfl fun _ => rfl
  | many min max p ih =>
    have hp := (follows (ih (path.child 0) raise outer)).many rounds min max c
    exact call (.many min max p) path raise outer c hp rfl fun _ => rfl
  | pair p q ihp ihq =>
    have hpq := (follows (ihp (path.child 0) raise outer)).pair
      (follows (ihq (path.child 1) raise outer)) c
    exact call (.pair p q) path raise outer c hpq rfl fun _ => rfl
  | choice count ps ih =>
    have hps := Observation.sees_choiceFrom
      (forall₂_ofFn fun i => follows (ih i (path.child i) raise outer)) c 0
    rw [List.map_ofFn] at hps
    exact call (.choice count ps) path raise outer c hps rfl fun _ => rfl
  | sequence count ps ih =>
    have hps := Observation.Follows.sequence
      (forall₂_ofFn fun i => follows (ih i (path.child i) raise outer)) c
    rw [List.map_ofFn] at hps
    exact call (.sequence count ps) path raise outer c hps rfl fun _ => rfl
  | defer note p ih =>
    have hp := (Run.transcription outer).next (Run.tells_build path note)
      (fun _ _ => ih (path.child 0) raise outer c) nofun
    exact call (.defer note p) path raise outer c (.quiet hp) rfl fun _ => rfl
  | rule name =>
    have hname := hnamed name path raise outer c
    exact call (.rule name) path raise outer c (.quiet hname) rfl fun _ => rfl
  | tap id p ih =>
    exact .tap id p raise (.quiet (ih (path.child 0) raise outer c))

theorem Rules.named_tells (rules : Rules ι N) (rounds depth : Nat) (name : N P α) (path : Path)
    (raise : P.Error → ε) (outer : String) (c : ι) :
    (rules.named rounds depth name path c).Tells outer
      (rules.transcript rounds depth name raise outer c) (rules.reading rounds depth name c) := by
  induction depth generalizing P α path outer c with
  | zero => exact Run.tells_throw _
  | succ depth ih => exact Grammar.denote_tells ih (rules name) (path.child 0) raise outer c

namespace Grammar

/-- The transcript of a whole grammar. -/
def story (rules : Rules ι N) (limits : Limits) (g : Grammar ι N P α) (raise : P.Error → ε)
    (outer : String) (c : ι) : List (Moment ι N ε) :=
  g.transcript limits.rounds (rules.reading limits.rounds limits.depth)
    (rules.transcript limits.rounds limits.depth) raise outer c

theorem parse_tells (rules : Rules ι N) (limits : Limits) (g : Grammar ι N P α)
    (raise : P.Error → ε) (outer : String) (c : ι) :
    (g.parse rules limits c).Tells outer (g.story rules limits raise outer c)
      (g.answer rules limits c) :=
  denote_tells (rules.named_tells limits.rounds limits.depth) g Path.root raise outer c

theorem events_story (rules : Rules ι N) (limits : Limits) (g : Grammar ι N P α) (outer : String)
    (c : ι) : events (g.story rules limits id outer c) = g.calls rules limits c :=
  transcript_calls (rules.transcript_calls limits.rounds limits.depth) g id outer c

end Grammar

end Triad
