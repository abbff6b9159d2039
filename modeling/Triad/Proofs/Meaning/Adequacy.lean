import Triad.Proofs.Meaning.Marks
import Triad.Proofs.Meaning.Observation

/-!
# Runs, readings and histories

The parser of a grammar does what the reading, the marks and the history of
the grammar say, whatever session it runs in:

* `Grammar.parse_result`: the run answers what the reading says.  Neither the
  label, nor the trace, nor what was built before has a part in it.
* `Grammar.parse_taps`: the taps record the calls of the history, in order
  and with nothing in between.
* `Grammar.parse_follows`: besides, the run builds each deferred parser at its
  first mark, unless it has been built before.

All follow from one induction on the grammar, `Grammar.denote_does`.  What a
session keeps is observed of a run (`Run.memory`), so the combinators need no
lemmas of their own.
-/

namespace Triad

variable {ι : Type} {α β : Type}

/-! ## What a session keeps -/

def Entry.isLine : Entry ι → Bool
  | .line _ => true
  | _ => false

/-- What a session keeps of its runs but for the trace: the deferred parsers
that have been built, and what taps and builds have recorded. -/
structure Memory (ι : Type) where
  built : List Path
  log : List (Entry ι)

/-- What is kept after a mark. -/
def Memory.mark (m : Memory ι) : Entry ι → Memory ι
  | .built cell note =>
    if cell ∈ m.built then m else ⟨cell :: m.built, m.log ++ [.built cell note]⟩
  | e => ⟨m.built, m.log ++ [e]⟩

theorem Memory.mark_old {m : Memory ι} {cell : Path} (h : cell ∈ m.built) (note : Option String) :
    m.mark (.built cell note) = m := if_pos h

theorem Memory.mark_new {m : Memory ι} {cell : Path} (h : cell ∉ m.built) (note : Option String) :
    m.mark (.built cell note) = ⟨cell :: m.built, m.log ++ [.built cell note]⟩ := if_neg h

def Session.memory (s : Session ι) : Memory ι := ⟨s.built, s.log.toList.filter fun e => !e.isLine⟩

theorem Session.memory_record (s : Session ι) (e : Entry ι) :
    (s.record e).memory = ⟨s.built, s.memory.log ++ if e.isLine then [] else [e]⟩ := by
  unfold memory record
  cases h : e.isLine <;> simp [h]

/-- What taps have recorded. -/
def Session.taps (s : Session ι) : List (Entry ι) := s.log.toList.filter Entry.isTap

theorem Session.taps_eq (s : Session ι) : s.taps = s.memory.log.filter Entry.isTap := by
  unfold taps memory
  rw [List.filter_filter]
  refine List.filter_congr fun e _ => ?_
  cases e <;> rfl

namespace Memory

theorem filter_log_mark (m : Memory ι) (e : Entry ι) :
    (m.mark e).log.filter Entry.isTap =
      m.log.filter Entry.isTap ++ [e].filter Entry.isTap := by
  rw [← List.filter_append]
  cases e with
  | built cell note =>
    by_cases hcell : cell ∈ m.built
    · have hbuilt : ¬(Entry.built cell note : Entry ι).isTap = true := by simp [Entry.isTap]
      rw [mark_old hcell, List.filter_append, List.filter_cons_of_neg hbuilt, List.filter_nil,
        List.append_nil]
    · rw [mark_new hcell]
  | line l => rfl
  | enter id c => rfl
  | leave id kind => rfl

/-- Builds do not come between what taps record. -/
theorem filter_log_foldl (m : Memory ι) (marks : List (Entry ι)) :
    (marks.foldl mark m).log.filter Entry.isTap =
      m.log.filter Entry.isTap ++ marks.filter Entry.isTap := by
  induction marks generalizing m with
  | nil => exact (List.append_nil _).symm
  | cons e marks ih =>
    rw [List.foldl_cons, ih, filter_log_mark, List.append_assoc, ← List.filter_append,
      List.singleton_append]

end Memory

/-! ## What a run does -/

namespace Run

/-- In every session, the run ends as `x`, and the session keeps the marks
`es` of it. -/
def Does (r : Run ι α) (es : List (Entry ι)) (x : Except Stop α) : Prop :=
  ∀ s, r.result s = x ∧ (r.final s).memory = es.foldl Memory.mark s.memory

variable {r : Run ι α} {f : α → Run ι β} {es es' : List (Entry ι)} {x : Except Stop α}
  {y : Except Stop β}

/-- The taps record their own marks. -/
theorem Does.taps_eq (hr : r.Does es x) (s : Session ι) :
    (r.final s).taps = s.taps ++ es.filter Entry.isTap := by
  rw [Session.taps_eq, (hr s).2, Memory.filter_log_foldl, ← Session.taps_eq]

theorem does_pure (a : α) : (pure a : Run ι α).Does [] (.ok a) := by
  intro s
  exact ⟨rfl, rfl⟩

theorem does_throw (stop : Stop) : (throw stop : Run ι α).Does [] (.error stop) := by
  intro s
  exact ⟨rfl, rfl⟩

/-- One run after another.  If the first one stops, the second one does nothing. -/
theorem Does.bind (hr : r.Does es x) (hok : ∀ a, x = .ok a → (f a).Does es' y)
    (hstop : ∀ stop, x = .error stop → es' = [] ∧ y = .error stop) :
    (r >>= f).Does (es ++ es') y := by
  intro s
  have hs := hr s
  simp only [result, final, Bind.bind, EStateM.bind] at hs ⊢
  cases hrun : r s with
  | ok a s' =>
    rw [hrun] at hs
    obtain ⟨hx, hmemory⟩ := hs
    have hf := hok a hx.symm s'
    simp only [result, final] at hf
    refine ⟨hf.1, ?_⟩
    rw [hf.2, hmemory, List.foldl_append]
  | error stop s' =>
    rw [hrun] at hs
    obtain ⟨hx, hmemory⟩ := hs
    obtain ⟨rfl, rfl⟩ := hstop stop hx.symm
    exact ⟨rfl, by rw [hmemory, List.append_nil]⟩

theorem does_trace (line : String → Line) : (trace line : Run ι Unit).Does [] (.ok ()) := by
  intro s
  cases htracing : s.tracing with
  | false => simp [result, final, trace, htracing]
  | true =>
    have hmemory : (s.record (.line (line s.label))).memory = s.memory := by
      rw [Session.memory_record]
      simp [Entry.isLine, Session.memory]
    simp [result, final, trace, htracing, hmemory]

/-- What a session keeps, as an observation.  Lines are not kept. -/
def memory : Observation ι (Entry ι) where
  Sees := Does
  lines := fun _ => []
  lines_nil := rfl
  done := does_pure
  stopped := does_throw
  next := Does.bind
  trace := fun remark => does_trace remark.line

theorem Does.of_memory {remarks : List Remark}
    (h : memory.Sees r (es ++ memory.lines remarks) x) : r.Does es x := by
  have hlines : memory.lines (ι := ι) remarks = [] := rfl
  rwa [hlines, List.append_nil] at h

/-- A run whose second half leaves no marks. -/
theorem Does.map (hr : r.Does es x) (hok : ∀ a, x = .ok a → (f a).Does [] y)
    (hstop : ∀ stop, x = .error stop → y = .error stop) : (r >>= f).Does es y :=
  memory.map hr hok hstop

theorem does_record {e : Entry ι} (he : e.isTap = true) : (record e).Does [e] (.ok ()) := by
  intro s
  refine ⟨rfl, ?_⟩
  show (s.record e).memory = s.memory.mark e
  rw [Session.memory_record]
  cases e with
  | line l => cases he
  | built cell note => cases he
  | enter id c => rfl
  | leave id kind => rfl

theorem does_build (cell : Path) (note : Option String) :
    (build cell note : Run ι Unit).Does [.built cell note] (.ok ()) := by
  intro s
  unfold result final build
  by_cases hcell : cell ∈ s.built
  · rw [if_pos hcell]
    exact ⟨rfl, (Memory.mark_old hcell note).symm⟩
  · have hlog : (s.record (.built cell note)).memory.log = s.memory.log ++ [.built cell note] := by
      rw [Session.memory_record]
      rfl
    rw [if_neg hcell, List.foldl_cons, Memory.mark_new hcell, ← hlog]
    exact ⟨rfl, rfl⟩

theorem Does.withLabel (name : String) (hr : r.Does es x) : (withLabel name r).Does es x := by
  intro s
  have hs := hr { s with label := name }
  simp only [result, final, Run.withLabel] at hs ⊢
  cases hrun : r { s with label := name } <;> rw [hrun] at hs <;> exact hs

end Run

namespace Parser

open Run

variable {P Q : Payloads} {N : Payloads → Type → Type} {ε : Type}

/-! ## Labels, deferred parsers and taps -/

variable {p : Parser ι P α} {q : Reading ι P α} {c : ι} {es : List (Entry ι)}

theorem does_label (name : String) (hp : (p c).Does es (q c)) :
    (label name p c).Does es (q c) :=
  Does.withLabel name (.of_memory (memory.sees_signed name hp))

theorem does_defer (cell : Path) (note : Option String) (hp : (p c).Does es (q c)) :
    (defer cell note p c).Does (.built cell note :: es) (q c) :=
  (does_build cell note).bind (fun _ _ => hp) nofun

theorem does_tap (id : String) {part : Marked ι P α} (hp : (p c).Does (part.2 c) (part.1 c)) :
    (tap id p c).Does (part.tap id c) (part.1 c) := by
  have henter : (record (.enter id c)).Does [.enter id c] (.ok ()) := does_record rfl
  refine henter.bind (fun _ _ => ?_) nofun
  refine hp.bind (fun o ho => ?_) fun stop hstop => by rw [hstop]; exact ⟨rfl, rfl⟩
  rw [ho]
  have hleave : (record (.leave id o.kind) : Run ι Unit).Does [.leave id o.kind] (.ok ()) :=
    does_record rfl
  exact hleave.map (fun _ _ => does_pure o) nofun

/-- The parser answers as the part reads and leaves the marks of the part. -/
def Follows (p : Parser ι P α) (part : Marked ι P α) : Prop :=
  ∀ c, (p c).Does (part.2 c) (part.1 c)

end Parser

/-! ## What the parser of a grammar does -/

variable {N : Payloads → Type → Type} {P : Payloads} [DecidableEq ι]

namespace Grammar

/-- If the parsers of the names do what the readings and the marks of the
names say, then so does the parser of a grammar. -/
theorem denote_does {rounds : Nat}
    {named : ∀ {P : Payloads} {α : Type}, N P α → Path → Parser ι P α}
    {reads : ∀ {P : Payloads} {α : Type}, N P α → Reading ι P α}
    {marked : ∀ {P : Payloads} {α : Type}, N P α → Path → ι → List (Entry ι)}
    (hnamed : ∀ {P : Payloads} {α : Type} (name : N P α) (path : Path),
      (named name path).Follows (reads name, marked name path))
    (g : Grammar ι N P α) (path : Path) (c : ι) :
    (g.denote rounds named path c).Does (g.marks rounds reads marked path c)
      (g.reading rounds reads c) := by
  have follows {P : Payloads} {α : Type} {p : Grammar ι N P α} {path : Path}
      (h : ∀ c, (p.denote rounds named path c).Does (p.marks rounds reads marked path c)
        (p.reading rounds reads c)) :
      Run.memory.Follows (p.denote rounds named path)
        (p.reading rounds reads, p.marks rounds reads marked path) := h
  induction g generalizing path c with
  | succeed value next | fail payload | error payload => exact Run.does_pure _
  | abort message => exact Run.does_throw _
  | primitive m => exact Run.memory.sees_primitive m c
  | attempt demote p ih =>
    exact .of_memory (Run.memory.sees_attempt demote (ih (path.child 0) c))
  | escalate promote p ih =>
    exact .of_memory (Run.memory.sees_escalate promote (ih (path.child 0) c))
  | bind f p ih => exact Run.memory.sees_bind f (ih (path.child 0) c)
  | mapPayload onFailure onError p ih =>
    exact Run.memory.sees_mapPayload onFailure onError (ih (path.child 0) c)
  | check f p ih => exact Run.memory.sees_check f (ih (path.child 0) c)
  | context name p ih => exact Run.memory.sees_mapPayload _ _ (ih (path.child 0) c)
  | label name p ih => exact Parser.does_label name (ih (path.child 0) c)
  | many min max p ih =>
    exact .of_memory ((follows (ih (path.child 0))).many rounds min max c)
  | pair p q ihp ihq =>
    exact .of_memory ((follows (ihp (path.child 0))).pair (follows (ihq (path.child 1))) c)
  | choice count ps ih =>
    have hps := forall₂_ofFn fun i => follows (ih i (path.child i))
    have h := Run.Does.of_memory (Observation.sees_choiceFrom hps c 0)
    rwa [List.map_ofFn] at h
  | sequence count ps ih =>
    have hps := forall₂_ofFn fun i => follows (ih i (path.child i))
    have h := Run.Does.of_memory (Observation.Follows.sequence hps c)
    rwa [List.map_ofFn] at h
  | defer note p ih => exact Parser.does_defer path note (ih (path.child 0) c)
  | rule name => exact hnamed name path c
  | tap id p ih =>
    have hp := follows (ih (path.child 0))
    exact Parser.does_tap id (hp c)

end Grammar

/-- The parser of a name does what its reading and its marks say. -/
theorem Rules.named_does (rules : Rules ι N) (rounds depth : Nat) (name : N P α) (path : Path) :
    (rules.named rounds depth name path).Follows
      (rules.reading rounds depth name, rules.marks rounds depth name path) := by
  induction depth generalizing P α path with
  | zero =>
    intro c
    exact Run.does_throw _
  | succ depth ih => exact Grammar.denote_does ih (rules name) (path.child 0)

namespace Grammar

/-- The reading of a whole grammar. -/
def answer (rules : Rules ι N) (limits : Limits) (g : Grammar ι N P α) : Reading ι P α :=
  g.reading limits.rounds (rules.reading limits.rounds limits.depth)

/-- The history of a whole grammar.  There are no callbacks around it. -/
def calls (rules : Rules ι N) (limits : Limits) (g : Grammar ι N P α) (c : ι) :
    List (Event ι N P.Error) :=
  g.history limits.rounds (rules.reading limits.rounds limits.depth)
    (rules.history limits.rounds limits.depth) id c

/-- The marks of a whole grammar. -/
def imprint (rules : Rules ι N) (limits : Limits) (g : Grammar ι N P α) (c : ι) :
    List (Entry ι) :=
  g.marks limits.rounds (rules.reading limits.rounds limits.depth)
    (rules.marks limits.rounds limits.depth) Path.root c

theorem parse_follows (rules : Rules ι N) (limits : Limits) (g : Grammar ι N P α) :
    (g.parse rules limits).Follows (g.answer rules limits, g.imprint rules limits) :=
  denote_does (rules.named_does limits.rounds limits.depth) g Path.root

/-- A run answers what the reading says, in every session. -/
theorem parse_result (rules : Rules ι N) (limits : Limits) (g : Grammar ι N P α) (c : ι)
    (s : Session ι) : (g.parse rules limits c).result s = g.answer rules limits c :=
  (parse_follows rules limits g c s).1

theorem imprint_shows (rules : Rules ι N) (limits : Limits) (g : Grammar ι N P α) (c : ι) :
    Shows (g.imprint rules limits c) (g.calls rules limits c) :=
  marks_shows (rules.marks_shows limits.rounds limits.depth) g id Path.root c

/-- The taps record the calls of the history, in their order. -/
theorem parse_taps (rules : Rules ι N) (limits : Limits) (g : Grammar ι N P α) (c : ι)
    (s : Session ι) :
    ((g.parse rules limits c).final s).taps =
      s.taps ++ (g.calls rules limits c).filterMap Event.record? := by
  rw [(parse_follows rules limits g c).taps_eq, imprint_shows]

end Grammar

end Triad
