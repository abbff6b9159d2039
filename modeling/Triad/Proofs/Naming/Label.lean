import Triad.Proofs.Meaning.OpenCalls
import Triad.Proofs.Naming.Transcript
import Triad.Proofs.Naming.Without

/-!
# Labels are scoped

A label is in force from when it is entered until it is left, or until the run
stops, except inside further labels.  So each line of a transcript carries the
name of the innermost label that is open when it is written
(`Grammar.story_scoped`).  Wherever a label is entered, the whole of its
transcript comes next (`Grammar.story_unbroken`): that of its part under its
name and, after the part has answered, one line of its own
(`Grammar.story_label`).

Labels do nothing else.  Without them a grammar has the same reading
(`Grammar.reading_without_labels`) and asks the same primitives.
-/

namespace Triad

variable {ι : Type} {N : Payloads → Type → Type} {ε : Type} {P : Payloads} {α : Type}

/-! ## The label in force -/

/-- The label in force inside calls that are open, the innermost first. -/
def inForce (outer : String) : List (Call ι N ε) → String
  | [] => outer
  | k :: stack => k.part.under (inForce outer stack)

/-- Each line carries the label that is in force where it is written, if
`stack` was open before the moments. -/
def Scoped (outer : String) (stack : List (Call ι N ε)) (t : List (Moment ι N ε)) : Prop :=
  ∀ before l after, t = before ++ .line l :: after →
    l.label = inForce outer (opened stack (events before))

namespace Scoped

variable {outer : String} {stack : List (Call ι N ε)} {t t' : List (Moment ι N ε)}

theorem nil : Scoped outer stack [] := by
  intro before l after h
  simp at h

theorem append (h : Scoped outer stack t) (h' : Scoped outer (opened stack (events t)) t') :
    Scoped outer stack (t ++ t') := by
  intro before l after ht
  rcases History.split_append ht with ⟨rest, hleft, -⟩ | ⟨front, rfl, hright⟩
  · exact h before l rest hleft
  · rw [events_append, opened_append]
    exact h' front l after hright

theorem event (ev : Event ι N ε) : Scoped outer stack [.call ev] := by
  intro before l after h
  simp [List.cons_eq_append_iff] at h

theorem line {l : Line} (h : l.label = inForce outer stack) : Scoped outer stack [.line l] := by
  intro before l' after heq
  obtain ⟨rfl, hl⟩ | ⟨front, -, hfront⟩ := List.cons_eq_append_iff.1 heq
  · obtain rfl : l' = l := Moment.line.inj (List.cons.inj hl).1
    exact h
  · simp at hfront

theorem lined (remarks : List Remark) :
    Scoped outer stack (lined (inForce outer stack) remarks) := by
  induction remarks with
  | nil => exact nil
  | cons remark remarks ih => exact (line rfl).append ih

/-- The lines of a call carry the label in force inside it. -/
theorem call {k : Call ι N ε} {inner : List (Moment ι N ε)}
    {x : Except Stop (Outcome k.payloads.Failure k.payloads.Error ι k.value)}
    (h : Scoped outer (k :: stack) inner) : Scoped outer stack (k.moments inner x) := by
  have hinside : Scoped outer stack ([.call (.enter k)] ++ inner) := (event _).append h
  refine hinside.append ?_
  cases x with
  | ok o => exact event _
  | error stop => exact nil

end Scoped

/-- The moments are scoped wherever this label is in force. -/
def ScopedIn (outer : String) (t : List (Moment ι N ε)) : Prop :=
  ∀ around stack, inForce around stack = outer → Scoped around stack t

/-- Moments after which the same calls are open as before may be followed by others. -/
theorem ScopedIn.append {outer : String} {t t' : List (Moment ι N ε)}
    (hbalanced : Balanced (events t)) (ht : ScopedIn outer t) (ht' : ScopedIn outer t') :
    ScopedIn outer (t ++ t') := by
  intro around stack h
  refine (ht around stack h).append ?_
  rw [hbalanced]
  exact ht' around stack h

/-- The moments are scoped, and all calls that are entered are left again. -/
structure Enclosed (outer : String) (t : List (Moment ι N ε)) : Prop where
  balanced : Balanced (events t)
  lines : ScopedIn outer t

theorem Enclosed.closed (outer : String) :
    History.Closed (E := Moment ι N ε) (Enclosed outer) (ScopedIn outer) where
  nil := ⟨.nil, fun _ _ _ => .nil⟩
  append := by
    intro t t' h h'
    refine ⟨?_, .append h.balanced h.lines h'.lines⟩
    rw [events_append]
    exact h.balanced.append h'.balanced
  weaken h := h.lines
  last h h' := .append h.balanced h.lines h'

variable [DecidableEq ι]

theorem Grammar.transcript_scoped {rounds : Nat}
    {reads : ∀ {P : Payloads} {α : Type}, N P α → Reading ι P α}
    {told : ∀ {P : Payloads} {α : Type}, N P α → (P.Error → ε) → String → ι → List (Moment ι N ε)}
    (hnamed : ∀ {P : Payloads} {α : Type} (name : N P α) (raise : P.Error → ε) (outer : String),
      History.Leaves (Enclosed outer) (ScopedIn outer) (reads name, told name raise outer))
    (g : Grammar ι N P α) (raise : P.Error → ε) (outer : String) :
    History.Leaves (Enclosed outer) (ScopedIn outer)
      (g.reading rounds reads, g.transcript rounds reads told raise outer) := by
  refine transcript_leaves Enclosed.closed (fun g raise outer inner hcall hinner => ?_) hnamed g
    raise outer
  have hscoped : ∀ c, ScopedIn outer (g.transcript rounds reads told raise outer c) := by
    intro c around stack houter
    have hunder : inForce around ((⟨g, c, raise⟩ : Call ι N ε) :: stack) = g.under outer := by
      rw [inForce, houter]
    rw [hcall]
    refine Scoped.call ((hinner.always c around _ hunder).append ?_)
    -- the lines come after the parts have answered, when none of their calls is open any more
    cases hx : g.reading rounds reads c with
    | error stop =>
      rw [remarks_of_stop hx]
      exact .nil
    | ok o =>
      rw [(hinner.answers hx).balanced, ← hunder]
      exact .lined _
  refine ⟨fun {c o} ho => ⟨?_, hscoped c⟩, hscoped⟩
  have hbalanced := (hinner.answers ho).balanced
  dsimp only at ho ⊢
  rw [hcall, Call.events_moments, events_append, events_lined, List.append_nil, ho]
  exact Balanced.around (k := ⟨g, c, raise⟩) hbalanced o

theorem Rules.transcript_scoped (rules : Rules ι N) (rounds depth : Nat) (name : N P α)
    (raise : P.Error → ε) (outer : String) :
    History.Leaves (Enclosed outer) (ScopedIn outer)
      (rules.reading rounds depth name, rules.transcript rounds depth name raise outer) := by
  induction depth generalizing P α outer with
  | zero => exact .silent (Enclosed.closed outer) _
  | succ depth ih => exact Grammar.transcript_scoped ih (rules name) raise outer

theorem Grammar.story_scoped (rules : Rules ι N) (limits : Limits) (g : Grammar ι N P α)
    (raise : P.Error → ε) (outer : String) (c : ι) :
    Scoped outer [] (g.story rules limits raise outer c) :=
  (transcript_scoped (rules.transcript_scoped limits.rounds limits.depth) g raise outer).always c
    outer [] rfl

/-! ## Calls in full -/

/-- Wherever a call is entered, the whole transcript of it comes next.  Names
are unfolded no deeper in it than `depth`. -/
def Unbroken (rules : Rules ι N) (rounds depth : Nat) (t : List (Moment ι N ε)) : Prop :=
  ∀ before k after, t = before ++ .call (.enter k) :: after →
    ∃ depth' ≤ depth, ∃ outer,
      k.part.story rules ⟨rounds, depth'⟩ k.raise outer k.input <+: .call (.enter k) :: after

namespace Unbroken

variable {rules : Rules ι N} {rounds depth : Nat} {t t' : List (Moment ι N ε)}

theorem nil : Unbroken rules rounds depth ([] : List (Moment ι N ε)) := by
  intro before k after h
  simp at h

theorem append (h : Unbroken rules rounds depth t) (h' : Unbroken rules rounds depth t') :
    Unbroken rules rounds depth (t ++ t') := by
  intro before k after ht
  rcases History.split_append ht with ⟨rest, hleft, rfl⟩ | ⟨front, -, hright⟩
  · obtain ⟨depth', hdepth, outer, hprefix⟩ := h before k rest hleft
    exact ⟨depth', hdepth, outer, hprefix.trans (List.prefix_append _ _)⟩
  · exact h' front k after hright

theorem closed :
    History.Closed (E := Moment ι N ε) (Unbroken rules rounds depth)
      (Unbroken rules rounds depth) :=
  .uniform nil append

theorem lined (outer : String) (remarks : List Remark) :
    Unbroken rules rounds depth (lined outer remarks : List (Moment ι N ε)) := by
  intro before k after h
  have hline : Moment.call (.enter k) ∈ (Triad.lined outer remarks : List (Moment ι N ε)) := by
    rw [h]
    simp
  simp [Triad.lined] at hline

theorem mono {depth' : Nat} (hdepth : depth ≤ depth') (h : Unbroken rules rounds depth t) :
    Unbroken rules rounds depth' t := by
  intro before k after ht
  obtain ⟨d, hd, outer, hprefix⟩ := h before k after ht
  exact ⟨d, hd.trans hdepth, outer, hprefix⟩

/-- A call of which this is the transcript. -/
theorem call {k : Call ι N ε} {outer : String} {inner : List (Moment ι N ε)}
    {x : Except Stop (Outcome k.payloads.Failure k.payloads.Error ι k.value)}
    (hk : k.part.story rules ⟨rounds, depth⟩ k.raise outer k.input = k.moments inner x)
    (hinner : Unbroken rules rounds depth inner) :
    Unbroken rules rounds depth (k.moments inner x) := by
  intro before k' after ht
  cases before with
  | nil =>
    obtain rfl : k = k' := Event.enter.inj (Moment.call.inj (List.cons.inj ht).1)
    refine ⟨depth, le_rfl, outer, ?_⟩
    rw [hk, ht]
    exact List.prefix_rfl
  | cons m before =>
    have htail := (List.cons.inj ht).2
    have hleave : ∀ o, Unbroken rules rounds depth [Moment.call (.leave k o)] := by
      intro o before k' after h
      simp [List.cons_eq_append_iff] at h
    cases x with
    | ok o => exact hinner.append (hleave o) before k' after htail
    | error stop => exact hinner.append .nil before k' after htail

end Unbroken

theorem Grammar.transcript_unbroken {rules : Rules ι N} {rounds depth : Nat}
    (hnamed : ∀ {P : Payloads} {α : Type} (name : N P α) (raise : P.Error → ε) (outer : String),
      History.Leaves (Unbroken rules rounds depth) (Unbroken rules rounds depth)
        (rules.reading rounds depth name, rules.transcript rounds depth name raise outer))
    (g : Grammar ι N P α) (raise : P.Error → ε) (outer : String) :
    History.Leaves (Unbroken rules rounds depth) (Unbroken rules rounds depth)
      (g.reading rounds (rules.reading rounds depth),
        g.story rules ⟨rounds, depth⟩ raise outer) := by
  refine transcript_leaves (A := fun _ => Unbroken rules rounds depth) (fun _ => Unbroken.closed)
    (fun g raise outer inner hcall hinner => ?_) hnamed g raise outer
  have hwhole : ∀ c, Unbroken rules rounds depth
      (g.transcript rounds (rules.reading rounds depth) (rules.transcript rounds depth) raise outer
        c) := by
    intro c
    rw [hcall]
    exact Unbroken.call (k := ⟨g, c, raise⟩) (hcall c) ((hinner.always c).append (.lined _ _))
  exact ⟨fun {c o} _ => hwhole c, hwhole⟩

theorem Rules.transcript_unbroken (rules : Rules ι N) (rounds depth : Nat) (name : N P α)
    (raise : P.Error → ε) (outer : String) :
    History.Leaves (Unbroken rules rounds depth) (Unbroken rules rounds depth)
      (rules.reading rounds depth name, rules.transcript rounds depth name raise outer) := by
  induction depth generalizing P α outer with
  | zero => exact .silent Unbroken.closed _
  | succ depth ih =>
    have h := Grammar.transcript_unbroken ih (rules name) raise outer
    exact ⟨fun {c o} ho => (h.answers ho).mono (Nat.le_succ depth),
      fun c => (h.always c).mono (Nat.le_succ depth)⟩

theorem Grammar.story_unbroken (rules : Rules ι N) (limits : Limits) (g : Grammar ι N P α)
    (raise : P.Error → ε) (outer : String) (c : ι) :
    Unbroken rules limits.rounds limits.depth (g.story rules limits raise outer c) :=
  (transcript_unbroken (rules.transcript_unbroken limits.rounds limits.depth) g raise outer).always
    c

/-- A label goes on with the transcript of its part under its name.  If the
part answers, there comes one line of its own, and the label is left. -/
theorem Grammar.story_label (rules : Rules ι N) (limits : Limits) (name : String)
    (p : Grammar ι N P α) (raise : P.Error → ε) (outer : String) (c : ι) :
    (label name p).story rules limits raise outer c =
      .call (.enter ⟨.label name p, c, raise⟩) :: (p.story rules limits raise name c ++
        match p.answer rules limits c with
        | .ok o =>
          [.line ⟨"", name, "label(" ++ Text.quoteString name ++ ")", [o.kind]⟩,
            .call (.leave ⟨.label name p, c, raise⟩ o)]
        | .error _ => []) := by
  have hstory : (label name p).story rules limits raise outer c =
      Call.moments ⟨label name p, c, raise⟩ (p.story rules limits raise name c ++
        lined name ((p.answer rules limits).labelRemarks name c)) (p.answer rules limits c) := rfl
  rw [hstory]
  unfold Call.moments Reading.labelRemarks
  cases p.answer rules limits c with
  | error stop => simp [lined]
  | ok o => simp [lined, Remark.line, Remark.of]

/-! ## Labels taken out -/

/-- Labels have no part in what a grammar answers. -/
theorem Grammar.reading_without_labels {rounds : Nat}
    {reads reads' : ∀ {P : Payloads} {α : Type}, N P α → Reading ι P α}
    (hnamed : ∀ {P : Payloads} {α : Type} (name : N P α), reads' name = reads name)
    (g : Grammar ι N P α) :
    (g.without .label).reading rounds reads' = g.reading rounds reads := by
  induction g with
  | succeed | fail | error | abort | primitive => rfl
  | attempt _ _ ih | escalate _ _ ih | bind _ _ ih | mapPayload _ _ _ ih | check _ _ ih =>
    simp only [without, reading, ih]
  | context name p ih | label name p ih | many _ _ p ih | defer _ p ih | tap _ p ih =>
    simp [without, reading, ih]
  | pair p q ihp ihq => simp only [without, reading, ihp, ihq]
  | choice count ps ih | sequence count ps ih => simp only [without, reading, ih]
  | rule name => exact hnamed name

theorem Rules.reading_without_labels (rules : Rules ι N) (rounds depth : Nat) (name : N P α) :
    Rules.reading (rules.without .label) rounds depth name = rules.reading rounds depth name := by
  induction depth generalizing P α with
  | zero => rfl
  | succ depth ih => exact Grammar.reading_without_labels ih (rules name)

/-- Labels are scoped and do nothing.  However a run ends, the label of before
is in force again, and the session has recorded the lines and taps of the
transcript.  Each line carries the name of the innermost label that is open
when it is written.  A label that is entered goes on with the transcript of its
part under its name; if the part answers, there comes one line of its own, and
the label is left.  Whatever the label, and traced or not, the run answers the
same, also without labels, and asks the same primitives about the same
inputs. -/
theorem labels_are_scoped (rules : Rules ι N) (limits : Limits) (g : Grammar ι N P α) (c : ι)
    (s : Session ι) :
    let run := g.parse rules limits c
    let bare := g.without .label
    let bareRules : Rules ι N := rules.without .label
    let t := g.story rules limits id s.label c
    (run.final s).label = s.label ∧
      (run.final s).told = s.told ++ t.filterMap (Moment.entry? s.tracing) ∧
      events t = g.calls rules limits c ∧
      (∀ before l after, t = before ++ .line l :: after →
        l.label = inForce s.label (opened [] (events before))) ∧
      (∀ {P' : Payloads} {β : Type} before name (p : Grammar ι N P' β) d raise after,
        t = before ++ .call (.enter ⟨.label name p, d, raise⟩) :: after →
          ∃ depth ≤ limits.depth,
            p.story rules ⟨limits.rounds, depth⟩ raise name d ++
              (match p.answer rules ⟨limits.rounds, depth⟩ d with
              | .ok o =>
                [.line ⟨"", name, "label(" ++ Text.quoteString name ++ ")", [o.kind]⟩,
                  .call (.leave ⟨.label name p, d, raise⟩ o)]
              | .error _ => []) <+: after) ∧
      (∀ s' : Session ι, run.result s' = run.result s ∧
        (bare.parse bareRules limits c).result s' = run.result s) ∧
      (g.calls rules limits c).filterMap Event.asked? =
        (bare.calls bareRules limits c).filterMap Event.asked? ∧
      ∀ id, ∃ es, ∀ s' : Session ι,
        (((g.watched id).parse (rules.watched id) limits c).final s').taps = s'.taps ++ es ∧
        (((bare.watched id).parse (bareRules.watched id) limits c).final s').taps =
          s'.taps ++ es := by
  intro run bare bareRules t
  obtain ⟨-, hlabel, -, htold⟩ := g.parse_tells rules limits id s.label c s rfl
  refine ⟨hlabel, htold, g.events_story rules limits s.label c, ?_, ?_, fun s' => ?_,
    (g.calls_without .label rules limits c).asked, g.watched_taps_without .label rules limits c⟩
  · exact g.story_scoped rules limits id s.label c
  · intro P' β before name p d raise after ht
    obtain ⟨depth, hdepth, outer, hprefix⟩ :=
      g.story_unbroken rules limits id s.label c before _ after ht
    rw [Grammar.story_label, List.cons_prefix_cons] at hprefix
    exact ⟨depth, hdepth, hprefix.2⟩
  · have hbare : bare.answer bareRules limits = g.answer rules limits :=
      g.reading_without_labels (rules.reading_without_labels limits.rounds limits.depth)
    simp only [run, Grammar.parse_result, hbare, and_self]

/-- A run that stops inside a label leaves no line of that label, and the label
of the caller is in force again. -/
example :
    let g : Grammar Nat NoNames ParseError.payloads (Unit × Unit) :=
      .label "outer" (.pair (.label "inner" (.succeed () id)) (.abort "boom"))
    let s := (g.parse Rules.none ⟨0, 0⟩ 0).final { Session.fresh true with label := "caller" }
    (s.lines.map Line.label, s.label) = (["inner"], "caller") := rfl

end Triad
