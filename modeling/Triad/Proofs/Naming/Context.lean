import Triad.Grammar.Text
import Triad.Proofs.Meaning.Related
import Triad.Proofs.Naming.Without

/-!
# Contexts only wrap

A context puts its name on a payload that passes through it.  Nothing in a
contextual grammar looks at a payload, so a context does nothing else: without
the contexts, the grammar answers the same but for the wrapping
(`contexts_only_wrap`).

Which names a payload gets depends on where it comes from, since a combinator
may replace the payload of a part by one of its own, and a choice drops those
of the alternatives that fail.  What is left are always names of contexts
inside one another, on one way down from the whole grammar
(`Grammar.Nests`).
-/

namespace Triad

variable {ι : Type} {N : Payloads → Type → Type} {α β : Type}

/-! ## Wrapped payloads -/

namespace ParseError

/-- The payload inside these labels, the first one outermost. -/
def under (labels : List String) (e : ParseError) : ParseError := labels.foldr context e

theorem root_under (labels : List String) (e : ParseError) : (e.under labels).root = e.root := by
  induction labels with
  | nil => rfl
  | cons _ _ ih => exact ih

end ParseError

/-! ## Contextual grammars -/

/-- No callback changes a payload. -/
inductive Grammar.Contextual {ι : Type} {N : Payloads → Type → Type} :
    {α : Type} → Grammar ι N ParseError.payloads α → Prop
  | succeed {α : Type} (value : α) (next : ι → ι) : Contextual (.succeed value next)
  | fail {α : Type} (payload : ParseError) : Contextual (.fail (α := α) payload)
  | error {α : Type} (payload : ParseError) : Contextual (.error (α := α) payload)
  | abort {α : Type} (message : String) : Contextual (.abort (α := α) message)
  | primitive {α : Type} (m : Matcher ι α) : Contextual (.primitive m)
  | attempt {α : Type} {p : Grammar ι N ParseError.payloads α} :
    p.Contextual → Contextual (.attempt (fun e => e) p)
  | escalate {α : Type} {p : Grammar ι N ParseError.payloads α} :
    p.Contextual → Contextual (.escalate (fun f => f) p)
  | bind {α β : Type} {p : Grammar ι N ParseError.payloads α} (f : α → Except String β) :
    p.Contextual → Contextual (.bind f p)
  | check {α β : Type} {p : Grammar ι N ParseError.payloads α} (f : α → Except ParseError β) :
    p.Contextual → Contextual (.check f p)
  | context {α : Type} {p : Grammar ι N ParseError.payloads α} (name : String) :
    p.Contextual → Contextual (.context name p)
  | label {α : Type} {p : Grammar ι N ParseError.payloads α} (name : String) :
    p.Contextual → Contextual (.label name p)
  | many {α : Type} {p : Grammar ι N ParseError.payloads α} (min max : Nat) :
    p.Contextual → Contextual (.many min max p)
  | pair {α β : Type} {p : Grammar ι N ParseError.payloads α}
    {q : Grammar ι N ParseError.payloads β} :
    p.Contextual → q.Contextual → Contextual (.pair p q)
  | choice {α : Type} {count : Nat} {ps : Fin count → Grammar ι N ParseError.payloads α} :
    (∀ i, (ps i).Contextual) → Contextual (.choice count ps)
  | sequence {α : Type} {count : Nat} {ps : Fin count → Grammar ι N ParseError.payloads α} :
    (∀ i, (ps i).Contextual) → Contextual (.sequence count ps)
  | defer {α : Type} {p : Grammar ι N ParseError.payloads α} (note : Option String) :
    p.Contextual → Contextual (.defer note p)
  | rule {α : Type} (name : N ParseError.payloads α) : Contextual (.rule name)
  | tap {α : Type} {p : Grammar ι N ParseError.payloads α} (id : String) :
    p.Contextual → Contextual (.tap id p)

def Rules.Contextual (rules : Rules ι N) : Prop :=
  ∀ {α : Type} (name : N ParseError.payloads α), (rules name).Contextual

theorem Rules.contextual_none : Rules.Contextual (Rules.none (ι := ι)) := fun name => nomatch name

namespace Grammar

theorem Contextual.firstOf {ps : List (Grammar ι N ParseError.payloads α)}
    (hps : ∀ p ∈ ps, p.Contextual) : (firstOf ps).Contextual :=
  .choice fun i => hps _ (ps.get_mem i)

theorem Contextual.lexeme {p : Grammar TextCursor N ParseError.payloads α} (hp : p.Contextual) :
    (lexeme p).Contextual := .bind _ (.pair hp (.bind _ (.many _ _ (.primitive _))))

theorem contextual_integer :
    (integer : Grammar TextCursor N ParseError.payloads Int).Contextual := by
  refine .label _ (.check _ (.firstOf fun p hp => ?_))
  rcases List.mem_pair.1 hp with rfl | rfl
  · exact .bind _ (.pair (.primitive _) (.many _ _ (.primitive _)))
  · exact .bind _ (.many _ _ (.primitive _))

/-! ## Names that contexts give -/

/-- The names are those of contexts of the grammar that stand inside one
another, the first one outermost. -/
inductive Nests (rules : Rules ι N) :
    {α : Type} → Grammar ι N ParseError.payloads α → List String → Prop
  | here {α : Type} (g : Grammar ι N ParseError.payloads α) : Nests rules g []
  | context {α : Type} {p : Grammar ι N ParseError.payloads α} {names : List String}
    (name : String) : Nests rules p names → Nests rules (.context name p) (name :: names)
  | attempt {α : Type} {p : Grammar ι N ParseError.payloads α} {names : List String}
    (demote : ParseError → ParseError) :
    Nests rules p names → Nests rules (.attempt demote p) names
  | escalate {α : Type} {p : Grammar ι N ParseError.payloads α} {names : List String}
    (promote : ParseError → ParseError) :
    Nests rules p names → Nests rules (.escalate promote p) names
  | bind {α β : Type} {p : Grammar ι N ParseError.payloads α} {names : List String}
    (f : α → Except String β) : Nests rules p names → Nests rules (.bind f p) names
  | check {α β : Type} {p : Grammar ι N ParseError.payloads α} {names : List String}
    (f : α → Except ParseError β) : Nests rules p names → Nests rules (.check f p) names
  | label {α : Type} {p : Grammar ι N ParseError.payloads α} {names : List String}
    (name : String) : Nests rules p names → Nests rules (.label name p) names
  | many {α : Type} {p : Grammar ι N ParseError.payloads α} {names : List String}
    (min max : Nat) : Nests rules p names → Nests rules (.many min max p) names
  | first {α β : Type} {p : Grammar ι N ParseError.payloads α}
    {q : Grammar ι N ParseError.payloads β} {names : List String} :
    Nests rules p names → Nests rules (.pair p q) names
  | second {α β : Type} {p : Grammar ι N ParseError.payloads α}
    {q : Grammar ι N ParseError.payloads β} {names : List String} :
    Nests rules q names → Nests rules (.pair p q) names
  | choice {α : Type} {count : Nat} {ps : Fin count → Grammar ι N ParseError.payloads α}
    {names : List String} (i : Fin count) :
    Nests rules (ps i) names → Nests rules (.choice count ps) names
  | sequence {α : Type} {count : Nat} {ps : Fin count → Grammar ι N ParseError.payloads α}
    {names : List String} (i : Fin count) :
    Nests rules (ps i) names → Nests rules (.sequence count ps) names
  | defer {α : Type} {p : Grammar ι N ParseError.payloads α} {names : List String}
    (note : Option String) : Nests rules p names → Nests rules (.defer note p) names
  | rule {α : Type} {name : N ParseError.payloads α} {names : List String} :
    Nests rules (rules name) names → Nests rules (.rule name) names
  | tap {α : Type} {p : Grammar ι N ParseError.payloads α} {names : List String}
    (id : String) : Nests rules p names → Nests rules (.tap id p) names

/-- Contexts of the grammar that stand inside one another make the first
payload of the second one. -/
def Wraps (rules : Rules ι N) (g : Grammar ι N ParseError.payloads α) (e e' : ParseError) : Prop :=
  ∃ names, g.Nests rules names ∧ e = e'.under names

variable {rules : Rules ι N} {g : Grammar ι N ParseError.payloads α}
  {p : Grammar ι N ParseError.payloads β} {e e' : ParseError}

theorem Wraps.refl (g : Grammar ι N ParseError.payloads α) (e : ParseError) : g.Wraps rules e e :=
  ⟨[], .here g, rfl⟩

theorem Wraps.root_eq (h : g.Wraps rules e e') : e.root = e'.root := by
  obtain ⟨names, -, rfl⟩ := h
  exact ParseError.root_under names e'

theorem Wraps.context {p : Grammar ι N ParseError.payloads α} (name : String)
    (h : p.Wraps rules e e') : (Grammar.context name p).Wraps rules (.context name e) e' := by
  obtain ⟨names, hnames, rfl⟩ := h
  exact ⟨name :: names, hnames.context name, rfl⟩

/-- The readings answer the same but for the names that contexts of the
grammar give to payloads. -/
abbrev Named {γ : Type} (rules : Rules ι N) (g : Grammar ι N ParseError.payloads α)
    (x x' : Reading ι ParseError.payloads γ) : Prop :=
  Reading.Related (g.Wraps rules) (g.Wraps rules) x x'

/-- What contexts of a part do, contexts of the grammar do. -/
theorem Named.inside {γ : Type} {x x' : Reading ι ParseError.payloads γ} (h : Named rules p x x')
    (hpart : ∀ {names}, p.Nests rules names → g.Nests rules names) : Named rules g x x' := by
  have hwraps : ∀ e e', p.Wraps rules e e' → g.Wraps rules e e' :=
    fun _ _ ⟨names, hnames, he⟩ => ⟨names, hpart hnames, he⟩
  exact h.mono hwraps hwraps

variable [DecidableEq ι]

/-- The step of the induction over names: without its contexts a contextual
grammar answers the same but for the wrapping, if the names do. -/
theorem Contextual.named {rounds : Nat}
    {reads reads' : ∀ {P : Payloads} {α : Type}, N P α → Reading ι P α}
    (hnamed : ∀ {α : Type} (name : N ParseError.payloads α),
      Named rules (.rule name) (reads name) (reads' name))
    {g : Grammar ι N ParseError.payloads α} (hg : g.Contextual) :
    Named rules g (g.reading rounds reads) ((g.without .context).reading rounds reads') := by
  induction hg with
  | succeed value next => exact fun c => .success value (next c)
  | fail payload => exact fun c => .failure (.refl _ payload)
  | error payload => exact fun c => .error (.refl _ payload)
  | abort message => exact fun c => .stop _
  | primitive m => exact Reading.related_primitive (.refl _ _) m
  | attempt _ ih => exact (ih.inside (.attempt _)).attempt fun _ _ h => h
  | escalate _ ih => exact (ih.inside (.escalate _)).escalate fun _ _ h => h
  | bind f _ ih => exact (ih.inside (.bind f)).bind f
  | check f _ ih =>
    refine (ih.inside (.check f)).check (fun _ _ => Iff.rfl) fun a e e' he he' => ?_
    obtain rfl := Except.error.inj (he.symm.trans he')
    exact .refl _ e
  | context name _ ih => exact ih.unmapped (fun _ _ h => h.context name) fun _ _ h => h.context name
  | label name _ ih => exact ih.inside (.label name)
  | many min max _ ih =>
    exact (ih.inside (.many min max)).many (.refl _ _) (.refl _ _) rounds min max
  | pair _ _ ihp ihq => exact .pair (.refl _ _) (ihp.inside .first) (ihq.inside .second)
  | choice _ ih =>
    exact .choice (.refl _ _) (forall₂_ofFn fun i => (ih i).inside (.choice i))
  | sequence _ ih =>
    exact .sequence (.refl _ _) (forall₂_ofFn fun i => (ih i).inside (.sequence i))
  | defer note _ ih => exact ih.inside (.defer note)
  | rule name => exact hnamed name
  | tap id _ ih => exact ih.inside (.tap id)

end Grammar

theorem Rules.Contextual.named [DecidableEq ι] {rules : Rules ι N} (hrules : rules.Contextual)
    (rounds depth : Nat) (name : N ParseError.payloads α) :
    Grammar.Named rules (.rule name) (rules.reading rounds depth name)
      (Rules.reading (rules.without .context) rounds depth name) := by
  induction depth generalizing α with
  | zero => exact fun c => .stop _
  | succ depth ih => exact ((hrules name).named ih).inside .rule

/-- Contexts only wrap.  In any two sessions, a contextual grammar and what is
left of it without its contexts stop for the same reason, succeed with the same
value and rest, or end alike with a payload of which the first one is the
second one inside names of nested contexts, so that the cause is the same.
They ask the same primitives about the same inputs, and the taps around them
record the same. -/
theorem contexts_only_wrap [DecidableEq ι] {rules : Rules ι N} (hrules : rules.Contextual)
    {g : Grammar ι N ParseError.payloads α} (hg : g.Contextual) (limits : Limits) (c : ι)
    (s s' : Session ι) :
    let bare := g.without .context
    let bareRules : Rules ι N := rules.without .context
    let wrapped := fun e e' : ParseError =>
      (∃ names, g.Nests rules names ∧ e = e'.under names) ∧ e.root = e'.root
    Related wrapped wrapped ((g.parse rules limits c).result s)
        ((bare.parse bareRules limits c).result s') ∧
      (g.calls rules limits c).filterMap Event.asked? =
        (bare.calls bareRules limits c).filterMap Event.asked? ∧
      ∀ id, ∃ es,
        (((g.watched id).parse (rules.watched id) limits c).final s).taps = s.taps ++ es ∧
        (((bare.watched id).parse (bareRules.watched id) limits c).final s').taps =
          s'.taps ++ es := by
  intro bare bareRules wrapped
  have hnamed : Grammar.Named rules g (g.answer rules limits) (bare.answer bareRules limits) :=
    hg.named (hrules.named limits.rounds limits.depth)
  refine ⟨?_, (g.calls_without .context rules limits c).asked, fun id => ?_⟩
  · rw [Grammar.parse_result, Grammar.parse_result]
    have hwrapped : ∀ e e', g.Wraps rules e e' → wrapped e e' := fun e e' h => ⟨h, h.root_eq⟩
    exact (hnamed c).mono hwrapped hwrapped
  · obtain ⟨es, htaps⟩ := g.watched_taps_without .context rules limits c id
    exact ⟨es, (htaps s).1, (htaps s').2⟩

/-- A key and a value, both numbers. -/
def entry : Grammar TextCursor NoNames ParseError.payloads (Int × Int) :=
  .context "entry"
    (.pair (.context "key" (Grammar.lexeme Grammar.integer))
      (.context "value" (Grammar.lexeme Grammar.integer)))

/-- The payload of a missing key gets both names. -/
theorem contexts_only_wrap_of_missing_key :
    let bare := (entry.without .context).parse (Rules.without .context Rules.none) ⟨9, 0⟩
    (entry.parse Rules.none ⟨9, 0⟩ (Cursor.start ['='])).result (Session.fresh false) =
        .ok (.failure (.context "entry" (.context "key" .noMatch))) ∧
      (∃ (f : ParseError) (names : List String),
        (bare (Cursor.start ['='])).result (Session.fresh true) = .ok (.failure f) ∧
        entry.Nests Rules.none names ∧
        ParseError.context "entry" (.context "key" .noMatch) = f.under names ∧
        f.root = .noMatch) ∧
      (entry.calls Rules.none ⟨9, 0⟩ (Cursor.start ['='])).filterMap Event.asked? =
        ((entry.without .context).calls (Rules.without .context Rules.none) ⟨9, 0⟩
          (Cursor.start ['='])).filterMap Event.asked? := by
  have hnumber : Grammar.Contextual (N := NoNames) (.lexeme .integer) :=
    Grammar.contextual_integer.lexeme
  have hentry : entry.Contextual := .context _ (.pair (.context _ hnumber) (.context _ hnumber))
  intro bare
  have hresult : (entry.parse Rules.none ⟨9, 0⟩ (Cursor.start ['='])).result
      (Session.fresh false) = .ok (.failure (.context "entry" (.context "key" .noMatch))) := by
    rw [Grammar.parse_result]
    rfl
  obtain ⟨hrelated, hasked, -⟩ := contexts_only_wrap Rules.contextual_none hentry ⟨9, 0⟩
    (Cursor.start ['=']) (Session.fresh false) (Session.fresh true)
  refine ⟨hresult, ?_, hasked⟩
  rw [hresult] at hrelated
  generalize hbare : (bare (Cursor.start ['='])).result (Session.fresh true) = x at hrelated
  cases hrelated with
  | failure h =>
    obtain ⟨⟨names, hnames, hwrapped⟩, hroot⟩ := h
    exact ⟨_, names, rfl, hnames, hwrapped, hroot.symm⟩

end Triad
