import Triad.Grammar.Text
import Triad.Proofs.Meaning.Watched
import Triad.Proofs.Meaning.Whole

/-!
# Twins

Two grammars are twins if they differ in their payloads only: in the types of
their failures and errors, in the payloads that combinators invent, in
constants, and in what callbacks and conversions make of a payload.  Their
shape, their values and their primitives are the same.

Payloads do not steer a parse.  Twins have level readings
(`Grammar.Twins.reading`), and the calls in their runs are twins one by one
(`Grammar.Twins.history`), so they ask the same primitives about the same
inputs.  `Grammar.Twins.unsteered` says so of every request.
-/

namespace Triad

variable {ι : Type} {N N' : Payloads → Type → Type} {ε ε' : Type} {P P' Q Q' : Payloads}
  {α β : Type}

/-- The grammars differ in their payloads only.  `R` relates their names. -/
inductive Grammar.Twins (R : ∀ (P P' : Payloads) (α : Type), N P α → N' P' α → Prop) :
    {P P' : Payloads} → {α : Type} → Grammar ι N P α → Grammar ι N' P' α → Prop
  | succeed {P P' : Payloads} {α : Type} (value : α) (next : ι → ι) :
    Twins R (.succeed value next : Grammar ι N P α) (.succeed value next : Grammar ι N' P' α)
  | fail {P P' : Payloads} {α : Type} (payload : P.Failure) (payload' : P'.Failure) :
    Twins R (.fail payload : Grammar ι N P α) (.fail payload' : Grammar ι N' P' α)
  | error {P P' : Payloads} {α : Type} (payload : P.Error) (payload' : P'.Error) :
    Twins R (.error payload : Grammar ι N P α) (.error payload' : Grammar ι N' P' α)
  | abort {P P' : Payloads} {α : Type} (message : String) :
    Twins R (.abort message : Grammar ι N P α) (.abort message : Grammar ι N' P' α)
  | primitive {P P' : Payloads} {α : Type} (m : Matcher ι α) :
    Twins R (.primitive m : Grammar ι N P α) (.primitive m : Grammar ι N' P' α)
  | attempt {P P' : Payloads} {α : Type} {p : Grammar ι N P α} {p' : Grammar ι N' P' α}
    (demote : P.Error → P.Failure) (demote' : P'.Error → P'.Failure) (h : Twins R p p') :
    Twins R (.attempt demote p) (.attempt demote' p')
  | escalate {P P' : Payloads} {α : Type} {p : Grammar ι N P α} {p' : Grammar ι N' P' α}
    (promote : P.Failure → P.Error) (promote' : P'.Failure → P'.Error) (h : Twins R p p') :
    Twins R (.escalate promote p) (.escalate promote' p')
  | bind {P P' : Payloads} {α β : Type} {p : Grammar ι N P α} {p' : Grammar ι N' P' α}
    (f : α → Except String β) (h : Twins R p p') : Twins R (.bind f p) (.bind f p')
  | mapPayload {P P' Q Q' : Payloads} {α : Type} {p : Grammar ι N P α} {p' : Grammar ι N' P' α}
    (onFailure : P.Failure → Q.Failure) (onError : P.Error → Q.Error)
    (onFailure' : P'.Failure → Q'.Failure) (onError' : P'.Error → Q'.Error) (h : Twins R p p') :
    Twins R (.mapPayload onFailure onError p) (.mapPayload onFailure' onError' p')
  /-- The two checks let the same values through. -/
  | check {P P' : Payloads} {α β : Type} {p : Grammar ι N P α} {p' : Grammar ι N' P' α}
    {f : α → Except P.Error β} {f' : α → Except P'.Error β} (hf : ∀ a b, f a = .ok b ↔ f' a = .ok b)
    (h : Twins R p p') : Twins R (.check f p) (.check f' p')
  | context {α : Type} {p : Grammar ι N ParseError.payloads α}
    {p' : Grammar ι N' ParseError.payloads α} (name name' : String) (h : Twins R p p') :
    Twins R (.context name p) (.context name' p')
  /-- A label on a payload is a map of payloads, too. -/
  | contextMap {P' Q' : Payloads} {α : Type} {p : Grammar ι N ParseError.payloads α}
    {p' : Grammar ι N' P' α} (name : String) (onFailure' : P'.Failure → Q'.Failure)
    (onError' : P'.Error → Q'.Error) (h : Twins R p p') :
    Twins R (.context name p) (.mapPayload onFailure' onError' p')
  | mapContext {P Q : Payloads} {α : Type} {p : Grammar ι N P α}
    {p' : Grammar ι N' ParseError.payloads α} (onFailure : P.Failure → Q.Failure)
    (onError : P.Error → Q.Error) (name' : String) (h : Twins R p p') :
    Twins R (.mapPayload onFailure onError p) (.context name' p')
  | label {P P' : Payloads} {α : Type} {p : Grammar ι N P α} {p' : Grammar ι N' P' α}
    (name : String) (h : Twins R p p') : Twins R (.label name p) (.label name p')
  | many {P P' : Payloads} {α : Type} {p : Grammar ι N P α} {p' : Grammar ι N' P' α}
    (min max : Nat) (h : Twins R p p') : Twins R (.many min max p) (.many min max p')
  | pair {P P' : Payloads} {α β : Type} {p : Grammar ι N P α} {p' : Grammar ι N' P' α}
    {q : Grammar ι N P β} {q' : Grammar ι N' P' β} (hp : Twins R p p') (hq : Twins R q q') :
    Twins R (.pair p q) (.pair p' q')
  | choice {P P' : Payloads} {α : Type} {count : Nat} {ps : Fin count → Grammar ι N P α}
    {ps' : Fin count → Grammar ι N' P' α} (h : ∀ i, Twins R (ps i) (ps' i)) :
    Twins R (.choice count ps) (.choice count ps')
  | sequence {P P' : Payloads} {α : Type} {count : Nat} {ps : Fin count → Grammar ι N P α}
    {ps' : Fin count → Grammar ι N' P' α} (h : ∀ i, Twins R (ps i) (ps' i)) :
    Twins R (.sequence count ps) (.sequence count ps')
  | defer {P P' : Payloads} {α : Type} {p : Grammar ι N P α} {p' : Grammar ι N' P' α}
    (note : Option String) (h : Twins R p p') : Twins R (.defer note p) (.defer note p')
  | rule {P P' : Payloads} {α : Type} {name : N P α} {name' : N' P' α} (h : R P P' α name name') :
    Twins R (.rule name) (.rule name')
  | tap {P P' : Payloads} {α : Type} {p : Grammar ι N P α} {p' : Grammar ι N' P' α}
    (id : String) (h : Twins R p p') : Twins R (.tap id p) (.tap id p')

/-- Related names stand for twins. -/
def Rules.Twins (R : ∀ (P P' : Payloads) (α : Type), N P α → N' P' α → Prop) (rules : Rules ι N)
    (rules' : Rules ι N') : Prop :=
  ∀ {P P' : Payloads} {α : Type} {name : N P α} {name' : N' P' α},
    R P P' α name name' → (rules name).Twins R (rules' name')

variable {R : ∀ (P P' : Payloads) (α : Type), N P α → N' P' α → Prop}

/-! ## Readings -/

section Readings

variable [DecidableEq ι]

theorem Grammar.Twins.reading {rounds : Nat}
    {reads : ∀ {P : Payloads} {α : Type}, N P α → Reading ι P α}
    {reads' : ∀ {P : Payloads} {α : Type}, N' P α → Reading ι P α}
    (hnamed : ∀ {P P' : Payloads} {α : Type} {name : N P α} {name' : N' P' α},
      R P P' α name name' → (reads name).Level (reads' name'))
    {g : Grammar ι N P α} {g' : Grammar ι N' P' α} (hg : g.Twins R g') :
    (g.reading rounds reads).Level (g'.reading rounds reads') := by
  induction hg with
  | succeed value next => exact fun c => .success value (next c)
  | fail payload payload' => exact fun c => .failure payload payload'
  | error payload payload' => exact fun c => .error payload payload'
  | abort message => exact fun c => .stop _
  | primitive m => exact Reading.level_primitive m
  | attempt demote demote' _ ih => exact ih.attempt demote demote'
  | escalate promote promote' _ ih => exact ih.escalate promote promote'
  | bind f _ ih => exact ih.bind f
  | mapPayload | context | contextMap | mapContext => rename_i ih; exact ih.mapPayload _ _ _ _
  | check hf _ ih => exact ih.check hf
  | label name _ ih => exact ih
  | many min max _ ih => exact ih.many rounds min max
  | pair _ _ ihp ihq => exact ihp.pair ihq
  | choice _ ih => exact Reading.Level.choice (forall₂_ofFn ih)
  | sequence _ ih => exact Reading.Level.sequence (forall₂_ofFn ih)
  | defer note _ ih => exact ih
  | rule h => exact hnamed h
  | tap id _ ih => exact ih

theorem Rules.Twins.reading {rules : Rules ι N} {rules' : Rules ι N'}
    (hrules : rules.Twins R rules') (rounds depth : Nat) {name : N P α} {name' : N' P' α}
    (h : R P P' α name name') :
    (rules.reading rounds depth name).Level (rules'.reading rounds depth name') := by
  induction depth generalizing P P' α with
  | zero => exact fun c => .stop _
  | succ depth ih => exact (hrules h).reading ih

end Readings

/-! ## Calls -/

/-- Calls of twins on the same input are entered, or they are left with the
same outcome but for the payload. -/
inductive Event.Twins (R : ∀ (P P' : Payloads) (α : Type), N P α → N' P' α → Prop) :
    Event ι N ε → Event ι N' ε' → Prop
  | enter {P P' : Payloads} {α : Type} {g : Grammar ι N P α} {g' : Grammar ι N' P' α}
    (h : g.Twins R g') (c : ι) (raise : P.Error → ε) (raise' : P'.Error → ε') :
    Twins R (.enter ⟨g, c, raise⟩) (.enter ⟨g', c, raise'⟩)
  | leave {P P' : Payloads} {α : Type} {g : Grammar ι N P α} {g' : Grammar ι N' P' α}
    (h : g.Twins R g') (c : ι) (raise : P.Error → ε) (raise' : P'.Error → ε')
    {o : Outcome P.Failure P.Error ι α} {o' : Outcome P'.Failure P'.Error ι α}
    (ho : Level (.ok o) (.ok o')) :
    Twins R (.leave ⟨g, c, raise⟩ o) (.leave ⟨g', c, raise'⟩ o')

/-- The primitive that the event asks, and the input it is asked about. -/
def Event.asked? : Event ι N ε → Option ((α : Type) × Matcher ι α × ι)
  | .enter ⟨.primitive m, c, _⟩ => some ⟨_, m, c⟩
  | _ => none

namespace Event.Twins

variable {ev : Event ι N ε} {ev' : Event ι N' ε'}

theorem asked?_eq (h : ev.Twins R ev') : ev.asked? = ev'.asked? := by
  cases h with
  | enter h c raise raise' => cases h <;> rfl
  | leave => rfl

theorem record?_eq (h : ev.Twins R ev') : ev.record? = ev'.record? := by
  cases h with
  | enter h c raise raise' => cases h <;> rfl
  | leave h c raise raise' ho =>
    cases h with
    | tap id h => cases ho <;> rfl
    | _ => rfl

/-- What is the same in twins is the same in lists of them. -/
theorem filterMap_eq {γ : Type*} {f : Event ι N ε → Option γ} {f' : Event ι N' ε' → Option γ}
    (hf : ∀ {ev ev'}, Event.Twins R ev ev' → f ev = f' ev') {evs : List (Event ι N ε)}
    {evs' : List (Event ι N' ε')} (h : List.Forall₂ (Event.Twins R) evs evs') :
    evs.filterMap f = evs'.filterMap f' := by
  induction h with
  | nil => rfl
  | cons hev _ ih => rw [List.filterMap_cons, List.filterMap_cons, hf hev, ih]

end Event.Twins

/-- The calls on the two sides are twins one by one. -/
def Kindred (R : ∀ (P P' : Payloads) (α : Type), N P α → N' P' α → Prop) :
    List (Event ι N ε) → List (Event ι N' ε') → Prop :=
  List.Forall₂ (Event.Twins R)

namespace Kindred

variable {es fs : List (Event ι N ε)} {es' fs' : List (Event ι N' ε')}

theorem nil : Kindred R ([] : List (Event ι N ε)) ([] : List (Event ι N' ε')) :=
  List.Forall₂.nil

theorem append (h : Kindred R es es') (h' : Kindred R fs fs') : Kindred R (es ++ fs) (es' ++ fs') :=
  List.rel_append h h'

theorem around {g : Grammar ι N P α} {g' : Grammar ι N' P' α} (h : g.Twins R g') (c : ι)
    (raise : P.Error → ε) (raise' : P'.Error → ε') (hes : Kindred R es es')
    {x : Except Stop (Outcome P.Failure P.Error ι α)}
    {x' : Except Stop (Outcome P'.Failure P'.Error ι α)} (hx : Level x x') :
    Kindred R (Call.around ⟨g, c, raise⟩ es x) (Call.around ⟨g', c, raise'⟩ es' x') := by
  refine List.rel_append (.cons (.enter h c raise raise') hes) ?_
  cases hx with
  | stop stop => exact .nil
  | success a rest => exact .cons (.leave h c raise raise' (.success a rest)) .nil
  | failure f f' => exact .cons (.leave h c raise raise' (.failure f f')) .nil
  | error e e' => exact .cons (.leave h c raise raise' (.error e e')) .nil

end Kindred

section Histories

variable [DecidableEq ι]

theorem Grammar.Twins.history {rounds : Nat}
    {reads : ∀ {P : Payloads} {α : Type}, N P α → Reading ι P α}
    {reads' : ∀ {P : Payloads} {α : Type}, N' P α → Reading ι P α}
    {called : ∀ {P : Payloads} {α : Type}, N P α → (P.Error → ε) → ι → List (Event ι N ε)}
    {called' : ∀ {P : Payloads} {α : Type}, N' P α → (P.Error → ε') → ι → List (Event ι N' ε')}
    (hnamed : ∀ {P P' : Payloads} {α : Type} {name : N P α} {name' : N' P' α},
      R P P' α name name' → (reads name).Level (reads' name'))
    (hcalled : ∀ {P P' : Payloads} {α : Type} {name : N P α} {name' : N' P' α},
      R P P' α name name' → ∀ raise raise' c,
        Kindred R (called name raise c) (called' name' raise' c))
    {g : Grammar ι N P α} {g' : Grammar ι N' P' α} (hg : g.Twins R g') (raise : P.Error → ε)
    (raise' : P'.Error → ε') (c : ι) :
    Kindred R (g.history rounds reads called raise c)
      (g'.history rounds reads' called' raise' c) := by
  -- the calls inside are left to show, since the call itself is one of twins
  have call {P P' : Payloads} {α : Type} {g : Grammar ι N P α} {g' : Grammar ι N' P' α}
      (hg : g.Twins R g') (raise : P.Error → ε) (raise' : P'.Error → ε') (c : ι)
      {es : List (Event ι N ε)} {es' : List (Event ι N' ε')} (hes : Kindred R es es') :
      Kindred R (Call.around ⟨g, c, raise⟩ es (g.reading rounds reads c))
        (Call.around ⟨g', c, raise'⟩ es' (g'.reading rounds reads' c)) :=
    hes.around hg c raise raise' (hg.reading hnamed c)
  induction hg generalizing c <;> rw [Grammar.history, Grammar.history]
  case succeed value next => exact call (.succeed value next) raise raise' c .nil
  case fail payload payload' => exact call (.fail payload payload') raise raise' c .nil
  case error payload payload' => exact call (.error payload payload') raise raise' c .nil
  case abort message => exact call (.abort message) raise raise' c .nil
  case primitive m => exact call (.primitive m) raise raise' c .nil
  case attempt demote demote' h ih =>
    exact call (.attempt demote demote' h) raise raise' c (ih raise raise' c)
  case escalate promote promote' h ih =>
    exact call (.escalate promote promote' h) raise raise' c (ih raise raise' c)
  case bind f h ih => exact call (.bind f h) raise raise' c (ih raise raise' c)
  case mapPayload onFailure onError onFailure' onError' h ih =>
    exact call (.mapPayload onFailure onError onFailure' onError' h) raise raise' c (ih _ _ c)
  case check hf h ih => exact call (.check hf h) raise raise' c (ih raise raise' c)
  case context name name' h ih => exact call (.context name name' h) raise raise' c (ih _ _ c)
  case contextMap name onFailure' onError' h ih =>
    exact call (.contextMap name onFailure' onError' h) raise raise' c (ih _ _ c)
  case mapContext onFailure onError name' h ih =>
    exact call (.mapContext onFailure onError name' h) raise raise' c (ih _ _ c)
  case label name h ih => exact call (.label name h) raise raise' c (ih raise raise' c)
  case many p p' min max h ih =>
    have hp : History.Abreast (Kindred R)
        (p.reading rounds reads, p.history rounds reads called raise)
        (p'.reading rounds reads', p'.history rounds reads' called' raise') :=
      ⟨h.reading hnamed, ih raise raise'⟩
    exact call (.many min max h) raise raise' c (hp.collect .nil .append max rounds 0 c)
  case pair p p' q q' h h' ih ih' =>
    have hp : History.Abreast (Kindred R)
        (p.reading rounds reads, p.history rounds reads called raise)
        (p'.reading rounds reads', p'.history rounds reads' called' raise') :=
      ⟨h.reading hnamed, ih raise raise'⟩
    have hq : History.Abreast (Kindred R)
        (q.reading rounds reads, q.history rounds reads called raise)
        (q'.reading rounds reads', q'.history rounds reads' called' raise') :=
      ⟨h'.reading hnamed, ih' raise raise'⟩
    exact call (.pair h h') raise raise' c (hp.pair .nil .append hq c)
  case choice count ps ps' h ih =>
    have hps : ∀ i, History.Abreast (Kindred R)
        ((ps i).reading rounds reads, (ps i).history rounds reads called raise)
        ((ps' i).reading rounds reads', (ps' i).history rounds reads' called' raise') :=
      fun i => ⟨(h i).reading hnamed, ih i raise raise'⟩
    exact call (.choice h) raise raise' c
      (History.Abreast.choice .nil .append (forall₂_ofFn hps) c)
  case sequence count ps ps' h ih =>
    have hps : ∀ i, History.Abreast (Kindred R)
        ((ps i).reading rounds reads, (ps i).history rounds reads called raise)
        ((ps' i).reading rounds reads', (ps' i).history rounds reads' called' raise') :=
      fun i => ⟨(h i).reading hnamed, ih i raise raise'⟩
    exact call (.sequence h) raise raise' c
      (History.Abreast.sequence .nil .append (forall₂_ofFn hps) c)
  case defer note h ih => exact call (.defer note h) raise raise' c (ih raise raise' c)
  case rule h => exact call (.rule h) raise raise' c (hcalled h raise raise' c)
  case tap id h ih => exact call (.tap id h) raise raise' c (ih raise raise' c)

theorem Rules.Twins.history {rules : Rules ι N} {rules' : Rules ι N'}
    (hrules : rules.Twins R rules') (rounds depth : Nat) {name : N P α} {name' : N' P' α}
    (h : R P P' α name name') (raise : P.Error → ε) (raise' : P'.Error → ε') (c : ι) :
    Kindred R (rules.history rounds depth name raise c)
      (rules'.history rounds depth name' raise' c) := by
  induction depth generalizing P P' α c with
  | zero => exact .nil
  | succ depth ih =>
    exact (hrules h).history (hrules.reading rounds depth) ih raise raise' c

/-- The calls of whole grammars that are twins. -/
theorem Grammar.Twins.calls {rules : Rules ι N} {rules' : Rules ι N'}
    (hrules : rules.Twins R rules') {g : Grammar ι N P α} {g' : Grammar ι N' P' α}
    (hg : g.Twins R g') (limits : Limits) (c : ι) :
    Kindred R (g.calls rules limits c) (g'.calls rules' limits c) :=
  hg.history (hrules.reading limits.rounds limits.depth)
    (hrules.history limits.rounds limits.depth) id id c

end Histories

/-! ## Watched twins -/

theorem Grammar.Twins.watched (id : String) {g : Grammar ι N P α} {g' : Grammar ι N' P' α}
    (hg : g.Twins R g') : (g.watched id).Twins R (g'.watched id) := by
  induction hg with
  | succeed value next => exact .tap id (.succeed value next)
  | fail payload payload' => exact .tap id (.fail payload payload')
  | error payload payload' => exact .tap id (.error payload payload')
  | abort message => exact .tap id (.abort message)
  | primitive m => exact .tap id (.primitive m)
  | attempt demote demote' _ ih => exact .attempt demote demote' ih
  | escalate promote promote' _ ih => exact .escalate promote promote' ih
  | bind f _ ih => exact .bind f ih
  | mapPayload _ _ _ _ _ ih => exact .mapPayload _ _ _ _ ih
  | check hf _ ih => exact .check hf ih
  | context name name' _ ih => exact .context name name' ih
  | contextMap name _ _ _ ih => exact .contextMap name _ _ ih
  | mapContext _ _ name' _ ih => exact .mapContext _ _ name' ih
  | label name _ ih => exact .label name ih
  | many min max _ ih => exact .many min max ih
  | pair _ _ ihp ihq => exact .pair ihp ihq
  | choice _ ih => exact .choice ih
  | sequence _ ih => exact .sequence ih
  | defer note _ ih => exact .defer note ih
  | rule h => exact .rule h
  | tap id' _ ih => exact .tap id' ih

theorem Rules.Twins.watched (id : String) {rules : Rules ι N} {rules' : Rules ι N'}
    (hrules : rules.Twins R rules') :
    Rules.Twins R (rules.watched id) (rules'.watched id) :=
  fun h => Grammar.Twins.watched id (hrules h)

/-! ## Requests -/

theorem Reading.Level.run {p : Reading TextCursor P α} {p' : Reading TextCursor P' α}
    (hp : p.Level p') (promote : P.Failure → P.Error) (promote' : P'.Failure → P'.Error)
    (text : String) : LevelValue (run promote p text) (run promote' p' text) := by
  unfold Reading.run
  have h := hp (Cursor.start text.toList)
  generalize p (Cursor.start text.toList) = x, p' (Cursor.start text.toList) = x' at h
  cases h with
  | success a rest =>
    dsimp only
    split
    · exact .ok a
    · exact .error _ _
  | failure f f' => exact .error _ _
  | error e e' => exact .error e e'
  | stop stop => exact .stop stop

/-- The reply without its payload. -/
def Request.bare : (q : Request ι) → q.Reply P α → q.Reply (Payloads.of Unit Unit) α
  | parse _, o => o.bare
  | run _, x => x.mapError fun _ => ()

theorem Request.bare_answer {p : Reading ι P α} {p' : Reading ι P' α} (hp : p.Level p')
    (promote : P.Failure → P.Error) (promote' : P'.Failure → P'.Error) (q : Request ι) :
    (q.answer promote p).map q.bare = (q.answer promote' p').map q.bare := by
  cases q with
  | parse c => exact (hp c).bare_eq
  | run text => exact (hp.run promote promote' text).bare_eq

/-- Payloads do not steer a parse.  Requests to the parsers of twins are
answered the same but for the payloads, whatever sessions they run in.  On the
way the same primitives are asked about the same inputs, and taps around them
record the same. -/
theorem payloads_never_steer [DecidableEq ι] {rules : Rules ι N} {rules' : Rules ι N'}
    (hrules : rules.Twins R rules') {g : Grammar ι N P α} {g' : Grammar ι N' P' α}
    (hg : g.Twins R g') (promote : P.Failure → P.Error) (promote' : P'.Failure → P'.Error)
    (limits : Limits) (q : Request ι) (s s' : Session ι) :
    ((q.perform promote (g.parse rules limits)).result s).map q.bare =
        ((q.perform promote' (g'.parse rules' limits)).result s').map q.bare ∧
      (g.calls rules limits q.input).filterMap Event.asked? =
        (g'.calls rules' limits q.input).filterMap Event.asked? ∧
      ∀ id, ∃ es,
        ((q.perform promote ((g.watched id).parse (rules.watched id) limits)).final s).taps =
            s.taps ++ es ∧
        ((q.perform promote' ((g'.watched id).parse (rules'.watched id) limits)).final s').taps =
            s'.taps ++ es := by
  have hlevel : (g.answer rules limits).Level (g'.answer rules' limits) :=
    hg.reading (hrules.reading limits.rounds limits.depth)
  have hcalls := hg.calls hrules limits q.input
  refine ⟨?_, Event.Twins.filterMap_eq Event.Twins.asked?_eq hcalls, fun id => ?_⟩
  · rw [Request.perform_result, Request.perform_result]
    exact Request.bare_answer hlevel promote promote' q
  · have hwatched := (hg.watched id).calls (hrules.watched id) limits q.input
    refine ⟨_, Request.perform_taps _ _ _ _ _ _, ?_⟩
    rw [Event.Twins.filterMap_eq Event.Twins.record?_eq hwatched]
    exact Request.perform_taps _ _ _ _ _ _

/-- A sign and digits or digits only, with any payloads.  A sign without digits
is no error, so that digits are tried after it. -/
def signed (P : Payloads) (demote : P.Error → P.Failure) :
    Grammar TextCursor NoNames P (Option Char × List Char) :=
  .firstOf
    [.attempt demote (.pair (.map some (.char '-')) (.many1 .digit)),
      .map (fun digits => (none, digits)) (.many1 .digit)]

theorem payloads_never_steer_in_signed :
    let q : Request TextCursor := .run "-x"
    let texts := signed ParseError.payloads id
    let flags := signed (Payloads.of Bool Unit) fun _ => false
    (q.perform id (texts.parse Rules.none ⟨2, 0⟩)).result (Session.fresh false) =
        .ok (.error .noMatch) ∧
      (q.perform (fun _ => ()) (flags.parse Rules.none ⟨2, 0⟩)).result (Session.fresh false) =
        .ok (.error ()) ∧
      (texts.calls Rules.none ⟨2, 0⟩ q.input).filterMap Event.asked? =
        (flags.calls Rules.none ⟨2, 0⟩ q.input).filterMap Event.asked? := by
  intro q texts flags
  have htwins : texts.Twins (fun _ _ _ _ _ => False) flags := by
    refine .choice fun i => ?_
    match i with
    | 0 => exact .attempt _ _ (.pair (.bind _ (.primitive _)) (.many _ _ (.primitive _)))
    | 1 => exact .bind _ (.many _ _ (.primitive _))
  refine ⟨?_, ?_, (payloads_never_steer (fun h => h.elim) htwins id (fun _ => ()) ⟨2, 0⟩ q
    (Session.fresh false) (Session.fresh false)).2.1⟩
  · rw [Request.perform_result]
    rfl
  · rw [Request.perform_result]
    rfl

end Triad
