import Triad.Proofs.Meaning.Adequacy

/-!
# Watched grammars

Whether and where a run calls a primitive can be seen from outside by putting
a tap around every primitive of the grammar and of its rules.  The taps do not
change what the grammar reads (`Grammar.reading_watched`,
`Rules.reading_watched`), and they record one entry when a primitive is
called and one when it answers.
-/

namespace Triad

variable {ι : Type} {N : Payloads → Type → Type}

/-- The grammar with a tap around each of its primitives. -/
def Grammar.watched (id : String) :
    {P : Payloads} → {α : Type} → Grammar ι N P α → Grammar ι N P α
  | _, _, .succeed value next => .tap id (.succeed value next)
  | _, _, .fail payload => .tap id (.fail payload)
  | _, _, .error payload => .tap id (.error payload)
  | _, _, .abort message => .tap id (.abort message)
  | _, _, .primitive m => .tap id (.primitive m)
  | _, _, .attempt demote p => .attempt demote (p.watched id)
  | _, _, .escalate promote p => .escalate promote (p.watched id)
  | _, _, .bind f p => .bind f (p.watched id)
  | _, _, .mapPayload onFailure onError p => .mapPayload onFailure onError (p.watched id)
  | _, _, .check f p => .check f (p.watched id)
  | _, _, .context name p => .context name (p.watched id)
  | _, _, .label name p => .label name (p.watched id)
  | _, _, .many min max p => .many min max (p.watched id)
  | _, _, .pair p q => .pair (p.watched id) (q.watched id)
  | _, _, .choice count ps => .choice count fun i => (ps i).watched id
  | _, _, .sequence count ps => .sequence count fun i => (ps i).watched id
  | _, _, .defer note p => .defer note (p.watched id)
  | _, _, .rule name => .rule name
  | _, _, .tap id' p => .tap id' (p.watched id)

/-- The rules with a tap around each of their primitives. -/
def Rules.watched (id : String) (rules : Rules ι N) : Rules ι N := fun name =>
  (rules name).watched id

variable [DecidableEq ι] {P : Payloads} {α : Type}

theorem Grammar.reading_watched {rounds : Nat}
    {reads : ∀ {P : Payloads} {α : Type}, N P α → Reading ι P α} (id : String)
    (g : Grammar ι N P α) : (g.watched id).reading rounds reads = g.reading rounds reads := by
  induction g with
  | succeed | fail | error | abort | primitive | rule => rfl
  | attempt _ _ ih | escalate _ _ ih | bind _ _ ih | check _ _ ih | many _ _ _ ih =>
    simp only [watched, reading, ih]
  | mapPayload _ _ _ ih | context _ _ ih | label _ _ ih | defer _ _ ih | tap _ _ ih =>
    simp only [watched, reading, ih]
  | pair p q ihp ihq => simp only [watched, reading, ihp, ihq]
  | choice count ps ih | sequence count ps ih => simp only [watched, reading, ih]

theorem Rules.reading_watched (id : String) (rules : Rules ι N) (rounds depth : Nat) :
    @Rules.reading ι N _ (rules.watched id) rounds depth =
      @Rules.reading ι N _ rules rounds depth := by
  induction depth with
  | zero => rfl
  | succ depth ih =>
    funext P α name
    show ((rules name).watched id).reading rounds (Rules.reading (rules.watched id) rounds depth) =
      (rules name).reading rounds (Rules.reading rules rounds depth)
    rw [ih]
    exact Grammar.reading_watched id (rules name)

/-- Watching changes no answer. -/
theorem Grammar.answer_watched (id : String) (rules : Rules ι N) (limits : Limits)
    (g : Grammar ι N P α) :
    (g.watched id).answer (rules.watched id) limits = g.answer rules limits := by
  unfold answer
  rw [Rules.reading_watched]
  exact reading_watched id g

end Triad
