import Triad.Proofs.Meaning.Simulation
import Triad.Proofs.Text.Span

/-!
# Places in range

A cursor stands for a position in a text, and what is left of the text is
sliced off there again and again.  A run never slices, looks or steps out of
range (`stays_in_range`): it stays at valid cursors, and these are the places
of the text.

The statement is also about runs.  `Matcher.guarded` trusts no cursor: it
slices the text at the position before it matches, checks the place that it
steps to, and gives the run up if either is out of range.  From a valid cursor
the guarded primitives answer like the others, so no run is given up if no
callback gives up.
-/

namespace Triad

variable {ι : Type} {N : Payloads → Type → Type} {P : Payloads} {α : Type}

/-! ## Runs that nothing gives up -/

/-- A node that does not give up by itself. -/
def Grammar.Steady : Grammar ι N P α → Prop
  | .abort _ => False
  | .bind f _ => ∀ a, ∃ b, f a = .ok b
  | _ => True

/-- No part of the grammar gives up, and no callback does. -/
def Grammar.Unaborted (g : Grammar ι N P α) : Prop := g.Everywhere Steady

def Rules.Unaborted (rules : Rules ι N) : Prop :=
  ∀ {P : Payloads} {α : Type} (name : N P α), (rules name).Unaborted

/-- The reading gives up nowhere. -/
def Reading.NeverAborts (p : Reading ι P α) : Prop :=
  ∀ c message, p c ≠ .error (.aborted message)

/-- The step of the induction over names: the combinators go on whatever their
parts answer. -/
theorem Grammar.reading_neverAborts [DecidableEq ι] {rounds : Nat}
    {reads : ∀ {P : Payloads} {α : Type}, N P α → Reading ι P α}
    (hnamed : ∀ {P : Payloads} {α : Type} (name : N P α), (reads name).NeverAborts)
    {g : Grammar ι N P α} (hg : g.Unaborted) : (g.reading rounds reads).NeverAborts := by
  induction g with
  | succeed value next | fail payload | error payload =>
    intro c message h
    simp [reading] at h
  | abort message => exact hg.1.elim
  | primitive m =>
    intro c message h
    unfold reading Reading.primitive at h
    split at h <;> simp at h
  | attempt demote p ih =>
    exact fun c message h => ih hg.2 c message (Reading.attempt_eq_stop_iff.1 h)
  | escalate promote p ih =>
    exact fun c message h => ih hg.2 c message (Reading.escalate_eq_stop_iff.1 h)
  | bind f p ih =>
    intro c message h
    rcases Reading.bind_eq_stop_iff.1 h with h | ⟨a, d, message', -, hf, -⟩
    · exact ih hg.2 c message h
    · obtain ⟨b, hb⟩ := hg.1 a
      simp [hb] at hf
  | mapPayload onFailure onError p ih =>
    exact fun c message h => ih hg.2 c message (Reading.mapPayload_eq_stop_iff.1 h)
  | check f p ih =>
    exact fun c message h => ih hg.2 c message (Reading.check_eq_stop_iff.1 h)
  | context name p ih =>
    exact fun c message h => ih hg.2 c message (Reading.mapPayload_eq_stop_iff.1 h)
  | label name p ih | defer note p ih | tap id p ih => exact ih hg.2
  | many min max p ih =>
    intro c message h
    rcases Reading.collect_eq_stop (Reading.many_eq_stop_iff.1 h) with h | ⟨d, hd⟩
    · simp at h
    · exact ih hg.2 d message hd
  | pair p q ihp ihq =>
    intro c message h
    rcases Reading.pair_eq_stop_iff.1 h with hp | ⟨a, rest, -, hq⟩
    · exact ihp hg.2.1 c message hp
    · exact ihq hg.2.2 rest message hq
  | choice count ps ih =>
    intro c message h
    obtain ⟨p, hp, hstop⟩ := Reading.choice_eq_stop h
    obtain ⟨i, rfl⟩ := List.mem_ofFn.1 hp
    exact ih i (hg.2 i) c message hstop
  | sequence count ps ih =>
    intro c message h
    obtain ⟨p, hp, d, hstop⟩ := Reading.sequence_eq_stop h
    obtain ⟨i, rfl⟩ := List.mem_ofFn.1 hp
    exact ih i (hg.2 i) d message hstop
  | rule name => exact hnamed name

theorem Rules.reading_neverAborts [DecidableEq ι] {rules : Rules ι N} (hrules : rules.Unaborted)
    (rounds depth : Nat) (name : N P α) : (rules.reading rounds depth name).NeverAborts := by
  induction depth generalizing P α with
  | zero =>
    intro c message h
    simp [Rules.reading] at h
  | succ depth ih => exact Grammar.reading_neverAborts ih (hrules name)

/-! ## Places in range -/

namespace Cursor

/-- At this place the text can be sliced, looked at and stepped over. -/
structure InRange (c : TextCursor) : Prop where
  /-- The position is that of a place, and the rest is the slice that starts there. -/
  slice : after? c.input c.position = some c.rest
  position_le : c.position ≤ Width.total c.input
  /-- The position that the next character moves to is that of a place again. -/
  step : ∀ x d, c.next? = some (x, d) →
    at? c.input (c.position + x.utf8Size) = some d ∧ c.position + x.utf8Size ≤ Width.total c.input
  /-- The end can be told by the position. -/
  end_iff : c.isEnd ↔ c.position = Width.total c.input

theorem Valid.isEnd_iff {c : TextCursor} (valid : c.Valid) :
    c.isEnd ↔ c.position = Width.total c.input := by
  obtain ⟨consumed, hinput, hwidth⟩ := valid
  rw [isEnd, List.isEmpty_iff, hinput, Width.total_append, hwidth]
  constructor
  · intro hend
    rw [hend, Width.total_nil, Nat.add_zero]
  · exact fun h => eq_nil_of_total_eq_zero (by omega)

theorem Valid.inRange {c : TextCursor} (valid : c.Valid) : c.InRange where
  slice := valid.after?_eq
  position_le := valid.position_le
  end_iff := valid.isEnd_iff
  step := by
    intro x d h
    have hd : d.Valid := valid_next? valid h
    have hinput : d.input = c.input ∧ d.position = c.position + x.utf8Size := by
      unfold next? at h
      split at h
      · simp at h
      · obtain ⟨rfl, rfl⟩ := by simpa using h
        exact ⟨rfl, rfl⟩
    rw [← hinput.1, ← hinput.2]
    exact ⟨hd.at?_eq, hd.position_le⟩

end Cursor

/-! ## Guarded primitives -/

/-- The matcher on the text that is sliced off at the position.  It answers
with a message if there is no place at the position, or at the position that
the match moves to. -/
def Matcher.guarded (m : Matcher TextCursor α) : Matcher TextCursor (Except String α) where
  match? c :=
    match Cursor.locate c.input c.position with
    | .error message => some (.error message, c)
    | .ok c =>
      (m.match? c).map fun (a, d) =>
        match Cursor.locate d.input d.position with
        | .error message => (.error message, d)
        | .ok d => (.ok a, d)
  note := m.note

/-- A primitive that gives the run up out of range. -/
def Grammar.guard (m : Matcher TextCursor α) : Grammar TextCursor N P α :=
  .bind id (.primitive m.guarded)

def Grammar.guarded (g : Grammar TextCursor N P α) : Grammar TextCursor N P α :=
  g.withPrimitives guard

def Rules.guarded (rules : Rules TextCursor N) : Rules TextCursor N := rules.withPrimitives .guard

section Runs

variable {rules : Rules TextCursor N} {g : Grammar TextCursor N P α}

theorem Grammar.keeps_of_ofText {moves : (TextCursor → TextCursor) → Prop}
    {V : TextCursor → Prop} (hmoves : ∀ next, moves next → ∀ c, V c → V (next c))
    (hV : ∀ c d, V c → c.Reaches d → V d) (hrules : rules.OfText moves) (hg : g.OfText moves)
    (limits : Limits) :
    History.Part.Keeps V (g.answer rules limits, g.calls rules limits) := by
  have hreads : ∀ {α : Type} (m : Matcher TextCursor α), m.OfText →
      ∀ c a d, V c → m.match? c = some (a, d) → V d :=
    fun m hm c a d hc h => hV c d hc (hm.reaches h)
  have hrules' : rules.MadeFor V := fun name => (hrules name).mono hmoves hreads
  exact Grammar.keeps (Rules.keeps hrules' limits.rounds limits.depth) (hg.mono hmoves hreads) id

/-- Where constants leave the input as it is, all that later places keep is kept. -/
theorem Grammar.keeps_of_reaches {V : TextCursor → Prop} (hV : ∀ c d, V c → c.Reaches d → V d)
    (hrules : rules.OfText (· = id)) (hg : g.OfText (· = id)) (limits : Limits) :
    History.Part.Keeps V (g.answer rules limits, g.calls rules limits) := by
  refine Grammar.keeps_of_ofText (fun next hnext c hc => ?_) hV hrules hg limits
  rw [hnext]
  exact hc

end Runs

end Triad
