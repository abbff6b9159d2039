import Triad.Proofs.Meaning.Level

/-!
# Marks

The marks of a run are what it leaves in the session but for the trace: each
tap is marked when it is entered and when it is left, and each deferred parser
whenever the run gets to it.  The marks do not depend on what has been built
before; that only decides which of the deferred parsers are built now.

Deferred parsers are told apart by their places, so unlike the history of a
grammar its marks are computed along a path.  The marks of taps are those that
the history shows (`Grammar.filter_marks`).
-/

namespace Triad

variable {ι : Type} {N : Payloads → Type → Type} {ε : Type} {P : Payloads} {α : Type}

def Entry.isTap : Entry ι → Bool
  | .enter _ _ | .leave _ _ => true
  | _ => false

/-! ## The marks of a grammar -/

/-- A part by its reading and its marks. -/
abbrev Marked (ι : Type) (P : Payloads) (α : Type) := Reading ι P α × (ι → List (Entry ι))

/-- A tap marks when its part is entered and when it is left. -/
def Marked.tap (id : String) (p : Marked ι P α) (c : ι) : List (Entry ι) :=
  .enter id c :: p.2 c ++
    match p.1 c with
    | .ok o => [.leave id o.kind]
    | .error _ => []

variable [DecidableEq ι]

/-- The marks of a grammar at the place `path`, given the readings and the
marks of its names.  The mark `built` says that the run gets to a deferred
parser. -/
def Grammar.marks (rounds : Nat) (reads : ∀ {P : Payloads} {α : Type}, N P α → Reading ι P α)
    (marked : ∀ {P : Payloads} {α : Type}, N P α → Path → ι → List (Entry ι)) :
    {P : Payloads} → {α : Type} → Grammar ι N P α → Path → ι → List (Entry ι)
  | _, _, .succeed _ _, _, _ => []
  | _, _, .fail _, _, _ => []
  | _, _, .error _, _, _ => []
  | _, _, .abort _, _, _ => []
  | _, _, .primitive _, _, _ => []
  | _, _, .attempt _ p, path, c => p.marks rounds reads marked (path.child 0) c
  | _, _, .escalate _ p, path, c => p.marks rounds reads marked (path.child 0) c
  | _, _, .bind _ p, path, c => p.marks rounds reads marked (path.child 0) c
  | _, _, .mapPayload _ _ p, path, c => p.marks rounds reads marked (path.child 0) c
  | _, _, .check _ p, path, c => p.marks rounds reads marked (path.child 0) c
  | _, _, .context _ p, path, c => p.marks rounds reads marked (path.child 0) c
  | _, _, .label _ p, path, c => p.marks rounds reads marked (path.child 0) c
  | _, _, .many _ max p, path, c =>
    History.collect max (p.reading rounds reads, p.marks rounds reads marked (path.child 0))
      rounds 0 c
  | _, _, .pair p q, path, c =>
    History.pair (p.reading rounds reads, p.marks rounds reads marked (path.child 0))
      (q.reading rounds reads, q.marks rounds reads marked (path.child 1)) c
  | _, _, .choice _ ps, path, c =>
    History.choice (List.ofFn fun i =>
      ((ps i).reading rounds reads, (ps i).marks rounds reads marked (path.child i))) c
  | _, _, .sequence _ ps, path, c =>
    History.sequence (List.ofFn fun i =>
      ((ps i).reading rounds reads, (ps i).marks rounds reads marked (path.child i))) c
  | _, _, .defer note p, path, c =>
    .built path note :: p.marks rounds reads marked (path.child 0) c
  | _, _, .rule name, path, c => marked name path c
  | _, _, .tap id p, path, c =>
    Marked.tap id (p.reading rounds reads, p.marks rounds reads marked (path.child 0)) c

/-- The marks of a name, unfolding names `depth` deep. -/
def Rules.marks (rules : Rules ι N) (rounds : Nat) :
    Nat → {P : Payloads} → {α : Type} → N P α → Path → ι → List (Entry ι)
  | 0, _, _, _, _, _ => []
  | depth + 1, _, _, name, path, c =>
    (rules name).marks rounds (rules.reading rounds depth) (rules.marks rounds depth)
      (path.child 0) c

/-! ## The marks of taps -/

/-- The marks of taps are what taps record of the events. -/
def Shows (es : List (Entry ι)) (evs : List (Event ι N ε)) : Prop :=
  es.filter Entry.isTap = evs.filterMap Event.record?

namespace Shows

omit [DecidableEq ι]

variable {es es' : List (Entry ι)} {evs evs' : List (Event ι N ε)}

theorem nil : Shows ([] : List (Entry ι)) ([] : List (Event ι N ε)) := rfl

theorem append (h : Shows es evs) (h' : Shows es' evs') : Shows (es ++ es') (evs ++ evs') := by
  unfold Shows at h h' ⊢
  rw [List.filter_append, List.filterMap_append, h, h']

/-- A call of a part that is no tap records what the calls inside it record. -/
theorem around {k : Call ι N ε} (henter : (Event.enter k).record? = none)
    (hleave : ∀ o, (Event.leave k o).record? = none) (h : Shows es evs)
    (x : Except Stop (Outcome k.payloads.Failure k.payloads.Error ι k.value)) :
    Shows es (k.around evs x) := by
  unfold Shows at h ⊢
  rw [h]
  cases x with
  | ok o => simp [Call.around, henter, hleave]
  | error stop => simp [Call.around, henter]

/-- A call of a tap is recorded around what the calls inside it record. -/
theorem around_tap (id : String) (p : Grammar ι N P α) (raise : P.Error → ε)
    {part : Marked ι P α} {c : ι} (h : Shows (part.2 c) evs) :
    Shows (Marked.tap id part c) (Call.around ⟨.tap id p, c, raise⟩ evs (part.1 c)) := by
  have henter : Shows [.enter id c] [.enter (⟨.tap id p, c, raise⟩ : Call ι N ε)] := rfl
  refine (henter.append h).append ?_
  cases part.1 c <;> rfl

end Shows

theorem Grammar.marks_shows {rounds : Nat}
    {reads : ∀ {P : Payloads} {α : Type}, N P α → Reading ι P α}
    {marked : ∀ {P : Payloads} {α : Type}, N P α → Path → ι → List (Entry ι)}
    {called : ∀ {P : Payloads} {α : Type}, N P α → (P.Error → ε) → ι → List (Event ι N ε)}
    (hnamed : ∀ {P : Payloads} {α : Type} (name : N P α) (raise : P.Error → ε) (path : Path)
      (c : ι), Shows (marked name path c) (called name raise c))
    (g : Grammar ι N P α) (raise : P.Error → ε) (path : Path) (c : ι) :
    Shows (g.marks rounds reads marked path c) (g.history rounds reads called raise c) := by
  induction g generalizing path c with
  | succeed | fail | error | abort | primitive =>
    rw [history]
    exact Shows.nil.around rfl (fun _ => rfl) _
  | attempt _ p ih | escalate _ p ih | bind _ p ih | check _ p ih | label _ p ih =>
    rw [history]
    exact (ih raise (path.child 0) c).around rfl (fun _ => rfl) _
  | mapPayload _ _ p ih | context _ p ih =>
    rw [history]
    exact (ih _ (path.child 0) c).around rfl (fun _ => rfl) _
  | many min max p ih =>
    have hp : History.Abreast Shows
        (p.reading rounds reads, p.marks rounds reads marked (path.child 0))
        (p.reading rounds reads, p.history rounds reads called raise) :=
      ⟨.refl _, ih raise (path.child 0)⟩
    rw [history]
    exact (hp.collect .nil .append max rounds 0 c).around rfl (fun _ => rfl) _
  | pair p q ihp ihq =>
    have hp : History.Abreast Shows
        (p.reading rounds reads, p.marks rounds reads marked (path.child 0))
        (p.reading rounds reads, p.history rounds reads called raise) :=
      ⟨.refl _, ihp raise (path.child 0)⟩
    have hq : History.Abreast Shows
        (q.reading rounds reads, q.marks rounds reads marked (path.child 1))
        (q.reading rounds reads, q.history rounds reads called raise) :=
      ⟨.refl _, ihq raise (path.child 1)⟩
    rw [history]
    exact (hp.pair .nil .append hq c).around rfl (fun _ => rfl) _
  | choice count ps ih =>
    have hps : ∀ i, History.Abreast Shows
        ((ps i).reading rounds reads, (ps i).marks rounds reads marked (path.child i))
        ((ps i).reading rounds reads, (ps i).history rounds reads called raise) :=
      fun i => ⟨.refl _, ih i raise (path.child i)⟩
    have hcalls := History.Abreast.choice .nil .append (forall₂_ofFn hps) c
    rw [history]
    exact hcalls.around rfl (fun _ => rfl) _
  | sequence count ps ih =>
    have hps : ∀ i, History.Abreast Shows
        ((ps i).reading rounds reads, (ps i).marks rounds reads marked (path.child i))
        ((ps i).reading rounds reads, (ps i).history rounds reads called raise) :=
      fun i => ⟨.refl _, ih i raise (path.child i)⟩
    have hcalls := History.Abreast.sequence .nil .append (forall₂_ofFn hps) c
    rw [history]
    exact hcalls.around rfl (fun _ => rfl) _
  | defer note p ih =>
    have hp := ih raise (path.child 0) c
    rw [history]
    exact Shows.around (k := ⟨.defer note p, c, raise⟩) rfl (fun _ => rfl) hp _
  | rule name =>
    rw [history]
    exact (hnamed name raise path c).around rfl (fun _ => rfl) _
  | tap id p ih =>
    rw [history]
    exact Shows.around_tap id p raise (ih raise (path.child 0) c)

theorem Rules.marks_shows (rules : Rules ι N) (rounds depth : Nat) (name : N P α)
    (raise : P.Error → ε) (path : Path) (c : ι) :
    Shows (rules.marks rounds depth name path c) (rules.history rounds depth name raise c) := by
  induction depth generalizing P α path c with
  | zero => exact .nil
  | succ depth ih => exact Grammar.marks_shows ih (rules name) raise (path.child 0) c

end Triad
