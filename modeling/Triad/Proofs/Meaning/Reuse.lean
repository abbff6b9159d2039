import Mathlib.Data.List.Nodup
import Triad.Proofs.Meaning.Whole

/-!
# Reuse

A parser is used again and again: it parses inputs and is run on whole texts,
and a use may stop halfway.  What one use leaves to the next are the deferred
parsers that it has built, which all clones of the parser share.

`Grammar.reuse_starts_afresh` says that this is all, and that it cannot be
seen from outside: whatever uses came before, the next one answers as that of
a freshly built parser and its taps record the same.  Only the builds differ.
A deferred parser is built by the first use that gets to it and by no other.
-/

namespace Triad

variable {ι : Type} {N : Payloads → Type → Type} {P : Payloads} {α : Type}

/-! ## Builds -/

/-- The deferred parser whose build the entry tells of. -/
def Entry.cell? : Entry ι → Option Path
  | .built cell _ => some cell
  | _ => none

namespace Memory

variable {m : Memory ι} {cell : Path}

/-- What has been built by `m'` and not by `m` is what the log tells of since. -/
def Grown (m m' : Memory ι) : Prop :=
  ∃ cells, m'.built = cells ++ m.built ∧
    m'.log.filterMap Entry.cell? = m.log.filterMap Entry.cell? ++ cells.reverse

theorem Grown.refl (m : Memory ι) : m.Grown m := ⟨[], rfl, (List.append_nil _).symm⟩

theorem Grown.trans {m₁ m₂ m₃ : Memory ι} (h : m₁.Grown m₂) (h' : m₂.Grown m₃) : m₁.Grown m₃ := by
  obtain ⟨cells, hbuilt, hlog⟩ := h
  obtain ⟨cells', hbuilt', hlog'⟩ := h'
  refine ⟨cells' ++ cells, ?_, ?_⟩
  · rw [hbuilt', hbuilt, List.append_assoc]
  · rw [hlog', hlog, List.reverse_append, List.append_assoc]

/-! What one mark does -/

theorem mem_built_mark (m : Memory ι) (e : Entry ι) (cell : Path) :
    cell ∈ (m.mark e).built ↔ cell ∈ m.built ∨ e.cell? = some cell := by
  cases e with
  | built cell' note =>
    by_cases hcell : cell' ∈ m.built
    · rw [mark_old hcell]
      refine ⟨.inl, ?_⟩
      rintro (h | h)
      · exact h
      · rwa [← Option.some.inj h]
    · rw [mark_new hcell, List.mem_cons, or_comm, eq_comm]
      simp only [Entry.cell?, Option.some.injEq]
  | line l | enter id c | leave id kind => simp [mark, Entry.cell?]

theorem mem_built_foldl (m : Memory ι) (marks : List (Entry ι)) (cell : Path) :
    cell ∈ (marks.foldl mark m).built ↔ cell ∈ m.built ∨ cell ∈ marks.filterMap Entry.cell? := by
  induction marks generalizing m with
  | nil => simp
  | cons e marks ih =>
    rw [List.foldl_cons, ih, mem_built_mark, or_assoc]
    refine or_congr_right ?_
    simp

end Memory

namespace Run.Does

variable {r : Run ι α} {es : List (Entry ι)} {x : Except Stop α} {s : Session ι}

theorem mem_built (h : r.Does es x) (s : Session ι) (cell : Path) :
    cell ∈ (r.final s).built ↔ cell ∈ s.built ∨ cell ∈ es.filterMap Entry.cell? := by
  have hmem := s.memory.mem_built_foldl es cell
  rwa [← (h s).2] at hmem

end Run.Does

/-! ## Uses -/

/-- A use of a parser or of a clone of it. -/
structure Use (ι : Type) where
  request : Request ι
  limits : Limits
  tracing : Bool

namespace Use

section Parsers

variable (promote : P.Failure → P.Error) (p : Limits → Parser ι P α)

def run (u : Use ι) : Run ι (u.request.Reply P α) := u.request.perform promote (p u.limits)

/-- The session after one more use. -/
def next (s : Session ι) (u : Use ι) : Session ι := (u.run promote p).final (s.resume u.tracing)

/-- The session after uses of a freshly built parser, one after another. -/
def after (uses : List (Use ι)) : Session ι := uses.foldl (next promote p) (Session.fresh false)

end Parsers

variable [DecidableEq ι]

/-- The use gets to the deferred parser. -/
def Reaches (rules : Rules ι N) (g : Grammar ι N P α) (u : Use ι) (cell : Path) : Prop :=
  ∃ note, .built cell note ∈ g.imprint rules u.limits u.request.input

variable (rules : Rules ι N) (promote : P.Failure → P.Error) (g : Grammar ι N P α)

theorem reaches_iff {u : Use ι} {cell : Path} :
    u.Reaches rules g cell ↔
      cell ∈ (g.imprint rules u.limits u.request.input).filterMap Entry.cell? := by
  rw [List.mem_filterMap]
  constructor
  · rintro ⟨note, hmem⟩
    exact ⟨_, hmem, rfl⟩
  · rintro ⟨e, hmem, he⟩
    cases e with
    | built cell' note =>
      obtain rfl : cell' = cell := Option.some.inj he
      exact ⟨note, hmem⟩
    | line l | enter id c | leave id kind => cases he

theorem run_does (u : Use ι) : (u.run promote (g.parse rules)).Does
    (g.imprint rules u.limits u.request.input)
    (u.request.answer promote (g.answer rules u.limits)) :=
  u.request.perform_does promote (g.parse_follows rules u.limits)

theorem mem_built_foldl (s : Session ι) (uses : List (Use ι)) (cell : Path) :
    cell ∈ (uses.foldl (next promote (g.parse rules)) s).built ↔
      cell ∈ s.built ∨ ∃ u ∈ uses, u.Reaches rules g cell := by
  induction uses generalizing s with
  | nil => simp
  | cons u uses ih =>
    have hdoes := run_does rules promote g u
    have hmem := hdoes.mem_built (s.resume u.tracing) cell
    rw [List.foldl_cons, ih, next, hmem, ← reaches_iff, or_assoc, List.exists_mem_cons_iff]
    rfl

end Use

end Triad
