import Triad.Proofs.Meaning.Everywhere
import Triad.Proofs.Text.Scan

/-!
# Spans of text

`c.Spans s d` says that `s` is the text between the places `c` and `d` of one
input, and `c.Reaches d` that there is such a text.  Going on over text that
comes next keeps a cursor valid, and the text between two valid cursors is the
slice of the input between their positions (`Cursor.Spans.slice?_eq`).

The primitives of text know the text that comes next and nothing else, and
they take characters off its front.  `Matcher.OfText` is what that means for a
matcher, and `Grammar.OfText` is the class of grammars made of such matchers.
The ready-made grammars of text are in it.
-/

namespace Triad

/-! ## Places of one input -/

namespace Cursor

variable {τ : Type} [Width τ] {c d e : Cursor τ} {s t : List τ}

/-- The text `s` stands between `c` and `d`. -/
structure Spans (c : Cursor τ) (s : List τ) (d : Cursor τ) : Prop where
  rest : c.rest = s ++ d.rest
  position : d.position = c.position + Width.total s
  input : d.input = c.input

theorem Spans.nil (c : Cursor τ) : c.Spans [] c := ⟨rfl, rfl, rfl⟩

theorem Spans.append (h : c.Spans s d) (h' : d.Spans t e) : c.Spans (s ++ t) e where
  rest := by rw [h.rest, h'.rest, List.append_assoc]
  position := by rw [h'.position, h.position, Width.total_append, Nat.add_assoc]
  input := h'.input.trans h.input

theorem spans_forward (h : c.rest = s ++ t) : c.Spans s (c.forward s) where
  rest := by rw [rest_forward h, h]
  position := rfl
  input := rfl

theorem Spans.valid (h : c.Spans s d) (valid : c.Valid) : d.Valid := by
  obtain ⟨consumed, hinput, hwidth⟩ := valid
  refine ⟨consumed ++ s, ?_, ?_⟩
  · rw [h.input, hinput, h.rest, List.append_assoc]
  · rw [Width.total_append, hwidth, h.position]

/-- Going on over some of the text that comes next leads from `c` to `d`. -/
def Reaches (c d : Cursor τ) : Prop := ∃ s, c.Spans s d

theorem Reaches.refl (c : Cursor τ) : c.Reaches c := ⟨[], .nil c⟩

theorem Reaches.trans (h : c.Reaches d) (h' : d.Reaches e) : c.Reaches e := by
  obtain ⟨s, hs⟩ := h
  obtain ⟨t, ht⟩ := h'
  exact ⟨s ++ t, hs.append ht⟩

theorem Reaches.position_le (h : c.Reaches d) : c.position ≤ d.position := by
  obtain ⟨s, hs⟩ := h
  rw [hs.position]
  exact Nat.le_add_right _ _

theorem Reaches.input (h : c.Reaches d) : d.input = c.input := by
  obtain ⟨s, hs⟩ := h
  exact hs.input

theorem Reaches.valid (h : c.Reaches d) (valid : c.Valid) : d.Valid := by
  obtain ⟨s, hs⟩ := h
  exact hs.valid valid

theorem reaches_forward_take (c : Cursor τ) (n : Nat) : c.Reaches (c.forward (c.rest.take n)) :=
  ⟨_, spans_forward (List.take_append_drop n c.rest).symm⟩

end Cursor

/-! ## Places of a text -/

namespace Cursor

variable {c d : TextCursor} {s : List Char}

/-- Every character is at least one byte wide. -/
theorem eq_nil_of_total_eq_zero (h : Width.total s = 0) : s = [] := by
  cases s with
  | nil => rfl
  | cons x s =>
    have hx : 0 < Width.width x := x.utf8Size_pos
    rw [Width.total_cons] at h
    omega

/-- A position of a text is that of one place only. -/
theorem Reaches.eq_of_position (h : c.Reaches d) (hposition : d.position = c.position) :
    d = c := by
  obtain ⟨s, hs⟩ := h
  have hwidth := hs.position
  obtain rfl : s = [] := eq_nil_of_total_eq_zero (by omega)
  obtain ⟨position, rest, input⟩ := d
  obtain rfl : position = c.position := hposition
  obtain rfl : c.rest = rest := hs.rest
  obtain rfl : input = c.input := hs.input
  rfl

/-- What follows some text is found at the width of that text. -/
theorem after?_append (s t : List Char) : after? (s ++ t) (Width.total s) = some t := by
  induction s with
  | nil => cases t <;> rfl
  | cons x s ih =>
    have hx : 0 < Width.width x := x.utf8Size_pos
    obtain ⟨n, hn⟩ : ∃ n, Width.total (x :: s) = n + 1 :=
      ⟨Width.width x + Width.total s - 1, by rw [Width.total_cons]; omega⟩
    have hless : n + 1 - Width.width x = Width.total s := by rw [← hn, Width.total_cons]; omega
    rw [hn, List.cons_append, after?, if_pos (by rw [← hn, Width.total_cons]; omega), hless, ih]

theorem Valid.after?_eq (valid : c.Valid) : after? c.input c.position = some c.rest := by
  obtain ⟨consumed, hinput, hwidth⟩ := valid
  rw [hinput, ← hwidth]
  exact after?_append consumed c.rest

/-- A valid cursor is the one at its position. -/
theorem Valid.at?_eq (valid : c.Valid) : at? c.input c.position = some c := by
  rw [at?, valid.after?_eq]
  rfl

theorem Valid.position_le (valid : c.Valid) : c.position ≤ Width.total c.input := by
  obtain ⟨consumed, hinput, hwidth⟩ := valid
  rw [hinput, Width.total_append, hwidth]
  exact Nat.le_add_right _ _

/-- The text of an input between two positions, if both are places of it. -/
def slice? (input : List Char) (low high : Nat) : Option (List Char) := do
  let front ← after? input low
  let back ← after? input high
  if low ≤ high then some (front.take (front.length - back.length)) else none

/-- The text between two places is a slice of the input. -/
theorem Spans.slice?_eq (h : c.Spans s d) (valid : c.Valid) :
    slice? c.input c.position d.position = some s := by
  have hback : after? c.input d.position = some d.rest := by
    rw [← h.input]
    exact (h.valid valid).after?_eq
  have hordered : c.position ≤ d.position := Reaches.position_le ⟨s, h⟩
  rw [slice?, valid.after?_eq, hback]
  simp [hordered, h.rest]

end Cursor

/-! ## Matchers of text -/

variable {N : Payloads → Type → Type} {P : Payloads} {α : Type}

/-- The matcher looks at the text that comes next and takes a number of
characters off it; its trace shows nothing else either. -/
structure Matcher.OfText (m : Matcher TextCursor α) : Prop where
  reads : ∃ read : List Char → Option (α × Nat), ∀ c,
    m.match? c = (read c.rest).map fun found => (found.1, c.forward (c.rest.take found.2))
  shows : ∀ n ∈ m.note, ∃ shown : List Char → String, ∀ c, n.snippet c = shown c.rest

namespace Matcher

theorem OfText.reaches {m : Matcher TextCursor α} (hm : m.OfText) {c d : TextCursor} {a : α}
    (h : m.match? c = some (a, d)) : c.Reaches d := by
  obtain ⟨read, hread⟩ := hm.reads
  rw [hread c] at h
  obtain ⟨found, -, hfound⟩ := Option.map_eq_some_iff.1 h
  obtain ⟨-, rfl⟩ := Prod.mk.inj hfound
  exact Cursor.reaches_forward_take c found.2

theorem noted_shows (operation : String) :
    ∀ n ∈ noted operation, ∃ shown : List Char → String, ∀ c, n.snippet c = shown c.rest := by
  intro n hn
  obtain rfl := Option.some.inj hn
  exact ⟨fun s => String.ofList (Text.Column.render s), fun _ => rfl⟩

theorem next_reads (accept : Char → Bool) :
    ∃ read : List Char → Option (Char × Nat), ∀ c : TextCursor,
      next accept c =
        (read c.rest).map fun found => (found.1, c.forward (c.rest.take found.2)) := by
  let read : List Char → Option (Char × Nat)
    | [] => none
    | x :: _ => if accept x then some (x, 1) else none
  refine ⟨read, fun c => ?_⟩
  cases hc : c.rest with
  | nil => simp [read, next, Cursor.next?_of_end hc]
  | cons x t =>
    rw [next, Cursor.next?_of_rest hc]
    cases hx : accept x <;> simp [read, hx]

theorem ofText_satisfy (accept : Char → Bool) : (satisfy accept).OfText :=
  ⟨next_reads accept, noted_shows _⟩

theorem ofText_char (x : Char) : (char x).OfText := ⟨next_reads _, noted_shows _⟩

end Matcher

/-! ## Grammars of text -/

/-- The grammar is made of matchers of text, and of constants that move the
input as `moves` admits. -/
abbrev Grammar.OfText (moves : (TextCursor → TextCursor) → Prop)
    (g : Grammar TextCursor N P α) : Prop :=
  g.MadeOf moves Matcher.OfText

abbrev Rules.OfText (moves : (TextCursor → TextCursor) → Prop) (rules : Rules TextCursor N) :
    Prop :=
  rules.MadeOf moves Matcher.OfText

namespace Grammar

variable {moves : (TextCursor → TextCursor) → Prop}

theorem ofText_satisfy (accept : Char → Bool) :
    (satisfy accept : Grammar TextCursor N P Char).OfText moves :=
  ⟨Matcher.ofText_satisfy accept, trivial⟩

theorem ofText_char (x : Char) : (char x : Grammar TextCursor N P Char).OfText moves :=
  ⟨Matcher.ofText_char x, trivial⟩

theorem ofText_whitespace : (whitespace : Grammar TextCursor N P Unit).OfText moves :=
  ⟨trivial, trivial, ofText_satisfy _⟩

theorem ofText_lexeme {p : Grammar TextCursor N P α} (hp : p.OfText moves) :
    (lexeme p).OfText moves :=
  ⟨trivial, trivial, hp, ofText_whitespace⟩

theorem ofText_integer :
    (integer : Grammar TextCursor N ParseError.payloads Int).OfText moves := by
  have hdigits : (many1 digit : Grammar TextCursor N ParseError.payloads _).OfText moves :=
    ⟨trivial, ofText_satisfy _⟩
  refine ⟨trivial, trivial, madeOf_firstOf.2 fun p hp => ?_⟩
  rcases List.mem_pair.1 hp with rfl | rfl
  · exact ⟨trivial, trivial, ofText_char '-', hdigits⟩
  · exact ⟨trivial, hdigits⟩

end Grammar

end Triad
