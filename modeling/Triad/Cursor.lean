import Triad.Text.Column

/-!
# Cursors

A cursor is a place in an input.  Its position is the width of what lies before it, and the width
of a character is the length of its UTF-8 encoding; a token counts as one.  `Cursor.Valid` says
that position, remainder and input belong together, and every operation here keeps it.
-/

namespace Triad

/-- How far one element of an input moves the position. -/
class Width (τ : Type) where
  width : τ → Nat

instance : Width Char := ⟨Char.utf8Size⟩

instance : Width Int := ⟨fun _ => 1⟩

/-- The width of a whole input. -/
def Width.total {τ : Type} [Width τ] : List τ → Nat
  | [] => 0
  | x :: xs => Width.width x + Width.total xs

/-- A place in an input.  The position comes first so that two cursors on one input are told apart
without comparing text. -/
structure Cursor (τ : Type) where
  position : Nat
  /-- The unconsumed part of the input. -/
  rest : List τ
  input : List τ
deriving DecidableEq, Repr

/-- A place in a text. -/
abbrev TextCursor := Cursor Char

namespace Cursor

variable {τ : Type}

/-- The beginning of an input. -/
def start (input : List τ) : Cursor τ := ⟨0, input, input⟩

/-- What is left of `xs` after exactly `n`, or nothing if `n` falls inside an element or beyond the
end. -/
def after? [Width τ] : List τ → Nat → Option (List τ)
  | xs, 0 => some xs
  | [], _ + 1 => none
  | x :: xs, n + 1 => if Width.width x ≤ n + 1 then after? xs (n + 1 - Width.width x) else none

/-- The place at position `n`, if there is one. -/
def at? [Width τ] (input : List τ) (n : Nat) : Option (Cursor τ) :=
  (after? input n).map fun rest => ⟨n, rest, input⟩

/-- Why there is no place at position `n` of an input that is `width` wide. -/
def misplaced (n width : Nat) : String :=
  "cursor position " ++ toString n ++ " not a char boundary of input of length " ++ toString width

/-- The place at position `n`, or the reason why there is none. -/
def locate [Width τ] (input : List τ) (n : Nat) : Except String (Cursor τ) :=
  match at? input n with
  | some c => .ok c
  | none => .error (misplaced n (Width.total input))

/-- The next element. -/
def peek? (c : Cursor τ) : Option τ := c.rest.head?

/-- The next element, with the place after it. -/
def next? [Width τ] (c : Cursor τ) : Option (τ × Cursor τ) :=
  match c.rest with
  | [] => none
  | x :: xs => some (x, { c with position := c.position + Width.width x, rest := xs })

/-- The place after `word`, if its elements come next. -/
def skip? [Width τ] [DecidableEq τ] : List τ → Cursor τ → Option (Cursor τ)
  | [], c => some c
  | x :: word, c =>
    match c.next? with
    | some (y, d) => if y = x then skip? word d else none
    | none => none

def isEnd (c : Cursor τ) : Bool := c.rest.isEmpty

/-- The beginning of the same input. -/
def toStart (c : Cursor τ) : Cursor τ := start c.input

/-- The end of the same input. -/
def toEnd [Width τ] (c : Cursor τ) : Cursor τ := ⟨Width.total c.input, [], c.input⟩

/-- The position and the head of the unconsumed text. -/
def text (c : TextCursor) : String :=
  toString c.position ++ ":" ++ String.ofList (Text.Column.barred c.rest)

/-- The column that a trace line starts with at this place. -/
def snippet (c : TextCursor) : String := String.ofList (Text.Column.render c.rest)

/-! ## Valid cursors -/

/-- The remainder ends the input, and the position is the width of what lies before it. -/
def Valid [Width τ] (c : Cursor τ) : Prop :=
  ∃ consumed, c.input = consumed ++ c.rest ∧ Width.total consumed = c.position

end Cursor

namespace Width

variable {τ : Type} [Width τ]

@[simp] theorem total_nil : total ([] : List τ) = 0 := rfl

@[simp] theorem total_cons (x : τ) (xs : List τ) : total (x :: xs) = width x + total xs := rfl

@[simp] theorem total_append (xs ys : List τ) : total (xs ++ ys) = total xs + total ys := by
  induction xs with
  | nil => simp
  | cons x xs ih => simp [ih, Nat.add_assoc]

end Width

namespace Cursor

variable {τ : Type} [Width τ]

theorem valid_start (input : List τ) : (start input).Valid := ⟨[], rfl, rfl⟩

theorem valid_toStart (c : Cursor τ) : c.toStart.Valid := valid_start c.input

theorem valid_next? {c d : Cursor τ} {x : τ} (valid : c.Valid) (h : c.next? = some (x, d)) :
    d.Valid := by
  obtain ⟨consumed, split, width⟩ := valid
  unfold next? at h
  split at h
  next => contradiction
  next y ys rest =>
    obtain ⟨rfl, rfl⟩ := by simpa using h
    refine ⟨consumed ++ [y], ?_, ?_⟩
    · simp [split, rest]
    · simp [width]

/-- What `after?` finds is what follows a part of exactly the width asked for. -/
theorem after?_eq_some {xs rest : List τ} {n : Nat} (h : after? xs n = some rest) :
    ∃ consumed, xs = consumed ++ rest ∧ Width.total consumed = n := by
  fun_induction after? xs n with
  | case1 xs => exact ⟨[], by simpa using h, rfl⟩
  | case2 => contradiction
  | case3 x xs n fits ih =>
    obtain ⟨consumed, rfl, width⟩ := ih h
    exact ⟨x :: consumed, rfl, by simp [width]; omega⟩
  | case4 => contradiction

theorem valid_at? {input : List τ} {n : Nat} {c : Cursor τ} (h : at? input n = some c) :
    c.Valid ∧ c.input = input ∧ c.position = n := by
  obtain ⟨rest, found, rfl⟩ := Option.map_eq_some_iff.1 h
  exact ⟨after?_eq_some found, rfl, rfl⟩

end Cursor

end Triad
