import Mathlib.Data.List.TakeWhile
import Mathlib.Data.String.Basic
import Triad.Grammar.Text
import Triad.Proofs.Meaning.Repetition

/-!
# Scanning text

The grammars of text read characters one by one.  This file says what the
ones without structure of their own read: single characters, runs of
characters, blanks, and a lexeme with the blanks behind it.

* `Cursor.forward` moves a cursor over the text that it has read.
* `Text.Apart accept s`: what follows a longest run is apart from it, it does
  not begin with a character of the run.
* `Room rounds c`: a repetition can go on up to the end of the text.  There is
  room if the text is `Text.Addressable` and there are rounds for all of it.

A longest run is read as a whole (`Reading.many_taken`).  The statements that
are read off a success need no room.
-/

namespace Triad

/-! ## Cursors that move forward -/

namespace Cursor

variable {τ : Type} [Width τ]

/-- The place after `s`, which comes next. -/
def forward (c : Cursor τ) (s : List τ) : Cursor τ :=
  ⟨c.position + Width.total s, c.rest.drop s.length, c.input⟩

@[simp] theorem forward_nil (c : Cursor τ) : c.forward [] = c := rfl

@[simp] theorem forward_forward (c : Cursor τ) (s t : List τ) :
    (c.forward s).forward t = c.forward (s ++ t) := by
  simp [forward, Nat.add_assoc]

theorem rest_forward {c : Cursor τ} {s t : List τ} (h : c.rest = s ++ t) :
    (c.forward s).rest = t := by
  simp [forward, h]

theorem next?_of_rest {c : Cursor τ} {x : τ} {t : List τ} (h : c.rest = x :: t) :
    c.next? = some (x, c.forward [x]) := by
  simp [next?, forward, h]

theorem next?_of_end {c : Cursor τ} (h : c.rest = []) : c.next? = none := by
  simp [next?, h]

end Cursor

namespace Text

/-! ## Runs of characters -/

/-- The text does not begin with a character that `accept` accepts. -/
def Apart (accept : Char → Bool) (s : List Char) : Prop := ∀ x ∈ s.head?, accept x = false

variable {accept : Char → Bool}

@[simp] theorem apart_nil : Apart accept [] := by simp [Apart]

theorem apart_cons {x : Char} {s : List Char} (hx : accept x = false) :
    Apart accept (x :: s) := by simp [Apart, hx]

theorem apart_or {accept' : Char → Bool} {s : List Char} :
    Apart (fun x => accept x || accept' x) s ↔ Apart accept s ∧ Apart accept' s := by
  cases s with
  | nil => simp
  | cons x s => simp [Apart]

theorem Apart.takeWhile_eq_nil {s : List Char} (hs : Apart accept s) :
    s.takeWhile accept = [] := by
  cases s with
  | nil => rfl
  | cons x s =>
    have hx : accept x = false := hs x rfl
    rw [List.takeWhile_cons, hx]
    rfl

theorem Apart.dropWhile_eq_self {s : List Char} (hs : Apart accept s) :
    s.dropWhile accept = s := by
  cases s with
  | nil => rfl
  | cons x s =>
    have hx : accept x = false := hs x rfl
    rw [List.dropWhile_cons, hx]
    rfl

/-- A text is a longest run and a rest that is apart from it. -/
theorem exists_run (accept : Char → Bool) (s : List Char) :
    ∃ u t, s = u ++ t ∧ (∀ x ∈ u, accept x = true) ∧ Apart accept t := by
  refine ⟨s.takeWhile accept, s.dropWhile accept, ?_, ?_, ?_⟩
  · rw [List.takeWhile_append_dropWhile]
  · exact fun x hx => List.mem_takeWhile_imp hx
  · intro x hx
    have h := List.head?_dropWhile_not accept s
    rw [Option.mem_def.1 hx] at h
    simpa using h

end Text

/-- A repetition at `c` may go on up to the end of the text. -/
structure Room (rounds : Nat) (c : TextCursor) : Prop where
  rounds : c.rest.length < rounds
  limit : c.rest.length < Bound.limit

theorem Room.mono {rounds : Nat} {c d : TextCursor} (h : Room rounds c)
    (hd : d.rest.length ≤ c.rest.length) : Room rounds d :=
  ⟨Nat.lt_of_le_of_lt hd h.rounds, Nat.lt_of_le_of_lt hd h.limit⟩

/-- Text that has been read leaves room for the rest. -/
theorem Room.forward {rounds : Nat} {c : TextCursor} (h : Room rounds c) (s : List Char) :
    Room rounds (c.forward s) :=
  h.mono (by simp [Cursor.forward])

/-- The text fits in memory: its length in bytes is a signed 64-bit word. -/
def Text.Addressable (text : String) : Prop := text.utf8ByteSize < 2 ^ 63

instance (text : String) : Decidable (Text.Addressable text) :=
  inferInstanceAs (Decidable (_ < _))

theorem Text.length_le_utf8Len (s : List Char) : s.length ≤ String.utf8Len s := by
  induction s with
  | nil => rfl
  | cons x s ih =>
    have hx := x.utf8Size_pos
    rw [List.length_cons, String.utf8Len_cons]
    omega

theorem Room.start {text : String} {rounds : Nat} (haddressable : Text.Addressable text)
    (hrounds : text.toList.length < rounds) : Room rounds (Cursor.start text.toList) := by
  refine ⟨hrounds, ?_⟩
  have hlength := Text.length_le_utf8Len text.toList
  rw [← String.utf8ByteSize_ofList, String.ofList_toList] at hlength
  unfold Text.Addressable at haddressable
  show text.toList.length < 2 ^ 64 - 1
  omega

namespace Reading

variable {P : Payloads} {α : Type} {accept : Char → Bool} {c d : TextCursor} {x : Char}

/-! ## One character -/

/-- The next character, if `accept` accepts it. -/
def taken (accept : Char → Bool) : Reading TextCursor P Char := fun c =>
  match c.rest with
  | x :: _ => if accept x then .ok (.success x (c.forward [x])) else .ok (.failure P.noMatch)
  | [] => .ok (.failure P.noMatch)

theorem primitive_next {m : Matcher TextCursor Char} (hm : m.match? = Matcher.next accept) :
    primitive (P := P) m = taken accept := by
  funext c
  unfold primitive taken
  rw [hm, Matcher.next]
  cases hc : c.rest with
  | nil => rw [Cursor.next?_of_end hc]
  | cons x t =>
    rw [Cursor.next?_of_rest hc]
    cases hx : accept x <;> simp [hx]

theorem taken_of_accept {t : List Char} (hc : c.rest = x :: t) (hx : accept x = true) :
    taken (P := P) accept c = .ok (.success x (c.forward [x])) := by
  simp [taken, hc, hx]

theorem taken_of_apart (hc : Text.Apart accept c.rest) :
    taken (P := P) accept c = .ok (.failure P.noMatch) := by
  unfold taken
  cases hrest : c.rest with
  | nil => rfl
  | cons x t =>
    have hx : accept x = false := hc x (by rw [hrest]; rfl)
    simp [hx]

theorem apart_of_taken {f : P.Failure} (h : taken (P := P) accept c = .ok (.failure f)) :
    Text.Apart accept c.rest := by
  intro x hx
  obtain ⟨t, hc⟩ := List.head?_eq_some_iff.1 hx
  rw [Bool.eq_false_iff]
  intro haccept
  rw [taken_of_accept hc haccept] at h
  simp at h

theorem taken_eq_success (h : taken (P := P) accept c = .ok (.success x d)) :
    accept x = true ∧ c.rest = x :: d.rest ∧ d = c.forward [x] := by
  unfold taken at h
  cases hrest : c.rest with
  | nil => simp [hrest] at h
  | cons y t =>
    cases hy : accept y with
    | false => simp [hrest, hy] at h
    | true =>
      obtain ⟨rfl, rfl⟩ : y = x ∧ c.forward [y] = d := by simpa [hrest, hy] using h
      rw [Cursor.rest_forward (s := [y]) hrest]
      exact ⟨hy, rfl, rfl⟩

theorem taken_ne_error {e : P.Error} : taken accept c ≠ .ok (.error e) := by
  unfold taken
  split
  · split <;> simp
  · simp

theorem taken_answers : (taken (P := P) accept).Answers c := by
  unfold Answers taken
  split
  · split <;> exact ⟨_, rfl⟩
  · exact ⟨_, rfl⟩

theorem taken_moves : Moves (taken (P := P) accept) := by
  intro c x h
  obtain ⟨_, hrest, _⟩ := taken_eq_success h
  have hlength := congrArg List.length hrest
  rw [List.length_cons] at hlength
  omega

/-! ## Runs of characters -/

theorem repeats_taken {s t : List Char} (hc : c.rest = s ++ t) (hs : ∀ x ∈ s, accept x = true) :
    Repeats (taken (P := P) accept) c s (c.forward s) := by
  induction s generalizing c with
  | nil => exact .nil
  | cons x s ih =>
    have hstep := taken_of_accept (P := P) hc (hs x List.mem_cons_self)
    have hrest := ih (Cursor.rest_forward (s := [x]) hc) fun y hy =>
      hs y (List.mem_cons_of_mem _ hy)
    rw [Cursor.forward_forward] at hrest
    exact .cons hstep hrest

theorem taken_of_repeats {s : List Char} (h : Repeats (taken (P := P) accept) c s d) :
    (∀ x ∈ s, accept x = true) ∧ c.rest = s ++ d.rest ∧ d = c.forward s := by
  induction h with
  | nil => simp
  | @cons c d rest x s hstep _ ih =>
    obtain ⟨hx, hc, rfl⟩ := taken_eq_success hstep
    obtain ⟨hs, hd, rfl⟩ := ih
    rw [hd] at hc
    exact ⟨List.forall_mem_cons.2 ⟨hx, hs⟩, hc, Cursor.forward_forward c [x] s⟩

variable {rounds : Nat}

/-- A run that ends where the text goes on otherwise is read as a whole. -/
theorem many_taken (hroom : Room rounds c) {s t : List Char} (hc : c.rest = s ++ t)
    (hs : ∀ x ∈ s, accept x = true) (ht : Text.Apart accept t) (min : Nat) :
    many rounds min Bound.limit (taken (P := P) accept) c =
      .ok (settle min s (c.forward s)) := by
  have hlength : s.length ≤ c.rest.length := by
    rw [hc, List.length_append]
    omega
  have hend : taken (P := P) accept (c.forward s) = .ok (.failure P.noMatch) :=
    taken_of_apart (by rwa [Cursor.rest_forward hc])
  have hrounds := hroom.rounds
  have hlimit := hroom.limit
  exact many_of_failure taken_moves (repeats_taken hc hs) (by omega) (by omega) hend min

end Reading

/-! ## Blanks -/

theorem Text.isBlank_of_isDigit {x : Char} (h : x.isDigit = true) : Text.isBlank x = false := by
  rw [Bool.eq_false_iff]
  intro hblank
  obtain ⟨r, hr, hlow, hhigh⟩ := Text.isBlank_iff.1 hblank
  have hx : 48 ≤ x.toNat ∧ x.toNat ≤ 57 := by
    simpa [Char.isDigit, UInt32.le_iff_toNat_le] using h
  have hapart : ∀ r ∈ Text.blankRanges, r.2 < 48 ∨ 57 < r.1 := by decide
  have := hapart r hr
  omega

/-- Any number of blank characters. -/
structure Blanks where
  chars : List Char
  blank : ∀ x ∈ chars, Text.isBlank x = true

/-- A text is some blanks and a rest that does not begin with one. -/
theorem Blanks.exists_run (s : List Char) :
    ∃ (w : Blanks) (t : List Char), s = w.chars ++ t ∧ Text.Apart Text.isBlank t := by
  obtain ⟨u, t, hs, hu, ht⟩ := Text.exists_run Text.isBlank s
  exact ⟨⟨u, hu⟩, t, hs, ht⟩

namespace Reading

variable {P : Payloads} {α : Type} {rounds : Nat} {p : Reading TextCursor P α}
  {c d : TextCursor} {a : α} {e : P.Error}

def whitespace (rounds : Nat) : Reading TextCursor P Unit :=
  map (fun _ => ()) (many rounds 0 Bound.limit (taken Text.isBlank))

/-- Skips the blanks that follow. -/
def lexeme (rounds : Nat) (p : Reading TextCursor P α) : Reading TextCursor P α :=
  map Prod.fst (pair p (whitespace rounds))

theorem whitespace_of_blanks (hroom : Room rounds c) {w : Blanks} {t : List Char}
    (hc : c.rest = w.chars ++ t) (ht : Text.Apart Text.isBlank t) :
    whitespace (P := P) rounds c = .ok (.success () (c.forward w.chars)) := by
  have hmany := many_taken (P := P) hroom hc w.blank ht 0
  rw [settle_zero] at hmany
  exact map_eq_success_iff.2 ⟨_, hmany, rfl⟩

theorem whitespace_eq_success (h : whitespace (P := P) rounds c = .ok (.success () d)) :
    ∃ w : Blanks, c.rest = w.chars ++ d.rest ∧ d = c.forward w.chars := by
  obtain ⟨s, hmany, -⟩ := map_eq_success_iff.1 h
  obtain ⟨hs, hc, hd⟩ := taken_of_repeats (many_eq_success hmany).1
  exact ⟨⟨s, hs⟩, hc, hd⟩

/-- All blanks are skipped, up to the bound of a repetition. -/
theorem whitespace_ends (h : whitespace (P := P) rounds c = .ok (.success () d)) :
    ∃ w : Blanks, c.rest = w.chars ++ d.rest ∧
      (w.chars.length < Bound.limit → Text.Apart Text.isBlank d.rest) := by
  obtain ⟨s, hmany, -⟩ := map_eq_success_iff.1 h
  obtain ⟨hcollect, -⟩ := many_eq_success_iff.1 hmany
  obtain ⟨hs, hc, -⟩ := taken_of_repeats (collect_eq_ok hcollect)
  refine ⟨⟨s, hs⟩, hc, fun hfew => ?_⟩
  dsimp only at hfew
  rcases collect_ends taken_moves hcollect with hmax | ⟨f, hend⟩
  · omega
  · exact apart_of_taken hend

theorem whitespace_ne_failure {f : P.Failure} : whitespace rounds c ≠ .ok (.failure f) := by
  intro h
  exact many0_ne_failure (map_eq_failure_iff.1 h)

theorem whitespace_ne_error : whitespace rounds c ≠ .ok (.error e) := by
  intro h
  obtain ⟨_, _, _, herror⟩ := many0_eq_error (map_eq_error_iff.1 h)
  exact taken_ne_error herror

theorem lexeme_of_success (hp : p c = .ok (.success a d)) (hroom : Room rounds d) {w : Blanks}
    {t : List Char} (hd : d.rest = w.chars ++ t) (ht : Text.Apart Text.isBlank t) :
    lexeme rounds p c = .ok (.success a (d.forward w.chars)) := by
  have hblanks := whitespace_of_blanks (P := P) hroom hd ht
  exact map_eq_success_iff.2 ⟨(a, ()), pair_eq_success_iff.2 ⟨d, hp, hblanks⟩, rfl⟩

theorem lexeme_eq_success {rest : TextCursor} (h : lexeme rounds p c = .ok (.success a rest)) :
    ∃ (d : TextCursor) (w : Blanks), p c = .ok (.success a d) ∧ d.rest = w.chars ++ rest.rest := by
  obtain ⟨⟨a', u⟩, hpair, rfl⟩ := map_eq_success_iff.1 h
  obtain ⟨d, hp, hblanks⟩ := pair_eq_success_iff.1 hpair
  obtain ⟨w, hd, -⟩ := whitespace_eq_success hblanks
  exact ⟨d, w, hp, hd⟩

theorem lexeme_eq_failure_iff {f : P.Failure} :
    lexeme rounds p c = .ok (.failure f) ↔ p c = .ok (.failure f) := by
  unfold lexeme
  rw [map_eq_failure_iff, pair_eq_failure_iff]

theorem lexeme_eq_error_iff : lexeme rounds p c = .ok (.error e) ↔ p c = .ok (.error e) := by
  unfold lexeme
  rw [map_eq_error_iff, pair_eq_error_iff]
  refine ⟨fun h => ?_, .inl⟩
  rcases h with h | ⟨_, _, _, h | ⟨_, _, h⟩⟩
  · exact h
  · exact absurd h whitespace_ne_error
  · exact absurd h whitespace_ne_failure

theorem whitespace_answers (hroom : Room rounds c) :
    (whitespace (P := P) rounds).Answers c := by
  obtain ⟨w, t, hc, ht⟩ := Blanks.exists_run c.rest
  exact ⟨_, whitespace_of_blanks hroom hc ht⟩

/-- A lexeme answers if its part does. -/
theorem lexeme_answers (hp : p.Answers c)
    (hroom : ∀ a d, p c = .ok (.success a d) → Room rounds d) : (lexeme rounds p).Answers c :=
  .map _ (.pair hp fun a d h => whitespace_answers (hroom a d h))

/-! ## Symbols -/

/-- The character `x` and the blanks behind it. -/
def symbol (rounds : Nat) (x : Char) : Reading TextCursor P Char :=
  lexeme rounds (taken (· = x))

variable {x y : Char}

theorem symbol_of_char (hroom : Room rounds c) {w : Blanks} {t : List Char}
    (hc : c.rest = x :: (w.chars ++ t)) (ht : Text.Apart Text.isBlank t) :
    symbol (P := P) rounds x c = .ok (.success x (c.forward (x :: w.chars))) := by
  have htaken : taken (P := P) (· = x) c = .ok (.success x (c.forward [x])) :=
    taken_of_accept hc (decide_eq_true rfl)
  have hlexeme := lexeme_of_success htaken (hroom.forward [x])
    (Cursor.rest_forward (s := [x]) hc) ht
  rwa [Cursor.forward_forward] at hlexeme

theorem symbol_of_apart (hc : Text.Apart (· = x) c.rest) :
    symbol (P := P) rounds x c = .ok (.failure P.noMatch) :=
  lexeme_eq_failure_iff.2 (taken_of_apart hc)

theorem symbol_eq_success (h : symbol (P := P) rounds x c = .ok (.success y d)) :
    y = x ∧ ∃ w : Blanks, c.rest = x :: (w.chars ++ d.rest) := by
  obtain ⟨d', w, htaken, hd⟩ := lexeme_eq_success h
  obtain ⟨hy, hc, -⟩ := taken_eq_success htaken
  obtain rfl := of_decide_eq_true hy
  exact ⟨rfl, w, by rw [hc, hd]⟩

/-- Behind a symbol, all blanks are skipped. -/
theorem symbol_ends (h : symbol (P := P) rounds x c = .ok (.success y d)) :
    y = x ∧ ∃ w : Blanks, c.rest = x :: (w.chars ++ d.rest) ∧
      (w.chars.length < Bound.limit → Text.Apart Text.isBlank d.rest) := by
  obtain ⟨⟨_, _⟩, hpair, rfl⟩ := map_eq_success_iff.1 h
  obtain ⟨d', htaken, hblanks⟩ := pair_eq_success_iff.1 hpair
  obtain ⟨w, hd, hend⟩ := whitespace_ends hblanks
  obtain ⟨hy, hc, -⟩ := taken_eq_success htaken
  obtain rfl := of_decide_eq_true hy
  exact ⟨rfl, w, by rw [hc, hd], hend⟩

theorem symbol_ne_error : symbol rounds x c ≠ .ok (.error e) := by
  intro h
  exact taken_ne_error (lexeme_eq_error_iff.1 h)

theorem symbol_answers (hroom : Room rounds c) : (symbol (P := P) rounds x).Answers c := by
  refine lexeme_answers taken_answers fun a d hd => ?_
  obtain ⟨_, _, rfl⟩ := taken_eq_success hd
  exact hroom.forward _

end Reading

namespace Grammar

variable {N : Payloads → Type → Type} {P : Payloads} {α : Type} {rounds : Nat}
  {named : ∀ {P : Payloads} {α : Type}, N P α → Reading TextCursor P α}

@[simp] theorem reading_satisfy (accept : Char → Bool) :
    (satisfy accept : Grammar TextCursor N P Char).reading rounds named =
      Reading.taken accept :=
  Reading.primitive_next rfl

@[simp] theorem reading_char (x : Char) :
    (char x : Grammar TextCursor N P Char).reading rounds named = Reading.taken (· = x) :=
  Reading.primitive_next rfl

@[simp] theorem reading_whitespace :
    (whitespace : Grammar TextCursor N P Unit).reading rounds named =
      Reading.whitespace rounds := by
  rw [whitespace, reading_map, reading_many0, reading_satisfy]
  rfl

@[simp] theorem reading_lexeme (p : Grammar TextCursor N P α) :
    (lexeme p).reading rounds named = Reading.lexeme rounds (p.reading rounds named) := by
  show Reading.map Prod.fst (Reading.pair (p.reading rounds named)
    ((whitespace : Grammar TextCursor N P Unit).reading rounds named)) = _
  rw [reading_whitespace]
  rfl

/-- A character with the blanks behind it is a symbol. -/
theorem reading_lexeme_char (x : Char) :
    (lexeme (char x) : Grammar TextCursor N P Char).reading rounds named =
      Reading.symbol rounds x := by
  rw [reading_lexeme, reading_char]
  rfl

end Grammar

end Triad
