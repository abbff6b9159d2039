import Triad.Proofs.Text.Scan

/-!
# Numerals

A numeral is an optional minus sign and one or more decimal digits.  The
grammar of integers reads a numeral with all the digits that are there, and
answers by its value:

* `integer_of_fits`: the value is a word, and is the value of the success.
* `integer_of_overflow`: the value is no word.  This is an error, whose
  message tells the side on which the value lies.
* `integer_of_sign`: a sign without digits is an error.
* `integer_of_apart`: without sign and digit nothing matches.

Every text begins in one of these four ways (`Numeral.exists_or`).
-/

namespace Triad

structure Numeral where
  negative : Bool
  digits : List Char
  nonempty : digits ≠ []
  decimal : ∀ x ∈ digits, x.isDigit = true

namespace Numeral

def text (n : Numeral) : List Char := if n.negative then '-' :: n.digits else n.digits

/-- The integer that the numeral denotes, which may be no word. -/
def value (n : Numeral) : Int := Decimal.denotes n.negative n.digits

/-- The side on which the value lies when it is no word. -/
def overflow (n : Numeral) : Decimal.Overflow := if n.negative then .tooSmall else .tooLarge

/-- A numeral may begin with the character. -/
def isStart (x : Char) : Bool := x = '-' || x.isDigit

theorem apart_isStart_iff {s : List Char} :
    Text.Apart isStart s ↔ Text.Apart (· = '-') s ∧ Text.Apart Char.isDigit s := Text.apart_or

theorem text_head (n : Numeral) : ∃ x t, n.text = x :: t ∧ isStart x = true := by
  obtain ⟨negative, digits, hnonempty, hdecimal⟩ := n
  cases negative with
  | true => exact ⟨'-', digits, rfl, rfl⟩
  | false =>
    cases digits with
    | nil => exact absurd rfl hnonempty
    | cons x t =>
      have hx := hdecimal x List.mem_cons_self
      exact ⟨x, t, rfl, by simp [isStart, hx]⟩

theorem read_of_fits {n : Numeral} (h : Word.Fits n.value) :
    Decimal.read n.negative n.digits = .ok n.value := by
  have hchecked : Word.checked (Decimal.denotes n.negative n.digits) = some n.value :=
    Word.checked_eq_some_iff.2 ⟨h, rfl⟩
  unfold Decimal.read
  rw [hchecked]

theorem read_of_overflow {n : Numeral} (h : ¬ Word.Fits n.value) :
    Decimal.read n.negative n.digits = .error n.overflow := by
  have hchecked : Word.checked (Decimal.denotes n.negative n.digits) = none := if_neg h
  unfold Decimal.read
  rw [hchecked]
  rfl

theorem isBlank_of_isStart {x : Char} (hx : isStart x = true) : Text.isBlank x = false := by
  rcases Bool.or_eq_true_iff.1 hx with h | h
  · rw [of_decide_eq_true h]
    rfl
  · exact Text.isBlank_of_isDigit h

/-- A numeral does not begin with a blank. -/
theorem apart_blank (n : Numeral) (t : List Char) : Text.Apart Text.isBlank (n.text ++ t) := by
  obtain ⟨x, s, hs, hx⟩ := n.text_head
  rw [hs]
  exact Text.apart_cons (isBlank_of_isStart hx)

theorem isDigit_ne_minus {x : Char} (hx : x.isDigit = true) : x ≠ '-' := by
  rintro rfl
  contradiction

/-- A text begins with a numeral and all its digits, with a sign that no digit
follows, or with neither. -/
theorem exists_or (s : List Char) :
    (∃ (n : Numeral) (t : List Char), s = n.text ++ t ∧ Text.Apart Char.isDigit t) ∨
      (∃ t, s = '-' :: t ∧ Text.Apart Char.isDigit t) ∨ Text.Apart isStart s := by
  cases s with
  | nil => exact .inr (.inr Text.apart_nil)
  | cons x s =>
    by_cases hminus : x = '-'
    · obtain ⟨u, t, rfl, hu, ht⟩ := Text.exists_run Char.isDigit s
      subst hminus
      by_cases hempty : u = []
      · subst hempty
        exact .inr (.inl ⟨t, rfl, ht⟩)
      · exact .inl ⟨⟨true, u, hempty, hu⟩, t, rfl, ht⟩
    · by_cases hdigit : x.isDigit = true
      · obtain ⟨u, t, hs, hu, ht⟩ := Text.exists_run Char.isDigit (x :: s)
        by_cases hempty : u = []
        · subst hempty
          rw [List.nil_append] at hs
          have hx : x.isDigit = false := ht x (by rw [← hs]; rfl)
          exact absurd hdigit (Bool.eq_false_iff.1 hx)
        · exact .inl ⟨⟨false, u, hempty, hu⟩, t, hs, ht⟩
      · exact .inr (.inr (Text.apart_cons (by simp [isStart, hminus, hdigit])))

end Numeral

/-- Digits do not go on behind blanks. -/
theorem Blanks.apart_digit (w : Blanks) {t : List Char} (ht : Text.Apart Char.isDigit t) :
    Text.Apart Char.isDigit (w.chars ++ t) := by
  obtain ⟨chars, hblank⟩ := w
  cases chars with
  | nil => exact ht
  | cons x chars =>
    have hx := hblank x List.mem_cons_self
    refine Text.apart_cons (Bool.eq_false_iff.2 fun hdigit => ?_)
    rw [Text.isBlank_of_isDigit hdigit] at hx
    contradiction

namespace Reading

variable {P : Payloads} {rounds : Nat} {c d : TextCursor}

/-! ## Digits -/

def digits (rounds : Nat) : Reading TextCursor P (List Char) :=
  many rounds 1 Bound.limit (taken Char.isDigit)

theorem digits_of_run (hroom : Room rounds c) {s t : List Char} (hc : c.rest = s ++ t)
    (hs : ∀ x ∈ s, x.isDigit = true) (ht : Text.Apart Char.isDigit t) (hne : s ≠ []) :
    digits (P := P) rounds c = .ok (.success s (c.forward s)) := by
  have hmany := many_taken (P := P) hroom hc hs ht 1
  have hlength : 1 ≤ s.length := List.length_pos_iff.2 hne
  rwa [settle, if_pos hlength] at hmany

theorem digits_of_apart (hroom : Room rounds c) (hc : Text.Apart Char.isDigit c.rest) :
    digits (P := P) rounds c = .ok (.failure P.noMatch) :=
  many_taken (P := P) (s := []) hroom rfl nofun hc 1

theorem digits_eq_success {s : List Char}
    (h : digits (P := P) rounds c = .ok (.success s d)) :
    s ≠ [] ∧ (∀ x ∈ s, x.isDigit = true) ∧ c.rest = s ++ d.rest := by
  obtain ⟨hrepeats, hlength⟩ := many_eq_success h
  obtain ⟨hs, hc, -⟩ := taken_of_repeats hrepeats
  exact ⟨List.ne_nil_of_length_pos hlength, hs, hc⟩

/-! ## Literals -/

/-- The sign and the digits of a numeral. -/
def literal (rounds : Nat) : Reading TextCursor P (Bool × List Char) :=
  choice
    [map (fun (_, ds) => (true, ds)) (pair (taken (· = '-')) (digits rounds)),
      map (fun ds => (false, ds)) (digits rounds)]

theorem literal_of_negative (hroom : Room rounds c) {s t : List Char}
    (hc : c.rest = '-' :: s ++ t) (hs : ∀ x ∈ s, x.isDigit = true)
    (ht : Text.Apart Char.isDigit t) (hne : s ≠ []) :
    literal (P := P) rounds c = .ok (.success (true, s) (c.forward ('-' :: s))) := by
  have hsign : taken (P := P) (· = '-') c = .ok (.success '-' (c.forward ['-'])) :=
    taken_of_accept hc rfl
  have hdigits := digits_of_run (P := P) (hroom.forward ['-'])
    (Cursor.rest_forward (s := ['-']) hc) hs ht hne
  rw [Cursor.forward_forward] at hdigits
  have hpair := pair_eq_success_iff.2 ⟨_, hsign, hdigits⟩
  exact choice_of_success (map_eq_success_iff.2 ⟨_, hpair, rfl⟩)

/-- Without a sign the first alternative fails. -/
theorem literal_eq_of_unsigned (hc : Text.Apart (· = '-') c.rest) :
    literal (P := P) rounds c = choice [map (fun ds => (false, ds)) (digits rounds)] c := by
  have hsign := taken_of_apart (P := P) hc
  have hfirst : map (fun ((_, ds) : Char × List Char) => (true, ds))
      (pair (taken (· = '-')) (digits rounds)) c = .ok (.failure P.noMatch) :=
    map_eq_failure_iff.2 (pair_eq_failure_iff.2 hsign)
  exact choice_of_failure hfirst

theorem literal_of_positive (hroom : Room rounds c) {s t : List Char} (hc : c.rest = s ++ t)
    (hs : ∀ x ∈ s, x.isDigit = true) (ht : Text.Apart Char.isDigit t) (hne : s ≠ []) :
    literal (P := P) rounds c = .ok (.success (false, s) (c.forward s)) := by
  have hsign : Text.Apart (· = '-') c.rest := by
    cases s with
    | nil => exact absurd rfl hne
    | cons x s =>
      have hx := Numeral.isDigit_ne_minus (hs x List.mem_cons_self)
      rw [hc]
      exact Text.apart_cons (by simp [hx])
  rw [literal_eq_of_unsigned hsign]
  have hdigits := digits_of_run (P := P) hroom hc hs ht hne
  exact choice_of_success (map_eq_success_iff.2 ⟨_, hdigits, rfl⟩)

theorem literal_of_numeral (hroom : Room rounds c) {n : Numeral} {t : List Char}
    (hc : c.rest = n.text ++ t) (ht : Text.Apart Char.isDigit t) :
    literal (P := P) rounds c =
      .ok (.success (n.negative, n.digits) (c.forward n.text)) := by
  obtain ⟨negative, ds, hnonempty, hdecimal⟩ := n
  cases negative with
  | true => exact literal_of_negative hroom hc hdecimal ht hnonempty
  | false => exact literal_of_positive hroom hc hdecimal ht hnonempty

theorem literal_of_sign (hroom : Room rounds c) {t : List Char} (hc : c.rest = '-' :: t)
    (ht : Text.Apart Char.isDigit t) :
    literal (P := P) rounds c = .ok (.error P.incomplete) := by
  have hsign : taken (P := P) (· = '-') c = .ok (.success '-' (c.forward ['-'])) :=
    taken_of_accept hc rfl
  have hrest : (c.forward ['-']).rest = t := Cursor.rest_forward hc
  have hdigits := digits_of_apart (P := P) (hroom.forward ['-']) (by rwa [hrest])
  have hpair : pair (taken (· = '-')) (digits rounds) c = .ok (.error P.incomplete) :=
    pair_eq_error_iff.2 (.inr ⟨_, _, hsign, .inr ⟨rfl, _, hdigits⟩⟩)
  exact choice_of_error (map_eq_error_iff.2 hpair)

theorem literal_of_apart (hroom : Room rounds c) (hc : Text.Apart Numeral.isStart c.rest) :
    literal (P := P) rounds c = .ok (.failure P.noMatch) := by
  obtain ⟨hsign, hdigit⟩ := Numeral.apart_isStart_iff.1 hc
  rw [literal_eq_of_unsigned hsign]
  exact choice_of_failure (map_eq_failure_iff.2 (digits_of_apart hroom hdigit))

theorem literal_eq_success {negative : Bool} {ds : List Char}
    (h : literal (P := P) rounds c = .ok (.success (negative, ds) d)) :
    ∃ n : Numeral, n.negative = negative ∧ n.digits = ds ∧ c.rest = n.text ++ d.rest := by
  rcases choice_cons_iff.1 h with ⟨h, -⟩ | ⟨-, h⟩
  · obtain ⟨⟨x, ds'⟩, hpair, hvalue⟩ := map_eq_success_iff.1 h
    obtain ⟨rest, hsign, hdigits⟩ := pair_eq_success_iff.1 hpair
    obtain ⟨hx, hc, -⟩ := taken_eq_success hsign
    obtain ⟨hne, hs, hrest⟩ := digits_eq_success hdigits
    obtain ⟨rfl, rfl⟩ := Prod.mk.inj hvalue
    refine ⟨⟨true, ds', hne, hs⟩, rfl, rfl, ?_⟩
    rw [hc, hrest, of_decide_eq_true hx]
    rfl
  · rcases choice_cons_iff.1 h with ⟨h, -⟩ | ⟨-, h⟩
    · obtain ⟨ds', hdigits, hvalue⟩ := map_eq_success_iff.1 h
      obtain ⟨hne, hs, hc⟩ := digits_eq_success hdigits
      obtain ⟨rfl, rfl⟩ := Prod.mk.inj hvalue
      exact ⟨⟨false, ds', hne, hs⟩, rfl, rfl, hc⟩
    · simp [choice] at h

/-! ## Integers -/

/-- The word that a literal denotes, or an error. -/
def integer (rounds : Nat) : Reading TextCursor ParseError.payloads Int :=
  check (fun (negative, ds) =>
    (Decimal.read negative ds).mapError fun o => ParseError.fatal o.message) (literal rounds)

theorem integer_of_fits (hroom : Room rounds c) {n : Numeral} {t : List Char}
    (hc : c.rest = n.text ++ t) (ht : Text.Apart Char.isDigit t) (hfits : Word.Fits n.value) :
    integer rounds c = .ok (.success n.value (c.forward n.text)) := by
  refine check_eq_success_iff.2 ⟨_, literal_of_numeral hroom hc ht, ?_⟩
  dsimp only
  rw [Numeral.read_of_fits hfits]
  rfl

theorem integer_of_overflow (hroom : Room rounds c) {n : Numeral} {t : List Char}
    (hc : c.rest = n.text ++ t) (ht : Text.Apart Char.isDigit t) (hfits : ¬ Word.Fits n.value) :
    integer rounds c = .ok (.error (.fatal n.overflow.message)) := by
  refine check_eq_error_iff.2 (.inr ⟨_, _, literal_of_numeral hroom hc ht, ?_⟩)
  dsimp only
  rw [Numeral.read_of_overflow hfits]
  rfl

theorem integer_of_sign (hroom : Room rounds c) {t : List Char} (hc : c.rest = '-' :: t)
    (ht : Text.Apart Char.isDigit t) : integer rounds c = .ok (.error .incomplete) :=
  check_eq_error_iff.2 (.inl (literal_of_sign hroom hc ht))

theorem integer_of_apart (hroom : Room rounds c) (hc : Text.Apart Numeral.isStart c.rest) :
    integer rounds c = .ok (.failure .noMatch) :=
  check_eq_failure_iff.2 (literal_of_apart hroom hc)

theorem integer_eq_success {v : Int} (h : integer rounds c = .ok (.success v d)) :
    ∃ n : Numeral, c.rest = n.text ++ d.rest ∧ Word.Fits n.value ∧ n.value = v := by
  obtain ⟨⟨negative, ds⟩, hliteral, hread⟩ := check_eq_success_iff.1 h
  obtain ⟨n, rfl, rfl, hc⟩ := literal_eq_success hliteral
  dsimp only at hread
  refine ⟨n, hc, ?_⟩
  by_cases hfits : Word.Fits n.value
  · rw [Numeral.read_of_fits hfits] at hread
    exact ⟨hfits, Except.ok.inj hread⟩
  · rw [Numeral.read_of_overflow hfits] at hread
    contradiction

/-- An error of the grammar of integers is a lone sign or a value that is no word. -/
theorem integer_eq_error (hroom : Room rounds c) {e : ParseError}
    (h : integer rounds c = .ok (.error e)) :
    e = .incomplete ∨ ∃ (n : Numeral) (t : List Char), c.rest = n.text ++ t ∧
      Text.Apart Char.isDigit t ∧ ¬ Word.Fits n.value ∧ e = .fatal n.overflow.message := by
  rcases Numeral.exists_or c.rest with ⟨n, t, hc, ht⟩ | ⟨t, hc, ht⟩ | hc
  · by_cases hfits : Word.Fits n.value
    · rw [integer_of_fits hroom hc ht hfits] at h
      simp at h
    · rw [integer_of_overflow hroom hc ht hfits] at h
      refine .inr ⟨n, t, hc, ht, hfits, ?_⟩
      simpa [eq_comm] using h
  · rw [integer_of_sign hroom hc ht] at h
    exact .inl (by simpa [eq_comm] using h)
  · rw [integer_of_apart hroom hc] at h
    simp at h

/-- The grammar of integers only fails where no numeral begins. -/
theorem integer_eq_failure (hroom : Room rounds c) {f : ParseError}
    (h : integer rounds c = .ok (.failure f)) : Text.Apart Numeral.isStart c.rest := by
  rcases Numeral.exists_or c.rest with ⟨n, t, hc, ht⟩ | ⟨t, hc, ht⟩ | hc
  · by_cases hfits : Word.Fits n.value
    · rw [integer_of_fits hroom hc ht hfits] at h
      simp at h
    · rw [integer_of_overflow hroom hc ht hfits] at h
      simp at h
  · rw [integer_of_sign hroom hc ht] at h
    simp at h
  · exact hc

theorem integer_answers (hroom : Room rounds c) : (integer rounds).Answers c := by
  rcases Numeral.exists_or c.rest with ⟨n, t, hc, ht⟩ | ⟨t, hc, ht⟩ | hc
  · by_cases hfits : Word.Fits n.value
    · exact ⟨_, integer_of_fits hroom hc ht hfits⟩
    · exact ⟨_, integer_of_overflow hroom hc ht hfits⟩
  · exact ⟨_, integer_of_sign hroom hc ht⟩
  · exact ⟨_, integer_of_apart hroom hc⟩

/-! ## Numerals with the blanks behind them -/

/-- A numeral that is a word, with the blanks behind it. -/
def item (rounds : Nat) : Reading TextCursor ParseError.payloads Int :=
  lexeme rounds (integer rounds)

theorem item_of_fits (hroom : Room rounds c) {n : Numeral} {w : Blanks} {t : List Char}
    (hc : c.rest = n.text ++ (w.chars ++ t)) (hdigit : Text.Apart Char.isDigit t)
    (hblank : Text.Apart Text.isBlank t) (hfits : Word.Fits n.value) :
    item rounds c = .ok (.success n.value (c.forward (n.text ++ w.chars))) := by
  have hinteger := integer_of_fits hroom hc (w.apart_digit hdigit) hfits
  have hlexeme := lexeme_of_success hinteger (hroom.forward _) (Cursor.rest_forward hc) hblank
  rwa [Cursor.forward_forward] at hlexeme

theorem item_of_overflow (hroom : Room rounds c) {n : Numeral} {t : List Char}
    (hc : c.rest = n.text ++ t) (ht : Text.Apart Char.isDigit t) (hfits : ¬ Word.Fits n.value) :
    item rounds c = .ok (.error (.fatal n.overflow.message)) :=
  lexeme_eq_error_iff.2 (integer_of_overflow hroom hc ht hfits)

theorem item_of_apart (hroom : Room rounds c) (hc : Text.Apart Numeral.isStart c.rest) :
    item rounds c = .ok (.failure .noMatch) :=
  lexeme_eq_failure_iff.2 (integer_of_apart hroom hc)

theorem item_eq_success {v : Int} (h : item rounds c = .ok (.success v d)) :
    ∃ (n : Numeral) (w : Blanks), c.rest = n.text ++ (w.chars ++ d.rest) ∧
      Word.Fits n.value ∧ n.value = v := by
  obtain ⟨d', w, hinteger, hd⟩ := lexeme_eq_success h
  obtain ⟨n, hc, hvalue⟩ := integer_eq_success hinteger
  exact ⟨n, w, by rw [hc, hd], hvalue⟩

theorem item_eq_error (hroom : Room rounds c) {e : ParseError}
    (h : item rounds c = .ok (.error e)) :
    e = .incomplete ∨ ∃ (n : Numeral) (t : List Char), c.rest = n.text ++ t ∧
      Text.Apart Char.isDigit t ∧ ¬ Word.Fits n.value ∧ e = .fatal n.overflow.message :=
  integer_eq_error hroom (lexeme_eq_error_iff.1 h)

theorem item_shortens {v : Int} (h : item rounds c = .ok (.success v d)) :
    d.rest.length < c.rest.length := by
  obtain ⟨n, w, hc, -⟩ := item_eq_success h
  obtain ⟨x, s, hs, -⟩ := n.text_head
  have hlength := congrArg List.length hc
  rw [hs] at hlength
  simp only [List.length_append, List.length_cons] at hlength
  omega

theorem item_answers (hroom : Room rounds c) : (item rounds).Answers c := by
  refine lexeme_answers (integer_answers hroom) fun v d hd => ?_
  obtain ⟨n, hc, -⟩ := integer_eq_success hd
  refine hroom.mono ?_
  rw [hc, List.length_append]
  omega

end Reading

namespace Grammar

variable {N : Payloads → Type → Type} {rounds : Nat}
  {named : ∀ {P : Payloads} {α : Type}, N P α → Reading TextCursor P α}

@[simp] theorem reading_literal {P : Payloads} :
    (literal : Grammar TextCursor N P (Bool × List Char)).reading rounds named =
      Reading.literal rounds := by
  rw [literal, reading_firstOf]
  show Reading.choice
    [Reading.map _ (Reading.pair ((char '-').reading rounds named)
        (Reading.many rounds 1 Bound.limit (digit.reading rounds named))),
      Reading.map _ (Reading.many rounds 1 Bound.limit (digit.reading rounds named))] = _
  rw [reading_char, digit, reading_satisfy]
  rfl

@[simp] theorem reading_integer :
    (integer : Grammar TextCursor N ParseError.payloads Int).reading rounds named =
      Reading.integer rounds := by
  show Reading.check _ ((literal : Grammar TextCursor N ParseError.payloads _).reading _ _) = _
  rw [reading_literal]
  rfl

theorem reading_lexeme_integer :
    (lexeme integer : Grammar TextCursor N ParseError.payloads Int).reading rounds named =
      Reading.item rounds := by
  rw [reading_lexeme, reading_integer]
  rfl

end Grammar

end Triad
