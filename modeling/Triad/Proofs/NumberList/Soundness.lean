import Triad.NumberList
import Triad.Proofs.Meaning.Whole
import Triad.Proofs.NumberList.Language

/-!
# What the grammar of number lists has read

`Reads` holds the readings of the grammar, from the items outwards, and
`answer_numbers` says that they are.  The other lemmas go from an answer back
to the text:

* a success has read a list with these values (`Reads.numbers_eq_success`);
* an error is a value that is no word, or says nothing but that the text is
  incomplete (`Reads.numbers_eq_error`);
* there is no failure (`Reads.numbers_ne_failure`).
-/

namespace Triad.NumberList

variable {rounds : Nat} {c d : TextCursor} {e : ParseError} {v : Int} {ns : List Int}

/-! ## The readings of the grammar -/

namespace Reads

/-- A comma and the number behind it. -/
def next (rounds : Nat) : Reading TextCursor ParseError.payloads Int :=
  Reading.map Prod.snd (Reading.pair (Reading.symbol rounds ',') (Reading.item rounds))

def items (rounds : Nat) : Reading TextCursor ParseError.payloads (List Int) :=
  Reading.map (fun (first, rest) => first :: rest)
    (Reading.pair (Reading.item rounds) (Reading.many rounds 0 Bound.limit (next rounds)))

def body (rounds : Nat) : Reading TextCursor ParseError.payloads (List Int) :=
  Reading.choice [items rounds, fun c => .ok (.success [] c)]

/-- The bracket that a list begins with. -/
def bracket (rounds : Nat) : Reading TextCursor ParseError.payloads (Unit × Char) :=
  Reading.pair (Reading.whitespace rounds) (Reading.symbol rounds '[')

/-- The list up to the end of its body. -/
def opening (rounds : Nat) : Reading TextCursor ParseError.payloads ((Unit × Char) × List Int) :=
  Reading.pair (bracket rounds) (body rounds)

def numbers (rounds : Nat) : Reading TextCursor ParseError.payloads (List Int) :=
  Reading.map (fun (((_, _), ns), _) => ns)
    (Reading.pair (opening rounds) (Reading.symbol rounds ']'))

end Reads

section Readings

variable {named : ∀ {P : Payloads} {α : Type}, NoNames P α → Reading TextCursor P α}

theorem reading_items : items.reading rounds named = Reads.items rounds := by
  show Reading.map _ (Reading.pair (item.reading rounds named)
    (Reading.many rounds 0 Bound.limit (Reading.map Prod.snd
      (Reading.pair ((Grammar.lexeme (Grammar.char ',') : Part Char).reading rounds named)
        (item.reading rounds named))))) = _
  rw [item, Grammar.reading_lexeme_char, Grammar.reading_lexeme_integer]
  rfl

theorem reading_body : body.reading rounds named = Reads.body rounds := by
  rw [body, Grammar.reading_firstOf]
  show Reading.choice [items.reading rounds named, fun c => .ok (.success [] c)] = _
  rw [reading_items]
  rfl

theorem answer_numbers (limits : Limits) :
    numbers.answer Rules.none limits = Reads.numbers limits.rounds := by
  show Reading.map _ (Reading.pair (Reading.pair (Reading.pair
    ((Grammar.whitespace : Part Unit).reading limits.rounds _)
    ((Grammar.lexeme (Grammar.char '[') : Part Char).reading limits.rounds _))
    (body.reading limits.rounds _))
    ((Grammar.lexeme (Grammar.char ']') : Part Char).reading limits.rounds _)) = _
  rw [Grammar.reading_whitespace, Grammar.reading_lexeme_char, Grammar.reading_lexeme_char,
    reading_body]
  rfl

end Readings

namespace Reads

/-! ## What a success has read -/

theorem next_eq_success (h : next rounds c = .ok (.success v d)) :
    ∃ (w w' : Blanks) (n : Numeral), c.rest = ',' :: (w.chars ++ (n.text ++ (w'.chars ++ d.rest))) ∧
      Word.Fits n.value ∧ n.value = v := by
  obtain ⟨⟨x, v'⟩, hpair, rfl⟩ := Reading.map_eq_success_iff.1 h
  obtain ⟨d', hcomma, hitem⟩ := Reading.pair_eq_success_iff.1 hpair
  obtain ⟨-, w, hc⟩ := Reading.symbol_eq_success hcomma
  obtain ⟨n, w', hd, hvalue⟩ := Reading.item_eq_success hitem
  exact ⟨w, w', n, by rw [hc, hd], hvalue⟩

theorem next_shortens (h : next rounds c = .ok (.success v d)) :
    d.rest.length < c.rest.length := by
  obtain ⟨w, w', n, hc, -⟩ := next_eq_success h
  have hlength := congrArg List.length hc
  simp only [List.length_append, List.length_cons] at hlength
  omega

theorem next_moves : Reading.Moves (next rounds) := by
  intro c v h
  have := next_shortens h
  omega

/-- A number and a chain of numbers behind it are items. -/
theorem items_of_repeats {rest : TextCursor} {vs : List Int}
    (h : Reading.Repeats (next rounds) d vs rest) {n : Numeral} (hfits : Word.Fits n.value)
    (w : Blanks) :
    ∃ s, Items s (n.value :: vs) ∧ (∀ k ∈ n.value :: vs, Word.Fits k) ∧
      n.text ++ (w.chars ++ d.rest) = s ++ rest.rest := by
  induction h generalizing n w with
  | nil => exact ⟨_, .last n w, by simpa using hfits, by rw [List.append_assoc]⟩
  | cons hstep _ ih =>
    obtain ⟨w', w'', n', hd, hfits', rfl⟩ := next_eq_success hstep
    obtain ⟨s, hitems, hall, hs⟩ := ih hfits' w''
    refine ⟨_, .more n w w' hitems, List.forall_mem_cons.2 ⟨hfits, hall⟩, ?_⟩
    rw [hd, hs]
    simp

theorem items_eq_success (h : items rounds c = .ok (.success ns d)) :
    ∃ s, Items s ns ∧ (∀ k ∈ ns, Word.Fits k) ∧ c.rest = s ++ d.rest := by
  obtain ⟨⟨first, vs⟩, hpair, rfl⟩ := Reading.map_eq_success_iff.1 h
  obtain ⟨d', hitem, hmany⟩ := Reading.pair_eq_success_iff.1 hpair
  obtain ⟨n, w, hc, hfits, rfl⟩ := Reading.item_eq_success hitem
  rw [hc]
  exact items_of_repeats (Reading.many_eq_success hmany).1 hfits w

theorem body_eq_success (h : body rounds c = .ok (.success ns d)) :
    ∃ s, Body s ns ∧ (∀ k ∈ ns, Word.Fits k) ∧ c.rest = s ++ d.rest := by
  rcases Reading.choice_cons_iff.1 h with ⟨h, -⟩ | ⟨-, h⟩
  · obtain ⟨s, hitems, hfits, hc⟩ := items_eq_success h
    exact ⟨s, .items hitems, hfits, hc⟩
  · obtain ⟨rfl, rfl⟩ : ns = [] ∧ d = c := by simpa [Reading.choice, eq_comm] using h
    exact ⟨[], .empty, List.forall_mem_nil _, rfl⟩

theorem bracket_eq_success {x : Unit × Char} (h : bracket rounds c = .ok (.success x d)) :
    ∃ w w' : Blanks, c.rest = w.chars ++ '[' :: (w'.chars ++ d.rest) := by
  obtain ⟨d', hblanks, hsymbol⟩ := Reading.pair_eq_success_iff.1 h
  obtain ⟨w, hc, -⟩ := Reading.whitespace_eq_success hblanks
  obtain ⟨-, w', hd'⟩ := Reading.symbol_eq_success hsymbol
  exact ⟨w, w', by rw [hc, hd']⟩

theorem opening_eq_success {x : (Unit × Char) × List Int}
    (h : opening rounds c = .ok (.success x d)) :
    ∃ (w w' : Blanks) (s : List Char), Body s x.2 ∧ (∀ k ∈ x.2, Word.Fits k) ∧
      c.rest = w.chars ++ '[' :: (w'.chars ++ (s ++ d.rest)) := by
  obtain ⟨d', hbracket, hbody⟩ := Reading.pair_eq_success_iff.1 h
  obtain ⟨w, w', hc⟩ := bracket_eq_success hbracket
  obtain ⟨s, hs, hfits, hd'⟩ := body_eq_success hbody
  exact ⟨w, w', s, hs, hfits, by rw [hc, hd']⟩

/-- What the grammar succeeds on is a list, and the value is its numbers. -/
theorem numbers_eq_success (h : numbers rounds c = .ok (.success ns d)) :
    ∃ s, Listed s ns ∧ c.rest = s ++ d.rest := by
  obtain ⟨⟨x, y⟩, hpair, rfl⟩ := Reading.map_eq_success_iff.1 h
  obtain ⟨d', hopening, hsymbol⟩ := Reading.pair_eq_success_iff.1 hpair
  obtain ⟨w, w', s, hbody, hfits, hc⟩ := opening_eq_success hopening
  obtain ⟨-, w'', hd'⟩ := Reading.symbol_eq_success hsymbol
  refine ⟨_, ⟨w, w', w'', s, hbody, hfits, rfl⟩, ?_⟩
  rw [hc, hd']
  simp

/-! ## Where an error comes from -/

theorem next_eq_error (hroom : Room rounds c) (h : next rounds c = .ok (.error e)) :
    e = .incomplete ∨ ∃ (w : Blanks) (n : Numeral) (t : List Char),
      c.rest = ',' :: (w.chars ++ (n.text ++ t)) ∧ Text.Apart Char.isDigit t ∧
      ¬ Word.Fits n.value ∧ e = .fatal n.overflow.message := by
  rcases Reading.pair_eq_error_iff.1 (Reading.map_eq_error_iff.1 h) with
    h | ⟨_, d, hcomma, h | ⟨h, -⟩⟩
  · exact absurd h Reading.symbol_ne_error
  · obtain ⟨-, w, hc⟩ := Reading.symbol_eq_success hcomma
    have hroom' : Room rounds d := hroom.mono (by rw [hc]; simp; omega)
    rcases Reading.item_eq_error hroom' h with h | ⟨n, t, hd, ht, hfits, rfl⟩
    · exact .inl h
    · exact .inr ⟨w, n, t, by rw [hc, hd], ht, hfits, rfl⟩
  · exact .inl h

theorem items_eq_error (hroom : Room rounds c) (h : items rounds c = .ok (.error e)) :
    e = .incomplete ∨ ∃ (s : List Char) (ks : List Int) (n : Numeral) (t : List Char),
      Opened s ks ∧ (∀ k ∈ ks, Word.Fits k) ∧ c.rest = s ++ (n.text ++ t) ∧
      Text.Apart Char.isDigit t ∧ ¬ Word.Fits n.value ∧ e = .fatal n.overflow.message := by
  rcases Reading.pair_eq_error_iff.1 (Reading.map_eq_error_iff.1 h) with
    h | ⟨v, d, hitem, h | ⟨h, -⟩⟩
  · rcases Reading.item_eq_error hroom h with h | ⟨n, t, hc, ht, hfits, rfl⟩
    · exact .inl h
    · exact .inr ⟨[], [], n, t, .nil, List.forall_mem_nil _, hc, ht, hfits, rfl⟩
  · -- the chain of numbers ends where the error is
    obtain ⟨vs, rest, hchain, hnext⟩ := Reading.many0_eq_error h
    obtain ⟨n, w, hc, hfits, rfl⟩ := Reading.item_eq_success hitem
    obtain ⟨s, hitems, hall, hs⟩ := items_of_repeats hchain hfits w
    rw [← hc] at hs
    have hroom' : Room rounds rest := hroom.mono (by rw [hs]; simp)
    rcases next_eq_error hroom' hnext with h | ⟨w', n', t, hrest, ht, hfits', rfl⟩
    · exact .inl h
    · refine .inr ⟨_, _, n', t, hitems.opened w', hall, ?_, ht, hfits', rfl⟩
      rw [hs, hrest]
      simp
  · exact .inl h

theorem body_eq_error (h : body rounds c = .ok (.error e)) :
    items rounds c = .ok (.error e) := by
  rcases Reading.choice_cons_iff.1 h with ⟨h, -⟩ | ⟨-, h⟩
  · exact h
  · simp [Reading.choice] at h

theorem opening_eq_error (hroom : Room rounds c) (h : opening rounds c = .ok (.error e)) :
    e = .incomplete ∨ ∃ m, Overflows c.rest m ∧ e = .fatal m := by
  rcases Reading.pair_eq_error_iff.1 h with h | ⟨_, d, hbracket, h | ⟨h, -⟩⟩
  · rcases Reading.pair_eq_error_iff.1 h with h | ⟨_, d, _, h | ⟨h, -⟩⟩
    · exact absurd h Reading.whitespace_ne_error
    · exact absurd h Reading.symbol_ne_error
    · exact .inl h
  · obtain ⟨w, w', hc⟩ := bracket_eq_success hbracket
    have hroom' : Room rounds d := hroom.mono (by rw [hc]; simp; omega)
    rcases items_eq_error hroom' (body_eq_error h) with
      h | ⟨s, ks, n, t, hopened, hall, hd, ht, hfits, rfl⟩
    · exact .inl h
    · exact .inr ⟨_, ⟨w, w', s, ks, n, t, hopened, hall, by rw [hc, hd], ht, hfits, rfl⟩, rfl⟩
  · exact .inl h

/-- An error of the grammar is about a value that is no word, or says nothing
but that the text is incomplete. -/
theorem numbers_eq_error (hroom : Room rounds c) (h : numbers rounds c = .ok (.error e)) :
    e = .incomplete ∨ ∃ m, Overflows c.rest m ∧ e = .fatal m := by
  rcases Reading.pair_eq_error_iff.1 (Reading.map_eq_error_iff.1 h) with
    h | ⟨_, d, _, h | ⟨h, -⟩⟩
  · exact opening_eq_error hroom h
  · exact absurd h Reading.symbol_ne_error
  · exact .inl h

/-- The blanks in front of a list always match, so the grammar never fails. -/
theorem numbers_ne_failure {f : ParseError} : numbers rounds c ≠ .ok (.failure f) := by
  intro h
  have hopening := Reading.pair_eq_failure_iff.1 (Reading.map_eq_failure_iff.1 h)
  have hbracket := Reading.pair_eq_failure_iff.1 hopening
  exact Reading.whitespace_ne_failure (Reading.pair_eq_failure_iff.1 hbracket)

end Reads

end Triad.NumberList
