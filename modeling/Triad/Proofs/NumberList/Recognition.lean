import Triad.Proofs.NumberList.Soundness

/-!
# Recognition of number lists

The grammar of number lists reads exactly the texts of
`Triad.Proofs.NumberList.Language`, and its answer tells which of them it was
(`read_classifies`):

* a list is answered with its values;
* a list that breaks off at a value that is no word is answered with the
  message of that value;
* everything else is incomplete.

The lemmas before it say what each part of the grammar makes of a text of its
form.  The texts have to fit between what is read before and after them:
digits and blanks are read as long as there are any.
-/

namespace Triad.NumberList

variable {rounds : Nat} {c d : TextCursor} {v : Int} {s t : List Char} {ns : List Int}

namespace Reads

/-! ## Items -/

section Comma

variable {w : Blanks}

theorem next_of_item (hroom : Room rounds c) (hc : c.rest = ',' :: (w.chars ++ s))
    (hs : Text.Apart Text.isBlank s)
    (hitem : Reading.item rounds (c.forward (',' :: w.chars)) = .ok (.success v d)) :
    next rounds c = .ok (.success v d) := by
  have hcomma := Reading.symbol_of_char (P := ParseError.payloads) hroom hc hs
  have hpair := Reading.pair_eq_success_iff.2 ⟨_, hcomma, hitem⟩
  exact Reading.map_eq_success_iff.2 ⟨_, hpair, rfl⟩

theorem next_of_error (hroom : Room rounds c) (hc : c.rest = ',' :: (w.chars ++ s))
    (hs : Text.Apart Text.isBlank s) {e : ParseError}
    (hitem : Reading.item rounds (c.forward (',' :: w.chars)) = .ok (.error e)) :
    next rounds c = .ok (.error e) := by
  have hcomma := Reading.symbol_of_char (P := ParseError.payloads) hroom hc hs
  exact Reading.map_eq_error_iff.2 (Reading.pair_eq_error_iff.2 (.inr ⟨_, _, hcomma, .inl hitem⟩))

end Comma

theorem next_of_apart (hc : Text.Apart (· = ',') c.rest) :
    next rounds c = .ok (.failure .noMatch) :=
  Reading.map_eq_failure_iff.2 (Reading.pair_eq_failure_iff.2 (Reading.symbol_of_apart hc))

/-- Items are read as a first number and a chain of numbers behind it. -/
theorem repeats_of_items (h : Items s ns) (hfits : ∀ k ∈ ns, Word.Fits k) (hroom : Room rounds c)
    (hc : c.rest = s ++ t) (hdigit : Text.Apart Char.isDigit t)
    (hblank : Text.Apart Text.isBlank t) :
    ∃ v vs d rest, ns = v :: vs ∧ Reading.item rounds c = .ok (.success v d) ∧
      Reading.Repeats (next rounds) d vs rest ∧ rest.rest = t := by
  induction h generalizing c with
  | last n w =>
    have hc' : c.rest = n.text ++ (w.chars ++ t) := by rw [hc, List.append_assoc]
    have hitem := Reading.item_of_fits hroom hc' hdigit hblank (hfits _ List.mem_cons_self)
    exact ⟨_, [], _, _, rfl, hitem, .nil, Cursor.rest_forward hc⟩
  | @more n w w' s ns h ih =>
    have hfits' := List.forall_mem_cons.1 hfits
    have hc' : c.rest = n.text ++ (w.chars ++ ',' :: (w'.chars ++ (s ++ t))) := by
      rw [hc]
      simp
    have hitem := Reading.item_of_fits hroom hc' (Text.apart_cons rfl) (Text.apart_cons rfl)
      hfits'.1
    -- the rest of the items stands behind the comma
    have hroom' := hroom.forward (n.text ++ w.chars)
    have hcomma : (c.forward (n.text ++ w.chars)).rest = ',' :: (w'.chars ++ (s ++ t)) :=
      Cursor.rest_forward (by rw [hc', List.append_assoc])
    obtain ⟨v, vs, d, rest, rfl, hfirst, hchain, hrest⟩ :=
      ih hfits'.2 (hroom'.forward _) (Cursor.rest_forward (s := ',' :: w'.chars) hcomma)
    have hnext := next_of_item hroom' hcomma (h.apart_blank t) hfirst
    exact ⟨_, _, _, rest, rfl, hitem, .cons hnext hchain, hrest⟩

/-- There is room for the numbers of a chain. -/
theorem repeats_room (hroom : Room rounds c) {vs : List Int} {rest : TextCursor}
    (hitem : Reading.item rounds c = .ok (.success v d))
    (h : Reading.Repeats (next rounds) d vs rest) :
    vs.length < rounds ∧ vs.length < Bound.limit ∧ Room rounds rest := by
  have hfirst := Reading.item_shortens hitem
  have hlength := h.length_le (fun c => c.rest.length) fun _ _ _ => next_shortens
  have hrounds := hroom.rounds
  have hlimit := hroom.limit
  exact ⟨by omega, by omega, hroom.mono (by omega)⟩

theorem items_of_items (h : Items s ns) (hfits : ∀ k ∈ ns, Word.Fits k) (hroom : Room rounds c)
    (hc : c.rest = s ++ ']' :: t) :
    ∃ d, items rounds c = .ok (.success ns d) ∧ d.rest = ']' :: t := by
  obtain ⟨v, vs, d, rest, rfl, hitem, hchain, hrest⟩ :=
    repeats_of_items h hfits hroom hc (Text.apart_cons rfl) (Text.apart_cons rfl)
  obtain ⟨hrounds, hlimit, -⟩ := repeats_room hroom hitem hchain
  have hend : next rounds rest = .ok (.failure .noMatch) :=
    next_of_apart (by rw [hrest]; exact Text.apart_cons rfl)
  have hmany := Reading.many_of_failure next_moves hchain (Nat.le_of_lt hlimit) hrounds hend 0
  rw [Reading.settle_zero] at hmany
  have hpair := Reading.pair_eq_success_iff.2 ⟨d, hitem, hmany⟩
  exact ⟨rest, Reading.map_eq_success_iff.2 ⟨_, hpair, rfl⟩, hrest⟩

/-- The first value that is no word ends the items, wherever it stands. -/
theorem items_of_overflow (h : Opened s ns) (hfits : ∀ k ∈ ns, Word.Fits k)
    (hroom : Room rounds c) {n : Numeral} (hc : c.rest = s ++ (n.text ++ t))
    (ht : Text.Apart Char.isDigit t) (hn : ¬ Word.Fits n.value) :
    items rounds c = .ok (.error (.fatal n.overflow.message)) := by
  rw [items, Reading.map_eq_error_iff, Reading.pair_eq_error_iff]
  rcases h.items_or with ⟨rfl, -⟩ | ⟨s', w, hitems, rfl⟩
  · exact .inl (Reading.item_of_overflow hroom hc ht hn)
  · have hc' : c.rest = s' ++ ',' :: (w.chars ++ (n.text ++ t)) := by
      rw [hc]
      simp
    obtain ⟨v, vs, d, rest, rfl, hitem, hchain, hrest⟩ :=
      repeats_of_items hitems hfits hroom hc' (Text.apart_cons rfl) (Text.apart_cons rfl)
    obtain ⟨hrounds, hlimit, hroom'⟩ := repeats_room hroom hitem hchain
    have hlast := Reading.item_of_overflow (hroom'.forward _)
      (Cursor.rest_forward (s := ',' :: w.chars) hrest) ht hn
    have hnext := next_of_error hroom' hrest (n.apart_blank t) hlast
    exact .inr ⟨v, d, hitem, .inl (Reading.many_of_error next_moves hchain hlimit hrounds hnext 0)⟩

theorem items_of_apart (hroom : Room rounds c) (hc : Text.Apart Numeral.isStart c.rest) :
    items rounds c = .ok (.failure .noMatch) := by
  have hitem := Reading.item_of_apart hroom hc
  exact Reading.map_eq_failure_iff.2 (Reading.pair_eq_failure_iff.2 hitem)

/-! ## Bodies -/

theorem body_of_body (h : Body s ns) (hfits : ∀ k ∈ ns, Word.Fits k) (hroom : Room rounds c)
    (hc : c.rest = s ++ ']' :: t) :
    ∃ d, body rounds c = .ok (.success ns d) ∧ d.rest = ']' :: t := by
  cases h with
  | empty =>
    have hitems := items_of_apart hroom (by rw [hc]; exact Text.apart_cons rfl)
    exact ⟨c, Reading.choice_of_failure hitems, hc⟩
  | items h =>
    obtain ⟨d, hitems, hd⟩ := items_of_items h hfits hroom hc
    exact ⟨d, Reading.choice_of_success hitems, hd⟩

/-! ## Lists -/

theorem bracket_of_blanks (hroom : Room rounds c) {w w' : Blanks}
    (hc : c.rest = w.chars ++ '[' :: (w'.chars ++ s)) (hs : Text.Apart Text.isBlank s) :
    ∃ d, bracket rounds c = .ok (.success ((), '[') d) ∧ d.rest = s ∧ Room rounds d := by
  have hblanks := Reading.whitespace_of_blanks (P := ParseError.payloads) hroom hc
    (Text.apart_cons rfl)
  have hroom' := hroom.forward w.chars
  have hrest := Cursor.rest_forward hc
  have hsymbol := Reading.symbol_of_char (P := ParseError.payloads) hroom' hrest hs
  exact ⟨_, Reading.pair_eq_success_iff.2 ⟨_, hblanks, hsymbol⟩,
    Cursor.rest_forward (s := '[' :: w'.chars) hrest, hroom'.forward _⟩

/-- A list is read up to the end, and the value is its numbers. -/
theorem numbers_of_listed (hroom : Room rounds c) (h : Listed c.rest ns) :
    ∃ d, numbers rounds c = .ok (.success ns d) ∧ d.rest = [] := by
  obtain ⟨w, w', w'', s, hbody, hfits, hc⟩ := h
  obtain ⟨d₁, hbracket, hd₁, hroom₁⟩ := bracket_of_blanks hroom hc (hbody.apart_blank _)
  obtain ⟨d₂, hbody', hd₂⟩ := body_of_body hbody hfits hroom₁ hd₁
  have hroom₂ : Room rounds d₂ := hroom₁.mono (by rw [hd₁, hd₂]; simp)
  have hopening : opening rounds c = .ok (.success (((), '['), ns) d₂) :=
    Reading.pair_eq_success_iff.2 ⟨d₁, hbracket, hbody'⟩
  have hend : d₂.rest = ']' :: (w''.chars ++ []) := by rw [hd₂, List.append_nil]
  have hsymbol := Reading.symbol_of_char (P := ParseError.payloads) hroom₂ hend Text.apart_nil
  have hpair := Reading.pair_eq_success_iff.2 ⟨d₂, hopening, hsymbol⟩
  exact ⟨_, Reading.map_eq_success_iff.2 ⟨_, hpair, rfl⟩,
    Cursor.rest_forward (s := ']' :: w''.chars) hend⟩

/-- A value that is no word ends the list with its message. -/
theorem numbers_of_overflow (hroom : Room rounds c) {m : String} (h : Overflows c.rest m) :
    numbers rounds c = .ok (.error (.fatal m)) := by
  obtain ⟨w, w', s, ks, n, t, hopened, hfits, hc, ht, hn, rfl⟩ := h
  obtain ⟨d, hbracket, hd, hroom'⟩ := bracket_of_blanks hroom hc (hopened.apart_blank n t)
  have hitems := items_of_overflow hopened hfits hroom' hd ht hn
  have hbody : body rounds d = .ok (.error (.fatal n.overflow.message)) :=
    Reading.choice_of_error hitems
  have hopening : opening rounds c = .ok (.error (.fatal n.overflow.message)) :=
    Reading.pair_eq_error_iff.2 (.inr ⟨_, d, hbracket, .inl hbody⟩)
  exact Reading.map_eq_error_iff.2 (Reading.pair_eq_error_iff.2 (.inl hopening))

/-! ## Every text is answered -/

theorem next_answers (hroom : Room rounds c) : (next rounds).Answers c := by
  refine .map _ (.pair (Reading.symbol_answers hroom) fun x d h => ?_)
  obtain ⟨-, w, hc⟩ := Reading.symbol_eq_success h
  exact Reading.item_answers (hroom.mono (by rw [hc]; simp; omega))

theorem items_answers (hroom : Room rounds c) : (items rounds).Answers c := by
  refine .map _ (.pair (Reading.item_answers hroom) fun v d h => ?_)
  have hd : Room rounds d := hroom.mono (Nat.le_of_lt (Reading.item_shortens h))
  exact .many0 (fun c => c.rest.length) (fun c' hc' => next_answers (hd.mono hc'))
    (fun _ _ _ => next_shortens) hd.rounds

theorem bracket_answers (hroom : Room rounds c) : (bracket rounds).Answers c := by
  refine .pair (Reading.whitespace_answers hroom) fun _ d h => ?_
  obtain ⟨w, -, rfl⟩ := Reading.whitespace_eq_success h
  exact Reading.symbol_answers (hroom.forward _)

theorem body_answers (hroom : Room rounds c) : (body rounds).Answers c := by
  refine .choice fun p hp => ?_
  rcases List.mem_pair.1 hp with rfl | rfl
  · exact items_answers hroom
  · exact ⟨_, rfl⟩

theorem numbers_answers (hroom : Room rounds c) : (numbers rounds).Answers c := by
  refine .map _ (.pair (.pair (bracket_answers hroom) fun _ d h => ?_) fun _ d h => ?_)
  · obtain ⟨w, w', hc⟩ := bracket_eq_success h
    exact body_answers (hroom.mono (by rw [hc]; simp; omega))
  · obtain ⟨w, w', s, -, -, hc⟩ := opening_eq_success h
    exact Reading.symbol_answers (hroom.mono (by rw [hc]; simp; omega))

end Reads

/-! ## Whole texts -/

variable {text : String} {m : String}

theorem read_result (limits : Limits) (text : String) (s : Session TextCursor) :
    (read limits text).result s = Reading.run id (Reads.numbers limits.rounds) text := by
  rw [read, parser, Parser.run_result id (Grammar.parse_follows Rules.none limits numbers)]
  rw [answer_numbers]

/-- Limits with which there is room for the whole text. -/
def enough (text : String) : Limits := ⟨text.toList.length + 1, 0⟩

theorem room_of_enough (haddressable : Text.Addressable text) {limits : Limits}
    (hlimits : enough text ≤ limits) : Room limits.rounds (Cursor.start text.toList) :=
  Room.start haddressable hlimits.1

theorem read_of_listed (haddressable : Text.Addressable text) (h : Listed text.toList ns) :
    Returns (fun limits => read limits text) (.ok ns) := by
  refine ⟨enough text, fun limits hlimits s => ?_⟩
  have hroom := room_of_enough haddressable hlimits
  obtain ⟨d, hnumbers, hd⟩ := Reads.numbers_of_listed hroom h
  rw [read_result, Reading.run, hnumbers]
  simp [hd]

theorem read_of_overflow (haddressable : Text.Addressable text) (h : Overflows text.toList m) :
    Returns (fun limits => read limits text) (.error (.fatal m)) := by
  refine ⟨enough text, fun limits hlimits s => ?_⟩
  have hroom := room_of_enough haddressable hlimits
  rw [read_result, Reading.run, Reads.numbers_of_overflow hroom h]

/-- A text is incomplete unless the grammar has read a list up to its end, or a
value that is no word. -/
theorem read_of_neither (haddressable : Text.Addressable text)
    (hlisted : ∀ ns, ¬ Listed text.toList ns) (hoverflows : ∀ m, ¬ Overflows text.toList m) :
    Returns (fun limits => read limits text) (.error .incomplete) := by
  refine ⟨enough text, fun limits hlimits s => ?_⟩
  have hroom := room_of_enough haddressable hlimits
  obtain ⟨o, ho⟩ := Reads.numbers_answers hroom
  rw [read_result, Reading.run, ho]
  cases o with
  | success ns d =>
    obtain ⟨s, hs, htext⟩ := Reads.numbers_eq_success ho
    have hrest : d.rest ≠ [] := by
      intro hd
      rw [hd, List.append_nil] at htext
      rw [← htext] at hs
      exact hlisted ns hs
    dsimp only
    rw [if_neg hrest]
    rfl
  | failure f => exact absurd ho Reads.numbers_ne_failure
  | error e =>
    rcases Reads.numbers_eq_error hroom ho with rfl | ⟨m, hm, -⟩
    · rfl
    · exact absurd hm (hoverflows m)

theorem parser_ne_failure (limits : Limits) (c : TextCursor) (s : Session TextCursor)
    (f : ParseError) : (parser limits c).result s ≠ .ok (.failure f) := by
  rw [parser, Grammar.parse_result, answer_numbers]
  exact Reads.numbers_ne_failure

/-- The answer for a text says what the text is.  A list is answered with its
numbers, a list that breaks off at a value that is no word with the message of
that value, and any other text as incomplete.  The parser itself never fails. -/
theorem read_classifies (haddressable : Text.Addressable text) :
    (∀ ns, Returns (fun limits => read limits text) (.ok ns) ↔ Listed text.toList ns) ∧
    (∀ m, Returns (fun limits => read limits text) (.error (.fatal m)) ↔
      Overflows text.toList m) ∧
    (Returns (fun limits => read limits text) (.error .incomplete) ↔
      (∀ ns, ¬ Listed text.toList ns) ∧ ∀ m, ¬ Overflows text.toList m) ∧
    ∀ limits c s f, (parser limits c).result s ≠ .ok (.failure f) := by
  have hlisted : ∀ ns, Listed text.toList ns → Returns (fun limits => read limits text) (.ok ns) :=
    fun _ => read_of_listed haddressable
  have hoverflows : ∀ m, Overflows text.toList m →
      Returns (fun limits => read limits text) (.error (.fatal m)) :=
    fun _ => read_of_overflow haddressable
  by_cases h₁ : ∃ ns, Listed text.toList ns
  · obtain ⟨ns, h₁⟩ := h₁
    have hreturns := hlisted ns h₁
    refine ⟨fun ns' => ⟨fun h => ?_, hlisted ns'⟩, fun m => ⟨fun h => ?_, hoverflows m⟩,
      ⟨fun h => ?_, fun h => absurd h₁ (h.1 ns)⟩, parser_ne_failure⟩
    · obtain rfl := Except.ok.inj (h.unique hreturns)
      exact h₁
    · exact nomatch h.unique hreturns
    · exact nomatch h.unique hreturns
  · by_cases h₂ : ∃ m, Overflows text.toList m
    · obtain ⟨m, h₂⟩ := h₂
      have hreturns := hoverflows m h₂
      refine ⟨fun ns => ⟨fun h => ?_, hlisted ns⟩, fun m' => ⟨fun h => ?_, hoverflows m'⟩,
        ⟨fun h => ?_, fun h => absurd h₂ (h.2 m)⟩, parser_ne_failure⟩
      · exact nomatch h.unique hreturns
      · obtain rfl : m' = m := by simpa using h.unique hreturns
        exact h₂
      · exact nomatch h.unique hreturns
    · rw [not_exists] at h₁ h₂
      have hreturns := read_of_neither haddressable h₁ h₂
      refine ⟨fun ns => ⟨fun h => ?_, hlisted ns⟩, fun m => ⟨fun h => ?_, hoverflows m⟩,
        ⟨fun _ => ⟨h₁, h₂⟩, fun _ => hreturns⟩, parser_ne_failure⟩
      · exact nomatch h.unique hreturns
      · exact nomatch h.unique hreturns

/-- A list of two numbers, with a blank behind the comma. -/
theorem read_classifies_two_numbers :
    Returns (fun limits => read limits "[1, -2]") (.ok [1, -2]) := by
  let none : Blanks := ⟨[], nofun⟩
  let space : Blanks := ⟨[' '], List.forall_mem_singleton.2 rfl⟩
  let one : Numeral := ⟨false, ['1'], nofun, by simp⟩
  let two : Numeral := ⟨true, ['2'], nofun, by simp⟩
  have hitems := Items.more one none space (.last two none)
  have hlisted : Listed "[1, -2]".toList [1, -2] :=
    ⟨none, none, none, _, .items hitems, by decide, rfl⟩
  exact ((read_classifies (by decide)).1 [1, -2]).2 hlisted

end Triad.NumberList
