import Triad.Proofs.Text.Complete
import Triad.Proofs.Text.Rendering

/-!
# Lexemes

A lexeme is a parser with the blanks that follow.  `Cursor.pastBlanks` moves a
place past the longest run of blanks there, and this is all that a lexeme does
to the outcome of its part (`Outcome.spaced`): the blanks never fail and never
err, so nothing is ever committed by them.

As in `Triad.Proofs.Text.Complete`, the part of a lexeme may be any parser.  In
a session it is a reading, and putting combinators around the parser is putting
them around that reading (`Parser.readingIn_map`, `Parser.readingIn_pair`).
-/

namespace Triad

variable {P : Payloads} {α β : Type}

/-! ## Places behind blanks -/

namespace Cursor

/-- The place behind all blanks that come next. -/
def pastBlanks (c : TextCursor) : TextCursor := c.forward (c.rest.takeWhile Text.isBlank)

theorem split_pastBlanks (c : TextCursor) :
    c.rest = c.rest.takeWhile Text.isBlank ++ c.rest.dropWhile Text.isBlank :=
  List.takeWhile_append_dropWhile.symm

theorem rest_pastBlanks (c : TextCursor) : c.pastBlanks.rest = c.rest.dropWhile Text.isBlank :=
  rest_forward c.split_pastBlanks

theorem apart_pastBlanks (c : TextCursor) : Text.Apart Text.isBlank c.pastBlanks.rest := by
  rw [rest_pastBlanks]
  intro x hx
  have h := List.head?_dropWhile_not Text.isBlank c.rest
  rw [Option.mem_def.1 hx] at h
  simpa using h

@[simp] theorem pastBlanks_pastBlanks (c : TextCursor) :
    c.pastBlanks.pastBlanks = c.pastBlanks := by
  rw [pastBlanks, c.apart_pastBlanks.takeWhile_eq_nil, forward_nil]

theorem Valid.pastBlanks {c : TextCursor} (valid : c.Valid) : c.pastBlanks.Valid :=
  valid.forward c.split_pastBlanks

end Cursor

/-- The outcome with all blanks skipped that follow a success. -/
def Outcome.spaced :
    Outcome P.Failure P.Error TextCursor α → Outcome P.Failure P.Error TextCursor α
  | .success a d => .success a d.pastBlanks
  | o => o

theorem Outcome.spaced_spaced (o : Outcome P.Failure P.Error TextCursor α) :
    o.spaced.spaced = o.spaced := by
  cases o with
  | success a d => exact congrArg (Outcome.success a) d.pastBlanks_pastBlanks
  | failure f | error e => rfl

/-! ## Readings -/

namespace Reading

variable {rounds : Nat} {p : Reading TextCursor P α} {c : TextCursor}

theorem whitespace_eq (hroom : Room rounds c) :
    whitespace (P := P) rounds c = .ok (.success () c.pastBlanks) := by
  let w : Blanks := ⟨c.rest.takeWhile Text.isBlank, fun _ hx => List.mem_takeWhile_imp hx⟩
  have hapart := c.apart_pastBlanks
  rw [Cursor.rest_pastBlanks] at hapart
  exact whitespace_of_blanks (w := w) hroom c.split_pastBlanks hapart

/-- There is room for the blanks behind every success at `c`. -/
def Spacious (rounds : Nat) (p : Reading TextCursor P α) (c : TextCursor) : Prop :=
  ∀ a d, p c = .ok (.success a d) → Room rounds d

theorem lexeme_eq_spaced (hroom : Spacious rounds p c) :
    lexeme rounds p c = (p c).map Outcome.spaced := by
  cases hp : p c with
  | error stop => exact map_eq_stop_iff.2 (pair_eq_stop_iff.2 (.inl hp))
  | ok o =>
    cases o with
    | failure f => exact lexeme_eq_failure_iff.2 hp
    | error e => exact lexeme_eq_error_iff.2 hp
    | success a d =>
      have hblanks := whitespace_eq (P := P) (hroom a d hp)
      exact map_eq_success_iff.2 ⟨(a, ()), pair_eq_success_iff.2 ⟨d, hp, hblanks⟩, rfl⟩

theorem lexeme_eq_success_iff (hroom : Spacious rounds p c) {a : α} {d : TextCursor} :
    lexeme rounds p c = .ok (.success a d) ↔
      ∃ d', p c = .ok (.success a d') ∧ d = d'.pastBlanks := by
  rw [lexeme_eq_spaced hroom]
  cases p c with
  | error stop => simp [Except.map]
  | ok o => cases o <;> simp [Except.map, Outcome.spaced, eq_comm]

theorem lexeme_eq_stop_iff (hroom : Spacious rounds p c) {stop : Stop} :
    lexeme rounds p c = .error stop ↔ p c = .error stop := by
  rw [lexeme_eq_spaced hroom]
  cases p c <;> simp [Except.map]

/-- Behind the blanks that a lexeme skips there is room as well. -/
theorem Spacious.lexeme (hroom : Spacious rounds p c) : Spacious rounds (lexeme rounds p) c := by
  intro a d h
  obtain ⟨d', hp, rfl⟩ := (lexeme_eq_success_iff hroom).1 h
  exact (hroom a d' hp).forward _

theorem lexeme_lexeme (hroom : Spacious rounds p c) :
    lexeme rounds (lexeme rounds p) c = lexeme rounds p c := by
  rw [lexeme_eq_spaced hroom.lexeme, lexeme_eq_spaced hroom]
  cases p c with
  | error stop => rfl
  | ok o => exact congrArg Except.ok o.spaced_spaced

end Reading

/-! ## Parsers -/

namespace Parser

variable (p : Parser TextCursor P α) (s : Session TextCursor)

theorem readingIn_map (f : α → β) : (map f p).readingIn s = Reading.map f (p.readingIn s) := by
  funext c
  unfold readingIn Reading.map Reading.bind map bind
  dsimp only
  cases h : p c s with
  | error stop t => rw [Run.result_of_stop h, Run.result_of_stop (Run.bind_of_stop h)]
  | ok o t =>
    rw [Run.result_of_ok h, Run.result, Run.bind_of_ok h]
    cases o <;> rfl

/-- The second part runs in the session that the first one leaves, so it has to
answer alike in all sessions. -/
theorem readingIn_pair {q : Parser TextCursor P β} {r : Reading TextCursor P β}
    (hq : ∀ c s, (q c).result s = r c) :
    (pair p q).readingIn s = Reading.pair (p.readingIn s) r := by
  funext c
  unfold readingIn Reading.pair pair
  dsimp only
  cases h : p c s with
  | error stop t => rw [Run.result_of_stop h, Run.result_of_stop (Run.bind_of_stop h)]
  | ok o t =>
    rw [Run.result_of_ok h, Run.result, Run.bind_of_ok h]
    cases o with
    | failure f | error e => rfl
    | success a d =>
      dsimp only
      rw [← hq d t]
      cases hd : q d t with
      | error stop t' => rw [Run.result_of_stop hd, Run.bind_of_stop hd]
      | ok o t' =>
        rw [Run.result_of_ok hd, Run.bind_of_ok hd]
        cases o with
        | success b d' | error e => rfl
        | failure f => exact (Run.memory.trace_done ⟨_, _, _⟩ _ t').1

/-- Blank characters, as many as there are. -/
def whitespace (rounds : Nat) : Parser TextCursor P Unit :=
  map (fun _ => ()) (many rounds 0 Bound.limit (primitive (Matcher.satisfy Text.isBlank)))

/-- Skips the blank characters that follow. -/
def lexeme (rounds : Nat) (p : Parser TextCursor P α) : Parser TextCursor P α :=
  map Prod.fst (pair p (whitespace rounds))

theorem whitespace_result (rounds : Nat) (c : TextCursor) :
    (whitespace (P := P) rounds c).result s = Reading.whitespace rounds c := by
  have h := Grammar.parse_result Rules.none ⟨rounds, 0⟩
    (Grammar.whitespace : Grammar TextCursor NoNames P Unit) c s
  rw [← Grammar.reading_whitespace]
  exact h

theorem readingIn_lexeme (rounds : Nat) :
    (lexeme rounds p).readingIn s = Reading.lexeme rounds (p.readingIn s) := by
  rw [lexeme, readingIn_map, readingIn_pair p s fun c s => whitespace_result s rounds c]
  rfl

end Parser

namespace Grammar

variable {N : Payloads → Type → Type} {rounds : Nat}
  {named : ∀ {P : Payloads} {α : Type}, N P α → Path → Parser TextCursor P α}

@[simp] theorem denote_lexeme (p : Grammar TextCursor N P α) (path : Path) :
    (lexeme p).denote rounds named path =
      Parser.lexeme rounds (p.denote rounds named ((path.child 0).child 0)) := rfl

end Grammar

/-! ## What a lexeme answers -/

section Answers

variable {N : Payloads → Type → Type} (rules : Rules TextCursor N)

/-- The grammar of blanks reads all of them, from any place of a text that fits
in memory. -/
theorem whitespace_returns {c : TextCursor} (valid : c.Valid)
    (haddressable : Text.Addressable (String.ofList c.input)) :
    Returns (fun limits => (Grammar.whitespace : Grammar TextCursor N P Unit).parse rules limits c)
      (.success () c.pastBlanks) := by
  refine ⟨⟨c.rest.length + 1, 0⟩, fun limits hlimits s => ?_⟩
  rw [Grammar.parse_result]
  show (Grammar.whitespace : Grammar TextCursor N P Unit).reading _ _ c = _
  rw [Grammar.reading_whitespace]
  exact Reading.whitespace_eq (Room.of_valid valid haddressable hlimits.1)

/-- With rounds enough, there is room behind a success that leaves a place of a
text that fits in memory. -/
theorem Reading.exists_spacious {p : Reading TextCursor P α} {c : TextCursor}
    (hp : ∀ a d, p c = .ok (.success a d) →
      d.Valid ∧ Text.Addressable (String.ofList d.input)) :
    ∃ least, ∀ rounds, least ≤ rounds → Spacious rounds p c := by
  by_cases h : ∃ a d, p c = .ok (.success a d)
  · obtain ⟨a, d, hd⟩ := h
    refine ⟨d.rest.length + 1, fun rounds hrounds a' d' hd' => ?_⟩
    obtain ⟨-, rfl⟩ := Outcome.success.inj (Except.ok.inj (hd.symm.trans hd'))
    exact Room.of_valid (hp a d hd).1 (hp a d hd).2 hrounds
  · exact ⟨0, fun rounds _ a d hd => absurd ⟨a, d, hd⟩ h⟩

/-- Lexemes skip the blanks that follow and do nothing else.

* From a place of a text that fits in memory, the parser of blanks returns a
  success.  It leaves the place behind them, where the text is at its end or
  goes on with another character.
* The parser of a lexeme is `lexeme` around the parser of its part.
* Let the part be any parser, and let its success leave a place of a text that
  fits in memory, if there is one.  Then the lexeme succeeds if and only if its
  part does, with the same value and behind all blanks that follow.  It fails or
  errs if and only if its part does, with the same payload, so that there are no
  errors but those of the part.
* Skipping blanks twice is skipping them once. -/
theorem lexemes_skip_blanks :
    (∀ c : TextCursor, c.Valid → Text.Addressable (String.ofList c.input) →
      Returns
        (fun limits => (Grammar.whitespace : Grammar TextCursor N P Unit).parse rules limits c)
        (.success () c.pastBlanks) ∧
      c.pastBlanks.Valid ∧ c.pastBlanks.input = c.input ∧
      (∃ w : Blanks, c.rest = w.chars ++ c.pastBlanks.rest) ∧
      Text.Apart Text.isBlank c.pastBlanks.rest) ∧
    (∀ (g : Grammar TextCursor N P α) (limits : Limits),
      (Grammar.lexeme g).parse rules limits =
        Parser.lexeme limits.rounds (g.denote limits.rounds
          (rules.named limits.rounds limits.depth) ((Path.root.child 0).child 0))) ∧
    ∀ (p : Parser TextCursor P α) (c : TextCursor) (s : Session TextCursor),
      (∀ a d, (p c).result s = .ok (.success a d) →
        d.Valid ∧ Text.Addressable (String.ofList d.input)) →
      ∃ least, ∀ rounds, least ≤ rounds →
        let answer := (p c).result s
        let spaced := (Parser.lexeme rounds p c).result s
        (∀ a d, spaced = .ok (.success a d) ↔
          ∃ d', answer = .ok (.success a d') ∧ d = d'.pastBlanks) ∧
        (∀ f, spaced = .ok (.failure f) ↔ answer = .ok (.failure f)) ∧
        (∀ e, spaced = .ok (.error e) ↔ answer = .ok (.error e)) ∧
        (∀ stop, spaced = .error stop ↔ answer = .error stop) ∧
        (Parser.lexeme rounds (Parser.lexeme rounds p) c).result s = spaced := by
  refine ⟨fun c valid haddressable => ⟨whitespace_returns rules valid haddressable,
    valid.pastBlanks, rfl, ?_, c.apart_pastBlanks⟩, fun g _ => g.denote_lexeme Path.root,
    fun p c s hp => ?_⟩
  · refine ⟨⟨c.rest.takeWhile Text.isBlank, fun _ hx => List.mem_takeWhile_imp hx⟩, ?_⟩
    rw [Cursor.rest_pastBlanks]
    exact c.split_pastBlanks
  · obtain ⟨least, hleast⟩ := Reading.exists_spacious (p := p.readingIn s) hp
    refine ⟨least, fun rounds hrounds => ?_⟩
    intro answer spaced
    have hroom := hleast rounds hrounds
    have hspaced : spaced = Reading.lexeme rounds (p.readingIn s) c :=
      congrFun (p.readingIn_lexeme s rounds) c
    have hagain : (Parser.lexeme rounds (Parser.lexeme rounds p) c).result s =
        Reading.lexeme rounds (Reading.lexeme rounds (p.readingIn s)) c := by
      rw [← Parser.readingIn_lexeme, ← Parser.readingIn_lexeme]
      rfl
    rw [hagain, hspaced]
    exact ⟨fun a d => Reading.lexeme_eq_success_iff hroom, fun f => Reading.lexeme_eq_failure_iff,
      fun e => Reading.lexeme_eq_error_iff, fun stop => Reading.lexeme_eq_stop_iff hroom,
      Reading.lexeme_lexeme hroom⟩

/-- A letter in front of a blank, an ideographic space and a line feed, which
are one, three and one bytes wide. -/
theorem lexemes_skip_blanks_of_letter :
    let p : Parser TextCursor ParseError.payloads Char := Parser.primitive (Matcher.char 'a')
    let input := ['a', ' ', '\u3000', '\n', '!']
    let c := Cursor.start input
    let s := Session.fresh true
    Returns (fun limits => (Grammar.whitespace : Grammar TextCursor NoNames ParseError.payloads
        Unit).parse Rules.none limits ⟨1, input.tail, input⟩) (.success () ⟨6, ['!'], input⟩) ∧
      ∃ least, ∀ rounds, least ≤ rounds →
        (Parser.lexeme rounds p c).result s = .ok (.success 'a' ⟨6, ['!'], input⟩) ∧
        (Parser.lexeme rounds (Parser.lexeme rounds p) c).result s =
          .ok (.success 'a' ⟨6, ['!'], input⟩) := by
  intro p input c s
  let d : TextCursor := ⟨1, input.tail, input⟩
  have valid : d.Valid := ⟨['a'], rfl, rfl⟩
  have haddressable : Text.Addressable (String.ofList d.input) := by decide
  have hp : (p c).result s = .ok (.success 'a' d) := rfl
  obtain ⟨hblanks, -, hlexeme⟩ := lexemes_skip_blanks (P := ParseError.payloads) (α := Char)
    Rules.none
  obtain ⟨hreturns, -⟩ := hblanks d valid haddressable
  obtain ⟨least, hleast⟩ := hlexeme p c s fun a d' hd' => by
    obtain ⟨-, rfl⟩ := Outcome.success.inj (Except.ok.inj (hp.symm.trans hd'))
    exact ⟨valid, haddressable⟩
  refine ⟨hreturns, least, fun rounds hrounds => ?_⟩
  obtain ⟨hsuccess, -, -, -, hagain⟩ := hleast rounds hrounds
  have hspaced := (hsuccess 'a' ⟨6, ['!'], input⟩).2 ⟨d, hp, by decide⟩
  exact ⟨hspaced, hagain.trans hspaced⟩

end Answers

end Triad
