import Triad.Proofs.Calculator.Derivation
import Triad.Proofs.Meaning.Whole

/-!
# What the calculator's grammar has read

`Reads` holds the readings of the grammar, by rank and by how deep sums are
nested.  `Sound` says of a reading that what it succeeds on has a derivation
that is defined, and that the value is the value of the derivation.  It holds
of every part of the grammar if it holds of the sums nested in it
(`Reads.part_sound`), and so it holds of sums nested any number of times
(`Reads.nested_sound`).
-/

namespace Triad.Calculator

variable {rounds : Nat} {c d : TextCursor} {v : Int}

/-- The reading of a part that has a value. -/
abbrev Evaluation := Reading TextCursor ParseError.payloads Int

namespace Reads

/-! ## The readings of the grammar -/

/-- One of the operators, with the blanks behind it. -/
def operator (rounds : Nat) (ops : List Char) : Reading TextCursor ParseError.payloads Char :=
  Reading.choice (ops.map (Reading.symbol rounds))

/-- An operator and an operand. -/
def step (rounds : Nat) (ops : List Char) (p : Evaluation) :
    Reading TextCursor ParseError.payloads (Char × Int) :=
  Reading.pair (operator rounds ops) p

def chain (rounds : Nat) (ops : List Char) (p : Evaluation) : Evaluation :=
  Reading.check (fun (first, rest) => fold first rest)
    (Reading.pair p (Reading.many rounds 0 Bound.limit (step rounds ops p)))

def parenthesised (rounds : Nat) (nested : Evaluation) : Evaluation :=
  Reading.map (fun ((_, n), _) => n)
    (Reading.pair (Reading.pair (Reading.symbol rounds '(') nested) (Reading.symbol rounds ')'))

def factor (rounds : Nat) (nested : Evaluation) : Evaluation :=
  Reading.choice [Reading.item rounds, parenthesised rounds nested]

/-- The part of a rank, given what is read between parentheses. -/
def part (rounds : Nat) (nested : Evaluation) : Rank → Evaluation
  | .factor => factor rounds nested
  | .chain .product => chain rounds Level.product.ops (factor rounds nested)
  | .chain .sum =>
    chain rounds Level.sum.ops (chain rounds Level.product.ops (factor rounds nested))

theorem part_chain (rounds : Nat) (nested : Evaluation) (level : Level) :
    part rounds nested (.chain level) =
      chain rounds level.ops (part rounds nested level.operand) := by
  cases level <;> rfl

/-- A sum with parentheses that are less than `depth` deep. -/
def nested (rounds : Nat) : Nat → Evaluation
  | 0 => fun _ => .error .unfinished
  | depth + 1 => part rounds (nested rounds depth) (.chain .sum)

/-- A sum behind any blanks. -/
def spaced (limits : Limits) : Evaluation :=
  Reading.past (Reading.whitespace limits.rounds) (nested limits.rounds limits.depth)

end Reads

section Readings

variable {named : ∀ {P : Payloads} {α : Type}, Name P α → Reading TextCursor P α}

theorem reading_chain (ops : List Char) (operand : Part Int) :
    (chain ops operand).reading rounds named =
      Reads.chain rounds ops (operand.reading rounds named) := by
  show Reading.check _ (Reading.pair _ (Reading.many rounds 0 Bound.limit
    (Reading.pair ((Grammar.firstOf (ops.map symbol)).reading rounds named) _))) = _
  rw [Grammar.reading_firstOf, List.map_map]
  simp only [Function.comp_def, symbol, Grammar.reading_lexeme_char]
  rfl

theorem reading_factor :
    factor.reading rounds named = Reads.factor rounds (named .sum) := by
  show (Grammar.firstOf [Grammar.lexeme Grammar.integer, parenthesised]).reading rounds named = _
  rw [Grammar.reading_firstOf]
  show Reading.choice [(Grammar.lexeme Grammar.integer : Part Int).reading rounds named,
    Reading.map _ (Reading.pair (Reading.pair ((symbol '(').reading rounds named) (named .sum))
      ((symbol ')').reading rounds named))] = _
  rw [symbol, symbol, Grammar.reading_lexeme_integer, Grammar.reading_lexeme_char,
    Grammar.reading_lexeme_char]
  rfl

theorem reading_sum (depth : Nat) :
    rules.reading rounds depth .sum = Reads.nested rounds depth := by
  induction depth with
  | zero => rfl
  | succ depth ih =>
    show (chain ['+', '-'] (chain ['*', '/'] factor)).reading rounds
      (rules.reading rounds depth) = _
    rw [reading_chain, reading_chain, reading_factor, ih]
    rfl

end Readings

theorem answer_sum (limits : Limits) :
    sum.answer rules limits = Reads.nested limits.rounds limits.depth := reading_sum _

theorem answer_term (limits : Limits) :
    term.answer rules limits =
      Reads.part limits.rounds (Reads.nested limits.rounds limits.depth) (.chain .product) := by
  show (chain ['*', '/'] factor).reading limits.rounds _ = _
  rw [reading_chain, reading_factor, reading_sum]
  rfl

theorem answer_factor (limits : Limits) :
    factor.answer rules limits =
      Reads.part limits.rounds (Reads.nested limits.rounds limits.depth) .factor := by
  show factor.reading limits.rounds _ = _
  rw [reading_factor, reading_sum]
  rfl

theorem answer_spaced (limits : Limits) :
    Reading.past ((Grammar.whitespace : Part Unit).answer rules limits) (sum.answer rules limits) =
      Reads.spaced limits := by
  show Reading.past ((Grammar.whitespace : Part Unit).reading limits.rounds _)
    (rules.reading limits.rounds limits.depth .sum) = _
  rw [Grammar.reading_whitespace, reading_sum]
  rfl

theorem evaluate_result (limits : Limits) (text : String) (s : Session TextCursor) :
    (evaluate limits text).result s = Reading.run id (Reads.spaced limits) text := by
  have hblanks := Grammar.parse_follows rules limits (Grammar.whitespace : Part Unit)
  have hsum := Grammar.parse_follows rules limits sum
  rw [evaluate, spaced, parser, parser, Parser.run_result id (Parser.follows_past hblanks hsum)]
  rw [answer_spaced]

/-! ## Operators -/

namespace Reads

variable {ops : List Char} {op x : Char}

theorem operator_eq_success (h : operator rounds ops c = .ok (.success op d)) :
    op ∈ ops ∧ ∃ w : Blanks, c.rest = op :: (w.chars ++ d.rest) := by
  induction ops with
  | nil => simp [operator, Reading.choice] at h
  | cons x ops ih =>
    rcases Reading.choice_cons_iff.1 h with ⟨h, -⟩ | ⟨-, h⟩
    · obtain ⟨rfl, w, hc⟩ := Reading.symbol_eq_success h
      exact ⟨List.mem_cons_self, w, hc⟩
    · obtain ⟨hop, w, hc⟩ := ih h
      exact ⟨List.mem_cons_of_mem _ hop, w, hc⟩

end Reads

/-! ## Soundness -/

/-- What the reading succeeds on is derived, and the derivation is defined and
has that value. -/
def Sound (p : Evaluation) (r : Rank) : Prop :=
  ∀ c d v, p c = .ok (.success v d) →
    ∃ e : Derivation r, c.rest = e.text ++ d.rest ∧ e.Defined ∧ e.value = v

theorem Sound.shortens {p : Evaluation} {r : Rank} (hp : Sound p r)
    (h : p c = .ok (.success v d)) : d.rest.length < c.rest.length := by
  obtain ⟨e, hc, -⟩ := hp c d v h
  have hlength := congrArg List.length hc
  have hpos := e.length_pos
  rw [List.length_append] at hlength
  omega

theorem Sound.fits {p : Evaluation} {r : Rank} (hp : Sound p r) (h : p c = .ok (.success v d)) :
    Word.Fits v := by
  obtain ⟨e, -, he, rfl⟩ := hp c d v h
  exact he.fits

namespace Reads

variable {level : Level} {p : Evaluation}

theorem step_eq_success {op : Char} (h : step rounds level.ops p c = .ok (.success (op, v) d)) :
    op ∈ level.ops ∧ ∃ (w : Blanks) (d' : TextCursor),
      c.rest = op :: (w.chars ++ d'.rest) ∧ p d' = .ok (.success v d) := by
  obtain ⟨d', hoperator, hp⟩ := Reading.pair_eq_success_iff.1 h
  obtain ⟨hop, w, hc⟩ := operator_eq_success hoperator
  exact ⟨hop, w, d', hc, hp⟩

/-- A derivation goes on with every operator and operand that a chain reads. -/
theorem chain_of_repeats (hp : Sound p level.operand) {l : List (Char × Int)} {rest : TextCursor}
    (h : Reading.Repeats (step rounds level.ops p) d l rest) (e : Derivation (.chain level))
    (he : e.Defined) (hfold : fold e.value l = .ok v) :
    ∃ e' : Derivation (.chain level), e.text ++ d.rest = e'.text ++ rest.rest ∧ e'.Defined ∧
      e'.value = v := by
  induction h generalizing e with
  | nil => exact ⟨e, rfl, he, Except.ok.inj hfold⟩
  | @cons d d₁ rest x l hstep _ ih =>
    obtain ⟨op, b⟩ := x
    obtain ⟨hop, w, d', hd, hoperand⟩ := step_eq_success hstep
    obtain ⟨e₁, hd', he₁, rfl⟩ := hp d' d₁ b hoperand
    obtain ⟨n, hoperate, hfold'⟩ := fold_cons_eq_ok_iff.1 hfold
    obtain ⟨hzero, hfits, rfl⟩ := (operate_eq_some_iff hop).1 hoperate
    let longer : Derivation (.chain level) := .more e op hop w e₁
    obtain ⟨e', htext, he'⟩ := ih longer ⟨he, he₁, hzero, hfits⟩ hfold'
    refine ⟨e', ?_, he'⟩
    rw [← htext, hd, hd']
    simp [longer, Derivation.text]

theorem chain_sound (hp : Sound p level.operand) :
    Sound (chain rounds level.ops p) (.chain level) := by
  intro c d v h
  obtain ⟨⟨a, l⟩, hpair, hfold⟩ := Reading.check_eq_success_iff.1 h
  obtain ⟨d', hfirst, hmany⟩ := Reading.pair_eq_success_iff.1 hpair
  obtain ⟨e, hc, he, rfl⟩ := hp c d' a hfirst
  have hchain := (Reading.many_eq_success hmany).1
  obtain ⟨e', htext, he'⟩ := chain_of_repeats hp hchain (.single e) he hfold
  exact ⟨e', by rw [hc, ← htext]; rfl, he'⟩

theorem factor_sound {nested : Evaluation} (hnested : Sound nested (.chain .sum)) :
    Sound (factor rounds nested) .factor := by
  intro c d v h
  rcases Reading.choice_cons_iff.1 h with ⟨h, -⟩ | ⟨-, h⟩
  · obtain ⟨n, w, hc, hfits, rfl⟩ := Reading.item_eq_success h
    exact ⟨.literal n w, by rw [hc, Derivation.text, List.append_assoc], hfits, rfl⟩
  · rcases Reading.choice_cons_iff.1 h with ⟨h, -⟩ | ⟨-, h⟩
    · obtain ⟨⟨⟨x, v'⟩, y⟩, hpair, rfl⟩ := Reading.map_eq_success_iff.1 h
      obtain ⟨d₂, hopen, hclose⟩ := Reading.pair_eq_success_iff.1 hpair
      obtain ⟨d₁, hsymbol, hsum⟩ := Reading.pair_eq_success_iff.1 hopen
      obtain ⟨-, w, hc⟩ := Reading.symbol_eq_success hsymbol
      obtain ⟨e, hd₁, he, rfl⟩ := hnested d₁ d₂ v' hsum
      obtain ⟨-, w', hd₂⟩ := Reading.symbol_eq_success hclose
      refine ⟨.parens w e w', ?_, he, rfl⟩
      rw [hc, hd₁, hd₂]
      simp [Derivation.text]
    · simp [Reading.choice] at h

theorem part_sound {nested : Evaluation} (hnested : Sound nested (.chain .sum)) (r : Rank) :
    Sound (part rounds nested r) r := by
  have hfactor : Sound (part rounds nested .factor) Level.product.operand := factor_sound hnested
  have hproduct : Sound (part rounds nested (.chain .product)) Level.sum.operand :=
    chain_sound hfactor
  have hsum : Sound (part rounds nested (.chain .sum)) (.chain .sum) := chain_sound hproduct
  cases r with
  | factor => exact hfactor
  | chain level =>
    cases level with
    | product => exact hproduct
    | sum => exact hsum

theorem nested_sound (rounds depth : Nat) : Sound (nested rounds depth) (.chain .sum) := by
  induction depth with
  | zero => exact fun _ _ _ h => nomatch h
  | succ depth ih => exact part_sound ih (.chain .sum)

end Reads

/-! ## The parts of the grammar -/

theorem sound_sum (limits : Limits) : Sound (sum.answer rules limits) (.chain .sum) := by
  rw [answer_sum]
  exact Reads.nested_sound _ _

theorem sound_term (limits : Limits) : Sound (term.answer rules limits) (.chain .product) := by
  rw [answer_term]
  exact Reads.part_sound (Reads.nested_sound _ _) _

theorem sound_factor (limits : Limits) : Sound (factor.answer rules limits) .factor := by
  rw [answer_factor]
  exact Reads.part_sound (Reads.nested_sound _ _) _

end Triad.Calculator
