import Triad.Proofs.Calculator.Soundness

/-!
# Evaluation of texts

The calculator answers a text with a value if and only if the text, after any
blanks, has a derivation that is defined and has that value (`evaluate_iff`).

One half is `Triad.Proofs.Calculator.Soundness`.  For the other half, the
induction is on the derivation.  What carries it through a chain is that the
chain is read as an operand and a repetition of operators with operands, and
that folding the values gives the value of the chain (`Chained`); only where
the chain ends is the repetition over, and then the chain is `Accepted`.
-/

namespace Triad.Calculator

variable {rounds : Nat} {c d : TextCursor} {v : Int} {s t : List Char}

namespace Reads

/-! ## Operators -/

variable {ops : List Char} {op : Char}

theorem operator_of_op (hop : op ∈ ops) (hroom : Room rounds c) {w : Blanks}
    (hc : c.rest = op :: (w.chars ++ s)) (hs : Text.Apart Text.isBlank s) :
    operator rounds ops c = .ok (.success op (c.forward (op :: w.chars))) := by
  induction ops with
  | nil => simp at hop
  | cons x ops ih =>
    by_cases hx : x = op
    · subst hx
      exact Reading.choice_of_success (Reading.symbol_of_char hroom hc hs)
    · have hapart : Text.Apart (· = x) c.rest := by
        rw [hc]
        exact Text.apart_cons (by simpa [eq_comm] using hx)
      have hrest := ih ((List.mem_cons.1 hop).resolve_left (Ne.symm hx))
      exact (Reading.choice_of_failure (Reading.symbol_of_apart hapart)).trans hrest

theorem operator_of_apart (hc : ∀ op ∈ ops, Text.Apart (· = op) c.rest) :
    operator rounds ops c = .ok (.failure .noMatch) := by
  induction ops with
  | nil => rfl
  | cons x ops ih =>
    have hx : Reading.symbol (P := ParseError.payloads) rounds x c = .ok (.failure .noMatch) :=
      Reading.symbol_of_apart (hc x List.mem_cons_self)
    have hrest := ih fun op hop => hc op (List.mem_cons_of_mem _ hop)
    exact (Reading.choice_of_failure hx).trans hrest

/-! ## Chains -/

variable {level : Level} {p : Evaluation} {r : Rank}

theorem step_of_op (hop : op ∈ level.ops) (hroom : Room rounds c) {w : Blanks}
    (hc : c.rest = op :: (w.chars ++ s)) (hs : Text.Apart Text.isBlank s)
    (hp : p (c.forward (op :: w.chars)) = .ok (.success v d)) :
    step rounds level.ops p c = .ok (.success (op, v) d) :=
  Reading.pair_eq_success_iff.2 ⟨_, operator_of_op hop hroom hc hs, hp⟩

theorem step_shortens (hp : Sound p level.operand) {x : Char × Int}
    (h : step rounds level.ops p c = .ok (.success x d)) : d.rest.length < c.rest.length := by
  obtain ⟨op, b⟩ := x
  obtain ⟨-, w, d', hc, hoperand⟩ := step_eq_success h
  have hshort := hp.shortens hoperand
  rw [hc, List.length_cons, List.length_append]
  omega

theorem step_moves (hp : Sound p level.operand) : Reading.Moves (step rounds level.ops p) := by
  intro c x h
  have := step_shortens hp h
  omega

/-- The reading reads the text of the derivation wherever a part of the rank
may end behind it. -/
def Accepted (rounds : Nat) (p : Evaluation) (e : Derivation r) : Prop :=
  ∀ c t, Room rounds c → c.rest = e.text ++ t → r.EndsAt t →
    ∃ d, p c = .ok (.success e.value d) ∧ d.rest = t

/-- The text of the chain is read as an operand and as operators with operands,
wherever an operand may end behind it, and their values make that of the chain. -/
def Chained (rounds : Nat) (p : Evaluation) (e : Derivation (.chain level)) : Prop :=
  ∀ c t, Room rounds c → c.rest = e.text ++ t → level.operand.EndsAt t →
    ∃ a l d rest, p c = .ok (.success a d) ∧ Reading.Repeats (step rounds level.ops p) d l rest ∧
      rest.rest = t ∧ fold a l = .ok e.value

/-- There are less operators than the room allows. -/
theorem operators_few (hp : Sound p level.operand) (hroom : Room rounds c) {a : Int}
    {l : List (Char × Int)} {rest : TextCursor} (hfirst : p c = .ok (.success a d))
    (hchain : Reading.Repeats (step rounds level.ops p) d l rest) :
    l.length < rounds ∧ l.length < Bound.limit := by
  have hshort := hp.shortens hfirst
  have hlength := hchain.length_le (fun c => c.rest.length) fun _ _ _ => step_shortens hp
  have hrounds := hroom.rounds
  have hlimit := hroom.limit
  omega

/-- Where no operator goes on, all operands have been read. -/
theorem operands_of_repeats (hp : Sound p level.operand) (hroom : Room rounds c) {a : Int}
    {l : List (Char × Int)} {rest : TextCursor} (hfirst : p c = .ok (.success a d))
    (hchain : Reading.Repeats (step rounds level.ops p) d l rest)
    (hends : (Rank.chain level).EndsAt rest.rest) :
    Reading.pair p (Reading.many rounds 0 Bound.limit (step rounds level.ops p)) c =
      .ok (.success (a, l) rest) := by
  obtain ⟨hrounds, hlimit⟩ := operators_few hp hroom hfirst hchain
  have hoperator : operator rounds level.ops rest = .ok (.failure .noMatch) :=
    operator_of_apart fun op hop => hends.apart_op hop
  have hend : step rounds level.ops p rest = .ok (.failure .noMatch) :=
    Reading.pair_eq_failure_iff.2 hoperator
  have hmany := Reading.many_of_failure (step_moves hp) hchain hlimit.le hrounds hend 0
  rw [Reading.settle_zero] at hmany
  exact Reading.pair_eq_success_iff.2 ⟨d, hfirst, hmany⟩

/-- A chain is accepted where no operator goes on. -/
theorem Chained.accepted (hp : Sound p level.operand) {e : Derivation (.chain level)}
    (h : Chained rounds p e) : Accepted rounds (chain rounds level.ops p) e := by
  intro c t hroom hc ht
  obtain ⟨a, l, d, rest, hfirst, hchain, hrest, hfold⟩ := h c t hroom hc ht.operand
  have hpair := operands_of_repeats hp hroom hfirst hchain (by rwa [hrest])
  exact ⟨rest, Reading.check_eq_success_iff.2 ⟨_, hpair, hfold⟩, hrest⟩

theorem chained_single {e : Derivation level.operand} (h : Accepted rounds p e) :
    Chained rounds p (.single e) := by
  intro c t hroom hc ht
  obtain ⟨d, hp, hd⟩ := h c t hroom hc ht
  exact ⟨_, [], d, d, hp, .nil, hd, rfl⟩

/-- A chain goes on with an operator and an operand. -/
theorem Chained.more {e : Derivation (.chain level)} (h : Chained rounds p e)
    (hop : op ∈ level.ops) (w : Blanks) {e' : Derivation level.operand}
    (h' : Accepted rounds p e') (hdefined : (Derivation.more e op hop w e').Defined) :
    Chained rounds p (.more e op hop w e') := by
  intro c t hroom hc ht
  rw [Derivation.text, List.append_assoc, List.cons_append, List.append_assoc] at hc
  obtain ⟨a, l, d, mid, hfirst, hchain, hmid, hfold⟩ := h c _ hroom hc (Rank.endsAt_op hop)
  have hroom' : Room rounds mid := hroom.mono (by rw [hmid, hc]; simp)
  obtain ⟨rest, hoperand, hrest⟩ :=
    h' _ t (hroom'.forward _) (Cursor.rest_forward (s := op :: w.chars) hmid) ht
  have hstep := step_of_op hop hroom' hmid (e'.apart_blank t) hoperand
  obtain ⟨-, -, hzero, hfits⟩ := hdefined
  have hoperate := (operate_eq_some_iff hop).2 ⟨hzero, hfits, rfl⟩
  refine ⟨a, l ++ [(op, e'.value)], d, rest, hfirst, hchain.snoc hstep, hrest, ?_⟩
  rw [fold_append hfold]
  exact fold_cons_eq_ok_iff.2 ⟨_, hoperate, rfl⟩

/-! ## Factors -/

theorem factor_of_literal (nested : Evaluation) {n : Numeral} (w : Blanks)
    (hfits : Word.Fits n.value) : Accepted rounds (factor rounds nested) (.literal n w) := by
  intro c t hroom hc ht
  rw [Derivation.text, List.append_assoc] at hc
  have hitem := Reading.item_of_fits hroom hc ht.apart.1 ht.apart.2 hfits
  refine ⟨_, Reading.choice_of_success hitem, ?_⟩
  exact Cursor.rest_forward (by rw [hc, List.append_assoc])

/-- Where a parenthesis opens there is no literal. -/
theorem factor_eq_of_open (nested : Evaluation) (hroom : Room rounds c) (hc : c.rest = '(' :: s) :
    factor rounds nested c = Reading.choice [parenthesised rounds nested] c := by
  have hitem : Reading.item rounds c = .ok (.failure .noMatch) := by
    refine Reading.item_of_apart hroom ?_
    rw [hc]
    exact Text.apart_cons rfl
  exact Reading.choice_of_failure hitem

theorem factor_of_parens {nested : Evaluation} {e : Derivation (.chain .sum)}
    (h : Accepted rounds nested e) (w w' : Blanks) :
    Accepted rounds (factor rounds nested) (.parens w e w') := by
  intro c t hroom hc ht
  rw [Derivation.text_parens_append] at hc
  have hopen := Reading.symbol_of_char (P := ParseError.payloads) hroom hc (e.apart_blank _)
  have hroom₁ := hroom.forward ('(' :: w.chars)
  obtain ⟨d, hsum, hd⟩ := h _ _ hroom₁ (Cursor.rest_forward (s := '(' :: w.chars) hc)
    (Rank.endsAt_cons List.mem_cons_self)
  have hroom₂ : Room rounds d := hroom.mono (by rw [hd, hc]; simp; omega)
  have hclose := Reading.symbol_of_char (P := ParseError.payloads) hroom₂ hd ht.apart.2
  have hpair := Reading.pair_eq_success_iff.2
    ⟨d, Reading.pair_eq_success_iff.2 ⟨_, hopen, hsum⟩, hclose⟩
  have hparens : parenthesised rounds nested c =
      .ok (.success e.value (d.forward (')' :: w'.chars))) :=
    Reading.map_eq_success_iff.2 ⟨_, hpair, rfl⟩
  have hrest : Reading.choice [parenthesised rounds nested] c = _ :=
    Reading.choice_of_success hparens
  exact ⟨_, (factor_eq_of_open nested hroom hc).trans hrest,
    Cursor.rest_forward (s := ')' :: w'.chars) hd⟩

/-! ## Derivations -/

/-- What the induction on derivations shows: a factor is accepted, and a chain
is read as far as it goes. -/
def Completed (rounds depth : Nat) : {r : Rank} → Derivation r → Prop
  | .factor, e => Accepted rounds (part rounds (nested rounds depth) .factor) e
  | .chain level, e => Chained rounds (part rounds (nested rounds depth) level.operand) e

variable {depth : Nat}

theorem Completed.accepted {e : Derivation r} (h : Completed rounds depth e) :
    Accepted rounds (part rounds (nested rounds depth) r) e := by
  cases r with
  | factor => exact h
  | chain level =>
    rw [part_chain]
    exact Chained.accepted (part_sound (nested_sound rounds depth) level.operand) h

/-- Every derivation that is defined is read, if sums may be nested as deep as
its text is long. -/
theorem completed (e : Derivation r) (hdefined : e.Defined) (hdepth : e.text.length ≤ depth) :
    Completed rounds depth e := by
  induction e generalizing depth with
  | literal n w => exact factor_of_literal _ w hdefined
  | parens w e w' ih =>
    rw [Derivation.text, List.length_cons, List.length_append, List.length_append] at hdepth
    obtain ⟨depth, rfl⟩ : ∃ less, depth = less + 1 := ⟨depth - 1, by omega⟩
    have hsum : Completed rounds depth e := ih hdefined (by omega)
    exact factor_of_parens hsum.accepted w w'
  | single e ih =>
    have hoperand : Completed rounds depth e := ih hdefined hdepth
    exact chained_single hoperand.accepted
  | more e op hop w e' ih ih' =>
    rw [Derivation.text, List.length_append, List.length_cons, List.length_append] at hdepth
    have hchain : Completed rounds depth e := ih hdefined.1 (by omega)
    have hoperand : Completed rounds depth e' := ih' hdefined.2.1 (by omega)
    exact Chained.more hchain hop w hoperand.accepted hdefined

theorem nested_of_derivation (e : Derivation (.chain .sum)) (hdefined : e.Defined)
    (hdepth : e.text.length < depth) : Accepted rounds (nested rounds depth) e := by
  obtain ⟨depth, rfl⟩ : ∃ less, depth = less + 1 := ⟨depth - 1, by omega⟩
  exact (completed e hdefined (by omega)).accepted

/-! ## Sums behind blanks -/

/-- A sum is read where the blanks end. -/
theorem spaced_of_blanks {limits : Limits} (hroom : Room limits.rounds c) {w : Blanks}
    (hc : c.rest = w.chars ++ t) (ht : Text.Apart Text.isBlank t) :
    spaced limits c = nested limits.rounds limits.depth (c.forward w.chars) := by
  have hblanks := Reading.whitespace_of_blanks (P := ParseError.payloads) hroom hc ht
  rw [spaced, Reading.past, hblanks]

end Reads

/-! ## Whole texts -/

variable {text : String} {w : Blanks}

/-- Behind its blanks, a text that fits in memory is read as a sum. -/
theorem spaced_of_text (haddressable : Text.Addressable text)
    (htext : text.toList = w.chars ++ t) (ht : Text.Apart Text.isBlank t) {limits : Limits}
    (hlimits : text.toList.length < limits.rounds) :
    ∃ c : TextCursor, c.rest = t ∧ Room limits.rounds c ∧
      Reads.spaced limits (Cursor.start text.toList) =
        Reads.nested limits.rounds limits.depth c := by
  have hroom : Room limits.rounds (Cursor.start text.toList) := Room.start haddressable hlimits
  exact ⟨_, Cursor.rest_forward htext, hroom.forward w.chars,
    Reads.spaced_of_blanks hroom htext ht⟩

/-- Whatever its limits, the calculator only answers with values of derivations. -/
theorem evaluate_sound {limits : Limits} {s : Session TextCursor}
    (h : (evaluate limits text).result s = .ok (.ok v)) :
    ∃ (w : Blanks) (e : Derivation (.chain .sum)), text.toList = w.chars ++ e.text ∧
      e.Defined ∧ e.value = v := by
  rw [evaluate_result] at h
  obtain ⟨d, hspaced, hend⟩ := Reading.run_eq_ok_iff.1 h
  obtain ⟨d', hblanks, hsum⟩ := Reading.past_eq_success_iff.1 hspaced
  obtain ⟨w, htext, -⟩ := Reading.whitespace_eq_success hblanks
  obtain ⟨e, hd', hvalue⟩ := Reads.nested_sound limits.rounds limits.depth d' d v hsum
  refine ⟨w, e, ?_, hvalue⟩
  rw [hd', hend, List.append_nil] at htext
  exact htext

/-- Limits that are larger than the text do for a derivation of it. -/
theorem spaced_of_derivation (haddressable : Text.Addressable text)
    {e : Derivation (.chain .sum)} (htext : text.toList = w.chars ++ e.text) {limits : Limits}
    (hlimits : ⟨text.toList.length + 1, text.toList.length + 1⟩ ≤ limits) :
    ∃ c : TextCursor, c.rest = e.text ++ [] ∧ Room limits.rounds c ∧
      e.text.length < limits.depth ∧
      Reads.spaced limits (Cursor.start text.toList) =
        Reads.nested limits.rounds limits.depth c := by
  have hlength : e.text.length ≤ text.toList.length := by
    rw [htext, List.length_append]
    omega
  rw [← List.append_nil e.text] at htext
  obtain ⟨c, hc, hroom, hspaced⟩ :=
    spaced_of_text haddressable htext (e.apart_blank []) hlimits.1
  exact ⟨c, hc, hroom, Nat.lt_of_le_of_lt hlength hlimits.2, hspaced⟩

/-- A derivation that is defined is evaluated, if the text fits in memory. -/
theorem evaluate_of_derivation (haddressable : Text.Addressable text)
    {e : Derivation (.chain .sum)} (htext : text.toList = w.chars ++ e.text)
    (hdefined : e.Defined) : Returns (fun limits => evaluate limits text) (.ok e.value) := by
  refine ⟨⟨text.toList.length + 1, text.toList.length + 1⟩, fun limits hlimits s => ?_⟩
  obtain ⟨c, hc, hroom, hdepth, hspaced⟩ := spaced_of_derivation haddressable htext hlimits
  obtain ⟨d, hsum, hend⟩ :=
    Reads.nested_of_derivation e hdefined hdepth c [] hroom hc (Rank.endsAt_nil _)
  rw [evaluate_result]
  exact Reading.run_eq_ok_iff.2 ⟨d, hspaced.trans hsum, hend⟩

/-- The calculator answers with a value exactly the texts that are, after any
blanks, the text of a sum whose literals and results are words and which does
not divide by zero; and the value is that of the sum in the integers. -/
theorem evaluate_iff (haddressable : Text.Addressable text) (v : Int) :
    Returns (fun limits => evaluate limits text) (.ok v) ↔
      ∃ (w : Blanks) (e : Derivation (.chain .sum)), text.toList = w.chars ++ e.text ∧
        e.Defined ∧ e.value = v := by
  constructor
  · rintro ⟨least, hleast⟩
    exact evaluate_sound (hleast least ⟨Nat.le_refl _, Nat.le_refl _⟩ (Session.fresh false))
  · rintro ⟨w, e, htext, hdefined, rfl⟩
    exact evaluate_of_derivation haddressable htext hdefined

/-- The first minus sign is an operator and the second one belongs to a literal. -/
theorem evaluate_iff_two_signs :
    Returns (fun limits => evaluate limits "1--2") (.ok 3) := by
  let none : Blanks := ⟨[], nofun⟩
  let one : Derivation .factor := .literal ⟨false, ['1'], nofun, by simp⟩ none
  let two : Derivation .factor := .literal ⟨true, ['2'], nofun, by simp⟩ none
  let difference : Derivation (.chain .sum) :=
    .more (.single (.single one)) '-' (by decide) none (.single two)
  exact (evaluate_iff (by decide) 3).2 ⟨none, difference, rfl, by decide, rfl⟩

end Triad.Calculator
