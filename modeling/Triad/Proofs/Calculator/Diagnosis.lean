import Triad.Proofs.Calculator.Defects
import Triad.Proofs.Calculator.Evaluation
import Triad.Proofs.Calculator.Termination
import Triad.Proofs.Text.Invented

/-!
# What is wrong with a text

The calculator answers every text that has a derivation with the outcome of the
derivation, and so with the first defect if there is one.  Every other text is
an error, and no text is answered with *no match* but one that has nothing
behind its blanks by which a sum could begin (`evaluate_diagnoses`).

As for values, the induction is on the derivation, and what carries it through
a chain is that operands are evaluated as they are read:

* `Gathered`: if all operands have values, the reading goes through the chain
  and gathers them, whatever the operators then make of them.
* `Stopped`: if not, it stops in an operand with the message about its defect.

A chain is `Rejected` in both cases, if it has a defect at all.
-/

namespace Triad.Calculator

variable {rounds : Nat} {c d : TextCursor} {v : Int} {s t : List Char} {m : String}

/-- A sum may begin with the character. -/
def isStart (x : Char) : Bool := Numeral.isStart x || x = '('

namespace Reads

variable {r : Rank} {level : Level} {p : Evaluation} {op : Char}

/-! ## Chains -/

/-- The reading errs with the first defect of the derivation, wherever a part of
the rank may end behind its text. -/
def Rejected (rounds : Nat) (p : Evaluation) (e : Derivation r) : Prop :=
  ∀ c t m, Room rounds c → c.rest = e.text ++ t → r.EndsAt t → e.outcome = .error m →
    p c = .ok (.error (.fatal m))

/-- If the operands have values, they are read as an operand and as operators
with operands, wherever an operand may end behind them. -/
def Gathered (rounds : Nat) (p : Evaluation) (e : Derivation (.chain level)) : Prop :=
  ∀ c t a l, Room rounds c → c.rest = e.text ++ t → level.operand.EndsAt t →
    e.operands = .ok (a, l) →
      ∃ d rest, p c = .ok (.success a d) ∧ Reading.Repeats (step rounds level.ops p) d l rest ∧
        rest.rest = t

/-- If an operand has a defect, the reading stops in the first such operand. -/
def Stopped (rounds : Nat) (p : Evaluation) (e : Derivation (.chain level)) : Prop :=
  ∀ c t m, Room rounds c → c.rest = e.text ++ t → level.operand.EndsAt t →
    e.operands = .error m →
      p c = .ok (.error (.fatal m)) ∨
        ∃ a l d rest, p c = .ok (.success a d) ∧
          Reading.Repeats (step rounds level.ops p) d l rest ∧
          step rounds level.ops p rest = .ok (.error (.fatal m))

/-- An error of an operand is one of the operator with the operand. -/
theorem step_of_error (hop : op ∈ level.ops) (hroom : Room rounds c) {w : Blanks}
    (hc : c.rest = op :: (w.chars ++ s)) (hs : Text.Apart Text.isBlank s) {e : ParseError}
    (hp : p (c.forward (op :: w.chars)) = .ok (.error e)) :
    step rounds level.ops p c = .ok (.error e) :=
  Reading.pair_eq_error_iff.2 (.inr ⟨op, _, operator_of_op hop hroom hc hs, .inl hp⟩)

theorem gathered_single {e : Derivation level.operand}
    (h : e.Defined → Accepted rounds p e) : Gathered rounds p (.single e) := by
  intro c t a l hroom hc ht hoperands
  rw [Derivation.operands_single] at hoperands
  cases hv : e.outcome with
  | error m =>
    rw [hv] at hoperands
    cases hoperands
  | ok v =>
    rw [hv] at hoperands
    cases hoperands
    obtain ⟨hdefined, rfl⟩ := Derivation.outcome_eq_ok_iff.1 hv
    obtain ⟨d, hp, hd⟩ := h hdefined c t hroom hc ht
    exact ⟨d, d, hp, .nil, hd⟩

theorem stopped_single {e : Derivation level.operand} (h : Rejected rounds p e) :
    Stopped rounds p (.single e) := by
  intro c t m hroom hc ht hoperands
  rw [Derivation.operands_single] at hoperands
  apply Or.inl
  apply h c t m hroom hc ht
  cases hv : e.outcome with
  | ok v =>
    rw [hv] at hoperands
    cases hoperands
  | error m' =>
    rw [hv] at hoperands
    cases hoperands
    rfl

section More

variable {e : Derivation (.chain level)} {hop : op ∈ level.ops} {w : Blanks}
  {e' : Derivation level.operand}

/-- Behind a chain, an operator and an operand are read where the operator is. -/
theorem Gathered.at_operator (h : Gathered rounds p e) {a : Int} {l : List (Char × Int)}
    (hroom : Room rounds c) (hc : c.rest = (Derivation.more e op hop w e').text ++ t)
    (hoperands : e.operands = .ok (a, l)) :
    ∃ d mid, p c = .ok (.success a d) ∧ Reading.Repeats (step rounds level.ops p) d l mid ∧
      Room rounds mid ∧ mid.rest = op :: (w.chars ++ (e'.text ++ t)) := by
  rw [Derivation.text, List.append_assoc, List.cons_append, List.append_assoc] at hc
  obtain ⟨d, mid, hfirst, hchain, hmid⟩ := h c _ a l hroom hc (Rank.endsAt_op hop) hoperands
  have hroom' : Room rounds mid := hroom.mono (by rw [hmid, hc]; simp)
  exact ⟨d, mid, hfirst, hchain, hroom', hmid⟩

theorem Gathered.more (h : Gathered rounds p e) (h' : e'.Defined → Accepted rounds p e') :
    Gathered rounds p (.more e op hop w e') := by
  intro c t a l hroom hc ht hoperands
  obtain ⟨l', b, hfirst, hb, rfl⟩ := Derivation.operands_more_eq_ok_iff.1 hoperands
  obtain ⟨hdefined, rfl⟩ := Derivation.outcome_eq_ok_iff.1 hb
  obtain ⟨d, mid, hp, hchain, hroom', hmid⟩ := h.at_operator hroom hc hfirst
  obtain ⟨rest, hoperand, hrest⟩ :=
    h' hdefined _ t (hroom'.forward _) (Cursor.rest_forward (s := op :: w.chars) hmid) ht
  have hstep := step_of_op hop hroom' hmid (e'.apart_blank t) hoperand
  exact ⟨d, rest, hp, hchain.snoc hstep, hrest⟩

theorem Stopped.more (h : Stopped rounds p e) (hgathered : Gathered rounds p e)
    (h' : Rejected rounds p e') : Stopped rounds p (.more e op hop w e') := by
  intro c t m hroom hc ht hoperands
  rcases Derivation.operands_more_eq_error_iff.1 hoperands with hfirst | ⟨a, l, hfirst, hm⟩
  · rw [Derivation.text, List.append_assoc, List.cons_append, List.append_assoc] at hc
    exact h c _ m hroom hc (Rank.endsAt_op hop) hfirst
  · obtain ⟨d, mid, hp, hchain, hroom', hmid⟩ := hgathered.at_operator hroom hc hfirst
    have hoperand := h' _ t m (hroom'.forward _)
      (Cursor.rest_forward (s := op :: w.chars) hmid) ht hm
    have hstep := step_of_error hop hroom' hmid (e'.apart_blank t) hoperand
    exact .inr ⟨a, l, d, mid, hp, hchain, hstep⟩

end More

/-- A chain is rejected where its reading stops, or with what its operators make
of the operands. -/
theorem Gathered.rejected (hp : Sound p level.operand) {e : Derivation (.chain level)}
    (hgathered : Gathered rounds p e) (hstopped : Stopped rounds p e) :
    Rejected rounds (chain rounds level.ops p) e := by
  intro c t m hroom hc ht houtcome
  apply Reading.check_eq_error_iff.2
  rcases Derivation.outcome_eq_error_iff_operands.1 houtcome with hm | ⟨a, l, hoperands, hm⟩
  · apply Or.inl
    apply Reading.pair_eq_error_iff.2
    rcases hstopped c t m hroom hc ht.operand hm with
      hfirst | ⟨a, l, d, rest, hfirst, hchain, hstep⟩
    · exact .inl hfirst
    · obtain ⟨hrounds, hlimit⟩ := operators_few hp hroom hfirst hchain
      have hmany := Reading.many_of_error (step_moves hp) hchain hlimit hrounds hstep 0
      exact .inr ⟨a, d, hfirst, .inl hmany⟩
  · obtain ⟨d, rest, hfirst, hchain, hrest⟩ := hgathered c t a l hroom hc ht.operand hoperands
    have hpair := operands_of_repeats hp hroom hfirst hchain (by rwa [hrest])
    have hfold : fold a l = .error (.fatal m) := by
      rw [Derivation.fold_operands hoperands, hm]
      rfl
    exact .inr ⟨(a, l), rest, hpair, hfold⟩

/-! ## Factors -/

theorem rejected_literal (nested : Evaluation) (n : Numeral) (w : Blanks) :
    Rejected rounds (factor rounds nested) (.literal n w) := by
  intro c t m hroom hc ht houtcome
  rw [Derivation.outcome_literal] at houtcome
  by_cases hfits : Word.Fits n.value
  · rw [if_pos hfits] at houtcome
    cases houtcome
  · rw [if_neg hfits] at houtcome
    obtain rfl := Except.error.inj houtcome
    rw [Derivation.text, List.append_assoc] at hc
    exact Reading.choice_of_error
      (Reading.item_of_overflow hroom hc (w.apart_digit ht.apart.1) hfits)

theorem rejected_parens {nested : Evaluation} {e : Derivation (.chain .sum)}
    (h : Rejected rounds nested e) (w w' : Blanks) :
    Rejected rounds (factor rounds nested) (.parens w e w') := by
  intro c t m hroom hc ht houtcome
  rw [Derivation.outcome_parens] at houtcome
  rw [Derivation.text_parens_append] at hc
  have hopen := Reading.symbol_of_char (P := ParseError.payloads) hroom hc (e.apart_blank _)
  have hsum := h _ _ m (hroom.forward ('(' :: w.chars))
    (Cursor.rest_forward (s := '(' :: w.chars) hc) (Rank.endsAt_cons List.mem_cons_self) houtcome
  have hpair := Reading.pair_eq_error_iff.2 (.inr ⟨_, _, hopen, .inl hsum⟩)
  have hparens : parenthesised rounds nested c = .ok (.error (.fatal m)) :=
    Reading.map_eq_error_iff.2 (Reading.pair_eq_error_iff.2 (.inl hpair))
  have hrest : Reading.choice [parenthesised rounds nested] c = _ :=
    Reading.choice_of_error hparens
  exact (factor_eq_of_open nested hroom hc).trans hrest

/-! ## Derivations -/

/-- What the induction on derivations shows: a factor is rejected if it has a
defect, and a chain is gathered or stopped. -/
def Examined (rounds depth : Nat) : {r : Rank} → Derivation r → Prop
  | .factor, e => Rejected rounds (part rounds (nested rounds depth) .factor) e
  | .chain level, e =>
    Gathered rounds (part rounds (nested rounds depth) level.operand) e ∧
      Stopped rounds (part rounds (nested rounds depth) level.operand) e

variable {depth : Nat}

theorem Examined.rejected {e : Derivation r} (h : Examined rounds depth e) :
    Rejected rounds (part rounds (nested rounds depth) r) e := by
  cases r with
  | factor => exact h
  | chain level =>
    rw [part_chain]
    exact Gathered.rejected (part_sound (nested_sound rounds depth) level.operand) h.1 h.2

/-- Every derivation is examined, if sums may be nested as deep as its text is
long.  Operands without a defect are read as `completed` says. -/
theorem examined (e : Derivation r) (hdepth : e.text.length ≤ depth) :
    Examined rounds depth e := by
  induction e generalizing depth with
  | literal n w => exact rejected_literal _ n w
  | parens w e w' ih =>
    rw [Derivation.text, List.length_cons, List.length_append, List.length_append] at hdepth
    obtain ⟨depth, rfl⟩ : ∃ less, depth = less + 1 := ⟨depth - 1, by omega⟩
    have hsum : Examined rounds depth e := ih (by omega)
    exact rejected_parens hsum.rejected w w'
  | single e ih =>
    have hoperand : Examined rounds depth e := ih hdepth
    refine ⟨gathered_single fun hdefined => ?_, stopped_single hoperand.rejected⟩
    exact (completed e hdefined hdepth).accepted
  | more e op hop w e' ih ih' =>
    rw [Derivation.text, List.length_append, List.length_cons, List.length_append] at hdepth
    have hchain : Examined rounds depth e := ih (by omega)
    have hoperand : Examined rounds depth e' := ih' (by omega)
    refine ⟨hchain.1.more fun hdefined => ?_, hchain.2.more hchain.1 hoperand.rejected⟩
    exact (completed e' hdefined (by omega)).accepted

theorem rejected_nested (e : Derivation (.chain .sum)) (hdepth : e.text.length < depth) :
    Rejected rounds (nested rounds depth) e := by
  obtain ⟨depth, rfl⟩ : ∃ less, depth = less + 1 := ⟨depth - 1, by omega⟩
  exact (examined e (by omega)).rejected

/-! ## No match -/

/-- The reading never errs with *no match*. -/
abbrev Proper {α : Type} (p : Reading TextCursor ParseError.payloads α) : Prop :=
  Reading.Related (fun (_ _ : ParseError) => True) (fun (e _ : ParseError) => e ≠ .noMatch) p p

theorem proper_iff {α : Type} {p : Reading TextCursor ParseError.payloads α} :
    Proper p ↔ ∀ c, p c ≠ .ok (.error .noMatch) := by
  constructor
  · intro h c hc
    have hrelated := h c
    rw [hc] at hrelated
    cases hrelated with
    | error he => exact he rfl
  · intro h c
    cases hc : p c with
    | error stop => exact .stop stop
    | ok o =>
      cases o with
      | success a d => exact .success a d
      | failure f => exact .failure trivial
      | error e =>
        refine .error ?_
        rintro rfl
        exact h c hc

theorem fold_ne_noMatch (a : Int) (l : List (Char × Int)) : fold a l ≠ .error .noMatch := by
  induction l generalizing a with
  | nil => simp [fold]
  | cons x l ih =>
    obtain ⟨op, b⟩ := x
    rw [fold]
    cases operate a op b with
    | some n => exact ih n
    | none => simp [undefinedOperation]

theorem proper_item : Proper (Reading.item rounds) := by
  apply proper_iff.2
  intro c h
  rcases Reading.check_eq_error_iff.1 (Reading.lexeme_eq_error_iff.1 h) with h | ⟨x, d, -, hread⟩
  · exact nomatch Reading.literal_eq_error h
  · dsimp only at hread
    cases hx : Decimal.read x.1 x.2 with
    | ok n =>
      rw [hx] at hread
      cases hread
    | error o =>
      rw [hx] at hread
      cases hread

theorem proper_symbol (x : Char) : Proper (Reading.symbol (P := ParseError.payloads) rounds x) :=
  proper_iff.2 fun _ => Reading.symbol_ne_error

theorem proper_operator (ops : List Char) : Proper (operator rounds ops) := by
  apply Reading.Related.choice trivial
  apply List.forall₂_same.2
  intro p hp
  obtain ⟨x, -, rfl⟩ := List.mem_map.1 hp
  exact proper_symbol x

theorem proper_chain (ops : List Char) (hp : Proper p) : Proper (chain rounds ops p) := by
  have hincomplete : ParseError.incomplete ≠ .noMatch := nofun
  have hstep : Proper (step rounds ops p) := .pair hincomplete (proper_operator ops) hp
  have hmany := hstep.many trivial hincomplete rounds 0 Bound.limit
  refine Reading.Related.check (.pair hincomplete hp hmany) (fun _ _ => Iff.rfl) ?_
  intro x e e' he _ hnoMatch
  rw [hnoMatch] at he
  exact fold_ne_noMatch _ _ he

theorem proper_factor {nested : Evaluation} (h : Proper nested) :
    Proper (factor rounds nested) := by
  have hincomplete : ParseError.incomplete ≠ .noMatch := nofun
  have hopen : Proper (Reading.pair (Reading.symbol rounds '(') nested) :=
    .pair hincomplete (proper_symbol '(') h
  have hparens : Proper (parenthesised rounds nested) := by
    unfold Proper parenthesised Reading.map
    exact (Reading.Related.pair hincomplete hopen (proper_symbol ')')).bind _
  exact .choice trivial (.cons proper_item (.cons hparens .nil))

/-- However deep sums are nested, none of them errs with *no match*. -/
theorem proper_nested (rounds depth : Nat) : Proper (nested rounds depth) := by
  induction depth with
  | zero => exact fun _ => .stop .unfinished
  | succ depth ih => exact proper_chain _ (proper_chain _ (proper_factor ih))

/-! ## Where no sum begins -/

theorem apart_isStart_iff :
    Text.Apart isStart s ↔ Text.Apart Numeral.isStart s ∧ Text.Apart (· = '(') s := Text.apart_or

theorem chain_eq_failure_iff {ops : List Char} {f : ParseError} :
    chain rounds ops p c = .ok (.failure f) ↔ p c = .ok (.failure f) := by
  unfold chain
  rw [Reading.check_eq_failure_iff, Reading.pair_eq_failure_iff]

theorem part_of_apart {nested : Evaluation} (hroom : Room rounds c)
    (hc : Text.Apart isStart c.rest) (r : Rank) :
    part rounds nested r c = .ok (.failure .noMatch) := by
  obtain ⟨hnumeral, hopen⟩ := apart_isStart_iff.1 hc
  have hparens : parenthesised rounds nested c = .ok (.failure .noMatch) := by
    apply Reading.map_eq_failure_iff.2
    apply Reading.pair_eq_failure_iff.2
    exact Reading.pair_eq_failure_iff.2 (Reading.symbol_of_apart hopen)
  have hfactor : factor rounds nested c = .ok (.failure .noMatch) := by
    apply (Reading.choice_of_failure (Reading.item_of_apart hroom hnumeral)).trans
    exact Reading.choice_of_failure hparens
  cases r with
  | factor => exact hfactor
  | chain level =>
    cases level with
    | product => exact chain_eq_failure_iff.2 hfactor
    | sum => exact chain_eq_failure_iff.2 (chain_eq_failure_iff.2 hfactor)

/-- A sum only fails where it cannot begin. -/
theorem apart_of_nested {depth : Nat} (hroom : Room rounds c) {f : ParseError}
    (h : nested rounds depth c = .ok (.failure f)) : Text.Apart isStart c.rest := by
  cases depth with
  | zero => cases h
  | succ depth =>
    have hfactor := chain_eq_failure_iff.1 (chain_eq_failure_iff.1 h)
    rcases Reading.choice_cons_iff.1 hfactor with ⟨-, hfailure⟩ | ⟨⟨f', hitem⟩, hrest⟩
    · exact absurd rfl (hfailure f)
    have hnumeral := Reading.integer_eq_failure hroom (Reading.lexeme_eq_failure_iff.1 hitem)
    rcases Reading.choice_cons_iff.1 hrest with ⟨-, hfailure⟩ | ⟨⟨f'', hparens⟩, -⟩
    · exact absurd rfl (hfailure f)
    have hsymbol := Reading.pair_eq_failure_iff.1
      (Reading.pair_eq_failure_iff.1 (Reading.map_eq_failure_iff.1 hparens))
    have hopen := Reading.apart_of_taken (Reading.lexeme_eq_failure_iff.1 hsymbol)
    exact apart_isStart_iff.2 ⟨hnumeral, hopen⟩

end Reads

/-! ## Whole texts -/

variable {text : String} {w : Blanks}

/-- With limits that are large enough, every text has an answer. -/
theorem evaluate_returns (text : String) :
    ∃ r, Returns (fun limits => evaluate limits text) r := by
  obtain ⟨o, ho⟩ := Entrance.spaced.part_answers (Cursor.start text.toList)
  have hspaced : ∀ limits, ample text.toList ≤ limits →
      Reads.spaced limits (Cursor.start text.toList) = .ok o := by
    intro limits hlimits
    rw [← answer_spaced]
    exact ho limits hlimits
  obtain ⟨r, hr⟩ := Reading.run_answers (hspaced _ ⟨Nat.le_refl _, Nat.le_refl _⟩) id
  refine ⟨r, ample text.toList, fun limits hlimits s => ?_⟩
  rw [evaluate_result, ← hr]
  unfold Reading.run
  rw [hspaced limits hlimits, hspaced _ ⟨Nat.le_refl _, Nat.le_refl _⟩]

/-- A text that has a derivation is answered with the outcome of the derivation. -/
theorem evaluate_of_outcome (haddressable : Text.Addressable text)
    {e : Derivation (.chain .sum)} (htext : text.toList = w.chars ++ e.text) :
    Returns (fun limits => evaluate limits text) (e.outcome.mapError .fatal) := by
  cases houtcome : e.outcome with
  | ok v =>
    obtain ⟨hdefined, rfl⟩ := Derivation.outcome_eq_ok_iff.1 houtcome
    exact evaluate_of_derivation haddressable htext hdefined
  | error m =>
    refine ⟨⟨text.toList.length + 1, text.toList.length + 1⟩, fun limits hlimits s => ?_⟩
    obtain ⟨c, hc, hroom, hdepth, hspaced⟩ := spaced_of_derivation haddressable htext hlimits
    have hsum := Reads.rejected_nested e hdepth c [] m hroom hc (Rank.endsAt_nil _) houtcome
    rw [evaluate_result]
    exact Reading.run_eq_error_iff.2 (.inl (hspaced.trans hsum))

theorem evaluate_eq_noMatch_iff (haddressable : Text.Addressable text) :
    Returns (fun limits => evaluate limits text) (.error .noMatch) ↔
      Text.Apart isStart (text.toList.dropWhile Text.isBlank) := by
  obtain ⟨w, t, htext, ht⟩ := Blanks.exists_run text.toList
  rw [htext, List.dropWhile_append_of_pos w.blank, ht.dropWhile_eq_self]
  constructor
  · intro hreturns
    obtain ⟨limits, hlimits, hresult⟩ := hreturns.within ⟨text.toList.length + 1, 0⟩
    obtain ⟨c, hc, hroom, hspaced⟩ := spaced_of_text haddressable htext ht hlimits.1
    have hrun := hresult (Session.fresh false)
    rw [evaluate_result] at hrun
    have hproper := Reads.proper_iff.1 (Reads.proper_nested limits.rounds limits.depth) c
    rcases Reading.run_eq_error_iff.1 hrun with h | ⟨f, h, -⟩ | ⟨a, d, -, -, h⟩
    · exact absurd (hspaced.symm.trans h) hproper
    · rw [← hc]
      exact Reads.apart_of_nested hroom (hspaced.symm.trans h)
    · cases h
  · intro hapart
    refine ⟨⟨text.toList.length + 1, 1⟩, fun limits hlimits s => ?_⟩
    obtain ⟨c, hc, hroom, hspaced⟩ := spaced_of_text haddressable htext ht hlimits.1
    obtain ⟨depth, hdepth⟩ : ∃ less, limits.depth = less + 1 :=
      ⟨limits.depth - 1, (Nat.sub_add_cancel hlimits.2).symm⟩
    have hsum : Reads.nested limits.rounds limits.depth c = .ok (.failure .noMatch) := by
      rw [hdepth]
      exact Reads.part_of_apart hroom (by rwa [hc]) (.chain .sum)
    rw [evaluate_result]
    exact Reading.run_eq_error_iff.2 (.inr (.inl ⟨_, hspaced.trans hsum, rfl⟩))

/-- A text that fits in memory and has a derivation behind its blanks is answered
with what the derivation comes to: its value, or else the first defect, which is
a fatal error.  A text without a derivation is an error.

The error is *no match* if and only if, behind the blanks, the text is at its end
or goes on with neither a digit nor a minus sign nor an opening parenthesis. -/
theorem evaluate_diagnoses (haddressable : Text.Addressable text) :
    (∀ (w : Blanks) (e : Derivation (.chain .sum)), text.toList = w.chars ++ e.text →
        Returns (fun limits => evaluate limits text) (e.outcome.mapError .fatal)) ∧
      ((∀ (w : Blanks) (e : Derivation (.chain .sum)), text.toList ≠ w.chars ++ e.text) →
        ∃ err, Returns (fun limits => evaluate limits text) (.error err)) ∧
      (Returns (fun limits => evaluate limits text) (.error .noMatch) ↔
        Text.Apart isStart (text.toList.dropWhile Text.isBlank)) := by
  refine ⟨fun w e htext => evaluate_of_outcome haddressable htext, fun hnone => ?_,
    evaluate_eq_noMatch_iff haddressable⟩
  obtain ⟨r, hreturns⟩ := evaluate_returns text
  cases r with
  | error err => exact ⟨err, hreturns⟩
  | ok v =>
    obtain ⟨limits, -, hresult⟩ := hreturns.within ⟨0, 0⟩
    obtain ⟨w, e, htext, -⟩ := evaluate_sound (hresult (Session.fresh false))
    exact absurd htext (hnone w e)

/-- The division in the last operand comes before the one in front of it. -/
theorem evaluate_diagnoses_last_operand :
    Returns (fun limits => evaluate limits "1/0*(2/0)")
      (.error (.fatal "cannot evaluate 2 / 0")) := by
  let none : Blanks := ⟨[], nofun⟩
  let zero : Derivation .factor := .literal ⟨false, ['0'], nofun, by simp⟩ none
  let one : Derivation .factor := .literal ⟨false, ['1'], nofun, by simp⟩ none
  let two : Derivation .factor := .literal ⟨false, ['2'], nofun, by simp⟩ none
  let inner : Derivation (.chain .product) := .more (.single two) '/' (by decide) none zero
  let front : Derivation (.chain .product) := .more (.single one) '/' (by decide) none zero
  let last : Derivation .factor := .parens none (.single inner) none
  let product : Derivation (.chain .product) := .more front '*' (by decide) none last
  exact (evaluate_diagnoses (by decide)).1 none (.single product) rfl

end Triad.Calculator
