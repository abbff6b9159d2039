import Triad.Proofs.Calculator.Nesting
import Triad.Proofs.Calculator.Soundness
import Triad.Proofs.Text.Termination

/-!
# Evaluation ends

The calculator answers at every place of every text, whatever the operands are
(`evaluation_ends`).  The limits that are `ample` for this are read off the
text: a repetition needs a round for every byte that is left, and sums need to
be unfolded once for every opening parenthesis that is left, and once more.

The induction is on the depth of unfolding.  A sum between parentheses is read
behind one of them, so fewer are left there, and that is all that the parts of
one sum have to know of the sums inside it (`factor_finishes`).
-/

namespace Triad

/-! ## Parts without sums -/

namespace Reading

variable {P : Payloads} {rounds : Nat} {c : TextCursor}

/-- The readings of no names. -/
def noNames : ∀ {P : Payloads} {α : Type}, NoNames P α → Reading TextCursor P α :=
  fun name => name.elim

theorem symbol_finishes (x : Char) (hrounds : Width.total c.rest < rounds) :
    symbol (P := P) rounds x c ≠ .error .unfinished := by
  have hreading : (Grammar.lexeme (Grammar.char x) : Grammar TextCursor NoNames P Char).reading
      rounds noNames = symbol rounds x := Grammar.reading_lexeme_char x
  rw [← hreading]
  exact Grammar.reading_finishes (Grammar.ofText_lexeme (Grammar.ofText_char x)) hrounds

theorem item_finishes (hrounds : Width.total c.rest < rounds) :
    item rounds c ≠ .error .unfinished := by
  have hreading : (Grammar.lexeme Grammar.integer : Grammar TextCursor NoNames _ Int).reading
      rounds noNames = item rounds := Grammar.reading_lexeme_integer
  rw [← hreading]
  exact Grammar.reading_finishes (Grammar.ofText_lexeme Grammar.ofText_integer) hrounds

theorem whitespace_finishes (hrounds : Width.total c.rest < rounds) :
    whitespace (P := P) rounds c ≠ .error .unfinished := by
  have hreading : (Grammar.whitespace : Grammar TextCursor NoNames P Unit).reading rounds noNames =
      whitespace rounds := Grammar.reading_whitespace
  rw [← hreading]
  exact Grammar.reading_finishes Grammar.ofText_whitespace hrounds

end Reading

namespace Calculator

variable {α : Type} {limits : Limits} {c d : TextCursor} {v : Int}

/-! ## Parts that finish -/

/-- At the place, the part neither runs out of rounds nor out of depth. -/
abbrev Finishes (limits : Limits) (g : Part α) (c : TextCursor) : Prop :=
  g.answer rules limits c ≠ .error .unfinished

theorem symbol_finishes (x : Char) (hrounds : Width.total c.rest < limits.rounds) :
    Finishes limits (symbol x) c := by
  rw [Finishes, answer_symbol]
  exact Reading.symbol_finishes x hrounds

theorem whitespace_finishes (hrounds : Width.total c.rest < limits.rounds) :
    Finishes limits (Grammar.whitespace : Part Unit) c := by
  have hreading : (Grammar.whitespace : Part Unit).answer rules limits =
      Reading.whitespace limits.rounds := Grammar.reading_whitespace
  rw [Finishes, hreading]
  exact Reading.whitespace_finishes hrounds

theorem operators_finish (ops : List Char) (hrounds : Width.total c.rest < limits.rounds) :
    Finishes limits (Grammar.firstOf (ops.map symbol)) c := by
  intro h
  have hchoice : (Grammar.firstOf (ops.map symbol)).answer rules limits = Reading.choice
      ((ops.map symbol).map fun p => p.answer rules limits) := Grammar.reading_firstOf _
  rw [hchoice, List.map_map] at h
  obtain ⟨p, hp, hstop⟩ := Reading.choice_eq_stop h
  obtain ⟨x, -, rfl⟩ := List.mem_map.1 hp
  exact symbol_finishes x hrounds hstop

/-- A chain is finished if its operands are.  Every round of it has read an
operator, so there are rounds left when the text ends. -/
theorem chain_finishes (ops : List Char) {operand : Part Int} (htext : operand.OfText (· = id))
    (hoperand : ∀ d, c.Reaches d → Finishes limits operand d)
    (hrounds : Width.total c.rest < limits.rounds) : Finishes limits (chain ops operand) c := by
  intro h
  rcases Reading.pair_eq_stop_iff.1 (Reading.check_eq_stop_iff.1 h) with h | ⟨a, d, hfirst, h⟩
  · exact hoperand c (.refl c) h
  · have hd : c.Reaches d := reaches_of_success htext hfirst
    have hdescends : Reading.Descends d.Reaches (fun e => Width.total e.rest)
        ((step ops operand).answer rules limits) :=
      Reading.descends_of_reaches (reaches_of_success (ofText_step ops htext)) d
    have hrest : Width.total d.rest < limits.rounds := Nat.lt_of_le_of_lt hd.total_le hrounds
    refine hdescends.collect_finishes (fun e he _ hstep => ?_) (.refl d) hrest 0
      (Reading.many_eq_stop_iff.1 h)
    rcases Reading.pair_eq_stop_iff.1 hstep with hop | ⟨op, q, hop, hq⟩
    · exact operators_finish ops (Nat.lt_of_le_of_lt he.total_le hrest) hop
    · have hreaches : e.Reaches q := reaches_of_success (ofText_operators ops) hop
      exact hoperand q ((hd.trans he).trans hreaches) hq

/-- Sums are finished behind one more parenthesis. -/
def Nested (limits : Limits) (c : TextCursor) : Prop :=
  ∀ d, c.Reaches d → d.rest.count '(' < c.rest.count '(' → Finishes limits sum d

theorem Nested.of_reaches (h : Nested limits c) (hd : c.Reaches d) : Nested limits d :=
  fun e he hcount => h e (hd.trans he) (Nat.lt_of_lt_of_le hcount (count_le_of_reaches hd '('))

theorem parenthesised_finishes (hsum : Nested limits c)
    (hrounds : Width.total c.rest < limits.rounds) : Finishes limits parenthesised c := by
  intro h
  have hopening : (.pair (symbol '(') sum : Part (Char × Int)).OfText (· = id) :=
    ⟨trivial, ofText_symbol '(', ofText_sum⟩
  rcases Reading.pair_eq_stop_iff.1 (Reading.map_eq_stop_iff.1 h) with h | ⟨a, d, hleft, hright⟩
  · rcases Reading.pair_eq_stop_iff.1 h with hopen | ⟨x, d, hopen, hinner⟩
    · exact symbol_finishes '(' hrounds hopen
    · obtain ⟨rfl, hbehind⟩ := behind_of_symbol hopen
      exact hsum d hbehind.reaches hbehind.count_lt hinner
  · have hd : c.Reaches d := reaches_of_success hopening hleft
    exact symbol_finishes ')' (Nat.lt_of_le_of_lt hd.total_le hrounds) hright

theorem answer_item :
    (Grammar.lexeme Grammar.integer : Part Int).answer rules limits = Reading.item limits.rounds :=
  Grammar.reading_lexeme_integer

theorem factor_finishes (hsum : Nested limits c) (hrounds : Width.total c.rest < limits.rounds) :
    Finishes limits factor c := by
  intro h
  have hchoice : factor.answer rules limits =
      Reading.choice [(Grammar.lexeme Grammar.integer : Part Int).answer rules limits,
        parenthesised.answer rules limits] :=
    Grammar.reading_firstOf [Grammar.lexeme Grammar.integer, parenthesised]
  rw [hchoice] at h
  obtain ⟨p, hp, hstop⟩ := Reading.choice_eq_stop h
  rcases List.mem_pair.1 hp with rfl | rfl
  · rw [answer_item] at hstop
    exact Reading.item_finishes hrounds hstop
  · exact parenthesised_finishes hsum hrounds hstop

theorem term_finishes (hsum : Nested limits c) (hrounds : Width.total c.rest < limits.rounds) :
    Finishes limits term c := by
  refine chain_finishes ['*', '/'] ofText_factor (fun d hd => ?_) hrounds
  exact factor_finishes (hsum.of_reaches hd) (Nat.lt_of_le_of_lt hd.total_le hrounds)

/-- Sums are finished if they may be unfolded once more than there are
parentheses to open. -/
theorem sum_finishes {rounds depth : Nat} (hdepth : c.rest.count '(' < depth)
    (hrounds : Width.total c.rest < rounds) : Finishes ⟨rounds, depth⟩ sum c := by
  induction depth generalizing c with
  | zero => omega
  | succ depth ih =>
    have hsum : Nested ⟨rounds, depth⟩ c := fun d hd hcount =>
      ih (by omega) (Nat.lt_of_le_of_lt hd.total_le hrounds)
    have hchain : Finishes ⟨rounds, depth⟩ (chain ['+', '-'] term) c := by
      refine chain_finishes ['+', '-'] ofText_term (fun d hd => ?_) hrounds
      exact term_finishes (hsum.of_reaches hd) (Nat.lt_of_le_of_lt hd.total_le hrounds)
    exact hchain

/-! ## Runs that are not given up -/

theorem unaborted_symbol (x : Char) : (symbol x).Unaborted :=
  (plain_symbol x).mono fun _ => Plain.steady

theorem unaborted_whitespace : (Grammar.whitespace : Part Unit).Unaborted :=
  plain_whitespace.mono fun _ => Plain.steady

theorem unaborted_sum : sum.Unaborted := ⟨trivial, trivial, trivial⟩

theorem unaborted_factor : factor.Unaborted := by
  refine ⟨trivial, Grammar.everywhere_firstOf.2 ⟨trivial, fun p hp => ?_⟩⟩
  rcases List.mem_pair.1 hp with rfl | rfl
  · exact plain_integer.mono fun _ => Plain.steady
  · exact ⟨fun _ => ⟨_, rfl⟩, trivial, ⟨trivial, unaborted_symbol '(', unaborted_sum⟩,
      unaborted_symbol ')'⟩

theorem unaborted_chain (ops : List Char) {operand : Part Int} (hoperand : operand.Unaborted) :
    (chain ops operand).Unaborted := by
  have hops : (Grammar.firstOf (ops.map symbol)).Unaborted :=
    (plain_operators ops).mono fun _ => Plain.steady
  exact ⟨trivial, trivial, hoperand, trivial, trivial, hops, hoperand⟩

theorem unaborted_term : term.Unaborted := ⟨trivial, unaborted_chain _ unaborted_factor⟩

theorem unaborted_rules : rules.Unaborted := fun
  | .sum => ⟨trivial, unaborted_chain _ unaborted_term⟩

/-! ## Limits that are large enough -/

/-- A round for every byte, unfolding for every opening parenthesis, and one
more of each. -/
def ample (t : List Char) : Limits := ⟨Width.total t + 1, t.count '(' + 1⟩

theorem ample_of_reaches (hd : c.Reaches d) (h : ample c.rest ≤ limits) : ample d.rest ≤ limits :=
  ⟨Nat.le_trans (Nat.succ_le_succ hd.total_le) h.1,
    Nat.le_trans (Nat.succ_le_succ (count_le_of_reaches hd '(')) h.2⟩

theorem sum_finishes_of_ample (h : ample c.rest ≤ limits) : Finishes limits sum c :=
  sum_finishes h.2 h.1

theorem nested_of_ample (h : ample c.rest ≤ limits) : Nested limits c := fun _ hd _ =>
  sum_finishes_of_ample (ample_of_reaches hd h)

/-! ## Arithmetic -/

/-- A chain that begins with a word is evaluated to a word, or it is an error
by an operation on a word that has no result. -/
theorem fold_answers {a : Int} (ha : Word.Fits a) (l : List (Char × Int)) :
    (∃ v, fold a l = .ok v ∧ Word.Fits v) ∨
      ∃ b op n, (op, n) ∈ l ∧ Word.Fits b ∧ operate b op n = none ∧
        fold a l = .error (undefinedOperation b op n) := by
  induction l generalizing a with
  | nil => exact .inl ⟨a, rfl, ha⟩
  | cons x l ih =>
    obtain ⟨op, n⟩ := x
    rw [fold]
    cases hoperate : operate a op n with
    | none => exact .inr ⟨a, op, n, List.mem_cons_self, ha, hoperate, rfl⟩
    | some b =>
      rcases ih (fits_of_operate hoperate) with h | ⟨b', op', n', hmem, h⟩
      · exact .inl h
      · exact .inr ⟨b', op', n', List.mem_cons_of_mem _ hmem, h⟩

/-- The least word has no quotient by minus one. -/
example : fold Word.least [('*', 1), ('/', -1)] =
    .error (undefinedOperation Word.least '/' (-1)) := rfl

/-! ## Entrances -/

/-- Where a run of the calculator begins: with one of its parts, or with a sum
behind blanks. -/
inductive Entrance where
  | sum
  | term
  | factor
  | spaced
deriving DecidableEq, Repr

namespace Entrance

def parser (limits : Limits) : Entrance → Parser TextCursor ParseError.payloads Int
  | sum => Calculator.parser limits Calculator.sum
  | term => Calculator.parser limits Calculator.term
  | factor => Calculator.parser limits Calculator.factor
  | spaced => Calculator.spaced limits

/-- What the parser reads and the calls that it makes. -/
def part (limits : Limits) :
    Entrance → History.Part TextCursor Name ParseError ParseError.payloads Int
  | sum => partOf limits id Calculator.sum
  | term => partOf limits id Calculator.term
  | factor => partOf limits id Calculator.factor
  | spaced =>
    let blanks : History.Part TextCursor Name ParseError ParseError.payloads Unit :=
      partOf limits id Grammar.whitespace
    (Reading.past blanks.1 (partOf limits id Calculator.sum).1,
      History.pair blanks (partOf limits id Calculator.sum))

def calls (limits : Limits) (entrance : Entrance) (c : TextCursor) :
    List (Event TextCursor Name ParseError) :=
  (entrance.part limits).2 c

variable {entrance : Entrance}

theorem parser_follows (limits : Limits) (entrance : Entrance) :
    ∃ marks, (entrance.parser limits).Follows ((entrance.part limits).1, marks) := by
  cases entrance with
  | sum => exact ⟨_, Grammar.parse_follows rules limits Calculator.sum⟩
  | term => exact ⟨_, Grammar.parse_follows rules limits Calculator.term⟩
  | factor => exact ⟨_, Grammar.parse_follows rules limits Calculator.factor⟩
  | spaced =>
    have hblanks := Grammar.parse_follows rules limits (Grammar.whitespace : Part Unit)
    have hsum := Grammar.parse_follows rules limits Calculator.sum
    exact ⟨_, Parser.follows_past hblanks hsum⟩

theorem part_below {limits' : Limits} (h : limits ≤ limits') :
    (entrance.part limits).1.Below (entrance.part limits').1 := by
  have hmono : ∀ {α : Type} (g : Part α), (g.answer rules limits).Below (g.answer rules limits') :=
    fun g c => Grammar.answer_mono h
  cases entrance with
  | sum | term | factor => exact hmono _
  | spaced => exact (hmono Grammar.whitespace).past (hmono Calculator.sum)

theorem part_neverAborts : (entrance.part limits).1.NeverAborts := by
  have hnever : ∀ {α : Type} {g : Part α}, g.Unaborted → (g.answer rules limits).NeverAborts :=
    Grammar.reading_neverAborts
      (Rules.reading_neverAborts unaborted_rules limits.rounds limits.depth)
  cases entrance with
  | sum => exact hnever unaborted_sum
  | term => exact hnever unaborted_term
  | factor => exact hnever unaborted_factor
  | spaced =>
    intro c message h
    rcases Reading.past_eq_stop_iff.1 h with h | ⟨d, -, h⟩
    · exact hnever unaborted_whitespace c message h
    · exact hnever unaborted_sum d message h

theorem part_finishes (h : ample c.rest ≤ limits) :
    (entrance.part limits).1 c ≠ .error .unfinished := by
  cases entrance with
  | sum => exact sum_finishes_of_ample h
  | term => exact term_finishes (nested_of_ample h) h.1
  | factor => exact factor_finishes (nested_of_ample h) h.1
  | spaced =>
    intro hstop
    rcases Reading.past_eq_stop_iff.1 hstop with hblanks | ⟨d, hblanks, hsum⟩
    · exact whitespace_finishes h.1 hblanks
    · have hd : c.Reaches d := reaches_of_success Grammar.ofText_whitespace hblanks
      exact sum_finishes_of_ample (ample_of_reaches hd h) hsum

theorem part_keeps {V : TextCursor → Prop} (hV : ∀ c d, V c → c.Reaches d → V d) :
    (entrance.part limits).Keeps V := by
  have hkeeps : ∀ {α : Type} {g : Part α}, g.OfText (· = id) → (partOf limits id g).Keeps V :=
    fun hg => Grammar.keeps_of_reaches hV ofText_rules hg limits
  cases entrance with
  | sum => exact hkeeps ofText_sum
  | term => exact hkeeps ofText_term
  | factor => exact hkeeps ofText_factor
  | spaced =>
    have hblanks := hkeeps (Grammar.ofText_whitespace (P := ParseError.payloads))
    have hsum := hkeeps ofText_sum
    refine ⟨fun hc h => ?_, (hblanks.pair hsum).calls⟩
    obtain ⟨d, hd, h⟩ := Reading.past_eq_success_iff.1 h
    exact hsum.leaves (hblanks.leaves hc hd) h

theorem fits_of_success (h : (entrance.part limits).1 c = .ok (.success v d)) : Word.Fits v := by
  cases entrance with
  | sum => exact (sound_sum limits).fits h
  | term => exact (sound_term limits).fits h
  | factor => exact (sound_factor limits).fits h
  | spaced =>
    obtain ⟨d', -, h⟩ := Reading.past_eq_success_iff.1 h
    exact (sound_sum limits).fits h

/-- With limits that are large enough there is an answer, and it does not depend
on them. -/
theorem part_answers (entrance : Entrance) (c : TextCursor) :
    ∃ o, ∀ limits, ample c.rest ≤ limits → (entrance.part limits).1 c = .ok o := by
  have hfinishes : (entrance.part (ample c.rest)).1 c ≠ .error .unfinished :=
    part_finishes ⟨Nat.le_refl _, Nat.le_refl _⟩
  cases hx : (entrance.part (ample c.rest)).1 c with
  | ok o => exact ⟨o, fun limits h => (part_below h c hfinishes).trans hx⟩
  | error stop =>
    cases stop with
    | unfinished => exact absurd hx hfinishes
    | aborted message => exact absurd hx (part_neverAborts c message)

theorem parser_result (limits : Limits) (entrance : Entrance) (c : TextCursor)
    (s : Session TextCursor) :
    (entrance.parser limits c).result s = (entrance.part limits).1 c := by
  obtain ⟨marks, hfollows⟩ := entrance.parser_follows limits
  exact (hfollows c s).1

/-- Every sum is entered as it should be, with room for one more sum than
there are parentheses to open. -/
theorem part_admits (limits : Limits) (entrance : Entrance) (c : TextCursor) :
    Admits (Orderly (c.rest.count '(' + 1)) [] (entrance.calls limits c) := by
  have hstands : Stands (ε := ParseError) (c.rest.count '(' + 1) (opened [] []) c :=
    ⟨nofun, by simp [opened, sums]⟩
  have hnamed : NamedAdmitted (ε := ParseError) (c.rest.count '(' + 1) limits id :=
    namedAdmitted _ limits.rounds limits.depth id
  cases entrance with
  | sum => exact admits_outermost_sum rfl (Nat.lt_succ_self _)
  | term => exact admitted_term hnamed [] c hstands
  | factor => exact admitted_factor hnamed [] c hstands
  | spaced =>
    refine (admitted_of_plain plain_whitespace [] c hstands).append ?_
    split
    next d hblanks =>
      have hd : c.Reaches d := reaches_of_success Grammar.ofText_whitespace hblanks
      refine admits_outermost_sum ?_ (Nat.lt_succ_of_le (count_le_of_reaches hd '('))
      exact balanced_partOf _ c (by simp [hblanks]) []
    next => exact .nil

end Entrance

/-! ## Runs -/

/-- From every valid cursor, every parser of the calculator answers, and a
value that it answers is a word.  With ample limits, and with any larger ones,
the answer is the same.

Whatever the limits are, the run is not given up, and every call is made at a
place where the text can be sliced.  A sum that is entered inside another call
is entered right after a parenthesis was matched, behind it and all blanks
that follow, and further on than every sum that is open.  No more sums are
open there than there were parentheses to open.

In a chain, no operands make arithmetic fail but by an error.  And whole texts
are answered as well; from `Entrance.spaced`, this is what `evaluate` does. -/
theorem evaluation_ends (entrance : Entrance) {c : TextCursor} (valid : c.Valid) :
    (∃ o, (∀ limits, ample c.rest ≤ limits →
        ∀ s, (entrance.parser limits c).result s = .ok o) ∧
      ∀ v d, o = .success v d → Word.Fits v) ∧
    (∀ limits,
      (∀ s message, (entrance.parser limits c).result s ≠ .error (.aborted message)) ∧
      (∀ ev ∈ entrance.calls limits c, ev.call.input.InRange) ∧
      ∀ before k after, entrance.calls limits c = before ++ .enter k :: after → isSum k = true →
        let outer := sums (opened [] before)
        outer.length ≤ c.rest.count '(' ∧
        (∀ j ∈ outer, j.input.position < k.input.position) ∧
        (opened [] before ≠ [] → ∃ earlier place raise,
          before = earlier ++ [.leave ⟨symbol '(', place, raise⟩ (.success '(' k.input)] ∧
            Behind '(' place k.input)) ∧
    (∀ a l, Word.Fits a →
      (∃ v, fold a l = .ok v ∧ Word.Fits v) ∨
        ∃ b op n, (op, n) ∈ l ∧ Word.Fits b ∧ operate b op n = none ∧
          fold a l = .error (undefinedOperation b op n)) ∧
    ∀ text : String, ∃ r, ∀ limits, ample text.toList ≤ limits →
      ∀ s, (Parser.run id (entrance.parser limits) text).result s = .ok r := by
  refine ⟨?answers, fun limits => ⟨?goes_on, ?in_range, ?nested⟩, fun a l ha => fold_answers ha l,
    ?whole⟩
  case answers =>
    obtain ⟨o, ho⟩ := entrance.part_answers c
    refine ⟨o, fun limits hlimits s => ?_, fun v d hv => ?_⟩
    · rw [entrance.parser_result, ho limits hlimits]
    · subst hv
      exact Entrance.fits_of_success (ho (ample c.rest) ⟨Nat.le_refl _, Nat.le_refl _⟩)
  case goes_on =>
    intro s message
    rw [entrance.parser_result]
    exact Entrance.part_neverAborts c message
  case in_range =>
    have hkeeps : (entrance.part limits).Keeps Cursor.Valid :=
      Entrance.part_keeps fun d e hd he => he.valid hd
    exact fun ev hev => (hkeeps.calls valid ev hev).inRange
  case nested =>
    intro before k after hcalls hsum
    have hentered := entrance.part_admits limits c before k after hcalls hsum
    rw [List.nil_append] at hentered
    refine ⟨?_, fun j hj => hentered.position_lt hj, fun hopened => ?_⟩
    · have hfew := hentered.few
      omega
    · obtain ⟨earlier, place, raise, hbefore, hbehind, -⟩ := hentered.opening hopened
      exact ⟨earlier, place, raise, hbefore, hbehind⟩
  case whole =>
    intro text
    obtain ⟨o, ho⟩ := entrance.part_answers (Cursor.start text.toList)
    let answered : Evaluation := fun _ => .ok o
    obtain ⟨r, hr⟩ : ∃ r, Reading.run id answered text = .ok r :=
      Reading.run_answers (p := answered) (o := o) rfl id
    refine ⟨r, fun limits hlimits s => ?_⟩
    obtain ⟨marks, hfollows⟩ := entrance.parser_follows limits
    rw [Parser.run_result id hfollows, ← hr, Reading.run, ho limits hlimits]
    rfl

/-- Nothing is divided by zero, however large the limits are. -/
theorem evaluation_ends_in_quotient :
    (Entrance.sum.parser ⟨8, 3⟩ (Cursor.start "((1))/0".toList)).result (Session.fresh false) =
        .ok (.error (.fatal "cannot evaluate 1 / 0")) ∧
      ∀ limits, ample "((1))/0".toList ≤ limits →
        (Entrance.sum.parser limits (Cursor.start "((1))/0".toList)).result (Session.fresh false) =
          .ok (.error (.fatal "cannot evaluate 1 / 0")) := by
  have hparser : Entrance.sum.parser ⟨8, 3⟩ = sum.parse rules ⟨8, 3⟩ := rfl
  have hresult : (Entrance.sum.parser ⟨8, 3⟩ (Cursor.start "((1))/0".toList)).result
      (Session.fresh false) = .ok (.error (.fatal "cannot evaluate 1 / 0")) := by
    rw [hparser, Grammar.parse_result]
    cbv
  obtain ⟨⟨o, ho, -⟩, -⟩ := evaluation_ends .sum (Cursor.valid_start "((1))/0".toList)
  have hanswer := ho ⟨8, 3⟩ ⟨by decide, by decide⟩ (Session.fresh false)
  exact ⟨hresult, fun limits hlimits =>
    (ho limits hlimits (Session.fresh false)).trans (hanswer.symm.trans hresult)⟩

end Calculator

end Triad
