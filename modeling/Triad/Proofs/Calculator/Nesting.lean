import Triad.Proofs.Meaning.OpenCalls
import Triad.Proofs.Meaning.Segments
import Triad.Proofs.Text.Front
import Triad.Proofs.Text.Safety

/-!
# How sums are nested

The calculator's grammar refers to itself: between parentheses there is a sum
again.  A sum that is entered inside another call stands behind a parenthesis
that was matched right before, and behind its blanks, at a place that the open
sums reach (`Entered`).  So it begins further on in the text than each of
them, and there are never more sums open than there are opening parentheses,
and one more.

`admitted_term`, `admitted_factor` and `admits_sum` say so of every entry in a
run of one of these parts.  The induction is on the depth to which sums are
unfolded; within one sum the parts are called one after another, with the same
sums open (`Stands`).
-/

namespace Triad.Calculator

variable {ε α : Type} {limits : Limits} {c d : TextCursor}

/-! ## Successes -/

/-- A success of the grammar goes on in the text. -/
theorem reaches_of_success {g : Part α} (hg : g.OfText (· = id)) {a : α}
    (h : g.answer rules limits c = .ok (.success a d)) : c.Reaches d := by
  have hkeeps : History.Part.Keeps c.Reaches (g.answer rules limits, g.calls rules limits) :=
    Grammar.keeps_of_reaches (fun e f he h => he.trans h) ofText_rules hg limits
  exact hkeeps.leaves (.refl c) h

theorem count_le_of_reaches (h : c.Reaches d) (x : Char) : d.rest.count x ≤ c.rest.count x := by
  obtain ⟨s, hs⟩ := h
  rw [hs.rest, List.count_append]
  omega

theorem answer_symbol (x : Char) :
    (symbol x).answer rules limits = Reading.symbol limits.rounds x := Grammar.reading_lexeme_char x

/-- The places before and behind a symbol and the blanks after it, which are
all that there are, up to the bound of a repetition. -/
def Behind (x : Char) (c d : TextCursor) : Prop :=
  ∃ w : Blanks, c.Spans (x :: w.chars) d ∧
    (w.chars.length < Bound.limit → Text.Apart Text.isBlank d.rest)

theorem Behind.reaches {x : Char} (h : Behind x c d) : c.Reaches d := by
  obtain ⟨w, hspan, -⟩ := h
  exact ⟨_, hspan⟩

theorem Behind.position_lt {x : Char} (h : Behind x c d) : c.position < d.position := by
  obtain ⟨w, hspan, -⟩ := h
  have hposition := hspan.position
  have hwidth : 0 < Width.width x := x.utf8Size_pos
  rw [Width.total_cons] at hposition
  omega

theorem Behind.count_lt {x : Char} (h : Behind x c d) : d.rest.count x < c.rest.count x := by
  obtain ⟨w, hspan, -⟩ := h
  rw [hspan.rest, List.cons_append, List.count_cons_self, List.count_append]
  omega

theorem behind_of_symbol {x y : Char}
    (h : (symbol x).answer rules limits c = .ok (.success y d)) : y = x ∧ Behind x c d := by
  obtain ⟨s, hs⟩ := reaches_of_success (ofText_symbol x) h
  rw [answer_symbol] at h
  obtain ⟨rfl, w, hc, hend⟩ := Reading.symbol_ends h
  have hrest : s ++ d.rest = (y :: w.chars) ++ d.rest := by rw [← hs.rest, hc, List.cons_append]
  obtain rfl := List.append_cancel_right hrest
  exact ⟨rfl, w, hs, hend⟩

/-! ## Entries of sums -/

/-- Is the call one of a sum? -/
def isSum : Call TextCursor Name ε → Bool
  | ⟨.defer _ (.rule _), _, _⟩ => true
  | _ => false

/-- The sums among the open calls. -/
def sums (stack : List (Call TextCursor Name ε)) : List (Call TextCursor Name ε) :=
  stack.filter isSum

/-- How a sum `k` is entered after the events `before`. -/
structure Entered (room : Nat) (before : List (Event TextCursor Name ε))
    (k : Call TextCursor Name ε) : Prop where
  /-- There is room for the sum, and for one behind every parenthesis that is left. -/
  few : (sums (opened [] before)).length + 1 + k.input.rest.count '(' ≤ room
  /-- The parenthesis was matched right before, where the open sums have come to. -/
  opening : opened [] before ≠ [] → ∃ earlier place raise,
    before = earlier ++ [.leave ⟨symbol '(', place, raise⟩ (.success '(' k.input)] ∧
      Behind '(' place k.input ∧ ∀ outer ∈ sums (opened [] before), outer.input.Reaches place

/-- A sum begins further on than the sums that are open. -/
theorem Entered.position_lt {room : Nat} {before : List (Event TextCursor Name ε)}
    {k outer : Call TextCursor Name ε} (h : Entered room before k)
    (houter : outer ∈ sums (opened [] before)) : outer.input.position < k.input.position := by
  have hopened : opened [] before ≠ [] := by
    intro hnil
    simp [hnil, sums] at houter
  obtain ⟨earlier, place, raise, -, hbehind, hreaches⟩ := h.opening hopened
  exact Nat.lt_of_le_of_lt (hreaches outer houter).position_le hbehind.position_lt

/-- The entry of a call, if it is one of a sum, is as it should be. -/
def Orderly (room : Nat) (before : List (Event TextCursor Name ε)) (k : Call TextCursor Name ε) :
    Prop :=
  isSum k = true → Entered room before k

/-- The open sums have come to `c`, and there is room for as many more as there
are parentheses to open. -/
structure Stands (room : Nat) (stack : List (Call TextCursor Name ε)) (c : TextCursor) : Prop where
  reaches : ∀ outer ∈ sums stack, outer.input.Reaches c
  few : (sums stack).length + c.rest.count '(' ≤ room

variable {room : Nat} {stack : List (Call TextCursor Name ε)} {raise : ParseError → ε}

theorem Stands.leaves (h : Stands room stack c) (hd : c.Reaches d) : Stands room stack d where
  reaches := fun outer houter => (h.reaches outer houter).trans hd
  few := by
    have hcount := count_le_of_reaches hd '('
    have hfew := h.few
    omega

/-- Other calls do not count. -/
theorem Stands.enters {past : List (Event TextCursor Name ε)} {k : Call TextCursor Name ε}
    (hk : isSum k = false) (h : Stands room (opened [] past) c) :
    Orderly room past k ∧ Stands room (k :: opened [] past) c := by
  have hsums : sums (k :: opened [] past) = sums (opened [] past) := by simp [sums, hk]
  refine ⟨fun hsum => absurd hsum (by simp [hk]), ?_, ?_⟩
  · rw [hsums]
    exact h.reaches
  · rw [hsums]
    exact h.few

/-! ## Parts of the grammar -/

/-- A part by its reading and its history. -/
def partOf (limits : Limits) (raise : ParseError → ε) (g : Part α) :
    History.Part TextCursor Name ε ParseError.payloads α :=
  (g.answer rules limits,
    g.history limits.rounds (rules.reading limits.rounds limits.depth)
      (rules.history limits.rounds limits.depth) raise)

/-- In the part, every sum is entered as it should be. -/
abbrev Admitted (room : Nat) (limits : Limits) (raise : ParseError → ε) (g : Part α) : Prop :=
  (partOf limits raise g).Admits (Orderly room) (Stands room)

theorem balanced_partOf (g : Part α) : (partOf limits raise g).Balanced :=
  Grammar.history_balanced (rules.history_balanced limits.rounds limits.depth) g raise

theorem leaves_partOf {g : Part α} (hg : g.OfText (· = id)) {a : α} (hc : Stands room stack c)
    (h : (partOf limits raise g).1 c = .ok (.success a d)) : Stands room stack d :=
  hc.leaves (reaches_of_success hg h)

/-! Parts without sums -/

/-- The node neither refers to the rule nor gives up. -/
def Plain {P : Payloads} {α : Type} : Grammar TextCursor Name P α → Prop
  | .defer _ _ | .rule _ | .abort _ => False
  | .bind f _ => ∀ a, ∃ b, f a = .ok b
  | _ => True

theorem Plain.isSum_eq_false {k : Call TextCursor Name ε} (h : Plain k.part) : isSum k = false := by
  obtain ⟨part, input, raise⟩ := k
  cases part with
  | defer => exact h.elim
  | _ => rfl

theorem Plain.steady {P : Payloads} {α : Type} {g : Grammar TextCursor Name P α} (h : Plain g) :
    g.Steady := by
  cases g with
  | abort | bind => exact h
  | _ => trivial

/-- Where nothing refers to the rule, no sum is entered. -/
theorem admitted_of_plain {g : Part α} (hg : g.Everywhere Plain) :
    Admitted room limits raise g := by
  intro past c _ before k after hevs hsum
  have hsegment := Grammar.history_segmented (fun name hname => hname.elim) hg raise c before k
    after hevs
  rw [Plain.isSum_eq_false hsegment.1.here] at hsum
  cases hsum

theorem plain_whitespace : (Grammar.whitespace : Part Unit).Everywhere Plain :=
  ⟨fun _ => ⟨(), rfl⟩, trivial, trivial, trivial⟩

theorem plain_lexeme {p : Part α} (hp : p.Everywhere Plain) :
    (Grammar.lexeme p).Everywhere Plain :=
  ⟨fun a => ⟨a.1, rfl⟩, trivial, hp, plain_whitespace⟩

theorem plain_symbol (x : Char) : (symbol x).Everywhere Plain := plain_lexeme ⟨trivial, trivial⟩

theorem plain_integer : (Grammar.lexeme Grammar.integer : Part Int).Everywhere Plain := by
  have hdigits : (Grammar.many1 Grammar.digit : Part (List Char)).Everywhere Plain :=
    ⟨trivial, trivial, trivial⟩
  have hliteral : (Grammar.literal : Part (Bool × List Char)).Everywhere Plain := by
    refine Grammar.everywhere_firstOf.2 ⟨trivial, fun p hp => ?_⟩
    rcases List.mem_pair.1 hp with rfl | rfl
    · exact ⟨fun _ => ⟨_, rfl⟩, trivial, ⟨trivial, trivial⟩, hdigits⟩
    · exact ⟨fun _ => ⟨_, rfl⟩, hdigits⟩
  exact plain_lexeme ⟨trivial, trivial, hliteral⟩

theorem plain_operators (ops : List Char) :
    (Grammar.firstOf (ops.map symbol)).Everywhere Plain :=
  Grammar.everywhere_firstOf.2 ⟨trivial, List.forall_mem_map.2 fun x _ => plain_symbol x⟩

/-! Parts with sums -/

/-- An operator and an operand. -/
def step (ops : List Char) (operand : Part Int) : Part (Char × Int) :=
  .pair (Grammar.firstOf (ops.map symbol)) operand

theorem ofText_step (ops : List Char) {operand : Part Int} (htext : operand.OfText (· = id)) :
    (step ops operand).OfText (· = id) :=
  ⟨trivial, ofText_operators ops, htext⟩

theorem admitted_chain (ops : List Char) {operand : Part Int} (htext : operand.OfText (· = id))
    (hoperand : Admitted room limits raise operand) :
    Admitted room limits raise (chain ops operand) := by
  have hstep : Admitted room limits raise (step ops operand) :=
    ((admitted_of_plain (plain_operators ops)).pair (balanced_partOf _)
      (leaves_partOf (ofText_operators ops)) hoperand).around (fun _ _ => Stands.enters rfl) _
  have hsteps : Admitted room limits raise (Grammar.many0 (step ops operand)) :=
    (hstep.many (balanced_partOf _) (leaves_partOf (ofText_step ops htext)) limits.rounds 0
      Bound.limit).around (fun _ _ => Stands.enters rfl) _
  have hpair : Admitted room limits raise (.pair operand (Grammar.many0 (step ops operand))) :=
    (hoperand.pair (balanced_partOf _) (leaves_partOf htext) hsteps).around
      (fun _ _ => Stands.enters rfl) _
  exact hpair.around (fun _ _ => Stands.enters rfl) _

/-- In the sums that are nested, too, every sum is entered as it should be. -/
abbrev NamedAdmitted (room : Nat) (limits : Limits) (raise : ParseError → ε) : Prop :=
  History.Part.Admits (Orderly room) (Stands room)
    (rules.reading limits.rounds limits.depth .sum,
      rules.history limits.rounds limits.depth .sum raise)

theorem admits_sum (hnamed : NamedAdmitted room limits raise)
    {past : List (Event TextCursor Name ε)} (hentered : Entered room past ⟨sum, c, raise⟩)
    (hreaches : ∀ outer ∈ sums (opened [] past), outer.input.Reaches c) :
    Admits (Orderly room) past ((partOf limits raise sum).2 c) := by
  refine Admits.around (k := ⟨sum, c, raise⟩) (fun _ => hentered)
    (Admits.around (k := ⟨.rule .sum, c, raise⟩) nofun (hnamed _ c ?_) _) _
  have hsums : sums (opened [] (past ++ [.enter ⟨sum, c, raise⟩] ++
      [.enter ⟨.rule .sum, c, raise⟩])) = ⟨sum, c, raise⟩ :: sums (opened [] past) := by
    rw [opened_append, opened_append]
    rfl
  refine ⟨?_, ?_⟩
  · rw [hsums]
    exact List.forall_mem_cons.2 ⟨.refl c, hreaches⟩
  · rw [hsums]
    exact hentered.few

/-- A sum behind a parenthesis. -/
theorem admitted_opening (hnamed : NamedAdmitted room limits raise) :
    Admitted room limits raise (.pair (symbol '(') sum) := by
  have hpair : History.Part.Admits (Orderly room) (Stands room)
      (Reading.pair (partOf limits raise (symbol '(')).1 (partOf limits raise sum).1,
        History.pair (partOf limits raise (symbol '(')) (partOf limits raise sum)) := by
    intro past c hc
    refine (admitted_of_plain (plain_symbol '(') past c hc).append ?_
    split
    next x q hx =>
      obtain ⟨rfl, hbehind⟩ := behind_of_symbol hx
      have hopened : opened [] (past ++ (partOf limits raise (symbol '(')).2 c) =
          opened [] past := by
        rw [opened_append, balanced_partOf _ c (by simp [hx])]
      refine admits_sum hnamed ⟨?few, ?opening⟩ ?reaches
      case few =>
        have hfew := hc.few
        have hcount := hbehind.count_lt
        rw [hopened]
        dsimp only
        omega
      case opening =>
        intro _
        obtain ⟨inner, hinner⟩ : ∃ inner, (partOf limits raise (symbol '(')).2 c =
            Call.around ⟨symbol '(', c, raise⟩ inner ((partOf limits raise (symbol '(')).1 c) :=
          Grammar.history_eq_around _ _ _
        rw [hopened]
        refine ⟨past ++ .enter ⟨symbol '(', c, raise⟩ :: inner, c, raise, ?_, hbehind, hc.reaches⟩
        rw [hinner, hx, Call.around, List.append_assoc]
      case reaches =>
        rw [hopened]
        exact (hc.leaves hbehind.reaches).reaches
    next => exact .nil
  exact hpair.around (fun _ _ => Stands.enters rfl) _

theorem admitted_parenthesised (hnamed : NamedAdmitted room limits raise) :
    Admitted room limits raise parenthesised := by
  have hopening : (.pair (symbol '(') sum : Part (Char × Int)).OfText (· = id) :=
    ⟨trivial, ofText_symbol '(', ofText_sum⟩
  have hpair : Admitted room limits raise (.pair (.pair (symbol '(') sum) (symbol ')')) :=
    ((admitted_opening hnamed).pair (balanced_partOf _) (leaves_partOf hopening)
      (admitted_of_plain (plain_symbol ')'))).around (fun _ _ => Stands.enters rfl) _
  exact hpair.around (fun _ _ => Stands.enters rfl) _

theorem admitted_factor (hnamed : NamedAdmitted room limits raise) :
    Admitted room limits raise factor := by
  let ps : List (Part Int) := [Grammar.lexeme Grammar.integer, parenthesised]
  have hps : ∀ i, (partOf limits raise (ps.get i)).Admits (Orderly room) (Stands room) ∧
      (partOf limits raise (ps.get i)).Balanced := by
    intro i
    match i with
    | 0 => exact ⟨admitted_of_plain plain_integer, balanced_partOf _⟩
    | 1 => exact ⟨admitted_parenthesised hnamed, balanced_partOf _⟩
  have hchoice := History.Part.Admits.choice (List.forall_mem_ofFn_iff.2 hps)
  rw [List.map_ofFn] at hchoice
  have hfirst : Admitted room limits raise (Grammar.firstOf ps) :=
    hchoice.around (fun _ _ => Stands.enters rfl) _
  exact hfirst.around (fun _ _ => Stands.enters rfl) _

theorem admitted_term (hnamed : NamedAdmitted room limits raise) :
    Admitted room limits raise term :=
  (admitted_chain ['*', '/'] ofText_factor (admitted_factor hnamed)).around
    (fun _ _ => Stands.enters rfl) _

/-- However deep sums are unfolded. -/
theorem namedAdmitted (room rounds depth : Nat) (raise : ParseError → ε) :
    NamedAdmitted room ⟨rounds, depth⟩ raise := by
  induction depth with
  | zero => exact fun _ _ _ => .nil
  | succ depth ih =>
    have hchain : Admitted room ⟨rounds, depth⟩ raise (chain ['+', '-'] term) :=
      admitted_chain ['+', '-'] ofText_term (admitted_term ih)
    have hrule : Admitted room ⟨rounds, depth⟩ raise (.label "expr" (chain ['+', '-'] term)) :=
      hchain.around (fun _ _ => Stands.enters rfl) _
    exact hrule

/-- A sum that is entered inside no other call. -/
theorem admits_outermost_sum {past : List (Event TextCursor Name ε)} (hpast : opened [] past = [])
    (hroom : c.rest.count '(' < room) :
    Admits (Orderly room) past ((partOf limits raise sum).2 c) := by
  refine admits_sum (namedAdmitted room limits.rounds limits.depth raise) ⟨?_, ?_⟩ ?_
  · rw [hpast]
    dsimp only [sums, List.filter_nil, List.length_nil]
    omega
  · exact fun hopened => absurd hpast hopened
  · rw [hpast]
    exact fun outer houter => by simp [sums] at houter

end Triad.Calculator
