import Mathlib.Data.List.OfFn
import Triad.Proofs.Commitment.Failure
import Triad.Proofs.Meaning.Related
import Triad.Proofs.Meaning.Whole
import Triad.Proofs.Text.Numeral

/-!
# Invented payloads

A plain grammar raises no payload of its own: it is made of primitives and
integers, and nothing in it changes the kind of an answer or a payload.  So
its payloads are those that the combinators invent, and they tell the truth
about what was consumed: a failure is *no match* and an error is *incomplete*,
unless it comes from a numeral that is no word (`Part.Honest`).

`run` answers with one kind of payload only.  Of a plain grammar it answers
*no match* if and only if the grammar fails at the beginning of the text, and
then nothing was matched (`payloads_are_honest`).
-/

namespace Triad

variable {N : Payloads → Type → Type} {ε : Type} {P : Payloads} {α β : Type}

/-! ## Plain grammars -/

/-- Made of primitives and integers, without payloads of its own. -/
inductive Grammar.Plain {N : Payloads → Type → Type} :
    {P : Payloads} → {α : Type} → Grammar TextCursor N P α → Prop
  | succeed {P : Payloads} {α : Type} (value : α) (next : TextCursor → TextCursor) :
    Plain (.succeed (P := P) value next)
  | abort {P : Payloads} {α : Type} (message : String) : Plain (.abort (P := P) (α := α) message)
  | primitive {P : Payloads} {α : Type} (m : Matcher TextCursor α) :
    Plain (.primitive (P := P) m)
  | integer : Plain Grammar.integer
  | bind {P : Payloads} {α β : Type} {p : Grammar TextCursor N P α} (f : α → Except String β) :
    p.Plain → Plain (.bind f p)
  | label {P : Payloads} {α : Type} {p : Grammar TextCursor N P α} (name : String) :
    p.Plain → Plain (.label name p)
  | many {P : Payloads} {α : Type} {p : Grammar TextCursor N P α} (min max : Nat) :
    p.Plain → Plain (.many min max p)
  | pair {P : Payloads} {α β : Type} {p : Grammar TextCursor N P α}
    {q : Grammar TextCursor N P β} : p.Plain → q.Plain → Plain (.pair p q)
  | choice {P : Payloads} {α : Type} {count : Nat} {ps : Fin count → Grammar TextCursor N P α} :
    (∀ i, (ps i).Plain) → Plain (.choice count ps)
  | sequence {P : Payloads} {α : Type} {count : Nat} {ps : Fin count → Grammar TextCursor N P α} :
    (∀ i, (ps i).Plain) → Plain (.sequence count ps)
  | defer {P : Payloads} {α : Type} {p : Grammar TextCursor N P α} (note : Option String) :
    p.Plain → Plain (.defer note p)
  | rule {P : Payloads} {α : Type} (name : N P α) : Plain (.rule name)
  | tap {P : Payloads} {α : Type} {p : Grammar TextCursor N P α} (id : String) :
    p.Plain → Plain (.tap id p)

def Rules.Plain (rules : Rules TextCursor N) : Prop :=
  ∀ {P : Payloads} {α : Type} (name : N P α), (rules name).Plain

theorem Rules.plain_none : Rules.Plain Rules.none := fun name => nomatch name

namespace Grammar

theorem Plain.firstOf {ps : List (Grammar TextCursor N P α)} (hps : ∀ p ∈ ps, p.Plain) :
    (firstOf ps).Plain := .choice fun i => hps _ (ps.get_mem i)

theorem Plain.allOf {ps : List (Grammar TextCursor N P α)} (hps : ∀ p ∈ ps, p.Plain) :
    (allOf ps).Plain := .sequence fun i => hps _ (ps.get_mem i)

theorem plain_string (word : String) : (string word : Grammar TextCursor N P String).Plain :=
  .bind _ (.allOf (List.forall_mem_map.2 fun _ _ => .primitive _))

theorem Plain.lexeme {p : Grammar TextCursor N P α} (hp : p.Plain) : (lexeme p).Plain :=
  .bind _ (.pair hp (.bind _ (.many _ _ (.primitive _))))

theorem Plain.unattempted {g : Grammar TextCursor N P α} (hg : g.Plain) : g.Unattempted := by
  induction hg with
  | succeed | abort | primitive | rule => trivial
  | integer => exact unattempted_integer
  | bind _ _ ih | label _ _ ih | many _ _ _ ih | defer _ _ ih | tap _ _ ih => exact ih
  | pair _ _ ihp ihq => exact ⟨ihp, ihq⟩
  | choice _ ih | sequence _ ih => exact ih

end Grammar

/-! ## Payloads that tell the truth -/

/-- The run has read an integer where a numeral stands that is no word, and
the error tells on which side its value lies. -/
def FromNumeral (es : List (Event TextCursor N ε)) (e : P.Error) : Prop :=
  ∃ (d : TextCursor) (raise : ParseError → ε) (n : Numeral) (t : List Char),
    d.rest = n.text ++ t ∧ ¬ Word.Fits n.value ∧
      HEq e (ParseError.fatal n.overflow.message) ∧
      Event.leave ⟨Grammar.integer, d, raise⟩ (.error (.fatal n.overflow.message)) ∈ es

theorem FromNumeral.mono {es es' : List (Event TextCursor N ε)} {e : P.Error}
    (h : FromNumeral es e) (hes : es ⊆ es') : FromNumeral es' e := by
  obtain ⟨d, raise, n, t, hd, hfits, he, hleave⟩ := h
  exact ⟨d, raise, n, t, hd, hfits, he, hes hleave⟩

namespace History

/-- A failure has the payload of a mismatch, and an error that of a broken
match, unless it comes from a numeral that is no word. -/
structure Part.Honest (part : Part TextCursor N ε P α) : Prop where
  failure : ∀ {c f}, part.1 c = .ok (.failure f) → f = P.noMatch
  error : ∀ {c e}, part.1 c = .ok (.error e) → e = P.incomplete ∨ FromNumeral (part.2 c) e

variable {p : Part TextCursor N ε P α}

/-- A node around a part answers what the part does where that is no success. -/
theorem Part.Honest.around (hp : p.Honest) {g : Grammar TextCursor N P β}
    {raise : P.Error → ε} {x : Reading TextCursor P β}
    (hfailure : ∀ c f, x c = .ok (.failure f) → p.1 c = .ok (.failure f))
    (herror : ∀ c e, x c = .ok (.error e) → p.1 c = .ok (.error e)) :
    Part.Honest (x, fun c => Call.around ⟨g, c, raise⟩ (p.2 c) (x c)) where
  failure := fun h => hp.failure (hfailure _ _ h)
  error := by
    intro c e h
    refine (hp.error (herror c e h)).imp_right fun hfrom => hfrom.mono fun ev hev => ?_
    exact List.mem_append_left _ (List.mem_cons_of_mem _ hev)

/-- A node without parts that has no errors. -/
theorem Part.Honest.leaf {g : Grammar TextCursor N P α} {raise : P.Error → ε}
    {x : Reading TextCursor P α} (hfailure : ∀ c f, x c = .ok (.failure f) → f = P.noMatch)
    (herror : ∀ c e, x c ≠ .ok (.error e)) :
    Part.Honest (x, fun c => Call.around ⟨g, c, raise⟩ [] (x c)) :=
  ⟨fun h => hfailure _ _ h, fun h => absurd h (herror _ _)⟩

theorem Part.Honest.pair {q : Part TextCursor N ε P β} (hp : p.Honest) (hq : q.Honest) :
    Part.Honest (Reading.pair p.1 q.1, History.pair p q) where
  failure := fun h => hp.failure (Reading.pair_eq_failure_iff.1 h)
  error := by
    intro c e h
    rcases Reading.pair_eq_error_iff.1 h with hpc | ⟨a, rest, hpc, hrest | ⟨rfl, -⟩⟩
    · exact (hp.error hpc).imp_right fun hfrom => hfrom.mono (List.subset_append_left _ _)
    · refine (hq.error hrest).imp_right fun hfrom => hfrom.mono ?_
      dsimp only [History.pair]
      rw [hpc]
      exact List.subset_append_right _ _
    · exact .inl rfl

theorem Part.Honest.choice {ps : List (Part TextCursor N ε P α)} (hps : ∀ p ∈ ps, p.Honest) :
    Part.Honest (Reading.choice (ps.map Prod.fst), History.choice ps) := by
  induction ps with
  | nil =>
    refine ⟨fun h => ?_, fun h => by simp [Reading.choice] at h⟩
    simpa [Reading.choice, eq_comm] using h
  | cons p ps ih =>
    have hrest := ih fun p hp => hps p (List.mem_cons_of_mem _ hp)
    refine ⟨fun {c f} h => ?_, fun {c e} h => ?_⟩
    · rcases Reading.choice_cons_iff.1 h with ⟨-, hne⟩ | ⟨-, h⟩
      · exact absurd rfl (hne f)
      · exact hrest.failure h
    · rcases Reading.choice_cons_iff.1 h with ⟨hpc, -⟩ | ⟨⟨f, hpc⟩, h⟩
      · refine ((hps p List.mem_cons_self).error hpc).imp_right fun hfrom => hfrom.mono ?_
        exact List.subset_append_left _ _
      · refine (hrest.error h).imp_right fun hfrom => hfrom.mono ?_
        dsimp only
        rw [History.choice, hpc]
        exact List.subset_append_right _ _

theorem Part.Honest.sequence {ps : List (Part TextCursor N ε P α)} (hps : ∀ p ∈ ps, p.Honest) :
    Part.Honest (Reading.sequence (ps.map Prod.fst), History.sequence ps) := by
  induction ps with
  | nil =>
    exact ⟨fun h => by simp [Reading.sequence] at h, fun h => by simp [Reading.sequence] at h⟩
  | cons p ps ih =>
    have hrest := ih fun p hp => hps p (List.mem_cons_of_mem _ hp)
    have hpair := (hps p List.mem_cons_self).pair hrest
    exact ⟨fun h => hpair.failure (Reading.map_eq_failure_iff.1 h),
      fun h => hpair.error (Reading.map_eq_error_iff.1 h)⟩

theorem Part.Honest.collect (hp : p.Honest) {max rounds count : Nat} {c : TextCursor}
    {e : P.Error} (h : Reading.collect max p.1 rounds count c = .ok (.error e)) :
    e = P.incomplete ∨ FromNumeral (History.collect max p rounds count c) e := by
  induction rounds generalizing count c with
  | zero =>
    unfold Reading.collect at h
    split at h <;> simp at h
  | succ rounds ih =>
    unfold Reading.collect at h
    unfold History.collect
    split at h
    next => simp at h
    next hmax =>
      rw [if_neg hmax]
      dsimp only at h ⊢
      split at h
      next a rest hstep =>
        split at h
        next => simp at h
        next hmoves =>
          rw [hstep]
          dsimp only
          rw [if_neg hmoves]
          have hrest : Reading.collect max p.1 rounds (count + 1) rest = .ok (.error e) := by
            split at h
            · simp at h
            · exact h
          exact (ih hrest).imp_right fun hfrom => hfrom.mono (List.subset_append_right _ _)
      next => simp at h
      next e' hstep =>
        obtain rfl : e' = e := by simpa using h
        exact (hp.error hstep).imp_right fun hfrom => hfrom.mono (List.subset_append_left _ _)
      next => simp at h

theorem Part.Honest.many (hp : p.Honest) (rounds min max : Nat) :
    Part.Honest (Reading.many rounds min max p.1, History.collect max p rounds 0) where
  failure := by
    intro c f h
    dsimp only [Reading.many, Reading.settle] at h
    split at h
    · grind
    · simp at h
    · simp at h
  error := by
    intro c e h
    dsimp only [Reading.many, Reading.settle] at h
    split at h
    · grind
    next e' hcollect =>
      obtain rfl : e' = e := by simpa using h
      exact hp.collect hcollect
    · simp at h

end History

/-! ## Integers -/

/-- The payloads of a literal are invented. -/
theorem Reading.literal_related (rounds : Nat) :
    Related (fun f _ => f = P.noMatch) (fun e _ => e = P.incomplete) (literal rounds)
      (literal (P := P) rounds) := by
  have htaken : ∀ accept, Related (fun f _ => f = P.noMatch) (fun e _ => e = P.incomplete)
      (taken accept) (taken (P := P) accept) := by
    intro accept
    rw [← primitive_next (m := Matcher.satisfy accept) rfl]
    exact related_primitive (F := fun f _ => f = P.noMatch) rfl _
  have hdigits : Related (fun f _ => f = P.noMatch) (fun e _ => e = P.incomplete)
      (digits rounds) (digits (P := P) rounds) := by
    refine (htaken _).many ?_ ?_ rounds 1 Bound.limit
    · exact rfl
    · exact rfl
  refine .choice rfl (.cons (.bind (.pair ?_ (htaken _) hdigits) _) (.cons (hdigits.bind _) .nil))
  exact rfl

theorem Reading.literal_eq_failure {rounds : Nat} {c : TextCursor} {f : P.Failure}
    (h : literal rounds c = .ok (.failure f)) : f = P.noMatch := by
  have hrelated := literal_related (P := P) rounds c
  rw [h] at hrelated
  cases hrelated with
  | failure hf => exact hf

theorem Reading.literal_eq_error {rounds : Nat} {c : TextCursor} {e : P.Error}
    (h : literal rounds c = .ok (.error e)) : e = P.incomplete := by
  have hrelated := literal_related (P := P) rounds c
  rw [h] at hrelated
  cases hrelated with
  | error he => exact he

namespace Grammar

variable {rounds : Nat} {reads : ∀ {P : Payloads} {α : Type}, N P α → Reading TextCursor P α}
  {called : ∀ {P : Payloads} {α : Type}, N P α → (P.Error → ε) → TextCursor →
    List (Event TextCursor N ε)}

theorem integer_honest (raise : ParseError → ε) :
    History.Part.Honest ((integer : Grammar TextCursor N ParseError.payloads Int).reading rounds
      reads, integer.history rounds reads called raise) where
  failure := by
    intro c f h
    dsimp only at h
    rw [reading_integer] at h
    exact Reading.literal_eq_failure (Reading.check_eq_failure_iff.1 h)
  error := by
    intro c e h
    dsimp only at h
    have hanswer := h
    rw [reading_integer] at h
    rcases Reading.check_eq_error_iff.1 h with hliteral | ⟨⟨negative, ds⟩, d, hliteral, hread⟩
    · exact .inl (Reading.literal_eq_error hliteral)
    · obtain ⟨n, rfl, rfl, hc⟩ := Reading.literal_eq_success hliteral
      dsimp only at hread
      by_cases hfits : Word.Fits n.value
      · rw [Numeral.read_of_fits hfits] at hread
        cases hread
      · rw [Numeral.read_of_overflow hfits] at hread
        obtain rfl := Except.error.inj hread
        refine .inr ⟨c, raise, n, d.rest, hc, hfits, HEq.rfl, ?_⟩
        dsimp only
        unfold integer at hanswer ⊢
        rw [history, hanswer]
        exact List.mem_append_right _ List.mem_cons_self

/-- The step of the induction over names: a plain grammar is honest if the
names are. -/
theorem Plain.honest
    (hnamed : ∀ {P : Payloads} {α : Type} (name : N P α) (raise : P.Error → ε),
      History.Part.Honest (reads name, called name raise))
    {g : Grammar TextCursor N P α} (hg : g.Plain) (raise : P.Error → ε) :
    History.Part.Honest (g.reading rounds reads, g.history rounds reads called raise) := by
  induction hg with
  | succeed value next | abort message =>
    exact .leaf (fun c f h => by simp [reading] at h) fun c e h => by simp [reading] at h
  | primitive m =>
    refine .leaf (fun c f h => ?_) fun c e h => ?_
    · unfold reading Reading.primitive at h
      split at h
      · simp at h
      · simpa [eq_comm] using h
    · unfold reading Reading.primitive at h
      split at h <;> simp at h
  | integer => exact integer_honest raise
  | bind f _ ih =>
    exact (ih raise).around (fun c f h => Reading.bind_eq_failure_iff.1 h)
      fun c e h => Reading.bind_eq_error_iff.1 h
  | label name _ ih | defer note _ ih | tap id _ ih =>
    exact (ih raise).around (fun c f h => h) fun c e h => h
  | many min max _ ih =>
    exact ((ih raise).many rounds min max).around (fun c f h => h) fun c e h => h
  | pair _ _ ihp ihq =>
    exact ((ihp raise).pair (ihq raise)).around (fun c f h => h) fun c e h => h
  | choice _ ih =>
    have hps := History.Part.Honest.choice (List.forall_mem_ofFn_iff.2 fun i => ih i raise)
    rw [List.map_ofFn] at hps
    exact hps.around (fun c f h => h) fun c e h => h
  | sequence _ ih =>
    have hps := History.Part.Honest.sequence (List.forall_mem_ofFn_iff.2 fun i => ih i raise)
    rw [List.map_ofFn] at hps
    exact hps.around (fun c f h => h) fun c e h => h
  | rule name =>
    exact (hnamed name raise).around (fun c f h => h) fun c e h => h

end Grammar

theorem Rules.Plain.honest {rules : Rules TextCursor N} (hrules : rules.Plain)
    (rounds depth : Nat) (name : N P α) (raise : P.Error → ε) :
    History.Part.Honest
      (rules.reading rounds depth name, rules.history rounds depth name raise) := by
  induction depth generalizing P α with
  | zero => exact ⟨fun h => by simp [reading] at h, fun h => by simp [reading] at h⟩
  | succ depth ih => exact Grammar.Plain.honest ih (hrules name) raise

/-! ## Runs -/

/-- Where the grammar fails, the taps around its primitives are entered on that
input only and left with failures only. -/
theorem Grammar.Plain.watched_failsAt {rules : Rules TextCursor N} (hrules : rules.Plain)
    {g : Grammar TextCursor N P α} (hg : g.Plain) {limits : Limits} {c : TextCursor}
    {f : P.Failure} (h : g.answer rules limits c = .ok (.failure f)) (id : String) :
    ∀ e ∈ ((g.watched id).calls (rules.watched id) limits c).filterMap Event.record?,
      e.FailsAt c := by
  intro e he
  obtain ⟨ev, hev, hentry⟩ := List.mem_filterMap.1 he
  have hrules' : Rules.Unattempted (rules.watched id) :=
    fun name => unattempted_watched id (hrules name).unattempted
  have hwatched : (g.watched id).answer (rules.watched id) limits c = .ok (.failure f) := by
    rw [answer_watched]
    exact h
  exact Event.failsAt_entry
    (calls_failsAt hrules' (unattempted_watched id hg.unattempted) hwatched ev hev) hentry

/-- The payloads of a plain grammar are those that the combinators invent, and
that of a numeral that is no word.  So a whole text is answered with *no match*
if and only if the grammar fails at its beginning.  Then every call was made
there and failed, and the taps around the primitives show no match. -/
theorem payloads_are_honest {rules : Rules TextCursor N} (hrules : rules.Plain)
    {g : Grammar TextCursor N ParseError.payloads α} (hg : g.Plain) (limits : Limits)
    (s : Session TextCursor) :
    (∀ c f, (g.parse rules limits c).result s = .ok (.failure f) → f = .noMatch) ∧
      (∀ c e, (g.parse rules limits c).result s = .ok (.error e) →
        e = .incomplete ∨ FromNumeral (P := ParseError.payloads) (g.calls rules limits c) e) ∧
      ∀ text,
        let c := Cursor.start text.toList
        let mismatch := (Parser.run id (g.parse rules limits) text).result s =
          .ok (.error .noMatch)
        (mismatch ↔ ∃ f, (g.parse rules limits c).result s = .ok (.failure f)) ∧
          (mismatch → (∀ ev ∈ g.calls rules limits c, ev.FailsAt c) ∧
            ∀ name, ∃ es,
              ((Parser.run id ((g.watched name).parse (rules.watched name) limits) text).final
                s).taps = s.taps ++ es ∧ ∀ e ∈ es, e.FailsAt c) := by
  have hpart : History.Part.Honest (g.answer rules limits, g.calls rules limits) :=
    hg.honest (hrules.honest limits.rounds limits.depth) id
  have hmismatch : ∀ text, Reading.run id (g.answer rules limits) text = .ok (.error .noMatch) ↔
      ∃ f, g.answer rules limits (Cursor.start text.toList) = .ok (.failure f) := by
    intro text
    rw [Reading.run_eq_error_iff]
    constructor
    · rintro (h | ⟨f, h, -⟩ | ⟨a, d, -, -, h⟩)
      · rcases hpart.error h with he | ⟨_, _, n, _, _, _, he, _⟩
        · cases he
        · cases eq_of_heq he
      · exact ⟨f, h⟩
      · cases h
    · rintro ⟨f, h⟩
      exact .inr (.inl ⟨f, h, hpart.failure h⟩)
  have hrun : ∀ text, (Parser.run id (g.parse rules limits) text).result s =
      Reading.run id (g.answer rules limits) text := fun text =>
    Parser.run_result (P := ParseError.payloads) id (g.parse_follows rules limits) text s
  refine ⟨fun c f h => ?_, fun c e h => ?_, fun text => ?_⟩
  · rw [Grammar.parse_result] at h
    exact hpart.failure h
  · rw [Grammar.parse_result] at h
    exact hpart.error h
  · intro c mismatch
    have hiff : mismatch ↔ ∃ f, g.answer rules limits c = .ok (.failure f) := by
      dsimp only [mismatch]
      rw [hrun]
      exact hmismatch text
    refine ⟨?_, fun h => ?_⟩
    · rw [Grammar.parse_result]
      exact hiff
    · obtain ⟨f, hf⟩ := hiff.1 h
      have hunattempted : rules.Unattempted := fun name => (hrules name).unattempted
      have hfails : ∀ ev ∈ g.calls rules limits c, ev.FailsAt c :=
        Grammar.calls_failsAt hunattempted hg.unattempted hf
      refine ⟨hfails, fun name => ?_⟩
      have htaps := Request.perform_taps id (rules.watched name) limits (g.watched name)
        (.run text) s
      exact ⟨_, htaps, hg.watched_failsAt hrules hf name⟩

/-- A setting: a word or a number. -/
def setting : Grammar TextCursor NoNames ParseError.payloads Int :=
  Grammar.firstOf
    [Grammar.map (fun _ => 0) (Grammar.string "off"), Grammar.lexeme Grammar.integer]

/-- Twenty nines, which are more than the largest word. -/
def tooLarge : Numeral where
  negative := false
  digits := List.replicate 20 '9'
  nonempty := by decide
  decimal x hx := by rw [List.eq_of_mem_replicate hx]; rfl

/-- Neither a word nor a number; and a number that is no word. -/
theorem payloads_are_honest_of_setting :
    let p := setting.parse Rules.none ⟨30, 0⟩
    let large := Cursor.start tooLarge.text
    (Parser.run id p "?").result (Session.fresh false) = .ok (.error .noMatch) ∧
      (∀ ev ∈ setting.calls Rules.none ⟨30, 0⟩ (Cursor.start "?".toList),
        ev.FailsAt (Cursor.start "?".toList)) ∧
      (p large).result (Session.fresh false) =
        .ok (.error (.fatal "number too large to fit in target type")) ∧
      FromNumeral (P := ParseError.payloads) (setting.calls Rules.none ⟨30, 0⟩ large)
        (.fatal "number too large to fit in target type") := by
  have hsetting : setting.Plain := by
    refine .firstOf fun p hp => ?_
    rcases List.mem_pair.1 hp with rfl | rfl
    · exact .bind _ (Grammar.plain_string "off")
    · exact .lexeme .integer
  intro p large
  obtain ⟨-, herror, hrun⟩ :=
    payloads_are_honest Rules.plain_none hsetting ⟨30, 0⟩ (Session.fresh false)
  have hmismatch := hrun "?"
  have hrun : (Parser.run id p "?").result (Session.fresh false) = .ok (.error .noMatch) := by
    refine hmismatch.1.2 ⟨.noMatch, ?_⟩
    rw [Grammar.parse_result]
    rfl
  have hlarge : (p large).result (Session.fresh false) =
      .ok (.error (.fatal "number too large to fit in target type")) := by
    have hroom : Room 30 large := ⟨by decide, by decide⟩
    have hfits : ¬ Word.Fits tooLarge.value := by decide +kernel
    rw [Grammar.parse_result]
    unfold setting Grammar.answer
    rw [Grammar.reading_firstOf, List.map_cons, List.map_cons, List.map_nil]
    refine (Reading.choice_of_failure (f := ParseError.noMatch) rfl).trans ?_
    refine Reading.choice_of_error ?_
    rw [Grammar.reading_lexeme_integer]
    exact Reading.item_of_overflow hroom (List.append_nil _).symm Text.apart_nil hfits
  refine ⟨hrun, (hmismatch.2 hrun).1, hlarge, ?_⟩
  exact (herror large _ hlarge).resolve_left nofun

end Triad
