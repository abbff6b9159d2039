import Triad.Proofs.Text.Span

/-!
# Values that hold the text

A grammar that is put together from characters, words and the end of the text,
and whose callbacks leave the characters of a value alone, loses no text, reads
none twice and keeps it in order: the characters in the value of a success are
the slice of the input between the place where the parse starts and the place
that it leaves (`text_is_kept`).

`Textual` says which characters a value holds, by its type.  `Grammar.Copies`
is the class of grammars.  It admits `attempt`: what an abandoned alternative
has read is read again, but it is not in the value either.
-/

namespace Triad

variable {N : Payloads → Type → Type} {P Q : Payloads} {α β : Type}

/-! ## The characters of a value -/

/-- How the values of a type hold text, if they do. -/
inductive Textual : Type → Type 1 where
  | nothing {α : Type} : Textual α
  | char : Textual Char
  | string : Textual String
  | pair {α β : Type} (first : Textual α) (second : Textual β) : Textual (α × β)
  | list {α : Type} (element : Textual α) : Textual (List α)

/-- The characters that a value holds, in order. -/
def Textual.characters : {α : Type} → Textual α → α → List Char
  | _, .nothing, _ => []
  | _, .char, x => [x]
  | _, .string, s => s.toList
  | _, .pair first second, (a, b) => first.characters a ++ second.characters b
  | _, .list element, as => as.flatMap element.characters

/-! ## Grammars that copy the text -/

/-- The values of the grammar hold text as given, if those of names do as
`held` says, and none of its callbacks changes the characters of a value. -/
inductive Grammar.Copies (held : ∀ (P : Payloads) (α : Type), N P α → Textual α) :
    {P : Payloads} → {α : Type} → (kept : Textual α) → (g : Grammar TextCursor N P α) → Prop
  | satisfy {P : Payloads} (accept : Char → Bool) :
    Copies held .char (Grammar.satisfy accept : Grammar TextCursor N P Char)
  | char {P : Payloads} (x : Char) :
    Copies held .char (Grammar.char x : Grammar TextCursor N P Char)
  | endOfText {P : Payloads} :
    Copies held .nothing (Grammar.endOfText : Grammar TextCursor N P Unit)
  | fail {P : Payloads} {α : Type} {kept : Textual α} (payload : P.Failure) :
    Copies held kept (.fail payload : Grammar TextCursor N P α)
  | error {P : Payloads} {α : Type} {kept : Textual α} (payload : P.Error) :
    Copies held kept (.error payload : Grammar TextCursor N P α)
  | attempt {P : Payloads} {α : Type} {kept : Textual α} {p : Grammar TextCursor N P α}
    (demote : P.Error → P.Failure) (hp : Copies held kept p) :
    Copies held kept (.attempt demote p)
  | escalate {P : Payloads} {α : Type} {kept : Textual α} {p : Grammar TextCursor N P α}
    (promote : P.Failure → P.Error) (hp : Copies held kept p) :
    Copies held kept (.escalate promote p)
  | bind {P : Payloads} {α β : Type} {kept : Textual α} {kept' : Textual β}
    {p : Grammar TextCursor N P α} {f : α → Except String β}
    (hf : ∀ a b, f a = .ok b → kept'.characters b = kept.characters a)
    (hp : Copies held kept p) : Copies held kept' (.bind f p)
  | mapPayload {P Q : Payloads} {α : Type} {kept : Textual α} {p : Grammar TextCursor N P α}
    (onFailure : P.Failure → Q.Failure) (onError : P.Error → Q.Error)
    (hp : Copies held kept p) : Copies held kept (.mapPayload onFailure onError p)
  | context {α : Type} {kept : Textual α}
    {p : Grammar TextCursor N ParseError.payloads α} (name : String)
    (hp : Copies held kept p) : Copies held kept (.context name p)
  | label {P : Payloads} {α : Type} {kept : Textual α} {p : Grammar TextCursor N P α}
    (name : String) (hp : Copies held kept p) : Copies held kept (.label name p)
  | many {P : Payloads} {α : Type} {kept : Textual α} {p : Grammar TextCursor N P α}
    (min max : Nat) (hp : Copies held kept p) : Copies held (.list kept) (.many min max p)
  | pair {P : Payloads} {α β : Type} {kept : Textual α} {kept' : Textual β}
    {p : Grammar TextCursor N P α} {q : Grammar TextCursor N P β}
    (hp : Copies held kept p) (hq : Copies held kept' q) :
    Copies held (.pair kept kept') (.pair p q)
  | choice {P : Payloads} {α : Type} {kept : Textual α} {count : Nat}
    {ps : Fin count → Grammar TextCursor N P α} (hps : ∀ i, Copies held kept (ps i)) :
    Copies held kept (.choice count ps)
  | sequence {P : Payloads} {α : Type} {kept : Textual α} {count : Nat}
    {ps : Fin count → Grammar TextCursor N P α} (hps : ∀ i, Copies held kept (ps i)) :
    Copies held (.list kept) (.sequence count ps)
  | defer {P : Payloads} {α : Type} {kept : Textual α} {p : Grammar TextCursor N P α}
    (note : Option String) (hp : Copies held kept p) : Copies held kept (.defer note p)
  | rule {P : Payloads} {α : Type} (name : N P α) : Copies held (held P α name) (.rule name)
  | tap {P : Payloads} {α : Type} {kept : Textual α} {p : Grammar TextCursor N P α}
    (id : String) (hp : Copies held kept p) : Copies held kept (.tap id p)

namespace Grammar.Copies

variable {held : ∀ (P : Payloads) (α : Type), N P α → Textual α} {kept : Textual α}

theorem map {kept' : Textual β} {p : Grammar TextCursor N P α} {f : α → β}
    (hf : ∀ a, kept'.characters (f a) = kept.characters a) (hp : p.Copies held kept) :
    (Grammar.map f p).Copies held kept' :=
  .bind (fun a _ h => Except.ok.inj h ▸ hf a) hp

theorem firstOf {ps : List (Grammar TextCursor N P α)} (hps : ∀ p ∈ ps, p.Copies held kept) :
    (Grammar.firstOf ps).Copies held kept :=
  .choice fun i => hps _ (List.get_mem ps i)

/-- The characters of a word are put together again. -/
theorem string (word : String) :
    (Grammar.string word : Grammar TextCursor N P String).Copies held .string := by
  have hchars : (allOf (word.toList.map Grammar.char) :
      Grammar TextCursor N P (List Char)).Copies held (.list .char) := by
    refine .sequence fun i => ?_
    obtain ⟨x, -, hx⟩ := List.mem_map.1 (List.get_mem (word.toList.map Grammar.char) i)
    exact hx ▸ .char x
  exact .map (fun s => by simp [Textual.characters]) hchars

theorem finalize (promote : P.Failure → P.Error) {p : Grammar TextCursor N P α}
    (hp : p.Copies held kept) : (Grammar.finalize promote p).Copies held kept := by
  have hpair : (Grammar.pair p Grammar.endOfText).Copies held (.pair kept .nothing) :=
    .pair hp .endOfText
  exact .map (fun a => by simp [Textual.characters]) (.escalate promote hpair)

end Grammar.Copies

/-! ## Successes that copy the text -/

open Cursor

/-- A success holds the text between where it starts and what it leaves. -/
def Reading.Copies (kept : Textual α) (p : Reading TextCursor P α) : Prop :=
  ∀ ⦃c a d⦄, p c = .ok (.success a d) → c.Spans (kept.characters a) d

namespace Reading

variable {kept : Textual α} {kept' : Textual β} {p : Reading TextCursor P α}

theorem copies_next {m : Matcher TextCursor Char} {accept : Char → Bool}
    (hm : m.match? = Matcher.next accept) :
    (primitive m : Reading TextCursor P Char).Copies .char := by
  intro c x d h
  rw [primitive_eq_success_iff, hm, Matcher.next] at h
  cases hc : c.rest with
  | nil => simp [next?_of_end hc] at h
  | cons y t =>
    rw [next?_of_rest hc] at h
    obtain ⟨-, rfl, rfl⟩ := by simpa using h
    exact spans_forward hc

theorem copies_endOfText :
    (primitive Matcher.endOfText : Reading TextCursor P Unit).Copies .nothing := by
  intro c a d h
  obtain ⟨-, rfl⟩ : c.isEnd ∧ c = d := by
    simpa [Matcher.endOfText] using primitive_eq_success_iff.1 h
  exact Spans.nil c

theorem Copies.pair {q : Reading TextCursor P β} (hp : p.Copies kept) (hq : q.Copies kept') :
    (pair p q).Copies (.pair kept kept') := by
  rintro c ⟨a, b⟩ d h
  obtain ⟨rest, ha, hb⟩ := pair_eq_success_iff.1 h
  exact (hp ha).append (hq hb)

/-- Whatever an alternative has read before it failed is not kept. -/
theorem Copies.choice {ps : List (Reading TextCursor P α)} (hps : ∀ p ∈ ps, p.Copies kept) :
    (choice ps).Copies kept := by
  induction ps with
  | nil => exact fun c a d h => by simp [Reading.choice] at h
  | cons p ps ih =>
    intro c a d h
    rcases choice_cons_iff.1 h with ⟨hp, -⟩ | ⟨-, hrest⟩
    · exact hps p List.mem_cons_self hp
    · exact ih (fun p hp => hps p (List.mem_cons_of_mem _ hp)) hrest

theorem Copies.sequence {ps : List (Reading TextCursor P α)} (hps : ∀ p ∈ ps, p.Copies kept) :
    (sequence ps).Copies (.list kept) := by
  induction ps with
  | nil =>
    intro c as d h
    obtain ⟨rfl, rfl⟩ : [] = as ∧ c = d := by simpa [Reading.sequence] using h
    exact Spans.nil c
  | cons p ps ih =>
    intro c as d h
    obtain ⟨⟨a, rest⟩, hpair, rfl⟩ := map_eq_success_iff.1 h
    exact (hps p List.mem_cons_self).pair (ih fun p hp => hps p (List.mem_cons_of_mem _ hp)) hpair

/-- The values of a chain hold the text that the chain goes along. -/
theorem Repeats.spans (hp : p.Copies kept) {c d : TextCursor} {as : List α}
    (h : Repeats p c as d) : c.Spans ((Textual.list kept).characters as) d := by
  induction h with
  | nil => exact Spans.nil _
  | cons hstep _ ih => exact (hp hstep).append ih

theorem Copies.many (hp : p.Copies kept) (rounds min max : Nat) :
    (many rounds min max p).Copies (.list kept) :=
  fun _ _ _ h => (many_eq_success h).1.spans hp

end Reading

section Runs

variable {held : ∀ (P : Payloads) (α : Type), N P α → Textual α} {kept : Textual α}

/-- The step of the induction over names: a grammar that copies the text reads
so if the names do. -/
theorem Grammar.Copies.reading {rounds : Nat}
    {reads : ∀ {P : Payloads} {α : Type}, N P α → Reading TextCursor P α}
    (hnamed : ∀ {P : Payloads} {α : Type} (name : N P α), (reads name).Copies (held P α name))
    {g : Grammar TextCursor N P α} (hg : g.Copies held kept) :
    (g.reading rounds reads).Copies kept := by
  -- not on the grammar: how a value holds text is part of what is given
  induction hg with
  | satisfy accept => exact Reading.copies_next rfl
  | char x => exact Reading.copies_next rfl
  | endOfText => exact Reading.copies_endOfText
  | fail payload | error payload => exact fun c a d h => by simp [Grammar.reading] at h
  | attempt demote _ ih => exact fun c a d h => ih (Reading.attempt_eq_success_iff.1 h)
  | escalate promote _ ih => exact fun c a d h => ih (Reading.escalate_eq_success_iff.1 h)
  | mapPayload onFailure onError _ ih =>
    exact fun c a d h => ih (Reading.mapPayload_eq_success_iff.1 h)
  | context name _ ih => exact fun c a d h => ih (Reading.mapPayload_eq_success_iff.1 h)
  | bind hf _ ih =>
    intro c b d h
    obtain ⟨a, ha, hb⟩ := Reading.bind_eq_success_iff.1 h
    rw [hf a b hb]
    exact ih ha
  | label _ _ ih | defer _ _ ih | tap _ _ ih => exact ih
  | many min max _ ih => exact ih.many rounds min max
  | pair _ _ ihp ihq => exact ihp.pair ihq
  | choice _ ih => exact .choice (List.forall_mem_ofFn_iff.2 ih)
  | sequence _ ih => exact .sequence (List.forall_mem_ofFn_iff.2 ih)
  | rule name => exact hnamed name

theorem Rules.reading_copies {rules : Rules TextCursor N}
    (hrules : ∀ {P : Payloads} {α : Type} (name : N P α), (rules name).Copies held (held P α name))
    (rounds depth : Nat) {P : Payloads} {α : Type} (name : N P α) :
    (rules.reading rounds depth name).Copies (held P α name) := by
  induction depth generalizing P α with
  | zero => exact fun c a d h => by simp [Rules.reading] at h
  | succ depth ih => exact (hrules name).reading ih

/-- No text is lost, read twice or put out of order: the value of a success
holds the slice of the input between the place where the parse starts and the
place that it leaves. -/
theorem text_is_kept {rules : Rules TextCursor N}
    (hrules : ∀ {P : Payloads} {α : Type} (name : N P α), (rules name).Copies held (held P α name))
    {g : Grammar TextCursor N P α} (hg : g.Copies held kept) {limits : Limits} {c d : TextCursor}
    (valid : c.Valid) {s : Session TextCursor} {a : α}
    (h : (g.parse rules limits c).result s = .ok (.success a d)) :
    d.input = c.input ∧ slice? c.input c.position d.position = some (kept.characters a) := by
  rw [Grammar.parse_result] at h
  have hspans := hg.reading (Rules.reading_copies hrules limits.rounds limits.depth) h
  exact ⟨hspans.input, hspans.slice?_eq valid⟩

/-- A text of words, of which the second shares a beginning with the first, and
a digit after each. -/
def retried : Grammar TextCursor NoNames ParseError.payloads (List (String × Char)) :=
  .finalize (fun e => e)
    (.many0 (.pair (.firstOf [.attempt (fun e => e) (.string "éa"), .string "éb"]) .digit))

/-- The letter that the abandoned word has read is held once. -/
theorem text_is_kept_of_retried :
    (retried.parse Rules.none ⟨4, 0⟩ ⟨1, "éb2éa3".toList, "xéb2éa3".toList⟩).result
        (Session.fresh false) =
          .ok (.success [("éb", '2'), ("éa", '3')] ⟨9, [], "xéb2éa3".toList⟩) ∧
      slice? "xéb2éa3".toList 1 9 = some "éb2éa3".toList := by
  have hresult : (retried.parse Rules.none ⟨4, 0⟩ ⟨1, "éb2éa3".toList, "xéb2éa3".toList⟩).result
      (Session.fresh false) =
        .ok (.success [("éb", '2'), ("éa", '3')] ⟨9, [], "xéb2éa3".toList⟩) := by
    rw [Grammar.parse_result]
    cbv
  have hword : ∀ p ∈ [Grammar.attempt (fun e => e) (.string "éa"),
      (.string "éb" : Grammar TextCursor NoNames ParseError.payloads String)],
        p.Copies (fun _ _ name => name.elim) .string := by
    intro p hp
    rcases List.mem_pair.1 hp with rfl | rfl
    · exact .attempt _ (.string _)
    · exact .string _
  have hcopies : retried.Copies (fun _ _ name => name.elim) (.list (.pair .string .char)) :=
    .finalize _ (.many _ _ (.pair (.firstOf hword) (.satisfy _)))
  exact ⟨hresult, (text_is_kept (fun name => name.elim) hcopies ⟨['x'], rfl, rfl⟩ hresult).2⟩

end Runs

end Triad
