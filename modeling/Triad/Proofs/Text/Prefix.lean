import Triad.Proofs.Text.Front
import Triad.Proofs.Text.Rendering

/-!
# Words

The grammar of a word is a sequence of single characters.  What it answers is
said without a sequence: it depends on whether the word is a prefix of the text
at hand and, if it is not, on the first character alone (`string_matches_whole`).

A text may go on like the word for a while and then otherwise, or end in the
middle of it.  Wherever that is, something has been consumed, and the failure of
a later character is the same error (`Reading.spelled_of_mismatch`).
-/

namespace Triad

namespace Reading

variable {P : Payloads} {c : TextCursor} {x : Char} {word t : List Char}

/-- The characters of a word, one after the other. -/
def spelled (word : List Char) : Reading TextCursor P (List Char) :=
  sequence (word.map fun x => taken (· = x))

theorem spelled_of_prefix (hc : c.rest = word ++ t) :
    spelled (P := P) word c = .ok (.success word (c.forward word)) := by
  induction word generalizing c with
  | nil => rfl
  | cons x word ih =>
    have hfirst : taken (P := P) (· = x) c = .ok (.success x (c.forward [x])) :=
      taken_of_accept hc (decide_eq_true rfl)
    have hothers := ih (Cursor.rest_forward (s := [x]) hc)
    rw [Cursor.forward_forward] at hothers
    exact map_eq_success_iff.2 ⟨(x, word), pair_eq_success_iff.2 ⟨_, hfirst, hothers⟩, rfl⟩

/-- A word that does not come next fails at its first character or errs later. -/
theorem spelled_of_mismatch (h : ¬ word <+: c.rest) :
    spelled (P := P) word c =
      .ok (if c.peek? = word.head? then .error P.incomplete else .failure P.noMatch) := by
  induction word generalizing c with
  | nil => exact absurd (List.nil_prefix) h
  | cons x word ih =>
    by_cases hhead : c.peek? = some x
    · obtain ⟨t, hc⟩ := List.head?_eq_some_iff.1 hhead
      have hfirst : taken (P := P) (· = x) c = .ok (.success x (c.forward [x])) :=
        taken_of_accept hc (decide_eq_true rfl)
      have hothers := ih (c := c.forward [x]) (by
        rw [Cursor.rest_forward (s := [x]) hc]
        rw [hc] at h
        exact fun hprefix => h ((List.prefix_cons_inj x).2 hprefix))
      rw [List.head?_cons, if_pos hhead]
      refine map_eq_error_iff.2 (pair_eq_error_iff.2 (.inr ⟨x, _, hfirst, ?_⟩))
      -- the others fail at once or err with the payload that a failure becomes
      split at hothers
      next => exact .inl hothers
      next => exact .inr ⟨rfl, _, hothers⟩
    · have hapart : Text.Apart (· = x) c.rest := by
        intro y hy
        refine decide_eq_false fun hxy => hhead ?_
        rw [← hxy]
        exact hy
      rw [List.head?_cons, if_neg hhead]
      exact map_eq_failure_iff.2 (pair_eq_failure_iff.2 (taken_of_apart hapart))

end Reading

namespace Grammar

variable {N : Payloads → Type → Type} {P : Payloads}

@[simp] theorem reading_string {rounds : Nat}
    {named : ∀ {P : Payloads} {α : Type}, N P α → Reading TextCursor P α} (word : String) :
    (string word : Grammar TextCursor N P String).reading rounds named =
      Reading.map String.ofList (Reading.spelled word.toList) := by
  rw [string, reading_map, reading_allOf, List.map_map]
  simp only [Function.comp_def, reading_char]
  rfl

end Grammar

/-- Where the next character is not the first one of a word, the text goes on with
the word only if the word is empty. -/
theorem Cursor.ne_head?_iff {c : TextCursor} {word : String} :
    word ≠ "" ∧ c.peek? ≠ word.toList.head? ↔
      ¬ word.toList <+: c.rest ∧ c.peek? ≠ word.toList.head? := by
  refine and_congr_left fun hhead => not_congr ⟨?_, fun hprefix => ?_⟩
  · rintro rfl
    exact List.nil_prefix
  · obtain ⟨t, hc⟩ := hprefix
    cases hword : word.toList with
    | nil => exact String.toList_eq_nil_iff.1 hword
    | cons x u =>
      rw [hword] at hc hhead
      refine absurd ?_ hhead
      rw [peek?, ← hc]
      rfl

/-! ## Parsing words -/

section Parsing

variable {N : Payloads → Type → Type} {P : Payloads} (rules : Rules TextCursor N) (limits : Limits)

theorem string_result (word : String) (c : TextCursor) (s : Session TextCursor) :
    ((Grammar.string word : Grammar TextCursor N P String).parse rules limits c).result s =
      Reading.map String.ofList (Reading.spelled word.toList) c := by
  rw [Grammar.parse_result, ← Grammar.reading_string]
  rfl

theorem string_result_of_prefix (word : String) {c : TextCursor} (h : word.toList <+: c.rest)
    (s : Session TextCursor) :
    ((Grammar.string word : Grammar TextCursor N P String).parse rules limits c).result s =
      .ok (.success word (c.forward word.toList)) := by
  obtain ⟨t, ht⟩ := h
  have hread := Reading.spelled_of_prefix (P := P) ht.symm
  rw [string_result]
  exact Reading.map_eq_success_iff.2 ⟨_, hread, String.ofList_toList⟩

theorem string_result_of_mismatch (word : String) {c : TextCursor}
    (h : ¬ word.toList <+: c.rest) (s : Session TextCursor) :
    ((Grammar.string word : Grammar TextCursor N P String).parse rules limits c).result s =
      .ok (if c.peek? = word.toList.head? then .error P.incomplete else .failure P.noMatch) := by
  have hread := Reading.spelled_of_mismatch (P := P) h
  rw [string_result]
  split at hread
  next hhead =>
    rw [if_pos hhead]
    exact Reading.map_eq_error_iff.2 hread
  next hhead =>
    rw [if_neg hhead]
    exact Reading.map_eq_failure_iff.2 hread

/-- A word is read whole or not at all.

* It is read if and only if the text at hand begins with it.  The place behind
  it is as many bytes further on as its characters have in UTF-8, it is a place
  of the same text, and what was behind the word is left.
* The parser fails if and only if already the first character of the word does
  not come next, because there is another one or none.
* In all other cases it errs, because a part of the word has been consumed. -/
theorem string_matches_whole (word : String) {c : TextCursor} (valid : c.Valid)
    (s : Session TextCursor) :
    let answer := ((Grammar.string word : Grammar TextCursor N P String).parse rules limits c).result s
    let behind := c.forward word.toList
    let begins := word.toList <+: c.rest
    let misses := word ≠ "" ∧ c.peek? ≠ word.toList.head?
    (answer = .ok (.success word behind) ↔ begins) ∧
      (answer = .ok (.failure P.noMatch) ↔ misses) ∧
      (answer = .ok (.error P.incomplete) ↔ ¬ begins ∧ ¬ misses) ∧
      (begins → behind.position = c.position + word.utf8ByteSize ∧ behind.input = c.input ∧
        behind.Valid ∧ c.rest = word.toList ++ behind.rest) := by
  intro answer behind begins misses
  have hmisses : misses ↔ ¬ begins ∧ c.peek? ≠ word.toList.head? := Cursor.ne_head?_iff
  rw [hmisses]
  by_cases hbegins : begins
  case pos =>
    have hsuccess : answer = .ok (.success word behind) :=
      string_result_of_prefix rules limits word hbegins s
    obtain ⟨t, ht⟩ := id hbegins
    have hposition : behind.position = c.position + word.utf8ByteSize := by
      rw [← Width.total_toList]
      rfl
    have hsplit : c.rest = word.toList ++ behind.rest := by
      rw [Cursor.rest_forward ht.symm, ht]
    exact ⟨by simp [hsuccess, hbegins], by simp [hsuccess, hbegins], by simp [hsuccess, hbegins],
      fun _ => ⟨hposition, rfl, valid.forward hsplit, hsplit⟩⟩
  case neg =>
    have hresult := string_result_of_mismatch (P := P) rules limits word hbegins s
    by_cases hhead : c.peek? = word.toList.head?
    · have herror : answer = .ok (.error P.incomplete) := by rwa [if_pos hhead] at hresult
      simp [herror, hbegins, hhead]
    · have hfailure : answer = .ok (.failure P.noMatch) := by rwa [if_neg hhead] at hresult
      simp [hfailure, hbegins, hhead]

end Parsing

/-- Behind a letter of two bytes: a word that is there, one that breaks off in
its second letter, one that is longer than the text, one that begins otherwise,
and the empty one. -/
theorem string_matches_whole_of_accents :
    let c : TextCursor := ⟨2, "né".toList, "éné".toList⟩
    let answer (word : String) :=
      ((Grammar.string word : Grammar TextCursor NoNames ParseError.payloads String).parse
        Rules.none ⟨0, 0⟩ c).result (Session.fresh false)
    answer "né" = .ok (.success "né" ⟨5, [], "éné".toList⟩) ∧
      answer "ne" = .ok (.error .incomplete) ∧ answer "née" = .ok (.error .incomplete) ∧
      answer "é" = .ok (.failure .noMatch) ∧ answer "" = .ok (.success "" c) := by
  intro c answer
  have valid : c.Valid := ⟨['é'], by decide, by decide⟩
  have hmatches (word : String) := string_matches_whole (P := ParseError.payloads) Rules.none
    ⟨0, 0⟩ word valid (Session.fresh false)
  refine ⟨(hmatches "né").1.2 (by decide), (hmatches "ne").2.2.1.2 (by decide),
    (hmatches "née").2.2.1.2 (by decide), (hmatches "é").2.1.2 (by decide),
    (hmatches "").1.2 (by decide)⟩

end Triad
