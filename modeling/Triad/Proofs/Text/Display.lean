import Mathlib.Tactic.SplitIfs
import Triad.Proofs.Text.Span

/-!
# What the input column shows

The column cuts the text, escapes every character, takes the escapes of
quotation marks back in two passes over the whole, and cuts again.  None of this
shows: the column is the beginning of the glyphs of all characters, one after
the other (`Text.Column.render_shows_glyphs`).

* `Column.Escapes.restore_flatMap`: a pass changes the escape of its mark and
  nothing else.  A backslash that comes from an escaped backslash stands in front
  of another one or of the next escape, and no escape begins with the mark.
* `Column.take_flatMap_take`: a glyph has at least one character, so the first
  33 characters of the glyphs come from the first 33 characters of the text.
* `Column.plain_of_mem_glyph`: glyphs are printable ASCII.
-/

namespace Triad.Text

/-! ## Hexadecimal digits -/

theorem exists_digitChar {b n : Nat} {x : Char} (hb : 1 < b) (h : x ∈ Nat.toDigits b n) :
    ∃ d < b, x = Nat.digitChar d := by
  induction n using Nat.strongRecOn with
  | ind n ih =>
    rw [Nat.toDigits_eq_if hb] at h
    split at h
    next hn => exact ⟨n, hn, List.mem_singleton.1 h⟩
    next hn =>
      rcases List.mem_append.1 h with h | h
      · exact ih (n / b) (Nat.div_lt_self (by omega) hb) h
      · exact ⟨n % b, Nat.mod_lt n (by omega), List.mem_singleton.1 h⟩

/-- The character is printable ASCII. -/
def Plain (x : Char) : Prop := 0x20 ≤ x.toNat ∧ x.toNat ≤ 0x7e

instance (x : Char) : Decidable (Plain x) := inferInstanceAs (Decidable (_ ∧ _))

/-- The two quotation marks. -/
def isQuote (x : Char) : Bool := x = '\'' || x = '"'

theorem plain_of_mem_codePoint {c x : Char} (h : x ∈ codePoint c) :
    Plain x ∧ isQuote x = false := by
  have hdigits : ∀ d < 16, Plain (Nat.digitChar d) ∧ isQuote (Nat.digitChar d) = false := by
    decide
  simp only [codePoint, List.cons_append, List.mem_cons, List.mem_append, List.not_mem_nil,
    or_false] at h
  rcases h with rfl | rfl | rfl | h | rfl
  · decide
  · decide
  · decide
  · obtain ⟨d, hd, rfl⟩ := exists_digitChar (by decide) h
    exact hdigits d hd
  · decide

namespace Column

/-! ## Escapes and glyphs -/

/-- How the column shows a character: the quotation marks stand for themselves,
and everything else is escaped. -/
def glyph (c : Char) : List Char := if isQuote c then [c] else escape c

/-- A backslash with one character behind it. -/
theorem plain_of_mem_short {c x y : Char} (hy : Plain y ∧ (isQuote y = true → y = c))
    (h : x ∈ ['\\', y]) : Plain x ∧ (isQuote x = true → x = c) := by
  rcases List.mem_pair.1 h with rfl | rfl
  · exact ⟨by decide, fun hx => absurd hx (by decide)⟩
  · exact hy

/-- An escape is printable ASCII, and there is no quotation mark in it but the
one that it is the escape of. -/
theorem plain_of_mem_escape {c x : Char} (h : x ∈ escape c) :
    Plain x ∧ (isQuote x = true → x = c) := by
  have hother {y : Char} (hy : Plain y ∧ isQuote y = false) :
      Plain y ∧ (isQuote y = true → y = c) :=
    ⟨hy.1, fun hquote => absurd hquote (Bool.eq_false_iff.1 hy.2)⟩
  unfold escape at h
  split_ifs at h with ht hr hn hmarked hplain
  · exact plain_of_mem_short (hother (by decide)) h
  · exact plain_of_mem_short (hother (by decide)) h
  · exact plain_of_mem_short (hother (by decide)) h
  · have hc : c = '\'' ∨ c = '"' ∨ c = '\\' := by simpa [or_assoc] using hmarked
    have hplain : Plain c := by rcases hc with rfl | rfl | rfl <;> decide
    exact plain_of_mem_short ⟨hplain, fun _ => rfl⟩ h
  · obtain rfl := List.mem_singleton.1 h
    exact ⟨by simpa [Plain] using hplain, fun _ => rfl⟩
  · exact hother (plain_of_mem_codePoint h)

theorem plain_of_mem_glyph {c x : Char} (h : x ∈ glyph c) : Plain x := by
  unfold glyph at h
  split at h
  next hquote =>
    obtain rfl := List.mem_singleton.1 h
    have hx : x = '\'' ∨ x = '"' := by simpa [isQuote] using hquote
    rcases hx with rfl | rfl <;> decide
  next => exact (plain_of_mem_escape h).1

theorem glyph_ne_nil (c : Char) : glyph c ≠ [] := by
  unfold glyph escape
  split_ifs <;> simp [codePoint]

/-! ## Passes over escaped text -/

section Pass

variable {mark x : Char} {u t : List Char}

theorem restore_cons (h : t.head? ≠ some mark) : restore mark (x :: t) = x :: restore mark t := by
  cases t with
  | nil => rfl
  | cons y t =>
    have hy : y ≠ mark := fun heq => h (by rw [heq]; rfl)
    rw [restore, if_neg (by simp [hy])]

/-- Where the mark does not stand, nothing changes. -/
theorem restore_append (hu : mark ∉ u) (ht : t.head? ≠ some mark) :
    restore mark (u ++ t) = u ++ restore mark t := by
  induction u with
  | nil => rfl
  | cons x u ih =>
    have hu' : mark ∉ u := fun hmem => hu (List.mem_cons_of_mem x hmem)
    have hhead : (u ++ t).head? ≠ some mark := by
      cases u with
      | nil => exact ht
      | cons y u =>
        intro heq
        obtain rfl := Option.some.inj heq
        exact hu' List.mem_cons_self
    rw [List.cons_append, restore_cons hhead, ih hu', List.cons_append]

theorem restore_escaped (mark : Char) (t : List Char) :
    restore mark ('\\' :: mark :: t) = mark :: restore mark t := by
  rw [restore, if_pos (by simp)]

end Pass

/-- An escape for every character, of which one is a backslash with the mark
behind it, and there are no other marks in them. -/
structure Escapes (mark : Char) (f : Char → List Char) : Prop where
  marked : f mark = ['\\', mark]
  ne : mark ≠ '\\'
  others : ∀ c, mark ∈ f c → c = mark

namespace Escapes

variable {mark : Char} {f : Char → List Char}

/-- Escaped text does not begin with the mark. -/
theorem head?_flatMap_ne (h : Escapes mark f) (s : List Char) :
    (s.flatMap f).head? ≠ some mark := by
  induction s with
  | nil => simp
  | cons c s ih =>
    rw [List.flatMap_cons]
    cases hc : f c with
    | nil => exact ih
    | cons x u =>
      intro heq
      obtain rfl := Option.some.inj heq
      obtain rfl := h.others c (by rw [hc]; exact List.mem_cons_self)
      rw [h.marked] at hc
      exact h.ne (List.cons.inj hc).1.symm

/-- A pass takes back the escape of its mark and leaves all others alone. -/
theorem restore_flatMap (h : Escapes mark f) (s : List Char) :
    restore mark (s.flatMap f) = s.flatMap fun c => if c = mark then [mark] else f c := by
  induction s with
  | nil => rfl
  | cons c s ih =>
    rw [List.flatMap_cons, List.flatMap_cons, ← ih]
    by_cases hc : c = mark
    · rw [hc, h.marked, if_pos rfl]
      exact restore_escaped mark _
    · rw [if_neg hc]
      exact restore_append (fun hmem => hc (h.others c hmem)) (h.head?_flatMap_ne s)

end Escapes

/-- Both passes together make glyphs of the escapes. -/
theorem restore_restore (s : List Char) :
    restore '\'' (restore '"' (s.flatMap escape)) = s.flatMap glyph := by
  have hdouble : Escapes '"' escape :=
    ⟨rfl, by decide, fun c h => ((plain_of_mem_escape h).2 rfl).symm⟩
  have hsingle : Escapes '\'' fun c => if c = '"' then ['"'] else escape c := by
    refine ⟨rfl, by decide, fun c h => ?_⟩
    split at h
    next => simp at h
    next => exact ((plain_of_mem_escape h).2 rfl).symm
  rw [hdouble.restore_flatMap, hsingle.restore_flatMap]
  refine congrArg (s.flatMap ·) (funext fun c => ?_)
  unfold glyph isQuote
  by_cases hs : c = '\''
  · simp [hs]
  · by_cases hd : c = '"' <;> simp [hs, hd]

/-! ## Cutting -/

/-- What is cut off from the text would be cut off from its images. -/
theorem take_flatMap_take {f : Char → List Char} (hf : ∀ c, f c ≠ []) {m n : Nat} (h : m ≤ n)
    (s : List Char) : ((s.take n).flatMap f).take m = (s.flatMap f).take m := by
  induction s generalizing m n with
  | nil => rw [List.take_nil]
  | cons c s ih =>
    cases n with
    | zero =>
      obtain rfl : m = 0 := Nat.le_zero.1 h
      rfl
    | succ n =>
      have hlength : 0 < (f c).length := List.length_pos_iff.2 (hf c)
      rw [List.take_succ_cons, List.flatMap_cons, List.flatMap_cons, List.take_append,
        List.take_append, ih (by omega)]

theorem body_eq (s : List Char) : body s = (s.flatMap glyph).take room := by
  rw [body, restore_restore, take_flatMap_take glyph_ne_nil (Nat.le_refl room)]

/-! ## The whole column -/

/-- The first 33 characters of the glyphs of the whole text. -/
def shown (s : List Char) : List Char := (s.flatMap glyph).take 33

theorem length_shown_le (s : List Char) : (shown s).length ≤ 33 := List.length_take_le _ _

theorem render_eq (s : List Char) :
    render s = '|' :: shown s ++ '|' :: List.replicate (33 - (shown s).length) ' ' := by
  have hbarred : barred s = '|' :: shown s ++ ['|'] := by
    rw [barred, body_eq]
    rfl
  have hfill : room + 2 - (barred s).length = 33 - (shown s).length := by
    rw [hbarred]
    simp [room]
  rw [render, padRight, hfill, hbarred, List.append_assoc, List.singleton_append]

theorem length_render (s : List Char) : (render s).length = 35 := by
  have hle := length_shown_le s
  rw [render_eq, List.length_append, List.length_cons, List.length_cons, List.length_replicate]
  omega

theorem plain_of_mem_render {s : List Char} {x : Char} (h : x ∈ render s) : Plain x := by
  have hframe : Plain '|' ∧ Plain ' ' := by decide
  rw [render_eq] at h
  rcases List.mem_append.1 h with h | h
  · rcases List.mem_cons.1 h with rfl | h
    · exact hframe.1
    · obtain ⟨c, -, hx⟩ := List.mem_flatMap.1 (List.mem_of_mem_take h)
      exact plain_of_mem_glyph hx
  · rcases List.mem_cons.1 h with rfl | h
    · exact hframe.1
    · rw [List.eq_of_mem_replicate h]
      exact hframe.2

/-- The column fills its width, so that nothing is padded in a line. -/
theorem column_snippet (c : TextCursor) :
    (Line.column Line.snippetWidth c.snippet).toList = render c.rest := by
  have hlength := length_render c.rest
  have hsnippet : c.snippet.toList = render c.rest := String.toList_ofList
  rw [Line.column, String.toList_ofList, hsnippet, padRight, hlength]
  exact List.append_nil _

/-- The column shows the glyphs of the text, as many as there is room for.

* It is the first 33 characters of the glyphs of all characters, between two
  bars, with blanks behind them.  Neither the cut in front nor the two passes
  can be seen.
* It has 35 characters, and all are printable ASCII.
* Where the text is cut, one character ends and the next one begins.
* A trace line that shows a place is the column, a blank, the column of the
  label and more.  So the label begins at the same character of all these lines. -/
theorem render_shows_glyphs :
    (∀ s : List Char,
      render s = '|' :: shown s ++ '|' :: List.replicate (33 - (shown s).length) ' ' ∧
        (render s).length = 35 ∧ (∀ x ∈ render s, 0x20 ≤ x.toNat ∧ x.toNat ≤ 0x7e) ∧
        Cursor.after? s (Width.total (s.take 33)) = some (s.drop 33)) ∧
      ∀ (c : TextCursor) (label operation : String) (kinds : List Kind),
        ∃ more, (⟨c.snippet, label, operation, kinds⟩ : Line).text.toList =
          render c.rest ++ ' ' :: (Line.column Line.labelWidth label).toList ++ more := by
  refine ⟨fun s => ⟨render_eq s, length_render s, fun x hx => plain_of_mem_render hx, ?_⟩,
    fun c label operation kinds => ?_⟩
  · have hcut := Cursor.after?_append (s.take 33) (s.drop 33)
    rwa [List.take_append_drop] at hcut
  · unfold Line.text
    simp only [String.toList_append, List.append_assoc, column_snippet]
    exact ⟨_, rfl⟩

/-- A backslash in front of a quotation mark is escaped, and the mark is not. -/
example : shown ['\\', '"', '\'', '\n', 'é'] =
    ['\\', '\\', '"', '\'', '\\', 'n', '\\', 'u', '\x7b', 'e', '9', '\x7d'] := by decide

end Column

end Triad.Text
