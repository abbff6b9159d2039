import Mathlib.Data.List.DropRight
import Triad.Proofs.Text.Display
import Triad.Text.Blank

/-!
# Reading the column back

As long as nothing is cut off, a column is the column of one text only, and the
display of a cursor is that of one position and one unconsumed text
(`Text.Column.short_texts_are_legible`).  Three ends have to be found.

* The end of a glyph.  Glyphs have three forms, and the first two characters say
  which one it is; a code point ends at its brace (`Column.prefixFree_glyph`).
  So the glyphs of a text are those of no other text
  (`PrefixFree.flatMap_injective`).
* The end of the text.  The bar that closes it is the last character that is no
  blank, whatever blanks and bars the text holds (`Column.rdropWhile_render`).
* The end of the position.  Its digits hold no colon.
-/

namespace Triad.Text

/-! ## Numerals -/

section Numerals

variable {b m n : Nat} {x : Char} {u v : List Char}

/-- The number that a digit stands for. -/
def digitValue (x : Char) : Nat :=
  if x.isDigit then x.toNat - '0'.toNat else x.toNat - 'a'.toNat + 10

theorem digitValue_digitChar {d : Nat} (hd : d < 16) : digitValue (Nat.digitChar d) = d := by
  have hall : ∀ d < 16, digitValue (Nat.digitChar d) = d := by decide
  exact hall d hd

/-- The number that a numeral stands for. -/
def numeralValue (b : Nat) (ds : List Char) : Nat := ds.foldl (fun n x => b * n + digitValue x) 0

theorem numeralValue_toDigits (hb : 1 < b) (hb' : b ≤ 16) (n : Nat) :
    numeralValue b (Nat.toDigits b n) = n := by
  induction n using Nat.strongRecOn with
  | ind n ih =>
    rw [Nat.toDigits_eq_if hb]
    split
    next hn =>
      show b * 0 + digitValue (Nat.digitChar n) = n
      rw [Nat.mul_zero, Nat.zero_add, digitValue_digitChar (by omega)]
    next hn =>
      have hlast : n % b < 16 := Nat.lt_of_lt_of_le (Nat.mod_lt n (by omega)) hb'
      have hfront := ih (n / b) (Nat.div_lt_self (by omega) hb)
      rw [numeralValue] at hfront ⊢
      rw [List.foldl_append, hfront, List.foldl_cons, List.foldl_nil, digitValue_digitChar hlast,
        Nat.div_add_mod]

theorem takeWhile_append_cons (hu : x ∉ u) : (u ++ x :: v).takeWhile (· ≠ x) = u := by
  have hother : ∀ y ∈ u, decide (y ≠ x) = true := fun y hy =>
    decide_eq_true fun heq => hu (heq ▸ hy)
  rw [List.takeWhile_append_of_pos hother, List.takeWhile_cons_of_neg (by simp), List.append_nil]

/-- A numeral with a mark behind it that is no digit can be read from the front
of a text. -/
theorem toDigits_append_cons_inj (hb : 1 < b) (hb' : b ≤ 16) (hx : ∀ d < 16, Nat.digitChar d ≠ x)
    (h : Nat.toDigits b m ++ x :: u = Nat.toDigits b n ++ x :: v) : m = n ∧ u = v := by
  have hnone (k : Nat) : x ∉ Nat.toDigits b k := by
    intro hmem
    obtain ⟨d, hd, rfl⟩ := exists_digitChar hb hmem
    exact hx d (Nat.lt_of_lt_of_le hd hb') rfl
  have hdigits := congrArg (List.takeWhile (· ≠ x)) h
  rw [takeWhile_append_cons (hnone m), takeWhile_append_cons (hnone n)] at hdigits
  obtain rfl : m = n := by
    rw [← numeralValue_toDigits hb hb' m, hdigits, numeralValue_toDigits hb hb']
  exact ⟨rfl, (List.cons.inj (List.append_cancel_left h)).2⟩

end Numerals

/-! ## Codes that are read from the front -/

/-- What a text begins with tells whose image stands there. -/
def PrefixFree {α β : Type} (f : α → List β) : Prop :=
  ∀ {a b : α} {u v : List β}, f a ++ u = f b ++ v → a = b

theorem PrefixFree.flatMap_injective {α β : Type} {f : α → List β} (hf : PrefixFree f)
    (hne : ∀ a, f a ≠ []) : Function.Injective (List.flatMap f) := by
  intro s t h
  induction s generalizing t with
  | nil =>
    cases t with
    | nil => rfl
    | cons b t => exact absurd (List.append_eq_nil_iff.1 h.symm).1 (hne b)
  | cons a s ih =>
    cases t with
    | nil => exact absurd (List.append_eq_nil_iff.1 h).1 (hne a)
    | cons b t =>
      rw [List.flatMap_cons, List.flatMap_cons] at h
      obtain rfl := hf h
      rw [ih (List.append_cancel_left h)]

theorem prefixFree_codePoint : PrefixFree codePoint := by
  intro c d u v h
  have hdigits : Nat.toDigits 16 c.toNat ++ '\x7d' :: u =
      Nat.toDigits 16 d.toNat ++ '\x7d' :: v := by
    simpa [codePoint] using h
  exact Char.toNat_inj.1 (toDigits_append_cons_inj (by decide) (by decide) (by decide) hdigits).1

namespace Column

/-! ## The forms of a glyph -/

/-- What a backslash and `y` stand for together. -/
def unescaped (y : Char) : Char :=
  if y = 't' then '\t' else if y = 'r' then '\r' else if y = 'n' then '\n' else y

/-- How a glyph of `c` may look. -/
inductive Form (c : Char) : List Char → Prop
  | itself : c ≠ '\\' → Form c [c]
  | short {y : Char} : y ≠ 'u' → unescaped y = c → Form c ['\\', y]
  | long : Form c (codePoint c)

theorem form_glyph (c : Char) : Form c (glyph c) := by
  unfold glyph
  split_ifs with hquote
  · refine .itself fun hc => ?_
    rw [hc] at hquote
    exact absurd hquote (by decide)
  unfold escape
  split_ifs with ht hr hn hmarked hplain
  · exact .short (by decide) ht.symm
  · exact .short (by decide) hr.symm
  · exact .short (by decide) hn.symm
  · have hc : c = '\'' ∨ c = '"' ∨ c = '\\' := by simpa [or_assoc] using hmarked
    rcases hc with rfl | rfl | rfl
    · exact absurd rfl hquote
    · exact absurd rfl hquote
    · exact .short (by decide) rfl
  · refine .itself fun hc => hmarked ?_
    rw [hc]
    decide
  · exact .long

/-- The first two characters tell the form, and the form tells what it is the
glyph of. -/
theorem Form.eq {c d : Char} {g g' u v : List Char} (hc : Form c g) (hd : Form d g')
    (h : g ++ u = g' ++ v) : c = d := by
  have hfirst : (g ++ u).head? = (g' ++ v).head? := congrArg List.head? h
  have hsecond : (g ++ u).tail.head? = (g' ++ v).tail.head? := congrArg (·.tail.head?) h
  cases hc with
  | itself hne =>
    cases hd with
    | itself => exact Option.some.inj hfirst
    | short | long => exact absurd (Option.some.inj hfirst) hne
  | short hy hmeant =>
    cases hd with
    | itself hne => exact absurd (Option.some.inj hfirst).symm hne
    | short _ hmeant' =>
      obtain rfl := Option.some.inj hsecond
      exact hmeant.symm.trans hmeant'
    | long => exact absurd (Option.some.inj hsecond) hy
  | long =>
    cases hd with
    | itself hne => exact absurd (Option.some.inj hfirst).symm hne
    | short hy => exact absurd (Option.some.inj hsecond).symm hy
    | long => exact prefixFree_codePoint h

theorem prefixFree_glyph : PrefixFree glyph := fun h => (form_glyph _).eq (form_glyph _) h

/-! ## The closing bar -/

/-- Without the blanks behind it, the column is what stands between the bars. -/
theorem rdropWhile_render (s : List Char) : (render s).rdropWhile isBlank = barred s := by
  have hpadding : ∀ x ∈ List.replicate (room + 2 - (barred s).length) ' ', isBlank x = true := by
    intro x hx
    rw [List.eq_of_mem_replicate hx]
    rfl
  have hbar : ¬ isBlank '|' = true := by decide
  rw [List.rdropWhile, render, padRight, List.reverse_append, List.reverse_replicate,
    List.dropWhile_append_of_pos hpadding, ← List.rdropWhile, barred,
    List.rdropWhile_concat_neg _ _ _ hbar]

theorem eq_of_barred_eq {s t : List Char} (hs : (s.flatMap glyph).length ≤ 33)
    (ht : (t.flatMap glyph).length ≤ 33) (h : barred s = barred t) : s = t := by
  have hbody : body s = body t := List.append_cancel_right (List.cons.inj h).2
  have hall {s : List Char} (hs : (s.flatMap glyph).length ≤ 33) : body s = s.flatMap glyph := by
    rw [body_eq]
    exact List.take_of_length_le hs
  rw [hall hs, hall ht] at hbody
  exact prefixFree_glyph.flatMap_injective glyph_ne_nil hbody

/-! ## The display of a cursor -/

theorem toList_text (c : TextCursor) :
    c.text.toList = Nat.toDigits 10 c.position ++ ':' :: (render c.rest).rdropWhile isBlank := by
  have hcolon : ":".toList = [':'] := rfl
  have hcolumn : (String.ofList (barred c.rest)).toList = barred c.rest := String.toList_ofList
  rw [rdropWhile_render, Cursor.text, String.toList_append, String.toList_append, hcolumn, hcolon,
    Nat.toString_eq_repr, Nat.toList_repr, List.append_assoc, List.singleton_append]

/-- Short texts can be read back.

* Two texts have the same column only if they are the same, where the glyphs of
  each have at most 33 characters.
* The display of a cursor is its position, a colon and the column without the
  blanks behind it.
* Two cursors have the same display only if their positions are the same and
  their unconsumed texts are, where the glyphs of each of these have at most 33
  characters.  What was consumed before does not matter. -/
theorem short_texts_are_legible :
    (∀ s t : List Char, (s.flatMap glyph).length ≤ 33 → (t.flatMap glyph).length ≤ 33 →
      render s = render t → s = t) ∧
    (∀ c : TextCursor,
      c.text.toList = Nat.toDigits 10 c.position ++ ':' :: (render c.rest).rdropWhile isBlank) ∧
    ∀ c d : TextCursor, (c.rest.flatMap glyph).length ≤ 33 →
      (d.rest.flatMap glyph).length ≤ 33 → c.text = d.text →
        c.position = d.position ∧ c.rest = d.rest := by
  refine ⟨fun s t hs ht h => ?_, toList_text, fun c d hc hd h => ?_⟩
  · have hbarred := congrArg (List.rdropWhile isBlank) h
    rw [rdropWhile_render, rdropWhile_render] at hbarred
    exact eq_of_barred_eq hs ht hbarred
  · have htext := congrArg String.toList h
    rw [toList_text, toList_text, rdropWhile_render, rdropWhile_render] at htext
    obtain ⟨hposition, hbarred⟩ :=
      toDigits_append_cons_inj (by decide) (by decide) (by decide) htext
    exact ⟨hposition, eq_of_barred_eq hc hd hbarred⟩

/-- A text with bars inside and blanks at its end.  It does not look like the one
that has a line feed for the backslash and the `n`, and it looks the same after
any two bytes. -/
theorem short_texts_are_legible_of_bars :
    let s := ['|', '\\', 'n', '"', '|', ' ', ' ']
    let t := ['|', '\n', '"', '|', ' ', ' ']
    let c : TextCursor := ⟨2, s, 'x' :: 'y' :: s⟩
    let d : TextCursor := ⟨2, s, 'é' :: s⟩
    (s.flatMap glyph).length = 8 ∧ (t.flatMap glyph).length = 7 ∧ render s ≠ render t ∧
      c.Valid ∧ d.Valid ∧ c.text = d.text ∧ c.position = d.position ∧ c.rest = d.rest := by
  intro s t c d
  obtain ⟨hcolumn, -, hdisplay⟩ := short_texts_are_legible
  have hne : render s ≠ render t := fun h => absurd (hcolumn s t (by decide) (by decide) h)
    (by decide)
  have hsame := hdisplay c d (by decide) (by decide) rfl
  exact ⟨by decide, by decide, hne, ⟨['x', 'y'], rfl, rfl⟩, ⟨['é'], rfl, rfl⟩, rfl, hsame⟩

/-- Where the glyphs do not fit, texts may look the same. -/
example : render (List.replicate 33 'a') = render (List.replicate 34 'a') := by decide

end Column

end Triad.Text
