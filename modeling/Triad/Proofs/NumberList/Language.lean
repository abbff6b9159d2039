import Triad.Proofs.Text.Numeral

/-!
# The language of number lists

What a list of numbers looks like, as relations between a text and the values
in it, with no mention of a parser:

* `Items`: one or more numerals with commas between them and blanks behind
  every numeral and every comma.
* `Listed`: a whole text that is a list whose values are words.
* `Opened`: numerals of which each has a comma behind it.
* `Overflows`: a text that is a list up to a numeral whose value is no word.

`Opened.items_or` is how the last two are related: what stands in front of
the numeral that does not fit is nothing, or items and a comma.
-/

namespace Triad.NumberList

/-! ## Lists -/

/-- `numeral blanks (',' blanks numeral blanks)*` and the values of the
numerals, in their order. -/
inductive Items : List Char → List Int → Prop
  | last (n : Numeral) (w : Blanks) : Items (n.text ++ w.chars) [n.value]
  | more (n : Numeral) (w w' : Blanks) {s : List Char} {ns : List Int} (h : Items s ns) :
      Items (n.text ++ (w.chars ++ ',' :: (w'.chars ++ s))) (n.value :: ns)

/-- What may stand between the brackets. -/
inductive Body : List Char → List Int → Prop
  | empty : Body [] []
  | items {s : List Char} {ns : List Int} (h : Items s ns) : Body s ns

/-- The text `blanks '[' blanks body ']' blanks`, with a body whose values are
the words `ns`. -/
def Listed (text : List Char) (ns : List Int) : Prop :=
  ∃ (w w' w'' : Blanks) (s : List Char), Body s ns ∧ (∀ n ∈ ns, Word.Fits n) ∧
    text = w.chars ++ '[' :: (w'.chars ++ (s ++ ']' :: w''.chars))

/-! ## Lists that break off at a value that is no word -/

/-- `(numeral blanks ',' blanks)*` and the values of the numerals. -/
inductive Opened : List Char → List Int → Prop
  | nil : Opened [] []
  | cons (n : Numeral) (w w' : Blanks) {s : List Char} {ns : List Int} (h : Opened s ns) :
      Opened (n.text ++ (w.chars ++ ',' :: (w'.chars ++ s))) (n.value :: ns)

/-- The text begins with `blanks '[' blanks (numeral blanks ',' blanks)*`, where
the values are words, and goes on with a numeral whose value is no word.  All
digits that are there belong to that numeral, and `message` tells the side on
which its value lies. -/
def Overflows (text : List Char) (message : String) : Prop :=
  ∃ (w w' : Blanks) (s : List Char) (ns : List Int) (n : Numeral) (t : List Char),
    Opened s ns ∧ (∀ k ∈ ns, Word.Fits k) ∧
    text = w.chars ++ '[' :: (w'.chars ++ (s ++ (n.text ++ t))) ∧
    Text.Apart Char.isDigit t ∧ ¬ Word.Fits n.value ∧ message = n.overflow.message

/-! ## How texts of these forms begin and go on -/

/-- Items begin with a numeral. -/
theorem Items.head {s : List Char} {ns : List Int} (h : Items s ns) (t : List Char) :
    ∃ (n : Numeral) (t' : List Char), s ++ t = n.text ++ t' := by
  cases h with
  | last n w => exact ⟨n, w.chars ++ t, by rw [List.append_assoc]⟩
  | more n w w' h => exact ⟨n, _, by rw [List.append_assoc]⟩

/-- Items do not begin with a blank. -/
theorem Items.apart_blank {s : List Char} {ns : List Int} (h : Items s ns) (t : List Char) :
    Text.Apart Text.isBlank (s ++ t) := by
  obtain ⟨n, t', hs⟩ := h.head t
  rw [hs]
  exact n.apart_blank t'

/-- With another comma behind them, items are open. -/
theorem Items.opened {s : List Char} {ns : List Int} (h : Items s ns) (w : Blanks) :
    Opened (s ++ ',' :: w.chars) ns := by
  induction h with
  | last n w' =>
    have hopened := Opened.cons n w' w .nil
    simpa using hopened
  | more n w₁ w₂ _ ih =>
    have hopened := Opened.cons n w₁ w₂ ih
    simpa using hopened

/-- What is open is nothing, or items with a comma behind them. -/
theorem Opened.items_or {s : List Char} {ns : List Int} (h : Opened s ns) :
    (s = [] ∧ ns = []) ∨
      ∃ (s' : List Char) (w : Blanks), Items s' ns ∧ s = s' ++ ',' :: w.chars := by
  induction h with
  | nil => exact .inl ⟨rfl, rfl⟩
  | cons n w w' _ ih =>
    rcases ih with ⟨rfl, rfl⟩ | ⟨s', w'', hitems, rfl⟩
    · exact .inr ⟨_, w', .last n w, by simp⟩
    · exact .inr ⟨_, w'', .more n w w' hitems, by simp⟩

theorem Opened.apart_blank {s : List Char} {ns : List Int} (h : Opened s ns) (n : Numeral)
    (t : List Char) : Text.Apart Text.isBlank (s ++ (n.text ++ t)) := by
  rcases h.items_or with ⟨rfl, -⟩ | ⟨s', w, hitems, rfl⟩
  · exact n.apart_blank t
  · rw [List.append_assoc]
    exact hitems.apart_blank _

theorem Body.apart_blank {s : List Char} {ns : List Int} (h : Body s ns) (t : List Char) :
    Text.Apart Text.isBlank (s ++ ']' :: t) := by
  cases h with
  | empty => exact Text.apart_cons rfl
  | items h => exact h.apart_blank _

end Triad.NumberList
