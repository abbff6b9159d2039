import Triad.Calculator
import Triad.Proofs.Text.Numeral

/-!
# Derivations of the calculator's texts

A text is a sum if it is the text of a derivation.  Derivations say nothing
about parsers, and they are evaluated in unbounded integers:

* `Derivation.text`: the text that is derived.
* `Derivation.value`: its value, with chains evaluated from left to right.
* `Derivation.Defined`: no literal and no intermediate result leaves the words,
  and nothing is divided by zero.

A derivation of a chain is an operand or a shorter chain with an operator, any
blanks and another operand behind it, so that derivations lean to the left as
the evaluation does.
-/

namespace Triad.Calculator

/-! ## Ranks -/

/-- The two kinds of chains. -/
inductive Level where
  | product
  | sum
deriving DecidableEq, Repr

inductive Rank where
  | factor
  | chain (level : Level)
deriving DecidableEq, Repr

namespace Level

def ops : Level → List Char
  | product => ['*', '/']
  | sum => ['+', '-']

/-- What the operators of a chain connect. -/
def operand : Level → Rank
  | product => .factor
  | sum => .chain .product

end Level

/-! ## Derivations -/

inductive Derivation : Rank → Type
  | literal (n : Numeral) (w : Blanks) : Derivation .factor
  | parens (w : Blanks) (e : Derivation (.chain .sum)) (w' : Blanks) : Derivation .factor
  | single {level : Level} (e : Derivation level.operand) : Derivation (.chain level)
  | more {level : Level} (e : Derivation (.chain level)) (op : Char) (hop : op ∈ level.ops)
      (w : Blanks) (e' : Derivation level.operand) : Derivation (.chain level)

/-- The result of an operation in the integers; division drops the fraction. -/
def combine (a : Int) (op : Char) (b : Int) : Int :=
  match op with
  | '+' => a + b
  | '-' => a - b
  | '*' => a * b
  | _ => a.tdiv b

namespace Derivation

def text : {r : Rank} → Derivation r → List Char
  | _, literal n w => n.text ++ w.chars
  | _, parens w e w' => '(' :: (w.chars ++ (e.text ++ ')' :: w'.chars))
  | _, single e => e.text
  | _, more e op _ w e' => e.text ++ op :: (w.chars ++ e'.text)

def value : {r : Rank} → Derivation r → Int
  | _, literal n _ => n.value
  | _, parens _ e _ => e.value
  | _, single e => e.value
  | _, more e op _ _ e' => combine e.value op e'.value

/-- Every literal and every result is a word, and no divisor is zero. -/
def Defined : {r : Rank} → Derivation r → Prop
  | _, literal n _ => Word.Fits n.value
  | _, parens _ e _ => e.Defined
  | _, single e => e.Defined
  | _, more e op _ _ e' => e.Defined ∧ e'.Defined ∧ (op = '/' → e'.value ≠ 0) ∧
      Word.Fits (combine e.value op e'.value)

instance decidableDefined : {r : Rank} → (e : Derivation r) → Decidable e.Defined
  | _, literal n _ => inferInstanceAs (Decidable (Word.Fits n.value))
  | _, parens _ e _ => decidableDefined e
  | _, single e => decidableDefined e
  | _, more e _ _ _ e' =>
    have := decidableDefined e
    have := decidableDefined e'
    inferInstanceAs (Decidable (_ ∧ _ ∧ _ ∧ _))

variable {r : Rank}

theorem Defined.fits {e : Derivation r} (h : e.Defined) : Word.Fits e.value := by
  induction e with
  | literal n w => exact h
  | parens w e w' ih => exact ih h
  | single e ih => exact ih h
  | more e op hop w e' => exact h.2.2.2

/-- The text of a derivation begins with a numeral or a parenthesis. -/
theorem text_head (e : Derivation r) :
    ∃ x t, e.text = x :: t ∧ (Numeral.isStart x = true ∨ x = '(') := by
  induction e with
  | literal n w =>
    obtain ⟨x, t, hn, hx⟩ := n.text_head
    exact ⟨x, t ++ w.chars, by rw [text, hn]; rfl, .inl hx⟩
  | parens w e w' => exact ⟨'(', _, rfl, .inr rfl⟩
  | single e ih => exact ih
  | more e op hop w e' ih =>
    obtain ⟨x, t, he, hx⟩ := ih
    exact ⟨x, _, by rw [text, he]; rfl, hx⟩

theorem apart_blank (e : Derivation r) (t : List Char) :
    Text.Apart Text.isBlank (e.text ++ t) := by
  obtain ⟨x, s, he, hx⟩ := e.text_head
  rw [he]
  refine Text.apart_cons ?_
  rcases hx with hx | rfl
  · exact Numeral.isBlank_of_isStart hx
  · rfl

theorem text_parens_append (w : Blanks) (e : Derivation (.chain .sum)) (w' : Blanks)
    (t : List Char) :
    (parens w e w').text ++ t = '(' :: (w.chars ++ (e.text ++ ')' :: (w'.chars ++ t))) := by
  simp [text]

theorem length_pos (e : Derivation r) : 0 < e.text.length := by
  obtain ⟨x, s, he, -⟩ := e.text_head
  rw [he, List.length_cons]
  omega

end Derivation

/-! ## Operations on words -/

/-- An operation on words has a result if the result in the integers is a word
and nothing is divided by zero. -/
theorem operate_eq_some_iff {level : Level} {a b n : Int} {op : Char} (hop : op ∈ level.ops) :
    operate a op b = some n ↔
      (op = '/' → b ≠ 0) ∧ Word.Fits (combine a op b) ∧ combine a op b = n := by
  cases level with
  | sum =>
    rcases List.mem_pair.1 hop with rfl | rfl
    · simpa [operate, combine] using Word.checked_eq_some_iff
    · simpa [operate, combine] using Word.checked_eq_some_iff
  | product =>
    rcases List.mem_pair.1 hop with rfl | rfl
    · simpa [operate, combine] using Word.checked_eq_some_iff
    · by_cases hb : b = 0
      · simp [operate, hb]
      · simpa [operate, combine, hb] using Word.checked_eq_some_iff

theorem fits_of_operate {a b n : Int} {op : Char} (h : operate a op b = some n) :
    Word.Fits n := by
  unfold operate at h
  split at h
  · obtain ⟨hfits, rfl⟩ := Word.checked_eq_some_iff.1 h
    exact hfits
  · obtain ⟨hfits, rfl⟩ := Word.checked_eq_some_iff.1 h
    exact hfits
  · obtain ⟨hfits, rfl⟩ := Word.checked_eq_some_iff.1 h
    exact hfits
  · by_cases hb : b = 0
    · simp [hb] at h
    · rw [if_neg hb] at h
      obtain ⟨hfits, rfl⟩ := Word.checked_eq_some_iff.1 h
      exact hfits

theorem fold_cons_eq_ok_iff {a b v : Int} {op : Char} {l : List (Char × Int)} :
    fold a ((op, b) :: l) = .ok v ↔ ∃ n, operate a op b = some n ∧ fold n l = .ok v := by
  rw [fold]
  cases operate a op b <;> simp

theorem fold_append {a b : Int} {l : List (Char × Int)} (h : fold a l = .ok b)
    (l' : List (Char × Int)) : fold a (l ++ l') = fold b l' := by
  induction l generalizing a with
  | nil =>
    obtain rfl := Except.ok.inj h
    rfl
  | cons x l ih =>
    obtain ⟨op, b'⟩ := x
    obtain ⟨n, hoperate, hrest⟩ := fold_cons_eq_ok_iff.1 h
    rw [List.cons_append, fold, hoperate]
    exact ih hrest

/-! ## What may stand behind a part -/

namespace Rank

/-- The characters that may follow a part of the rank. -/
def follow : Rank → List Char
  | factor => ['*', '/', '+', '-', ')']
  | chain .product => ['+', '-', ')']
  | chain .sum => [')']

/-- A part of the rank may end where `t` begins. -/
def EndsAt (r : Rank) (t : List Char) : Prop := ∀ x ∈ t.head?, x ∈ r.follow

theorem endsAt_nil (r : Rank) : r.EndsAt [] := by simp [EndsAt]

theorem endsAt_cons {r : Rank} {x : Char} {t : List Char} (hx : x ∈ r.follow) :
    r.EndsAt (x :: t) := by simpa [EndsAt] using hx

variable {r : Rank} {t : List Char} {level : Level}

/-- A numeral and the blanks behind it do not go on where a part ends. -/
theorem EndsAt.apart (h : r.EndsAt t) :
    Text.Apart Char.isDigit t ∧ Text.Apart Text.isBlank t := by
  have hall : r.follow.all (fun x => !x.isDigit && !Text.isBlank x) = true := by
    cases r with
    | factor => rfl
    | chain level => cases level <;> rfl
  have hfollow : ∀ x ∈ r.follow, x.isDigit = false ∧ Text.isBlank x = false := by
    simpa using hall
  exact ⟨fun x hx => (hfollow x (h x hx)).1, fun x hx => (hfollow x (h x hx)).2⟩

/-- Where a chain ends, so does its last operand. -/
theorem EndsAt.operand (h : (chain level).EndsAt t) : level.operand.EndsAt t := by
  have hfollow : (chain level).follow ⊆ level.operand.follow := by
    cases level <;> simp [follow, Level.operand]
  exact fun x hx => hfollow (h x hx)

/-- An operator ends the operand before it. -/
theorem endsAt_op {op : Char} (hop : op ∈ level.ops) : level.operand.EndsAt (op :: t) := by
  have hfollow : level.ops ⊆ level.operand.follow := by
    cases level <;> simp [follow, Level.ops, Level.operand]
  exact endsAt_cons (hfollow hop)

/-- Where a chain ends, there is no operator by which it could go on. -/
theorem EndsAt.apart_op (h : (chain level).EndsAt t) {op : Char} (hop : op ∈ level.ops) :
    Text.Apart (· = op) t := by
  have hdisjoint : ∀ x ∈ (chain level).follow, x ∉ level.ops := by
    cases level <;> simp [follow, Level.ops]
  intro x hx
  refine decide_eq_false ?_
  rintro rfl
  exact hdisjoint x (h x hx) hop

end Rank

end Triad.Calculator
