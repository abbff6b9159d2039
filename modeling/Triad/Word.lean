/-!
# 64-bit integers

Grammars compute with integers that have to fit in a signed 64-bit word.  They are kept as
unbounded integers; `Word.Fits` says which of them are words, `Word.checked` refuses the others and
`Word.wrap` takes the word that agrees modulo `2 ^ 64`.
-/

namespace Triad.Word

/-- This is `-2 ^ 63`. -/
def least : Int := -0x8000000000000000

/-- This is `2 ^ 63 - 1`. -/
def greatest : Int := 0x7fffffffffffffff

/-- Is the integer a word? -/
def Fits (n : Int) : Prop := least ≤ n ∧ n ≤ greatest

instance (n : Int) : Decidable (Fits n) := inferInstanceAs (Decidable (_ ∧ _))

/-- The integer, if it is a word. -/
def checked (n : Int) : Option Int := if Fits n then some n else none

/-- The word that agrees with the integer modulo `2 ^ 64`. -/
def wrap (n : Int) : Int := n.bmod 0x10000000000000000

theorem checked_eq_some_iff {n m : Int} : checked n = some m ↔ Fits n ∧ n = m := by
  unfold checked; split <;> simp_all

theorem fits_wrap (n : Int) : Fits (wrap n) := by
  have low := Int.le_bmod (x := n) (m := 0x10000000000000000) (by decide)
  have high := Int.bmod_lt (x := n) (m := 0x10000000000000000) (by decide)
  unfold Fits wrap least greatest
  omega

theorem wrap_eq_self {n : Int} (fits : Fits n) : wrap n = n := by
  unfold Fits least greatest at fits
  exact Int.bmod_eq_of_le (by omega) (by omega)

end Triad.Word
