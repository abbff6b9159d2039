import Triad.Text.Ranges

/-!
# Blank characters

The characters with the Unicode property `White_Space`.  There are twenty-five of them, in ten
runs; the four that ASCII text uses most are a special case of the rule (`isBlank_of_isWhitespace`).
-/

namespace Triad.Text

/-- The runs of `White_Space`. -/
def blankRanges : Ranges :=
  [(0x9, 0xd), (0x20, 0x20), (0x85, 0x85), (0xa0, 0xa0), (0x1680, 0x1680), (0x2000, 0x200a),
    (0x2028, 0x2029), (0x202f, 0x202f), (0x205f, 0x205f), (0x3000, 0x3000)]

/-- Has the character the property `White_Space`? -/
def isBlank (c : Char) : Bool := blankRanges.covers c.toNat

theorem isBlank_iff {c : Char} :
    isBlank c = true ↔ ∃ r ∈ blankRanges, r.1 ≤ c.toNat ∧ c.toNat ≤ r.2 :=
  Ranges.covers_eq_true_iff (by decide) c.toNat

/-- Space, tab, carriage return and line feed are blank. -/
theorem isBlank_of_isWhitespace {c : Char} (h : c.isWhitespace = true) : isBlank c = true := by
  simp only [Char.isWhitespace, Bool.or_eq_true, decide_eq_true_eq] at h
  rcases h with ((rfl | rfl) | rfl) | rfl <;> rfl

end Triad.Text
