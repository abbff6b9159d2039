/-!
# Sets of characters as sorted ranges

A property of characters is kept as the list of its runs of code points.  The runs are closed,
increasing and apart from each other, so a look-up ends at the first run beyond the code point.
`Ranges.covers_eq_true_iff` says that on an ordered list this early end loses nothing.
-/

namespace Triad.Text

/-- Closed runs of code points. -/
abbrev Ranges := List (Nat × Nat)

namespace Ranges

/-- Is the code point `n` in one of the runs?  The scan ends at the first run that starts beyond
it. -/
def covers : Ranges → Nat → Bool
  | [], _ => false
  | (first, last) :: rest, n => if n < first then false else n ≤ last || covers rest n

/-- No run is empty, and each starts after the end of those before it. -/
def Ordered (rs : Ranges) : Prop :=
  (∀ r ∈ rs, r.1 ≤ r.2) ∧ rs.Pairwise fun r s => r.2 < s.1

instance (rs : Ranges) : Decidable rs.Ordered := inferInstanceAs (Decidable (_ ∧ _))

theorem covers_eq_true_iff {rs : Ranges} (ordered : rs.Ordered) (n : Nat) :
    rs.covers n = true ↔ ∃ r ∈ rs, r.1 ≤ n ∧ n ≤ r.2 := by
  induction rs with
  | nil => simp [covers]
  | cons r rest ih =>
    obtain ⟨filled, apart⟩ := ordered
    obtain ⟨beyond, apart⟩ := List.pairwise_cons.1 apart
    have filledHere := filled r List.mem_cons_self
    have tail := ih ⟨fun s hs => filled s (List.mem_cons_of_mem r hs), apart⟩
    unfold covers
    split
    next below =>
      refine iff_of_false (by simp) ?_
      rintro ⟨s, hs, low, _⟩
      rcases List.mem_cons.1 hs with rfl | hs
      · omega
      · have := beyond s hs; omega
    next above =>
      have : r.1 ≤ n := by omega
      simp [tail, this]

end Ranges

end Triad.Text
