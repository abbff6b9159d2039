import Triad.Grammar.Denotation
import Triad.Proofs.Repetition.Reference

/-!
# Repetitions with a range of counts

A repetition may be given the counts it admits as a range.  The ends of the
range are lowered to a least and a greatest count, with two ends that have no
such count: nothing is less than zero, and nothing exceeds the largest count.
The arithmetic saturates there, so that an end which excludes every count
comes to admit the one that it names.

A repetition stays in its range but for these two ends
(`Parser.repeated_stays_in_range`).  With a lower end of zero and the upper end
`excluded 0` it succeeds without a value, whatever the part does.
-/

namespace Triad

namespace Bound

variable {low high : Bound} {n : Nat}

/-- The end is given by a count that there is. -/
def Fits : Bound → Prop
  | included n => n ≤ limit
  | excluded n => n ≤ limit
  | unbounded => True

/-- The count is admitted by a lower end. -/
def AdmitsFrom : Bound → Nat → Prop
  | included m, n => m ≤ n
  | excluded m, n => m < n
  | unbounded, _ => True

/-- The count is admitted by an upper end. -/
def AdmitsTo : Bound → Nat → Prop
  | included m, n => n ≤ m
  | excluded m, n => n < m
  | unbounded, _ => True

/-- The counts of a range. -/
structure InRange (low high : Bound) (n : Nat) : Prop where
  le_limit : n ≤ limit
  fromLow : low.AdmitsFrom n
  toHigh : high.AdmitsTo n

/-- A lower end that is lowered to a count it admits. -/
def HasLeast (low : Bound) : Prop := low ≠ excluded limit

/-- An upper end that is lowered to a count it admits. -/
def HasGreatest (high : Bound) : Prop := high ≠ excluded 0

theorem least_le_iff (hfits : low.Fits) (hlow : low.HasLeast) :
    low.least ≤ n ↔ low.AdmitsFrom n := by
  cases low with
  | included m => exact Iff.rfl
  | unbounded => exact ⟨fun _ => trivial, fun _ => Nat.zero_le n⟩
  | excluded m =>
    have hless : m < limit := lt_of_le_of_ne hfits fun heq => hlow (congrArg excluded heq)
    have hleast : (excluded m).least = m + 1 := min_eq_left hless
    rw [hleast]
    exact Nat.succ_le_iff

theorem le_greatest_iff (hhigh : high.HasGreatest) (hn : n ≤ limit) :
    n ≤ high.greatest ↔ high.AdmitsTo n := by
  cases high with
  | included m => exact Iff.rfl
  | unbounded => exact ⟨fun _ => trivial, fun _ => hn⟩
  | excluded m =>
    have hpos : m ≠ 0 := fun heq => hhigh (congrArg excluded heq)
    show n ≤ m - 1 ↔ n < m
    omega

theorem greatest_le_limit (hfits : high.Fits) : high.greatest ≤ limit := by
  cases high with
  | included m => exact hfits
  | unbounded => exact Nat.le_refl _
  | excluded m => exact (Nat.sub_le m 1).trans hfits

/-- The counts between those to which the ends of a range are lowered are the
counts of the range. -/
theorem inRange_iff (hlow : low.Fits) (hhigh : high.Fits) (hleast : low.HasLeast)
    (hgreatest : high.HasGreatest) :
    InRange low high n ↔ low.least ≤ n ∧ n ≤ high.greatest := by
  constructor
  · rintro ⟨hn, hfrom, hto⟩
    exact ⟨(least_le_iff hlow hleast).2 hfrom, (le_greatest_iff hgreatest hn).2 hto⟩
  · rintro ⟨hfrom, hto⟩
    have hn := hto.trans (greatest_le_limit hhigh)
    exact ⟨hn, (least_le_iff hlow hleast).1 hfrom, (le_greatest_iff hgreatest hn).1 hto⟩

/-- The counts that the ends of a range are lowered to admit those of the range
and, with an end that has saturated, one more. -/
theorem inRange_or_saturated (hlow : low.Fits) (hhigh : high.Fits) (hfrom : low.least ≤ n)
    (hto : n ≤ high.greatest) :
    InRange low high n ∨ (high = excluded 0 ∧ n = 0) ∨ (low = excluded limit ∧ n = limit) := by
  by_cases hgreatest : high.HasGreatest
  · by_cases hleast : low.HasLeast
    · exact .inl ((inRange_iff hlow hhigh hleast hgreatest).2 ⟨hfrom, hto⟩)
    · obtain rfl := not_not.1 hleast
      have hlimit : limit ≤ n := hfrom
      exact .inr (.inr ⟨rfl, Nat.le_antisymm (hto.trans (greatest_le_limit hhigh)) hlimit⟩)
  · obtain rfl := not_not.1 hgreatest
    exact .inr (.inl ⟨rfl, Nat.le_zero.1 hto⟩)

end Bound

namespace Parser

variable {ι : Type} [DecidableEq ι] {P : Payloads} {α : Type}

/-- As many repetitions as a range of counts admits. -/
def repeated (rounds : Nat) (low high : Bound) (p : Parser ι P α) : Parser ι P (List α) :=
  many rounds low.least high.greatest p

end Parser

theorem Grammar.denote_repeated {ι : Type} {N : Payloads → Type → Type} [DecidableEq ι]
    {P : Payloads} {α : Type} {rounds : Nat}
    {named : ∀ {P : Payloads} {α : Type}, N P α → Path → Parser ι P α} (low high : Bound)
    (p : Grammar ι N P α) (path : Path) :
    (repeated low high p).denote rounds named path =
      Parser.repeated rounds low high (p.denote rounds named (path.child 0)) := rfl

namespace Parser

variable {ι : Type} [DecidableEq ι] {P : Payloads} {α : Type}

/-- A repetition with a range of counts stays in the range.

* If it succeeds, the number of its values is in the range, unless an end of
  the range has saturated: no values for an upper end that excludes zero, and
  the largest count for a lower end that excludes it.
* With other ends, a range without counts never succeeds.
* Below an upper end that excludes zero the part is not called.  The outcome is
  a success without values if the lower end is lowered to zero. -/
theorem repeated_stays_in_range (p : Parser ι P α) (rounds : Nat) (low high : Bound) (c : ι)
    (s : Session ι) (hlow : low.Fits) (hhigh : high.Fits) :
    (∀ values rest t, repeated rounds low high p c s = .ok (.success values rest) t →
      Bound.InRange low high values.length ∨ (high = .excluded 0 ∧ values.length = 0) ∨
        (low = .excluded Bound.limit ∧ values.length = Bound.limit)) ∧
    (low.HasLeast → high.HasGreatest → (∀ n, ¬ Bound.InRange low high n) →
      ∀ values rest t, repeated rounds low high p c s ≠ .ok (.success values rest) t) ∧
    (high = .excluded 0 → ∃ t, repeated rounds low high p c s =
      .ok (if low.least = 0 then .success [] c else .failure P.noMatch) t) := by
  refine ⟨fun values rest t h => ?_, fun hleast hgreatest hempty values rest t h => ?_, ?_⟩
  · obtain ⟨hfrom, hto⟩ := many_within h
    exact Bound.inRange_or_saturated hlow hhigh hfrom hto
  · exact hempty values.length ((Bound.inRange_iff hlow hhigh hleast hgreatest).2 (many_within h))
  · rintro rfl
    exact many_zero rounds low.least p c s

/-- More than one and less than four letters, of four that there are. -/
theorem repeated_stays_in_range_of_letters :
    let letter : Parser TextCursor ParseError.payloads (List Char) := primitive (.word ['a'])
    let s := Session.fresh false
    let input := ['a', 'a', 'a', 'a']
    (∃ t, repeated 3 (.excluded 1) (.excluded 4) letter (Cursor.start input) s =
      .ok (.success [['a'], ['a'], ['a']] ⟨3, ['a'], input⟩) t) ∧
    Bound.InRange (.excluded 1) (.excluded 4) 3 ∧
    ∀ values rest t, repeated 4 (.included 2) (.excluded 2) letter (Cursor.start input) s ≠
      .ok (.success values rest) t := by
  intro letter s input
  have hrun : repeated 3 (.excluded 1) (.excluded 4) letter (Cursor.start input) s =
      .ok (.success [['a'], ['a'], ['a']] ⟨3, ['a'], input⟩) s := rfl
  obtain ⟨hin, -, -⟩ := repeated_stays_in_range letter 3 (.excluded 1) (.excluded 4)
    (Cursor.start input) s (by decide : 1 ≤ Bound.limit) (by decide : 4 ≤ Bound.limit)
  obtain ⟨-, hnever, -⟩ := repeated_stays_in_range letter 4 (.included 2) (.excluded 2)
    (Cursor.start input) s (by decide : 2 ≤ Bound.limit) (by decide : 2 ≤ Bound.limit)
  refine ⟨⟨s, hrun⟩, ?_, hnever (by simp [Bound.HasLeast]) (by simp [Bound.HasGreatest]) ?_⟩
  · rcases hin _ _ _ hrun with h | ⟨h, -⟩ | ⟨h, -⟩
    · exact h
    · cases h
    · exact absurd h (by decide)
  · rintro n ⟨-, hfrom, hto⟩
    exact Nat.not_lt.2 hfrom hto

/-- The range below zero has no counts, and yet a repetition succeeds with it. -/
theorem repeated_succeeds_below_zero :
    let letter : Parser TextCursor ParseError.payloads (List Char) := primitive (.word ['a'])
    (∃ t, repeated 1 .unbounded (.excluded 0) letter (Cursor.start ['b']) (Session.fresh false) =
      .ok (.success [] (Cursor.start ['b'])) t) ∧
    ∀ n, ¬ Bound.InRange .unbounded (.excluded 0) n := by
  refine ⟨⟨Session.fresh false, rfl⟩, ?_⟩
  rintro n ⟨-, -, hto⟩
  exact Nat.not_lt_zero n hto

end Parser

end Triad
