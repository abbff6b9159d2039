import Triad.Parser.Basic

/-!
# Repetition

`many min max` repeats its part until `max` values are collected or the part fails, and then asks
whether there are `min` of them.  A match that leaves the input where it was would be repeated for
ever; it is kept, and ends the repetition.

The bounds of a repetition may also be given by a range of counts, whose ends are included,
excluded or absent.
-/

namespace Triad

/-- One end of a range of counts. -/
inductive Bound where
  | included (n : Nat)
  | excluded (n : Nat)
  | unbounded
deriving DecidableEq, Repr

namespace Bound

/-- The largest count, `2 ^ 64 - 1`. -/
def limit : Nat := 0xffffffffffffffff

/-- The least count that a lower end admits; the successor of the largest count is itself. -/
def least : Bound → Nat
  | included n => n
  | excluded n => min (n + 1) limit
  | unbounded => 0

/-- The greatest count that an upper end admits; the predecessor of zero is zero. -/
def greatest : Bound → Nat
  | included n => n
  | excluded n => n - 1
  | unbounded => limit

end Bound

namespace Parser

variable {ι : Type} {P : Payloads} {α : Type}

/-- Collects values until there are `max` of them, the part fails or a match stalls; `rounds`
bounds the number of calls.  An error of the part drops what was collected. -/
def collect [DecidableEq ι] (max : Nat) (p : Parser ι P α) :
    Nat → Array α → ι → Run ι (Except P.Error (Array α × ι))
  | rounds, values, c =>
    if max ≤ values.size then pure (.ok (values, c))
    else
      match rounds with
      | 0 => throw .unfinished
      | rounds + 1 => do
        match ← p c with
        | .success a rest =>
          if rest = c then pure (.ok (values.push a, rest))
          else collect max p rounds (values.push a) rest
        | .failure _ => pure (.ok (values, c))
        | .error e => pure (.error e)

/-- What a repetition makes of the values it collected. -/
def settle (min : Nat) (values : Array α) (rest : ι) : Outcome P.Failure P.Error ι (List α) :=
  if min ≤ values.size then .success values.toList rest
  else if values.isEmpty then .failure P.noMatch
  else .error P.incomplete

/-- Between `min` and `max` repetitions, in at most `rounds` calls. -/
def many [DecidableEq ι] (rounds min max : Nat) (p : Parser ι P α) : Parser ι P (List α) :=
  fun c => do
    let bounds := "(" ++ toString min ++ ", " ++ toString max ++ ")"
    match ← collect max p rounds #[] c with
    | .ok (values, rest) =>
      let o := settle min values rest
      note "many" bounds [o.kind]
      pure o
    | .error e =>
      note "many" bounds [.error]
      pure (.error e)

end Parser

end Triad
