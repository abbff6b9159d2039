import Triad.Calculator
import Triad.NumberList
import Triad.Proofs.Meaning.Simulation
import Triad.Proofs.Text.Span

/-!
# Text in front

A parser of text sees what has not been consumed and nothing else.  With other
text in front of the input it answers and traces the same, and only the
position that it leaves is shifted (`sees_only_the_rest`).

`Cursor.behind` puts text in front of a cursor.  The matchers of text commute
with it, and what a whole grammar does follows by simulation.
-/

namespace Triad

variable {N : Payloads → Type → Type} {P : Payloads} {α ι : Type}

/-! ## Places behind a front -/

/-- The width of a text is its length in UTF-8. -/
theorem Width.total_toList (s : String) : Width.total s.toList = s.utf8ByteSize := by
  conv_rhs => rw [← String.ofList_toList (s := s)]
  induction s.toList with
  | nil => rfl
  | cons x xs ih =>
    rw [total_cons, ih, ← List.singleton_append, String.ofList_append, String.utf8ByteSize_append]
    simp [width]

namespace Cursor

/-- The same place when `front` stands before the input. -/
def behind (front : List Char) (c : TextCursor) : TextCursor :=
  ⟨Width.total front + c.position, c.rest, front ++ c.input⟩

end Cursor

namespace Calculator

variable {moves : (TextCursor → TextCursor) → Prop}

theorem ofText_symbol (x : Char) : (symbol x).OfText moves :=
  Grammar.ofText_lexeme (Grammar.ofText_char x)

theorem ofText_operators (ops : List Char) : (Grammar.firstOf (ops.map symbol)).OfText moves :=
  Grammar.madeOf_firstOf.2 (List.forall_mem_map.2 fun x _ => ofText_symbol x)

theorem ofText_chain (ops : List Char) {operand : Part Int} (hoperand : operand.OfText moves) :
    (chain ops operand).OfText moves :=
  ⟨trivial, trivial, hoperand, trivial, trivial, ofText_operators ops, hoperand⟩

theorem ofText_sum : sum.OfText moves := ⟨trivial, trivial, trivial⟩

theorem ofText_factor : factor.OfText moves := by
  refine ⟨trivial, Grammar.madeOf_firstOf.2 fun p hp => ?_⟩
  rcases List.mem_pair.1 hp with rfl | rfl
  · exact Grammar.ofText_lexeme Grammar.ofText_integer
  · exact ⟨trivial, trivial, ⟨trivial, ofText_symbol '(', ofText_sum⟩, ofText_symbol ')'⟩

theorem ofText_term : term.OfText moves := ⟨trivial, ofText_chain _ ofText_factor⟩

theorem ofText_rules : rules.OfText moves := fun
  | .sum => ⟨trivial, ofText_chain _ ofText_term⟩

end Calculator

end Triad
