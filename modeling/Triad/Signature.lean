import Triad.Cursor
import Triad.Grammar.Basic

/-!
# Signatures

The one-line description of a parser: what it reads and what it gives, by the names of the types.
-/

namespace Triad

/-- The full name of a type. -/
class Named (α : Type) where
  name : String

namespace Named

instance : Named TextCursor := ⟨"paarse::cursor::Cursor"⟩

instance : Named Char := ⟨"char"⟩

instance : Named String := ⟨"alloc::string::String"⟩

instance : Named Unit := ⟨"()"⟩

instance : Named Int := ⟨"i64"⟩

instance {α : Type} [Named α] : Named (List α) := ⟨"alloc::vec::Vec<" ++ name α ++ ">"⟩

instance {α β : Type} [Named α] [Named β] : Named (α × β) :=
  ⟨"(" ++ name α ++ ", " ++ name β ++ ")"⟩

end Named

/-- What a parser reads and what it gives. -/
def Grammar.signature {ι : Type} {N : Payloads → Type → Type} {P : Payloads} {α : Type} [Named ι]
    [Named α] (_ : Grammar ι N P α) : String :=
  "Parser(" ++ Named.name ι ++ ") -> " ++ Named.name α

end Triad
