/-!
# Payloads

A parse that does not succeed carries a payload: one type for failures, one for errors.
Combinators sometimes have to report a miss that no caller described.  They then invent one of two
payloads: the failure *no match*, or the error *incomplete* when input had been consumed already.
They invent nothing else, so `Payloads` holds all that they need to know about the two types.
-/

namespace Triad

/-- The two payloads that a type has to provide when nothing better is known. -/
class Payload (φ : Type) where
  noMatch : φ
  incomplete : φ

instance : Payload Bool := ⟨true, true⟩

instance : Payload Unit := ⟨(), ()⟩

/-- The payload types of a parser, with the failure and the error its combinators may invent. -/
structure Payloads where
  Failure : Type
  Error : Type
  noMatch : Failure
  incomplete : Error

/-- Failures carry a `φ` and errors an `ε`. -/
abbrev Payloads.of (φ ε : Type) [Payload φ] [Payload ε] : Payloads where
  Failure := φ
  Error := ε
  noMatch := Payload.noMatch
  incomplete := Payload.incomplete

end Triad
