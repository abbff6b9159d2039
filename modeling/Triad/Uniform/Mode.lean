import Triad.ParseError

/-!
# Families of payloads

A grammar that is read from data chooses its payloads by a mode.  Parse errors, truth values and
the empty payload come with the library; the texts of `provenance` record where a payload was
invented and how it was converted.
-/

namespace Triad.Uniform

inductive Mode where
  | parseError
  | flag
  | empty
  | provenance
deriving DecidableEq, Repr

namespace Mode

/-- The type that failures and errors carry. -/
abbrev Payload : Mode → Type
  | parseError => ParseError
  | flag => Bool
  | empty => Unit
  | provenance => String

/-- The failure that combinators invent. -/
def noMatch : (m : Mode) → m.Payload
  | parseError => Triad.Payload.noMatch
  | flag => Triad.Payload.noMatch
  | empty => Triad.Payload.noMatch
  | provenance => "miss.no_match"

/-- The error that combinators invent. -/
def incomplete : (m : Mode) → m.Payload
  | parseError => Triad.Payload.incomplete
  | flag => Triad.Payload.incomplete
  | empty => Triad.Payload.incomplete
  | provenance => "halted.incomplete"

/-- Failures and errors of one mode. -/
abbrev payloads (m : Mode) : Payloads := ⟨m.Payload, m.Payload, m.noMatch, m.incomplete⟩

/-- The text of a payload. -/
def text : (m : Mode) → m.Payload → String
  | parseError, e => e.message
  | flag, b => toString b
  | empty, () => "()"
  | provenance, s => s

/-- A payload made from a text. -/
def ofText : (m : Mode) → String → m.Payload
  | parseError, s => .fatal s
  | flag, s => s = "true"
  | empty, _ => ()
  | provenance, s => s

/-- What stands for a parse error of a ready-made text parser. -/
def ofParseError : (m : Mode) → ParseError → m.Payload
  | parseError, e => e
  | flag, _ => false
  | empty, _ => ()
  | provenance, e => "base:" ++ e.message

/-- The error made from a failure. -/
def promote : (m : Mode) → m.Payload → m.Payload
  | provenance, s => "promoted(" ++ s ++ ")"
  | parseError, e => e
  | flag, b => b
  | empty, u => u

/-- The failure made from an error. -/
def demote : (m : Mode) → m.Payload → m.Payload
  | provenance, s => "demoted(" ++ s ++ ")"
  | parseError, e => e
  | flag, b => b
  | empty, u => u

/-- A payload that names what it went through. -/
def tag : (m : Mode) → String → m.Payload → m.Payload
  | parseError, t, e => .fatal (t ++ "(" ++ e.message ++ ")")
  | flag, _, b => !b
  | empty, _, u => u
  | provenance, t, s => t ++ "(" ++ s ++ ")"

/-- The payload without its labels. -/
def root : (m : Mode) → m.Payload → m.Payload
  | parseError, e => e.root
  | flag, b => b
  | empty, u => u
  | provenance, s => s

end Mode

end Triad.Uniform
