import Triad.Calculator

/-!
# The calculator's command line

Evaluates its arguments, put together with blanks between them.
-/

namespace Triad.Main

/-- More than any text on a command line can need. -/
def limits : Limits := ⟨0x4000000000000000, 0x4000000000000000⟩

end Triad.Main

/-- Prints the value, or tells the error and exits with status 1. -/
def main (arguments : List String) : IO UInt32 := do
  let run := Triad.Calculator.evaluate Triad.Main.limits (" ".intercalate arguments)
  match run.result (Triad.Session.fresh false) with
  | .ok (.ok n) =>
    IO.println (toString n)
    return 0
  | .ok (.error e) =>
    IO.eprintln ("error: " ++ e.message)
    return 1
  | .error (.aborted message) =>
    IO.eprintln message
    return 1
  | .error .unfinished =>
    IO.eprintln "unfinished"
    return 1
