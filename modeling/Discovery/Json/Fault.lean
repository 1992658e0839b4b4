/-!
# Faults in JSON text

A reader goes from left to right and stops at the first problem. The type of a value is judged as
soon as the value begins, so a value of the wrong type hides what is wrong after it.
-/

namespace Discovery.Json

/-- The kinds of problem that end the reading of a text. -/
inductive Fault where
  /-- The text ends too early. -/
  | ended
  /-- A value is well-formed so far and is not what is wanted: its type, its range, or a key that
  was there before. -/
  | mistyped
  /-- Anything else. -/
  | malformed
  deriving DecidableEq, Repr

end Discovery.Json
