import Discovery.Text.Utf8

/-!
# The order of texts

Texts are ordered by their bytes, as lists of numbers are: at the first byte that differs, and a
text comes before those that it begins.
-/

namespace Discovery.Text

/-- Whether `a` comes before `b` or is the same text. -/
def atMost (a b : String) : Bool := decide (utf8 a ≤ utf8 b)

end Discovery.Text
