/-!
# Writing JSON

A text is escaped only where it must be. An array or object is laid out from the writings of its
parts, either on one line or with each part on a line of its own, two spaces deeper than the
brackets.
-/

namespace Discovery.Json

/-- The writing of one character inside a string. -/
def escapeChar (c : Char) : List Char :=
  if c = '"' || c = '\\' then ['\\', c]
  else if c = '\x08' then ['\\', 'b']
  else if c = '\t' then ['\\', 't']
  else if c = '\n' then ['\\', 'n']
  else if c = '\x0c' then ['\\', 'f']
  else if c = '\r' then ['\\', 'r']
  else if c.toNat < 0x20 then
    ['\\', 'u', '0', '0', Nat.digitChar (c.toNat / 16), Nat.digitChar (c.toNat % 16)]
  else [c]

def string (s : String) : List Char := '"' :: (s.toList.flatMap escapeChar ++ ['"'])

/-- A natural number. -/
def number (n : Nat) : List Char := Nat.toDigits 10 n

/-- Ways to lay out an array or object. -/
inductive Layout where
  /-- No space between parts. -/
  | compact
  /-- A line for each part. -/
  | indented
  deriving DecidableEq, Repr

namespace Layout

/-- What stands before a part, or before the closing bracket, at a depth. -/
def gap : Layout → Nat → List Char
  | .compact, _ => []
  | .indented, depth => '\n' :: List.replicate (2 * depth) ' '

/-- What stands between a key and its value. -/
def colon : Layout → List Char
  | .compact => [':']
  | .indented => [':', ' ']

/-- The parts behind an opening bracket, each with its gap, and commas between them. -/
def parts (l : Layout) (depth : Nat) : List (List Char) → List Char
  | [] => []
  | [p] => l.gap (depth + 1) ++ p
  | p :: ps => l.gap (depth + 1) ++ p ++ ',' :: l.parts depth ps

/-- Parts between brackets that stand at a depth. -/
def bracketed (l : Layout) (depth : Nat) (opening closing : Char) (ps : List (List Char)) :
    List Char :=
  match ps with
  | [] => [opening, closing]
  | _ => opening :: (l.parts depth ps ++ l.gap depth ++ [closing])

/-- An array of the writings of its elements. -/
def array (l : Layout) (depth : Nat) (elements : List (List Char)) : List Char :=
  l.bracketed depth '[' ']' elements

/-- An object of keys and the writings of their values. -/
def object (l : Layout) (depth : Nat) (members : List (String × List Char)) : List Char :=
  l.bracketed depth '\x7b' '\x7d' (members.map fun m => string m.1 ++ l.colon ++ m.2)

end Layout

end Discovery.Json
