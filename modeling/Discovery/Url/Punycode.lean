import Discovery.Text.Split

/-!
# Punycode

A label of a domain name with characters outside ASCII is written in letters, digits and hyphens:
first its ASCII characters, then, behind a hyphen, where each of the others goes. These are put in
by code point and, within one code point, from left to right; each is given by a number that counts
the (code point, place) pairs passed over since the one before it. A number is written in base 36
with the lowest digit first, and ends with a digit below a threshold that depends on the place of
the digit and on a bias, which follows the size of the numbers so far.
-/

namespace Discovery.Url.Punycode

/-- The bias before the first number. -/
def firstBias : Nat := 72

/-- The least code point that is not ASCII. -/
def firstCode : Nat := 0x80

/-- A digit below this value is the last one of its number. Places count 36, 72, 108, ... -/
def threshold (place bias : Nat) : Nat := max 1 (min 26 (place - bias))

/-- Divides down to at most 455; counts 36 for each division. -/
def scale (n acc : Nat) : Nat × Nat :=
  if 455 < n then scale (n / 35) (acc + 36) else (n, acc)
termination_by n
decreasing_by exact Nat.div_lt_self (by omega) (by omega)

/-- The bias after a number, when a label has `size` characters so far. The first number, which
tends to be large, weighs less. -/
def bias (number size : Nat) (first : Bool) : Nat :=
  let n := if first then number / 700 else number / 2
  let (n, acc) := scale (n + n / size) 0
  acc + 36 * n / (n + 38)

def digitChar (d : Nat) : Char := Char.ofNat (if d < 26 then 0x61 + d else 0x30 + (d - 26))

/-- The value of a digit, in either case. -/
def digitValue? (c : Char) : Option Nat :=
  if 'a' ≤ c ∧ c ≤ 'z' then some (c.toNat - 0x61)
  else if 'A' ≤ c ∧ c ≤ 'Z' then some (c.toNat - 0x41)
  else if '0' ≤ c ∧ c ≤ '9' then some (c.toNat - 0x30 + 26)
  else none

theorem threshold_pos (place bias : Nat) : 1 ≤ threshold place bias := Nat.le_max_left ..

/-- The digits of a number from a place on. -/
def number (bias place n : Nat) : List Char :=
  let t := threshold place bias
  if n < t then [digitChar n]
  else digitChar (t + (n - t) % (36 - t)) :: number bias (place + 36) ((n - t) / (36 - t))
termination_by n
decreasing_by
  have := threshold_pos place bias
  have := Nat.div_le_self (n - threshold place bias) (36 - threshold place bias)
  omega

/-! ## Writing -/

/-- How far a writer has come. -/
structure Writer where
  out : List Char
  /-- Pairs passed over since the last number. -/
  passed : Nat := 0
  bias : Nat := firstBias
  /-- How many characters have been written for. -/
  size : Nat
  /-- Whether no number has been written. -/
  first : Bool := true

/-- Passes a character of the label while the code point `code` is put in. -/
def Writer.pass (code : Nat) (w : Writer) (c : Char) : Writer :=
  if c.toNat < code then { w with passed := w.passed + 1 }
  else if c.toNat = code then
    { out := w.out ++ number w.bias 36 w.passed
      bias := Punycode.bias w.passed (w.size + 1) w.first
      size := w.size + 1, first := false, passed := 0 }
  else w

/-- Puts in code points in increasing order, of which those below `low` have been put in. -/
def Writer.putIn (label : List Char) (low : Nat) : List Nat → Writer → List Char
  | [], w => w.out
  | code :: codes, w =>
    let w := { w with passed := w.passed + (code - low) * (w.size + 1) }
    let w := label.foldl (pass code) w
    putIn label (code + 1) codes { w with passed := w.passed + 1 }

def encode (label : List Char) : List Char :=
  let basic := label.filter fun c => c.toNat < firstCode
  let codes := ((label.map Char.toNat).filter (firstCode ≤ ·)).mergeSort.eraseDups
  let out := if basic = [] then [] else basic ++ ['-']
  Writer.putIn label firstCode codes { out, size := basic.length }

/-! ## Reading -/

/-- How far a reader has come. -/
structure Reader where
  out : List Char
  /-- The code point of the pair reached. -/
  code : Nat := firstCode
  /-- The place of the pair reached. -/
  index : Nat := 0
  /-- The number being read, of which the digits so far are summed up. -/
  sum : Nat := 0
  /-- The weight of the next digit. -/
  weight : Nat := 1
  /-- The place of the next digit. -/
  place : Nat := 36
  bias : Nat := firstBias
  /-- Whether no number has been read. -/
  first : Bool := true

/-- Reads one digit. The last one of a number puts a character in. -/
def Reader.digit (r : Reader) (c : Char) : Option Reader := do
  let d ← digitValue? c
  let t := threshold r.place r.bias
  let sum := r.sum + d * r.weight
  if d < t then
    let size := r.out.length + 1
    let code := r.code + (r.index + sum) / size
    let index := (r.index + sum) % size
    if h : code.isValidChar then
      some {
        out := r.out.take index ++ Char.ofNatAux code h :: r.out.drop index
        code, index := index + 1, bias := Punycode.bias sum size r.first, first := false }
    else none
  else some { r with sum, weight := r.weight * (36 - t), place := r.place + 36 }

/-- Reads the numbers of a label after its ASCII characters. -/
def Reader.digits (r : Reader) : List Char → Option (List Char)
  | [] => if r.place = 36 then some r.out else none
  | c :: cs => (r.digit c).bind fun r => r.digits cs

/-- The label that a writing stands for. -/
def decode (cs : List Char) : Option (List Char) :=
  match Text.cutLast '-' cs with
  | none => { out := [] : Reader }.digits cs
  | some ([], _) => none
  | some (basic, rest) => { out := basic : Reader }.digits rest

end Discovery.Url.Punycode
