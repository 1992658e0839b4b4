/-!
# Unsigned numbers in decimal

Numbers that travel in headers and addresses are read from ASCII digits, with any number of
leading zeros, and are refused from a bound on.
-/

namespace Discovery.Text

def digitValue? (c : Char) : Option Nat :=
  if '0' ≤ c ∧ c ≤ '9' then some (c.toNat - '0'.toNat) else none

/-- The number that `digits` denotes after `acc`, unless one of them is no digit. -/
def readDigits (acc : Nat) : List Char → Option Nat
  | [] => some acc
  | c :: cs => (digitValue? c).bind fun d => readDigits (10 * acc + d) cs

/-- The number below `bound` that a non-empty row of digits denotes. -/
def readBelow (bound : Nat) (cs : List Char) : Option Nat :=
  match cs with
  | [] => none
  | _ => (readDigits 0 cs).filter (· < bound)

/-- As `readBelow`, with one leading plus sign allowed. -/
def readSignedBelow (bound : Nat) : List Char → Option Nat
  | '+' :: cs => readBelow bound cs
  | cs => readBelow bound cs

/-- Counters and sizes are below this bound, which is `2 ^ 64`. -/
def wordBound : Nat := 0x10000000000000000

/-- The least number that is rounded to no finite double. -/
def doubleBound : Nat := Nat.pow 2 1024 - Nat.pow 2 970

/-- The digits of a number. -/
def decimal (n : Nat) : String := String.ofList (Nat.toDigits 10 n)

end Discovery.Text
