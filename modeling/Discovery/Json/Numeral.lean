import Discovery.Json.Token
import Discovery.Text.Decimal

/-!
# Numbers in JSON

A number is read to its digits. Only one question is asked of its value: which natural number it
is, if it is written without fraction and exponent. Besides, a number whose magnitude exceeds the
doubles is refused. Its magnitude is taken as the product of two doubles: the leading digits, as
many as fit a word of 64 bits, and a power of ten.
-/

namespace Discovery.Json

/-- A number as it is written. -/
structure Numeral where
  negative : Bool
  /-- The digits before the point. -/
  whole : List Nat
  /-- The digits after the point, if there is one. -/
  fraction : Option (List Nat)
  exponent : Option Int
  deriving DecidableEq, Repr

def digit? (b : UInt8) : Option Nat :=
  if 0x30 ≤ b ∧ b ≤ 0x39 then some (b.toNat - 0x30) else none

/-- The digits at the beginning, and the bytes behind them. -/
def digits : List UInt8 → List Nat × List UInt8
  | [] => ([], [])
  | b :: rest =>
    match digit? b with
    | some d => (d :: (digits rest).1, (digits rest).2)
    | none => ([], b :: rest)

theorem length_digits (s : List UInt8) :
    (digits s).1.length + (digits s).2.length = s.length := by
  induction s with
  | nil => rfl
  | cons b rest ih => simp only [digits]; split <;> simp_all; omega

/-- One or more digits, which must be there. -/
def someDigits (s : List UInt8) : Except Fault (List Nat × List UInt8) :=
  if (digits s).1 = [] then .error (if s = [] then .ended else .malformed) else .ok (digits s)

theorem someDigits_length {s r : List UInt8} {ds : List Nat} (h : someDigits s = .ok (ds, r)) :
    r.length < s.length := by
  have hl := length_digits s
  unfold someDigits at h
  split at h
  · cases h
  · next hn =>
    simp only [Except.ok.injEq] at h
    rw [h] at hl hn
    have := List.length_pos_iff.2 hn
    simp only at hl this
    omega

/-- The digits before the point: a zero alone, or digits that begin with another. -/
def wholePart (s : List UInt8) : Except Fault (List Nat × List UInt8) :=
  match someDigits s with
  | .ok (0 :: _ :: _, _) => .error .malformed
  | r => r

theorem wholePart_length {s r : List UInt8} {ds : List Nat} (h : wholePart s = .ok (ds, r)) :
    r.length < s.length := by
  unfold wholePart at h
  split at h
  · cases h
  · exact someDigits_length h

/-- The digits behind a point, if there is one. -/
def fractionPart : List UInt8 → Except Fault (Option (List Nat) × List UInt8)
  | b :: rest =>
    if b = point then (someDigits rest).map fun p => (some p.1, p.2) else .ok (none, b :: rest)
  | [] => .ok (none, [])

theorem fractionPart_length {s r : List UInt8} {f : Option (List Nat)}
    (h : fractionPart s = .ok (f, r)) : r.length ≤ s.length := by
  cases s with
  | nil => cases h; exact Nat.le_refl _
  | cons b rest =>
    simp only [fractionPart] at h
    split at h
    · cases hd : someDigits rest with
      | error => rw [hd] at h; cases h
      | ok p =>
        rw [hd] at h; cases h
        have := someDigits_length hd
        simp only [List.length_cons]; omega
    · cases h; exact Nat.le_refl _

/-- The number that digits denote. -/
def ofDigits (ds : List Nat) : Nat := ds.foldl (fun n d => 10 * n + d) 0

/-- The sign of an exponent: whether it is negative. -/
def exponentSign : List UInt8 → Bool × List UInt8
  | b :: rest => if b = minus then (true, rest) else if b = 0x2B then (false, rest) else (false, b :: rest)
  | [] => (false, [])

theorem exponentSign_length (s : List UInt8) : (exponentSign s).2.length ≤ s.length := by
  cases s with
  | nil => exact Nat.le_refl _
  | cons b rest =>
    simp only [exponentSign]
    split
    · simp
    · split <;> simp

/-- The exponent behind its letter, if there is one. -/
def exponentPart : List UInt8 → Except Fault (Option Int × List UInt8)
  | b :: rest =>
    if b = 0x65 || b = 0x45 then
      (someDigits (exponentSign rest).2).map fun p =>
        (some (if (exponentSign rest).1 then -(ofDigits p.1 : Int) else ofDigits p.1), p.2)
    else .ok (none, b :: rest)
  | [] => .ok (none, [])

theorem exponentPart_length {s r : List UInt8} {e : Option Int}
    (h : exponentPart s = .ok (e, r)) : r.length ≤ s.length := by
  cases s with
  | nil => cases h; exact Nat.le_refl _
  | cons b rest =>
    simp only [exponentPart] at h
    split at h
    · cases hd : someDigits (exponentSign rest).2 with
      | error => rw [hd] at h; cases h
      | ok p =>
        rw [hd] at h; cases h
        have := someDigits_length hd
        have := exponentSign_length rest
        simp only [List.length_cons]; omega
    · cases h; exact Nat.le_refl _

/-- Reads a number behind its sign. -/
def numeral (negative : Bool) (s : List UInt8) : Except Fault (Numeral × List UInt8) :=
  match wholePart s with
  | .error f => .error f
  | .ok (whole, s) =>
    match fractionPart s with
    | .error f => .error f
    | .ok (fraction, s) =>
      match exponentPart s with
      | .error f => .error f
      | .ok (exponent, s) => .ok ({ negative, whole, fraction, exponent }, s)

theorem numeral_length {negative : Bool} {s r : List UInt8} {n : Numeral}
    (h : numeral negative s = .ok (n, r)) : r.length < s.length := by
  unfold numeral at h
  split at h
  · cases h
  · next hw =>
    split at h
    · cases h
    · next hf =>
      split at h
      · cases h
      · next he =>
        cases h
        have := wholePart_length hw
        have := fractionPart_length hf
        have := exponentPart_length he
        omega

/-- The natural number that is written plainly and fits a word. -/
def Numeral.natural? (n : Numeral) : Option Nat :=
  if n.negative || n.fraction.isSome || n.exponent.isSome then none
  else (some (ofDigits n.whole)).filter (· < Text.wordBound)

/-- Appends digits to a number as long as it fits a word; also gives how many were appended. -/
def absorb (n : Nat) : List Nat → Nat × Nat
  | [] => (n, 0)
  | d :: ds =>
    if 10 * n + d < Text.wordBound then
      let p := absorb (10 * n + d) ds
      (p.1, p.2 + 1)
    else (n, 0)

/-- The double nearest to a natural number, a tie going to the even one, for numbers that do not
exceed the doubles. -/
def nearestDouble (n : Nat) : Nat :=
  let unit := Nat.pow 2 (n.log2 - 52)
  let floor := n / unit
  let rest := n % unit
  if 2 * rest > unit || (2 * rest == unit && floor % 2 == 1) then (floor + 1) * unit
  else floor * unit

/-- Whether the magnitude exceeds the doubles. -/
def Numeral.tooLarge (n : Numeral) : Bool :=
  let (lead, kept) := absorb 0 n.whole
  let dropped := n.whole.length - kept
  let (lead, places) := absorb lead (n.fraction.getD [])
  let exponent : Int := dropped - places + n.exponent.getD 0
  if lead = 0 || exponent ≤ 0 then false
  else if exponent > 308 then true
  else nearestDouble lead * nearestDouble (Nat.pow 10 exponent.toNat) ≥ Text.doubleBound

/-- Reads a number behind its sign, within the doubles. -/
def boundedNumeral (negative : Bool) (s : List UInt8) : Except Fault (Numeral × List UInt8) :=
  match numeral negative s with
  | .error f => .error f
  | .ok (n, r) => if n.tooLarge then .error .malformed else .ok (n, r)

theorem boundedNumeral_length {negative : Bool} {s r : List UInt8} {n : Numeral}
    (h : boundedNumeral negative s = .ok (n, r)) : r.length < s.length := by
  unfold boundedNumeral at h
  split at h
  · cases h
  · next hn =>
    split at h
    · cases h
    · cases h; exact numeral_length hn

/-- Skips a number behind its sign; one that breaks off is malformed. -/
def skipNumber (s : List UInt8) : Except Fault (List UInt8) :=
  match numeral false s with
  | .error _ => .error .malformed
  | .ok (_, r) => .ok r

theorem skipNumber_length {s r : List UInt8} (h : skipNumber s = .ok r) : r.length < s.length := by
  unfold skipNumber at h
  split at h
  · cases h
  · next hn => cases h; exact numeral_length hn

end Discovery.Json
