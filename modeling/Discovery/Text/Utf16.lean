import Discovery.Text.Utf8

/-!
# UTF-16

Two bytes make a unit. A unit is a character, or the first or second half of one past `0xFFFF`; a
half without the other half is none.
-/

namespace Discovery.Text

/-- Whether a unit begins a character of two units. -/
def isHighUnit (u : Nat) : Bool := 0xD800 ≤ u && u < 0xDC00

/-- Whether a unit ends a character of two units. -/
def isLowUnit (u : Nat) : Bool := 0xDC00 ≤ u && u < 0xE000

/-- Lenient reading behind the first half of a character, or between characters. There is one
replacement character for each half without the other, and for what is left over at the end. `unit`
puts two bytes together. -/
def readUtf16Lossy (unit : UInt8 → UInt8 → Nat) : Option Nat → List UInt8 → List Char
  | none, [] => []
  | some _, [] | _, [_] => [replacement]
  | half, a :: b :: bs =>
    let u := unit a b
    match half.filter fun _ => isLowUnit u with
    | some h =>
      Char.ofNat (0x10000 + (h - 0xD800) * 0x400 + (u - 0xDC00)) :: readUtf16Lossy unit none bs
    | none =>
      let lost := if half.isSome then [replacement] else []
      lost ++
        if isHighUnit u then readUtf16Lossy unit (some u) bs
        else (if isLowUnit u then replacement else Char.ofNat u) :: readUtf16Lossy unit none bs

/-- Any bytes as text. -/
def ofUtf16Lossy (unit : UInt8 → UInt8 → Nat) (bs : List UInt8) : String :=
  String.ofList (readUtf16Lossy unit none bs)

/-- Units whose first byte is the low one. -/
def littleEndian (a b : UInt8) : Nat := b.toNat * 0x100 + a.toNat

/-- Units whose first byte is the high one. -/
def bigEndian (a b : UInt8) : Nat := a.toNat * 0x100 + b.toNat

end Discovery.Text
