import Discovery.Tables
import Discovery.Text.Unprintable
import Discovery.Url.Domain
import Discovery.Url.Punycode

/-!
# An excerpt from the tables

The tables that the program runs with. They say less than the whole ones would (`asciiName?`,
`decoder?`).
-/

namespace Discovery

namespace Excerpt

/-! ## Domain names -/

/-- Letters whose lower case lies a fixed distance ahead, as closed ranges with the distance. -/
def shiftedLetters : List (Nat × Nat × Nat) := [
  (0x41, 0x5A, 0x20), (0xC0, 0xD6, 0x20), (0xD8, 0xDE, 0x20), (0x388, 0x38A, 0x25),
  (0x391, 0x3A1, 0x20), (0x3A3, 0x3AB, 0x20), (0x400, 0x40F, 0x50), (0x410, 0x42F, 0x20),
  (0x531, 0x556, 0x30)]

/-- Ranges of letters in which an upper-case letter stands right before its lower case. -/
def pairedLetters : List (Nat × Nat) := [
  (0x100, 0x12F), (0x132, 0x137), (0x139, 0x148), (0x14A, 0x177), (0x179, 0x17E), (0x370, 0x373),
  (0x460, 0x481), (0x48A, 0x4BF), (0x4C1, 0x4CE), (0x4D0, 0x52F), (0x1E00, 0x1E95),
  (0x1EA0, 0x1EFF)]

/-- Code points that are dropped from a name. -/
def droppedCodes : List (Nat × Nat) := [
  (0xAD, 0xAD), (0x34F, 0x34F), (0x180B, 0x180D), (0x180F, 0x180F), (0x200B, 0x200B),
  (0x2060, 0x2060), (0x2064, 0x2064), (0xFE00, 0xFE0F), (0xFEFF, 0xFEFF)]

/-- Code points that separate labels as a point does. -/
def pointCodes : List Nat := [0x3002, 0xFF0E, 0xFF61]

/-- The lower case of a code point. -/
def lowerCode (n : Nat) : Nat :=
  match shiftedLetters.find? fun r => r.1 ≤ n && n ≤ r.2.1 with
  | some (_, _, distance) => n + distance
  | none =>
    match pairedLetters.find? fun r => r.1 ≤ n && n ≤ r.2 with
    | some (low, _) => if (n - low) % 2 = 0 then n + 1 else n
    | none => n

/-- A character of a name in its normal form, if it has one. Wide forms of ASCII characters become
those. -/
def normalChar (c : Char) : Option Char :=
  let n := c.toNat
  if droppedCodes.any fun r => r.1 ≤ n && n ≤ r.2 then none
  else if pointCodes.contains n then some '.'
  else if 0xFF01 ≤ n && n ≤ 0xFF5E then some (Char.ofNat (lowerCode (n - 0xFEE0)))
  else some (Char.ofNat (lowerCode n))

/-- Whether a character may be part of a domain name. -/
def isNamePart (c : Char) : Bool :=
  if c.toNat < 0x80 then Url.isDomainChar c else !Text.isUnprintable c

/-- A label in ASCII. One that is written in Punycode has to stand for a label in normal form with
a character outside ASCII. -/
def asciiLabel (label : List Char) : Option (List Char) :=
  if Url.isAscii label then
    match Url.encodedPart? label with
    | none => some label
    | some cs => do
      let decoded ← Url.Punycode.decode cs
      if !Url.isAscii decoded && decoded.all isNamePart &&
          decoded.filterMap normalChar == decoded && !decoded.contains '.' then some label
      else none
  else some ("xn--".toList ++ Url.Punycode.encode label)

/-- The form of a domain name in ASCII, as far as it needs few tables. Lower case is given for the
alphabets in which it is regular: Latin, Greek, Cyrillic and Armenian. UTS #46 has more to say:

- Letters of other alphabets that have a lower case, ligatures, and characters that are variants of
  others stay as they are here, and become those letters there.
- Marks that belong to the letter before them are refused here, and put together with it there.
- Letters that may not stand next to each other, or not in a label of their direction, are taken
  here, and refused there. -/
def asciiName? (cs : List Char) : Option (List Char) := do
  let cs := cs.filterMap normalChar
  if !cs.all isNamePart then none
  let labels ← (Text.pieces '.' cs).mapM asciiLabel
  return ['.'].intercalate labels

/-! ## Encodings -/

/-- The labels of the encoding of Western Europe, which is that of ASCII and of ISO 8859-1 too. -/
def westernLabels : List String := [
  "ansi_x3.4-1968", "ascii", "cp1252", "cp819", "csisolatin1", "ibm819", "iso-8859-1",
  "iso-ir-100", "iso8859-1", "iso88591", "iso_8859-1", "iso_8859-1:1987", "l1", "latin1",
  "us-ascii", "windows-1252", "x-cp1252"]

/-- The characters of the bytes from `0x80` to `0x9F`. -/
def westernSigns : List Char :=
  "€\u0081‚ƒ„…†‡ˆ‰Š‹Œ\u008DŽ\u008F\u0090‘’“”•–—˜™š›œ\u009DžŸ".toList

def westernChar (b : UInt8) : Char :=
  if 0x80 ≤ b && b < 0xA0 then westernSigns.getD (b.toNat - 0x80) (Char.ofNat b.toNat)
  else Char.ofNat b.toNat

/-- Texts of Western Europe are read in their own encoding, those of other places as UTF-8. -/
def decoder? (label : String) : Option (List UInt8 → String) :=
  if westernLabels.contains label then some fun bs => String.ofList (bs.map westernChar) else none

end Excerpt

instance : Tables where
  asciiName? := Excerpt.asciiName?
  decoder? := Excerpt.decoder?

end Discovery
