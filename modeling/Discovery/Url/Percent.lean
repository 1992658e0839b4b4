import Discovery.Text.Utf8

/-!
# Percent-encoding

A byte that must not stand in a part of a URL is written as a percent sign and two hexadecimal
digits. Which ASCII characters may stand depends on the part; other bytes never do.
-/

namespace Discovery.Url

/-- A hexadecimal digit in upper case. -/
def hexDigit (n : Nat) : Char := Char.ofNat (if n < 10 then 0x30 + n else 0x37 + n)

/-- The value of a hexadecimal digit. -/
def hexValue? (c : Char) : Option Nat :=
  if '0' ≤ c ∧ c ≤ '9' then some (c.toNat - 0x30)
  else if 'a' ≤ c ∧ c ≤ 'f' then some (c.toNat - 0x57)
  else if 'A' ≤ c ∧ c ≤ 'F' then some (c.toNat - 0x37)
  else none

/-- The writing of one byte by its digits. -/
def encodeByte (b : UInt8) : List Char := ['%', hexDigit (b.toNat / 16), hexDigit (b.toNat % 16)]

/-- Bytes, of which those that `keep` holds for are written as they are. -/
def percentEncode (keep : Char → Bool) (bs : List UInt8) : List Char :=
  bs.flatMap fun b =>
    let c := Char.ofNat b.toNat
    if b < 0x80 && keep c then [c] else encodeByte b

/-- The bytes that a writing stands for. A percent sign without two digits stands for itself. -/
def percentDecode : List Char → List UInt8
  | '%' :: a :: b :: rest =>
    match hexValue? a, hexValue? b with
    | some m, some n => UInt8.ofNat (16 * m + n) :: percentDecode rest
    | _, _ => 0x25 :: percentDecode (a :: b :: rest)
  | c :: rest => String.utf8EncodeChar c ++ percentDecode rest
  | [] => []

/-! ## What may stand -/

/-- Whether an ASCII character is no control. -/
def isVisible (c : Char) : Bool := 0x20 ≤ c.toNat && c.toNat < 0x7F

/-- In a path without segments and in a host of a scheme that is not special. -/
def keepsPlain (c : Char) : Bool := isVisible c

def keepsFragment (c : Char) : Bool := isVisible c && !(" \"<>`".toList.contains c)

def keepsPath (c : Char) : Bool := keepsFragment c && !("#?\x7b\x7d".toList.contains c)

/-- In one segment of a path that must not be split by it. -/
def keepsSegment (special : Bool) (c : Char) : Bool :=
  keepsPath c && !("/%".toList.contains c) && !(special && c == '\\')

/-- In a user name or a password. -/
def keepsUserinfo (c : Char) : Bool := keepsPath c && !("/:;=@[\\]^|".toList.contains c)

def keepsQuery (special : Bool) (c : Char) : Bool :=
  isVisible c && !(" \"#<>".toList.contains c) && !(special && c == '\'')

end Discovery.Url
