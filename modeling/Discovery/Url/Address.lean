import Discovery.Text.Decimal
import Discovery.Text.Split
import Discovery.Url.Error
import Discovery.Url.Percent

/-!
# IP addresses in URLs

An IPv4 address may be written with one to four numbers, in octal or hexadecimal too, the last of
which fills the remaining bytes. An IPv6 address has eight pieces of 16 bits, of which one row of
zeros may be left out and the last two may be written as an IPv4 address. Both have one normal form.
-/

namespace Discovery.Url

/-- The number that digits in a base denote, unless one is none. -/
def readBase (base : Nat) (cs : List Char) : Option Nat :=
  cs.foldlM (fun n c => ((hexValue? c).filter (· < base)).map fun d => base * n + d) 0

/-- A number of an IPv4 address: hexadecimal behind `0x`, octal behind another zero. -/
def ipv4Number? : List Char → Option Nat
  | [] => none
  | '0' :: 'x' :: cs | '0' :: 'X' :: cs => readBase 16 cs
  | '0' :: c :: cs => readBase 8 (c :: cs)
  | cs => readBase 10 cs

/-- The parts of a host between dots, without an empty one at the end. -/
def dottedParts (host : List Char) : List (List Char) :=
  let parts := Text.pieces '.' host
  if parts.length > 1 && parts.getLast? == some [] then parts.dropLast else parts

/-- Whether a host can only be meant as an IPv4 address: its last part is a number. -/
def endsInNumber (host : List Char) : Bool :=
  match (dottedParts host).getLast? with
  | none | some [] => false
  | some last => last.all Char.isDigit || (ipv4Number? last).isSome

/-- Joins the numbers of an IPv4 address; `bytes` are left for the last one. -/
def joinNumbers (bytes : Nat) : List Nat → Option Nat
  | [] => none
  | [n] => if n < Nat.pow 256 bytes then some n else none
  | n :: ns =>
    if n < 256 && 1 < bytes then (joinNumbers (bytes - 1) ns).map fun m => n * Nat.pow 256 (bytes - 1) + m
    else none

def readIpv4 (host : List Char) : Option Nat := do
  let numbers ← (dottedParts host).mapM ipv4Number?
  joinNumbers 4 numbers

def ipv4Text (n : Nat) : String :=
  ".".intercalate ([n / 0x1000000, n / 0x10000 % 256, n / 0x100 % 256, n % 256].map Text.decimal)

/-! ## IPv6 -/

def ipv6Piece (cs : List Char) : Option Nat :=
  if cs.isEmpty || 4 < cs.length then none else readBase 16 cs

/-- A byte of an IPv4 address inside an IPv6 address: no leading zeros. -/
def plainByte (cs : List Char) : Option Nat :=
  if !cs.all Char.isDigit || (1 < cs.length && cs.head? == some '0') then none
  else Text.readBelow 256 cs

/-- The last part of an IPv6 address, which may be an IPv4 address and then counts for two. -/
def ipv6Tail (cs : List Char) : Option (List Nat) :=
  if cs.contains '.' then do
    let bytes ← (Text.pieces '.' cs).mapM plainByte
    match bytes with
    | [a, b, c, d] => some [a * 256 + b, c * 256 + d]
    | _ => none
  else (ipv6Piece cs).map fun n => [n]

/-- Pieces between colons; `final` says whether an IPv4 address may stand at the end. -/
def ipv6Pieces (final : Bool) (cs : List Char) : Option (List Nat) :=
  if cs = [] then some []
  else
    let parts := Text.pieces ':' cs
    if final then do
      let front ← parts.dropLast.mapM ipv6Piece
      let tail ← ipv6Tail (parts.getLastD [])
      return front ++ tail
    else parts.mapM ipv6Piece

/-- The text before and after the first double colon. -/
def cutGap : List Char → Option (List Char × List Char)
  | ':' :: ':' :: cs => some ([], cs)
  | c :: cs => (cutGap cs).map fun p => (c :: p.1, p.2)
  | [] => none

/-- Reads an IPv6 address to its eight pieces. -/
def readIpv6 (cs : List Char) : Option (List Nat) :=
  match cutGap cs with
  | none => (ipv6Pieces true cs).filter (·.length = 8)
  | some (front, back) => do
    let front ← ipv6Pieces false front
    let back ← ipv6Pieces true back
    let missing := 8 - (front.length + back.length)
    if missing = 0 then none else some (front ++ List.replicate missing 0 ++ back)

def hexText (n : Nat) : String := String.ofList (Nat.toDigits 16 n)

/-- How many zeros a list begins with. -/
def leadingZeros (ns : List Nat) : Nat := (ns.takeWhile (· == 0)).length

/-- The place and length of the first longest row of zeros. -/
def longestZeros : List Nat → Nat × Nat
  | [] => (0, 0)
  | n :: ns =>
    let here := leadingZeros (n :: ns)
    let (place, length) := longestZeros ns
    if length ≤ here then (0, here) else (place + 1, length)

/-- Writes an IPv6 address: the first longest row of at least two zeros is left out. -/
def ipv6Text (pieces : List Nat) : String :=
  let (place, length) := longestZeros pieces
  let join (ns : List Nat) : String := ":".intercalate (ns.map hexText)
  if length < 2 then join pieces
  else join (pieces.take place) ++ "::" ++ join (pieces.drop (place + length))

end Discovery.Url
