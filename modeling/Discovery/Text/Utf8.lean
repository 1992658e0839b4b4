/-!
# UTF-8

`utf8` writes text as bytes, `ofUtf8?` reads bytes that are exactly such a writing, and
`ofUtf8Lossy` reads any bytes, with one replacement character for each stretch that starts a
character and does not finish it. Surrogates, overlong writings and code points past `0x10FFFF`
are no characters in either reading.
-/

namespace Discovery.Text

/-- The bytes of a text. -/
def utf8 (s : String) : List UInt8 := s.toList.flatMap String.utf8EncodeChar

/-- The place of a reader within a character. -/
inductive Utf8State where
  /-- Between characters. -/
  | start
  /-- `owed + 1` more bytes belong to the character whose code point begins with `high`; the next
  one lies from `low` to `top`. -/
  | within (owed : Nat) (high : Nat) (low top : UInt8)
  deriving DecidableEq, Repr

/-- What a byte between characters does: it finishes a character, it starts a longer one, or it
can be neither. -/
def Utf8State.first (b : UInt8) : Option (Utf8State × Option Char) :=
  if b < 0x80 then some (.start, some (Char.ofNat b.toNat))
  else if b < 0xC2 then none
  else if b < 0xE0 then some (.within 0 (b.toNat - 0xC0) 0x80 0xBF, none)
  else if b = 0xE0 then some (.within 1 0 0xA0 0xBF, none)
  else if b = 0xED then some (.within 1 0xD 0x80 0x9F, none)
  else if b < 0xF0 then some (.within 1 (b.toNat - 0xE0) 0x80 0xBF, none)
  else if b = 0xF0 then some (.within 2 0 0x90 0xBF, none)
  else if b < 0xF4 then some (.within 2 (b.toNat - 0xF0) 0x80 0xBF, none)
  else if b = 0xF4 then some (.within 2 4 0x80 0x8F, none)
  else none

/-- What a byte does in any place. -/
def Utf8State.next : Utf8State → UInt8 → Option (Utf8State × Option Char)
  | .start, b => first b
  | .within owed high low top, b =>
    if low ≤ b && b ≤ top then
      let code := high * 0x40 + (b.toNat - 0x80)
      match owed with
      | 0 => some (.start, some (Char.ofNat code))
      | n + 1 => some (.within n code 0x80 0xBF, none)
    else none

/-- Strict reading from a place within a character. -/
def readUtf8 : Utf8State → List UInt8 → Option (List Char)
  | .start, [] => some []
  | .within .., [] => none
  | st, b :: bs =>
    match st.next b with
    | none => none
    | some (st', none) => readUtf8 st' bs
    | some (st', some c) => (readUtf8 st' bs).map (c :: ·)

/-- The text whose bytes these are, if there is one. -/
def ofUtf8? (bs : List UInt8) : Option String := (readUtf8 .start bs).map String.ofList

/-- Stands for bytes that are no character. -/
def replacement : Char := '\uFFFD'

/-- Lenient reading from a place within a character: a byte that cannot continue a character ends
it, and is then read as the first of another. -/
def readUtf8Lossy : Utf8State → List UInt8 → List Char
  | .start, [] => []
  | .within .., [] => [replacement]
  | st, b :: bs =>
    match st.next b with
    | some (st', none) => readUtf8Lossy st' bs
    | some (st', some c) => c :: readUtf8Lossy st' bs
    | none =>
      match st with
      | .start => replacement :: readUtf8Lossy .start bs
      | .within .. =>
        match Utf8State.first b with
        | some (st', none) => replacement :: readUtf8Lossy st' bs
        | some (st', some c) => replacement :: c :: readUtf8Lossy st' bs
        | none => replacement :: replacement :: readUtf8Lossy .start bs

/-- Any bytes as text. -/
def ofUtf8Lossy (bs : List UInt8) : String := String.ofList (readUtf8Lossy .start bs)

end Discovery.Text
