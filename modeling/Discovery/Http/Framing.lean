import Discovery.Http.Exchange
import Discovery.Url.Percent

/-!
# Responses in a stream of bytes

A connection gives bytes, of which the beginning may be a response: a line with the status, headers,
an empty line, and a body. The body has the length that a header gives, or comes in chunks, or ends
with the connection. Responses that only announce another one are passed over.
-/

namespace Discovery.Http

/-- What some bytes give that begin with something. -/
inductive Reading (α : Type) where
  /-- They end before it does. -/
  | ended
  /-- They do not begin with it, whatever may follow. -/
  | faulty
  /-- It, and the bytes after it. -/
  | done (a : α) (rest : List UInt8)

namespace Reading

/-- Goes on after what was read. -/
def bind : Reading α → (α → List UInt8 → Reading β) → Reading β
  | .ended, _ => .ended
  | .faulty, _ => .faulty
  | .done a rest, f => f a rest

end Reading

/-! ## The head -/

/-- Reads up to the end of a line, which has a line feed, and maybe a carriage return before it. -/
def readLine : List UInt8 → Reading (List UInt8)
  | [] => .ended
  | 0x0A :: rest => .done [] rest
  | 0x0D :: 0x0A :: rest => .done [] rest
  | b :: rest => (readLine rest).bind fun line rest => .done (b :: line) rest

/-- Bytes as characters, one for each. -/
def chars (bs : List UInt8) : List Char := bs.map fun b => Char.ofNat b.toNat

/-- Whether a byte may stand in a value: it is no control other than tab. -/
def isValueByte (b : UInt8) : Bool := (0x20 ≤ b && b ≠ 0x7F) || b = 0x09

/-- What the first line says. -/
structure StatusLine where
  /-- The version is 1.0 and not 1.1. -/
  isOld : Bool
  code : Nat

/-- The end of the line after the status: nothing, or a space and a reason. -/
def isReason : List UInt8 → Bool
  | [] => true
  | b :: bs => b = 0x20 && bs.all isValueByte

def statusLine? (line : List UInt8) : Option StatusLine := do
  let rest := chars line
  let isOld ← if rest.take 9 = "HTTP/1.1 ".toList then some false
    else if rest.take 9 = "HTTP/1.0 ".toList then some true else none
  let code ← Text.readBelow 1000 ((rest.drop 9).take 3)
  if code < 100 || !isReason (line.drop 12) then none
  return { isOld, code }

def header? (line : List UInt8) : Option Header :=
  let name := line.takeWhile (· ≠ 0x3A)
  match line.dropWhile (· ≠ 0x3A) with
  | [] => none
  | _ :: value =>
    if name.isEmpty || !(chars name).all isTokenChar || !value.all isValueByte then none
    else some { name := String.ofList (chars name), value }

def headerLimit : Nat := 100

/-- Reads headers up to an empty line; so many more may come. -/
def readHeaders : Nat → List UInt8 → Reading (List Header)
  | more, bs => (readLine bs).bind fun line rest =>
    if line = [] then .done [] rest
    else match more with
      | 0 => .faulty
      | more + 1 =>
        match header? line with
        | none => .faulty
        | some h => (readHeaders more rest).bind fun hs rest => .done (h :: hs) rest

def dropEmptyLines : List UInt8 → List UInt8
  | 0x0A :: rest => dropEmptyLines rest
  | 0x0D :: 0x0A :: rest => dropEmptyLines rest
  | bs => bs

def readHead (bs : List UInt8) : Reading (StatusLine × List Header) :=
  (readLine (dropEmptyLines bs)).bind fun line rest =>
    match statusLine? line with
    | none => .faulty
    | some s => (readHeaders headerLimit rest).bind fun hs rest => .done (s, hs) rest

/-! ## The body -/

/-- How the end of a body is found. -/
inductive Framing where
  /-- There is none. -/
  | absent
  /-- It has so many bytes. -/
  | counted (n : Nat)
  | chunked
  /-- It ends with the connection. -/
  | untilClose
  deriving DecidableEq, Repr

/-- The members of the lists that the headers with a name hold. One that is no text is a member of
its own, as nothing. -/
def members (hs : List Header) (name : String) : List (Option (List Char)) :=
  (hs.filter (Header.isNamed name)).flatMap fun h =>
    if h.value.all isTextByte then
      (Text.pieces ',' (chars h.value)).map fun p =>
        some (Text.trimWhere (fun c => c = ' ' || c = '\t') p)
    else [none]

/-- The length that headers agree on. Lengths near the bound of words are refused. -/
def agreedLength (ms : List (Option (List Char))) : Option Nat := do
  let lengths ← ms.mapM fun m => m.bind (Text.readBelow (Text.wordBound - 2))
  let n ← lengths.head?
  if lengths.all (· = n) then some n else none

/-- How the body of a response is framed, if its head makes sense. -/
def framing (s : StatusLine) (hs : List Header) : Option Framing :=
  if s.code = 101 || s.code = 204 || s.code = 304 then some .absent
  else
    let codings := members hs "Transfer-Encoding"
    if codings ≠ [] then
      if s.isOld then none
      else if (codings.getLast?.bind id).map (·.map Char.toLower) = some "chunked".toList then
        some .chunked
      else some .untilClose
    else
      let lengths := members hs "Content-Length"
      if lengths = [] then some .untilClose else (agreedLength lengths).map .counted

/-- Reads a line of the chunked form, which ends in a carriage return and a line feed. -/
def readStrictLine : List UInt8 → Reading (List UInt8)
  | [] => .ended
  | [0x0D] => .ended
  | 0x0D :: 0x0A :: rest => .done [] rest
  | 0x0D :: _ => .faulty
  | b :: rest => (readStrictLine rest).bind fun line rest => .done (b :: line) rest

/-- The size of a chunk, in hexadecimal; blanks and an extension may follow. -/
def chunkSize? (line : List UInt8) : Option Nat := do
  let digits := (chars line).takeWhile fun c => (Url.hexValue? c).isSome
  let rest := line.drop digits.length
  let size := digits.foldl (fun n c => 16 * n + (Url.hexValue? c).getD 0) 0
  let fits : Bool := match rest.dropWhile isSpaceOrTab with
    | [] => true
    | b :: extension => b = 0x3B && !extension.contains 0x0A
  if digits = [] || Text.wordBound ≤ size || !fits then none else some size

/-- Reads lines up to an empty one. -/
def readTrailers : Nat → List UInt8 → Reading Unit
  | 0, _ => .faulty
  | fuel + 1, bs => (readStrictLine bs).bind fun line rest =>
    if line = [] then .done () rest else readTrailers fuel rest

/-- Reads chunks. Each takes at least one byte, so there are no more than bytes. -/
def readChunks : Nat → List UInt8 → Reading (List UInt8)
  | 0, _ => .faulty
  | fuel + 1, bs => (readStrictLine bs).bind fun line rest =>
    match chunkSize? line with
    | none => .faulty
    | some 0 => (readTrailers (rest.length + 1) rest).bind fun _ rest => .done [] rest
    | some size =>
      if rest.length < size then .ended
      else
        let chunk := rest.take size
        match rest.drop size with
        | 0x0D :: 0x0A :: rest =>
          (readChunks fuel rest).bind fun more rest => .done (chunk ++ more) rest
        | [] | [0x0D] => .ended
        | _ => .faulty

/-! ## Whole replies -/

/-- Whether a response only announces another one. -/
def StatusLine.announces (s : StatusLine) : Bool :=
  100 ≤ s.code && s.code < 200 && s.code ≠ 101

/-- Reads the head of the response that counts. Each head takes at least one byte. -/
def readFinalHead : Nat → List UInt8 → Reading (StatusLine × List Header)
  | 0, _ => .faulty
  | fuel + 1, bs => (readHead bs).bind fun head rest =>
    if head.1.announces then readFinalHead fuel rest else .done head rest

/-- What a connection has given so far is as a reply, once that is known. `closed` says whether
anything more can come. -/
def Reply.ofBytes (closed : Bool) (bs : List UInt8) : Option Reply :=
  match readFinalHead (bs.length + 1) bs with
  | .ended => if closed then some .broken else none
  | .faulty => some .broken
  | .done (line, headers) rest =>
    let whole (body : List UInt8) : Option Reply :=
      some (.response { code := line.code, headers, body := some body })
    let cut : Option Reply := some (.response { code := line.code, headers, body := none })
    match framing line headers with
    | none => some .broken
    | some .absent => whole []
    | some .untilClose => if closed then whole rest else none
    | some (.counted n) =>
      if n ≤ rest.length then whole (rest.take n) else if closed then cut else none
    | some .chunked =>
      match readChunks (rest.length + 1) rest with
      | .done body _ => whole body
      | .faulty => cut
      | .ended => if closed then cut else none

end Discovery.Http
