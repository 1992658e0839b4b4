import Discovery.Text.Decimal
import Discovery.Toml.Value

/-!
# TOML scalars

Readers for keys, strings, numbers, dates and times. Each takes the characters from where its token
begins and gives back those behind it, or fails. White space is the space and the tab; a line ends
with a line feed, before which a carriage return may stand; control characters other than the tab
occur nowhere.
-/

namespace Discovery.Toml

/-- Whether `c` may stand in a comment, and in a string if nothing else forbids it. -/
def isPlain (c : Char) : Bool := c == '\t' || (0x20 ≤ c.toNat && c.toNat != 0x7F)

/-- Whether `c` is white space within a line. -/
def isSpace (c : Char) : Bool := c == ' ' || c == '\t'

/-- The text behind white space. -/
def skipSpace (s : List Char) : List Char := s.dropWhile isSpace

/-- The text behind the end of a line, if it ends here. -/
def newline? : List Char → Option (List Char)
  | '\n' :: r => some r
  | '\r' :: '\n' :: r => some r
  | _ => none

/-- Behind a line end, the text behind all white space and line ends. -/
def skipLines : List Char → List Char
  | ' ' :: r | '\t' :: r | '\n' :: r | '\r' :: '\n' :: r => skipLines r
  | r => r

/-! ## Digits -/

/-- The value of a digit in any base up to sixteen. -/
def digit? (base : Nat) (c : Char) : Option Nat :=
  let v :=
    if '0' ≤ c ∧ c ≤ '9' then some (c.toNat - 0x30)
    else if 'a' ≤ c ∧ c ≤ 'f' then some (c.toNat - 0x57)
    else if 'A' ≤ c ∧ c ≤ 'F' then some (c.toNat - 0x37)
    else none
  v.filter (· < base)

/-- Digits behind a first one, single underscores between them allowed. -/
def moreDigits (base : Nat) : List Char → List Nat × List Char
  | '_' :: c :: r =>
    match digit? base c with
    | some d => (d :: (moreDigits base r).1, (moreDigits base r).2)
    | none => ([], '_' :: c :: r)
  | c :: r =>
    match digit? base c with
    | some d => (d :: (moreDigits base r).1, (moreDigits base r).2)
    | none => ([], c :: r)
  | [] => ([], [])

def digits (base : Nat) : List Char → Option (List Nat × List Char)
  | c :: r => (digit? base c).map fun d => (d :: (moreDigits base r).1, (moreDigits base r).2)
  | [] => none

/-- The number that digits denote. -/
def ofDigits (base : Nat) (ds : List Nat) : Nat := ds.foldl (fun n d => base * n + d) 0

/-- A sign, if there is one: whether it is a minus. -/
def sign : List Char → Bool × List Char
  | '-' :: r => (true, r)
  | '+' :: r => (false, r)
  | r => (false, r)

/-- The digits of a decimal number, which begin with zero only if there is no other. -/
def decimalDigits (s : List Char) : Option (List Nat × List Char) :=
  match s with
  | '0' :: r => some ([0], r)
  | _ => digits 10 s

/-! ## Numbers -/

/-- An integer within 64 bits. -/
def inRange (n : Int) (r : List Char) : Option (Value × List Char) :=
  if -0x8000000000000000 ≤ n ∧ n < 0x8000000000000000 then some (.integer n, r) else none

/-- A whole number. Other bases than ten have a mark and no sign. -/
def integer (s : List Char) : Option (Value × List Char) :=
  match s with
  | '0' :: 'x' :: r => (digits 16 r).bind fun p => inRange (ofDigits 16 p.1) p.2
  | '0' :: 'o' :: r => (digits 8 r).bind fun p => inRange (ofDigits 8 p.1) p.2
  | '0' :: 'b' :: r => (digits 2 r).bind fun p => inRange (ofDigits 2 p.1) p.2
  | _ =>
    let (negative, r) := sign s
    (decimalDigits r).bind fun p =>
      inRange (if negative then -(ofDigits 10 p.1 : Int) else ofDigits 10 p.1) p.2

def fraction? : List Char → Option (List Nat × List Char)
  | '.' :: r => digits 10 r
  | _ => none

/-- The exponent behind its letter. -/
def exponent? : List Char → Option (Int × List Char)
  | 'e' :: r | 'E' :: r =>
    let (negative, r) := sign r
    (digits 10 r).map fun p =>
      (if negative then -(ofDigits 10 p.1 : Int) else ofDigits 10 p.1, p.2)
  | _ => none

/-- Whether a number, as digits and the power of ten that they are times, is too large for a
double. -/
def tooLarge (ds : List Nat) (power : Int) : Bool :=
  let ds := ds.dropWhile (· == 0)
  let size : Int := ds.length + power
  if ds.isEmpty || size < 300 then false
  else if size > 320 then true
  else if 0 ≤ power then ofDigits 10 ds * Nat.pow 10 power.toNat ≥ Text.doubleBound
  else ofDigits 10 ds ≥ Text.doubleBound * Nat.pow 10 (-power).toNat

/-- The characters of `s` before `r`, which is its end. -/
def taken (s r : List Char) : String := String.ofList (s.take (s.length - r.length))

/-- Infinity or no number, behind the sign. -/
def specialFloat : List Char → Option (List Char)
  | 'i' :: 'n' :: 'f' :: r | 'n' :: 'a' :: 'n' :: r => some r
  | _ => none

/-- A number with a fraction, an exponent or both. A positive one must not be too large for a
double. -/
def float (s : List Char) : Option (Value × List Char) :=
  let (negative, r) := sign s
  match decimalDigits r with
  | none => (specialFloat r).map fun t => (.float (taken s t), t)
  | some (whole, r) => do
    let (places, power, r) ←
      match exponent? r with
      | some (e, r) => some ([], e, r)
      | none => do
        let (places, r) ← fraction? r
        match exponent? r with
        | some (e, r) => some (places, e, r)
        | none => some (places, 0, r)
    if !negative && tooLarge (whole ++ places) (power - places.length) then none
    else some (.float (taken s r), r)

/-! ## Dates and times -/

/-- A number of exactly `n` digits from `low` to `top`. -/
def field (n low top : Nat) (s : List Char) : Option (Nat × List Char) := do
  let ds ← (s.take n).mapM (digit? 10)
  let v := ofDigits 10 ds
  if ds.length = n ∧ low ≤ v ∧ v ≤ top then some (v, s.drop n) else none

/-- The text behind a character that must be there. -/
def expect (c : Char) : List Char → Option (List Char)
  | d :: r => if d = c then some r else none
  | [] => none

def daysIn (year month : Nat) : Nat :=
  if month = 2 then if year % 4 = 0 ∧ (year % 100 ≠ 0 ∨ year % 400 = 0) then 29 else 28
  else if month = 4 ∨ month = 6 ∨ month = 9 ∨ month = 11 then 30
  else 31

def date (s : List Char) : Option (List Char) := do
  let (year, s) ← field 4 0 9999 s
  let (month, s) ← field 2 1 12 (← expect '-' s)
  let (_, s) ← field 2 1 (daysIn year month) (← expect '-' s)
  return s

/-- Parts of a second, if there are any. -/
def secondParts (s : List Char) : List Char :=
  match s with
  | '.' :: c :: r => if c.isDigit then r.dropWhile Char.isDigit else s
  | _ => s

/-- A time of day; a minute may have a leap second. -/
def time (s : List Char) : Option (List Char) := do
  let (_, s) ← field 2 0 23 s
  let (_, s) ← field 2 0 59 (← expect ':' s)
  let (_, s) ← field 2 0 60 (← expect ':' s)
  return secondParts s

/-- An offset from universal time, if there is one. -/
def offset (s : List Char) : List Char :=
  match s with
  | 'Z' :: r | 'z' :: r => r
  | '+' :: r | '-' :: r =>
    ((do
      let (_, r) ← field 2 0 23 r
      let (_, r) ← field 2 0 59 (← expect ':' r)
      return r) : Option (List Char)).getD s
  | _ => s

/-- A date, a time, or both. -/
def moment (s : List Char) : Option (Value × List Char) :=
  let rest : Option (List Char) :=
    match date s with
    | none => time s
    | some r =>
      match r with
      | c :: t =>
        if c = 'T' || c = 't' || c = ' ' then
          match time t with
          | some t => some (offset t)
          | none => some r
        else some r
      | [] => some r
  rest.map fun r => (.moment (taken s r), r)

/-! ## Strings -/

/-- The character that a letter behind a backslash stands for. -/
def simpleEscape? (c : Char) : Option Char :=
  if c = '"' || c = '\\' then some c
  else if c = 'b' then some '\x08'
  else if c = 'f' then some '\x0c'
  else if c = 'n' then some '\n'
  else if c = 'r' then some '\r'
  else if c = 't' then some '\t'
  else none

/-- A character by `n` hexadecimal digits. -/
def codePoint (n : Nat) (s : List Char) : Option (Char × List Char) := do
  let ds ← (s.take n).mapM (digit? 16)
  let v := ofDigits 16 ds
  if ds.length = n ∧ v.isValidChar then some (Char.ofNat v, s.drop n) else none

/-- What a backslash begins, behind it. -/
def escape : List Char → Option (Char × List Char)
  | 'u' :: r => codePoint 4 r
  | 'U' :: r => codePoint 8 r
  | c :: r => (simpleEscape? c).map fun d => (d, r)
  | [] => none

/-- The text behind a backslash at the end of a line: it goes on at the next character that is no
white space. -/
def lineBreak? (s : List Char) : Option (List Char) := (newline? (skipSpace s)).map skipLines

/-- A string on one line, behind its opening quote. The fuel bounds its length. -/
def basicBody : Nat → List Char → Option (List Char × List Char)
  | 0, _ => none
  | _, [] => none
  | fuel + 1, c :: r =>
    if c = '"' then some ([], r)
    else if c = '\\' then do
      let (d, r) ← escape r
      let (ds, r) ← basicBody fuel r
      return (d :: ds, r)
    else if isPlain c then do
      let (ds, r) ← basicBody fuel r
      return (c :: ds, r)
    else none

/-- A string of several lines, behind its opening quotes. Of up to five quotes at the end, those
before the last three belong to the string. -/
def longBasicBody : Nat → List Char → Option (List Char × List Char)
  | 0, _ => none
  | _, '"' :: '"' :: '"' :: '"' :: '"' :: r => some (['"', '"'], r)
  | _, '"' :: '"' :: '"' :: '"' :: r => some (['"'], r)
  | _, '"' :: '"' :: '"' :: r => some ([], r)
  | _, [] => none
  | fuel + 1, c :: r =>
    if c = '\\' then
      match lineBreak? r with
      | some r => longBasicBody fuel r
      | none => do
        let (d, r) ← escape r
        let (ds, r) ← longBasicBody fuel r
        return (d :: ds, r)
    else match newline? (c :: r) with
      | some r => do
        let (ds, r) ← longBasicBody fuel r
        return ('\n' :: ds, r)
      | none =>
        if isPlain c then do
          let (ds, r) ← longBasicBody fuel r
          return (c :: ds, r)
        else none

/-- A literal string of several lines, behind its opening quotes. -/
def longLiteralBody : List Char → Option (List Char × List Char)
  | '\'' :: '\'' :: '\'' :: '\'' :: '\'' :: r => some (['\'', '\''], r)
  | '\'' :: '\'' :: '\'' :: '\'' :: r => some (['\''], r)
  | '\'' :: '\'' :: '\'' :: r => some ([], r)
  | '\r' :: '\n' :: r | '\n' :: r => (longLiteralBody r).map fun p => ('\n' :: p.1, p.2)
  | c :: r => if isPlain c then (longLiteralBody r).map fun p => (c :: p.1, p.2) else none
  | [] => none

/-- A literal string on one line, behind its opening quote. -/
def literalBody (s : List Char) : Option (List Char × List Char) :=
  match s.dropWhile fun c => isPlain c && c != '\'' with
  | '\'' :: r => some (s.takeWhile fun c => isPlain c && c != '\'', r)
  | _ => none

/-- The text behind a line end that opens a string of several lines. -/
def skipNewline (s : List Char) : List Char := (newline? s).getD s

/-- A string on one line. -/
def shortString : List Char → Option (String × List Char)
  | '"' :: r => (basicBody (r.length + 1) r).map fun p => (String.ofList p.1, p.2)
  | '\'' :: r => (literalBody r).map fun p => (String.ofList p.1, p.2)
  | _ => none

def string : List Char → Option (String × List Char)
  | '"' :: '"' :: '"' :: r =>
    (longBasicBody (r.length + 1) (skipNewline r)).map fun p => (String.ofList p.1, p.2)
  | '\'' :: '\'' :: '\'' :: r =>
    (longLiteralBody (skipNewline r)).map fun p => (String.ofList p.1, p.2)
  | s => shortString s

/-! ## Keys -/

/-- Whether `c` may stand in a key without quotes. -/
def isBare (c : Char) : Bool := c.isAlphanum || c == '_' || c == '-'

/-- One part of a key, with white space around it. -/
def keyPart (s : List Char) : Option (String × List Char) :=
  let s := skipSpace s
  match s with
  | '"' :: _ | '\'' :: _ => (shortString s).map fun p => (p.1, skipSpace p.2)
  | c :: _ =>
    if isBare c then some (String.ofList (s.takeWhile isBare), skipSpace (s.dropWhile isBare))
    else none
  | [] => none

/-- The parts of a key behind its first. The fuel bounds their number. -/
def keyParts : Nat → List Char → Option (List String × List Char)
  | fuel + 1, '.' :: r => do
    let (part, r) ← keyPart r
    let (parts, r) ← keyParts fuel r
    return (part :: parts, r)
  | _, r => some ([], r)

/-- How deep values may be nested, and how many parts a key may have. -/
def depthLimit : Nat := 80

/-- A key: the parts before the last one, and the last one. -/
def key (s : List Char) : Option (List String × String × List Char) := do
  let (first, r) ← keyPart s
  let (more, r) ← keyParts s.length r
  let parts := first :: more
  if parts.length < depthLimit then
    some (parts.dropLast, parts.getLastD first, r)
  else none

end Discovery.Toml
