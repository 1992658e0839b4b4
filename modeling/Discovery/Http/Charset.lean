import Discovery.Http.Header
import Discovery.Tables
import Discovery.Text.Split
import Discovery.Text.Utf16

/-!
# Texts in bodies

A body that is text is in the encoding of the byte order mark that it begins with. Without a mark it
is in the one that the media type of the response names, and in UTF-8 if none is named or the name
is unknown.
-/

namespace Discovery.Http

/-! ## Media types -/

/-- Whether a character may stand between quotes in a media type. -/
def isQuotedChar (c : Char) : Bool := 0x20 ≤ c.toNat && c.toNat ≠ 0x7F

/-- A value up to the quote that ends it, of which it has at least one character, be it a quote. -/
def cutQuoted : List Char → Option (List Char × List Char)
  | [] => none
  | c :: cs => (Text.cutFirst '"' cs).bind fun (value, rest) =>
    if (c :: value).all isQuotedChar then some (c :: value, rest) else none

/-- The value of a parameter, and what follows it. Only at the end may there be none. -/
def cutValue : List Char → Option (List Char × List Char)
  | '"' :: cs => (cutQuoted cs).map fun p => (p.1, p.2.dropWhile (· = ' '))
  | cs =>
    let (value, rest) := cs.span isTokenChar
    if value = [] && rest ≠ [] then none else some (value, rest)

/-- The parameters of a media type. Each takes at least one character, so there are no more than
characters. -/
def mediaParameters : Nat → List Char → Option (List (List Char × List Char))
  | 0, _ => none
  | fuel + 1, cs =>
    match cs.dropWhile (· = ' ') with
    | [] => some []
    | cs => do
      let (name, rest) ← Text.cutFirst '=' cs
      if name = [] || !name.all isTokenChar then none
      let (value, rest) ← cutValue rest
      match rest with
      | [] => return [(name, value)]
      | ';' :: rest => return (name, value) :: (← mediaParameters fuel rest)
      | _ => none

/-- The charset that a media type names. One that is ill-formed names none. -/
def charsetOf (media : List Char) : Option (List Char) := do
  let (kind, rest) ← Text.cutFirst '/' media
  let (subtype, rest) ← Text.cutFirst ';' rest
  if kind = [] || subtype = [] || !(kind ++ subtype).all isTokenChar then none
  let parameters ← mediaParameters (rest.length + 1) rest
  (parameters.find? fun p => p.1.map Char.toLower = "charset".toList).map Prod.snd

/-! ## Encodings -/

/-- The labels of UTF-8. -/
def utf8Labels : List String := [
  "unicode-1-1-utf-8", "unicode11utf8", "unicode20utf8", "utf-8", "utf8", "x-unicode20utf8"]

/-- The labels of UTF-16 with the low byte first. -/
def littleEndianLabels : List String := [
  "csunicode", "iso-10646-ucs-2", "ucs-2", "unicode", "unicodefeff", "utf-16", "utf-16le"]

/-- The labels of UTF-16 with the high byte first. -/
def bigEndianLabels : List String := ["unicodefffe", "utf-16be"]

/-- The label of an encoding, without blanks around it and in lower case. -/
def labelOf (charset : List Char) : String :=
  String.ofList ((Text.trimWhere (" \t\n\x0C\r".toList.contains ·) charset).map Char.toLower)

variable [Tables]

/-- How bytes with a label are read. -/
def decoder (label : String) : List UInt8 → String :=
  if utf8Labels.contains label then Text.ofUtf8Lossy
  else if littleEndianLabels.contains label then Text.ofUtf16Lossy Text.littleEndian
  else if bigEndianLabels.contains label then Text.ofUtf16Lossy Text.bigEndian
  else (Tables.decoder? label).getD Text.ofUtf8Lossy

/-- The text of a body. A byte order mark is no part of it. -/
def bodyText (hs : List Header) : List UInt8 → String
  | 0xEF :: 0xBB :: 0xBF :: bs => Text.ofUtf8Lossy bs
  | 0xFF :: 0xFE :: bs => Text.ofUtf16Lossy Text.littleEndian bs
  | 0xFE :: 0xFF :: bs => Text.ofUtf16Lossy Text.bigEndian bs
  | bs =>
    match (text? hs "Content-Type").bind charsetOf with
    | some charset => decoder (labelOf charset) bs
    | none => Text.ofUtf8Lossy bs

end Discovery.Http
