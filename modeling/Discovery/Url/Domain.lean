import Discovery.Tables
import Discovery.Text.Split
import Discovery.Text.Utf8
import Discovery.Url.Error
import Discovery.Url.Percent

/-!
# Domain names

A domain name in a URL is brought to ASCII: percent-encoding is undone, and letters become
lower-case. What becomes of a name with characters outside ASCII, or with a label that stands for
such characters, is looked up.
-/

namespace Discovery.Url

/-- Characters that separate a host from what stands around it in a URL. -/
def hostSeparators : List Char := "#/:<>?@[\\]^|".toList

/-- Whether a character may be part of a domain name in ASCII. -/
def isDomainChar (c : Char) : Bool :=
  isVisible c && c != ' ' && c != '%' && !hostSeparators.contains c

def isAscii (cs : List Char) : Bool := cs.all fun c => c.toNat < 0x80

/-- What follows `xn--` in a label that stands for other characters. -/
def encodedPart? : List Char → Option (List Char)
  | 'x' :: 'n' :: '-' :: '-' :: cs => some cs
  | _ => none

/-- Whether the labels of a name are in ASCII and stand for themselves. -/
def isPlainName (cs : List Char) : Bool :=
  isAscii cs && (Text.pieces '.' cs).all fun label => (encodedPart? (label.map Char.toLower)).isNone

variable [Tables]

/-- A domain name in ASCII, from its characters. Only what may be part of one is taken from
tables. -/
def asciiDomain (cs : List Char) : Option (List Char) :=
  let name := if isPlainName cs then some (cs.map Char.toLower) else Tables.asciiName? cs
  name.filter fun name => name.all isDomainChar

/-- Reads a domain name as it is written in a URL. -/
def readDomain (written : List Char) : Except Error (List Char) :=
  match Text.readUtf8 .start (percentDecode written) with
  | none => .error .domainName
  | some cs =>
    match asciiDomain cs with
    | none => .error .domainName
    | some [] => .error .emptyHost
    | some name => .ok name

end Discovery.Url
