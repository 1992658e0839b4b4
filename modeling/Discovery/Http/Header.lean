import Discovery.Lookup.Basic
import Discovery.Text.Blank
import Discovery.Text.Decimal

/-!
# Headers of a response

A response carries headers in some order; names may come again, and values may hold any bytes. Of
headers with the same name the first counts. The headers of the catalog say what its index is, how
long ago the server heard from the leader, and whether there is one. Whatever they hold, they can
only fail to say something.
-/

namespace Discovery.Http

structure Header where
  name : String
  value : List UInt8
  deriving DecidableEq, Repr

/-- Whether a header has a name. Letters of both cases are the same. -/
def Header.isNamed (name : String) (h : Header) : Bool :=
  h.name.toList.map Char.toLower == name.toList.map Char.toLower

/-- Whether a byte is a space or a tab. -/
def isSpaceOrTab (b : UInt8) : Bool := b = 0x20 || b = 0x09

/-- The value of the first header with a name, without spaces and tabs around it. -/
def value? (hs : List Header) (name : String) : Option (List UInt8) :=
  (hs.find? (Header.isNamed name)).map fun h => Text.trimWhere isSpaceOrTab h.value

/-- Whether a byte may stand in a value that is text. -/
def isTextByte (b : UInt8) : Bool := 0x20 ≤ b && b < 0x7F || b = 0x09

/-- The value of the first header with a name as text; other bytes make it none. -/
def text? (hs : List Header) (name : String) : Option (List Char) :=
  ((value? hs name).filter fun bs => bs.all isTextByte).map fun bs =>
    bs.map fun b => Char.ofNat b.toNat

/-- Whether a character may stand in the name of a header and other words of the protocol. -/
def isTokenChar (c : Char) : Bool := c.isAlphanum || "!#$%&'*+-.^_`|~".toList.contains c

/-- The number that the first header with a name gives, or zero. -/
def number (hs : List Header) (name : String) : Nat :=
  ((text? hs name).bind (Text.readSignedBelow Text.wordBound)).getD 0

/-- Gives the index of the catalog. -/
def indexHeader : String := "X-Consul-Index"

/-- Gives the milliseconds since the server last heard from the leader. -/
def lastContactHeader : String := "X-Consul-LastContact"

/-- Says whether there is a leader. -/
def knownLeaderHeader : String := "X-Consul-KnownLeader"

/-- What the headers of a response say about the catalog. -/
def status (hs : List Header) : Lookup.Status where
  lastIndex := number hs indexHeader
  lastContact := number hs lastContactHeader
  knownLeader := text? hs knownLeaderHeader == some "true".toList

end Discovery.Http
