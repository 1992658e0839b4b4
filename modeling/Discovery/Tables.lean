/-!
# Tables of characters

What a domain name with letters from any alphabet is in ASCII, and which characters bytes are in the
encodings from before Unicode, is written in long tables. They are no part of this library: what
looks something up in them takes them as an instance of `Tables`. Nothing is assumed about what they
say. Where it matters what a name is made of, the name that they give is checked.
-/

namespace Discovery

/-- What is looked up in tables of characters. -/
class Tables where
  /-- The form in ASCII that a domain name has by UTS #46, if it is one. Names in ASCII whose labels
  stand for themselves are not looked up. -/
  asciiName? (name : List Char) : Option (List Char)
  /-- How bytes are read in the encoding that a label names, if it names one. Those of Unicode are
  not looked up. -/
  decoder? (label : String) : Option (List UInt8 → String)

end Discovery
