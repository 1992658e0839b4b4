import Discovery.Text.Split
import Discovery.Url.Percent

/-!
# Form-encoded parameters

A query string of parameters has `&` between them and `=` between a name and its value. Letters,
digits and a few signs stand for themselves, a space becomes a plus sign, and all else is
percent-encoded. Reading undoes this.
-/

namespace Discovery.Url

/-- Whether a character of a parameter is written as it is. -/
def keepsForm (c : Char) : Bool := c.isAlphanum || "*-._".toList.contains c

/-- The writing of a name or value. -/
def formEncode (s : String) : List Char :=
  (Text.utf8 s).flatMap fun b =>
    let c := Char.ofNat b.toNat
    if b = 0x20 then ['+'] else if b < 0x80 && keepsForm c then [c] else encodeByte b

def formPair (p : String × String) : List Char := formEncode p.1 ++ '=' :: formEncode p.2

def formText : List (String × String) → List Char
  | [] => []
  | [p] => formPair p
  | p :: ps => formPair p ++ '&' :: formText ps

/-- The bytes of a name or value. -/
def formDecode (s : List Char) : List UInt8 :=
  percentDecode (s.map fun c => if c = '+' then ' ' else c)

/-- The parameters of a query string, as bytes. Empty pieces are no parameters, and a piece without
`=` has the empty value. -/
def formPairs (s : List Char) : List (List UInt8 × List UInt8) :=
  ((Text.pieces '&' s).filter (· ≠ [])).map fun piece =>
    let p := (Text.cutFirst '=' piece).getD (piece, [])
    (formDecode p.1, formDecode p.2)

end Discovery.Url
