import Discovery.Proofs.Json.Values

/-!
# What is JSON

Which bytes are a JSON text, and of which value, without saying how they are read: `Document`.
Blanks may stand before each token and behind the last. Strings are kept as they stand between
their quotes, and numbers as they are written, since it depends on the place of a value whether
anyone asks what they denote.
-/

namespace Discovery.Json

/-- A value as it is written. -/
inductive Value where
  | null
  | boolean (b : Bool)
  | number (text : List UInt8)
  | string (content : List UInt8)
  | array (elements : List Value)
  | object (members : List (List UInt8 × Value))

/-! ## Numbers -/

/-- One or more digits. -/
def IsDigits (ds : List UInt8) : Prop := ds ≠ [] ∧ ∀ b ∈ ds, (digit? b).isSome = true

/-- Digits of which none stands behind a leading zero. -/
def IsWhole (ds : List UInt8) : Prop :=
  IsDigits ds ∧ ∀ b c rest, ds = b :: c :: rest → digit? b ≠ some 0

inductive IsFraction : List UInt8 → Prop where
  | none : IsFraction []
  | digits {ds : List UInt8} : IsDigits ds → IsFraction (point :: ds)

inductive IsExponent : List UInt8 → Prop where
  | none : IsExponent []
  | digits {e : UInt8} {sign ds : List UInt8} : e = 0x65 ∨ e = 0x45 →
      sign = [] ∨ sign = [0x2B] ∨ sign = [minus] → IsDigits ds → IsExponent (e :: (sign ++ ds))

/-- A number without its sign. -/
def IsUnsigned (text : List UInt8) : Prop :=
  ∃ whole fraction exponent, text = whole ++ (fraction ++ exponent) ∧
    IsWhole whole ∧ IsFraction fraction ∧ IsExponent exponent

inductive IsNumber : List UInt8 → Prop where
  | natural {text : List UInt8} : IsUnsigned text → IsNumber text
  | negative {text : List UInt8} : IsUnsigned text → IsNumber (minus :: text)

/-! ## Strings -/

/-- Four hexadecimal digits and the code unit that they stand for. -/
inductive IsUnit : List UInt8 → Nat → Prop where
  | digits {a b c d : UInt8} {i j k l : Nat} : hexDigit? a = some i → hexDigit? b = some j →
      hexDigit? c = some k → hexDigit? d = some l →
      IsUnit [a, b, c, d] (((i * 16 + j) * 16 + k) * 16 + l)

/-- What may stand between quotes. -/
inductive IsContent : List UInt8 → Prop where
  | nil : IsContent []
  | plain {b : UInt8} {s : List UInt8} : Plain b → IsContent s → IsContent (b :: s)
  | sign {b : UInt8} {s : List UInt8} : (simpleEscape? b).isSome = true → IsContent s →
      IsContent (backslash :: b :: s)
  | unit {ds s : List UInt8} {n : Nat} : IsUnit ds n → IsContent s →
      IsContent (backslash :: unitLetter :: (ds ++ s))

def IsHigh (n : Nat) : Prop := 0xD800 ≤ n ∧ n ≤ 0xDBFF

def IsLow (n : Nat) : Prop := 0xDC00 ≤ n ∧ n ≤ 0xDFFF

/-- The bytes of the character that a pair of code units stands for. -/
def pairBytes (high low : Nat) : List UInt8 :=
  String.utf8EncodeChar (Char.ofNat (0x10000 + (high - 0xD800) * 0x400 + (low - 0xDC00)))

/-- An escape behind its backslash, and the bytes that it stands for. -/
inductive IsEscape : List UInt8 → List UInt8 → Prop where
  | sign {b c : UInt8} : simpleEscape? b = some c → IsEscape [b] [c]
  | unit {ds : List UInt8} {n : Nat} : IsUnit ds n → ¬IsHigh n → ¬IsLow n →
      IsEscape (unitLetter :: ds) (String.utf8EncodeChar (Char.ofNat n))
  | pair {ds es : List UInt8} {m n : Nat} : IsUnit ds m → IsHigh m → IsUnit es n → IsLow n →
      IsEscape (unitLetter :: (ds ++ backslash :: unitLetter :: es)) (pairBytes m n)

/-- What stands between quotes, and the bytes that it stands for. -/
inductive Decoded : List UInt8 → List UInt8 → Prop where
  | nil : Decoded [] []
  | plain {b : UInt8} {s u : List UInt8} : Plain b → Decoded s u → Decoded (b :: s) (b :: u)
  | escape {e s t u : List UInt8} : IsEscape e t → Decoded s u →
      Decoded (backslash :: (e ++ s)) (t ++ u)

/-- The text that a string denotes. -/
def Denotes (s : List UInt8) (text : String) : Prop :=
  ∃ u, Decoded s u ∧ Text.ofUtf8? u = some text

/-! ## Values -/

/-- The writing of a value that holds no others. -/
inductive IsScalar : Value → List UInt8 → Prop where
  | null : IsScalar .null (Text.utf8 "null")
  | boolean (b : Bool) : IsScalar (.boolean b) (Text.utf8 (if b then "true" else "false"))
  | number {text : List UInt8} : IsNumber text → IsScalar (.number text) text
  | string {s : List UInt8} : IsContent s → IsScalar (.string s) (quote :: (s ++ [quote]))

/-- Behind blanks stands a key with its colon. -/
def Keyed (key s r : List UInt8) : Prop :=
  IsContent key ∧ ∃ t, skipBlank s = quote :: (key ++ quote :: t) ∧ skipBlank t = colon :: r

/-- What a text may go on with. -/
inductive Phrase where
  | value (v : Value)
  /-- Behind an element, the elements that follow and the end of the array. -/
  | elements (vs : List Value)
  /-- Behind a member, the members that follow and the end of the object. -/
  | members (ms : List (List UInt8 × Value))

/-- A text goes on with a phrase, and then with another text. -/
inductive Spells : Phrase → List UInt8 → List UInt8 → Prop where
  | scalar {v : Value} {text s r : List UInt8} : IsScalar v text → skipBlank s = text ++ r →
      Spells (.value v) s r
  | emptyArray {s t r : List UInt8} : skipBlank s = openBracket :: t →
      skipBlank t = closeBracket :: r → Spells (.value (.array [])) s r
  | array {v : Value} {vs : List Value} {s t u r : List UInt8} :
      skipBlank s = openBracket :: t → Spells (.value v) t u → Spells (.elements vs) u r →
      Spells (.value (.array (v :: vs))) s r
  | emptyObject {s t r : List UInt8} : skipBlank s = openBrace :: t →
      skipBlank t = closeBrace :: r → Spells (.value (.object [])) s r
  | object {key : List UInt8} {v : Value} {ms : List (List UInt8 × Value)}
      {s t t' u r : List UInt8} : skipBlank s = openBrace :: t → Keyed key t t' →
      Spells (.value v) t' u → Spells (.members ms) u r →
      Spells (.value (.object ((key, v) :: ms))) s r
  | noElement {s r : List UInt8} : skipBlank s = closeBracket :: r → Spells (.elements []) s r
  | element {v : Value} {vs : List Value} {s t u r : List UInt8} : skipBlank s = comma :: t →
      Spells (.value v) t u → Spells (.elements vs) u r → Spells (.elements (v :: vs)) s r
  | noMember {s r : List UInt8} : skipBlank s = closeBrace :: r → Spells (.members []) s r
  | member {key : List UInt8} {v : Value} {ms : List (List UInt8 × Value)}
      {s t t' u r : List UInt8} : skipBlank s = comma :: t → Keyed key t t' →
      Spells (.value v) t' u → Spells (.members ms) u r → Spells (.members ((key, v) :: ms)) s r

/-- A JSON text, and the value that it is of. -/
def Document (v : Value) (s : List UInt8) : Prop := ∃ r, Spells (.value v) s r ∧ skipBlank r = []

end Discovery.Json
