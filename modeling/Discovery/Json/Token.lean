import Discovery.Json.Fault
import Discovery.Text.Utf8

/-!
# Tokens of JSON

Readers for the tokens of a JSON text, on bytes. Each takes the bytes from where its token goes on
and gives back those behind it. The lemmas say that bytes are used up, which is why the readers of
whole values end.

A string is decoded in two steps: escapes are resolved to bytes, and at the closing quote all bytes
must be UTF-8. A string whose value nobody wants is only skipped, and may hold escapes that pair up
to no character, and bytes that are no UTF-8.
-/

namespace Discovery.Json

/-- Bytes with a meaning in JSON. -/
abbrev quote : UInt8 := 0x22
abbrev comma : UInt8 := 0x2C
abbrev minus : UInt8 := 0x2D
abbrev point : UInt8 := 0x2E
abbrev colon : UInt8 := 0x3A
abbrev openBracket : UInt8 := 0x5B
abbrev backslash : UInt8 := 0x5C
abbrev closeBracket : UInt8 := 0x5D
abbrev openBrace : UInt8 := 0x7B
abbrev closeBrace : UInt8 := 0x7D

/-- Whether a byte may stand between tokens. -/
def isBlank (b : UInt8) : Bool := b == 0x20 || b == 0x0A || b == 0x09 || b == 0x0D

/-- The bytes from the next token on. -/
def skipBlank (s : List UInt8) : List UInt8 := s.dropWhile isBlank

theorem length_skipBlank_le (s : List UInt8) : (skipBlank s).length ≤ s.length :=
  (List.dropWhile_sublist _).length_le

/-! ## Words -/

/-- Reads the rest of a word such as `null`. -/
def word : List UInt8 → List UInt8 → Except Fault (List UInt8)
  | [], s => .ok s
  | _ :: _, [] => .error .ended
  | e :: es, b :: s => if e = b then word es s else .error .malformed

theorem word_length {w s r : List UInt8} (h : word w s = .ok r) : r.length ≤ s.length := by
  induction w generalizing s with
  | nil => cases h; exact Nat.le_refl _
  | cons e es ih =>
    cases s with
    | nil => cases h
    | cons b s =>
      simp only [word] at h
      split at h
      · exact Nat.le_succ_of_le (ih h)
      · cases h

/-- What must follow the first letter of `null`, `true` or `false`. -/
def wordAfter? (b : UInt8) : Option (List UInt8) :=
  if b = 0x6E then some [0x75, 0x6C, 0x6C]
  else if b = 0x74 then some [0x72, 0x75, 0x65]
  else if b = 0x66 then some [0x61, 0x6C, 0x73, 0x65]
  else none

/-! ## Strings -/

/-- The value of a hexadecimal digit. -/
def hexDigit? (b : UInt8) : Option Nat :=
  if 0x30 ≤ b ∧ b ≤ 0x39 then some (b.toNat - 0x30)
  else if 0x41 ≤ b ∧ b ≤ 0x46 then some (b.toNat - 0x37)
  else if 0x61 ≤ b ∧ b ≤ 0x66 then some (b.toNat - 0x57)
  else none

/-- Reads the four digits of a code unit. -/
def hexUnit : List UInt8 → Except Fault (Nat × List UInt8)
  | a :: b :: c :: d :: rest =>
    match hexDigit? a, hexDigit? b, hexDigit? c, hexDigit? d with
    | some a, some b, some c, some d => .ok (((a * 16 + b) * 16 + c) * 16 + d, rest)
    | _, _, _, _ => .error .malformed
  | _ => .error .ended

theorem hexUnit_length {s r : List UInt8} {n : Nat} (h : hexUnit s = .ok (n, r)) :
    r.length < s.length := by
  match s with
  | a :: b :: c :: d :: rest =>
    simp only [hexUnit] at h
    split at h
    · cases h; simp only [List.length_cons]; omega
    · cases h
  | [] | [_] | [_, _] | [_, _, _] => cases h

/-- The byte that a backslash and a letter or sign stand for. -/
def simpleEscape? (b : UInt8) : Option UInt8 :=
  if b = quote || b = backslash || b = 0x2F then some b
  else if b = 0x62 then some 0x08
  else if b = 0x66 then some 0x0C
  else if b = 0x6E then some 0x0A
  else if b = 0x72 then some 0x0D
  else if b = 0x74 then some 0x09
  else none

/-- The letter after a backslash that announces a code unit. -/
abbrev unitLetter : UInt8 := 0x75

/-- Reads the second half of a pair of code units whose first is `high`. -/
def lowUnit (high : Nat) : List UInt8 → Except Fault (List UInt8 × List UInt8)
  | [] => .error .ended
  | b :: rest =>
    if b ≠ backslash then .error .malformed
    else match rest with
      | [] => .error .ended
      | c :: rest =>
        if c ≠ unitLetter then .error .malformed
        else match hexUnit rest with
          | .error f => .error f
          | .ok (low, rest) =>
            if 0xDC00 ≤ low ∧ low ≤ 0xDFFF then
              .ok (String.utf8EncodeChar
                (Char.ofNat (0x10000 + (high - 0xD800) * 0x400 + (low - 0xDC00))), rest)
            else .error .malformed

theorem lowUnit_length {high : Nat} {s u r : List UInt8} (h : lowUnit high s = .ok (u, r)) :
    r.length < s.length := by
  match s with
  | [] => cases h
  | [b] => simp only [lowUnit] at h; split at h <;> cases h
  | b :: c :: rest =>
    simp only [lowUnit] at h
    split at h
    · cases h
    split at h
    · cases h
    split at h
    · cases h
    next hu =>
      split at h
      · simp only [Except.ok.injEq, Prod.mk.injEq] at h
        obtain ⟨-, rfl⟩ := h
        have := hexUnit_length hu
        simp only [List.length_cons]; omega
      · cases h

/-- Reads an escape behind its backslash, to the bytes that it stands for. -/
def escape : List UInt8 → Except Fault (List UInt8 × List UInt8)
  | [] => .error .ended
  | b :: rest =>
    if b = unitLetter then
      match hexUnit rest with
      | .error f => .error f
      | .ok (unit, rest) =>
        if 0xDC00 ≤ unit ∧ unit ≤ 0xDFFF then .error .malformed
        else if 0xD800 ≤ unit ∧ unit ≤ 0xDBFF then lowUnit unit rest
        else .ok (String.utf8EncodeChar (Char.ofNat unit), rest)
    else match simpleEscape? b with
      | some c => .ok ([c], rest)
      | none => .error .malformed

theorem escape_length {s u r : List UInt8} (h : escape s = .ok (u, r)) : r.length < s.length := by
  cases s with
  | nil => cases h
  | cons b rest =>
    simp only [escape] at h
    split at h
    · split at h
      · cases h
      · next hu =>
        have := hexUnit_length hu
        repeat' split at h
        · cases h
        · have := lowUnit_length h; simp only [List.length_cons]; omega
        · simp only [Except.ok.injEq, Prod.mk.injEq] at h
          obtain ⟨-, rfl⟩ := h
          simp only [List.length_cons]; omega
    · split at h
      · cases h; simp
      · cases h

/-- Reads a string from behind its opening quote, to its bytes. -/
def content (s : List UInt8) : Except Fault (List UInt8 × List UInt8) :=
  match s with
  | [] => .error .ended
  | b :: rest =>
    if b = quote then .ok ([], rest)
    else if b = backslash then
      match _h : escape rest with
      | .error f => .error f
      | .ok (u, r) => (content r).map fun p => (u ++ p.1, p.2)
    else if b < 0x20 then .error .malformed
    else (content rest).map fun p => (b :: p.1, p.2)
termination_by s.length
decreasing_by
  · have := escape_length _h; simp only [List.length_cons]; omega
  · simp

theorem content_length {s u r : List UInt8} (h : content s = .ok (u, r)) : r.length < s.length := by
  fun_induction content s generalizing u r with
  | case1 => cases h
  | case2 => cases h; simp
  | case3 => cases h
  | case4 rest v q he _ ih =>
    obtain ⟨⟨p, q⟩, hp, e⟩ : ∃ p, content q = .ok p ∧ (v ++ p.1, p.2) = (u, r) := by
      cases hc : content q <;> simp_all [Except.map]
    cases e
    have := ih hp; have := escape_length he; simp only [List.length_cons]; omega
  | case5 => cases h
  | case6 b rest _ _ _ ih =>
    obtain ⟨⟨p, q⟩, hp, e⟩ : ∃ p, content rest = .ok p ∧ (b :: p.1, p.2) = (u, r) := by
      cases hc : content rest <;> simp_all [Except.map]
    cases e
    have := ih hp; simp only [List.length_cons]; omega

/-- Reads a string from behind its opening quote. -/
def stringBody (s : List UInt8) : Except Fault (String × List UInt8) :=
  match content s with
  | .error f => .error f
  | .ok (u, r) =>
    match Text.ofUtf8? u with
    | some t => .ok (t, r)
    | none => .error .malformed

theorem stringBody_length {s r : List UInt8} {t : String} (h : stringBody s = .ok (t, r)) :
    r.length < s.length := by
  unfold stringBody at h
  split at h
  · cases h
  · next hc =>
    split at h
    · cases h; exact content_length hc
    · cases h

/-- Skips a string from behind its opening quote. -/
def skipString (s : List UInt8) : Except Fault (List UInt8) :=
  match s with
  | [] => .error .ended
  | b :: rest =>
    if b = quote then .ok rest
    else if b = backslash then
      match rest with
      | [] => .error .ended
      | c :: rest =>
        if c = unitLetter then
          match _h : hexUnit rest with
          | .error f => .error f
          | .ok (_, r) => skipString r
        else if (simpleEscape? c).isSome then skipString rest
        else .error .malformed
    else if b < 0x20 then .error .malformed
    else skipString rest
termination_by s.length
decreasing_by
  · have := hexUnit_length _h; simp only [List.length_cons]; omega
  · simp only [List.length_cons]; omega
  · simp

theorem skipString_length {s r : List UInt8} (h : skipString s = .ok r) : r.length < s.length := by
  fun_induction skipString s with
  | case1 | case3 | case4 | case7 | case8 => cases h
  | case2 => cases h; simp
  | case5 _ _ _ hu _ ih => have := ih h; have := hexUnit_length hu; simp only [List.length_cons]; omega
  | case6 _ _ _ _ _ ih => have := ih h; simp only [List.length_cons]; omega
  | case9 _ _ _ _ _ ih => have := ih h; simp only [List.length_cons]; omega

end Discovery.Json
