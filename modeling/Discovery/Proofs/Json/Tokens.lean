import Mathlib.Data.List.Basic
import Discovery.Json.Numeral
import Discovery.Proofs.Json.Legible
import Discovery.Proofs.Text.Utf8

/-!
# Tokens are read back

The reader of strings undoes the escapes of the writer, one character at a time
(`stringBody_bytes`), and the reader of numbers gets a natural number from its digits
(`boundedNumeral_number`), as long as nothing follows that a number goes on with (`Ends`).
-/

namespace Discovery.Json

variable {c : Char} {cs : List Char} {b : UInt8} {bs r s u : List UInt8}

/-- The bytes of some characters. -/
def bytes (cs : List Char) : List UInt8 := cs.flatMap String.utf8EncodeChar

theorem utf8_eq_bytes (s : String) : Text.utf8 s = bytes s.toList := rfl

theorem bytes_append (cs ds : List Char) : bytes (cs ++ ds) = bytes cs ++ bytes ds :=
  List.flatMap_append

theorem bytes_cons (c : Char) (cs : List Char) :
    bytes (c :: cs) = String.utf8EncodeChar c ++ bytes cs := List.flatMap_cons

theorem bytes_singleton (c : Char) : bytes [c] = String.utf8EncodeChar c := List.append_nil _

/-! ## Strings -/

/-- A byte that stands for itself in a string. -/
def Plain (b : UInt8) : Prop := b ≠ quote ∧ b ≠ backslash ∧ ¬b < 0x20

theorem plain_of_mem_utf8EncodeChar (hc : c ∉ escaped) (hb : b ∈ String.utf8EncodeChar c) :
    Plain b := by
  by_cases hlt : c.toNat < 0x80
  · rw [Text.utf8EncodeChar_of_lt hlt, List.mem_singleton] at hb
    have hnat : b.toNat = c.toNat := by
      rw [hb, UInt8.toNat_ofNat', Nat.mod_eq_of_lt (by omega)]
    have hne (d : Char) (hd : d ∈ escaped) : b.toNat ≠ d.toNat := fun h =>
      hc (Char.toNat_inj.1 (hnat ▸ h) ▸ hd)
    refine ⟨?_, ?_, ?_⟩
    · rintro rfl
      exact hne '"' (by decide) rfl
    · rintro rfl
      exact hne '\\' (by decide) rfl
    · intro h
      exact hc (mem_escaped_of_lt (hnat ▸ UInt8.lt_iff_toNat_lt.1 h))
  · have hle := Text.le_of_mem_utf8EncodeChar (Nat.le_of_not_lt hlt) hb
    refine ⟨?_, ?_, ?_⟩
    · rintro rfl
      exact absurd hle (by decide)
    · rintro rfl
      exact absurd hle (by decide)
    · intro h
      have hb' := UInt8.lt_iff_toNat_lt.1 h
      exact absurd (Nat.lt_of_le_of_lt hle hb') (by decide)

theorem content_cons_plain (hb : Plain b) (s : List UInt8) :
    content (b :: s) = (content s).map fun p => (b :: p.1, p.2) := by
  rw [content, if_neg hb.1, if_neg hb.2.1, if_neg hb.2.2]

theorem content_append_plain (hbs : ∀ b ∈ bs, Plain b) (s : List UInt8) :
    content (bs ++ s) = (content s).map fun p => (bs ++ p.1, p.2) := by
  induction bs with
  | nil => cases h : content s <;> simp [Except.map, h]
  | cons b bs ih =>
    rw [List.cons_append, content_cons_plain (hbs b List.mem_cons_self),
      ih fun d hd => hbs d (List.mem_cons_of_mem b hd)]
    cases content s <;> rfl

theorem content_escape (h : escape s = .ok (u, r)) :
    content (backslash :: s) = (content r).map fun p => (u ++ p.1, p.2) := by
  rw [content, if_neg (by decide), if_pos rfl]
  split
  · next he =>
    rw [h] at he
    cases he
  · next he =>
    rw [h] at he
    cases he
    rfl

theorem hexDigit?_digitChar : ∀ n < 16,
    String.utf8EncodeChar (Nat.digitChar n) = [UInt8.ofNat (Nat.digitChar n).toNat] ∧
      hexDigit? (UInt8.ofNat (Nat.digitChar n).toNat) = some n := by
  decide

/-- A control is read back from its two digits. -/
theorem escape_unit {m n : Nat} (hm : m < 16) (hn : n < 16) (hc : c.toNat = m * 16 + n)
    (hlt : c.toNat < 0x20) (r : List UInt8) :
    escape (bytes ['u', '0', '0', Nat.digitChar m, Nat.digitChar n] ++ r) =
      .ok (String.utf8EncodeChar c, r) := by
  obtain ⟨hm₁, hm₂⟩ := hexDigit?_digitChar m hm
  obtain ⟨hn₁, hn₂⟩ := hexDigit?_digitChar n hn
  have hunit : hexUnit (bytes ['0', '0', Nat.digitChar m, Nat.digitChar n] ++ r) =
      .ok (c.toNat, r) := by
    have hbytes : bytes ['0', '0', Nat.digitChar m, Nat.digitChar n] ++ r =
        0x30 :: 0x30 :: UInt8.ofNat (Nat.digitChar m).toNat ::
          UInt8.ofNat (Nat.digitChar n).toNat :: r := by
      simp only [bytes_cons, hm₁, hn₁]
      rfl
    have hzero : hexDigit? 0x30 = some 0 := by decide
    rw [hbytes]
    simp only [hexUnit, hzero, hm₂, hn₂, hc, Nat.zero_mul, Nat.zero_add]
  have hbytes : bytes ['u', '0', '0', Nat.digitChar m, Nat.digitChar n] ++ r =
      unitLetter :: (bytes ['0', '0', Nat.digitChar m, Nat.digitChar n] ++ r) := by
    rw [bytes_cons]
    rfl
  have hlow : ¬(0xDC00 ≤ c.toNat ∧ c.toNat ≤ 0xDFFF) := by omega
  have hhigh : ¬(0xD800 ≤ c.toNat ∧ c.toNat ≤ 0xDBFF) := by omega
  rw [hbytes, escape, if_pos rfl, hunit]
  simp only [hlow, hhigh, if_false, Char.ofNat_toNat]

theorem escape_escapeChar (hc : c ∈ escaped) :
    ∃ cs, escapeChar c = '\\' :: cs ∧
      ∀ r, escape (bytes cs ++ r) = .ok (String.utf8EncodeChar c, r) := by
  unfold escapeChar
  split
  · next h =>
    obtain rfl | rfl : c = '"' ∨ c = '\\' := by simpa using h
    · exact ⟨_, rfl, fun r => rfl⟩
    · exact ⟨_, rfl, fun r => rfl⟩
  split
  · next h => exact ⟨_, rfl, fun r => h ▸ rfl⟩
  split
  · next h => exact ⟨_, rfl, fun r => h ▸ rfl⟩
  split
  · next h => exact ⟨_, rfl, fun r => h ▸ rfl⟩
  split
  · next h => exact ⟨_, rfl, fun r => h ▸ rfl⟩
  split
  · next h => exact ⟨_, rfl, fun r => h ▸ rfl⟩
  split
  · next hlt =>
    exact ⟨_, rfl, escape_unit (by omega) (by omega) (by omega) hlt⟩
  · next hquote _ _ _ _ _ hlt =>
    obtain rfl | hc := List.mem_cons.1 hc
    · exact absurd rfl hquote
    obtain rfl | hc := List.mem_cons.1 hc
    · exact absurd rfl hquote
    obtain ⟨n, hn, rfl⟩ := List.mem_map.1 hc
    rw [Text.toNat_ofNat_of_lt n (by have := List.mem_range.1 hn; omega)] at hlt
    exact absurd (List.mem_range.1 hn) hlt

theorem content_escapeChar (c : Char) (s : List UInt8) :
    content (bytes (escapeChar c) ++ s) =
      (content s).map fun p => (String.utf8EncodeChar c ++ p.1, p.2) := by
  by_cases hc : c ∈ escaped
  · obtain ⟨cs, hcs, hescape⟩ := escape_escapeChar hc
    have hbytes : bytes (escapeChar c) ++ s = backslash :: (bytes cs ++ s) := by
      rw [hcs, bytes_cons]
      rfl
    rw [hbytes]
    exact content_escape (hescape s)
  · rw [escapeChar_of_notMem hc, bytes_singleton]
    exact content_append_plain (fun b hb => plain_of_mem_utf8EncodeChar hc hb) s

theorem content_flatMap (cs : List Char) (s : List UInt8) :
    content (bytes (cs.flatMap escapeChar) ++ quote :: s) = .ok (bytes cs, s) := by
  induction cs with
  | nil =>
    rw [content.eq_def]
    rfl
  | cons c cs ih =>
    rw [List.flatMap_cons, bytes_append, List.append_assoc, content_escapeChar, ih, bytes_cons]
    rfl

/-- A string is read back, from behind its opening quote. -/
theorem stringBody_bytes (t : String) (s : List UInt8) :
    stringBody (bytes (t.toList.flatMap escapeChar) ++ quote :: s) = .ok (t, s) := by
  have hread : Text.ofUtf8? (bytes t.toList) = some t := Text.ofUtf8?_utf8 t
  rw [stringBody, content_flatMap]
  simp only [hread]

/-! ## Numbers -/

/-- Bytes that do not go on with a number. -/
def Ends (s : List UInt8) : Prop :=
  ∀ b, s.head? = some b → digit? b = none ∧ b ≠ point ∧ b ≠ 0x65 ∧ b ≠ 0x45

theorem Ends.nil : Ends [] := fun _ h => nomatch h

theorem Ends.cons (h : digit? b = none ∧ b ≠ point ∧ b ≠ 0x65 ∧ b ≠ 0x45) (s : List UInt8) :
    Ends (b :: s) := by
  rintro _ ⟨⟩
  exact h

/-- The values of digits. -/
def digitValues (cs : List Char) : List Nat := cs.map fun c => c.toNat - 0x30

theorem isDigit_iff : c.isDigit = true ↔ 0x30 ≤ c.toNat ∧ c.toNat ≤ 0x39 := by
  simp [Char.isDigit, UInt32.le_iff_toNat_le]

theorem utf8EncodeChar_digit (hc : c.isDigit = true) :
    ∃ b, String.utf8EncodeChar c = [b] ∧ digit? b = some (c.toNat - 0x30) := by
  obtain ⟨hlow, hhigh⟩ := isDigit_iff.1 hc
  refine ⟨_, Text.utf8EncodeChar_of_lt (by omega), ?_⟩
  have hnat : (UInt8.ofNat c.toNat).toNat = c.toNat :=
    UInt8.toNat_ofNat_of_lt (Nat.lt_of_le_of_lt hhigh (by decide))
  simp only [digit?, UInt8.le_iff_toNat_le, hnat]
  exact if_pos ⟨hlow, hhigh⟩

theorem digits_of_ends (hs : Ends s) : digits s = ([], s) := by
  cases s with
  | nil => rfl
  | cons b s => rw [digits, (hs b rfl).1]

theorem digits_bytes (hcs : ∀ c ∈ cs, c.isDigit = true) (hs : Ends s) :
    digits (bytes cs ++ s) = (digitValues cs, s) := by
  induction cs with
  | nil => exact digits_of_ends hs
  | cons c cs ih =>
    obtain ⟨b, hb, hdigit⟩ := utf8EncodeChar_digit (hcs c List.mem_cons_self)
    rw [bytes_cons, hb, List.singleton_append, List.cons_append, digits, hdigit,
      ih fun d hd => hcs d (List.mem_cons_of_mem c hd)]
    rfl

theorem isDigit_of_mem_number {n : Nat} (hc : c ∈ number n) : c.isDigit = true :=
  Nat.isDigit_of_mem_toDigits (by decide) (by decide) hc

theorem ofDigits_number (n : Nat) : ofDigits (digitValues (number n)) = n := by
  rw [ofDigits, digitValues, List.foldl_map]
  exact Nat.ofDigitChars_ten_toDigits

/-- No number but zero begins with a zero. -/
theorem head?_number {n : Nat} (hn : n ≠ 0) : (number n).head? ≠ some '0' := by
  induction n using Nat.strongRecOn with
  | ind n ih =>
    rw [number, Nat.toDigits_eq_if (by decide)]
    split
    · next hlt =>
      have hall : ∀ n < 10, n ≠ 0 → [Nat.digitChar n].head? ≠ some '0' := by decide
      exact hall n hlt hn
    · rw [List.head?_append_of_ne_nil _ Nat.toDigits_ne_nil]
      exact ih (n / 10) (by omega) (by omega)

theorem wholePart_number (n : Nat) (hs : Ends s) :
    wholePart (bytes (number n) ++ s) = .ok (digitValues (number n), s) := by
  have hdigits : digits (bytes (number n) ++ s) = (digitValues (number n), s) :=
    digits_bytes (fun c hc => isDigit_of_mem_number hc) hs
  have hne : digitValues (number n) ≠ [] := by
    rw [digitValues, Ne, List.map_eq_nil_iff]
    exact Nat.toDigits_ne_nil
  rw [wholePart, someDigits, hdigits, if_neg hne]
  split
  · next heq =>
    -- digits that begin with a zero are those of zero, which has one digit only
    simp only [Except.ok.injEq, Prod.mk.injEq, digitValues] at heq
    obtain ⟨c, cs, hnumber, hc, hcs⟩ := List.map_eq_cons_iff.1 heq.1
    obtain ⟨c', cs', rfl, -, -⟩ := List.map_eq_cons_iff.1 hcs
    by_cases hn : n = 0
    · rw [hn] at hnumber
      cases hnumber
    · have hdigit := isDigit_iff.1 (isDigit_of_mem_number (hnumber ▸ List.mem_cons_self))
      have hzero : c = '0' := Char.toNat_inj.1 (show c.toNat = 0x30 by omega)
      exact absurd (by rw [hnumber, hzero]; rfl) (head?_number hn)
  · rfl

theorem fractionPart_of_ends (hs : Ends s) : fractionPart s = .ok (none, s) := by
  cases s with
  | nil => rfl
  | cons b s => rw [fractionPart, if_neg (hs b rfl).2.1]

theorem exponentPart_of_ends (hs : Ends s) : exponentPart s = .ok (none, s) := by
  cases s with
  | nil => rfl
  | cons b s =>
    obtain ⟨-, -, he, hE⟩ := hs b rfl
    simp only [exponentPart, he, hE, decide_false, Bool.or_self, Bool.false_eq_true, if_false]

theorem le_foldl (m : Nat) (ds : List Nat) : m ≤ ds.foldl (fun n d => 10 * n + d) m := by
  induction ds generalizing m with
  | nil => exact Nat.le_refl m
  | cons d ds ih => exact Nat.le_trans (by omega) (ih (10 * m + d))

/-- A number that fits a word is absorbed whole. -/
theorem absorb_eq {m : Nat} {ds : List Nat}
    (h : ds.foldl (fun n d => 10 * n + d) m < Text.wordBound) :
    absorb m ds = (ds.foldl (fun n d => 10 * n + d) m, ds.length) := by
  induction ds generalizing m with
  | nil => rfl
  | cons d ds ih =>
    have hle := le_foldl (10 * m + d) ds
    rw [List.foldl_cons] at h
    rw [absorb, if_pos (Nat.lt_of_le_of_lt hle h), ih h]
    rfl

theorem boundedNumeral_number {n : Nat} (hn : n < Text.wordBound) (hs : Ends s) :
    boundedNumeral false (bytes (number n) ++ s) =
      .ok (⟨false, digitValues (number n), none, none⟩, s) := by
  have hfold := ofDigits_number n
  rw [ofDigits] at hfold
  have habsorb : absorb 0 (digitValues (number n)) = (n, (digitValues (number n)).length) := by
    rw [absorb_eq (hfold.symm ▸ hn), hfold]
  rw [boundedNumeral, numeral, wholePart_number n hs]
  simp only [fractionPart_of_ends hs, exponentPart_of_ends hs]
  rw [if_neg]
  simp [Numeral.tooLarge, habsorb, absorb]

end Discovery.Json
