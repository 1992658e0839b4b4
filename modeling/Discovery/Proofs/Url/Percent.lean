import Discovery.Proofs.Text.Utf8
import Discovery.Url.Percent

/-!
# Percent-encoding is undone

What each byte is written as is read back to that byte, whatever follows, as long as no percent sign
stands for itself (`percentDecode_percentEncode`). A writing holds only characters that are kept and
those of escapes.
-/

namespace Discovery.Url

variable {c : Char} {b : UInt8} {bs : List UInt8} {cs rest : List Char} {keep : Char → Bool}

/-- The characters that escapes are made of. -/
def escapeChars : List Char := "%0123456789ABCDEF".toList

theorem hexDigit_mem_escapeChars : ∀ n < 16, hexDigit n ∈ escapeChars := by decide

theorem hexValue?_hexDigit : ∀ n < 16, hexValue? (hexDigit n) = some n := by decide

theorem mem_escapeChars_of_mem_encodeByte (hc : c ∈ encodeByte b) : c ∈ escapeChars := by
  have hb : b.toNat < 256 := b.toNat_lt
  simp only [encodeByte, List.mem_cons, List.not_mem_nil, or_false] at hc
  obtain rfl | rfl | rfl := hc
  · decide
  · exact hexDigit_mem_escapeChars _ (by omega)
  · exact hexDigit_mem_escapeChars _ (by omega)

theorem mem_percentEncode (hc : c ∈ percentEncode keep bs) : c ∈ escapeChars ∨
    keep c = true ∧ ∃ b ∈ bs, b.toNat < 0x80 ∧ Char.ofNat b.toNat = c := by
  obtain ⟨b, hb, hcb⟩ := List.mem_flatMap.1 hc
  simp only at hcb
  split at hcb
  · next h =>
    rw [Bool.and_eq_true, decide_eq_true_eq, UInt8.lt_iff_toNat_lt] at h
    cases List.mem_singleton.1 hcb
    exact .inr ⟨h.2, b, hb, h.1, rfl⟩
  · exact .inl (mem_escapeChars_of_mem_encodeByte hcb)

/-- A character that is neither kept nor part of an escape is in no writing. -/
theorem notMem_percentEncode (hkeep : keep c = false) (hescape : c ∉ escapeChars) :
    c ∉ percentEncode keep bs := by
  intro hc
  obtain h | ⟨h, -⟩ := mem_percentEncode hc
  · exact hescape h
  · exact Bool.false_ne_true (hkeep ▸ h)

theorem mem_of_mem_percentEncode_utf8 {s : String} (hescape : c ∉ escapeChars)
    (hc : c ∈ percentEncode keep (Text.utf8 s)) : c ∈ s.toList := by
  obtain h | ⟨-, b, hb, hlt, rfl⟩ := mem_percentEncode hc
  · exact absurd h hescape
  · exact Text.ofNat_mem_of_mem_utf8 hb hlt

/-! ## Reading back -/

theorem percentDecode_cons (hc : c ≠ '%') (rest : List Char) :
    percentDecode (c :: rest) = String.utf8EncodeChar c ++ percentDecode rest := by
  rw [percentDecode.eq_def]
  split
  · next h => exact absurd (List.cons.inj h).1 hc
  · next h => cases h; rfl
  · next h => cases h

theorem percentDecode_encodeByte (b : UInt8) (rest : List Char) :
    percentDecode (encodeByte b ++ rest) = b :: percentDecode rest := by
  have hb : b.toNat < 256 := b.toNat_lt
  simp only [encodeByte, List.cons_append, List.nil_append, percentDecode,
    hexValue?_hexDigit (b.toNat / 16) (by omega), hexValue?_hexDigit (b.toNat % 16) (by omega)]
  rw [Nat.div_add_mod, UInt8.ofNat_toNat]

/-- A byte that stands for itself. -/
theorem percentDecode_ofNat (hb : b.toNat < 0x80) (hpercent : Char.ofNat b.toNat ≠ '%')
    (rest : List Char) : percentDecode (Char.ofNat b.toNat :: rest) = b :: percentDecode rest := by
  rw [percentDecode_cons hpercent, Text.utf8EncodeChar_ofNat hb, List.singleton_append]

/-- Bytes that are read back one by one are read back together. -/
theorem percentDecode_flatMap {write : UInt8 → List Char}
    (hwrite : ∀ b rest, percentDecode (write b ++ rest) = b :: percentDecode rest)
    (bs : List UInt8) : percentDecode (bs.flatMap write) = bs := by
  induction bs with
  | nil => rfl
  | cons b bs ih => rw [List.flatMap_cons, hwrite, ih]

theorem percentDecode_percentEncode (hkeep : keep '%' = false) (bs : List UInt8) :
    percentDecode (percentEncode keep bs) = bs := by
  apply percentDecode_flatMap
  intro b rest
  simp only
  split
  · next h =>
    rw [Bool.and_eq_true, decide_eq_true_eq, UInt8.lt_iff_toNat_lt] at h
    refine percentDecode_ofNat h.1 ?_ rest
    intro hc
    rw [hc, hkeep] at h
    exact Bool.false_ne_true h.2
  · exact percentDecode_encodeByte b rest

end Discovery.Url
