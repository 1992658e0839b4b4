import Discovery.Text.Utf8

/-!
# UTF-8 is read back

Reading the bytes of a text gives the text (`Text.ofUtf8?_utf8`), so no two texts have the same
bytes. A byte below 0x80 is a character of its own, wherever it stands: it is no part of the writing
of another one.
-/

namespace Discovery.Text

variable {c : Char} {b : UInt8} {s t : String}

theorem utf8EncodeChar_of_lt (h : c.toNat < 0x80) :
    String.utf8EncodeChar c = [UInt8.ofNat c.toNat] := by
  have hle : c.val.toNat ≤ 0x7F := Nat.le_of_lt_succ h
  simp only [String.utf8EncodeChar, hle, ↓reduceIte]
  rfl

theorem toNat_ofNat_of_lt : ∀ n < 0x80, (Char.ofNat n).toNat = n := by decide

/-- A byte below 0x80 is the writing of a character. -/
theorem utf8EncodeChar_ofNat (hb : b.toNat < 0x80) :
    String.utf8EncodeChar (Char.ofNat b.toNat) = [b] := by
  have hnat := toNat_ofNat_of_lt b.toNat hb
  have hlt : (Char.ofNat b.toNat).toNat < 0x80 := by rwa [hnat]
  rw [utf8EncodeChar_of_lt hlt, hnat, UInt8.ofNat_toNat]

theorem le_of_mem_utf8EncodeChar (h : 0x80 ≤ c.toNat) (hb : b ∈ String.utf8EncodeChar c) :
    0x80 ≤ b.toNat := by
  have hnot : ¬c.val.toNat ≤ 0x7F := Nat.not_le.2 h
  simp only [String.utf8EncodeChar, hnot, ↓reduceIte] at hb
  split at hb
  · simp only [List.mem_cons, List.not_mem_nil, or_false] at hb
    rcases hb with rfl | rfl <;> simp only [UInt8.toNat_ofNat'] <;> omega
  · split at hb
    · simp only [List.mem_cons, List.not_mem_nil, or_false] at hb
      rcases hb with rfl | rfl | rfl <;> simp only [UInt8.toNat_ofNat'] <;> omega
    · simp only [List.mem_cons, List.not_mem_nil, or_false] at hb
      rcases hb with rfl | rfl | rfl | rfl <;> simp only [UInt8.toNat_ofNat'] <;> omega

/-- A byte below 0x80 comes from the character with that code point. -/
theorem ofNat_mem_of_mem_utf8 (hb : b ∈ utf8 s) (h : b.toNat < 0x80) :
    Char.ofNat b.toNat ∈ s.toList := by
  obtain ⟨c, hc, hbc⟩ := List.mem_flatMap.1 hb
  by_cases hlt : c.toNat < 0x80
  · rw [utf8EncodeChar_of_lt hlt, List.mem_singleton] at hbc
    have hnat : b.toNat = c.toNat := by
      rw [hbc, UInt8.toNat_ofNat', Nat.mod_eq_of_lt (by omega)]
    rw [hnat, Char.ofNat_toNat]
    exact hc
  · exact absurd (le_of_mem_utf8EncodeChar (Nat.le_of_not_lt hlt) hbc) (Nat.not_le.2 h)

/-! ## One character -/

theorem readUtf8_cons (st : Utf8State) (b : UInt8) (bs : List UInt8) :
    readUtf8 st (b :: bs) = match st.next b with
      | none => none
      | some (st', none) => readUtf8 st' bs
      | some (st', some c) => (readUtf8 st' bs).map (c :: ·) := by
  cases st <;> rfl

/-- The first byte of a writing of two bytes. -/
theorem first_of_two : ∀ n < 0x20, 2 ≤ n →
    Utf8State.first (UInt8.ofNat (n + 0xC0)) = some (.within 0 n 0x80 0xBF, none) := by
  decide

/-- The first byte of a writing of three bytes. Overlong writings and surrogates are kept out by
what may follow it. -/
theorem first_of_three : ∀ n < 0x10, Utf8State.first (UInt8.ofNat (n + 0xE0)) =
    some (.within 1 n (if n = 0 then 0xA0 else 0x80) (if n = 0xD then 0x9F else 0xBF), none) := by
  decide

/-- The first byte of a writing of four bytes. Overlong writings and code points past the last one
are kept out by what may follow it. -/
theorem first_of_four : ∀ n < 5, Utf8State.first (UInt8.ofNat (n + 0xF0)) =
    some (.within 2 n (if n = 0 then 0x90 else 0x80) (if n = 4 then 0x8F else 0xBF), none) := by
  decide

theorem next_within {owed high n : Nat} {low top : UInt8} (hn : n < 0x40)
    (hlow : low.toNat ≤ n + 0x80) (htop : n + 0x80 ≤ top.toNat) :
    Utf8State.next (.within owed high low top) (UInt8.ofNat (n + 0x80)) =
      match owed with
      | 0 => some (.start, some (Char.ofNat (high * 0x40 + n)))
      | m + 1 => some (.within m (high * 0x40 + n) 0x80 0xBF, none) := by
  have hnat : (UInt8.ofNat (n + 0x80)).toNat = n + 0x80 := by
    rw [UInt8.toNat_ofNat', Nat.mod_eq_of_lt (by omega)]
  have hin : (decide (low ≤ UInt8.ofNat (n + 0x80)) && decide (UInt8.ofNat (n + 0x80) ≤ top)) =
      true := by
    simp only [Bool.and_eq_true, decide_eq_true_eq, UInt8.le_iff_toNat_le, hnat]
    exact ⟨hlow, htop⟩
  cases owed <;> simp only [Utf8State.next, hin, ↓reduceIte, hnat, Nat.add_sub_cancel]

/-- A later byte of any writing. -/
theorem next_tail {owed high n : Nat} (hn : n < 0x40) :
    Utf8State.next (.within owed high 0x80 0xBF) (UInt8.ofNat (n + 0x80)) =
      match owed with
      | 0 => some (.start, some (Char.ofNat (high * 0x40 + n)))
      | m + 1 => some (.within m (high * 0x40 + n) 0x80 0xBF, none) :=
  next_within hn (Nat.le_add_left _ n) (by have := hn; simp; omega)

theorem readUtf8_one {n : Nat} (hn : n < 0x80) (bs : List UInt8) :
    readUtf8 .start (UInt8.ofNat n :: bs) = (readUtf8 .start bs).map (Char.ofNat n :: ·) := by
  have hnat : (UInt8.ofNat n).toNat = n := by
    rw [UInt8.toNat_ofNat', Nat.mod_eq_of_lt (by omega)]
  have hfirst : Utf8State.first (UInt8.ofNat n) = some (.start, some (Char.ofNat n)) := by
    simp [Utf8State.first, UInt8.lt_iff_toNat_lt, hnat, hn]
  rw [readUtf8_cons]
  simp only [Utf8State.next, hfirst]

theorem readUtf8_two {x y : Nat} (hx : x < 0x20) (hlong : 2 ≤ x) (hy : y < 0x40)
    (bs : List UInt8) :
    readUtf8 .start (UInt8.ofNat (x + 0xC0) :: UInt8.ofNat (y + 0x80) :: bs) =
      (readUtf8 .start bs).map (Char.ofNat (x * 0x40 + y) :: ·) := by
  rw [readUtf8_cons]
  simp only [Utf8State.next, first_of_two x hx hlong]
  rw [readUtf8_cons, next_tail hy]

theorem readUtf8_three {x y z : Nat} (hx : x < 0x10) (hy : y < 0x40) (hz : z < 0x40)
    (hlong : x = 0 → 0x20 ≤ y) (hsurrogate : x = 0xD → y < 0x20) (bs : List UInt8) :
    readUtf8 .start (UInt8.ofNat (x + 0xE0) :: UInt8.ofNat (y + 0x80) ::
      UInt8.ofNat (z + 0x80) :: bs) =
      (readUtf8 .start bs).map (Char.ofNat ((x * 0x40 + y) * 0x40 + z) :: ·) := by
  have hlow : (if x = 0 then 0xA0 else 0x80 : UInt8).toNat ≤ y + 0x80 := by
    split
    · next h => exact Nat.add_le_add_right (hlong h) 0x80
    · exact Nat.le_add_left 0x80 y
  have htop : y + 0x80 ≤ (if x = 0xD then 0x9F else 0xBF : UInt8).toNat := by
    split
    · next h => exact Nat.add_le_add_right (Nat.le_of_lt_succ (hsurrogate h)) 0x80
    · exact Nat.add_le_add_right (Nat.le_of_lt_succ hy) 0x80
  rw [readUtf8_cons]
  simp only [Utf8State.next, first_of_three x hx]
  rw [readUtf8_cons, next_within hy hlow htop]
  simp only
  rw [readUtf8_cons, next_tail hz]

theorem readUtf8_four {x y z w : Nat} (hx : x < 5) (hy : y < 0x40) (hz : z < 0x40) (hw : w < 0x40)
    (hlong : x = 0 → 0x10 ≤ y) (hlast : x = 4 → y < 0x10) (bs : List UInt8) :
    readUtf8 .start (UInt8.ofNat (x + 0xF0) :: UInt8.ofNat (y + 0x80) ::
      UInt8.ofNat (z + 0x80) :: UInt8.ofNat (w + 0x80) :: bs) =
      (readUtf8 .start bs).map (Char.ofNat (((x * 0x40 + y) * 0x40 + z) * 0x40 + w) :: ·) := by
  have hlow : (if x = 0 then 0x90 else 0x80 : UInt8).toNat ≤ y + 0x80 := by
    split
    · next h => exact Nat.add_le_add_right (hlong h) 0x80
    · exact Nat.le_add_left 0x80 y
  have htop : y + 0x80 ≤ (if x = 4 then 0x8F else 0xBF : UInt8).toNat := by
    split
    · next h => exact Nat.add_le_add_right (Nat.le_of_lt_succ (hlast h)) 0x80
    · exact Nat.add_le_add_right (Nat.le_of_lt_succ hy) 0x80
  rw [readUtf8_cons]
  simp only [Utf8State.next, first_of_four x hx]
  rw [readUtf8_cons, next_within hy hlow htop]
  simp only
  rw [readUtf8_cons, next_tail hz]
  simp only
  rw [readUtf8_cons, next_tail hw]

theorem readUtf8_utf8EncodeChar (c : Char) (bs : List UInt8) :
    readUtf8 .start (String.utf8EncodeChar c ++ bs) = (readUtf8 .start bs).map (c :: ·) := by
  obtain ⟨n, hn⟩ : ∃ n, c.val.toNat = n := ⟨_, rfl⟩
  -- no surrogate, and none past the last code point
  have hvalid : n < 0xD800 ∨ 0xDFFF < n ∧ n < 0x110000 := hn ▸ c.valid
  have hchar : c = Char.ofNat n := hn ▸ (Char.ofNat_toNat c).symm
  simp only [String.utf8EncodeChar, hn]
  split
  · have h := readUtf8_one (n := n) (by omega) bs
    rwa [← hchar] at h
  split
  · have h := readUtf8_two (x := n / 64 % 0x20) (y := n % 0x40) (by omega) (by omega) (by omega) bs
    rwa [show n / 64 % 0x20 * 0x40 + n % 0x40 = n by omega, ← hchar] at h
  split
  · have h := readUtf8_three (x := n / 4096 % 0x10) (y := n / 64 % 0x40) (z := n % 0x40)
      (by omega) (by omega) (by omega) (by omega) (by omega) bs
    rwa [show (n / 4096 % 0x10 * 0x40 + n / 64 % 0x40) * 0x40 + n % 0x40 = n by omega,
      ← hchar] at h
  · have h := readUtf8_four (x := n / 262144 % 0x08) (y := n / 4096 % 0x40) (z := n / 64 % 0x40)
      (w := n % 0x40) (by omega) (by omega) (by omega) (by omega) (by omega) (by omega) bs
    rwa [show ((n / 262144 % 0x08 * 0x40 + n / 4096 % 0x40) * 0x40 + n / 64 % 0x40) * 0x40 +
      n % 0x40 = n by omega, ← hchar] at h

/-! ## Texts -/

theorem readUtf8_flatMap (cs : List Char) :
    readUtf8 .start (cs.flatMap String.utf8EncodeChar) = some cs := by
  induction cs with
  | nil => rfl
  | cons c cs ih => rw [List.flatMap_cons, readUtf8_utf8EncodeChar, ih, Option.map_some]

/-- The bytes of a text are read back. -/
theorem ofUtf8?_utf8 (s : String) : ofUtf8? (utf8 s) = some s := by
  rw [ofUtf8?, utf8, readUtf8_flatMap, Option.map_some, String.ofList_toList]

theorem utf8_injective (h : utf8 s = utf8 t) : s = t := by
  have hread := congrArg ofUtf8? h
  rwa [ofUtf8?_utf8, ofUtf8?_utf8, Option.some.injEq] at hread

end Discovery.Text
