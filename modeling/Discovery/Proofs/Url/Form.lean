import Mathlib.Data.List.Basic
import Discovery.Proofs.Url.Percent
import Discovery.Url.Form

/-!
# Form-encoded parameters are read back

No writing of a name or value holds `&` or `=`, so the cuts of the reader fall where the writer put
these signs, and each part is read back to its bytes (`formPairs_formText`). Hence a query string
fixes the parameters that it was written for, and their order.
-/

namespace Discovery.Url

variable {c : Char} {ps qs : List (String × String)}

/-- A sign that no name or value is written with, such as those between the parts of a query
string. -/
def IsFormSign (c : Char) : Prop := c ≠ '+' ∧ c ∉ escapeChars ∧ keepsForm c = false

instance : Decidable (IsFormSign c) := inferInstanceAs (Decidable (_ ∧ _ ∧ _))

theorem IsFormSign.notMem_formEncode (hsign : IsFormSign c) (s : String) : c ∉ formEncode s := by
  intro hc
  obtain ⟨hplus, hescape, hkeep⟩ := hsign
  obtain ⟨b, -, hcb⟩ := List.mem_flatMap.1 hc
  simp only at hcb
  split at hcb
  · exact hplus (List.mem_singleton.1 hcb)
  · split at hcb
    · next h =>
      cases List.mem_singleton.1 hcb
      exact Bool.false_ne_true (hkeep ▸ (Bool.and_eq_true_iff.1 h).2)
    · exact hescape (mem_escapeChars_of_mem_encodeByte hcb)

theorem IsFormSign.notMem_formPair (hsign : IsFormSign c) (hequal : c ≠ '=')
    (p : String × String) : c ∉ formPair p := by
  simp only [formPair, List.mem_append, List.mem_cons, not_or]
  exact ⟨hsign.notMem_formEncode p.1, hequal, hsign.notMem_formEncode p.2⟩

theorem formText_cons_cons (p q : String × String) (ps : List (String × String)) :
    formText (p :: q :: ps) = formPair p ++ '&' :: formText (q :: ps) := rfl

theorem formText_eq_intercalate (ps : List (String × String)) :
    formText ps = ['&'].intercalate (ps.map formPair) := by
  induction ps with
  | nil => rfl
  | cons p ps ih =>
    cases ps with
    | nil => simp [formText]
    | cons q ps =>
      rw [formText_cons_cons, ih]
      simp only [List.map_cons, List.intercalate_cons_cons, List.append_assoc,
        List.singleton_append]

theorem IsFormSign.notMem_formText (hsign : IsFormSign c) (hequal : c ≠ '=') (hampersand : c ≠ '&')
    (ps : List (String × String)) : c ∉ formText ps := by
  induction ps with
  | nil => exact List.not_mem_nil
  | cons p ps ih =>
    have hp := hsign.notMem_formPair hequal p
    cases ps with
    | nil => exact hp
    | cons q ps =>
      rw [formText_cons_cons, List.mem_append, List.mem_cons]
      rintro (h | h | h)
      · exact hp h
      · exact hampersand h
      · exact ih h

/-! ## Reading back -/

theorem formDecode_formEncode (s : String) : formDecode (formEncode s) = Text.utf8 s := by
  rw [formDecode, formEncode, List.map_flatMap]
  apply percentDecode_flatMap
  intro b rest
  simp only
  -- each plus is turned into a space first, so none may come from a kept byte or an escape
  split
  · next h =>
    have hspace : Char.ofNat b.toNat = ' ' := by rw [h]; rfl
    rw [List.map_singleton, if_pos rfl, ← hspace]
    exact percentDecode_ofNat (by rw [h]; decide) (by rw [hspace]; decide) rest
  · split
    · next h =>
      rw [Bool.and_eq_true, decide_eq_true_eq, UInt8.lt_iff_toNat_lt] at h
      have hne (c : Char) (hc : keepsForm c = false) : Char.ofNat b.toNat ≠ c := by
        intro e
        rw [e, hc] at h
        exact Bool.false_ne_true h.2
      rw [List.map_singleton, if_neg (hne '+' (by decide))]
      exact percentDecode_ofNat h.1 (hne '%' (by decide)) rest
    · have hplus : (encodeByte b).map (fun c => if c = '+' then ' ' else c) = encodeByte b := by
        refine (List.map_congr_left fun c hc => ?_).trans (List.map_id _)
        have hc := mem_escapeChars_of_mem_encodeByte hc
        exact if_neg fun e => absurd (e ▸ hc) (by decide)
      rw [hplus]
      exact percentDecode_encodeByte b rest

theorem formPairs_formText (ps : List (String × String)) :
    formPairs (formText ps) = ps.map fun p => (Text.utf8 p.1, Text.utf8 p.2) := by
  cases ps with
  | nil => rfl
  | cons p ps =>
    have hpieces : Text.pieces '&' (formText (p :: ps)) = (p :: ps).map formPair := by
      rw [Text.pieces_eq_iff (by simp)]
      refine ⟨formText_eq_intercalate _, fun piece hpiece => ?_⟩
      obtain ⟨q, -, rfl⟩ := List.mem_map.1 hpiece
      exact IsFormSign.notMem_formPair (by decide) (by decide) q
    have hcut (p : String × String) :
        Text.cutFirst '=' (formPair p) = some (formEncode p.1, formEncode p.2) :=
      Text.cutFirst_eq_some_iff.2
        ⟨rfl, IsFormSign.notMem_formEncode (by decide) p.1⟩
    have hnonempty : ∀ piece ∈ (p :: ps).map formPair, decide (piece ≠ []) = true := by
      intro piece hpiece
      obtain ⟨q, -, rfl⟩ := List.mem_map.1 hpiece
      simp [formPair]
    rw [formPairs, hpieces, List.filter_eq_self.2 hnonempty, List.map_map]
    apply List.map_congr_left
    intro p _
    simp only [Function.comp_apply, hcut, Option.getD_some, formDecode_formEncode]

/-- A query string fixes its parameters. -/
theorem formText_injective (h : formText ps = formText qs) : ps = qs := by
  have hpairs := congrArg formPairs h
  rw [formPairs_formText, formPairs_formText] at hpairs
  refine List.map_injective_iff.2 ?_ hpairs
  intro p q hpq
  obtain ⟨hname, hvalue⟩ := Prod.mk.inj hpq
  exact Prod.ext (Text.utf8_injective hname) (Text.utf8_injective hvalue)

end Discovery.Url
