import Mathlib.Data.List.Basic
import Discovery.Proofs.Query.Grammar
import Discovery.Proofs.Url.Percent
import Discovery.Url.Parser

/-!
# Hosts without marks

A question mark begins the query of a URL and a number sign its fragment. Neither stands in a host
that was read (`readSpecialHost_unmarked`, `readPlainHost_unmarked`): an address is written in digits
with signs between them, a domain name is made of characters that names may have, and in other hosts
such marks are refused.
-/

namespace Discovery.Url

open Query (bind_eq_ok_iff)

variable {c : Char} {cs ds : List Char} {keep : Char → Bool}

/-! ## Marks -/

/-- Whether a character begins a query or a fragment where it stands for itself. -/
def IsMark (c : Char) : Prop := c = '?' ∨ c = '#'

instance : DecidablePred IsMark := fun _ => inferInstanceAs (Decidable (_ ∨ _))

def Unmarked (cs : List Char) : Prop := ∀ c ∈ cs, ¬IsMark c

instance : DecidablePred Unmarked := fun cs => List.decidableBAll (fun c => ¬IsMark c) cs

theorem Unmarked.nil : Unmarked [] := fun _ h => nomatch h

theorem Unmarked.singleton (h : ¬IsMark c) : Unmarked [c] := by
  intro d hd
  rwa [List.mem_singleton.1 hd]

theorem Unmarked.append (hcs : Unmarked cs) (hds : Unmarked ds) : Unmarked (cs ++ ds) := by
  intro c hc
  exact (List.mem_append.1 hc).elim (hcs c) (hds c)

theorem Unmarked.intercalate {sep : List Char} {css : List (List Char)} (hsep : Unmarked sep)
    (hcss : ∀ cs ∈ css, Unmarked cs) : Unmarked (sep.intercalate css) := by
  induction css with
  | nil => exact .nil
  | cons cs css ih =>
    have hcs := hcss cs List.mem_cons_self
    cases css with
    | nil => simpa using hcs
    | cons ds css =>
      rw [List.intercalate_cons_cons]
      exact (hcs.append hsep).append (ih fun ds hds => hcss ds (List.mem_cons_of_mem cs hds))

theorem escapeChars_unmarked : Unmarked escapeChars := by decide

/-- What is not kept is not written. -/
theorem percentEncode_unmarked (hkeep : ∀ c, IsMark c → keep c = false) (bs : List UInt8) :
    Unmarked (percentEncode keep bs) := by
  intro c hc hmark
  obtain h | ⟨h, -⟩ := mem_percentEncode hc
  · exact escapeChars_unmarked c h hmark
  · exact Bool.false_ne_true (hkeep c hmark ▸ h)

theorem encodePart_unmarked (hkeep : ∀ c, IsMark c → keep c = false) (cs : List Char) :
    Unmarked (encodePart keep cs).toList := by
  rw [encodePart, String.toList_ofList]
  exact percentEncode_unmarked hkeep _

/-- Where there is no mark, encoding brings in none. -/
theorem Unmarked.encodePart (hcs : Unmarked cs) : Unmarked (encodePart keep cs).toList := by
  intro c hc hmark
  rw [Url.encodePart, String.toList_ofList] at hc
  have hescape : c ∉ escapeChars := fun h => escapeChars_unmarked c h hmark
  refine hcs c ?_ hmark
  simpa using mem_of_mem_percentEncode_utf8 hescape hc

/-! ## Numbers in hosts -/

theorem digitChar_notMark : ∀ n, ¬IsMark (Nat.digitChar n)
  | 0 | 1 | 2 | 3 | 4 | 5 | 6 | 7 | 8 | 9 | 10 | 11 | 12 | 13 | 14 | 15 => by decide
  | _ + 16 => show ¬IsMark '*' by decide

theorem toDigits_unmarked {base : Nat} (hbase : 1 < base) (n : Nat) :
    Unmarked (Nat.toDigits base n) := by
  induction n using Nat.strongRecOn with
  | ind n ih =>
    rw [Nat.toDigits_eq_if hbase]
    split
    · exact .singleton (digitChar_notMark n)
    · have hfront := ih (n / base) (Nat.div_lt_self (by omega) hbase)
      exact hfront.append (.singleton (digitChar_notMark _))

theorem decimal_unmarked (n : Nat) : Unmarked (Text.decimal n).toList := by
  rw [Text.decimal, String.toList_ofList]
  exact toDigits_unmarked (by decide) n

theorem ipv4Text_unmarked (address : Nat) : Unmarked (ipv4Text address).toList := by
  rw [ipv4Text, String.toList_intercalate, List.map_map]
  apply Unmarked.intercalate
  · decide
  · intro cs hcs
    obtain ⟨n, -, rfl⟩ := List.mem_map.1 hcs
    exact decimal_unmarked n

theorem ipv6Text_unmarked (pieces : List Nat) : Unmarked (ipv6Text pieces).toList := by
  have hcolon : Unmarked ":".toList := by decide
  have hjoin (ns : List Nat) : Unmarked (":".intercalate (ns.map hexText)).toList := by
    rw [String.toList_intercalate, List.map_map]
    apply Unmarked.intercalate hcolon
    intro cs hcs
    obtain ⟨n, -, rfl⟩ := List.mem_map.1 hcs
    rw [Function.comp_apply, hexText, String.toList_ofList]
    exact toDigits_unmarked (by decide) n
  unfold ipv6Text
  extract_lets join
  split
  split
  · exact hjoin pieces
  · rw [String.toList_append, String.toList_append]
    exact ((hjoin _).append (hcolon.append hcolon)).append (hjoin _)

/-! ## Domain names -/

theorem isDomainChar_notMark (h : isDomainChar c = true) : ¬IsMark c := by
  rintro (rfl | rfl) <;> revert h <;> decide

section
variable [Tables] {name : List Char}

/-- Whatever tables say of a name, marks are not taken from them. -/
theorem asciiDomain_unmarked (h : asciiDomain cs = some name) : Unmarked name := by
  have hname := (Option.filter_eq_some_iff.1 h).2
  exact fun c hc => isDomainChar_notMark (List.all_eq_true.1 hname c hc)

theorem readDomain_unmarked (h : readDomain cs = .ok name) : Unmarked name := by
  unfold readDomain at h
  split at h
  · cases h
  · split at h
    · cases h
    · cases h
    · next hname =>
      cases h
      exact asciiDomain_unmarked hname

end

/-! ## Hosts -/

theorem readBracketed_unmarked {host : Host} (h : readBracketed cs = .ok host) :
    Unmarked host.text.toList := by
  unfold readBracketed at h
  split at h
  · split at h
    · next pieces _ =>
      cases h
      rw [Host.text, String.toList_append, String.toList_append]
      exact (Unmarked.append (by decide) (ipv6Text_unmarked pieces)).append (by decide)
    · cases h
  · cases h

theorem readSpecialHost_unmarked [Tables] {host : Host} (h : readSpecialHost cs = .ok host) :
    Unmarked host.text.toList := by
  unfold readSpecialHost at h
  split at h
  · exact readBracketed_unmarked h
  · obtain ⟨name, hname, h⟩ := bind_eq_ok_iff.1 h
    split at h
    · split at h
      · cases h
        exact ipv4Text_unmarked _
      · cases h
    · cases h
      rw [Host.text, String.toList_ofList]
      exact readDomain_unmarked hname

theorem readPlainHost_unmarked {host : Host} (h : readPlainHost cs = .ok host) :
    Unmarked host.text.toList := by
  unfold readPlainHost at h
  split at h
  · exact readBracketed_unmarked h
  · split at h
    · cases h
    · next hcs =>
      cases h
      apply Unmarked.encodePart
      rintro c hc (rfl | rfl) <;> exact hcs (List.any_eq_true.2 ⟨_, hc, by decide⟩)

end Discovery.Url
