import Discovery.Proofs.Url.Marks

/-!
# URLs that were read

The parts of a URL up to its path hold no mark that begins a query or a fragment, and a URL that
follows the rules of the web has a path with segments. Both hold of every URL that was read
(`parse_wellFormed`); by the first, the text of such a URL shows where its query begins
(`front_unmarked`).
-/

namespace Discovery.Url

open Query (bind_eq_ok_iff)

variable {c : Char} {cs rest after : List Char} {scheme s : String} {u : Url}

/-! ## Origins -/

/-- An origin without marks. -/
structure Origin.Clean (o : Origin) : Prop where
  scheme : Unmarked o.scheme.toList
  username : Unmarked o.username.toList
  password : Unmarked o.password.toList
  host : ∀ host, o.host = some host → Unmarked host.text.toList

/-- An origin that names no user. -/
theorem Origin.clean_of_host {host : Option Host} (hscheme : Unmarked scheme.toList)
    (hhost : ∀ h, host = some h → Unmarked h.text.toList) : ({ scheme, host } : Origin).Clean :=
  have hempty : Unmarked "".toList := by decide
  { scheme := hscheme, username := hempty, password := hempty, host := hhost }

theorem toLower_notMark (h : ¬IsMark c) : ¬IsMark c.toLower := by
  by_cases hlt : c.toNat < 0x80
  · have hall : ∀ n < 0x80, ¬IsMark (Char.ofNat n) → ¬IsMark (Char.ofNat n).toLower := by decide
    have hc := hall c.toNat hlt
    rw [Char.ofNat_toNat] at hc
    exact hc h
  · have hupper : ¬(c.val ≥ 'A'.val ∧ c.val ≤ 'Z'.val) := by
      rintro ⟨-, hle⟩
      have hle : c.toNat ≤ 90 := UInt32.le_iff_toNat_le.1 hle
      omega
    rwa [show c.toLower = c from dif_neg hupper]

theorem isSchemeChar_notMark (h : isSchemeChar c = true) : ¬IsMark c := by
  rintro (rfl | rfl) <;> exact absurd h (by decide)

theorem cutScheme_unmarked (h : cutScheme cs = some (scheme, rest)) : Unmarked scheme.toList := by
  unfold cutScheme at h
  split at h
  · cases h
  · split at h
    · next hscheme =>
      cases h
      rw [String.toList_ofList]
      intro c hc
      obtain ⟨d, hd, rfl⟩ := List.mem_map.1 hc
      have hd := List.all_eq_true.1 (Bool.and_eq_true_iff.1 hscheme).2 d hd
      exact toLower_notMark (isSchemeChar_notMark hd)
    · cases h

/-- What the host part of a URL is read to. -/
theorem readAuthority_eq_ok [Tables] {o : Origin} (h : readAuthority scheme cs rest = .ok (o, after)) :
    ∃ written name secret host port,
      (readSpecialHost written = .ok host ∨ readPlainHost written = .ok host) ∧ o = {
        scheme, host := some host, port
        username := encodePart keepsUserinfo name
        password := encodePart keepsUserinfo secret } := by
  unfold readAuthority at h
  extract_lets special at h
  split at h
  next user place _ =>
  extract_lets nobody at h
  split at h
  · cases h
  unfold nobody at h
  split at h
  next name secret _ =>
  split at h
  next written back _ =>
  extract_lets hosted located at h
  split at h
  · cases h
  unfold located at h
  obtain ⟨host, hhost, h⟩ : ∃ host,
      (readSpecialHost written = .ok host ∨ readPlainHost written = .ok host) ∧
        hosted host = .ok (o, after) := by
    split at h
    · obtain ⟨host, hhost, h⟩ := bind_eq_ok_iff.1 h
      exact ⟨host, .inl hhost, h⟩
    · obtain ⟨host, hhost, h⟩ := bind_eq_ok_iff.1 h
      exact ⟨host, .inr hhost, h⟩
  unfold hosted at h
  extract_lets ported at h
  obtain ⟨p, hp⟩ : ∃ p, ported p = .ok (o, after) := by
    split at h <;> obtain ⟨p, -, hp⟩ := bind_eq_ok_iff.1 h <;> exact ⟨p, hp⟩
  unfold ported at hp
  split at hp
  split at hp
  · cases hp
  · cases hp
    exact ⟨written, name, secret, host, _, hhost, rfl⟩

theorem readAuthority_clean [Tables] {o : Origin} (hscheme : Unmarked scheme.toList)
    (h : readAuthority scheme cs rest = .ok (o, after)) : o.Clean := by
  obtain ⟨written, name, secret, host, port, hhost, rfl⟩ := readAuthority_eq_ok h
  have hkeep : ∀ c, IsMark c → keepsUserinfo c = false := by rintro c (rfl | rfl) <;> decide
  refine {
    scheme := hscheme
    username := encodePart_unmarked hkeep name
    password := encodePart_unmarked hkeep secret
    host := ?_ }
  rintro _ ⟨⟩
  exact hhost.elim readSpecialHost_unmarked readPlainHost_unmarked

/-! ## Whole URLs -/

/-- What holds of every URL that was read. -/
structure WellFormed (u : Url) : Prop where
  clean : u.origin.Clean
  segments : isSpecial u.scheme = true → ∃ ss, u.path = .segments ss

theorem wellFormed_withPath {o : Origin} (ho : o.Clean) (front : List String) (cs : List Char) :
    WellFormed (withPath o front cs) where
  clean := ho
  segments _ := ⟨_, rfl⟩

theorem wellFormed_withPathStart {o : Origin} (ho : o.Clean) (cs : List Char) :
    WellFormed (withPathStart o cs) := by
  unfold withPathStart
  split
  · split
    · exact wellFormed_withPath ho _ _
    · next hspecial => exact { clean := ho, segments := fun h => absurd h hspecial }
  · split
    · exact wellFormed_withPath ho _ _
    · split
      · next h =>
        have hspecial : isSpecial o.scheme = false := by simpa using (Bool.and_eq_true_iff.1 h).1
        exact { clean := ho, segments := fun h => absurd (hspecial ▸ h) Bool.false_ne_true }
      · exact wellFormed_withPath ho _ _

theorem readFromHost_wellFormed [Tables] (hscheme : Unmarked scheme.toList)
    (h : readFromHost scheme cs = .ok u) : WellFormed u := by
  obtain ⟨⟨o, rest⟩, ho, h⟩ := bind_eq_ok_iff.1 h
  cases h
  exact wellFormed_withPathStart (readAuthority_clean hscheme ho) rest

theorem Path.dropEmpty_segments (ss : List String) :
    ∃ ts, (Path.segments ss).dropEmpty = .segments ts := by
  unfold Path.dropEmpty
  simp only
  split
  · exact ⟨_, rfl⟩
  · exact ⟨_, rfl⟩

theorem fileAt_wellFormed {host : Option Host}
    (hhost : ∀ h, host = some h → Unmarked h.text.toList) (cs : List Char) :
    WellFormed (fileAt host cs) := by
  have hfile : Unmarked "file".toList := by decide
  have hu : WellFormed (withPathStart { scheme := "file", host } cs) :=
    wellFormed_withPathStart (Origin.clean_of_host hfile hhost) cs
  refine { clean := hu.clean, segments := fun hspecial => ?_ }
  obtain ⟨ss, hss⟩ := hu.segments hspecial
  obtain ⟨ts, hts⟩ := Path.dropEmpty_segments ss
  exact ⟨ts, (congrArg Path.dropEmpty hss).trans hts⟩

theorem readFile_wellFormed [Tables] (h : readFile cs = .ok u) : WellFormed u := by
  have hnone : ∀ h, (none : Option Host) = some h → Unmarked h.text.toList :=
    fun _ h => nomatch h
  unfold readFile at h
  split at h
  · split at h
    · split at h
      next written rest _ =>
      split at h
      · cases h
        exact fileAt_wellFormed hnone rest
      · cases hhost : readSpecialHost written with
        | error e =>
          rw [hhost] at h
          cases h
        | ok host =>
          rw [hhost] at h
          cases h
          apply fileAt_wellFormed
          intro named hnamed
          split at hnamed
          · cases hnamed
          · cases hnamed
            exact readSpecialHost_unmarked hhost
    · cases h
      exact fileAt_wellFormed hnone _
  · cases h
    exact fileAt_wellFormed hnone _

theorem readAfterScheme_wellFormed [Tables] (hscheme : Unmarked scheme.toList)
    (h : readAfterScheme scheme cs = .ok u) : WellFormed u := by
  have hclean : ({ scheme } : Origin).Clean :=
    Origin.clean_of_host hscheme fun _ h => nomatch h
  unfold readAfterScheme at h
  split at h
  · exact readFile_wellFormed h
  · split at h
    · exact readFromHost_wellFormed hscheme h
    · next hspecial =>
      split at h
      · exact readFromHost_wellFormed hscheme h
      · cases h
        exact wellFormed_withPath hclean _ _
      · cases h
        exact { clean := hclean, segments := fun h => absurd h hspecial }

theorem parse_wellFormed [Tables] (h : Url.parse s = .ok u) : WellFormed u := by
  unfold Url.parse at h
  split at h
  · cases h
  · next hscheme => exact readAfterScheme_wellFormed (cutScheme_unmarked hscheme) h

/-! ## Texts -/

/-- The text of a URL up to its query. -/
def front (u : Url) : String :=
  u.scheme ++ ":" ++
    (match u.host with
      | some host => "//" ++ u.credentials ++ authority host u.port
      | none => if u.scheme = "file" then "//" else pathGuard u.path) ++
    u.path.text

theorem text_eq_front (u : Url) : u.text = u.front ++ marked "?" u.query ++ marked "#" u.fragment :=
  rfl

theorem credentials_unmarked (hu : u.origin.Clean) : Unmarked u.credentials.toList := by
  have hcolon : Unmarked ":".toList := by decide
  have hat : Unmarked "@".toList := by decide
  have hempty : Unmarked "".toList := by decide
  unfold credentials
  split
  · exact hempty
  · rw [String.toList_append, String.toList_append]
    refine (hu.username.append ?_).append hat
    split
    · exact hempty
    · rw [String.toList_append]
      exact hcolon.append hu.password

theorem authority_unmarked {host : Host} (hhost : Unmarked host.text.toList) (port : Option Nat) :
    Unmarked (authority host port).toList := by
  unfold authority
  rw [String.toList_append]
  apply hhost.append
  cases port with
  | none => exact .nil
  | some n =>
    rw [marked, Option.map_some, Option.map_some, Option.getD_some, String.toList_append]
    exact Unmarked.append (by decide) (decimal_unmarked n)

theorem pathGuard_unmarked (path : Path) : Unmarked (pathGuard path).toList := by
  unfold pathGuard
  split <;> decide

/-- Up to the query there is no mark. -/
theorem front_unmarked (hu : u.origin.Clean) (hpath : Unmarked u.path.text.toList) :
    Unmarked u.front.toList := by
  have hcolon : Unmarked ":".toList := by decide
  have hslashes : Unmarked "//".toList := by decide
  unfold front
  rw [String.toList_append, String.toList_append, String.toList_append]
  refine ((hu.scheme.append hcolon).append ?_).append hpath
  split
  · next host hhost =>
    rw [String.toList_append, String.toList_append]
    exact (hslashes.append (credentials_unmarked hu)).append
      (authority_unmarked (hu.host host hhost) u.port)
  · split
    · exact hslashes
    · exact pathGuard_unmarked u.path

end Discovery.Url
