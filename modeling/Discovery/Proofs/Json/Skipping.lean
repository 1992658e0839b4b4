import Discovery.Proofs.Json.Lexemes

/-!
# Values are skipped whole

A JSON text is of one value (`Document.unique`), and what is skipped is exactly a value
(`spells_of_skip`, `skip_of_spells`). The brackets that are open when a value has been skipped are
closed by phrases, one for each of them (`Closes`).
-/

namespace Discovery.Json

variable {b : UInt8} {key key' r r' s t u : List UInt8} {p : Phrase} {v v' : Value}
  {vs : List Value} {ms : List (List UInt8 × Value)} {frames : List Frame}

/-! ## What comes first -/

/-- The first token of a value tells its kind. -/
theorem Spells.exists_kind (h : Spells (.value v) s r) :
    ∃ b t, skipBlank s = b :: t ∧ Kind.of? b = some v.kind := by
  cases h with
  | scalar hv hs =>
    obtain ⟨b, rest, rfl, hkind, -⟩ := hv.exists_kind
    exact ⟨b, rest ++ r, hs, hkind⟩
  | emptyArray hs _ => exact ⟨openBracket, _, hs, by rfl⟩
  | array hs _ _ => exact ⟨openBracket, _, hs, by rfl⟩
  | emptyObject hs _ => exact ⟨openBrace, _, hs, by rfl⟩
  | object hs _ _ _ => exact ⟨openBrace, _, hs, by rfl⟩

theorem Spells.kind_of_cons (h : Spells (.value v) s r) (hs : skipBlank s = b :: t) :
    Kind.of? b = some v.kind := by
  obtain ⟨b', t', hs', hkind⟩ := h.exists_kind
  cases hs.symm.trans hs'
  exact hkind

theorem ends_of_isBlank (hb : isBlank b = true) (s : List UInt8) : Ends (b :: s) := by
  rcases isBlank_iff.1 hb with ((rfl | rfl) | rfl) | rfl <;> exact .cons (by decide) s

theorem ends_of_skipBlank (hs : skipBlank s = b :: t)
    (hb : digit? b = none ∧ b ≠ point ∧ b ≠ 0x65 ∧ b ≠ 0x45) : Ends s := by
  cases s with
  | nil => exact .nil
  | cons c s =>
    cases hc : isBlank c with
    | true => exact ends_of_isBlank hc s
    | false =>
      rw [skipBlank_cons hc] at hs
      cases hs
      exact .cons hb _

theorem afterKey_eq_ok_iff : Reader.afterKey s = .ok r ↔ skipBlank s = colon :: r := by
  unfold Reader.afterKey
  split
  · next hs => simp [hs]
  · next b rest hs =>
    rw [hs, List.cons.injEq]
    split
    · next hb => simp [hb]
    · next hb => simp [hb]

/-- No number goes on behind an element. -/
theorem Spells.ends_elements (h : Spells (.elements vs) s r) : Ends s := by
  cases h with
  | noElement hs => exact ends_of_skipBlank hs (by decide)
  | element hs _ _ => exact ends_of_skipBlank hs (by decide)

theorem Spells.ends_members (h : Spells (.members ms) s r) : Ends s := by
  cases h with
  | noMember hs => exact ends_of_skipBlank hs (by decide)
  | member hs _ _ _ => exact ends_of_skipBlank hs (by decide)

/-! ## One value -/

theorem Keyed.unique (h : Keyed key s r) (h' : Keyed key' s r') : key = key' ∧ r = r' := by
  obtain ⟨hkey, t, hs, ht⟩ := h
  obtain ⟨hkey', t', hs', ht'⟩ := h'
  have hbody : key ++ quote :: t = key' ++ quote :: t' := (List.cons.inj (hs.symm.trans hs')).2
  have hrest : t = t' := by
    have hskip : skipString (key ++ quote :: t) = .ok t :=
      skipString_eq_ok_iff.2 ⟨key, hkey, rfl⟩
    rw [hbody, skipString_eq_ok_iff.2 ⟨key', hkey', rfl⟩] at hskip
    exact (Except.ok.inj hskip).symm
  subst hrest
  exact ⟨List.append_cancel_right hbody, (List.cons.inj (ht.symm.trans ht')).2⟩

/-- No other phrase of its sort is spelled here, when no number goes on behind. -/
def Phrase.Only (s r : List UInt8) : Phrase → Prop
  | .value v => ∀ {v' r'}, Spells (.value v') s r' → Ends r → Ends r' → v = v' ∧ r = r'
  | .elements vs => ∀ {vs' r'}, Spells (.elements vs') s r' → vs = vs' ∧ r = r'
  | .members ms => ∀ {ms' r'}, Spells (.members ms') s r' → ms = ms' ∧ r = r'

/-- What begins as a value without others is one. -/
theorem Spells.scalar_inv {text : List UInt8} (h : Spells (.value v') s r') (hv : IsScalar v text)
    (hs : skipBlank s = text ++ r) : ∃ text', IsScalar v' text' ∧ skipBlank s = text' ++ r' := by
  obtain ⟨b, rest, rfl, hb, harray, hobject⟩ := hv.exists_kind
  have hkind : v'.kind = v.kind := Option.some.inj ((h.kind_of_cons hs).symm.trans hb)
  cases h with
  | scalar hv' hs' => exact ⟨_, hv', hs'⟩
  | emptyArray _ _ | array _ _ _ => exact absurd hkind.symm harray
  | emptyObject _ _ | object _ _ _ _ => exact absurd hkind.symm hobject

theorem Spells.array_inv (h : Spells (.value v) s r) (hs : skipBlank s = openBracket :: t) :
    v = .array [] ∧ skipBlank t = closeBracket :: r ∨
      ∃ w ws u, v = .array (w :: ws) ∧ Spells (.value w) t u ∧ Spells (.elements ws) u r := by
  have hkind : some .array = some v.kind := h.kind_of_cons hs
  cases h with
  | scalar hv _ =>
    obtain ⟨-, -, -, -, harray, -⟩ := hv.exists_kind
    exact absurd (Option.some.inj hkind).symm harray
  | emptyArray hs' ht =>
    cases hs.symm.trans hs'
    exact .inl ⟨rfl, ht⟩
  | array hs' hw hws =>
    cases hs.symm.trans hs'
    exact .inr ⟨_, _, _, rfl, hw, hws⟩
  | emptyObject _ _ | object _ _ _ _ => cases hkind

theorem Spells.object_inv (h : Spells (.value v) s r) (hs : skipBlank s = openBrace :: t) :
    v = .object [] ∧ skipBlank t = closeBrace :: r ∨
      ∃ key w ms t' u, v = .object ((key, w) :: ms) ∧ Keyed key t t' ∧
        Spells (.value w) t' u ∧ Spells (.members ms) u r := by
  have hkind : some .object = some v.kind := h.kind_of_cons hs
  cases h with
  | scalar hv _ =>
    obtain ⟨-, -, -, -, -, hobject⟩ := hv.exists_kind
    exact absurd (Option.some.inj hkind).symm hobject
  | emptyArray _ _ | array _ _ _ => cases hkind
  | emptyObject hs' ht =>
    cases hs.symm.trans hs'
    exact .inl ⟨rfl, ht⟩
  | object hs' hk hw hms =>
    cases hs.symm.trans hs'
    exact .inr ⟨_, _, _, _, _, rfl, hk, hw, hms⟩

theorem Spells.only (h : Spells p s r) : p.Only s r := by
  induction h with
  | scalar hv hs =>
    intro v' r' h' hr hr'
    obtain ⟨text', hv', hs'⟩ := h'.scalar_inv hv hs
    exact hv.unique hv' hr hr' (hs.symm.trans hs')
  | emptyArray hs ht =>
    intro v' r' h' _ _
    obtain ⟨rfl, ht'⟩ | ⟨w, ws, u, rfl, hw, -⟩ := h'.array_inv hs
    · cases ht.symm.trans ht'
      exact ⟨rfl, rfl⟩
    · cases hw.kind_of_cons ht
  | array hs hv hvs ihv ihvs =>
    intro v' r' h' _ _
    obtain ⟨rfl, ht'⟩ | ⟨w, ws, u, rfl, hw, hws⟩ := h'.array_inv hs
    · cases hv.kind_of_cons ht'
    · obtain ⟨rfl, rfl⟩ := ihv hw hvs.ends_elements hws.ends_elements
      obtain ⟨rfl, rfl⟩ := ihvs hws
      exact ⟨rfl, rfl⟩
  | emptyObject hs ht =>
    intro v' r' h' _ _
    obtain ⟨rfl, ht'⟩ | ⟨key, w, ms, t', u, rfl, hk, -⟩ := h'.object_inv hs
    · cases ht.symm.trans ht'
      exact ⟨rfl, rfl⟩
    · obtain ⟨-, q, hq, -⟩ := hk
      cases ht.symm.trans hq
  | object hs hk hv hms ihv ihms =>
    intro v' r' h' _ _
    obtain ⟨rfl, ht'⟩ | ⟨key, w, ms, t', u, rfl, hk', hw, hms'⟩ := h'.object_inv hs
    · obtain ⟨-, q, hq, -⟩ := hk
      cases ht'.symm.trans hq
    · obtain ⟨rfl, rfl⟩ := hk.unique hk'
      obtain ⟨rfl, rfl⟩ := ihv hw hms.ends_members hms'.ends_members
      obtain ⟨rfl, rfl⟩ := ihms hms'
      exact ⟨rfl, rfl⟩
  | noElement hs =>
    intro vs' r' h'
    cases h' with
    | noElement hs' =>
      cases hs.symm.trans hs'
      exact ⟨rfl, rfl⟩
    | element hs' _ _ => cases hs.symm.trans hs'
  | element hs hv hvs ihv ihvs =>
    intro vs' r' h'
    cases h' with
    | noElement hs' => cases hs.symm.trans hs'
    | element hs' hv' hvs' =>
      cases hs.symm.trans hs'
      obtain ⟨rfl, rfl⟩ := ihv hv' hvs.ends_elements hvs'.ends_elements
      obtain ⟨rfl, rfl⟩ := ihvs hvs'
      exact ⟨rfl, rfl⟩
  | noMember hs =>
    intro ms' r' h'
    cases h' with
    | noMember hs' =>
      cases hs.symm.trans hs'
      exact ⟨rfl, rfl⟩
    | member hs' _ _ _ => cases hs.symm.trans hs'
  | member hs hk hv hms ihv ihms =>
    intro ms' r' h'
    cases h' with
    | noMember hs' => cases hs.symm.trans hs'
    | member hs' hk' hv' hms' =>
      cases hs.symm.trans hs'
      obtain ⟨rfl, rfl⟩ := hk.unique hk'
      obtain ⟨rfl, rfl⟩ := ihv hv' hms.ends_members hms'.ends_members
      obtain ⟨rfl, rfl⟩ := ihms hms'
      exact ⟨rfl, rfl⟩

theorem ends_of_skipBlank_nil (hr : skipBlank r = []) : Ends r :=
  ends_of_blank (List.dropWhile_eq_nil_iff.1 hr)

/-- A text is of one value. -/
theorem Document.unique (h : Document v s) (h' : Document v' s) : v = v' := by
  obtain ⟨r, h, hr⟩ := h
  obtain ⟨r', h', hr'⟩ := h'
  exact (h.only h' (ends_of_skipBlank_nil hr) (ends_of_skipBlank_nil hr')).1

/-! ## Skipping -/

theorem skipKey_eq_ok_iff : skipKey s = .ok r ↔ ∃ key, Keyed key s r := by
  constructor
  · intro h
    unfold skipKey at h
    split at h
    · cases h
    next hs =>
    split at h
    · next hb =>
      split at h
      · cases h
      next hskip =>
      obtain ⟨key, hkey, rfl⟩ := skipString_eq_ok_iff.1 hskip
      exact ⟨key, hkey, _, hb ▸ hs, afterKey_eq_ok_iff.1 h⟩
    · cases h
  · rintro ⟨key, hkey, t, hs, ht⟩
    have hskip : skipString (key ++ quote :: t) = .ok t := skipString_eq_ok_iff.2 ⟨key, hkey, rfl⟩
    simp only [skipKey, hs, if_true, hskip]
    exact afterKey_eq_ok_iff.2 ht

/-- Brackets that are open behind a value are closed, from the innermost on. -/
inductive Closes : List Frame → List UInt8 → List UInt8 → Prop where
  | nil (r : List UInt8) : Closes [] r r
  | array {frames : List Frame} {vs : List Value} {s t r : List UInt8} :
      Spells (.elements vs) s t → Closes frames t r → Closes (.array :: frames) s r
  | object {frames : List Frame} {ms : List (List UInt8 × Value)} {s t r : List UInt8} :
      Spells (.members ms) s t → Closes frames t r → Closes (.object :: frames) s r

/-- From a place on, a text has what is missing there. -/
def Place.Finishes (frames : List Frame) (s r : List UInt8) : Place → Prop
  | .value => ∃ v t, Spells (.value v) s t ∧ Closes frames t r
  | .behind => Closes frames s r

theorem finishes_of_skip {place : Place} (h : skip place frames s = .ok r) :
    place.Finishes frames s r := by
  fun_induction skip place frames s with
  | case1 | case2 | case5 | case7 | case9 | case12 | case15 | case17 => cases h
  | case3 frames s t u hs ht ih => exact ⟨.array [], u, .emptyArray hs ht, ih h⟩
  | case4 frames s t _ _ _ _ hs ih =>
    obtain ⟨v, u, hv, hcloses⟩ := ih h
    cases hcloses with
    | array hvs hframes => exact ⟨.array (v :: _), _, .array hs hv hvs, hframes⟩
  | case6 frames s t u hs _ ht ih => exact ⟨.object [], u, .emptyObject hs ht, ih h⟩
  | case8 frames s t _ _ _ _ t' hk hs _ ih =>
    obtain ⟨key, hkey⟩ := skipKey_eq_ok_iff.1 hk
    obtain ⟨v, u, hv, hcloses⟩ := ih h
    cases hcloses with
    | object hms hframes => exact ⟨.object ((key, v) :: _), _, .object hs hkey hv hms, hframes⟩
  | case10 frames s b t hs _ _ u hscalar ih =>
    obtain ⟨v, text, hv, htext⟩ := isScalar_of_skipScalar hscalar
    exact ⟨v, u, .scalar hv (hs.trans htext), ih h⟩
  | case11 =>
    cases h
    exact Closes.nil r
  | case13 s frame frames t hs ih =>
    cases frame with
    | array => exact .array (.noElement hs) (ih h)
    | object => exact .object (.noMember hs) (ih h)
  | case14 s frames t hs _ ih =>
    obtain ⟨v, u, hv, hcloses⟩ := ih h
    cases hcloses with
    | array hvs hframes => exact .array (.element hs hv hvs) hframes
  | case16 s frames t t' hk hs _ ih =>
    obtain ⟨key, hkey⟩ := skipKey_eq_ok_iff.1 hk
    obtain ⟨v, u, hv, hcloses⟩ := ih h
    cases hcloses with
    | object hms hframes => exact .object (.member hs hkey hv hms) hframes

theorem skip_bracket (hs : skipBlank s = openBracket :: t) (ht : skipBlank t = b :: u) :
    skip .value frames s =
      if b = closeBracket then skip .behind frames u else skip .value (.array :: frames) t := by
  rw [skip.eq_def]
  simp only
  split
  · next hs' => cases hs.symm.trans hs'
  next hs' =>
  cases hs.symm.trans hs'
  rw [if_pos rfl]
  split
  · next ht' => cases ht.symm.trans ht'
  next ht' =>
  cases ht.symm.trans ht'
  rfl

theorem skip_brace (hs : skipBlank s = openBrace :: t) (ht : skipBlank t = b :: u) :
    skip .value frames s =
      if b = closeBrace then skip .behind frames u
      else (skipKey t).bind (skip .value (.object :: frames)) := by
  rw [skip.eq_def]
  simp only
  split
  · next hs' => cases hs.symm.trans hs'
  next hs' =>
  cases hs.symm.trans hs'
  rw [if_neg (by decide), if_pos rfl]
  split
  · next ht' => cases ht.symm.trans ht'
  next ht' =>
  cases ht.symm.trans ht'
  split
  · rfl
  split <;> next hk => rw [hk]; rfl

theorem skip_scalar (hs : skipBlank s = b :: t) (hbracket : b ≠ openBracket)
    (hbrace : b ≠ openBrace) :
    skip .value frames s = (skipScalar (b :: t)).bind (skip .behind frames) := by
  rw [skip.eq_def]
  simp only
  split
  · next hs' => cases hs.symm.trans hs'
  next hs' =>
  cases hs.symm.trans hs'
  rw [if_neg hbracket, if_neg hbrace]
  split <;> next hr => rw [hr]; rfl

theorem skip_closing (frame : Frame) (hs : skipBlank s = frame.closing :: t) :
    skip .behind (frame :: frames) s = skip .behind frames t := by
  rw [skip.eq_def]
  simp only
  split
  · next hs' => cases hs.symm.trans hs'
  next hs' =>
  cases hs.symm.trans hs'
  exact if_pos rfl

theorem skip_comma {frame : Frame} (hs : skipBlank s = comma :: t) :
    skip .behind (frame :: frames) s =
      match frame with
      | .array => skip .value (.array :: frames) t
      | .object => (skipKey t).bind (skip .value (.object :: frames)) := by
  rw [skip.eq_def]
  simp only
  split
  · next hs' => cases hs.symm.trans hs'
  next hs' =>
  cases hs.symm.trans hs'
  cases frame with
  | array => rfl
  | object =>
    rw [if_neg (by decide), if_pos rfl]
    simp only
    split <;> next hk => rw [hk]; rfl

/-- Behind a phrase, a skipping reader is where the phrase ends, with one bracket less if the phrase
closes one. -/
def Phrase.Skipped (s r : List UInt8) : Phrase → Prop
  | .value _ => ∀ frames, Ends r → skip .value frames s = skip .behind frames r
  | .elements _ => ∀ frames, skip .behind (.array :: frames) s = skip .behind frames r
  | .members _ => ∀ frames, skip .behind (.object :: frames) s = skip .behind frames r

theorem Spells.skipped (h : Spells p s r) : p.Skipped s r := by
  induction h with
  | scalar hv hs =>
    intro frames hr
    have hskip := skipScalar_append hv hr
    obtain ⟨b, rest, rfl, hkind, harray, hobject⟩ := hv.exists_kind
    have hbracket : b ≠ openBracket := by
      rintro rfl
      exact harray (Option.some.inj hkind).symm
    have hbrace : b ≠ openBrace := by
      rintro rfl
      exact hobject (Option.some.inj hkind).symm
    rw [skip_scalar hs hbracket hbrace]
    exact congrArg (Except.bind · (skip .behind frames)) hskip
  | emptyArray hs ht =>
    intro frames _
    rw [skip_bracket hs ht, if_pos rfl]
  | array hs hv hvs ihv ihvs =>
    intro frames _
    obtain ⟨b, t', ht, hkind⟩ := hv.exists_kind
    have hb : b ≠ closeBracket := by
      rintro rfl
      cases hkind
    rw [skip_bracket hs ht, if_neg hb, ihv _ hvs.ends_elements, ihvs]
  | emptyObject hs ht =>
    intro frames _
    rw [skip_brace hs ht, if_pos rfl]
  | object hs hk hv hms ihv ihms =>
    intro frames _
    have hkey := skipKey_eq_ok_iff.2 ⟨_, hk⟩
    obtain ⟨-, _, ht, -⟩ := hk
    rw [skip_brace hs ht, if_neg (by decide), hkey, Except.bind, ihv _ hms.ends_members, ihms]
  | noElement hs =>
    intro frames
    exact skip_closing .array hs
  | element hs hv hvs ihv ihvs =>
    intro frames
    rw [skip_comma hs]
    exact (ihv _ hvs.ends_elements).trans (ihvs frames)
  | noMember hs =>
    intro frames
    exact skip_closing .object hs
  | member hs hk hv hms ihv ihms =>
    intro frames
    have hkey := skipKey_eq_ok_iff.2 ⟨_, hk⟩
    rw [skip_comma hs]
    simp only [hkey]
    exact (ihv _ hms.ends_members).trans (ihms frames)

/-- What is skipped is a value. -/
theorem spells_of_skip (h : skip .value [] s = .ok r) : ∃ v, Spells (.value v) s r := by
  obtain ⟨v, t, hv, hcloses⟩ := finishes_of_skip h
  cases hcloses
  exact ⟨v, hv⟩

/-- A value is skipped. -/
theorem skip_of_spells (h : Spells (.value v) s r) (hr : Ends r) : skip .value [] s = .ok r := by
  rw [h.skipped [] hr, skip.eq_def]

end Discovery.Json
