import Discovery.Json.Ignored
import Discovery.Proofs.Json.Grammar

/-!
# Tokens are read as the grammar has them

Each reader of a token takes exactly what the grammar says. For strings that is an `↔`, as a quote
ends them; a number must be followed by something that no number goes on with (`Ends`).
-/

namespace Discovery.Json

variable {b c e : UInt8} {ds r s t u w text : List UInt8} {vs : List Nat} {m n : Nat} {f : Fault}

/-! ## Words -/

theorem word_eq_ok_iff : word w s = .ok r ↔ s = w ++ r := by
  induction w generalizing s with
  | nil => simp [word]
  | cons e es ih =>
    cases s with
    | nil => simp [word]
    | cons b s =>
      by_cases hb : e = b
      · simp [word, hb, ih]
      · simp [word, hb, Ne.symm hb]

/-! ## Digits -/

/-- The number that digits are read to. -/
def values (ds : List UInt8) : List Nat := ds.filterMap digit?

theorem values_cons {d : Nat} (h : digit? b = some d) (ds : List UInt8) :
    values (b :: ds) = d :: values ds := List.filterMap_cons_some h

/-- No digit comes first. -/
def DigitFree (s : List UInt8) : Prop := ∀ b, s.head? = some b → digit? b = none

theorem DigitFree.cons (h : digit? b = none) (s : List UInt8) : DigitFree (b :: s) := by
  rintro _ ⟨⟩
  exact h

theorem Ends.digitFree (h : Ends s) : DigitFree s := fun b hb => (h b hb).1

theorem digits_append (hds : ∀ b ∈ ds, (digit? b).isSome = true) (hr : DigitFree r) :
    digits (ds ++ r) = (values ds, r) := by
  induction ds with
  | nil =>
    cases r with
    | nil => rfl
    | cons b r =>
      rw [List.nil_append, digits, hr b rfl]
      rfl
  | cons b ds ih =>
    obtain ⟨d, hd⟩ := Option.isSome_iff_exists.1 (hds b List.mem_cons_self)
    rw [List.cons_append, digits, hd, ih fun c hc => hds c (List.mem_cons_of_mem b hc),
      values_cons hd]

theorem exists_digits (s : List UInt8) : ∃ ds, s = ds ++ (digits s).2 ∧
    (∀ b ∈ ds, (digit? b).isSome = true) ∧ values ds = (digits s).1 := by
  induction s with
  | nil => exact ⟨[], rfl, by simp, rfl⟩
  | cons b s ih =>
    cases hb : digit? b with
    | none => exact ⟨[], by simp [digits, hb], by simp, by simp [digits, hb, values]⟩
    | some d =>
      obtain ⟨ds, hs, hds, hvalues⟩ := ih
      refine ⟨b :: ds, ?_, ?_, ?_⟩
      · simp only [digits, hb, List.cons_append]
        rw [← hs]
      · simpa [hb] using hds
      · rw [values_cons hb, hvalues, digits, hb]

theorem values_ne_nil (h : IsDigits ds) : values ds ≠ [] := by
  obtain ⟨hne, hds⟩ := h
  obtain ⟨b, ds, rfl⟩ := List.exists_cons_of_ne_nil hne
  obtain ⟨d, hd⟩ := Option.isSome_iff_exists.1 (hds b List.mem_cons_self)
  rw [values_cons hd]
  exact List.cons_ne_nil d _

theorem someDigits_append (hds : IsDigits ds) (hr : DigitFree r) :
    someDigits (ds ++ r) = .ok (values ds, r) := by
  rw [someDigits, digits_append hds.2 hr, if_neg (values_ne_nil hds)]

theorem isDigits_of_someDigits (h : someDigits s = .ok (vs, r)) :
    ∃ ds, IsDigits ds ∧ s = ds ++ r ∧ values ds = vs := by
  obtain ⟨ds, hs, hds, hvalues⟩ := exists_digits s
  unfold someDigits at h
  split at h
  · cases h
  next hne =>
  rw [Except.ok.injEq] at h
  rw [h] at hs hvalues hne
  refine ⟨ds, ⟨?_, hds⟩, hs, hvalues⟩
  rintro rfl
  exact hne hvalues.symm

/-! ## Numbers -/

/-- Digits are whole exactly if their values are not those of zero and others. -/
theorem isWhole_iff (hds : IsDigits ds) :
    IsWhole ds ↔ ∀ d vs, values ds ≠ 0 :: d :: vs := by
  have hvalue {b : UInt8} (hb : b ∈ ds) : ∃ d, digit? b = some d :=
    Option.isSome_iff_exists.1 (hds.2 b hb)
  match ds with
  | [] => exact absurd rfl hds.1
  | [b] =>
    obtain ⟨d, hd⟩ := hvalue List.mem_cons_self
    have hvalues : values [b] = [d] := values_cons hd []
    simp [IsWhole, hds, hvalues]
  | b :: c :: rest =>
    obtain ⟨d, hd⟩ := hvalue List.mem_cons_self
    obtain ⟨d', hd'⟩ := hvalue (List.mem_cons_of_mem b List.mem_cons_self)
    simp [IsWhole, hds, values_cons hd, values_cons hd', hd]

theorem wholePart_append (hds : IsWhole ds) (hr : DigitFree r) :
    wholePart (ds ++ r) = .ok (values ds, r) := by
  rw [wholePart, someDigits_append hds.1 hr]
  split
  · next heq =>
    rw [Except.ok.injEq, Prod.mk.injEq] at heq
    exact absurd heq.1 ((isWhole_iff hds.1).1 hds _ _)
  · rfl

theorem isWhole_of_wholePart (h : wholePart s = .ok (vs, r)) :
    ∃ ds, IsWhole ds ∧ s = ds ++ r ∧ values ds = vs := by
  unfold wholePart at h
  split at h
  · cases h
  next hne =>
  obtain ⟨ds, hds, hs, rfl⟩ := isDigits_of_someDigits h
  refine ⟨ds, (isWhole_iff hds).2 fun d vs hvs => hne d vs r ?_, hs, rfl⟩
  rw [h, hvs]

/-- Neither a digit nor a point comes first. -/
def PointFree (s : List UInt8) : Prop := DigitFree s ∧ ∀ b, s.head? = some b → b ≠ point

theorem Ends.pointFree (h : Ends s) : PointFree s := ⟨h.digitFree, fun b hb => (h b hb).2.1⟩

theorem PointFree.cons (h : digit? b = none) (hb : b ≠ point) (s : List UInt8) :
    PointFree (b :: s) := by
  refine ⟨.cons h s, ?_⟩
  rintro _ ⟨⟩
  exact hb

theorem IsExponent.pointFree (h : IsExponent text) (hr : Ends r) : PointFree (text ++ r) := by
  cases h with
  | none => exact hr.pointFree
  | digits he _ _ => rcases he with rfl | rfl <;> exact .cons (by decide) (by decide) _

theorem IsFraction.digitFree (h : IsFraction text) (hr : PointFree r) : DigitFree (text ++ r) := by
  cases h with
  | none => exact hr.1
  | digits _ => exact .cons (by decide) _

theorem fractionPart_append (h : IsFraction text) (hr : PointFree r) :
    ∃ f, fractionPart (text ++ r) = .ok (f, r) := by
  cases h with
  | none =>
    cases r with
    | nil => exact ⟨_, rfl⟩
    | cons b r => exact ⟨_, if_neg (hr.2 b rfl)⟩
  | @digits ds hds =>
    refine ⟨some (values ds), ?_⟩
    rw [List.cons_append, fractionPart, if_pos rfl, someDigits_append hds hr.1]
    rfl

theorem isFraction_of_fractionPart {f : Option (List Nat)} (h : fractionPart s = .ok (f, r)) :
    ∃ text, IsFraction text ∧ s = text ++ r ∧ (f = none → text = []) := by
  cases s with
  | nil =>
    cases h
    exact ⟨[], .none, rfl, fun _ => rfl⟩
  | cons b s =>
    rw [fractionPart] at h
    split at h
    · next hb =>
      cases hs : someDigits s with
      | error => rw [hs] at h; cases h
      | ok p =>
        rw [hs] at h
        cases h
        obtain ⟨ds, hds, hs, -⟩ := isDigits_of_someDigits hs
        refine ⟨point :: ds, .digits hds, ?_, fun h => absurd h (Option.some_ne_none _)⟩
        rw [hb, hs, List.cons_append]
    · cases h
      exact ⟨[], .none, rfl, fun _ => rfl⟩

theorem exponentSign_append {sign : List UInt8} (hsign : sign = [] ∨ sign = [0x2B] ∨ sign = [minus])
    (hds : IsDigits ds) (r : List UInt8) : (exponentSign (sign ++ (ds ++ r))).2 = ds ++ r := by
  obtain rfl | rfl | rfl := hsign
  · obtain ⟨b, ds, rfl⟩ := List.exists_cons_of_ne_nil hds.1
    have hb := hds.2 b List.mem_cons_self
    have hminus : b ≠ minus := by
      rintro rfl
      cases hb
    have hplus : b ≠ 0x2B := by
      rintro rfl
      cases hb
    simp [exponentSign, hminus, hplus]
  · rfl
  · rfl

theorem exists_exponentSign (s : List UInt8) :
    ∃ sign, (sign = [] ∨ sign = [0x2B] ∨ sign = [minus]) ∧ s = sign ++ (exponentSign s).2 := by
  cases s with
  | nil => exact ⟨[], .inl rfl, rfl⟩
  | cons b s =>
    rw [exponentSign]
    split
    · next hb => exact ⟨[minus], .inr (.inr rfl), by rw [hb]; rfl⟩
    split
    · next hb => exact ⟨[0x2B], .inr (.inl rfl), by rw [hb]; rfl⟩
    · exact ⟨[], .inl rfl, rfl⟩

theorem exponentPart_append (h : IsExponent text) (hr : Ends r) :
    ∃ k, exponentPart (text ++ r) = .ok (k, r) := by
  cases h with
  | none => exact ⟨none, exponentPart_of_ends hr⟩
  | @digits e sign ds he hsign hds =>
    have hletter : (e = 0x65 || e = 0x45) = true := by simpa using he
    simp only [List.cons_append, List.append_assoc, exponentPart, hletter, if_true,
      exponentSign_append hsign hds, someDigits_append hds hr.digitFree]
    exact ⟨_, rfl⟩

theorem isExponent_of_exponentPart {k : Option Int} (h : exponentPart s = .ok (k, r)) :
    ∃ text, IsExponent text ∧ s = text ++ r ∧ (k = none → text = []) := by
  cases s with
  | nil =>
    cases h
    exact ⟨[], .none, rfl, fun _ => rfl⟩
  | cons b s =>
    rw [exponentPart] at h
    split at h
    · next hb =>
      obtain ⟨sign, hsign, hrest⟩ := exists_exponentSign s
      cases hs : someDigits (exponentSign s).2 with
      | error => rw [hs] at h; cases h
      | ok p =>
        rw [hs] at h
        cases h
        obtain ⟨ds, hds, hs, -⟩ := isDigits_of_someDigits hs
        refine ⟨b :: (sign ++ ds), .digits (by simpa using hb) hsign hds, ?_,
          fun h => absurd h (Option.some_ne_none _)⟩
        rw [hrest, hs, List.cons_append, List.append_assoc]
    · cases h
      exact ⟨[], .none, rfl, fun _ => rfl⟩

theorem numeral_append (h : IsUnsigned text) (hr : Ends r) (negative : Bool) :
    ∃ n, numeral negative (text ++ r) = .ok (n, r) := by
  obtain ⟨whole, fraction, exponent, rfl, hwhole, hfraction, hexponent⟩ := h
  have hpoint := hexponent.pointFree hr
  obtain ⟨f, hf⟩ := fractionPart_append hfraction hpoint
  obtain ⟨k, hk⟩ := exponentPart_append hexponent hr
  refine ⟨⟨negative, values whole, f, k⟩, ?_⟩
  rw [List.append_assoc, List.append_assoc, numeral,
    wholePart_append hwhole (hfraction.digitFree hpoint)]
  simp only [hf, hk]

/-- A number that is read, and its digits when it has nothing else. -/
theorem isUnsigned_of_numeral {negative : Bool} {n : Numeral}
    (h : numeral negative s = .ok (n, r)) : ∃ text, IsUnsigned text ∧ s = text ++ r ∧
      (n.fraction = none → n.exponent = none → IsWhole text ∧ values text = n.whole) := by
  unfold numeral at h
  split at h
  · cases h
  next hw =>
  split at h
  · cases h
  next hf =>
  split at h
  · cases h
  next hk =>
  cases h
  obtain ⟨whole, hwhole, rfl, hvalues⟩ := isWhole_of_wholePart hw
  obtain ⟨fraction, hfraction, rfl, hnone⟩ := isFraction_of_fractionPart hf
  obtain ⟨exponent, hexponent, rfl, hnone'⟩ := isExponent_of_exponentPart hk
  refine ⟨_, ⟨whole, fraction, exponent, rfl, hwhole, hfraction, hexponent⟩, ?_, ?_⟩
  · rw [List.append_assoc, List.append_assoc]
  · intro hf hk
    rw [hnone hf, hnone' hk, List.append_nil, List.append_nil]
    exact ⟨hwhole, hvalues⟩

theorem skipNumber_append (h : IsUnsigned text) (hr : Ends r) :
    skipNumber (text ++ r) = .ok r := by
  obtain ⟨n, hn⟩ := numeral_append h hr false
  simp only [skipNumber, hn]

theorem isUnsigned_of_skipNumber (h : skipNumber s = .ok r) :
    ∃ text, IsUnsigned text ∧ s = text ++ r := by
  unfold skipNumber at h
  split at h
  · cases h
  next hn =>
  cases h
  obtain ⟨text, htext, hs, -⟩ := isUnsigned_of_numeral hn
  exact ⟨text, htext, hs⟩

/-! ### Natural numbers -/

theorem utf8EncodeChar_digitChar {d : Nat} (h : digit? b = some d) :
    d < 10 ∧ String.utf8EncodeChar (Nat.digitChar d) = [b] := by
  have hall : ∀ d < 10, String.utf8EncodeChar (Nat.digitChar d) = [UInt8.ofNat (d + 0x30)] := by
    decide
  simp only [digit?, UInt8.le_iff_toNat_le] at h
  split at h
  · next hb =>
    have hlow : 0x30 ≤ b.toNat := hb.1
    have hhigh : b.toNat ≤ 0x39 := hb.2
    cases h
    refine ⟨by omega, ?_⟩
    rw [hall _ (by omega), Nat.sub_add_cancel hlow, UInt8.ofNat_toNat]
  · cases h

theorem bytes_values (hds : ∀ b ∈ ds, (digit? b).isSome = true) :
    (∀ v ∈ values ds, v < 10) ∧ bytes ((values ds).map Nat.digitChar) = ds := by
  induction ds with
  | nil => exact ⟨by simp [values], rfl⟩
  | cons b ds ih =>
    obtain ⟨d, hd⟩ := Option.isSome_iff_exists.1 (hds b List.mem_cons_self)
    obtain ⟨hlt, hbyte⟩ := utf8EncodeChar_digitChar hd
    obtain ⟨hlts, hbytes⟩ := ih fun c hc => hds c (List.mem_cons_of_mem b hc)
    rw [values_cons hd, List.map_cons, bytes_cons, hbyte, hbytes]
    exact ⟨List.forall_mem_cons.2 ⟨hlt, hlts⟩, rfl⟩

/-- Digits without a leading zero are those of the number that they denote. -/
theorem toDigits_ofDigits {vs : List Nat} (hne : vs ≠ []) (hlt : ∀ v ∈ vs, v < 10)
    (hzero : ∀ d rest, vs ≠ 0 :: d :: rest) :
    Nat.toDigits 10 (ofDigits vs) = vs.map Nat.digitChar := by
  induction vs using List.reverseRecOn with
  | nil => exact absurd rfl hne
  | append_singleton front v ih =>
    have hv : v < 10 := hlt v (by simp)
    have hvalue : ofDigits (front ++ [v]) = 10 * ofDigits front + v := by
      simp only [ofDigits, List.foldl_append, List.foldl_cons, List.foldl_nil]
    rw [hvalue, Nat.toDigits_eq_if (by decide)]
    cases front with
    | nil =>
      have hsingle : 10 * ofDigits [] + v = v := Nat.zero_add v
      rw [hsingle, if_pos hv]
      rfl
    | cons x rest =>
      have hx : x ≠ 0 := by
        rintro rfl
        cases rest with
        | nil => exact hzero v [] rfl
        | cons y rest => exact hzero y (rest ++ [v]) rfl
      have hle : 10 * 0 + x ≤ ofDigits (x :: rest) := le_foldl (10 * 0 + x) rest
      have hfront := ih (List.cons_ne_nil x rest)
        (fun w hw => hlt w (List.mem_append_left _ hw)) fun d ds heq => hx (List.cons.inj heq).1
      have hdiv : (10 * ofDigits (x :: rest) + v) / 10 = ofDigits (x :: rest) := by omega
      have hmod : (10 * ofDigits (x :: rest) + v) % 10 = v := by omega
      rw [if_neg (by omega), hdiv, hmod, hfront, List.map_append]
      rfl

/-- Whole digits are the writing of the number that they denote. -/
theorem IsWhole.bytes_number (h : IsWhole ds) : bytes (number (ofDigits (values ds))) = ds := by
  obtain ⟨hlt, hbytes⟩ := bytes_values h.1.2
  rw [number, toDigits_ofDigits (values_ne_nil h.1) hlt ((isWhole_iff h.1).1 h), hbytes]

/-! ## Strings -/

theorem hexUnit_eq_ok_iff : hexUnit s = .ok (n, r) ↔ ∃ ds, IsUnit ds n ∧ s = ds ++ r := by
  constructor
  · intro h
    match s with
    | [] | [_] | [_, _] | [_, _, _] => cases h
    | a :: b :: c :: d :: rest =>
      simp only [hexUnit] at h
      split at h
      · next ha hb hc hd =>
        cases h
        exact ⟨[a, b, c, d], .digits ha hb hc hd, rfl⟩
      · cases h
  · rintro ⟨ds, ⟨ha, hb, hc, hd⟩, rfl⟩
    simp only [List.cons_append, List.nil_append, hexUnit, ha, hb, hc, hd]

theorem lowUnit_eq_ok_iff : lowUnit m s = .ok (u, r) ↔
    ∃ es n, IsUnit es n ∧ IsLow n ∧ s = backslash :: unitLetter :: (es ++ r) ∧
      u = pairBytes m n := by
  constructor
  · intro h
    match s with
    | [] => cases h
    | [b] => simp only [lowUnit] at h; split at h <;> cases h
    | b :: c :: rest =>
      simp only [lowUnit] at h
      split at h
      · cases h
      next hb =>
      split at h
      · cases h
      next hc =>
      split at h
      · cases h
      next hunit =>
      split at h
      · next hlow =>
        simp only [Except.ok.injEq, Prod.mk.injEq] at h
        obtain ⟨hu, rfl⟩ := h
        obtain ⟨es, hes, rfl⟩ := hexUnit_eq_ok_iff.1 hunit
        rw [Decidable.not_not.1 hb, Decidable.not_not.1 hc]
        exact ⟨es, _, hes, hlow, rfl, hu.symm⟩
      · cases h
  · rintro ⟨es, n, hes, hlow, rfl, hu⟩
    have hunit : hexUnit (es ++ r) = .ok (n, r) := hexUnit_eq_ok_iff.2 ⟨es, hes, rfl⟩
    simp only [lowUnit, ne_eq, not_true, if_false, hunit, hu]
    exact if_pos hlow

theorem escape_eq_ok_iff : escape s = .ok (u, r) ↔ ∃ e, IsEscape e u ∧ s = e ++ r := by
  constructor
  · intro h
    cases s with
    | nil => cases h
    | cons b s =>
      simp only [escape] at h
      split at h
      · next hb =>
        split at h
        · cases h
        next hunit =>
        obtain ⟨ds, hds, rfl⟩ := hexUnit_eq_ok_iff.1 hunit
        rw [hb]
        split at h
        · cases h
        next hlow =>
        split at h
        · next hhigh =>
          obtain ⟨es, n, hes, hlow, rfl, hu⟩ := lowUnit_eq_ok_iff.1 h
          rw [hu]
          exact ⟨_, .pair hds hhigh hes hlow, by simp⟩
        · next hhigh =>
          simp only [Except.ok.injEq, Prod.mk.injEq] at h
          obtain ⟨rfl, rfl⟩ := h
          exact ⟨_, .unit hds hhigh hlow, rfl⟩
      · split at h
        · next hc =>
          cases h
          exact ⟨_, .sign hc, rfl⟩
        · cases h
  · rintro ⟨e, he, rfl⟩
    cases he with
    | @sign b c hc =>
      have hb : b ≠ unitLetter := by
        rintro rfl
        cases hc
      simp only [List.cons_append, List.nil_append, escape, hb, if_false, hc]
    | @unit ds n hds hhigh hlow =>
      have hunit : hexUnit (ds ++ r) = .ok (n, r) := hexUnit_eq_ok_iff.2 ⟨ds, hds, rfl⟩
      rw [List.cons_append, escape, if_pos rfl, hunit]
      exact (if_neg hlow).trans (if_neg hhigh)
    | @pair ds es m n hds hhigh hes hlow =>
      have hunit : hexUnit (ds ++ (backslash :: unitLetter :: (es ++ r))) = .ok (m, _) :=
        hexUnit_eq_ok_iff.2 ⟨ds, hds, rfl⟩
      have hnot : ¬IsLow m := fun h => by
        have := Nat.le_trans h.1 hhigh.2
        omega
      rw [List.cons_append, List.append_assoc, List.cons_append, List.cons_append, escape,
        if_pos rfl, hunit]
      refine (if_neg hnot).trans ((if_pos hhigh).trans ?_)
      exact lowUnit_eq_ok_iff.2 ⟨es, n, hes, hlow, rfl, rfl⟩

theorem content_eq_ok_iff :
    content s = .ok (u, r) ↔ ∃ c, Decoded c u ∧ s = c ++ quote :: r := by
  constructor
  · intro h
    fun_induction content s generalizing u r with
    | case1 | case3 | case5 => cases h
    | case2 s =>
      cases h
      exact ⟨[], .nil, rfl⟩
    | case4 s t q he _ ih =>
      cases hq : content q with
      | error => rw [hq] at h; cases h
      | ok p =>
        rw [hq] at h
        cases h
        obtain ⟨c, hc, rfl⟩ := ih hq
        obtain ⟨e, hescape, rfl⟩ := escape_eq_ok_iff.1 he
        exact ⟨backslash :: (e ++ c), .escape hescape hc, by simp⟩
    | case6 b s hquote hbackslash hcontrol ih =>
      cases hs : content s with
      | error => rw [hs] at h; cases h
      | ok p =>
        rw [hs] at h
        cases h
        obtain ⟨c, hc, rfl⟩ := ih hs
        exact ⟨b :: c, .plain ⟨hquote, hbackslash, hcontrol⟩ hc, rfl⟩
  · rintro ⟨c, hc, rfl⟩
    induction hc with
    | nil =>
      rw [List.nil_append, content, if_pos rfl]
    | plain hb _ ih => rw [List.cons_append, content_cons_plain hb, ih]; rfl
    | @escape e c t u he _ ih =>
      have hescape : escape (e ++ (c ++ quote :: r)) = .ok (t, c ++ quote :: r) :=
        escape_eq_ok_iff.2 ⟨e, he, rfl⟩
      rw [List.cons_append, List.append_assoc, content_escape hescape, ih]
      rfl

theorem stringBody_eq_ok_iff {t : String} :
    stringBody s = .ok (t, r) ↔ ∃ c, Denotes c t ∧ s = c ++ quote :: r := by
  constructor
  · intro h
    unfold stringBody at h
    split at h
    · cases h
    next hcontent =>
    split at h
    · next htext =>
      cases h
      obtain ⟨c, hc, hs⟩ := content_eq_ok_iff.1 hcontent
      exact ⟨c, ⟨_, hc, htext⟩, hs⟩
    · cases h
  · rintro ⟨c, ⟨u, hc, htext⟩, rfl⟩
    have hcontent : content (c ++ quote :: r) = .ok (u, r) := content_eq_ok_iff.2 ⟨c, hc, rfl⟩
    simp only [stringBody, hcontent, htext]

theorem skipString_eq_ok_iff : skipString s = .ok r ↔ ∃ c, IsContent c ∧ s = c ++ quote :: r := by
  constructor
  · intro h
    fun_induction skipString s with
    | case1 | case3 | case4 | case7 | case8 => cases h
    | case2 s =>
      cases h
      exact ⟨[], .nil, rfl⟩
    | case5 s n q hunit _ ih =>
      obtain ⟨c, hc, rfl⟩ := ih h
      obtain ⟨ds, hds, rfl⟩ := hexUnit_eq_ok_iff.1 hunit
      exact ⟨backslash :: unitLetter :: (ds ++ c), .unit hds hc, by simp⟩
    | case6 b s _ hsign _ ih =>
      obtain ⟨c, hc, rfl⟩ := ih h
      exact ⟨backslash :: b :: c, .sign hsign hc, rfl⟩
    | case9 b s hquote hbackslash hcontrol ih =>
      obtain ⟨c, hc, rfl⟩ := ih h
      exact ⟨b :: c, .plain ⟨hquote, hbackslash, hcontrol⟩ hc, rfl⟩
  · rintro ⟨c, hc, rfl⟩
    induction hc with
    | nil =>
      rw [List.nil_append, skipString.eq_def]
      exact if_pos rfl
    | plain hb _ ih =>
      rw [List.cons_append, skipString.eq_def]
      simp only [hb.1, hb.2.1, hb.2.2, if_false, ih]
    | @sign b c hb _ ih =>
      have hunit : b ≠ unitLetter := by
        rintro rfl
        cases hb
      rw [List.cons_append, List.cons_append, skipString, if_neg (by decide), if_pos rfl]
      simp only [hunit, hb, if_true, if_false, ih]
    | @unit ds c n hds _ ih =>
      have hunit : hexUnit (ds ++ (c ++ quote :: r)) = .ok (n, c ++ quote :: r) :=
        hexUnit_eq_ok_iff.2 ⟨ds, hds, rfl⟩
      rw [List.cons_append, List.cons_append, List.append_assoc, skipString, if_neg (by decide),
        if_pos rfl]
      simp only [if_true]
      split
      · next h => cases hunit ▸ h
      · next h =>
        cases hunit ▸ h
        exact ih

/-- Whatever denotes bytes may stand between quotes. -/
theorem Decoded.isContent {c : List UInt8} (h : Decoded c u) : IsContent c := by
  induction h with
  | nil => exact .nil
  | plain hb _ ih => exact .plain hb ih
  | escape he _ ih =>
    cases he with
    | sign hc => exact .sign (Option.isSome_of_mem hc) ih
    | unit hds _ _ => exact .unit hds ih
    | pair hds _ hes _ =>
      rw [List.cons_append, List.append_assoc]
      exact .unit hds (.unit hes ih)

theorem Denotes.isContent {c : List UInt8} {text : String} (h : Denotes c text) : IsContent c := by
  obtain ⟨u, hc, -⟩ := h
  exact hc.isContent

instance : Decidable (Plain b) := inferInstanceAs (Decidable (_ ∧ _ ∧ _))

/-- Bytes that stand for themselves. -/
theorem decoded_of_plain (h : ∀ b ∈ u, Plain b) : Decoded u u := by
  induction u with
  | nil => exact .nil
  | cons b u ih =>
    exact .plain (h b List.mem_cons_self) (ih fun c hc => h c (List.mem_cons_of_mem b hc))

theorem denotes_utf8 {text : String} (h : (Text.utf8 text).all (Plain ·)) :
    Denotes (Text.utf8 text) text :=
  ⟨_, decoded_of_plain fun b hb => of_decide_eq_true (List.all_eq_true.1 h b hb),
    Text.ofUtf8?_utf8 text⟩

/-! ## Values that hold no others -/

/-- The kinds of values, as a first byte tells them. -/
inductive Kind where
  | null | boolean (b : Bool) | number | string | array | object

def Kind.of? (b : UInt8) : Option Kind :=
  if b = 0x6E then some .null
  else if b = 0x74 then some (.boolean true)
  else if b = 0x66 then some (.boolean false)
  else if b = quote then some .string
  else if b = openBracket then some .array
  else if b = openBrace then some .object
  else if b = minus ∨ (digit? b).isSome = true then some .number
  else none

def Value.kind : Value → Kind
  | .null => .null
  | .boolean b => .boolean b
  | .number _ => .number
  | .string _ => .string
  | .array _ => .array
  | .object _ => .object

theorem ne_of_digit? (hb : (digit? b).isSome = true) (hc : digit? c = none) : b ≠ c := by
  rintro rfl
  rw [hc] at hb
  cases hb

theorem Kind.of?_digit (hb : (digit? b).isSome = true) : Kind.of? b = some .number := by
  have hne {c : UInt8} (hc : digit? c = none) : b ≠ c := ne_of_digit? hb hc
  rw [Kind.of?, if_neg (hne (by decide)), if_neg (hne (by decide)), if_neg (hne (by decide)),
    if_neg (hne (by decide)), if_neg (hne (by decide)), if_neg (hne (by decide)),
    if_pos (.inr hb)]

theorem IsUnsigned.exists_digit (h : IsUnsigned text) :
    ∃ b rest, text = b :: rest ∧ (digit? b).isSome = true := by
  obtain ⟨whole, fraction, exponent, rfl, ⟨⟨hne, hds⟩, -⟩, -⟩ := h
  obtain ⟨b, whole, rfl⟩ := List.exists_cons_of_ne_nil hne
  exact ⟨b, _, rfl, hds b List.mem_cons_self⟩

/-- The first byte of a value tells its kind. -/
theorem IsScalar.exists_kind {v : Value} (h : IsScalar v text) :
    ∃ b rest, text = b :: rest ∧ Kind.of? b = some v.kind ∧ v.kind ≠ .array ∧
      v.kind ≠ .object := by
  cases h with
  | null => exact ⟨0x6E, [0x75, 0x6C, 0x6C], by decide, rfl, nofun, nofun⟩
  | boolean b =>
    cases b with
    | true => exact ⟨0x74, [0x72, 0x75, 0x65], by decide, rfl, nofun, nofun⟩
    | false => exact ⟨0x66, [0x61, 0x6C, 0x73, 0x65], by decide, rfl, nofun, nofun⟩
  | number hnumber =>
    cases hnumber with
    | natural h =>
      obtain ⟨b, rest, rfl, hb⟩ := h.exists_digit
      exact ⟨b, rest, rfl, Kind.of?_digit hb, nofun, nofun⟩
    | @negative text _ => exact ⟨minus, text, rfl, by rfl, nofun, nofun⟩
  | @string c _ => exact ⟨quote, c ++ [quote], rfl, by rfl, nofun, nofun⟩

theorem skipScalar_digit (hb : (digit? b).isSome = true) (s : List UInt8) :
    skipScalar (b :: s) = skipNumber (b :: s) := by
  have hne {c : UInt8} (hc : digit? c = none) : b ≠ c := ne_of_digit? hb hc
  have hword : wordAfter? b = none := by
    rw [wordAfter?, if_neg (hne (by decide)), if_neg (hne (by decide)), if_neg (hne (by decide))]
  simp only [skipScalar, hword]
  rw [if_neg (hne (by decide)), if_neg (hne (by decide)), if_pos hb]

theorem skipScalar_append {v : Value} (h : IsScalar v text) (hr : Ends r) :
    skipScalar (text ++ r) = .ok r := by
  cases h with
  | null => exact word_eq_ok_iff.2 rfl
  | boolean b => cases b <;> exact word_eq_ok_iff.2 rfl
  | number hnumber =>
    cases hnumber with
    | natural h =>
      have hskip := skipNumber_append h hr
      obtain ⟨b, rest, rfl, hb⟩ := h.exists_digit
      exact (skipScalar_digit hb _).trans hskip
    | negative h => exact skipNumber_append h hr
  | @string c hc =>
    have hskip : skipString (c ++ [quote] ++ r) = .ok r :=
      skipString_eq_ok_iff.2 ⟨c, hc, List.append_assoc c [quote] r⟩
    exact hskip

theorem isScalar_of_wordAfter? (h : wordAfter? b = some w) :
    ∃ v, IsScalar v (b :: w) := by
  unfold wordAfter? at h
  split at h
  · next hb =>
    cases h
    exact ⟨.null, hb ▸ .null⟩
  split at h
  · next hb =>
    cases h
    exact ⟨.boolean true, hb ▸ .boolean true⟩
  split at h
  · next hb =>
    cases h
    exact ⟨.boolean false, hb ▸ .boolean false⟩
  · cases h

theorem isScalar_of_skipScalar (h : skipScalar s = .ok r) :
    ∃ v text, IsScalar v text ∧ s = text ++ r := by
  cases s with
  | nil => cases h
  | cons b s =>
    simp only [skipScalar] at h
    split at h
    · next w hw =>
      obtain ⟨v, hv⟩ := isScalar_of_wordAfter? hw
      exact ⟨v, b :: w, hv, congrArg (b :: ·) (word_eq_ok_iff.1 h)⟩
    split at h
    · next hb =>
      obtain ⟨c, hc, rfl⟩ := skipString_eq_ok_iff.1 h
      exact ⟨.string c, _, .string hc, by simp [hb]⟩
    split at h
    · next hb =>
      obtain ⟨text, htext, rfl⟩ := isUnsigned_of_skipNumber h
      exact ⟨.number _, _, .number (.negative htext), by rw [hb]; rfl⟩
    split at h
    · obtain ⟨text, htext, hs⟩ := isUnsigned_of_skipNumber h
      exact ⟨.number text, text, .number (.natural htext), hs⟩
    · cases h

/-- No two values are written as one. -/
theorem IsScalar.eq_of_text {v v' : Value} {text' : List UInt8} (h : IsScalar v text)
    (h' : IsScalar v' text') (htext : text = text') : v = v' := by
  have hkind : v.kind = v'.kind := by
    obtain ⟨b, rest, hb, hkind, -⟩ := h.exists_kind
    obtain ⟨b', rest', hb', hkind', -⟩ := h'.exists_kind
    cases hb.symm.trans (htext.trans hb')
    exact Option.some.inj (hkind.symm.trans hkind')
  cases h with
  | null =>
    cases h' with
    | null => rfl
    | _ => cases hkind
  | boolean =>
    cases h' with
    | boolean =>
      cases hkind
      rfl
    | _ => cases hkind
  | number =>
    cases h' with
    | number => rw [htext]
    | _ => cases hkind
  | string =>
    cases h' with
    | string => rw [List.append_cancel_right (List.cons.inj htext).2]
    | _ => cases hkind

theorem IsScalar.unique {v v' : Value} {text' r' : List UInt8} (h : IsScalar v text)
    (h' : IsScalar v' text') (hr : Ends r) (hr' : Ends r') (heq : text ++ r = text' ++ r') :
    v = v' ∧ r = r' := by
  have hrest : r = r' := by
    have hskip := skipScalar_append h hr
    rw [heq, skipScalar_append h' hr'] at hskip
    exact (Except.ok.inj hskip).symm
  subst hrest
  exact ⟨h.eq_of_text h' (List.append_cancel_right heq), rfl⟩

end Discovery.Json
