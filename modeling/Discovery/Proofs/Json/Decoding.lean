import Mathlib.Data.List.Forall2
import Discovery.Proofs.Json.Skipping

/-!
# Readers decode values

What a reader gives is settled by the value that stands in the text (`Reader.Decodes`): it takes
every value that relates to what it gives, however that is written, and nothing else. Readers of
arrays and objects do so if the readers of their parts do. For a whole text the value is the one it
is of (`Reader.Decodes.whole_eq_ok_iff`).
-/

namespace Discovery.Json

variable {α β σ : Type} {reader item : Reader α} {Is : Value → α → Prop} {a : α} {b : UInt8}
  {r s s' t u : List UInt8} {p : Phrase} {v : Value} {vs : List Value}
  {m : List UInt8 × Value} {ms : List (List UInt8 × Value)}

/-- A reader that gives what relates to the value it reads. -/
structure Reader.Decodes (reader : Reader α) (Is : Value → α → Prop) : Prop where
  sound {s r : List UInt8} {a : α} : reader.run s = .ok (a, r) → ∃ v, Spells (.value v) s r ∧ Is v a
  complete {s r : List UInt8} {v : Value} {a : α} : Spells (.value v) s r → Is v a → Ends r →
    reader.run s = .ok (a, r)

/-! ## Blanks -/

/-- Blanks before a phrase do not matter. -/
theorem Spells.of_skipBlank_eq (h : Spells p s r) (hs : skipBlank s' = skipBlank s) :
    Spells p s' r := by
  cases h with
  | scalar hv h => exact .scalar hv (hs.trans h)
  | emptyArray h ht => exact .emptyArray (hs.trans h) ht
  | array h hv hvs => exact .array (hs.trans h) hv hvs
  | emptyObject h ht => exact .emptyObject (hs.trans h) ht
  | object h hk hv hms => exact .object (hs.trans h) hk hv hms
  | noElement h => exact .noElement (hs.trans h)
  | element h hv hvs => exact .element (hs.trans h) hv hvs
  | noMember h => exact .noMember (hs.trans h)
  | member h hk hv hms => exact .member (hs.trans h) hk hv hms

theorem spells_skipBlank_iff : Spells p (skipBlank s) r ↔ Spells p s r :=
  ⟨fun h => h.of_skipBlank_eq (skipBlank_skipBlank s).symm,
    fun h => h.of_skipBlank_eq (skipBlank_skipBlank s)⟩

/-! ## Single values -/

theorem map_eq_ok_iff {x : Except Fault α} {f : α → β} {y : β} :
    x.map f = .ok y ↔ ∃ a, x = .ok a ∧ f a = y := by
  cases x <;> simp [Except.map]

theorem Reader.Decodes.map (h : reader.Decodes Is) (f : α → β) :
    (reader.map f).Decodes fun v b => ∃ a, Is v a ∧ b = f a where
  sound hrun := by
    obtain ⟨⟨a, t⟩, hread, heq⟩ := map_eq_ok_iff.1 hrun
    cases heq
    obtain ⟨v, hv, his⟩ := h.sound hread
    exact ⟨v, hv, a, his, rfl⟩
  complete hv his hr := by
    obtain ⟨a, his, rfl⟩ := his
    exact map_eq_ok_iff.2 ⟨_, h.complete hv his hr, rfl⟩

theorem Reader.Decodes.congr {Is' : Value → α → Prop} (h : reader.Decodes Is)
    (hiff : ∀ v a, Is v a ↔ Is' v a) : reader.Decodes Is' := by
  obtain rfl : Is = Is' := funext₂ fun v a => propext (hiff v a)
  exact h

theorem decodes_ignored : Reader.ignored.Decodes fun _ _ => True where
  sound hrun := by
    obtain ⟨t, hskip, heq⟩ := map_eq_ok_iff.1 hrun
    cases heq
    obtain ⟨v, hv⟩ := spells_of_skip hskip
    exact ⟨v, hv, trivial⟩
  complete hv _ hr := map_eq_ok_iff.2 ⟨_, skip_of_spells hv hr, rfl⟩

theorem behind_eq_ok_iff {first : UInt8} {inner : List UInt8 → Except Fault (α × List UInt8)} :
    Reader.behind first inner s = .ok (a, r) ↔
      ∃ t, skipBlank s = first :: t ∧ inner t = .ok (a, r) := by
  constructor
  · intro h
    unfold Reader.behind at h
    split at h
    · cases h
    next hs =>
    split at h
    · next hb => exact ⟨_, hb ▸ hs, h⟩
    · cases h
  · rintro ⟨t, hs, h⟩
    rw [behind_cons hs, h]

/-- A string of a text. -/
def IsText (v : Value) (text : String) : Prop := ∃ c, v = .string c ∧ Denotes c text

theorem decodes_string : Reader.string.Decodes IsText where
  sound h := by
    obtain ⟨t, hs, hbody⟩ := behind_eq_ok_iff.1 h
    obtain ⟨c, hc, rfl⟩ := stringBody_eq_ok_iff.1 hbody
    exact ⟨.string c, .scalar (.string hc.isContent) (by rw [hs]; simp), c, rfl, hc⟩
  complete hv his _ := by
    obtain ⟨c, rfl, hc⟩ := his
    cases hv with
    | scalar hv hs =>
      cases hv
      refine behind_eq_ok_iff.2 ⟨_, hs, stringBody_eq_ok_iff.2 ⟨c, hc, ?_⟩⟩
      exact List.append_assoc c [quote] _

theorem natural?_eq_some {n : Numeral} {k : Nat} (h : n.natural? = some k) :
    n.fraction = none ∧ n.exponent = none ∧ ofDigits n.whole = k := by
  unfold Numeral.natural? at h
  split at h
  · cases h
  next hplain =>
  simp only [Bool.or_eq_true, not_or, Bool.not_eq_true, Option.isSome_eq_false_iff,
    Option.isNone_iff_eq_none] at hplain
  exact ⟨hplain.1.2, hplain.2, Option.some.inj (Option.filter_eq_some_iff.1 h).1⟩

theorem numeral_of_bounded {negative : Bool} {n : Numeral}
    (h : boundedNumeral negative s = .ok (n, r)) : numeral negative s = .ok (n, r) := by
  unfold boundedNumeral at h
  split at h
  · cases h
  next hnumeral =>
  split at h
  · cases h
  · rw [hnumeral, h]

theorem decodes_natural {bound : Nat} (hbound : bound ≤ Text.wordBound) :
    (Reader.natural bound).Decodes fun v n => v = .number (bytes (number n)) ∧ n < bound where
  sound {s r n} h := by
    simp only [Reader.natural] at h
    split at h
    · cases h
    next hs =>
    split at h
    swap
    · cases h
    split at h
    · cases h
    next hread =>
    split at h
    swap
    · cases h
    next hnatural =>
    split at h
    swap
    · cases h
    next hlt =>
    cases h
    obtain ⟨text, htext, hrest, hwhole⟩ := isUnsigned_of_numeral (numeral_of_bounded hread)
    obtain ⟨hfraction, hexponent, rfl⟩ := natural?_eq_some hnatural
    obtain ⟨hwhole, hvalues⟩ := hwhole hfraction hexponent
    refine ⟨.number text, .scalar (.number (.natural htext)) (hs.trans hrest), ?_, hlt⟩
    rw [← hvalues, hwhole.bytes_number]
  complete hv := by
    rintro ⟨rfl, hlt⟩ hr
    cases hv with
    | scalar hv hs =>
      cases hv
      refine reads_natural hlt (Nat.lt_of_lt_of_le hlt hbound) ?_ hr
      rw [← hs, skipBlank_skipBlank]

theorem Value.eq_null (h : v.kind = .null) : v = .null := by
  cases v <;> first | rfl | cases h

theorem Reader.Decodes.orNull (h : reader.Decodes Is) (hnull : ∀ a, ¬Is .null a) :
    reader.orNull.Decodes fun v o => v = .null ∧ o = none ∨ ∃ a, Is v a ∧ o = some a where
  sound hrun := by
    simp only [Reader.orNull] at hrun
    split at hrun
    · next rest hs =>
      obtain ⟨t, hword, heq⟩ := map_eq_ok_iff.1 hrun
      cases heq
      cases word_eq_ok_iff.1 hword
      exact ⟨.null, .scalar .null hs, .inl ⟨rfl, rfl⟩⟩
    · obtain ⟨⟨a, t⟩, hread, heq⟩ := map_eq_ok_iff.1 hrun
      cases heq
      obtain ⟨v, hv, his⟩ := h.sound hread
      exact ⟨v, spells_skipBlank_iff.1 hv, .inr ⟨a, his, rfl⟩⟩
  complete {s r v o} hv his hr := by
    simp only [Reader.orNull]
    split
    · next rest hs =>
      -- what begins as null is null, and nothing else that is wanted
      have hkind : some .null = some v.kind := hv.kind_of_cons hs
      obtain rfl : v = .null := Value.eq_null (Option.some.inj hkind).symm
      obtain ⟨-, rfl⟩ | ⟨a, his, -⟩ := his
      · cases hv with
        | scalar hv hs' =>
          cases hv
          refine map_eq_ok_iff.2 ⟨r, word_eq_ok_iff.2 ?_, rfl⟩
          exact (List.cons.inj (hs.symm.trans hs')).2
      · exact absurd his (hnull a)
    · next hne =>
      obtain ⟨rfl, -⟩ | ⟨a, his, rfl⟩ := his
      · cases hv with
        | scalar hv hs =>
          cases hv
          exact absurd hs (hne _)
      · exact map_eq_ok_iff.2 ⟨_, h.complete (spells_skipBlank_iff.2 hv) his hr, rfl⟩

/-! ## Arrays -/

theorem afterElement_stop_iff :
    Reader.afterElement s = .ok (.stop r) ↔ skipBlank s = closeBracket :: r := by
  constructor
  · intro h
    unfold Reader.afterElement at h
    split at h
    · cases h
    next hs =>
    split at h
    · next hb =>
      cases h
      rw [hs, hb]
    split at h
    · split at h
      · cases h
      · split at h <;> cases h
    · cases h
  · intro hs
    simp only [Reader.afterElement, hs, if_true]

theorem afterElement_next_iff : Reader.afterElement s = .ok (.next r) ↔
    ∃ t, skipBlank s = comma :: t ∧ skipBlank t = r ∧ ∃ b u, r = b :: u ∧ b ≠ closeBracket := by
  constructor
  · intro h
    unfold Reader.afterElement at h
    split at h
    · cases h
    next hs =>
    split at h
    · cases h
    split at h
    · next hb =>
      split at h
      · cases h
      next ht =>
      split at h
      · cases h
      next hc =>
      cases h
      exact ⟨_, hb ▸ hs, ht, _, _, rfl, hc⟩
    · cases h
  · rintro ⟨t, hs, ht, b, u, rfl, hb⟩
    have hcomma : comma ≠ closeBracket := by decide
    simp only [Reader.afterElement, hs, hcomma, if_true, if_false, ht, hb]

theorem beforeElements_next_iff : Reader.beforeElements s = .ok (.next r) ↔
    skipBlank s = r ∧ ∃ b u, r = b :: u ∧ b ≠ closeBracket := by
  constructor
  · intro h
    unfold Reader.beforeElements at h
    split at h
    · cases h
    next hs =>
    split at h
    · cases h
    next hb =>
    cases h
    exact ⟨hs, _, _, rfl, hb⟩
  · rintro ⟨hs, b, u, rfl, hb⟩
    simp only [Reader.beforeElements, hs, hb, if_false]

theorem beforeElements_stop_iff :
    Reader.beforeElements s = .ok (.stop r) ↔ skipBlank s = closeBracket :: r := by
  constructor
  · intro h
    unfold Reader.beforeElements at h
    split at h
    · cases h
    next hs =>
    split at h
    · next hb =>
      cases h
      rw [hs, hb]
    · cases h
  · intro hs
    simp only [Reader.beforeElements, hs, if_true]

/-- A value is no end of an array. -/
theorem Spells.exists_cons (h : Spells (.value v) s r) :
    ∃ b t, skipBlank s = b :: t ∧ b ≠ closeBracket := by
  obtain ⟨b, t, hs, hkind⟩ := h.exists_kind
  refine ⟨b, t, hs, ?_⟩
  rintro rfl
  cases hkind

theorem spells_of_elements (h : item.Decodes Is) {xs : List α}
    (hrun : Reader.elements item s = .ok (xs, r)) : ∃ v vs t,
      Spells (.value v) s t ∧ Spells (.elements vs) t r ∧ List.Forall₂ Is (v :: vs) xs := by
  fun_induction Reader.elements item s generalizing xs with
  | case1 | case2 => cases hrun
  | case3 s a t hitem u hstop =>
    cases hrun
    obtain ⟨v, hv, his⟩ := h.sound hitem
    exact ⟨v, [], t, hv, .noElement (afterElement_stop_iff.1 hstop), .cons his .nil⟩
  | case4 s a t hitem u hnext ih =>
    obtain ⟨⟨ys, q⟩, hys, heq⟩ := map_eq_ok_iff.1 hrun
    cases heq
    obtain ⟨v, hv, his⟩ := h.sound hitem
    obtain ⟨w, ws, p, hw, hws, hall⟩ := ih hys
    obtain ⟨q, ht, rfl, -⟩ := afterElement_next_iff.1 hnext
    exact ⟨v, w :: ws, t, hv, .element ht (spells_skipBlank_iff.1 hw) hws, .cons his hall⟩

theorem elements_of_spells (h : item.Decodes Is) {xs : List α} (hv : Spells (.value v) s t)
    (hvs : Spells (.elements vs) t r) (hall : List.Forall₂ Is (v :: vs) xs) :
    Reader.elements item s = .ok (xs, r) := by
  induction vs generalizing v s t xs with
  | nil =>
    obtain ⟨a, xs, his, hnil, rfl⟩ := List.forall₂_cons_left_iff.1 hall
    cases hnil
    have hitem := h.complete hv his hvs.ends_elements
    cases hvs with
    | noElement ht => rw [elements_eq hitem, afterElement_stop_iff.2 ht]
  | cons w ws ih =>
    obtain ⟨a, xs, his, hrest, rfl⟩ := List.forall₂_cons_left_iff.1 hall
    have hitem := h.complete hv his hvs.ends_elements
    cases hvs with
    | element ht hw hws =>
      obtain ⟨b, u, hu, hb⟩ := hw.exists_cons
      rw [elements_eq hitem, afterElement_next_iff.2 ⟨_, ht, hu, b, u, rfl, hb⟩]
      have hw := hw.of_skipBlank_eq ((congrArg skipBlank hu).symm.trans (skipBlank_skipBlank _))
      exact map_eq_ok_iff.2 ⟨_, ih hw hws hrest, rfl⟩

theorem Reader.Decodes.array (h : item.Decodes Is) :
    (Reader.array item).Decodes fun v xs => ∃ vs, v = .array vs ∧ List.Forall₂ Is vs xs where
  sound hrun := by
    obtain ⟨t, hs, hrun⟩ := behind_eq_ok_iff.1 hrun
    split at hrun
    · cases hrun
    · next hstop =>
      cases hrun
      exact ⟨_, .emptyArray hs (beforeElements_stop_iff.1 hstop), [], rfl, .nil⟩
    · next hnext =>
      obtain ⟨rfl, -⟩ := beforeElements_next_iff.1 hnext
      obtain ⟨v, vs, u, hv, hvs, hall⟩ := spells_of_elements h hrun
      exact ⟨_, .array hs (spells_skipBlank_iff.1 hv) hvs, v :: vs, rfl, hall⟩
  complete hv his _ := by
    obtain ⟨vs, rfl, hall⟩ := his
    refine behind_eq_ok_iff.2 ?_
    cases hv with
    | scalar hv _ => cases hv
    | emptyArray hs ht =>
      cases hall
      exact ⟨_, hs, by rw [beforeElements_stop_iff.2 ht]⟩
    | array hs hv hvs =>
      obtain ⟨b, u, ht, hb⟩ := hv.exists_cons
      refine ⟨_, hs, ?_⟩
      rw [beforeElements_next_iff.2 ⟨rfl, b, u, ht, hb⟩]
      exact elements_of_spells h (spells_skipBlank_iff.2 hv) hvs hall

/-! ## Objects -/

theorem afterMember_stop_iff :
    Reader.afterMember s = .ok (.stop r) ↔ skipBlank s = closeBrace :: r := by
  constructor
  · intro h
    unfold Reader.afterMember at h
    split at h
    · cases h
    next hs =>
    split at h
    · next hb =>
      cases h
      rw [hs, hb]
    split at h
    · split at h
      · cases h
      · split at h <;> cases h
    · cases h
  · intro hs
    simp only [Reader.afterMember, hs, if_true]

theorem afterMember_next_iff : Reader.afterMember s = .ok (.next r) ↔
    ∃ t, skipBlank s = comma :: t ∧ skipBlank t = quote :: r := by
  constructor
  · intro h
    unfold Reader.afterMember at h
    split at h
    · cases h
    next hs =>
    split at h
    · cases h
    split at h
    · next hb =>
      split at h
      · cases h
      next ht =>
      split at h
      · next hc =>
        cases h
        exact ⟨_, hb ▸ hs, hc ▸ ht⟩
      · cases h
    · cases h
  · rintro ⟨t, hs, ht⟩
    have hcomma : comma ≠ closeBrace := by decide
    simp only [Reader.afterMember, hs, hcomma, if_true, if_false, ht]

theorem beforeMembers_stop_iff :
    Reader.beforeMembers s = .ok (.stop r) ↔ skipBlank s = closeBrace :: r := by
  constructor
  · intro h
    unfold Reader.beforeMembers at h
    split at h
    · cases h
    next hs =>
    split at h
    · next hb =>
      cases h
      rw [hs, hb]
    split at h <;> cases h
  · intro hs
    simp only [Reader.beforeMembers, hs, if_true]

theorem beforeMembers_next_iff :
    Reader.beforeMembers s = .ok (.next r) ↔ skipBlank s = quote :: r := by
  constructor
  · intro h
    unfold Reader.beforeMembers at h
    split at h
    · cases h
    next hs =>
    split at h
    · cases h
    split at h
    · next hb =>
      cases h
      rw [hs, hb]
    · cases h
  · intro hs
    have hquote : quote ≠ closeBrace := by decide
    simp only [Reader.beforeMembers, hs, hquote, if_true, if_false]

/-- The members of an object lead from one state to another, each by its key and its value. -/
inductive Leads (Member : σ → String → Value → σ → Prop) :
    σ → List (List UInt8 × Value) → σ → Prop where
  | nil (state : σ) : Leads Member state [] state
  | cons {state mid last : σ} {c : List UInt8} {key : String} {v : Value}
      {ms : List (List UInt8 × Value)} : Denotes c key → Member state key v mid →
      Leads Member mid ms last → Leads Member state ((c, v) :: ms) last

section

variable {value : σ → String → Except Fault (Reader σ)} {Member : σ → String → Value → σ → Prop}
  {state last : σ}

/-- A reader of members that gives each the states that it leads to. -/
structure DecodesMembers (value : σ → String → Except Fault (Reader σ))
    (Member : σ → String → Value → σ → Prop) : Prop where
  decodes {state : σ} {key : String} {reader : Reader σ} : value state key = .ok reader →
    reader.Decodes (Member state key)
  exists_reader {state next : σ} {key : String} {v : Value} : Member state key v next →
    ∃ reader, value state key = .ok reader

theorem spells_of_members (h : DecodesMembers value Member)
    (hrun : Reader.members value state s = .ok (last, r)) : ∃ m ms q t u,
      s = m.1 ++ quote :: q ∧ skipBlank q = colon :: t ∧ Spells (.value m.2) t u ∧
        Spells (.members ms) u r ∧ Leads Member state (m :: ms) last := by
  fun_induction Reader.members value state s with
  | case1 | case2 | case3 | case4 | case5 => cases hrun
  | case6 state s key q hkey reader hreader t hcolon mid u hvalue p hstop =>
    cases hrun
    obtain ⟨c, hc, rfl⟩ := stringBody_eq_ok_iff.1 hkey
    obtain ⟨v, hv, his⟩ := (h.decodes hreader).sound hvalue
    exact ⟨(c, v), [], q, t, u, rfl, afterKey_eq_ok_iff.1 hcolon, hv,
      .noMember (afterMember_stop_iff.1 hstop), .cons hc his (.nil last)⟩
  | case7 state s key q hkey reader hreader t hcolon mid u hvalue p hnext ih =>
    obtain ⟨c, hc, rfl⟩ := stringBody_eq_ok_iff.1 hkey
    obtain ⟨v, hv, his⟩ := (h.decodes hreader).sound hvalue
    obtain ⟨⟨c', v'⟩, ms, q', t', u', rfl, hcolon', hv', hms, hleads⟩ := ih hrun
    obtain ⟨p', hcomma, hp'⟩ := afterMember_next_iff.1 hnext
    have hkeyed : Keyed c' p' t' := by
      cases hleads with
      | cons hc' _ _ => exact ⟨hc'.isContent, q', hp', hcolon'⟩
    exact ⟨(c, v), (c', v') :: ms, q, t, u, rfl, afterKey_eq_ok_iff.1 hcolon, hv,
      .member hcomma hkeyed hv' hms, .cons hc his hleads⟩

theorem members_of_spells (h : DecodesMembers value Member) {q : List UInt8}
    (hs : s = m.1 ++ quote :: q) (hcolon : skipBlank q = colon :: t)
    (hv : Spells (.value m.2) t u) (hms : Spells (.members ms) u r)
    (hleads : Leads Member state (m :: ms) last) :
    Reader.members value state s = .ok (last, r) := by
  induction ms generalizing m state s q t u with
  | nil =>
    cases hleads with
    | cons hc his hrest =>
      cases hrest
      obtain ⟨reader, hreader⟩ := h.exists_reader his
      have hvalue := (h.decodes hreader).complete hv his hms.ends_members
      rw [members_eq (stringBody_eq_ok_iff.2 ⟨_, hc, hs⟩) hreader (afterKey_eq_ok_iff.2 hcolon)
        hvalue]
      cases hms with
      | noMember hu => rw [afterMember_stop_iff.2 hu]
  | cons n ms ih =>
    cases hleads with
    | cons hc his hrest =>
      obtain ⟨reader, hreader⟩ := h.exists_reader his
      have hvalue := (h.decodes hreader).complete hv his hms.ends_members
      rw [members_eq (stringBody_eq_ok_iff.2 ⟨_, hc, hs⟩) hreader (afterKey_eq_ok_iff.2 hcolon)
        hvalue]
      cases hms with
      | member hu hkeyed hv' hms' =>
        obtain ⟨-, q', ht', hcolon'⟩ := hkeyed
        rw [afterMember_next_iff.2 ⟨_, hu, ht'⟩]
        exact ih rfl hcolon' hv' hms' hrest

/-- An object is read to the state that its members lead to. -/
theorem decodes_object (h : DecodesMembers value Member) (start : σ) :
    (Reader.object value start).Decodes fun v last =>
      ∃ ms, v = .object ms ∧ Leads Member start ms last where
  sound hrun := by
    obtain ⟨t, hs, hrun⟩ := behind_eq_ok_iff.1 hrun
    split at hrun
    · cases hrun
    · next hstop =>
      cases hrun
      exact ⟨_, .emptyObject hs (beforeMembers_stop_iff.1 hstop), [], rfl, .nil start⟩
    · next hnext =>
      obtain ⟨⟨c, v⟩, ms, q, t', u, rfl, hcolon, hv, hms, hleads⟩ := spells_of_members h hrun
      have hkeyed : Keyed c t t' := by
        cases hleads with
        | cons hc _ _ => exact ⟨hc.isContent, q, beforeMembers_next_iff.1 hnext, hcolon⟩
      exact ⟨_, .object hs hkeyed hv hms, (c, v) :: ms, rfl, hleads⟩
  complete hv his _ := by
    obtain ⟨ms, rfl, hleads⟩ := his
    refine behind_eq_ok_iff.2 ?_
    cases hv with
    | scalar hv _ => cases hv
    | emptyObject hs ht =>
      cases hleads
      exact ⟨_, hs, by rw [beforeMembers_stop_iff.2 ht]⟩
    | object hs hkeyed hv hms =>
      obtain ⟨-, q, ht, hcolon⟩ := hkeyed
      refine ⟨_, hs, ?_⟩
      rw [beforeMembers_next_iff.2 ht]
      exact members_of_spells h rfl hcolon hv hms hleads

end

/-! ## Whole texts -/

/-- A text is read whole to what the value relates to that it is of. -/
theorem Reader.Decodes.whole_eq_ok_iff (h : reader.Decodes Is) :
    reader.whole s = .ok a ↔ ∃ v, Document v s ∧ Is v a := by
  unfold Reader.whole
  constructor
  · intro hrun
    split at hrun
    · cases hrun
    next hread =>
    split at hrun
    · next hr =>
      cases hrun
      obtain ⟨v, hv, his⟩ := h.sound hread
      exact ⟨v, ⟨_, hv, hr⟩, his⟩
    · cases hrun
  · rintro ⟨v, ⟨r, hv, hr⟩, his⟩
    simp only [h.complete hv his (ends_of_skipBlank_nil hr), hr, if_true]

end Discovery.Json
