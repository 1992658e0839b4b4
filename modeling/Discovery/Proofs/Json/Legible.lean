import Mathlib.Data.List.Basic
import Discovery.Json.Layout

/-!
# Writings without ambiguity

A writing on one line can be read in one way only: from the writing of a value and the text behind
it, the value and that text can both be told (`Legible`). For numbers the text behind must not begin
with a digit (`Closed`), and what stands behind a part of an array or object never does. Each kind
of writing has this from the kinds that it is made up of; an array or object has it when its parts,
taken pair by pair, have it (`bracketed_append_inj`).
-/

namespace Discovery.Json

variable {α β : Type} {r s p q : List Char}

/-- A text that does not go on with a number. -/
def Closed (r : List Char) : Prop := ∀ c, r.head? = some c → c.isDigit = false

theorem Closed.nil : Closed [] := fun _ h => nomatch h

theorem Closed.cons {c : Char} (h : c.isDigit = false) (r : List Char) : Closed (c :: r) := by
  intro d hd
  cases hd
  exact h

/-- Two writings that are the same where both begin the same text. -/
def Apart (p q : List Char) : Prop :=
  ∀ ⦃r s⦄, Closed r → Closed s → p ++ r = q ++ s → p = q ∧ r = s

theorem Apart.append_left (h : Apart p q) (t : List Char) : Apart (t ++ p) (t ++ q) := by
  intro r s hr hs heq
  rw [List.append_assoc, List.append_assoc] at heq
  obtain ⟨hpq, hrs⟩ := h hr hs (List.append_cancel_left heq)
  exact ⟨by rw [hpq], hrs⟩

/-- Values that can be told from their writings, whatever follows. -/
def Legible (write : α → List Char) : Prop :=
  ∀ ⦃a b r s⦄, Closed r → Closed s → write a ++ r = write b ++ s → a = b ∧ r = s

section
variable {write : α → List Char}

theorem Legible.apart (h : Legible write) (a b : α) : Apart (write a) (write b) := by
  intro r s hr hs heq
  obtain ⟨hab, hrs⟩ := h hr hs heq
  exact ⟨by rw [hab], hrs⟩

theorem Legible.injective (h : Legible write) : Function.Injective write := by
  intro a b hab
  exact (h .nil .nil (by rw [hab])).1

theorem Legible.comp (h : Legible write) {f : β → α} (hf : Function.Injective f) :
    Legible fun b => write (f b) := by
  intro a b r s hr hs heq
  obtain ⟨hab, hrs⟩ := h hr hs heq
  exact ⟨hf hab, hrs⟩

end

/-! ## Strings -/

/-- The characters that are not written as themselves. -/
def escaped : List Char := '"' :: '\\' :: (List.range 0x20).map Char.ofNat

theorem mem_escaped_of_lt {c : Char} (h : c.toNat < 0x20) : c ∈ escaped := by
  have hc : Char.ofNat c.toNat ∈ (List.range 0x20).map Char.ofNat :=
    List.mem_map_of_mem (List.mem_range.2 h)
  rw [Char.ofNat_toNat] at hc
  exact List.mem_cons_of_mem _ (List.mem_cons_of_mem _ hc)

theorem escapeChar_of_notMem {c : Char} (h : c ∉ escaped) : escapeChar c = [c] := by
  have hlt : ¬c.toNat < 0x20 := fun hc => h (mem_escaped_of_lt hc)
  have hne : ∀ d ∈ escaped, c ≠ d := fun d hd e => h (e ▸ hd)
  simp only [escapeChar, hlt, hne '"' (by decide), hne '\\' (by decide), hne '\x08' (by decide),
    hne '\t' (by decide), hne '\n' (by decide), hne '\x0c' (by decide), hne '\r' (by decide),
    ↓reduceIte, Bool.or_self, Bool.false_eq_true, decide_false]

/-- No escape begins another. -/
theorem eq_of_isPrefix_escapeChar {c d : Char} (hc : c ∈ escaped) (hd : d ∈ escaped)
    (h : escapeChar c <+: escapeChar d) : c = d := by
  have hall : (escaped.all fun c => escaped.all fun d =>
      !(escapeChar c).isPrefixOf (escapeChar d) || c == d) = true := by decide
  have hcd := List.all_eq_true.1 (List.all_eq_true.1 hall c hc) d hd
  rw [List.isPrefixOf_iff_prefix.2 h] at hcd
  simpa using hcd

theorem head?_escapeChar_append (c : Char) (r : List Char) :
    (escapeChar c ++ r).head? = some (if c ∈ escaped then '\\' else c) := by
  have hall : (escaped.all fun c => (escapeChar c).head? == some '\\') = true := by decide
  by_cases hc : c ∈ escaped
  · have hhead : (escapeChar c).head? = some '\\' := by
      simpa using List.all_eq_true.1 hall c hc
    rw [List.head?_append, hhead, if_pos hc]
    rfl
  · rw [escapeChar_of_notMem hc, if_neg hc]
    rfl

/-- The quote behind a string is not taken for a part of it. -/
theorem escapeChar_append_ne_quote (c : Char) : escapeChar c ++ r ≠ '"' :: s := by
  intro h
  have hhead : '"' = if c ∈ escaped then '\\' else c := by
    have he := head?_escapeChar_append c r
    rw [h] at he
    exact Option.some.inj he
  split at hhead
  · exact absurd hhead (by decide)
  · next hc => exact hc (hhead ▸ by decide)

theorem escapeChar_append_inj {c d : Char} (h : escapeChar c ++ r = escapeChar d ++ s) :
    c = d ∧ r = s := by
  have hcd : c = d := by
    have hhead : (if c ∈ escaped then '\\' else c) = if d ∈ escaped then '\\' else d := by
      have he := head?_escapeChar_append c r
      rw [h, head?_escapeChar_append] at he
      exact (Option.some.inj he).symm
    have hback : '\\' ∈ escaped := by decide
    split at hhead <;> split at hhead
    · next hc hd =>
      -- of two beginnings of one text, one begins the other
      have hpre : escapeChar c <+: escapeChar d ∨ escapeChar d <+: escapeChar c :=
        List.prefix_or_prefix_of_prefix (List.prefix_append _ r) (h ▸ List.prefix_append _ s)
      rcases hpre with hpre | hpre
      · exact eq_of_isPrefix_escapeChar hc hd hpre
      · exact (eq_of_isPrefix_escapeChar hd hc hpre).symm
    · next hd => exact absurd (hhead ▸ hback) hd
    · next hc _ => exact absurd (hhead ▸ hback) hc
    · exact hhead
  subst hcd
  exact ⟨rfl, List.append_cancel_left h⟩

/-- The content of a string ends at the first quote that is not a part of it. -/
theorem flatMap_escapeChar_append_inj {cs ds : List Char}
    (h : cs.flatMap escapeChar ++ '"' :: r = ds.flatMap escapeChar ++ '"' :: s) :
    cs = ds ∧ r = s := by
  induction cs generalizing ds with
  | nil =>
    cases ds with
    | nil => exact ⟨rfl, (List.cons.inj h).2⟩
    | cons d ds =>
      rw [List.flatMap_cons, List.append_assoc] at h
      exact absurd h.symm (escapeChar_append_ne_quote d)
  | cons c cs ih =>
    rw [List.flatMap_cons, List.append_assoc] at h
    cases ds with
    | nil => exact absurd h (escapeChar_append_ne_quote c)
    | cons d ds =>
      rw [List.flatMap_cons, List.append_assoc] at h
      obtain ⟨rfl, hrest⟩ := escapeChar_append_inj h
      obtain ⟨rfl, hrs⟩ := ih hrest
      exact ⟨rfl, hrs⟩

theorem legible_string : Legible string := by
  intro a b r s _ _ h
  have hcontent : a.toList.flatMap escapeChar ++ '"' :: r =
      b.toList.flatMap escapeChar ++ '"' :: s := by simpa [string] using h
  obtain ⟨hab, hrs⟩ := flatMap_escapeChar_append_inj hcontent
  exact ⟨String.toList_inj.1 hab, hrs⟩

/-! ## Numbers -/

theorem takeWhile_isDigit_number (n : Nat) (hr : Closed r) :
    (number n ++ r).takeWhile Char.isDigit = number n := by
  have hdigits : ∀ c ∈ number n, c.isDigit = true := fun c hc =>
    Nat.isDigit_of_mem_toDigits (by decide) (by decide) hc
  have hrest : r.takeWhile Char.isDigit = [] := by
    cases r with
    | nil => rfl
    | cons c r => rw [List.takeWhile_cons_of_neg (by simp [hr c rfl])]
  rw [List.takeWhile_append_of_pos hdigits, hrest, List.append_nil]

theorem legible_number : Legible number := by
  intro m n r s hr hs h
  have hmn : number m = number n := by
    rw [← takeWhile_isDigit_number m hr, h, takeWhile_isDigit_number n hs]
  refine ⟨?_, ?_⟩
  · have hdigits := congrArg (Nat.ofDigitChars 10 · 0) hmn
    simpa only [number, Nat.ofDigitChars_toDigits (b := 10) (by decide) (by decide)] using hdigits
  · rw [hmn] at h
    exact List.append_cancel_left h

/-! ## Arrays and objects -/

variable {ps qs : List (List Char)} {depth : Nat} {opening closing : Char}

/-- What stands behind a part when some are still to come. -/
def onward (depth : Nat) (closing : Char) (ps : List (List Char)) (r : List Char) : List Char :=
  if ps = [] then closing :: r else ',' :: (Layout.compact.parts depth ps ++ closing :: r)

theorem parts_cons_append (p : List Char) (ps : List (List Char)) (r : List Char) :
    Layout.compact.parts depth (p :: ps) ++ closing :: r = p ++ onward depth closing ps r := by
  cases ps <;> simp [Layout.parts, Layout.gap, onward]

theorem closed_onward (hclosing : closing.isDigit = false) :
    Closed (onward depth closing ps r) := by
  unfold onward
  split
  · exact .cons hclosing r
  · exact .cons (by decide) _

/-- Parts that can be told apart pair by pair are told apart in a row. -/
theorem onward_inj (hclosing : closing.isDigit = false) (hcomma : closing ≠ ',')
    (hapart : ∀ x ∈ ps.zip qs, Apart x.1 x.2)
    (h : onward depth closing ps r = onward depth closing qs s) : ps = qs ∧ r = s := by
  induction ps generalizing qs with
  | nil =>
    cases qs with
    | nil => exact ⟨rfl, (List.cons.inj h).2⟩
    | cons q qs => exact absurd (List.cons.inj h).1 hcomma
  | cons p ps ih =>
    cases qs with
    | nil => exact absurd (List.cons.inj h).1.symm hcomma
    | cons q qs =>
      have hparts := (List.cons.inj h).2
      rw [parts_cons_append, parts_cons_append] at hparts
      obtain ⟨(hpq : Apart p q), hrows⟩ := List.forall_mem_cons.1 hapart
      obtain ⟨rfl, hrest⟩ := hpq (closed_onward hclosing) (closed_onward hclosing) hparts
      obtain ⟨rfl, hrs⟩ := ih hrows hrest
      exact ⟨rfl, hrs⟩

/-- The writing of a part, which is not empty and does not begin with the closing bracket. -/
def Opens (closing : Char) (p : List Char) : Prop := ∃ c cs, p = c :: cs ∧ c ≠ closing

theorem bracketed_cons_append (p : List Char) (ps : List (List Char)) (r : List Char) :
    Layout.compact.bracketed depth opening closing (p :: ps) ++ r =
      opening :: (p ++ onward depth closing ps r) := by
  rw [← parts_cons_append]
  simp [Layout.bracketed, Layout.gap]

theorem bracketed_append_inj (hclosing : closing.isDigit = false) (hcomma : closing ≠ ',')
    (hps : ∀ p ∈ ps, Opens closing p) (hqs : ∀ q ∈ qs, Opens closing q)
    (hapart : ∀ x ∈ ps.zip qs, Apart x.1 x.2)
    (h : Layout.compact.bracketed depth opening closing ps ++ r =
      Layout.compact.bracketed depth opening closing qs ++ s) : ps = qs ∧ r = s := by
  cases ps with
  | nil =>
    cases qs with
    | nil => exact ⟨rfl, by simpa [Layout.bracketed] using h⟩
    | cons q qs =>
      obtain ⟨c, cs, rfl, hc⟩ := hqs q List.mem_cons_self
      rw [bracketed_cons_append] at h
      exact absurd (List.cons.inj (List.cons.inj h).2).1.symm hc
  | cons p ps =>
    cases qs with
    | nil =>
      obtain ⟨c, cs, rfl, hc⟩ := hps p List.mem_cons_self
      rw [bracketed_cons_append] at h
      exact absurd (List.cons.inj (List.cons.inj h).2).1 hc
    | cons q qs =>
      rw [bracketed_cons_append, bracketed_cons_append] at h
      obtain ⟨(hpq : Apart p q), hrows⟩ := List.forall_mem_cons.1 hapart
      obtain ⟨rfl, hrest⟩ := hpq (closed_onward hclosing) (closed_onward hclosing)
        (List.cons.inj h).2
      obtain ⟨rfl, hrs⟩ := onward_inj hclosing hcomma hrows hrest
      exact ⟨rfl, hrs⟩

/-- A list is legible between brackets when its elements are. -/
theorem Legible.bracketed {write : α → List Char} (h : Legible write)
    (hclosing : closing.isDigit = false) (hcomma : closing ≠ ',')
    (hopens : ∀ a, Opens closing (write a)) :
    Legible fun as : List α => Layout.compact.bracketed depth opening closing (as.map write) := by
  intro as bs r s _ _ heq
  have hparts : ∀ as : List α, ∀ p ∈ as.map write, Opens closing p := by
    intro as p hp
    obtain ⟨a, -, rfl⟩ := List.mem_map.1 hp
    exact hopens a
  have hapart : ∀ x ∈ (as.map write).zip (bs.map write), Apart x.1 x.2 := by
    rintro ⟨p, q⟩ hx
    obtain ⟨hp, hq⟩ := List.of_mem_zip hx
    obtain ⟨a, -, rfl⟩ := List.mem_map.1 hp
    obtain ⟨b, -, rfl⟩ := List.mem_map.1 hq
    exact h.apart a b
  obtain ⟨hmap, hrs⟩ := bracketed_append_inj hclosing hcomma (hparts as) (hparts bs) hapart heq
  exact ⟨List.map_injective_iff.2 h.injective hmap, hrs⟩

theorem opens_bracketed {bracket : Char} (h : opening ≠ bracket) (ps : List (List Char)) :
    Opens bracket (Layout.compact.bracketed depth opening closing ps) := by
  cases ps <;> exact ⟨opening, _, rfl, h⟩

theorem opens_string {closing : Char} (hclosing : closing ≠ '"') (s : String) (r : List Char) :
    Opens closing (string s ++ r) :=
  ⟨'"', s.toList.flatMap escapeChar ++ ['"'] ++ r, rfl, hclosing.symm⟩

/-- The writing of a member of an object. -/
def member (key : String) (value : List Char) : List Char := string key ++ (':' :: value)

theorem object_compact (members : List (String × List Char)) :
    Layout.compact.object depth members =
      Layout.compact.bracketed depth '\x7b' '\x7d' (members.map fun m => member m.1 m.2) := by
  simp [Layout.object, Layout.colon, member]

theorem opens_member (key : String) (value : List Char) : Opens '\x7d' (member key value) :=
  opens_string (by decide) key _

/-- A text under a key is legible together with it. -/
theorem legible_member : Legible fun e : String × String => member e.1 (string e.2) := by
  rintro ⟨k, v⟩ ⟨k', v'⟩ r s hr hs heq
  simp only [member, List.append_assoc, List.cons_append] at heq
  obtain ⟨rfl, hvalue⟩ := legible_string (.cons (by decide) _) (.cons (by decide) _) heq
  obtain ⟨rfl, hrs⟩ := legible_string hr hs (List.cons.inj hvalue).2
  exact ⟨rfl, hrs⟩

theorem legible_strings (depth : Nat) :
    Legible fun texts : List String => Layout.compact.array depth (texts.map string) := by
  refine legible_string.bracketed (by decide) (by decide) fun s => ?_
  exact List.append_nil (string s) ▸ opens_string (by decide) s []

end Discovery.Json
