import Discovery.Text.Quoted
import Discovery.Text.Split

/-!
# What a quoted text tells

Each character of a quoted text is written as itself, as a backslash with one sign, or as its code
point in braces, and from what is written the character can be told (`unescape`). So a quoted text
ends at its closing quote and nowhere before, and it can be told from what follows it, whatever that
is (`quoted_append_inj`). Nothing unprintable is left in it.
-/

namespace Discovery.Text

variable {quote c d : Char} {cs ds r s : List Char} {t t' u u' : String}

/-- The characters that enclose quoted text. -/
def IsQuote (c : Char) : Prop := c = '"' ∨ c = '\''

/-! ## Escapes -/

/-- Whether a character is one of ASCII that is no control character. -/
def isPlain (c : Char) : Bool := 0x20 ≤ c.toNat && c.toNat ≤ 0x7E

/-- Control characters, of ASCII or of Latin-1. Tabs and line breaks are among them. -/
def IsControl (c : Char) : Prop := c.toNat < 0x20 ∨ 0x7F ≤ c.toNat ∧ c.toNat ≤ 0x9F

/-- What a sign behind a backslash stands for. -/
def meaning (sign : Char) : Char :=
  if sign = 't' then '\t'
  else if sign = 'r' then '\r'
  else if sign = 'n' then '\n'
  else if sign = '0' then '\x00'
  else sign

/-- The ways to write a character between quotes. -/
inductive Escape (quote c : Char) : List Char → Prop
  | sign {sign : Char} (hmeaning : meaning sign = c) (hcode : sign ≠ 'u')
      (hplain : isPlain sign = true) : Escape quote c ['\\', sign]
  | code : Escape quote c ('\\' :: 'u' :: '\x7b' :: hexDigits c.toNat ++ ['\x7d'])
  | self (hback : c ≠ '\\') (hquote : c ≠ quote) (hshown : isUnprintable c = false) :
      Escape quote c [c]

theorem escape_escapeChar (hquote : IsQuote quote) (c : Char) :
    Escape quote c (escapeChar quote c) := by
  unfold escapeChar
  split
  · next h => exact .sign h.symm (by decide) (by decide)
  split
  · next h => exact .sign h.symm (by decide) (by decide)
  split
  · next h => exact .sign h.symm (by decide) (by decide)
  split
  · next h => exact .sign h.symm (by decide) (by decide)
  split
  · next h =>
    rw [Bool.or_eq_true, decide_eq_true_eq, decide_eq_true_eq] at h
    rcases h with rfl | rfl
    · exact .sign rfl (by decide) (by decide)
    · rcases hquote with rfl | rfl <;> exact .sign rfl (by decide) (by decide)
  · next h =>
    obtain ⟨hback, hne⟩ : c ≠ '\\' ∧ c ≠ quote := by simpa using h
    split
    · exact .code
    · next hshown => exact .self hback hne (Bool.eq_false_iff.2 hshown)

/-! ## Reading escapes -/

/-- The digits of code points, in order. -/
def digits : List Char := "0123456789abcdef".toList

/-- The number that hexadecimal digits are for. -/
def ofHexDigits (cs : List Char) : Nat := cs.foldl (fun n c => 16 * n + digits.idxOf c) 0

/-- The first character of a text that is written with escapes, and what is written behind it. -/
def unescape : List Char → Option (Char × List Char)
  | '\\' :: 'u' :: '\x7b' :: cs =>
    (cutFirst '\x7d' cs).map fun p => (Char.ofNat (ofHexDigits p.1), p.2)
  | '\\' :: sign :: cs => some (meaning sign, cs)
  | c :: cs => some (c, cs)
  | [] => none

theorem idxOf_digitChar : ∀ digit < 16, digits.idxOf (Nat.digitChar digit) = digit := by decide

theorem hexDigits_eq (n : Nat) : hexDigits n =
    if n < 16 then [Nat.digitChar n] else hexDigits (n / 16) ++ [Nat.digitChar (n % 16)] :=
  Nat.toDigits_eq_if (by decide)

theorem ofHexDigits_hexDigits (n : Nat) : ofHexDigits (hexDigits n) = n := by
  induction n using Nat.strongRecOn with
  | ind n ih =>
    rw [hexDigits_eq]
    split
    · next hn => simp [ofHexDigits, idxOf_digitChar n hn]
    · have hfront : ofHexDigits (hexDigits (n / 16)) = n / 16 := ih (n / 16) (by omega)
      have hlast : digits.idxOf (Nat.digitChar (n % 16)) = n % 16 :=
        idxOf_digitChar (n % 16) (Nat.mod_lt n (by decide))
      rw [ofHexDigits, List.foldl_append, ← ofHexDigits, hfront, List.foldl_cons, List.foldl_nil,
        hlast]
      omega

theorem mem_digits_of_mem_hexDigits {n : Nat} (hc : c ∈ hexDigits n) : c ∈ digits := by
  have hdigit : ∀ digit < 16, Nat.digitChar digit ∈ digits := by decide
  induction n using Nat.strongRecOn with
  | ind n ih =>
    rw [hexDigits_eq] at hc
    split at hc
    · next hn =>
      rw [List.mem_singleton.1 hc]
      exact hdigit n hn
    · rcases List.mem_append.1 hc with hc | hc
      · exact ih (n / 16) (by omega) hc
      · rw [List.mem_singleton.1 hc]
        exact hdigit (n % 16) (Nat.mod_lt n (by decide))

/-- A character can be told from its escape, and so can what follows. -/
theorem Escape.unescape_append (h : Escape quote c cs) (r : List Char) :
    unescape (cs ++ r) = some (c, r) := by
  cases h with
  | @sign sign hmeaning hcode hplain => simp [unescape, hmeaning, hcode]
  | code =>
    have hclosed : '\x7d' ∉ hexDigits c.toNat := fun h =>
      absurd (mem_digits_of_mem_hexDigits h) (by decide)
    have hcut : cutFirst '\x7d' (hexDigits c.toNat ++ '\x7d' :: r) = some (hexDigits c.toNat, r) :=
      cutFirst_eq_some_iff.2 ⟨rfl, hclosed⟩
    simp [unescape, hcut, ofHexDigits_hexDigits]
  | self hback hquote hshown => simp [unescape, hback]

theorem unescape_escapeChar (hquote : IsQuote quote) (c : Char) (r : List Char) :
    unescape (escapeChar quote c ++ r) = some (c, r) :=
  (escape_escapeChar hquote c).unescape_append r

theorem escapeChar_append_inj (hquote : IsQuote quote)
    (h : escapeChar quote c ++ r = escapeChar quote d ++ s) : c = d ∧ r = s := by
  have hread := unescape_escapeChar hquote c r
  rw [h, unescape_escapeChar hquote] at hread
  simpa [eq_comm] using hread

/-- A quote that closes a text is no part of an escape. -/
theorem Escape.append_ne_quote (hquote : IsQuote quote) (h : Escape quote c cs) :
    cs ++ r ≠ quote :: s := by
  have hback : '\\' ≠ quote := by
    rcases hquote with rfl | rfl <;> decide
  intro heq
  cases h with
  | sign _ _ _ | code => exact hback (List.cons.inj heq).1
  | self _ hne _ => exact hne (List.cons.inj heq).1

/-! ## Whole texts -/

/-- What is quoted ends at the first quote that is no part of an escape. -/
theorem flatMap_escapeChar_append_inj (hquote : IsQuote quote)
    (h : cs.flatMap (escapeChar quote) ++ quote :: r =
      ds.flatMap (escapeChar quote) ++ quote :: s) : cs = ds ∧ r = s := by
  induction cs generalizing ds with
  | nil =>
    cases ds with
    | nil => exact ⟨rfl, (List.cons.inj h).2⟩
    | cons d ds =>
      rw [List.flatMap_cons, List.append_assoc] at h
      exact absurd h.symm ((escape_escapeChar hquote d).append_ne_quote hquote)
  | cons c cs ih =>
    cases ds with
    | nil =>
      rw [List.flatMap_cons, List.append_assoc] at h
      exact absurd h ((escape_escapeChar hquote c).append_ne_quote hquote)
    | cons d ds =>
      rw [List.flatMap_cons, List.flatMap_cons, List.append_assoc, List.append_assoc] at h
      obtain ⟨rfl, hrest⟩ := escapeChar_append_inj hquote h
      obtain ⟨rfl, hrs⟩ := ih hrest
      exact ⟨rfl, hrs⟩

/-- A quoted text and what follows it can be told apart. -/
theorem quoted_append_inj : quoted t ++ u = quoted t' ++ u' ↔ t = t' ∧ u = u' := by
  constructor
  · intro h
    have hlist := congrArg String.toList h
    simp only [quoted, String.toList_append, String.toList_ofList, List.cons_append,
      List.append_assoc, List.nil_append, List.cons.injEq, true_and] at hlist
    obtain ⟨ht, hu⟩ := flatMap_escapeChar_append_inj (.inl rfl) hlist
    exact ⟨String.toList_injective ht, String.toList_injective hu⟩
  · rintro ⟨rfl, rfl⟩
    rfl

theorem quoted_inj : quoted t = quoted t' ↔ t = t' := by
  constructor
  · intro h
    have happend : quoted t ++ "" = quoted t' ++ "" := by rw [h]
    exact (quoted_append_inj.1 happend).1
  · rintro rfl
    rfl

theorem quotedChar_inj : quotedChar c = quotedChar d ↔ c = d := by
  constructor
  · intro h
    have hlist := congrArg String.toList h
    simp only [quotedChar, String.toList_ofList, List.cons.injEq, true_and] at hlist
    exact (escapeChar_append_inj (.inr rfl) hlist).1
  · rintro rfl
    rfl

/-! ## What is left -/

/-- A text of which everything is shown as it is. -/
def Shown (cs : List Char) : Prop := ∀ c ∈ cs, isUnprintable c = false

theorem Shown.append (hcs : Shown cs) (hds : Shown ds) : Shown (cs ++ ds) :=
  List.forall_mem_append.2 ⟨hcs, hds⟩

theorem isUnprintable_of_isPlain (hc : isPlain c = true) : isUnprintable c = false := by
  have hranges : (unprintableRanges.all fun r => r.2 < 0x20 || 0x7E < r.1) = true := by
    decide +kernel
  rw [isPlain, Bool.and_eq_true, decide_eq_true_eq, decide_eq_true_eq] at hc
  apply List.any_eq_false.2
  intro r hr
  have hrange := List.all_eq_true.1 hranges r hr
  rw [Bool.or_eq_true, decide_eq_true_eq, decide_eq_true_eq] at hrange
  rw [Bool.and_eq_true, decide_eq_true_eq, decide_eq_true_eq]
  omega

theorem shown_of_isPlain (hcs : cs.all isPlain = true) : Shown cs := fun c hc =>
  isUnprintable_of_isPlain (List.all_eq_true.1 hcs c hc)

theorem Escape.shown (h : Escape quote c cs) : Shown cs := by
  cases h with
  | sign hmeaning hcode hplain => exact shown_of_isPlain (by simp [hplain]; decide)
  | code =>
    have hdigits : Shown digits := shown_of_isPlain (by decide)
    have hcode : Shown (hexDigits c.toNat) := fun d hd =>
      hdigits d (mem_digits_of_mem_hexDigits hd)
    have hfront : Shown ['\\', 'u', '\x7b'] := shown_of_isPlain (by decide)
    have hback : Shown ['\x7d'] := shown_of_isPlain (by decide)
    exact (hfront.append hcode).append hback
  | self hback hquote hshown =>
    intro d hd
    rw [List.mem_singleton.1 hd]
    exact hshown

theorem shown_escapeChar (hquote : IsQuote quote) (c : Char) : Shown (escapeChar quote c) :=
  (escape_escapeChar hquote c).shown

theorem shown_flatMap_escapeChar (hquote : IsQuote quote) (cs : List Char) :
    Shown (cs.flatMap (escapeChar quote)) := by
  intro d hd
  obtain ⟨c, -, hd⟩ := List.mem_flatMap.1 hd
  exact shown_escapeChar hquote c d hd

/-- Nothing unprintable is left in a quoted text. -/
theorem shown_quoted (t : String) : Shown (quoted t).toList := by
  have hquote : Shown ['"'] := shown_of_isPlain (by decide)
  rw [quoted, String.toList_ofList]
  exact hquote.append ((shown_flatMap_escapeChar (.inl rfl) _).append hquote)

theorem shown_quotedChar (c : Char) : Shown (quotedChar c).toList := by
  have hquote : Shown ['\''] := shown_of_isPlain (by decide)
  rw [quotedChar, String.toList_ofList]
  exact hquote.append ((shown_escapeChar (.inr rfl) c).append hquote)

end Discovery.Text
