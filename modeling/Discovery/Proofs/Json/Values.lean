import Mathlib.Data.List.DropRight
import Discovery.Json.Reader
import Discovery.Proofs.Json.Tokens

/-!
# Values are read back

A reader reads a text as a value if it gets that value and leaves what follows, whatever blanks
stand before and whatever does not go on with a number follows (`Reads`). Arrays are read element by
element (`reads_array`), and objects member by member, in both layouts; what an object is read to is
found by a chain of states, one for each member (`Chain`).
-/

namespace Discovery.Json

variable {α β σ : Type} {reader item : Reader α} {text : List Char} {a : α} {b : UInt8}
  {s r t u : List UInt8} {l : Layout} {depth : Nat}

/-- A reader that reads a text as a value. -/
def Reads (reader : Reader α) (text : List Char) (a : α) : Prop :=
  ∀ ⦃s r⦄, skipBlank s = skipBlank (bytes text ++ r) → Ends r → reader.run s = .ok (a, r)

/-- A text whose first byte is this one. -/
def Begins (b : UInt8) (text : List Char) : Prop := ∃ bs, bytes text = b :: bs

theorem Reads.map (h : Reads reader text a) (f : α → β) : Reads (reader.map f) text (f a) := by
  intro s r hs hr
  simp only [Reader.map, h hs hr, Except.map]

/-! ## Blanks -/

theorem isBlank_iff : isBlank b = true ↔ ((b = 0x20 ∨ b = 0x0A) ∨ b = 0x09) ∨ b = 0x0D := by
  simp [isBlank]

theorem skipBlank_cons (hb : isBlank b = false) (s : List UInt8) : skipBlank (b :: s) = b :: s :=
  List.dropWhile_cons_of_neg (by simp [hb])

theorem skipBlank_append (hs : ∀ b ∈ s, isBlank b = true) (r : List UInt8) :
    skipBlank (s ++ r) = skipBlank r := List.dropWhile_append_of_pos hs

theorem skipBlank_skipBlank (s : List UInt8) : skipBlank (skipBlank s) = skipBlank s :=
  List.dropWhile_idempotent isBlank s

theorem skipBlank_gap (l : Layout) (depth : Nat) (s : List UInt8) :
    skipBlank (bytes (l.gap depth) ++ s) = skipBlank s := by
  apply skipBlank_append
  intro b hb
  cases l with
  | compact => cases hb
  | indented =>
    obtain ⟨c, hc, hb⟩ := List.mem_flatMap.1 hb
    obtain rfl | hc := List.mem_cons.1 hc
    · cases List.mem_singleton.1 hb
      rfl
    · cases List.eq_of_mem_replicate hc
      cases List.mem_singleton.1 hb
      rfl

/-! ## Strings and numbers -/

theorem behind_cons {first : UInt8} {inner : List UInt8 → Except Fault (α × List UInt8)}
    (hs : skipBlank s = first :: r) : Reader.behind first inner s = inner r := by
  simp only [Reader.behind, hs, if_true]

theorem bytes_string_append (t : String) (r : List UInt8) :
    bytes (string t) ++ r = quote :: (bytes (t.toList.flatMap escapeChar) ++ quote :: r) := by
  rw [string, bytes_cons, bytes_append, bytes_singleton, List.append_assoc, List.append_assoc]
  rfl

theorem reads_string (t : String) : Reads Reader.string (string t) t := by
  intro s r hs _
  rw [bytes_string_append, skipBlank_cons (by decide)] at hs
  exact (behind_cons hs : Reader.string.run s = _).trans (stringBody_bytes t r)

theorem begins_string (t : String) : Begins quote (string t) :=
  ⟨_, (List.append_nil _).symm.trans (bytes_string_append t [])⟩

theorem isBlank_of_digit? (h : (digit? b).isSome = true) : isBlank b = false := by
  cases hblank : isBlank b with
  | false => rfl
  | true => rcases isBlank_iff.1 hblank with ((rfl | rfl) | rfl) | rfl <;> cases h

/-- A number begins with a digit. -/
theorem begins_number (n : Nat) : ∃ b, Begins b (number n) ∧ (digit? b).isSome = true := by
  obtain ⟨c, cs, hnumber⟩ : ∃ c cs, number n = c :: cs :=
    List.exists_cons_of_ne_nil Nat.toDigits_ne_nil
  have hc : c.isDigit = true := isDigit_of_mem_number (hnumber ▸ List.mem_cons_self)
  obtain ⟨b, hb, hdigit⟩ := utf8EncodeChar_digit hc
  refine ⟨b, ⟨bytes cs, ?_⟩, by rw [hdigit]; rfl⟩
  rw [hnumber, bytes_cons, hb]
  rfl

theorem reads_natural {n bound : Nat} (hn : n < bound) (hword : n < Text.wordBound) :
    Reads (Reader.natural bound) (number n) n := by
  intro s r hs hr
  obtain ⟨b, ⟨bs, hbs⟩, hdigit⟩ := begins_number n
  have hread := boundedNumeral_number hword hr
  rw [hbs, List.cons_append] at hs hread
  rw [skipBlank_cons (isBlank_of_digit? hdigit)] at hs
  have hnatural : Numeral.natural? ⟨false, digitValues (number n), none, none⟩ = some n := by
    simp [Numeral.natural?, ofDigits_number, hword]
  simp only [Reader.natural, hs, hdigit, hread, hnatural, hn, if_true]

theorem Reads.orNull (h : Reads reader text a) (hbegins : Begins b text)
    (hblank : isBlank b = false) (hb : b ≠ 0x6E) : Reads reader.orNull text (some a) := by
  intro s r hs hr
  obtain ⟨bs, hbs⟩ := hbegins
  have hrun := h ((skipBlank_skipBlank s).trans hs) hr
  rw [hbs, List.cons_append, skipBlank_cons hblank] at hs
  simp only [Reader.orNull]
  split
  · next rest heq =>
    rw [hs] at heq
    exact absurd (List.cons.inj heq).1 hb
  · rw [hrun]
    rfl

/-! ## Parts in a row -/

/-- What stands behind a part of an array or object, from the parts that are still to come. -/
def Layout.onward (l : Layout) (depth : Nat) (closing : Char) : List (List Char) → List Char
  | [] => l.gap depth ++ [closing]
  | p :: ps => ',' :: (l.gap (depth + 1) ++ p ++ l.onward depth closing ps)

variable {opening closing : Char} {p : List Char} {ps : List (List Char)}

theorem parts_cons (p : List Char) (ps : List (List Char)) :
    l.parts depth (p :: ps) ++ l.gap depth ++ [closing] =
      l.gap (depth + 1) ++ p ++ l.onward depth closing ps := by
  induction ps generalizing p with
  | nil => simp only [Layout.parts, Layout.onward, List.append_assoc]
  | cons q ps ih =>
    rw [Layout.onward, ← ih, Layout.parts]
    simp only [List.append_assoc, List.cons_append]
    exact List.cons_ne_nil _ _

theorem bracketed_cons (p : List Char) (ps : List (List Char)) :
    l.bracketed depth opening closing (p :: ps) =
      opening :: (l.gap (depth + 1) ++ p ++ l.onward depth closing ps) := by
  rw [← parts_cons]
  rfl

theorem bytes_bracketed_cons (hopening : String.utf8EncodeChar opening = [b]) (p : List Char)
    (ps : List (List Char)) (r : List UInt8) :
    bytes (l.bracketed depth opening closing (p :: ps)) ++ r =
      b :: (bytes (l.gap (depth + 1)) ++
        (bytes p ++ (bytes (l.onward depth closing ps) ++ r))) := by
  rw [bracketed_cons]
  simp only [bytes_cons, bytes_append, List.append_assoc, hopening]
  rfl

theorem begins_bracketed (hopening : String.utf8EncodeChar opening = [b]) (ps : List (List Char)) :
    Begins b (l.bracketed depth opening closing ps) := by
  cases ps with
  | nil => exact ⟨_, by rw [Layout.bracketed, bytes_cons, hopening]; rfl⟩
  | cons p ps => exact ⟨_, by rw [bracketed_cons, bytes_cons, hopening]; rfl⟩

/-- No number goes on behind a part. -/
theorem ends_onward (hclosing : closing = ']' ∨ closing = '\x7d') (ps : List (List Char))
    (r : List UInt8) : Ends (bytes (l.onward depth closing ps) ++ r) := by
  cases ps with
  | nil =>
    cases l with
    | compact => rcases hclosing with rfl | rfl <;> exact .cons (by decide) _
    | indented => exact .cons (b := 0x0A) (by decide) _
  | cons p ps => exact .cons (b := comma) (by decide) _

/-! ## Arrays -/

/-- One element of an array, and what comes behind it. -/
theorem elements_eq (hitem : item.run s = .ok (a, r)) :
    Reader.elements item s =
      match Reader.afterElement r with
      | .error f => .error f
      | .ok (.stop t) => .ok ([a], t)
      | .ok (.next t) => (Reader.elements item t).map fun p => (a :: p.1, p.2) := by
  rw [Reader.elements]
  split
  · next h => cases hitem ▸ h
  next h =>
  cases hitem ▸ h
  split <;> next h => rw [h]

/-- Behind the last part stands the closing bracket. -/
theorem skipBlank_onward_nil (hclosing : String.utf8EncodeChar closing = [b])
    (hb : isBlank b = false) (r : List UInt8) :
    skipBlank (bytes (l.onward depth closing []) ++ r) = b :: r := by
  rw [Layout.onward, bytes_append, List.append_assoc, skipBlank_gap, bytes_singleton, hclosing]
  exact skipBlank_cons hb r

/-- Behind a comma stands the next part. -/
theorem bytes_onward_cons (p : List Char) (ps : List (List Char)) (r : List UInt8) :
    bytes (l.onward depth closing (p :: ps)) ++ r =
      comma :: (bytes (l.gap (depth + 1)) ++
        (bytes p ++ (bytes (l.onward depth closing ps) ++ r))) := by
  simp only [Layout.onward, bytes_cons, bytes_append, List.append_assoc]
  rfl

theorem afterElement_nil (r : List UInt8) :
    Reader.afterElement (bytes (l.onward depth ']' []) ++ r) = .ok (.stop r) := by
  have hskip : skipBlank (bytes (l.onward depth ']' []) ++ r) = closeBracket :: r :=
    skipBlank_onward_nil (by rfl) (by rfl) r
  simp only [Reader.afterElement, hskip, if_true]

theorem afterElement_cons (hbegins : Begins b p) (hblank : isBlank b = false)
    (hb : b ≠ closeBracket) (ps : List (List Char)) (r : List UInt8) :
    Reader.afterElement (bytes (l.onward depth ']' (p :: ps)) ++ r) =
      .ok (.next (bytes p ++ (bytes (l.onward depth ']' ps) ++ r))) := by
  obtain ⟨bs, hbs⟩ := hbegins
  have hcomma : isBlank comma = false := by decide
  have hne : comma ≠ closeBracket := by decide
  rw [bytes_onward_cons, hbs]
  simp only [Reader.afterElement, skipBlank_cons hcomma, hne, if_true, if_false, skipBlank_gap,
    List.cons_append, skipBlank_cons hblank, hb]

theorem beforeElements_cons (hbegins : Begins b p) (hblank : isBlank b = false)
    (hb : b ≠ closeBracket) (r : List UInt8) :
    Reader.beforeElements (bytes (l.gap depth) ++ (bytes p ++ r)) = .ok (.next (bytes p ++ r)) := by
  obtain ⟨bs, hbs⟩ := hbegins
  rw [hbs]
  simp only [Reader.beforeElements, skipBlank_gap, List.cons_append, skipBlank_cons hblank, hb,
    if_false]

variable {write : α → List Char}

/-- The elements of an array, from the first byte of one of them. -/
theorem elements_onward (hblank : isBlank b = false) (hb : b ≠ closeBracket) {x : α} {xs : List α}
    (hwrite : ∀ y ∈ x :: xs, Begins b (write y) ∧ Reads item (write y) y) (r : List UInt8) :
    Reader.elements item (bytes (write x) ++ (bytes (l.onward depth ']' (xs.map write)) ++ r)) =
      .ok (x :: xs, r) := by
  induction xs generalizing x with
  | nil =>
    obtain ⟨-, hread⟩ := hwrite x List.mem_cons_self
    rw [elements_eq (hread rfl (ends_onward (.inl rfl) _ r)), List.map_nil, afterElement_nil]
  | cons y xs ih =>
    obtain ⟨-, hread⟩ := hwrite x List.mem_cons_self
    have hrest := fun z hz => hwrite z (List.mem_cons_of_mem x hz)
    have hnext : Reader.afterElement (bytes (l.onward depth ']' ((y :: xs).map write)) ++ r) = _ :=
      afterElement_cons (hrest y List.mem_cons_self).1 hblank hb _ r
    rw [elements_eq (hread rfl (ends_onward (.inl rfl) _ r)), hnext]
    exact congrArg (Except.map _) (ih hrest)

/-- An array is read to its elements. -/
theorem reads_array (hblank : isBlank b = false) (hb : b ≠ closeBracket) {xs : List α}
    (hwrite : ∀ x ∈ xs, Begins b (write x) ∧ Reads item (write x) x) :
    Reads (Reader.array item) (l.array depth (xs.map write)) xs := by
  intro s r hs hr
  cases xs with
  | nil =>
    have hs : skipBlank s = openBracket :: closeBracket :: r :=
      hs.trans (skipBlank_cons (by decide) (closeBracket :: r))
    refine (behind_cons hs : (Reader.array item).run s = _).trans ?_
    rfl
  | cons x xs =>
    rw [Layout.array, List.map_cons, bytes_bracketed_cons (b := openBracket) (by rfl),
      skipBlank_cons (by decide)] at hs
    refine (behind_cons hs : (Reader.array item).run s = _).trans ?_
    simp only [beforeElements_cons (hwrite x List.mem_cons_self).1 hblank hb]
    exact elements_onward hblank hb hwrite r

/-! ## Objects -/

/-- The states that the members of an object lead through, one after another. -/
inductive Chain (value : σ → String → Except Fault (Reader σ)) :
    σ → List (String × List Char) → σ → Prop where
  | nil (state : σ) : Chain value state [] state
  | cons {state mid last : σ} {key : String} {text : List Char}
      {members : List (String × List Char)} {reader : Reader σ} :
      value state key = .ok reader → Reads reader text mid → Chain value mid members last →
      Chain value state ((key, text) :: members) last

section

variable {value : σ → String → Except Fault (Reader σ)} {state mid last : σ} {key : String}
  {reader : Reader σ} {members : List (String × List Char)} {q : List UInt8}

/-- One member of an object, and what comes behind it. -/
theorem members_eq (hkey : stringBody s = .ok (key, r)) (hreader : value state key = .ok reader)
    (hcolon : Reader.afterKey r = .ok t) (hvalue : reader.run t = .ok (mid, u)) :
    Reader.members value state s =
      match Reader.afterMember u with
      | .error f => .error f
      | .ok (.stop q) => .ok (mid, q)
      | .ok (.next q) => Reader.members value mid q := by
  rw [Reader.members]
  split
  · next h => cases hkey ▸ h
  next h =>
  cases hkey ▸ h
  split
  · next h => cases hreader ▸ h
  next h =>
  cases hreader ▸ h
  split
  · next h => cases hcolon ▸ h
  next h =>
  cases hcolon ▸ h
  split
  · next h => cases hvalue ▸ h
  next h =>
  cases hvalue ▸ h
  split <;> next h => rw [h]

/-- The writing of a member of an object. -/
def Layout.member (l : Layout) (m : String × List Char) : List Char := string m.1 ++ l.colon ++ m.2

theorem bytes_member_append (m : String × List Char) (r : List UInt8) :
    bytes (l.member m) ++ r =
      quote :: (bytes (m.1.toList.flatMap escapeChar) ++
        quote :: (bytes l.colon ++ (bytes m.2 ++ r))) := by
  rw [Layout.member, bytes_append, bytes_append, List.append_assoc, List.append_assoc,
    bytes_string_append]

theorem afterKey_colon (l : Layout) (s : List UInt8) :
    ∃ t, Reader.afterKey (bytes l.colon ++ s) = .ok t ∧ skipBlank t = skipBlank s := by
  cases l with
  | compact => exact ⟨s, rfl, rfl⟩
  | indented => exact ⟨0x20 :: s, rfl, rfl⟩

theorem afterMember_nil (r : List UInt8) :
    Reader.afterMember (bytes (l.onward depth '\x7d' []) ++ r) = .ok (.stop r) := by
  have hskip : skipBlank (bytes (l.onward depth '\x7d' []) ++ r) = closeBrace :: r :=
    skipBlank_onward_nil (by rfl) (by rfl) r
  simp only [Reader.afterMember, hskip, if_true]

theorem afterMember_cons (m : String × List Char) (ps : List (List Char)) (r : List UInt8) :
    Reader.afterMember (bytes (l.onward depth '\x7d' (l.member m :: ps)) ++ r) =
      .ok (.next (bytes (m.1.toList.flatMap escapeChar) ++ quote :: (bytes l.colon ++
        (bytes m.2 ++ (bytes (l.onward depth '\x7d' ps) ++ r))))) := by
  have hcomma : isBlank comma = false := by decide
  have hquote : isBlank quote = false := by decide
  have hne : comma ≠ closeBrace := by decide
  rw [bytes_onward_cons, bytes_member_append]
  simp only [Reader.afterMember, skipBlank_cons hcomma, hne, if_true, if_false, skipBlank_gap,
    skipBlank_cons hquote]

theorem beforeMembers_cons (m : String × List Char) (r : List UInt8) :
    Reader.beforeMembers (bytes (l.gap depth) ++ (bytes (l.member m) ++ r)) =
      .ok (.next (bytes (m.1.toList.flatMap escapeChar) ++ quote :: (bytes l.colon ++
        (bytes m.2 ++ r)))) := by
  have hquote : isBlank quote = false := by decide
  have hne : quote ≠ closeBrace := by decide
  rw [bytes_member_append]
  simp only [Reader.beforeMembers, skipBlank_gap, skipBlank_cons hquote, hne, if_true, if_false]

/-- The members of an object, from behind the opening quote of a key. -/
theorem members_onward {m : String × List Char} {ms : List (String × List Char)}
    (h : Chain value state (m :: ms) last) (r : List UInt8) :
    Reader.members value state (bytes (m.1.toList.flatMap escapeChar) ++ quote :: (bytes l.colon ++
      (bytes m.2 ++ (bytes (l.onward depth '\x7d' (ms.map l.member)) ++ r)))) = .ok (last, r) := by
  -- the state is that in which the next member is read; the chain says which one
  induction ms generalizing m state with
  | nil =>
    cases h with
    | @cons _ mid _ key text _ reader hreader hread hrest =>
      cases hrest
      obtain ⟨t, hcolon, ht⟩ := afterKey_colon l
        (bytes text ++ (bytes (l.onward depth '\x7d' []) ++ r))
      rw [List.map_nil, members_eq (stringBody_bytes key _) hreader hcolon
        (hread ht (ends_onward (.inr rfl) [] r)), afterMember_nil]
  | cons n ms ih =>
    cases h with
    | @cons _ mid _ key text _ reader hreader hread hrest =>
      obtain ⟨t, hcolon, ht⟩ := afterKey_colon l
        (bytes text ++ (bytes (l.onward depth '\x7d' ((n :: ms).map l.member)) ++ r))
      rw [members_eq (stringBody_bytes key _) hreader hcolon
        (hread ht (ends_onward (.inr rfl) _ r)), List.map_cons, afterMember_cons]
      exact ih hrest

/-- An object is read to the state that its members lead to. -/
theorem reads_object {ms : List (String × List Char)} (h : Chain value state ms last) :
    Reads (Reader.object value state) (l.object depth ms) last := by
  intro s r hs hr
  have hobject : l.object depth ms = l.bracketed depth '\x7b' '\x7d' (ms.map l.member) := rfl
  rw [hobject] at hs
  cases ms with
  | nil =>
    cases h
    have hs : skipBlank s = openBrace :: closeBrace :: r :=
      hs.trans (skipBlank_cons (by decide) (closeBrace :: r))
    refine (behind_cons hs : (Reader.object value state).run s = _).trans ?_
    rfl
  | cons m ms =>
    rw [List.map_cons, bytes_bracketed_cons (b := openBrace) (by rfl),
      skipBlank_cons (by decide)] at hs
    refine (behind_cons hs : (Reader.object value state).run s = _).trans ?_
    simp only [beforeMembers_cons]
    exact members_onward h r

end

/-! ## Whole texts -/

theorem ends_of_blank (hs : ∀ b ∈ s, isBlank b = true) : Ends s := by
  cases s with
  | nil => exact .nil
  | cons b s =>
    refine .cons ?_ s
    rcases isBlank_iff.1 (hs b List.mem_cons_self) with ((rfl | rfl) | rfl) | rfl <;> decide

/-- A text is read whole with the blanks behind it. -/
theorem Reads.whole (h : Reads reader text a) (hr : ∀ b ∈ r, isBlank b = true) :
    reader.whole (bytes text ++ r) = .ok a := by
  have hskip : skipBlank r = [] := List.dropWhile_eq_nil_iff.2 hr
  simp only [Reader.whole, h rfl (ends_of_blank hr), hskip, if_true]

end Discovery.Json
