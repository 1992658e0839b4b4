import Discovery.Json.Numeral

/-!
# Readers of JSON values

A reader takes a value from the front of the bytes and gives back those behind it. That it uses up
bytes is part of its type, so loops over the elements of an array and the members of an object end
whatever their readers are.
-/

namespace Discovery.Json

/-- Reads a value from the front of some bytes. -/
structure Reader (α : Type) where
  /-- The value and the bytes behind it. -/
  run : List UInt8 → Except Fault (α × List UInt8)
  /-- A value takes at least one byte. -/
  uses : ∀ {s a r}, run s = .ok (a, r) → r.length < s.length

/-- Why a value that begins here is not the one wanted. It is read first as far as its own faults
can show: words, numbers and strings whole, arrays and objects not at all. -/
def mistaken (s : List UInt8) : Fault :=
  match s with
  | [] => .ended
  | b :: rest =>
    let judge {α : Type} : Except Fault α → Fault
      | .error f => f
      | .ok _ => .mistyped
    match wordAfter? b with
    | some w => judge (word w rest)
    | none =>
      if b = quote then judge (stringBody rest)
      else if b = minus then judge (boundedNumeral true rest)
      else if (digit? b).isSome then judge (boundedNumeral false s)
      else if b = openBracket || b = openBrace then .mistyped
      else .malformed

namespace Reader

/-- Applies a function to what is read. -/
def map (f : α → β) (reader : Reader α) : Reader β where
  run s := (reader.run s).map fun p => (f p.1, p.2)
  uses {s a r} h := by
    cases hr : reader.run s with
    | error => rw [hr] at h; cases h
    | ok p => rw [hr] at h; cases h; exact reader.uses hr

/-- Passes a certain byte at the front and goes on behind it. -/
def behind (first : UInt8) (inner : List UInt8 → Except Fault (α × List UInt8)) (s : List UInt8) :
    Except Fault (α × List UInt8) :=
  match skipBlank s with
  | [] => .error .ended
  | b :: rest => if b = first then inner rest else .error (mistaken (b :: rest))

theorem behind_length {first : UInt8} {inner : List UInt8 → Except Fault (α × List UInt8)}
    (uses : ∀ {s a r}, inner s = .ok (a, r) → r.length ≤ s.length) {s r : List UInt8} {a : α}
    (h : behind first inner s = .ok (a, r)) : r.length < s.length := by
  have hs := length_skipBlank_le s
  unfold behind at h
  split at h
  · cases h
  · next e =>
    rw [e] at hs
    split at h
    · have := uses h; simp only [List.length_cons] at hs; omega
    · cases h

/-- A reader for values that begin with a certain byte. -/
def led (first : UInt8) (inner : List UInt8 → Except Fault (α × List UInt8))
    (uses : ∀ {s a r}, inner s = .ok (a, r) → r.length ≤ s.length) : Reader α where
  run := behind first inner
  uses h := behind_length uses h

def string : Reader String := led quote stringBody fun h => Nat.le_of_lt (stringBody_length h)

/-- A natural number below a bound. -/
def natural (bound : Nat) : Reader Nat where
  run s :=
    match skipBlank s with
    | [] => .error .ended
    | b :: rest =>
      if (digit? b).isSome then
        match boundedNumeral false (b :: rest) with
        | .error f => .error f
        | .ok (n, r) =>
          match n.natural? with
          | some k => if k < bound then .ok (k, r) else .error .mistyped
          | none => .error .mistyped
      else .error (mistaken (b :: rest))
  uses {s a r} h := by
    have hs := length_skipBlank_le s
    split at h
    · cases h
    · next e =>
      rw [e] at hs
      split at h
      · split at h
        · cases h
        · next hn =>
          split at h
          · split at h
            · cases h; have := boundedNumeral_length hn; omega
            · cases h
          · cases h
      · cases h

/-- The word `null`, or another value. -/
def orNull (reader : Reader α) : Reader (Option α) where
  run s :=
    match skipBlank s with
    | 0x6E :: rest => (word [0x75, 0x6C, 0x6C] rest).map fun r => (none, r)
    | t => (reader.run t).map fun p => (some p.1, p.2)
  uses {s a r} h := by
    have hs := length_skipBlank_le s
    split at h
    · next rest e =>
      rw [e] at hs
      cases hw : word [0x75, 0x6C, 0x6C] rest with
      | error => rw [hw] at h; cases h
      | ok t => rw [hw] at h; cases h; have := word_length hw; simp only [List.length_cons] at hs; omega
    · cases hr : reader.run (skipBlank s) with
      | error => rw [hr] at h; cases h
      | ok p => rw [hr] at h; cases h; have := reader.uses hr; omega

/-! ## Arrays -/

/-- What stands between two elements or at the end of an array: the bytes of the next element, or
those behind the closing bracket. -/
inductive Turn where
  | next (s : List UInt8)
  | stop (s : List UInt8)

/-- Reads what stands behind an element. -/
def afterElement (s : List UInt8) : Except Fault Turn :=
  match skipBlank s with
  | [] => .error .ended
  | b :: rest =>
    if b = closeBracket then .ok (.stop rest)
    else if b = comma then
      match skipBlank rest with
      | [] => .error .ended
      | c :: rest => if c = closeBracket then .error .malformed else .ok (.next (c :: rest))
    else .error .malformed

/-- Reads what stands behind the opening bracket. -/
def beforeElements (s : List UInt8) : Except Fault Turn :=
  match skipBlank s with
  | [] => .error .ended
  | b :: rest => if b = closeBracket then .ok (.stop rest) else .ok (.next (b :: rest))

theorem afterElement_next {s r : List UInt8} (h : afterElement s = .ok (.next r)) :
    r.length < s.length := by
  have hs := length_skipBlank_le s
  unfold afterElement at h
  split at h
  · cases h
  · next b rest e =>
    rw [e] at hs
    have hr := length_skipBlank_le rest
    simp only [List.length_cons] at hs
    repeat' split at h
    all_goals cases h
    simp_all only [List.length_cons]
    omega

theorem afterElement_stop {s r : List UInt8} (h : afterElement s = .ok (.stop r)) :
    r.length < s.length := by
  have hs := length_skipBlank_le s
  unfold afterElement at h
  split at h
  · cases h
  · next b rest e =>
    rw [e] at hs
    simp only [List.length_cons] at hs
    repeat' split at h
    all_goals cases h
    omega

theorem beforeElements_next {s r : List UInt8} (h : beforeElements s = .ok (.next r)) :
    r.length ≤ s.length := by
  have hs := length_skipBlank_le s
  unfold beforeElements at h
  split at h
  · cases h
  · next e =>
    rw [e] at hs
    split at h
    · cases h
    · cases h; exact hs

theorem beforeElements_stop {s r : List UInt8} (h : beforeElements s = .ok (.stop r)) :
    r.length < s.length := by
  have hs := length_skipBlank_le s
  unfold beforeElements at h
  split at h
  · cases h
  · next e =>
    rw [e] at hs
    split at h
    · cases h; exact hs
    · cases h

/-- Reads elements up to the closing bracket, from the first byte of one of them. -/
def elements (item : Reader α) (s : List UInt8) : Except Fault (List α × List UInt8) :=
  match _h : item.run s with
  | .error f => .error f
  | .ok (a, r) =>
    match _h' : afterElement r with
    | .error f => .error f
    | .ok (.stop r) => .ok ([a], r)
    | .ok (.next r) => (elements item r).map fun p => (a :: p.1, p.2)
termination_by s.length
decreasing_by have := item.uses _h; have := afterElement_next _h'; omega

theorem elements_length {item : Reader α} {s r : List UInt8} {xs : List α}
    (h : elements item s = .ok (xs, r)) : r.length < s.length := by
  fun_induction elements item s generalizing xs r with
  | case1 | case2 => cases h
  | case3 _ _ _ hi _ ha =>
    cases h; have := item.uses hi; have := afterElement_stop ha; omega
  | case4 _ _ _ hi t ha ih =>
    cases he : elements item t with
    | error => rw [he] at h; cases h
    | ok p =>
      rw [he] at h; cases h
      have := item.uses hi; have := afterElement_next ha; have := ih he; omega

def array (item : Reader α) : Reader (List α) :=
  led openBracket
    (fun s =>
      match beforeElements s with
      | .error f => .error f
      | .ok (.stop r) => .ok ([], r)
      | .ok (.next r) => elements item r)
    fun {s a r} h => by
      split at h
      · cases h
      · next hb => cases h; exact Nat.le_of_lt (beforeElements_stop hb)
      · next hb => have := beforeElements_next hb; have := elements_length h; omega

/-! ## Objects -/

/-- What stands between two members or at the end of an object: the bytes behind the opening quote
of the next key, or those behind the closing brace. -/
def afterMember (s : List UInt8) : Except Fault Turn :=
  match skipBlank s with
  | [] => .error .ended
  | b :: rest =>
    if b = closeBrace then .ok (.stop rest)
    else if b = comma then
      match skipBlank rest with
      | [] => .error .ended
      | c :: rest => if c = quote then .ok (.next rest) else .error .malformed
    else .error .malformed

/-- Reads what stands behind the opening brace. -/
def beforeMembers (s : List UInt8) : Except Fault Turn :=
  match skipBlank s with
  | [] => .error .ended
  | b :: rest =>
    if b = closeBrace then .ok (.stop rest)
    else if b = quote then .ok (.next rest)
    else .error .malformed

theorem afterMember_next {s r : List UInt8} (h : afterMember s = .ok (.next r)) :
    r.length < s.length := by
  have hs := length_skipBlank_le s
  unfold afterMember at h
  split at h
  · cases h
  · next b rest e =>
    rw [e] at hs
    have hr := length_skipBlank_le rest
    simp only [List.length_cons] at hs
    repeat' split at h
    all_goals cases h
    simp_all only [List.length_cons]
    omega

theorem afterMember_stop {s r : List UInt8} (h : afterMember s = .ok (.stop r)) :
    r.length < s.length := by
  have hs := length_skipBlank_le s
  unfold afterMember at h
  split at h
  · cases h
  · next b rest e =>
    rw [e] at hs
    simp only [List.length_cons] at hs
    repeat' split at h
    all_goals cases h
    omega

theorem beforeMembers_length {s r : List UInt8}
    (h : beforeMembers s = .ok (.next r) ∨ beforeMembers s = .ok (.stop r)) :
    r.length < s.length := by
  have hs := length_skipBlank_le s
  unfold beforeMembers at h
  split at h
  · rcases h with h | h <;> cases h
  · next e =>
    rw [e] at hs
    simp only [List.length_cons] at hs
    repeat' split at h
    all_goals rcases h with h | h <;> cases h
    all_goals omega

/-- Reads the colon behind a key. -/
def afterKey (s : List UInt8) : Except Fault (List UInt8) :=
  match skipBlank s with
  | [] => .error .ended
  | b :: rest => if b = colon then .ok rest else .error .malformed

theorem afterKey_length {s r : List UInt8} (h : afterKey s = .ok r) : r.length < s.length := by
  have hs := length_skipBlank_le s
  unfold afterKey at h
  split at h
  · cases h
  · next e =>
    rw [e] at hs
    split at h
    · cases h; exact hs
    · cases h

/-- Reads members up to the closing brace, from behind the opening quote of a key. The state and
the key decide on the reader of the value, which gives the next state; they may also refuse the
key. -/
def members (value : σ → String → Except Fault (Reader σ)) (state : σ) (s : List UInt8) :
    Except Fault (σ × List UInt8) :=
  match _hk : stringBody s with
  | .error f => .error f
  | .ok (key, r) =>
    match value state key with
    | .error f => .error f
    | .ok reader =>
      match _hc : afterKey r with
      | .error f => .error f
      | .ok r =>
        match _hv : reader.run r with
        | .error f => .error f
        | .ok (state, r) =>
          match _ha : afterMember r with
          | .error f => .error f
          | .ok (.stop r) => .ok (state, r)
          | .ok (.next r) => members value state r
termination_by s.length
decreasing_by
  have := stringBody_length _hk; have := afterKey_length _hc
  have := reader.uses _hv; have := afterMember_next _ha
  omega

theorem members_length {value : σ → String → Except Fault (Reader σ)} {state st : σ}
    {s r : List UInt8} (h : members value state s = .ok (st, r)) : r.length < s.length := by
  fun_induction members value state s with
  | case1 | case2 | case3 | case4 | case5 => cases h
  | case6 _ _ _ _ hk reader _ _ hc _ _ hv _ ha =>
    cases h
    have := stringBody_length hk; have := afterKey_length hc
    have := reader.uses hv; have := afterMember_stop ha
    omega
  | case7 _ _ _ _ hk reader _ _ hc _ _ hv _ ha ih =>
    have := ih h
    have := stringBody_length hk; have := afterKey_length hc
    have := reader.uses hv; have := afterMember_next ha
    omega

/-- An object, read member by member. -/
def object (value : σ → String → Except Fault (Reader σ)) (start : σ) : Reader σ :=
  led openBrace
    (fun s =>
      match beforeMembers s with
      | .error f => .error f
      | .ok (.stop r) => .ok (start, r)
      | .ok (.next r) => members value start r)
    fun {s a r} h => by
      split at h
      · cases h
      · next hb => cases h; exact Nat.le_of_lt (beforeMembers_length (Or.inr hb))
      · next hb => have := beforeMembers_length (Or.inl hb); have := members_length h; omega

def whole (reader : Reader α) (s : List UInt8) : Except Fault α :=
  match reader.run s with
  | .error f => .error f
  | .ok (a, r) => if skipBlank r = [] then .ok a else .error .malformed

end Reader

end Discovery.Json
