import Discovery.Json.Reader

/-!
# Values that nobody wants

A value under an unknown key must be well-formed and is otherwise skipped. The brackets that are
open are kept in a list, so that values may be nested to any depth.
-/

namespace Discovery.Json

/-- An open bracket. -/
inductive Frame where
  | array
  | object
  deriving DecidableEq, Repr

/-- The byte that closes a bracket. -/
def Frame.closing : Frame → UInt8
  | .array => closeBracket
  | .object => closeBrace

/-- Skips a value that holds no others, from its first byte. -/
def skipScalar : List UInt8 → Except Fault (List UInt8)
  | [] => .error .ended
  | b :: rest =>
    match wordAfter? b with
    | some w => word w rest
    | none =>
      if b = quote then skipString rest
      else if b = minus then skipNumber rest
      else if (digit? b).isSome then skipNumber (b :: rest)
      else .error .malformed

theorem skipScalar_length {s r : List UInt8} (h : skipScalar s = .ok r) : r.length < s.length := by
  cases s with
  | nil => cases h
  | cons b rest =>
    simp only [skipScalar] at h
    split at h
    · have := word_length h; simp only [List.length_cons]; omega
    · split at h
      · have := skipString_length h; simp only [List.length_cons]; omega
      · split at h
        · have := skipNumber_length h; simp only [List.length_cons]; omega
        · split at h
          · exact skipNumber_length h
          · cases h

/-- Skips a key and its colon, from where the opening quote should be. -/
def skipKey (s : List UInt8) : Except Fault (List UInt8) :=
  match skipBlank s with
  | [] => .error .ended
  | b :: rest =>
    if b = quote then
      match skipString rest with
      | .error f => .error f
      | .ok r => Reader.afterKey r
    else .error .malformed

theorem skipKey_length {s r : List UInt8} (h : skipKey s = .ok r) : r.length < s.length := by
  have hs := length_skipBlank_le s
  unfold skipKey at h
  split at h
  · cases h
  · next e =>
    rw [e] at hs
    simp only [List.length_cons] at hs
    split at h
    · split at h
      · cases h
      · next hk => have := skipString_length hk; have := Reader.afterKey_length h; omega
    · cases h

/-- The place of a skipping reader: at a value, or behind one. -/
inductive Place where
  | value
  | behind
  deriving DecidableEq, Repr

/-- Skips from a place within open brackets to the end of the outermost value. -/
def skip (place : Place) (frames : List Frame) (s : List UInt8) : Except Fault (List UInt8) :=
  match place with
  | .value =>
    match _hs : skipBlank s with
    | [] => .error .ended
    | b :: rest =>
      if b = openBracket then
        match _hm : skipBlank rest with
        | [] => .error .ended
        | c :: more =>
          if c = closeBracket then skip .behind frames more
          else skip .value (.array :: frames) rest
      else if b = openBrace then
        match _hm : skipBlank rest with
        | [] => .error .ended
        | c :: more =>
          if c = closeBrace then skip .behind frames more
          else match _hk : skipKey rest with
            | .error f => .error f
            | .ok r => skip .value (.object :: frames) r
      else match _hr : skipScalar (b :: rest) with
        | .error f => .error f
        | .ok r => skip .behind frames r
  | .behind =>
    match frames with
    | [] => .ok s
    | frame :: frames =>
      match _hs : skipBlank s with
      | [] => .error .ended
      | b :: rest =>
        if b = frame.closing then skip .behind frames rest
        else if b = comma then
          match frame with
          | .array => skip .value (.array :: frames) rest
          | .object =>
            match _hk : skipKey rest with
            | .error f => .error f
            | .ok r => skip .value (.object :: frames) r
        else .error .malformed
termination_by s.length
decreasing_by
  all_goals
    have hs := length_skipBlank_le s
    rw [_hs] at hs
    simp only [List.length_cons] at hs
  · have hm := length_skipBlank_le rest
    rw [_hm] at hm; simp only [List.length_cons] at hm; omega
  · omega
  · have hm := length_skipBlank_le rest
    rw [_hm] at hm; simp only [List.length_cons] at hm; omega
  · have := skipKey_length _hk; omega
  · have := skipScalar_length _hr; simp only [List.length_cons] at this; omega
  · omega
  · omega
  · have := skipKey_length _hk; omega

theorem skip_length {place : Place} {frames : List Frame} {s r : List UInt8}
    (h : skip place frames s = .ok r) :
    r.length ≤ s.length ∧ (place = .value → r.length < s.length) := by
  induction hn : s.length using Nat.strongRecOn generalizing place frames s with
  | _ n ih =>
    subst hn
    have hs := length_skipBlank_le s
    have step : ∀ {place : Place} {frames : List Frame} {t : List UInt8},
        t.length < s.length → skip place frames t = .ok r → r.length < s.length :=
      fun ht hr => Nat.lt_of_le_of_lt (ih _ ht hr rfl).1 ht
    suffices hlt : r.length < s.length ∨ place = .behind ∧ r = s by
      rcases hlt with hlt | ⟨rfl, rfl⟩
      · exact ⟨Nat.le_of_lt hlt, fun _ => hlt⟩
      · exact ⟨Nat.le_refl _, fun e => by cases e⟩
    unfold skip at h
    split at h
    · left
      split at h
      · cases h
      · next b rest e =>
        rw [e] at hs
        simp only [List.length_cons] at hs
        have hr := length_skipBlank_le rest
        split at h
        · split at h
          · cases h
          · next e' =>
            rw [e'] at hr
            simp only [List.length_cons] at hr
            split at h
            · exact step (by omega) h
            · exact step (by omega) h
        · split at h
          · split at h
            · cases h
            · next e' =>
              rw [e'] at hr
              simp only [List.length_cons] at hr
              split at h
              · exact step (by omega) h
              · split at h
                · cases h
                · next hk => have := skipKey_length hk; exact step (by omega) h
          · split at h
            · cases h
            · next hc =>
              have := skipScalar_length hc
              simp only [List.length_cons] at this
              exact step (by omega) h
    · split at h
      · cases h; exact Or.inr ⟨rfl, rfl⟩
      · left
        split at h
        · cases h
        · next b rest e =>
          rw [e] at hs
          simp only [List.length_cons] at hs
          split at h
          · exact step (by omega) h
          · split at h
            · split at h
              · exact step (by omega) h
              · split at h
                · cases h
                · next hk => have := skipKey_length hk; exact step (by omega) h
            · cases h

/-- Any value, which is skipped. -/
def Reader.ignored : Reader Unit where
  run s := (skip .value [] s).map fun r => ((), r)
  uses {s a r} h := by
    cases hr : skip .value [] s with
    | error => rw [hr] at h; cases h
    | ok t => rw [hr] at h; cases h; exact (skip_length hr).2 rfl

end Discovery.Json
