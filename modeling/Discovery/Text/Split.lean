/-!
# Cutting text at a separator

Text is cut on lists of characters. `cutFirst` and `cutLast` cut at one occurrence of a
separator, `pieces` at all of them, `lines` at line breaks. The lemmas pin each down without its
recursion: the parts and the separator make up the text, and the separator is absent on the side
that was searched, or from all pieces.
-/

namespace Discovery.Text

/-- The text before and after the first `sep`, or nothing when `sep` does not occur. -/
def cutFirst (sep : Char) : List Char → Option (List Char × List Char)
  | [] => none
  | c :: cs =>
    if c = sep then some ([], cs)
    else (cutFirst sep cs).map fun p => (c :: p.1, p.2)

/-- The text before and after the last `sep`, or nothing when `sep` does not occur. -/
def cutLast (sep : Char) : List Char → Option (List Char × List Char)
  | [] => none
  | c :: cs =>
    match cutLast sep cs with
    | some p => some (c :: p.1, p.2)
    | none => if c = sep then some ([], cs) else none

/-- The pieces between the occurrences of `sep`; a text without one is a single piece. -/
def pieces (sep : Char) : List Char → List (List Char)
  | [] => [[]]
  | c :: cs =>
    if c = sep then [] :: pieces sep cs
    else match pieces sep cs with
      | [] => [[c]]
      | p :: ps => (c :: p) :: ps

/-- A line without the carriage return that is part of the line break behind it. -/
def trimReturn (s : List Char) : List Char := if s.getLast? = some '\r' then s.dropLast else s

/-- The lines of a text that a line break follows. A line break is a line feed, with a carriage
return before it or not. -/
def lines (s : List Char) : List (List Char) := (pieces '\n' s).map trimReturn

theorem cutFirst_eq_none_iff {sep : Char} {s : List Char} :
    cutFirst sep s = none ↔ sep ∉ s := by
  induction s with
  | nil => simp [cutFirst]
  | cons c cs ih =>
    by_cases h : c = sep
    · simp [cutFirst, h]
    · simp [cutFirst, h, ih, Ne.symm h]

theorem cutFirst_eq_some_iff {sep : Char} {s a b : List Char} :
    cutFirst sep s = some (a, b) ↔ s = a ++ sep :: b ∧ sep ∉ a := by
  induction s generalizing a with
  | nil => simp [cutFirst]
  | cons c cs ih =>
    by_cases h : c = sep
    · subst h
      cases a with
      | nil => simp [cutFirst]
      | cons d a =>
        simp only [cutFirst, ↓reduceIte, List.cons_append, List.cons.injEq, List.mem_cons,
          Option.some.injEq, Prod.mk.injEq]
        constructor
        · rintro ⟨h, -⟩; cases h
        · rintro ⟨⟨rfl, -⟩, hd⟩; exact absurd (Or.inl rfl) hd
    · cases a with
      | nil => simp [cutFirst, h]
      | cons d a =>
        simp only [cutFirst, h, ↓reduceIte, Option.map_eq_some_iff, Prod.mk.injEq, List.cons.injEq,
          List.cons_append, List.mem_cons, not_or]
        constructor
        · rintro ⟨⟨p, q⟩, hp, ⟨rfl, rfl⟩, rfl⟩
          have := ih.1 hp
          exact ⟨⟨rfl, this.1⟩, fun e => h e.symm, this.2⟩
        · rintro ⟨⟨rfl, e⟩, -, hm⟩
          exact ⟨(a, b), ih.2 ⟨e, hm⟩, ⟨rfl, rfl⟩, rfl⟩

theorem cutLast_eq_none_iff {sep : Char} {s : List Char} :
    cutLast sep s = none ↔ sep ∉ s := by
  induction s with
  | nil => simp [cutLast]
  | cons c cs ih =>
    cases h : cutLast sep cs with
    | none =>
      have := ih.1 h
      by_cases e : c = sep
      · simp [cutLast, h, e]
      · simp [cutLast, h, e, Ne.symm e, this]
    | some p =>
      have : sep ∈ cs := by
        by_cases m : sep ∈ cs
        · exact m
        · rw [ih.2 m] at h; cases h
      simp [cutLast, h, this]

theorem cutLast_eq_some_iff {sep : Char} {s a b : List Char} :
    cutLast sep s = some (a, b) ↔ s = a ++ sep :: b ∧ sep ∉ b := by
  induction s generalizing a b with
  | nil => simp [cutLast]
  | cons c cs ih =>
    cases h : cutLast sep cs with
    | none =>
      have hm : sep ∉ cs := cutLast_eq_none_iff.1 h
      cases a with
      | nil =>
        by_cases e : c = sep
        · subst e
          simp only [cutLast, h, ↓reduceIte, Option.some.injEq, Prod.mk.injEq, true_and,
            List.nil_append, List.cons.injEq]
          exact ⟨fun e => ⟨e, e ▸ hm⟩, fun e => e.1⟩
        · simp [cutLast, h, e]
      | cons d a =>
        have hne : cs ≠ a ++ sep :: b := fun e => hm (by simp [e])
        by_cases e : c = sep <;> simp [cutLast, h, e, hne]
    | some p =>
      obtain ⟨p, q⟩ := p
      have hp := ih.1 h
      cases a with
      | nil =>
        simp only [cutLast, h, Option.some.injEq, Prod.mk.injEq, List.nil_append, List.cons.injEq]
        constructor
        · rintro ⟨e, -⟩; cases e
        · rintro ⟨⟨rfl, rfl⟩, hb⟩; exact absurd (by simp [hp.1]) hb
      | cons d a =>
        simp only [cutLast, h, Option.some.injEq, Prod.mk.injEq, List.cons_append, List.cons.injEq]
        constructor
        · rintro ⟨⟨rfl, rfl⟩, rfl⟩; exact ⟨⟨rfl, hp.1⟩, hp.2⟩
        · rintro ⟨⟨rfl, e⟩, hb⟩
          have := (ih (a := a) (b := b)).2 ⟨e, hb⟩
          rw [h] at this; cases this; exact ⟨⟨rfl, rfl⟩, rfl⟩

/-- There is always a first piece. -/
theorem pieces_ne_nil (sep : Char) (s : List Char) : pieces sep s ≠ [] := by
  cases s with
  | nil => simp [pieces]
  | cons c cs =>
    by_cases h : c = sep
    · simp [pieces, h]
    · simp only [pieces, h, ↓reduceIte]
      split <;> simp

/-- No piece holds the separator. -/
theorem not_mem_of_mem_pieces {sep : Char} {s p : List Char} (h : p ∈ pieces sep s) : sep ∉ p := by
  induction s generalizing p with
  | nil => simp_all [pieces]
  | cons c cs ih =>
    by_cases e : c = sep
    · simp only [pieces, e, ↓reduceIte, List.mem_cons] at h
      rcases h with rfl | h
      · exact List.not_mem_nil
      · exact ih h
    · simp only [pieces, e, ↓reduceIte] at h
      cases hs : pieces sep cs with
      | nil => exact absurd hs (pieces_ne_nil sep cs)
      | cons q qs =>
        rw [hs] at h ih
        rcases List.mem_cons.1 h with rfl | h
        · exact List.not_mem_cons_of_ne_of_not_mem (Ne.symm e) (ih List.mem_cons_self)
        · exact ih (List.mem_cons_of_mem _ h)

theorem pieces_eq_splitOn (sep : Char) (s : List Char) : pieces sep s = s.splitOn sep := by
  induction s with
  | nil => rfl
  | cons c cs ih =>
    rw [List.splitOn_cons_eq_if_modifyHead, ← ih]
    by_cases h : c = sep
    · simp [pieces, h]
    · obtain ⟨p, ps, hp⟩ := List.exists_cons_of_ne_nil (pieces_ne_nil sep cs)
      simp [pieces, h, hp]

/-- The pieces are what was joined by the separator and does not hold it. -/
theorem pieces_eq_iff {sep : Char} {s : List Char} {ps : List (List Char)} (h0 : ps ≠ []) :
    pieces sep s = ps ↔ s = [sep].intercalate ps ∧ ∀ p ∈ ps, sep ∉ p := by
  constructor
  · rintro rfl
    refine ⟨?_, fun p hp => not_mem_of_mem_pieces hp⟩
    rw [pieces_eq_splitOn, List.intercalate_splitOn]
  · rintro ⟨rfl, hs⟩
    rw [pieces_eq_splitOn, List.splitOn_intercalate sep hs h0]

/-- No line holds a line feed. -/
theorem newline_not_mem_of_mem_lines {s l : List Char} (h : l ∈ lines s) : '\n' ∉ l := by
  obtain ⟨p, hp, rfl⟩ := List.mem_map.1 h
  have hn := not_mem_of_mem_pieces hp
  unfold trimReturn
  split
  · exact fun hm => hn (List.dropLast_subset p hm)
  · exact hn

end Discovery.Text
