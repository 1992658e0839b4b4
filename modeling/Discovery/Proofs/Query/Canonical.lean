import Discovery.Proofs.Query.Grammar

/-!
# What the canonical form tells

The canonical form quotes nothing, and the parts of a query may hold the separators that it is
written with. It can be read back all the same: what stands between its parentheses is a spelling of
the query without namespace and partition, and leaving these out keeps a query separable. So the
canonical form tells the other four parts, and nothing else.
-/

namespace Discovery.Query

variable {q q₁ q₂ : Query} {text text₁ text₂ : String}

/-- A query without the parts that its canonical form leaves out. -/
def unscoped (q : Query) : Query := { q with ns := "", partition := "" }

theorem canonical_unscoped (q : Query) : q.unscoped.canonical = q.canonical := rfl

theorem Separable.unscoped (hq : q.Separable) : q.unscoped.Separable where
  name_ne := hq.name_ne
  tag_question := hq.tag_question
  name_question := hq.name_question
  tag_dot := hq.tag_dot
  name_dot := hq.name_dot
  ns_ampersand := by simp [Query.unscoped]
  partition_ampersand := by simp [Query.unscoped]
  datacenter_at := hq.datacenter_at
  near_tilde := hq.near_tilde
  tilde hnear := by
    have h := hq.tilde hnear
    simp only [List.forall_mem_cons] at h
    simpa [Query.unscoped] using ⟨h.1, h.2.1, h.2.2.2.2.1⟩
  atSign hdatacenter := by
    have h := hq.atSign hdatacenter
    simp only [List.forall_mem_cons] at h
    simpa [Query.unscoped] using ⟨h.1, h.2.1⟩

theorem toList_led (lead : Char) (part : String) :
    (led lead part).toList = suffix lead part.toList := by
  by_cases h : part = "" <;> simp [led, suffix, h]

theorem canonicalText_mem_spellings (q : Query) : q.canonicalText ∈ q.unscoped.spellings := by
  refine mem_spellings_iff.2 ⟨"", by simp [optionTexts, unscoped], ?_⟩
  simp only [canonicalText, String.toList_append, toList_tagged, toList_led, unscoped]
  simp

theorem parse_canonicalText (hq : q.Separable) : parse q.canonicalText = .ok q.unscoped :=
  parse_of_mem_spellings hq.unscoped (canonicalText_mem_spellings q)

theorem canonical_eq (q : Query) : q.canonical = "catalog.service(" ++ q.canonicalText ++ ")" := rfl

theorem canonical_inj : q₁.canonical = q₂.canonical ↔ q₁.canonicalText = q₂.canonicalText := by
  rw [canonical_eq, canonical_eq, String.append_left_inj, String.append_right_inj]

theorem unscoped_inj : q₁.unscoped = q₂.unscoped ↔ q₁.name = q₂.name ∧ q₁.tag = q₂.tag ∧
    q₁.datacenter = q₂.datacenter ∧ q₁.near = q₂.near := by
  simp [unscoped]

/-- **The canonical form of a query that was read can be read back**, up to namespace and partition,
and two such queries have one canonical form when they differ in these at most. -/
theorem canonical_eq_iff_of_parse (h₁ : parse text₁ = .ok q₁) (h₂ : parse text₂ = .ok q₂) :
    (∃ inner r, q₁.canonical = "catalog.service(" ++ inner ++ ")" ∧ parse inner = .ok r ∧
      r.name = q₁.name ∧ r.tag = q₁.tag ∧ r.datacenter = q₁.datacenter ∧ r.near = q₁.near ∧
      r.ns = "" ∧ r.partition = "" ∧ r.canonical = q₁.canonical) ∧
    (q₁.canonical = q₂.canonical ↔ q₁.name = q₂.name ∧ q₁.tag = q₂.tag ∧
      q₁.datacenter = q₂.datacenter ∧ q₁.near = q₂.near) := by
  have hread₁ := parse_canonicalText (separable_of_parse h₁)
  have hread₂ := parse_canonicalText (separable_of_parse h₂)
  refine ⟨⟨q₁.canonicalText, q₁.unscoped, canonical_eq q₁, hread₁, rfl, rfl, rfl, rfl, rfl, rfl,
    canonical_unscoped q₁⟩, ?_⟩
  rw [← unscoped_inj]
  constructor
  · intro h
    rw [canonical_inj.1 h, hread₂] at hread₁
    exact (Except.ok.inj hread₁).symm
  · intro h
    rw [← canonical_unscoped q₁, h, canonical_unscoped]

/-- The options may hold the separators of other parts, and the name the closing parenthesis. -/
theorem canonical_eq_iff_of_parse_scoped :
    let q₁ : Query := ⟨"a)b", "v1", "dc2", "n1", "x@y~z", ""⟩
    let q₂ : Query := ⟨"a)b", "v1", "dc2", "n1", "", "p.q"⟩
    parse "v1.a)b?ns=x@y~z@dc2~n1" = .ok q₁ ∧ parse "v1.a)b?partition=p.q@dc2~n1" = .ok q₂ ∧
      q₁.canonical = q₂.canonical := by
  intro q₁ q₂
  have h₁ : parse "v1.a)b?ns=x@y~z@dc2~n1" = .ok q₁ := by rfl
  have h₂ : parse "v1.a)b?partition=p.q@dc2~n1" = .ok q₂ := by rfl
  exact ⟨h₁, h₂, (canonical_eq_iff_of_parse h₁ h₂).2.2 ⟨rfl, rfl, rfl, rfl⟩⟩

end Discovery.Query
