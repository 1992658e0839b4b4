import Mathlib.Data.List.Nodup
import Discovery.Proofs.Text.Utf8
import Discovery.Service.Fingerprint

/-!
# The order of results

Texts are ordered by their bytes, which is a linear order because no two texts have the same bytes.
Instances are ordered by node and identity (`Service.sortKey`); the order is total, and two
instances that may stand either way have the same key. So sorting is determined by what is sorted
when no key occurs twice (`Service.sort_eq_of_perm`), and then each result comes strictly before the
next (`Service.pairwise_before_sort`).
-/

namespace Discovery

namespace Text

variable {a b c : String}

theorem atMost_total (a b : String) : atMost a b = true ∨ atMost b a = true := by
  simpa only [atMost, decide_eq_true_eq] using List.le_total (utf8 a) (utf8 b)

theorem atMost_trans (h : atMost a b = true) (h' : atMost b c = true) : atMost a c = true := by
  simp only [atMost, decide_eq_true_eq] at *
  exact List.le_trans h h'

theorem atMost_antisymm (h : atMost a b = true) (h' : atMost b a = true) : a = b := by
  simp only [atMost, decide_eq_true_eq] at h h'
  exact utf8_injective (List.le_antisymm h h')

theorem utf8_lt_of_atMost (h : atMost a b = true) (hne : a ≠ b) : utf8 a < utf8 b := by
  by_contra hlt
  have h' : atMost b a = true := by
    simp only [atMost, decide_eq_true_eq]
    exact List.not_lt.1 hlt
  exact hne (atMost_antisymm h h')

end Text

namespace Service

variable {a b c : Service} {xs ys : List Service}

/-- What results are ordered by. -/
def sortKey (s : Service) : String × String := (s.node, s.serviceId)

/-- One instance comes before another by the bytes of its node or, on one node, of its identity. -/
def Before (a b : Service) : Prop :=
  Text.utf8 a.node < Text.utf8 b.node ∨
    a.node = b.node ∧ Text.utf8 a.serviceId < Text.utf8 b.serviceId

theorem atMost_iff : atMost a b = true ↔
    a.node ≠ b.node ∧ Text.atMost a.node b.node = true ∨
      a.node = b.node ∧ Text.atMost a.serviceId b.serviceId = true := by
  by_cases h : a.node = b.node <;> simp [atMost, h]

theorem atMost_total (a b : Service) : (atMost a b || atMost b a) = true := by
  rw [Bool.or_eq_true, atMost_iff, atMost_iff]
  by_cases h : a.node = b.node
  · rcases Text.atMost_total a.serviceId b.serviceId with hs | hs
    · exact .inl (.inr ⟨h, hs⟩)
    · exact .inr (.inr ⟨h.symm, hs⟩)
  · rcases Text.atMost_total a.node b.node with hn | hn
    · exact .inl (.inl ⟨h, hn⟩)
    · exact .inr (.inl ⟨Ne.symm h, hn⟩)

theorem atMost_trans (a b c : Service) (h : atMost a b = true) (h' : atMost b c = true) :
    atMost a c = true := by
  rw [atMost_iff] at *
  rcases h with ⟨hne, hn⟩ | ⟨he, hs⟩ <;> rcases h' with ⟨hne', hn'⟩ | ⟨he', hs'⟩
  · refine .inl ⟨fun e => hne ?_, Text.atMost_trans hn hn'⟩
    rw [← e] at hn'
    exact Text.atMost_antisymm hn hn'
  · exact .inl (he' ▸ ⟨hne, hn⟩)
  · exact .inl (he ▸ ⟨hne', hn'⟩)
  · exact .inr ⟨he.trans he', Text.atMost_trans hs hs'⟩

/-- Instances that may stand either way have the same key. -/
theorem sortKey_eq_of_atMost (h : atMost a b = true) (h' : atMost b a = true) :
    a.sortKey = b.sortKey := by
  rw [atMost_iff] at h h'
  rcases h with ⟨hne, hn⟩ | ⟨he, hs⟩
  · rcases h' with ⟨-, hn'⟩ | ⟨he', -⟩
    · exact absurd (Text.atMost_antisymm hn hn') hne
    · exact absurd he'.symm hne
  · rcases h' with ⟨hne', -⟩ | ⟨-, hs'⟩
    · exact absurd he.symm hne'
    · exact Prod.ext he (Text.atMost_antisymm hs hs')

theorem before_of_atMost (h : atMost a b = true) (hne : a.sortKey ≠ b.sortKey) : a.Before b := by
  rcases atMost_iff.1 h with ⟨hnode, hn⟩ | ⟨he, hs⟩
  · exact .inl (Text.utf8_lt_of_atMost hn hnode)
  · exact .inr ⟨he, Text.utf8_lt_of_atMost hs fun e => hne (Prod.ext he e)⟩

theorem atMost_congr {a' b' : Service} (ha : a.sortKey = a'.sortKey) (hb : b.sortKey = b'.sortKey) :
    atMost a b = atMost a' b' := by
  obtain ⟨hn, hs⟩ := Prod.ext_iff.1 ha
  obtain ⟨hn', hs'⟩ := Prod.ext_iff.1 hb
  simp only [sortKey] at hn hs hn' hs'
  simp only [atMost, hn, hs, hn', hs']

/-! ## Sorting -/

theorem sort_perm (xs : List Service) : (sort xs).Perm xs := List.mergeSort_perm xs atMost

theorem perm_of_sort_eq (h : sort xs = sort ys) : xs.Perm ys :=
  (sort_perm xs).symm.trans (h ▸ sort_perm ys)

theorem pairwise_sort (xs : List Service) : (sort xs).Pairwise fun a b => atMost a b = true :=
  List.pairwise_mergeSort atMost_trans atMost_total xs

theorem sort_sort (xs : List Service) : sort (sort xs) = sort xs :=
  List.mergeSort_of_pairwise (pairwise_sort xs)

/-- What is done to each instance, short of its key, may be done before or after sorting. -/
theorem map_sort {f : Service → Service} (hf : ∀ s, (f s).sortKey = s.sortKey)
    (xs : List Service) : (sort xs).map f = sort (xs.map f) := by
  apply List.map_mergeSort
  intro a _ b _
  exact atMost_congr (hf a).symm (hf b).symm

/-- The instances in their places are the sorted result. -/
theorem map_places (xs : List Service) : (places xs).map xs.get = sort xs := by
  have h : (places xs).map xs.get = ((List.finRange xs.length).map xs.get).mergeSort atMost :=
    List.map_mergeSort fun _ _ _ _ => rfl
  rw [List.map_get_finRange] at h
  exact h

/-- Sorting forgets how a result was arranged when no key occurs twice in it. -/
theorem sort_eq_of_perm (h : xs.Perm ys) (hnodup : (xs.map sortKey).Nodup) : sort xs = sort ys := by
  have hperm : (sort xs).Perm (sort ys) := (sort_perm xs).trans (h.trans (sort_perm ys).symm)
  refine hperm.eq_of_pairwise ?_ (pairwise_sort xs) (pairwise_sort ys)
  intro a b ha hb hab hba
  have ha : a ∈ xs := (sort_perm xs).mem_iff.1 ha
  have hb : b ∈ xs := h.mem_iff.2 ((sort_perm ys).mem_iff.1 hb)
  exact List.inj_on_of_nodup_map hnodup ha hb (sortKey_eq_of_atMost hab hba)

theorem pairwise_before_sort (hnodup : (xs.map sortKey).Nodup) : (sort xs).Pairwise Before := by
  have hne : (sort xs).Pairwise fun a b => a.sortKey ≠ b.sortKey :=
    List.pairwise_map.1 (((sort_perm xs).map sortKey).nodup_iff.2 hnodup)
  exact (pairwise_sort xs).imp₂ (fun _ _ => before_of_atMost) hne

end Service

end Discovery
