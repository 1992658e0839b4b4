import Mathlib.Data.List.Forall2
import Mathlib.Data.List.Nodup
import Discovery.Proofs.Service.Order

/-!
# Instances up to the order of their labels

Labels are the same when every key has the same text, in whatever order the entries stand; instances
are the same when they agree in all twelve fields, labels being compared so. Sorting labels by key
gives each such class one form (`Service.sorted_eq_iff`).
-/

namespace Discovery

namespace Labels

variable {a b : Labels} {key value : String}

/-- Every key has the same text. -/
def Same (a b : Labels) : Prop := ∀ key, a.get? key = b.get? key

theorem get?_eq_some_iff : a.get? key = some value ↔ (key, value) ∈ a.entries := by
  unfold get?
  rw [List.lookup_eq_some_iff]
  constructor
  · rintro ⟨l₁, l₂, hl, -⟩
    rw [hl]
    exact List.mem_append_right _ List.mem_cons_self
  · intro hmem
    obtain ⟨l₁, l₂, hl⟩ := List.append_of_mem hmem
    refine ⟨l₁, l₂, hl, fun p hp => ?_⟩
    -- no entry before this one has its key
    have hnodup := a.nodup
    rw [hl, List.map_append, List.nodup_append] at hnodup
    have hne : p.1 ≠ key := hnodup.2.2 p.1 (List.mem_map_of_mem hp) key List.mem_cons_self
    simpa using hne.symm

theorem nodup_entries (a : Labels) : a.entries.Nodup := a.nodup.of_map

theorem same_iff_perm : a.Same b ↔ a.entries.Perm b.entries := by
  rw [List.perm_ext_iff_of_nodup a.nodup_entries b.nodup_entries]
  constructor
  · rintro h ⟨key, value⟩
    rw [← get?_eq_some_iff, ← get?_eq_some_iff, h key]
  · intro h key
    refine Option.ext fun value => ?_
    rw [get?_eq_some_iff, get?_eq_some_iff]
    exact h (key, value)

theorem ext_entries (h : a.entries = b.entries) : a = b := by
  cases a
  cases b
  cases h
  rfl

end Labels

namespace Service

theorem sortLabels_perm (l : Labels) : (sortLabels l).entries.Perm l.entries :=
  List.mergeSort_perm _ _

theorem pairwise_sortLabels (l : Labels) :
    (sortLabels l).entries.Pairwise fun x y => Text.atMost x.1 y.1 = true := by
  apply List.pairwise_mergeSort
  · intro x y z
    exact Text.atMost_trans
  · intro x y
    rw [Bool.or_eq_true]
    exact Text.atMost_total x.1 y.1

/-- Sorted labels are equal exactly if the labels are the same. -/
theorem sortLabels_eq_iff {a b : Labels} : sortLabels a = sortLabels b ↔ a.Same b := by
  rw [Labels.same_iff_perm]
  constructor
  · intro h
    exact (sortLabels_perm a).symm.trans (h ▸ sortLabels_perm b)
  · intro h
    have hperm : (sortLabels a).entries.Perm (sortLabels b).entries :=
      (sortLabels_perm a).trans (h.trans (sortLabels_perm b).symm)
    apply Labels.ext_entries
    refine hperm.eq_of_pairwise ?_ (pairwise_sortLabels a) (pairwise_sortLabels b)
    intro x y hx hy hxy hyx
    exact List.inj_on_of_nodup_map (sortLabels a).nodup hx (hperm.mem_iff.2 hy)
      (Text.atMost_antisymm hxy hyx)

/-- Instances that agree in every field. -/
structure Same (a b : Service) : Prop where
  id : a.id = b.id
  node : a.node = b.node
  address : a.address = b.address
  datacenter : a.datacenter = b.datacenter
  taggedAddresses : a.taggedAddresses.Same b.taggedAddresses
  nodeMeta : a.nodeMeta.Same b.nodeMeta
  serviceId : a.serviceId = b.serviceId
  serviceName : a.serviceName = b.serviceName
  serviceAddress : a.serviceAddress = b.serviceAddress
  serviceTags : a.serviceTags = b.serviceTags
  serviceMeta : a.serviceMeta.Same b.serviceMeta
  servicePort : a.servicePort = b.servicePort

variable {a b : Service} {xs ys : List Service}

/-- An instance with its labels sorted stands for all that are the same. -/
theorem sorted_eq_iff : a.sorted = b.sorted ↔ a.Same b := by
  constructor
  · intro h
    simp only [sorted, Service.mk.injEq, sortLabels_eq_iff] at h
    obtain ⟨h₁, h₂, h₃, h₄, h₅, h₆, h₇, h₈, h₉, h₁₀, h₁₁, h₁₂⟩ := h
    exact ⟨h₁, h₂, h₃, h₄, h₅, h₆, h₇, h₈, h₉, h₁₀, h₁₁, h₁₂⟩
  · intro h
    simp only [sorted, Service.mk.injEq, sortLabels_eq_iff]
    exact ⟨h.id, h.node, h.address, h.datacenter, h.taggedAddresses, h.nodeMeta, h.serviceId,
      h.serviceName, h.serviceAddress, h.serviceTags, h.serviceMeta, h.servicePort⟩

theorem sortKey_sorted (s : Service) : s.sorted.sortKey = s.sortKey := rfl

theorem map_sorted_eq_iff : xs.map sorted = ys.map sorted ↔ List.Forall₂ Same xs ys := by
  rw [← List.forall₂_eq_eq_eq, List.forall₂_map_left_iff, List.forall₂_map_right_iff]
  simp only [sorted_eq_iff]

end Service

end Discovery
