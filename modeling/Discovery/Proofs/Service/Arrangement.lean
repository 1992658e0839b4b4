import Discovery.Proofs.Lookup.Cancellation
import Discovery.Proofs.Service.Fingerprint

/-!
# How results are arranged

Sorting a result only moves its instances. It is the one arrangement in which each instance stands
in order and those with the same node and identity stand as they did (`Service.arranges_iff`), so
that a sorted result is told by what the list has under each node and identity. A fetch gives that
arrangement of its client's answer, and a fingerprint depends on the order of a list in so far as it
has different instances under one node and identity.
-/

namespace Discovery

namespace Service

variable {a b : Service} {key : String × String} {xs ys : List Service}

/-- The instances with one node and identity, in their order. -/
def tied (key : String × String) (xs : List Service) : List Service :=
  xs.filter fun s => s.sortKey = key

theorem mem_tied : a ∈ tied key xs ↔ a ∈ xs ∧ a.sortKey = key := by
  rw [tied, List.mem_filter, decide_eq_true_eq]

theorem tied_cons_self (a : Service) (xs : List Service) :
    tied a.sortKey (a :: xs) = a :: tied a.sortKey xs :=
  List.filter_cons_of_pos (decide_eq_true rfl)

theorem tied_cons_of_ne (h : a.sortKey ≠ key) (xs : List Service) :
    tied key (a :: xs) = tied key xs :=
  List.filter_cons_of_neg (by simpa using h)

theorem atMost_iff_before : atMost a b = true ↔ a.Before b ∨ a.sortKey = b.sortKey := by
  constructor
  · intro h
    by_cases hkey : a.sortKey = b.sortKey
    · exact .inr hkey
    · exact .inl (before_of_atMost h hkey)
  · rintro ((hnode | ⟨hnode, hid⟩) | hkey)
    · refine atMost_iff.2 (.inl ⟨fun e => ?_, decide_eq_true (List.le_of_lt hnode)⟩)
      rw [e] at hnode
      exact List.lt_irrefl _ hnode
    · exact atMost_iff.2 (.inr ⟨hnode, decide_eq_true (List.le_of_lt hid)⟩)
    · have hself := atMost_total a a
      rwa [Bool.or_self, atMost_congr rfl hkey] at hself

/-! ## Sorting is stable -/

theorem tied_sort (key : String × String) (xs : List Service) :
    tied key (sort xs) = tied key xs := by
  have hordered : (tied key xs).Pairwise fun a b => atMost a b = true :=
    List.pairwise_of_forall_mem_list fun a ha b hb =>
      atMost_iff_before.2 (.inr ((mem_tied.1 ha).2.trans (mem_tied.1 hb).2.symm))
  have hsublist : (tied key xs).Sublist (sort xs) :=
    List.sublist_mergeSort atMost_trans atMost_total hordered List.filter_sublist
  have hkeys : tied key (tied key xs) = tied key xs := by
    rw [tied, List.filter_eq_self]
    intro a ha
    exact decide_eq_true (mem_tied.1 ha).2
  have htied : (tied key xs).Sublist (tied key (sort xs)) := hkeys ▸ hsublist.filter _
  exact (htied.eq_of_length ((sort_perm xs).filter _).length_eq.symm).symm

theorem mem_of_tied_eq (h : ∀ key, tied key xs = tied key ys) (ha : a ∈ xs) : a ∈ ys := by
  have ha : a ∈ tied a.sortKey xs := mem_tied.2 ⟨ha, rfl⟩
  rw [h] at ha
  exact (mem_tied.1 ha).1

theorem tied_eq_of_cons (h : ∀ key, tied key (a :: xs) = tied key (a :: ys))
    (key : String × String) : tied key xs = tied key ys := by
  have hkey := h key
  by_cases ha : a.sortKey = key
  · rw [← ha, tied_cons_self, tied_cons_self] at hkey
    rw [← ha]
    exact (List.cons.inj hkey).2
  · rwa [tied_cons_of_ne ha, tied_cons_of_ne ha] at hkey

theorem atMost_of_mem_cons (h : (b :: xs).Pairwise fun a b => atMost a b = true)
    (ha : a ∈ b :: xs) : atMost b a = true := by
  obtain rfl | ha := List.mem_cons.1 ha
  · exact atMost_iff_before.2 (.inr rfl)
  · exact List.rel_of_pairwise_cons h ha

/-- Lists in order are told by what they have under each key. -/
theorem eq_of_tied_eq (hxs : xs.Pairwise fun a b => atMost a b = true)
    (hys : ys.Pairwise fun a b => atMost a b = true) (h : ∀ key, tied key xs = tied key ys) :
    xs = ys := by
  induction xs generalizing ys with
  | nil =>
    cases ys with
    | nil => rfl
    | cons b ys =>
      exact absurd (mem_of_tied_eq (fun key => (h key).symm) List.mem_cons_self) List.not_mem_nil
  | cons a xs ih =>
    cases ys with
    | nil => exact absurd (mem_of_tied_eq h List.mem_cons_self) List.not_mem_nil
    | cons b ys =>
      -- each of the two heads stands in the other list, hence behind the other head
      have ha : a ∈ b :: ys := mem_of_tied_eq h List.mem_cons_self
      have hb : b ∈ a :: xs := mem_of_tied_eq (fun key => (h key).symm) List.mem_cons_self
      have hkey := sortKey_eq_of_atMost (atMost_of_mem_cons hxs hb) (atMost_of_mem_cons hys ha)
      have hheads := h a.sortKey
      rw [tied_cons_self, hkey, tied_cons_self] at hheads
      obtain ⟨rfl, -⟩ := List.cons.inj hheads
      rw [ih hxs.of_cons hys.of_cons (tied_eq_of_cons h)]

/-- Two lists are sorted to the same one if they have the same under each key. -/
theorem sort_eq_iff : sort xs = sort ys ↔ ∀ key, tied key xs = tied key ys := by
  constructor
  · intro h key
    rw [← tied_sort key xs, h, tied_sort]
  · intro h
    apply eq_of_tied_eq (pairwise_sort xs) (pairwise_sort ys)
    intro key
    rw [tied_sort, tied_sort, h]

/-- A list put in order: it has the same instances, ordered by the bytes of node and identity, and
those that agree in both as they stood. -/
structure Arranges (ys xs : List Service) : Prop where
  perm : ys.Perm xs
  ordered : ys.Pairwise fun a b => a.Before b ∨ a.sortKey = b.sortKey
  tied : ∀ key, tied key ys = tied key xs

theorem arranges_sort (xs : List Service) : Arranges (sort xs) xs where
  perm := sort_perm xs
  ordered := (pairwise_sort xs).imp atMost_iff_before.1
  tied key := tied_sort key xs

theorem arranges_iff : Arranges ys xs ↔ ys = sort xs := by
  constructor
  · intro h
    apply eq_of_tied_eq (h.ordered.imp atMost_iff_before.2) (pairwise_sort xs)
    intro key
    rw [h.tied, tied_sort]
  · rintro rfl
    exact arranges_sort xs

/-! ## Fingerprints -/

theorem tied_map_sorted (key : String × String) (xs : List Service) :
    tied key (xs.map sorted) = (tied key xs).map sorted :=
  List.filter_map

theorem digestText_eq_iff_tied :
    digestText xs = digestText ys ↔ ∀ key, List.Forall₂ Same (tied key xs) (tied key ys) := by
  rw [digestText_inj, sort_eq_iff]
  simp only [tied_map_sorted, map_sorted_eq_iff]

/-- Where instances with one node and identity are the same, their order does not matter. -/
theorem digestText_eq_of_perm (hsame : ∀ a ∈ xs, ∀ b ∈ xs, a.sortKey = b.sortKey → a.Same b)
    (hperm : xs.Perm ys) : digestText ys = digestText xs := by
  rw [digestText_eq_iff_tied]
  intro key
  rw [← map_sorted_eq_iff]
  have htied : ((tied key ys).map sorted).Perm ((tied key xs).map sorted) :=
    (hperm.symm.filter _).map sorted
  have hxs : ((tied key xs).map sorted).Pairwise (· = ·) := by
    rw [List.pairwise_map]
    refine List.pairwise_of_forall_mem_list fun a ha b hb => ?_
    obtain ⟨ha, hakey⟩ := mem_tied.1 ha
    obtain ⟨hb, hbkey⟩ := mem_tied.1 hb
    exact sorted_eq_iff.2 (hsame a ha b hb (hakey.trans hbkey.symm))
  have hys : ((tied key ys).map sorted).Pairwise (· = ·) :=
    htied.symm.pairwise hxs fun h => h.symm
  exact htied.eq_of_pairwise (fun _ _ _ _ h _ => h) hys hxs

/-- Instances that may be exchanged unnoticed are the same. -/
theorem same_of_digestText_eq (h : ∀ ys, xs.Perm ys → digestText ys = digestText xs)
    (ha : a ∈ xs) (hb : b ∈ xs) (hkey : a.sortKey = b.sortKey) : a.Same b := by
  by_cases hab : a = b
  · rw [← sorted_eq_iff, hab]
  · have hb : b ∈ xs.erase a := (List.mem_erase_of_ne (Ne.symm hab)).2 hb
    have hperm : xs.Perm (a :: b :: (xs.erase a).erase b) :=
      (List.perm_cons_erase ha).trans ((List.perm_cons_erase hb).cons a)
    have hexchanged := (h _ hperm).trans (h _ (hperm.trans (.swap b a _))).symm
    have htied := digestText_eq_iff_tied.1 hexchanged a.sortKey
    rw [tied_cons_self, hkey, tied_cons_self, tied_cons_self] at htied
    exact (List.forall₂_cons.1 htied).1

/-- **How far a fingerprint depends on the order of a list.** All arrangements of a list have one
text, and so one fingerprint, exactly if its instances with one node and identity are the same. For
the text tells what the list has under each node and identity, in that order, and nothing else of
its order. -/
theorem digestText_perm_iff (xs : List Service) :
    ((∀ ys, xs.Perm ys → digestText ys = digestText xs) ↔
      ∀ a ∈ xs, ∀ b ∈ xs, a.sortKey = b.sortKey → a.Same b) ∧
    ((∀ a ∈ xs, ∀ b ∈ xs, a.sortKey = b.sortKey → a.Same b) →
      ∀ ys, xs.Perm ys → fingerprint ys = fingerprint xs) ∧
    ∀ ys, digestText ys = digestText xs ↔
      ∀ key, List.Forall₂ Same (tied key ys) (tied key xs) := by
  refine ⟨⟨fun h a ha b hb hkey => ?_, ?_⟩, ?_, fun ys => digestText_eq_iff_tied⟩
  · exact same_of_digestText_eq h ha hb hkey
  · exact fun hsame ys hperm => digestText_eq_of_perm hsame hperm
  · intro hsame ys hperm
    rw [fingerprint, fingerprint, digestText_eq_of_perm hsame hperm]

/-- One instance at two addresses, listed either way. -/
theorem fingerprint_swap_ne :
    let a : Service := { node := "n", serviceId := "w", address := "1" }
    let b : Service := { node := "n", serviceId := "w", address := "2" }
    [a, b].Perm [b, a] ∧ digestText [a, b] ≠ digestText [b, a] ∧
      fingerprint [a, b] ≠ fingerprint [b, a] := by
  intro a b
  have hab : ¬a.Same b := fun h => absurd h.address (by decide)
  refine ⟨.swap b a [], fun h => hab ?_, fun h => ?_⟩
  · exact (List.forall₂_cons.1 (digestText_eq_iff_tied.1 h ("n", "w"))).1
  · have hbytes (xs : List Service) (hxs : xs.Pairwise fun a b => atMost a b = true)
        (hsorted : xs.map sorted = xs) : Text.utf8 (digestText xs) =
          (listJson Field.digestKey .compact xs).flatMap String.utf8EncodeChar := by
      rw [digestText_eq, hsorted, sort, List.mergeSort_of_pairwise hxs, Text.utf8,
        String.toList_ofList]
    have hsorted : a.sorted = a ∧ b.sorted = b := by
      simp [sorted, sortLabels, Labels.rearrange, a, b]
    rw [fingerprint, fingerprint, hbytes [a, b] (by decide) (by simp [hsorted]),
      hbytes [b, a] (by decide) (by simp [hsorted]), Sha256.hex, Sha256.hex, String.ofList_inj] at h
    exact absurd h (by decide +kernel)

end Service

namespace Lookup

/-- **A fetch only arranges what its client found.** It succeeds exactly if the client answers
before the stop signal counts, and then with the client's status and the one arrangement of the
client's instances; sorting that again changes nothing. -/
theorem fetch_ok_iff_arranges (q : Query) (stop : Token) (fired : Bool) (options : Options)
    (client : Request → List Poll) :
    let steps := client (requestFor q stop options)
    (∀ found, (fetch q stop fired options client).progress.result = some (.ok found) ↔
      fired = false ∧ ∃ i answer, EndsIn steps i (.ok answer) ∧ ¬FiresBy steps i ∧
        found.status = answer.status ∧ Service.Arranges found.services answer.services) ∧
    (∀ xs, ∃! ys, Service.Arranges ys xs) ∧
    ∀ xs ys, Service.Arranges ys xs → Service.sort ys = ys := by
  intro steps
  refine ⟨fun found => ?_, fun xs => ?_, fun xs ys hys => ?_⟩
  · rw [fetch_ok_iff]
    simp only [Answers, Bool.false_eq_true, false_or]
    constructor
    · rintro ⟨hfired, answer, ⟨i, hends, hfires⟩, rfl⟩
      exact ⟨hfired, i, answer, hends, hfires, rfl, Service.arranges_sort answer.services⟩
    · rintro ⟨hfired, i, answer, hends, hfires, hstatus, hservices⟩
      refine ⟨hfired, answer, ⟨i, hends, hfires⟩, ?_⟩
      rw [← Service.arranges_iff.1 hservices, ← hstatus]
  · exact ⟨Service.sort xs, Service.arranges_sort xs, fun ys => Service.arranges_iff.1⟩
  · rw [Service.arranges_iff.1 hys, Service.sort_sort]

end Lookup

end Discovery
