import Mathlib.Data.List.Nodup
import Discovery.Catalog.Basic

/-!
# Registrations by their keys

What putting and removing a registration do to the keys of a list and, where no key occurs twice,
to its members. The keys keep their order, and a key that is new comes last.
-/

namespace Discovery.Catalog

variable {r s : Registration} {rs : List Registration} {key k : Registration.Key}

theorem keys_put : (put r rs).map Registration.key =
    if r.key ∈ rs.map Registration.key then rs.map Registration.key
    else rs.map Registration.key ++ [r.key] := by
  induction rs with
  | nil => simp [put]
  | cons s rs ih =>
    by_cases h : s.key = r.key
    · simp [put, h]
    · simp only [put, h, ↓reduceIte, List.map_cons, ih, List.mem_cons, Ne.symm h, false_or]
      split <;> rfl

theorem mem_put (h : (rs.map Registration.key).Nodup) :
    s ∈ put r rs ↔ s = r ∨ s ∈ rs ∧ s.key ≠ r.key := by
  induction rs with
  | nil => simp [put]
  | cons a rs ih =>
    obtain ⟨ha, h⟩ := List.nodup_cons.1 h
    by_cases hr : a.key = r.key
    · have hs : s ∈ rs → s.key ≠ r.key := fun hm e =>
        ha (List.mem_map.2 ⟨s, hm, e.trans hr.symm⟩)
      simp only [put, hr, ↓reduceIte, List.mem_cons]
      constructor
      · rintro (rfl | hm)
        · exact .inl rfl
        · exact .inr ⟨.inr hm, hs hm⟩
      · rintro (rfl | ⟨rfl | hm, hk⟩)
        · exact .inl rfl
        · exact absurd hr hk
        · exact .inr hm
    · simp only [put, hr, ↓reduceIte, List.mem_cons, ih h]
      constructor
      · rintro (rfl | rfl | ⟨hm, hk⟩)
        · exact .inr ⟨.inl rfl, hr⟩
        · exact .inl rfl
        · exact .inr ⟨.inr hm, hk⟩
      · rintro (rfl | ⟨rfl | hm, hk⟩)
        · exact .inr (.inl rfl)
        · exact .inl rfl
        · exact .inr (.inr ⟨hm, hk⟩)

theorem mem_of_mem_put (h : s ∈ put r rs) : s = r ∨ s ∈ rs := by
  induction rs with
  | nil => exact .inl (List.mem_singleton.1 h)
  | cons a rs ih =>
    unfold put at h
    split at h
    · rcases List.mem_cons.1 h with h | h
      · exact .inl h
      · exact .inr (List.mem_cons_of_mem _ h)
    · rcases List.mem_cons.1 h with rfl | h
      · exact .inr List.mem_cons_self
      · exact (ih h).imp_right (List.mem_cons_of_mem _)

theorem mem_put_self (r : Registration) (rs : List Registration) : r ∈ put r rs := by
  induction rs with
  | nil => exact List.mem_singleton_self r
  | cons a rs ih =>
    unfold put
    split
    · exact List.mem_cons_self
    · exact List.mem_cons_of_mem _ ih

/-- Where a registration was put, nothing else is taken out with its key than before. -/
theorem remove_put (r : Registration) (rs : List Registration) :
    remove r.key (put r rs) = remove r.key rs := by
  induction rs with
  | nil => simp [put, remove]
  | cons a rs ih =>
    unfold put
    split
    · next h => simp [remove, h]
    · next h =>
      unfold remove at ih ⊢
      rw [List.filter_cons, List.filter_cons, ih]

theorem mem_remove : r ∈ remove key rs ↔ r ∈ rs ∧ r.key ≠ key := by simp [remove]

theorem keys_remove :
    (remove key rs).map Registration.key = (rs.map Registration.key).filter (· ≠ key) := by
  simp [remove, List.filter_map, Function.comp_def]

theorem length_remove_eq_iff :
    (remove key rs).length = rs.length ↔ key ∉ rs.map Registration.key := by
  simp only [remove, List.length_filter_eq_length_iff, List.mem_map, not_exists, not_and,
    decide_eq_true_eq, ne_eq]

theorem remove_of_notMem (h : key ∉ rs.map Registration.key) : remove key rs = rs :=
  List.filter_eq_self.2 fun r hr => by simpa using fun e => h (List.mem_map.2 ⟨r, hr, e⟩)

/-- Where no key occurs twice, a member is found under its key. -/
theorem find?_key_eq_some_iff (h : (rs.map Registration.key).Nodup) :
    (rs.find? fun r => r.key = k) = some r ↔ r ∈ rs ∧ r.key = k := by
  constructor
  · intro hf
    exact ⟨List.mem_of_find?_eq_some hf, by simpa using List.find?_some hf⟩
  · rintro ⟨hm, rfl⟩
    cases hf : rs.find? fun s => s.key = r.key with
    | none => simpa using List.find?_eq_none.1 hf r hm
    | some s =>
      have hs : s.key = r.key := by simpa using List.find?_some hf
      rw [List.inj_on_of_nodup_map h (List.mem_of_find?_eq_some hf) hm hs]

/-! ## Registering and deregistering -/

/-- An empty datacenter is stored as `dc1`. -/
theorem of_eq (s : Service) (ns partition : String) : Registration.of s ns partition =
    { service := { s with datacenter := if s.datacenter = "" then "dc1" else s.datacenter }
      ns, partition } := by
  by_cases h : s.datacenter = "" <;> simp [Registration.of, h, defaultDatacenter]

variable {c : Catalog} {datacenter node serviceId : String}

theorem registrations_register (c : Catalog) (s : Service) (ns partition : String) :
    (c.register s ns partition).registrations =
      put (Registration.of s ns partition) c.registrations := rfl

/-- What is not there cannot be taken away, and nothing changes. -/
theorem deregister_of_notMem
    (h : defaultKey datacenter node serviceId ∉ c.registrations.map Registration.key) :
    c.deregister datacenter node serviceId = (c, false) := by
  simp [deregister, length_remove_eq_iff, h]

theorem deregister_of_mem
    (h : defaultKey datacenter node serviceId ∈ c.registrations.map Registration.key) :
    c.deregister datacenter node serviceId =
      ({ registrations := remove (defaultKey datacenter node serviceId) c.registrations
         index := c.index + 1 }, true) := by
  simp [deregister, length_remove_eq_iff, h, bump]

theorem registrations_deregister (c : Catalog) (datacenter node serviceId : String) :
    (c.deregister datacenter node serviceId).1.registrations =
      remove (defaultKey datacenter node serviceId) c.registrations := by
  by_cases h : defaultKey datacenter node serviceId ∈ c.registrations.map Registration.key
  · rw [deregister_of_mem h]
  · rw [deregister_of_notMem h, remove_of_notMem h]

/-- Only a positive index that the catalog has not passed makes a request wait. -/
theorem mustWait_eq_false_iff {waitIndex : Option Nat} :
    c.mustWait waitIndex = false ↔ ∀ n, waitIndex = some n → n = 0 ∨ n < c.index := by
  cases waitIndex with
  | none => simp [mustWait]
  | some n =>
    simp only [mustWait, Option.any_some, Bool.and_eq_false_iff, decide_eq_false_iff_not,
      Option.some.injEq, forall_eq']
    omega

end Discovery.Catalog
