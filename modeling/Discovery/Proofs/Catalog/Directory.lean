import Mathlib.Data.List.Induction
import Mathlib.Logic.Function.Basic
import Discovery.Catalog.Watch
import Discovery.Proofs.Catalog.Keys

/-!
# The catalog as a map

A directory maps the keys of registrations to registrations and knows when each key came in. It is
what a catalog stands for: after any calls, the list of registrations holds what the directory
holds, each key once and in the order in which the keys came in (`Represents`), and a lookup that
does not wait answers with what the directory has for it (`Directory.Answers`).
-/

namespace Discovery

open Registration (Key)

/-- A call that writes to a catalog. -/
inductive Call where
  | register (service : Service)
  | registerIn (service : Service) (ns partition : String)
  | deregister (datacenter node serviceId : String)

/-- The catalog after a call. -/
def Catalog.call (c : Catalog) : Call → Catalog
  | .register s => c.register s defaultNamespace defaultPartition
  | .registerIn s ns partition => c.register s ns partition
  | .deregister datacenter node serviceId => (c.deregister datacenter node serviceId).1

/-- A catalog that was new before some calls. -/
def Catalog.after (calls : List Call) : Catalog := calls.foldl Catalog.call {}

/-- A map from keys to registrations. Beside each registration stands the time at which its key came
in, counted in calls. -/
structure Directory where
  entry : Key → Option (Nat × Registration) := fun _ => none
  clock : Nat := 0

namespace Directory

/-- The registration under a key. -/
def get? (d : Directory) (k : Key) : Option Registration := (d.entry k).map Prod.snd

/-- When a key came in. -/
def since (d : Directory) (k : Key) : Nat := ((d.entry k).map Prod.fst).getD 0

/-- Puts a registration under a key. A key that is there keeps its time. -/
def set (d : Directory) (k : Key) (r : Registration) : Directory where
  entry := Function.update d.entry k (some (((d.entry k).map Prod.fst).getD d.clock, r))
  clock := d.clock + 1

/-- Takes a key out. -/
def unset (d : Directory) (k : Key) : Directory where
  entry := Function.update d.entry k none
  clock := d.clock + 1

/-- Registers an instance in a namespace and partition. An empty datacenter is stored as `dc1`. -/
def register (d : Directory) (s : Service) (ns partition : String) : Directory :=
  let datacenter := if s.datacenter = "" then "dc1" else s.datacenter
  d.set { datacenter, node := s.node, serviceId := s.serviceId, ns, partition }
    { service := { s with datacenter }, ns, partition }

/-- The directory after a call. -/
def call (d : Directory) : Call → Directory
  | .register s => d.register s "default" "default"
  | .registerIn s ns partition => d.register s ns partition
  | .deregister datacenter node serviceId =>
    d.unset { datacenter, node, serviceId, ns := "default", partition := "default" }

/-- A directory that was empty before some calls. -/
def after (calls : List Call) : Directory := calls.foldl call {}

/-- The instances that a directory has for a request, in the order in which their keys came in. -/
def Answers (d : Directory) (q : Lookup.Request) (services : List Service) : Prop :=
  ∃ found : List Registration, services = found.map Registration.service ∧
    (found.map Registration.key).Pairwise (fun a b => d.since a < d.since b) ∧
    ∀ r, r ∈ found ↔ d.get? r.key = some r ∧
      r.service.datacenter = q.options.datacenter.getD "dc1" ∧
      r.ns = q.options.ns.getD "default" ∧ r.partition = q.options.partition.getD "default" ∧
      r.service.serviceName = q.name ∧ ∀ tag ∈ q.tag, tag ∈ r.service.serviceTags

section
variable {d : Directory} {j k : Key} {r : Registration}

theorem get?_set : (d.set k r).get? j = if j = k then some r else d.get? j := by
  by_cases h : j = k <;> simp [get?, set, h]

theorem get?_unset : (d.unset k).get? j = if j = k then none else d.get? j := by
  by_cases h : j = k <;> simp [get?, unset, h]

theorem since_set_of_ne (h : j ≠ k) : (d.set k r).since j = d.since j := by
  simp [since, set, h]

theorem since_set_of_isSome (h : (d.get? k).isSome) : (d.set k r).since j = d.since j := by
  by_cases hj : j = k
  · obtain ⟨e, he⟩ := Option.isSome_iff_exists.1 (by simpa [get?] using h)
    simp [since, set, hj, he]
  · exact since_set_of_ne hj

theorem since_set_of_not_isSome (h : ¬(d.get? k).isSome) : (d.set k r).since k = d.clock := by
  have he : d.entry k = none := by simpa [get?] using h
  simp [since, set, he]

theorem since_unset_of_ne (h : j ≠ k) : (d.unset k).since j = d.since j := by
  simp [since, unset, h]

end

end Directory

/-! ## Simulation -/

/-- A list of registrations holds what a directory holds, in the order of the directory. -/
structure Represents (rs : List Registration) (d : Directory) : Prop where
  mem_iff : ∀ r, r ∈ rs ↔ d.get? r.key = some r
  sorted : (rs.map Registration.key).Pairwise fun a b => d.since a < d.since b
  key_eq : ∀ {k r}, d.get? k = some r → r.key = k
  since_lt : ∀ {k r}, d.get? k = some r → d.since k < d.clock

namespace Represents

variable {rs : List Registration} {d : Directory} {k : Key} {r : Registration}

theorem nodup (h : Represents rs d) : (rs.map Registration.key).Nodup :=
  h.sorted.imp fun hlt e => absurd (e ▸ hlt) (Nat.lt_irrefl _)

theorem mem_keys_iff (h : Represents rs d) : k ∈ rs.map Registration.key ↔ (d.get? k).isSome := by
  rw [List.mem_map, Option.isSome_iff_exists]
  constructor
  · rintro ⟨r, hr, rfl⟩
    exact ⟨r, (h.mem_iff r).1 hr⟩
  · rintro ⟨r, hr⟩
    obtain rfl := h.key_eq hr
    exact ⟨r, (h.mem_iff r).2 hr, rfl⟩

theorem find? (h : Represents rs d) (k : Key) : (rs.find? fun r => r.key = k) = d.get? k := by
  refine Option.ext fun r => ?_
  rw [Catalog.find?_key_eq_some_iff h.nodup, h.mem_iff]
  constructor
  · rintro ⟨hr, rfl⟩
    exact hr
  · intro hr
    obtain rfl := h.key_eq hr
    exact ⟨hr, rfl⟩

theorem set (h : Represents rs d) (r : Registration) :
    Represents (Catalog.put r rs) (d.set r.key r) where
  mem_iff s := by
    rw [Catalog.mem_put h.nodup, h.mem_iff, Directory.get?_set]
    by_cases hs : s.key = r.key
    · simp [hs, eq_comm]
    · have hne : s ≠ r := fun e => hs (e ▸ rfl)
      simp [hs, hne]
  sorted := by
    rw [Catalog.keys_put]
    split
    · next hr =>
      -- the key is there: neither the keys nor their times change
      refine h.sorted.imp fun {a b} hab => ?_
      simpa only [Directory.since_set_of_isSome (h.mem_keys_iff.1 hr)] using hab
    · next hr =>
      -- the key is new: it comes last, and its time is the clock
      have hold : ∀ a ∈ rs.map Registration.key, (d.set r.key r).since a = d.since a := fun a ha =>
        Directory.since_set_of_ne fun e => hr (e ▸ ha)
      have hnone : ¬(d.get? r.key).isSome := fun hs => hr (h.mem_keys_iff.2 hs)
      refine List.pairwise_append.2 ⟨?_, List.pairwise_singleton _ _, fun a ha b hb => ?_⟩
      · refine h.sorted.imp_of_mem fun {a b} ha hb hab => ?_
        rwa [hold a ha, hold b hb]
      · obtain rfl := List.mem_singleton.1 hb
        obtain ⟨s, hs⟩ := Option.isSome_iff_exists.1 (h.mem_keys_iff.1 ha)
        rw [hold a ha, Directory.since_set_of_not_isSome hnone]
        exact h.since_lt hs
  key_eq {k s} hk := by
    rw [Directory.get?_set] at hk
    split at hk
    · next hkr => cases hk; exact hkr.symm
    · exact h.key_eq hk
  since_lt {k s} hk := by
    rw [Directory.get?_set] at hk
    split at hk
    · next hkr =>
      subst hkr
      by_cases hs : (d.get? r.key).isSome
      · obtain ⟨t, ht⟩ := Option.isSome_iff_exists.1 hs
        rw [Directory.since_set_of_isSome hs]
        exact Nat.lt_succ_of_lt (h.since_lt ht)
      · rw [Directory.since_set_of_not_isSome hs]
        exact Nat.lt_succ_self _
    · next hkr =>
      rw [Directory.since_set_of_ne hkr]
      exact Nat.lt_succ_of_lt (h.since_lt hk)

theorem unset (h : Represents rs d) (key : Key) :
    Represents (Catalog.remove key rs) (d.unset key) where
  mem_iff s := by
    rw [Catalog.mem_remove, h.mem_iff, Directory.get?_unset]
    by_cases hs : s.key = key <;> simp [hs]
  sorted := by
    rw [Catalog.keys_remove]
    refine (h.sorted.filter _).imp_of_mem fun {a b} ha hb hab => ?_
    have ha : a ≠ key := by simpa using (List.mem_filter.1 ha).2
    have hb : b ≠ key := by simpa using (List.mem_filter.1 hb).2
    rwa [Directory.since_unset_of_ne ha, Directory.since_unset_of_ne hb]
  key_eq {k s} hk := by
    rw [Directory.get?_unset] at hk
    split at hk
    · cases hk
    · exact h.key_eq hk
  since_lt {k s} hk := by
    rw [Directory.get?_unset] at hk
    split at hk
    · cases hk
    · next hkr =>
      rw [Directory.since_unset_of_ne hkr]
      exact Nat.lt_succ_of_lt (h.since_lt hk)

theorem call {c : Catalog} (h : Represents c.registrations d) (call : Call) :
    Represents (c.call call).registrations (d.call call) := by
  have hregister (s : Service) (ns partition : String) :
      Represents (c.register s ns partition).registrations (d.register s ns partition) := by
    rw [Catalog.registrations_register, Catalog.of_eq]
    exact h.set _
  cases call with
  | register s => exact hregister s _ _
  | registerIn s ns partition => exact hregister s ns partition
  | deregister datacenter node serviceId =>
    simp only [Catalog.call, Directory.call, Catalog.registrations_deregister]
    exact h.unset _

theorem empty : Represents [] {} where
  mem_iff := by simp [Directory.get?]
  sorted := .nil
  key_eq hk := nomatch hk
  since_lt hk := nomatch hk

theorem after (calls : List Call) :
    Represents (Catalog.after calls).registrations (Directory.after calls) := by
  induction calls using List.reverseRecOn with
  | nil => exact empty
  | append_singleton calls call ih =>
    simp only [Catalog.after, Directory.after, List.foldl_append, List.foldl_cons, List.foldl_nil]
    exact ih.call call

theorem answers (h : Represents rs d) (q : Lookup.Request) :
    d.Answers q (Catalog.select q rs) := by
  refine ⟨rs.filter (Catalog.matchesRequest q), rfl, ?_, fun r => ?_⟩
  · exact h.sorted.sublist (List.filter_sublist.map _)
  · rw [List.mem_filter, h.mem_iff]
    refine and_congr_right fun _ => ?_
    cases ht : q.tag <;>
      simp [Catalog.matchesRequest, ht, Service.hasTag, defaultDatacenter, defaultNamespace,
        defaultPartition, and_comm, and_assoc, and_left_comm]

end Represents

/-- **A catalog is the map that its calls describe.** It holds one registration for each key, the
last that was put there; taking away says whether the key was there, and changes nothing if it was
not; and a lookup that does not wait ends in its first turn, unless it was cancelled, with what the
map has for it. -/
theorem Catalog.after_represents (calls : List Call) :
    let c := Catalog.after calls
    let d := Directory.after calls
    (c.registrations.map Registration.key).Nodup ∧
    (∀ k, (c.registrations.find? fun r => r.key = k) = d.get? k) ∧
    (∀ datacenter node serviceId,
      let r := c.deregister datacenter node serviceId
      let k : Key := { datacenter, node, serviceId, ns := "default", partition := "default" }
      r.2 = (d.get? k).isSome ∧ (d.get? k = none → r.1 = c)) ∧
    ∀ (w : Watch) (q : Lookup.Request) (task : Option String), w.catalog = c →
      (∀ n, q.options.waitIndex = some n → n = 0 ∨ n < c.index) →
      ∃ services, d.Answers q services ∧
        w.turn { task, origin := none, request := q, began := w.now } = some (.direct <|
          if w.isCancelled q then .error .cancelled
          else .ok {
            services
            status := { lastIndex := c.index, lastContact := 0, knownLeader := true } }) := by
  intro c d
  have h : Represents c.registrations d := .after calls
  refine ⟨h.nodup, h.find?, ?_, ?_⟩
  · intro datacenter node serviceId r k
    by_cases hk : k ∈ c.registrations.map Registration.key
    · have hr : r.2 = true := congrArg Prod.snd (Catalog.deregister_of_mem hk)
      have hs := h.mem_keys_iff.1 hk
      exact ⟨hr.trans hs.symm, fun hn => by simp [hn] at hs⟩
    · have hr : r = (c, false) := Catalog.deregister_of_notMem hk
      have hs : (d.get? k).isSome = false := by simpa using mt h.mem_keys_iff.2 hk
      exact ⟨by rw [hr, hs], fun _ => by rw [hr]⟩
  · intro w q task hw hq
    refine ⟨_, h.answers q, ?_⟩
    have hm : w.catalog.mustWait q.options.waitIndex = false := by
      rw [hw]
      exact Catalog.mustWait_eq_false_iff.2 hq
    simp only [Watch.turn, Watch.answer, Watch.waits, hm]
    split <;> simp [Catalog.find, hw]

end Discovery
