import Discovery.Proofs.Catalog.Directory
import Discovery.Proofs.Catalog.Wakeups
import Discovery.Proofs.Service.Fingerprint

/-!
# Results depend on what is registered and on nothing else

A request picks one datacenter, namespace and partition. Keys of registrations are distinct, so node
and identity tell apart what it finds, and the order of results leaves no choice: two catalogs with
the same registrations give one result, whatever their histories made of the order of their lists.
-/

namespace Discovery

open Service (sortKey)

/-- Registrations of the same instance in one namespace and partition. -/
structure Registration.Same (r s : Registration) : Prop where
  service : r.service.Same s.service
  ns : r.ns = s.ns
  partition : r.partition = s.partition

namespace Catalog

variable {q : Lookup.Request} {r s : Registration} {rs ss : List Registration}

/-- Two lists with the same registrations, in whatever order. -/
def SameContent (rs ss : List Registration) : Prop :=
  (∀ r ∈ rs, ∃ s ∈ ss, r.Same s) ∧ ∀ s ∈ ss, ∃ r ∈ rs, r.Same s

theorem matchesRequest_congr (h : r.Same s) : matchesRequest q r = matchesRequest q s := by
  simp only [matchesRequest, h.service.serviceName, h.service.datacenter, h.ns, h.partition]
  have htags : r.service.hasTag = s.service.hasTag := by
    funext tag
    rw [Service.hasTag, Service.hasTag, h.service.serviceTags]
  rw [htags]

/-- What a request asks for has one datacenter, namespace and partition. -/
theorem key_eq_of_sortKey_eq (hr : matchesRequest q r = true) (hs : matchesRequest q s = true)
    (h : r.service.sortKey = s.service.sortKey) : r.key = s.key := by
  simp only [matchesRequest, Bool.and_eq_true, beq_iff_eq] at hr hs
  obtain ⟨⟨⟨⟨-, hdatacenter⟩, hns⟩, hpartition⟩, -⟩ := hr
  obtain ⟨⟨⟨⟨-, hdatacenter'⟩, hns'⟩, hpartition'⟩, -⟩ := hs
  obtain ⟨hnode, hid⟩ := Prod.ext_iff.1 h
  simp only [sortKey] at hnode hid
  simp only [Registration.key, hdatacenter, hdatacenter', hns, hns', hpartition, hpartition', hnode,
    hid]

/-- Node and identity tell apart what a request finds. -/
theorem nodup_sortKey_select (h : (rs.map Registration.key).Nodup) (q : Lookup.Request) :
    ((select q rs).map sortKey).Nodup := by
  have hkeys : ((rs.filter (matchesRequest q)).map Registration.key).Nodup :=
    h.sublist (List.filter_sublist.map _)
  rw [select, List.map_map, List.Nodup, List.pairwise_map]
  refine (List.pairwise_map.1 hkeys).imp_of_mem ?_
  intro r s hr hs hne heq
  exact hne (key_eq_of_sortKey_eq (List.mem_filter.1 hr).2 (List.mem_filter.1 hs).2 heq)

/-- Sorted by node and identity, it is sorted strictly. -/
theorem strict_sort_select (h : (rs.map Registration.key).Nodup) (q : Lookup.Request) :
    (Service.sort (select q rs)).Pairwise Service.Before ∧
      ((Service.sort (select q rs)).map sortKey).Nodup := by
  have hkeys := nodup_sortKey_select h q
  exact ⟨Service.pairwise_before_sort hkeys, ((Service.sort_perm _).map sortKey).nodup_iff.2 hkeys⟩

theorem mem_map_sorted_select {x : Service} : x ∈ (select q rs).map Service.sorted ↔
    ∃ r ∈ rs, matchesRequest q r = true ∧ r.service.sorted = x := by
  simp [select, and_assoc]

theorem SameContent.mem_map_sorted_select_iff (h : SameContent rs ss) (x : Service) :
    x ∈ (select q rs).map Service.sorted ↔ x ∈ (select q ss).map Service.sorted := by
  rw [mem_map_sorted_select, mem_map_sorted_select]
  constructor
  · rintro ⟨r, hr, hmatch, rfl⟩
    obtain ⟨s, hs, hsame⟩ := h.1 r hr
    exact ⟨s, hs, matchesRequest_congr hsame ▸ hmatch, (Service.sorted_eq_iff.2 hsame.service).symm⟩
  · rintro ⟨s, hs, hmatch, rfl⟩
    obtain ⟨r, hr, hsame⟩ := h.2 s hs
    exact ⟨r, hr, matchesRequest_congr hsame ▸ hmatch, Service.sorted_eq_iff.2 hsame.service⟩

/-- What two lists of the same content have for a request is the same once it is sorted. -/
theorem SameContent.sort_select (h : SameContent rs ss) (hrs : (rs.map Registration.key).Nodup)
    (hss : (ss.map Registration.key).Nodup) (q : Lookup.Request) :
    List.Forall₂ Service.Same (Service.sort (select q rs)) (Service.sort (select q ss)) := by
  have hkeys {rs : List Registration} (hrs : (rs.map Registration.key).Nodup) :
      (((select q rs).map Service.sorted).map sortKey).Nodup := by
    rw [List.map_map]
    exact nodup_sortKey_select hrs q
  have hperm : ((select q rs).map Service.sorted).Perm ((select q ss).map Service.sorted) :=
    (List.perm_ext_iff_of_nodup (hkeys hrs).of_map (hkeys hss).of_map).2 h.mem_map_sorted_select_iff
  rw [← Service.map_sorted_eq_iff, Service.map_sort Service.sortKey_sorted,
    Service.map_sort Service.sortKey_sorted]
  exact Service.sort_eq_of_perm hperm (hkeys hrs)

/-! ## Fetches that do not wait -/

/-- A fetch of a query that was not cancelled ends right after it began, as the last of those that
end then, with these instances. Other lookups may wait for the catalog at the same time. -/
def FetchYields (c : Catalog) (query : Query) (options : Lookup.Options)
    (services : List Service) : Prop :=
  ∀ (w : Watch) (task : Option String) (stop : Token), w.catalog = c → stop ∉ w.fired →
    ∃ ended, (w.run [.fetch task query stop options]).2 = ended ++ [{
      pending := {
        task, origin := some { query, stop }, request := Lookup.requestFor query stop options
        began := w.now }
      outcome := .fetched (.ok {
        services, status := { lastIndex := c.index, lastContact := 0, knownLeader := true } }) }]

theorem fetchYields_sort_select {c : Catalog} {options : Lookup.Options} (query : Query)
    (stop : Token) (h : c.mustWait options.waitIndex = false) : c.FetchYields query options
      (Service.sort (select (Lookup.requestFor query stop options) c.registrations)) := by
  intro w task stop' hcatalog hstop
  let p : Pending := {
    task, origin := some { query, stop := stop' }
    request := Lookup.requestFor query stop' options, began := w.now }
  have hturn : w.turn p =
      some (.fetched (Lookup.conclude query (.ok (c.find p.request)))) := by
    simp [Watch.turn, Watch.answer, Watch.isCancelled, Watch.waits, p, Lookup.requestFor,
      Lookup.merge, hcatalog, hstop, h]
  have hrun : (w.run [.fetch task query stop' options]).2 =
      (w.pending ++ [p]).filterMap w.completion ++ [] := rfl
  refine ⟨w.pending.filterMap w.completion, ?_⟩
  rw [hrun, List.append_nil, List.filterMap_append, List.append_cancel_left_eq]
  simp only [List.filterMap_cons, List.filterMap_nil, Watch.completion, hturn]
  rfl

/-- **Results are determined by what is registered.** Two catalogs that came to the same
registrations on whatever ways give the same instances to every fetch that does not wait, in the
same order and with the same fingerprint; and that order is strict, by the bytes of node and
identity. Either index fits in 64 bits for fewer than `2 ^ 64 - 1` changes. -/
theorem fetchYields_of_sameContent {calls₁ calls₂ : List Call}
    (h : SameContent (after calls₁).registrations (after calls₂).registrations) (query : Query)
    (options : Lookup.Options) (hwait : ∀ n, options.waitIndex = some n →
      n = 0 ∨ n < (after calls₁).index ∧ n < (after calls₂).index) :
    ∃ services₁ services₂, (after calls₁).FetchYields query options services₁ ∧
      (after calls₂).FetchYields query options services₂ ∧
      List.Forall₂ Service.Same services₁ services₂ ∧
      Service.fingerprint services₁ = Service.fingerprint services₂ ∧
      ∀ services ∈ [services₁, services₂],
        services.Pairwise Service.Before ∧ (services.map sortKey).Nodup := by
  let q := Lookup.requestFor query default options
  have hnodup (calls : List Call) : ((after calls).registrations.map Registration.key).Nodup :=
    (Represents.after calls).nodup
  have hsame := h.sort_select (hnodup calls₁) (hnodup calls₂) q
  refine ⟨_, _, fetchYields_sort_select query default ?_, fetchYields_sort_select query default ?_,
    hsame, Service.fingerprint_congr hsame, ?_⟩
  · exact mustWait_eq_false_iff.2 fun n hn => (hwait n hn).imp_right And.left
  · exact mustWait_eq_false_iff.2 fun n hn => (hwait n hn).imp_right And.right
  · intro services hmem
    rcases List.mem_pair.1 hmem with rfl | rfl
    · exact strict_sort_select (hnodup calls₁) q
    · exact strict_sort_select (hnodup calls₂) q

/-- An instance with its labels in another order, registered last and not first, and one that has
come and gone. -/
theorem fetchYields_of_sameContent_reordered :
    let query : Query := { name := "web", datacenter := "dc1" }
    let web (node : String) (labels : Labels) : Service :=
      { node, serviceId := "web-1", serviceName := "web", serviceMeta := labels }
    let labels := Labels.ofList [("team", "core"), ("tier", "front")]
    let reordered := Labels.ofList [("tier", "front"), ("team", "core")]
    let calls₁ : List Call := [.register (web "n1" labels), .register (web "n2" {})]
    let calls₂ : List Call := [.register (web "n2" {}), .register (web "n3" {}),
      .registerIn (web "n1" reordered) "default" "default", .deregister "dc1" "n3" "web-1"]
    SameContent (after calls₁).registrations (after calls₂).registrations ∧
      ∃ services₁ services₂, (after calls₁).FetchYields query {} services₁ ∧
        (after calls₂).FetchYields query {} services₂ ∧
        Service.fingerprint services₁ = Service.fingerprint services₂ := by
  intro query web labels reordered calls₁ calls₂
  have hlabels : labels.Same reordered := Labels.same_iff_perm.2 (by decide)
  have h : SameContent (after calls₁).registrations (after calls₂).registrations := by
    have h₁ : (after calls₁).registrations = [.of (web "n1" labels) "default" "default",
      .of (web "n2" {}) "default" "default"] := by decide
    have h₂ : (after calls₂).registrations = [.of (web "n2" {}) "default" "default",
      .of (web "n1" reordered) "default" "default"] := by decide
    have hfirst : Registration.Same (.of (web "n1" labels) "default" "default")
        (.of (web "n1" reordered) "default" "default") :=
      ⟨⟨rfl, rfl, rfl, rfl, fun _ => rfl, fun _ => rfl, rfl, rfl, rfl, rfl, hlabels, rfl⟩, rfl, rfl⟩
    have hsecond : Registration.Same (.of (web "n2" {}) "default" "default")
        (.of (web "n2" {}) "default" "default") :=
      ⟨Service.sorted_eq_iff.1 rfl, rfl, rfl⟩
    rw [h₁, h₂]
    simp [SameContent, hfirst, hsecond]
  obtain ⟨services₁, services₂, hyields₁, hyields₂, -, hfingerprint, -⟩ :=
    fetchYields_of_sameContent h query {} (by simp)
  exact ⟨h, services₁, services₂, hyields₁, hyields₂, hfingerprint⟩

end Catalog

end Discovery
