import Discovery.Proofs.Catalog.Directory
import Discovery.Proofs.Catalog.Schedule

/-!
# Taking out what was put in

A record is stored under a key that has the datacenter `dc1` where the record names none, and it is
taken out by a key that is made up of the fields as they are given. So a record that names a
datacenter is taken out by its own fields, with whatever its key stood for before; and one that
names none stays registered (`deregister_register_iff`).
-/

namespace Discovery

open Registration (Key)

/-- What a call puts into the catalog. -/
def Call.puts? : Call → Option Registration
  | .register s => some (.of s defaultNamespace defaultPartition)
  | .registerIn s ns partition => some (.of s ns partition)
  | .deregister .. => none

namespace Catalog

variable {c : Catalog} {calls : List Call} {call : Call} {key : Key} {q : Lookup.Request}
  {r : Registration} {rs : List Registration} {s : Service}

/-! ## What is stored -/

theorem mem_call (h : r ∈ (c.call call).registrations) :
    call.puts? = some r ∨ r ∈ c.registrations := by
  cases call with
  | register s | registerIn s ns partition =>
    rcases mem_of_mem_put h with rfl | h
    · exact .inl rfl
    · exact .inr h
  | deregister datacenter node serviceId =>
    rw [Catalog.call, registrations_deregister] at h
    exact .inr (mem_remove.1 h).1

theorem after_concat (calls : List Call) (call : Call) :
    after (calls ++ [call]) = (after calls).call call := List.foldl_concat ..

/-- What is stored was put in by a call. -/
theorem exists_puts_of_mem_after (h : r ∈ (after calls).registrations) :
    ∃ call ∈ calls, call.puts? = some r := by
  induction calls using List.reverseRecOn with
  | nil => cases h
  | append_singleton calls call ih =>
    rw [after_concat] at h
    rcases mem_call h with hput | h
    · exact ⟨call, List.mem_append_right _ (List.mem_singleton_self call), hput⟩
    · obtain ⟨earlier, hmem, hput⟩ := ih h
      exact ⟨earlier, List.mem_append_left _ hmem, hput⟩

theorem datacenter_of_ne (s : Service) (ns partition : String) :
    (Registration.of s ns partition).service.datacenter ≠ "" := by
  rw [of_eq]
  show (if s.datacenter = "" then "dc1" else s.datacenter) ≠ ""
  split
  · decide
  · assumption

/-- No instance is stored without a datacenter. -/
theorem datacenter_ne_of_mem_after (h : r ∈ (after calls).registrations) :
    r.service.datacenter ≠ "" := by
  obtain ⟨call, -, hput⟩ := exists_puts_of_mem_after h
  cases call with
  | register s | registerIn s ns partition =>
    cases hput
    exact datacenter_of_ne _ _ _
  | deregister => cases hput

/-! ## Registering and taking out -/

/-- Whether a result of a request is the instance under a key. -/
def isInstance (key : Key) (q : Lookup.Request) (x : Service) : Bool :=
  x.datacenter == key.datacenter && x.node == key.node && x.serviceId == key.serviceId &&
    q.options.ns.getD defaultNamespace == key.ns &&
    q.options.partition.getD defaultPartition == key.partition

theorem isInstance_iff (key : Key) (h : matchesRequest q r = true) :
    isInstance key q r.service = true ↔ r.key = key := by
  simp only [matchesRequest, Bool.and_eq_true, beq_iff_eq] at h
  obtain ⟨⟨⟨-, hns⟩, hpartition⟩, -⟩ := h
  cases key
  simp only [isInstance, ← hns, ← hpartition, Registration.key, Bool.and_eq_true, beq_iff_eq,
    Key.mk.injEq, and_assoc]

/-- What a request finds when a key was taken out. -/
theorem select_remove (key : Key) (q : Lookup.Request) (rs : List Registration) :
    select q (remove key rs) = (select q rs).filter fun x => !isInstance key q x := by
  rw [select, select, remove, List.filter_map, List.filter_filter, List.filter_filter]
  congr 1
  apply List.filter_congr
  intro r _
  cases hmatch : matchesRequest q r with
  | false => simp
  | true =>
    have hkey := isInstance_iff key hmatch
    by_cases h : r.key = key <;> simp_all

/-- A record that names a datacenter is stored under the key of its fields. -/
theorem key_of_eq_defaultKey (h : s.datacenter ≠ "") :
    (Registration.of s defaultNamespace defaultPartition).key =
      defaultKey s.datacenter s.node s.serviceId := by
  rw [Registration.of, if_neg h]
  rfl

theorem deregister_call_register (c : Catalog) (h : s.datacenter ≠ "") :
    (c.call (.register s)).deregister s.datacenter s.node s.serviceId =
      ({ registrations := remove (defaultKey s.datacenter s.node s.serviceId) c.registrations
         index := c.index + 2 }, true) := by
  have hkey := key_of_eq_defaultKey h
  have hmem : defaultKey s.datacenter s.node s.serviceId ∈
      (c.call (.register s)).registrations.map Registration.key := by
    rw [← hkey]
    exact List.mem_map_of_mem (mem_put_self _ _)
  have hput : (c.call (.register s)).registrations =
      put (Registration.of s defaultNamespace defaultPartition) c.registrations :=
    registrations_register c s _ _
  rw [deregister_of_mem hmem, hput, ← hkey, remove_put]
  rfl

/-- An empty datacenter takes nothing out. -/
theorem deregister_after_empty (calls : List Call) (node serviceId : String) :
    (after calls).deregister "" node serviceId = (after calls, false) := by
  apply deregister_of_notMem
  intro hmem
  obtain ⟨r, hr, hkey⟩ := List.mem_map.1 hmem
  exact datacenter_ne_of_mem_after hr (congrArg Key.datacenter hkey)

/-- **A registration is undone by the fields of its record exactly if the record names a
datacenter.** Then the catalog is left as it was without the instance of that identity, and so are
the results of all lookups. If the record names none, nothing is taken out, and the instance is
found in the datacenter `dc1`. The index fits in 64 bits for fewer than `2 ^ 64 - 1` changes. -/
theorem deregister_register_iff (calls : List Call) (s : Service) :
    let before := after calls
    let added := before.call (.register s)
    let left := added.deregister s.datacenter s.node s.serviceId
    let key : Key := {
      datacenter := s.datacenter, node := s.node, serviceId := s.serviceId
      ns := "default", partition := "default" }
    (left.2 = true ↔ s.datacenter ≠ "") ∧
    (s.datacenter ≠ "" → left.1.index = before.index + 2 ∧
      left.1.registrations = before.registrations.filter (fun r => r.key ≠ key) ∧
      ∀ (w : Watch) (p : Pending) (o : Outcome) (found : Lookup.Found), w.catalog = left.1 →
        w.turn p = some o → o.found? = some found →
        found.services = (if p.origin.isSome then Service.sort else id)
          ((before.find p.request).services.filter fun x => !isInstance key p.request x)) ∧
    (s.datacenter = "" → left.1 = added ∧ left.1.index = before.index + 1 ∧
      { s with datacenter := "dc1" } ∈ (left.1.find { name := s.serviceName }).services) := by
  intro before added left key
  by_cases h : s.datacenter = ""
  · have hleft : left = (added, false) := by
      have hempty := deregister_after_empty (calls ++ [.register s]) s.node s.serviceId
      rw [after_concat] at hempty
      show added.deregister s.datacenter s.node s.serviceId = (added, false)
      rw [h]
      exact hempty
    have hstored : Registration.of s defaultNamespace defaultPartition ∈ added.registrations :=
      mem_put_self _ _
    rw [hleft]
    refine ⟨by simp [h], fun hne => absurd h hne, fun _ => ⟨rfl, rfl, ?_⟩⟩
    refine List.mem_map.2 ⟨_, List.mem_filter.2 ⟨hstored, ?_⟩, ?_⟩
    · simp [matchesRequest, Registration.of, h]
    · simp [Registration.of, h, defaultDatacenter]
  · have hleft := deregister_call_register before h
    refine ⟨by simp [left, added, hleft, h], fun _ => ?_, fun hempty => absurd hempty h⟩
    refine ⟨?_, ?_, ?_⟩
    · simp [left, added, hleft]
    · simp only [left, added, hleft]
      rfl
    · intro w p o found hw hturn hfound
      obtain ⟨-, hservices, -⟩ := Watch.found_of_turn hturn hfound
      rw [hservices, hw]
      simp only [left, added, hleft, select_remove]
      rfl

/-- The identity was registered before under another service name, and in another namespace. -/
theorem deregister_register_iff_renamed :
    let web : Service := {
      node := "n1", serviceId := "a", serviceName := "web", datacenter := "dc1" }
    let api : Service := { web with serviceName := "api" }
    let before := after [.register web, .registerIn web "team" "default"]
    let left := (before.call (.register api)).deregister "dc1" "n1" "a"
    left.2 = true ∧ left.1.index = 5 ∧
      left.1.registrations = [Registration.of web "team" "default"] := by
  intro web api before left
  obtain ⟨hremoved, hundone, -⟩ :=
    deregister_register_iff [.register web, .registerIn web "team" "default"] api
  obtain ⟨hindex, hregistrations, -⟩ := hundone (by decide)
  refine ⟨hremoved.2 (by decide), hindex, ?_⟩
  exact hregistrations.trans (by decide)

/-- The fields of a record that names no datacenter do not undo its registration. -/
theorem deregister_empty_keeps :
    let web : Service := { node := "n1", serviceId := "web-1", serviceName := "web" }
    let added := (after []).call (.register web)
    let left := added.deregister web.datacenter web.node web.serviceId
    left.2 = false ∧ left.1.index = (after []).index + 1 ∧
      (left.1.find { name := "web" }).services = [{ web with datacenter := "dc1" }] := by
  decide

end Catalog

end Discovery
