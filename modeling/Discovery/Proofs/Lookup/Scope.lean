import Discovery.Http.Client
import Discovery.Proofs.Catalog.Removal
import Discovery.Tables.Excerpt

/-!
# Empty parts of a scope

Datacenter, namespace and partition of a request may be unset, and they may be empty texts, which
settings and callers pass on as they are. The client of a server sends an empty part no more than an
unset one. The catalog in memory has a default for a part that is unset only, and it takes the empty
text for a name, under which nothing is stored. So the two clients agree on a request with an empty
part exactly if there is nothing to find (`empty_scope_agrees_iff`).
-/

namespace Discovery

variable {q q' : Lookup.Request} {part part' : Option String} {calls : List Call}

namespace Lookup

/-- The same part of a scope, or an unset one in place of an empty text. -/
def Unset (part part' : Option String) : Prop := part' = part ∨ part = some "" ∧ part' = none

/-- A request that leaves unset some of the empty parts that another has in its scope. -/
structure Request.Unsets (q q' : Request) : Prop where
  rest : q' = { q with options := { q.options with
    datacenter := q'.options.datacenter
    ns := q'.options.ns
    partition := q'.options.partition } }
  datacenter : Unset q.options.datacenter q'.options.datacenter
  ns : Unset q.options.ns q'.options.ns
  partition : Unset q.options.partition q'.options.partition

theorem Unset.filter_eq (h : Unset part part') : part'.filter (· ≠ "") = part.filter (· ≠ "") := by
  rcases h with rfl | ⟨rfl, rfl⟩
  · rfl
  · decide

/-- What is unset in a request was empty. -/
theorem Request.Unsets.exists_empty (h : q.Unsets q') (hne : q' ≠ q) :
    some "" ∈ [q.options.datacenter, q.options.ns, q.options.partition] := by
  simp only [List.mem_cons, List.not_mem_nil, or_false]
  rcases h.datacenter with hdatacenter | ⟨hempty, -⟩
  · rcases h.ns with hns | ⟨hempty, -⟩
    · rcases h.partition with hpartition | ⟨hempty, -⟩
      · refine absurd ?_ hne
        rw [h.rest, hdatacenter, hns, hpartition]
      · exact .inr (.inr hempty.symm)
    · exact .inr (.inl hempty.symm)
  · exact .inl hempty.symm

end Lookup

/-! ## The client of a server -/

namespace Http.Client

theorem parameters_of_unsets (h : q.Unsets q') : parameters q' = parameters q := by
  have hdatacenter := h.datacenter.filter_eq
  have hns := h.ns.filter_eq
  have hpartition := h.partition.filter_eq
  unfold parameters
  dsimp only
  rw [hdatacenter, hns, hpartition, h.rest]

theorem serviceUrl_of_unsets (c : Client) (h : q.Unsets q') : c.serviceUrl q' = c.serviceUrl q := by
  have hname : q'.name = q.name := by rw [h.rest]
  rw [serviceUrl, serviceUrl, parameters_of_unsets h, hname]

theorem lookup_of_unsets [Tables] (c : Client) (h : q.Unsets q') (fired : Bool)
    (replies : List Reply) :
    c.lookup fired q' replies = c.lookup fired q replies := by
  rw [lookup, lookup, serviceUrl_of_unsets c h]

end Http.Client

/-! ## The catalog in memory -/

/-- A call for the default namespace and partition. -/
def Call.IsDefault : Call → Prop
  | .register _ | .deregister .. => True
  | .registerIn .. => False

namespace Catalog

theorem scope_of_mem_after (hcalls : ∀ call ∈ calls, call.IsDefault) {r : Registration}
    (h : r ∈ (after calls).registrations) :
    r.service.datacenter ≠ "" ∧ r.ns = defaultNamespace ∧ r.partition = defaultPartition := by
  refine ⟨datacenter_ne_of_mem_after h, ?_⟩
  obtain ⟨call, hcall, hput⟩ := exists_puts_of_mem_after h
  cases call with
  | register s =>
    cases hput
    exact ⟨rfl, rfl⟩
  | registerIn s ns partition => exact (hcalls _ hcall).elim
  | deregister => cases hput

/-- Nothing is stored under an empty part of a scope. -/
theorem select_eq_nil_of_empty (hcalls : ∀ call ∈ calls, call.IsDefault)
    (h : some "" ∈ [q.options.datacenter, q.options.ns, q.options.partition]) :
    select q (after calls).registrations = [] := by
  rw [select, List.map_eq_nil_iff, List.filter_eq_nil_iff]
  intro r hr hmatch
  obtain ⟨hdatacenter, hns, hpartition⟩ := scope_of_mem_after hcalls hr
  simp only [matchesRequest, Bool.and_eq_true, beq_iff_eq] at hmatch
  obtain ⟨⟨⟨⟨-, hd⟩, hn⟩, hp⟩, -⟩ := hmatch
  simp only [List.mem_cons, List.not_mem_nil, or_false] at h
  rcases h with h | h | h
  · rw [← h] at hd
    exact hdatacenter hd
  · rw [← h, hns] at hn
    exact absurd hn (by decide)
  · rw [← h, hpartition] at hp
    exact absurd hp (by decide)

end Catalog

/-- An outcome with other services in its result. -/
def Outcome.withServices (services : List Service) : Outcome → Outcome
  | .direct (.ok found) => .direct (.ok { found with services })
  | .fetched (.ok found) => .fetched (.ok { found with services })
  | o => o

theorem Outcome.withServices_nil_eq_iff {o : Outcome} :
    o.withServices [] = o ↔ ∀ found, o.found? = some found → found.services = [] := by
  rcases o with (e | found) | (e | found)
  · simp [withServices, found?]
  · cases found
    simp [withServices, found?, eq_comm]
  · simp [withServices, found?]
  · cases found
    simp [withServices, found?, eq_comm]

namespace Watch

variable {w : Watch} {p : Pending}

theorem waits_of_unsets (h : p.request.Unsets q') :
    w.waits { p with request := q' } = w.waits p := by
  have hindex : q'.options.waitIndex = p.request.options.waitIndex := by rw [h.rest]
  have htime : q'.options.waitTime = p.request.options.waitTime := by rw [h.rest]
  have hdeadline : Pending.deadline { p with request := q' } = p.deadline := by
    simp only [Pending.deadline, Pending.wait, htime]
  simp only [waits, hdeadline, hindex]

/-- An empty part of a scope has no part in when a lookup ends and in whether it is successful. -/
theorem turn_of_unsets (h : p.request.Unsets q') (horigin : p.origin = none) :
    w.turn p = (w.turn { p with request := q' }).map
      (Outcome.withServices (Catalog.select p.request w.catalog.registrations)) := by
  have hcancel : q'.options.cancel = p.request.options.cancel := by rw [h.rest]
  have hcancelled : w.isCancelled q' = w.isCancelled p.request := by
    rw [isCancelled, isCancelled, hcancel]
  have hwaits := waits_of_unsets (w := w) h
  obtain ⟨task, origin, request, began, seen, woken⟩ := p
  cases horigin
  simp only [turn, answer, hcancelled, hwaits]
  split
  · rfl
  · split <;> rfl

end Watch

/-- **The two clients agree on an empty part of a scope exactly if there is nothing to find.** The
client of a server makes the same request as if the part were unset. In a catalog in memory that was
filled by registering and deregistering, the lookup ends in the same turn and with the same status,
but it finds nothing. -/
theorem empty_scope_agrees_iff [Tables] (h : q.Unsets q')
    (hcalls : ∀ call ∈ calls, call.IsDefault) :
    (∀ c : Http.Client, c.serviceUrl q' = c.serviceUrl q ∧
      ∀ fired replies, c.lookup fired q' replies = c.lookup fired q replies) ∧
    ∀ (w : Watch) (p : Pending), w.catalog = Catalog.after calls → p.origin = none →
      p.request = q →
      (q' ≠ q → w.turn p = (w.turn { p with request := q' }).map (Outcome.withServices [])) ∧
      (w.turn p = w.turn { p with request := q' } ↔ q' = q ∨
        ∀ o, w.turn { p with request := q' } = some o →
          ∀ found, o.found? = some found → found.services = []) := by
  refine ⟨fun c => ⟨c.serviceUrl_of_unsets h, c.lookup_of_unsets h⟩, ?_⟩
  rintro w p hcatalog horigin rfl
  have hturn : q' ≠ p.request →
      w.turn p = (w.turn { p with request := q' }).map (Outcome.withServices []) := by
    intro hne
    have hnone := Catalog.select_eq_nil_of_empty hcalls (h.exists_empty hne)
    rw [← hnone, ← hcatalog]
    exact Watch.turn_of_unsets h horigin
  refine ⟨hturn, ?_⟩
  by_cases hne : q' = p.request
  · rw [hne]
    simp
  · rw [hturn hne]
    cases w.turn { p with request := q' } with
    | none => simp
    | some o => simpa [hne] using Outcome.withServices_nil_eq_iff

/-- An empty datacenter from the settings, and an instance in the default one. -/
theorem empty_scope_agrees_iff_stored :
    let web : Service := { node := "n1", serviceId := "web-1", serviceName := "web" }
    let settings : Settings := { server := { datacenter := some "" } }
    let q : Lookup.Request := { name := "web", options := settings.lookupOptions }
    let q' : Lookup.Request := { q with options.datacenter := none }
    let w : Watch := { catalog := Catalog.after [.register web] }
    let p : Pending := { task := none, origin := none, request := q, began := 0 }
    q.Unsets q' ∧ (∀ c : Http.Client, c.serviceUrl q' = c.serviceUrl q) ∧
      w.turn p ≠ w.turn { p with request := q' } := by
  intro web settings q q' w p
  have h : q.Unsets q' := ⟨rfl, .inr ⟨rfl, rfl⟩, .inl rfl, .inl rfl⟩
  have hcalls : ∀ call ∈ [Call.register web], call.IsDefault :=
    List.forall_mem_singleton.2 trivial
  obtain ⟨hclient, hcatalog⟩ := empty_scope_agrees_iff h hcalls
  refine ⟨h, fun c => (hclient c).1, fun hagree => ?_⟩
  obtain ⟨-, hiff⟩ := hcatalog w p rfl rfl rfl
  rcases hiff.1 hagree with heq | hnothing
  · exact absurd heq (by decide)
  · exact absurd (hnothing _ rfl _ rfl) (by decide)

/-- A lookup with an empty datacenter does not find what the same lookup without one finds. -/
theorem lookup_empty_datacenter_finds_none :
    let web : Service := { node := "n1", serviceId := "web-1", serviceName := "web" }
    let w : Watch := { catalog := Catalog.after [.register web] }
    let services (datacenter : Option String) : Option (List Service) :=
      ((w.turn { task := none, origin := none, began := 0
                 request := { name := "web", options := { datacenter } } }).bind
        Outcome.found?).map Lookup.Found.services
    services (some "") = some [] ∧ services none = some [{ web with datacenter := "dc1" }] := by
  decide

end Discovery
