import Discovery.Catalog.Interleaving
import Discovery.Proofs.Catalog.Wakeups

/-!
# No update is lost between writers and lookups

A lookup copies the list before it reads the index, and the list stands still in between. A writer
raises the index after it has changed the list. So whatever index a lookup reads, the changes that
had raised it up to there are in its copy, and a change that is not in the copy raises the index
past what was read. This is the invariant `Interleaving.Inv`, which every step keeps.

Raising the index wakes the lookups that wait for the catalog. So none is left waiting for an index
that was passed, whatever steps came in between (`Interleaving.Scene.Settled`).
-/

namespace Discovery.Interleaving

/-- The changes of the list that a step makes. -/
def Move.changes : Move → List Change
  | .change c => [c]
  | _ => []

/-- The list after some changes, unless one of them is no change. -/
def replay (cs : List Change) : Option (List Registration) := cs.foldlM Change.on []

/-- What holds after every step. The changes of the list so far are `cs`. -/
structure Inv (cs : List Change) (s : State) : Prop where
  length : cs.length = s.changes
  registrations : replay cs = some s.catalog.registrations
  /-- Each change raises the index once, or has yet to do so. -/
  numbered : (s.raised.map Prod.fst ++ s.owed).Perm (List.range s.changes)
  index : s.catalog.index = s.raised.length + 1
  raised : ∀ j i, (j, i) ∈ s.raised → i ≤ s.catalog.index
  /-- While a lookup is between its steps, the list is what it has copied. -/
  snapshots : ∀ n ∈ s.snapshots, n.changes = s.changes ∧ n.registrations = s.catalog.registrations
  answers : ∀ a ∈ s.answers, 1 ≤ a.lastIndex ∧ a.lastIndex ≤ s.catalog.index ∧
    a.snapshot.changes ≤ s.changes ∧
    replay (cs.take a.snapshot.changes) = some a.snapshot.registrations
  /-- A change that raised the index to what a lookup has read, or less, is in its copy. -/
  reflected : ∀ a ∈ s.answers, ∀ j i, (j, i) ∈ s.raised → i ≤ a.lastIndex → j < a.snapshot.changes

variable {cs : List Change} {s s' : State}

theorem replay_append_singleton {c : Change} {rs : List Registration} (h : replay cs = some rs) :
    replay (cs ++ [c]) = c.on rs := by
  simp only [replay] at h ⊢
  simp [List.foldlM_append, h]

theorem Inv.empty : Inv [] {} where
  length := rfl
  registrations := rfl
  numbered := .refl _
  index := rfl
  raised := by simp
  snapshots := by simp
  answers := by simp
  reflected := by simp

/-! ## One step -/

theorem Inv.change (h : Inv cs s) {c : Change} (hm : s.move (.change c) = some s') :
    Inv (cs ++ [c]) s' := by
  simp only [State.move] at hm
  split at hm
  · next hs =>
    obtain ⟨rs, hrs, rfl⟩ := Option.map_eq_some_iff.1 hm
    exact {
      length := by simp [h.length]
      registrations := (replay_append_singleton h.registrations).trans hrs
      numbered := by
        rw [List.range_succ]
        exact List.perm_middle.trans ((h.numbered.cons _).trans (List.perm_append_singleton ..).symm)
      index := h.index
      raised := h.raised
      snapshots := fun n hn => by simp [hs] at hn
      answers := fun a ha => by
        obtain ⟨h1, h2, h3, h4⟩ := h.answers a ha
        refine ⟨h1, h2, Nat.le_succ_of_le h3, ?_⟩
        rwa [List.take_append_of_le_length (h.length ▸ h3)]
      reflected := h.reflected }
  · cases hm

theorem Inv.raise (h : Inv cs s) {change : Nat} (hm : s.move (.raise change) = some s') :
    Inv cs s' := by
  simp only [State.move] at hm
  split at hm
  · next ho =>
    cases hm
    exact {
      length := h.length
      registrations := h.registrations
      numbered := by
        have hperm := (List.perm_cons_erase ho).symm.append_left (s.raised.map Prod.fst)
        exact (List.perm_middle.symm.trans hperm).trans h.numbered
      index := congrArg (· + 1) h.index
      raised := fun j i hr => by
        rcases List.mem_cons.1 hr with hr | hr
        · cases hr
          exact Nat.le_refl _
        · exact Nat.le_succ_of_le (h.raised j i hr)
      snapshots := h.snapshots
      answers := fun a ha => by
        obtain ⟨h1, h2, h3⟩ := h.answers a ha
        exact ⟨h1, Nat.le_succ_of_le h2, h3⟩
      reflected := fun a ha j i hr hi => by
        rcases List.mem_cons.1 hr with hr | hr
        · -- the new index is past all that was read before
          cases hr
          exact absurd (Nat.le_trans hi (h.answers a ha).2.1) (Nat.not_succ_le_self _)
        · exact h.reflected a ha j i hr hi }
  · cases hm

theorem Inv.copy (h : Inv cs s) {request : Lookup.Request}
    (hm : s.move (.copy request) = some s') : Inv cs s' := by
  cases hm
  exact { h with
    snapshots := fun n hn => by
      rcases List.mem_cons.1 hn with rfl | hn
      · exact ⟨rfl, rfl⟩
      · exact h.snapshots n hn }

theorem Inv.read (h : Inv cs s) {snapshot : Snapshot} (hm : s.move (.read snapshot) = some s') :
    Inv cs s' := by
  simp only [State.move] at hm
  split at hm
  · next hs =>
    cases hm
    obtain ⟨hc, hr⟩ := h.snapshots snapshot hs
    exact { h with
      snapshots := fun n hn => h.snapshots n (List.mem_of_mem_erase hn)
      answers := fun a ha => by
        rcases List.mem_cons.1 ha with rfl | ha
        · refine ⟨?_, Nat.le_refl _, Nat.le_of_eq hc, ?_⟩
          · exact h.index ▸ Nat.le_add_left ..
          · simp only [hc, hr, ← h.length, List.take_length]
            exact h.registrations
        · exact h.answers a ha
      reflected := fun a ha j i hr hi => by
        rcases List.mem_cons.1 ha with rfl | ha
        · -- all changes that were made so far are in the copy
          have hj : j ∈ List.range s.changes :=
            h.numbered.subset (List.mem_append_left _ (List.mem_map.2 ⟨_, hr, rfl⟩))
          exact hc ▸ List.mem_range.1 hj
        · exact h.reflected a ha j i hr hi }
  · cases hm

theorem Inv.move (h : Inv cs s) {m : Move} (hm : s.move m = some s') :
    Inv (cs ++ m.changes) s' := by
  cases m with
  | change c => exact h.change hm
  | raise change => simpa [Move.changes] using h.raise hm
  | copy request => simpa [Move.changes] using h.copy hm
  | read snapshot => simpa [Move.changes] using h.read hm

/-! ## Runs -/

theorem Inv.run {ms : List Move} (h : Inv cs s) (hr : s.run ms = some s') :
    Inv (cs ++ ms.flatMap Move.changes) s' := by
  induction ms generalizing cs s with
  | nil =>
    cases hr
    simpa using h
  | cons m ms ih =>
    obtain ⟨mid, hm, hr⟩ := Option.bind_eq_some_iff.1 hr
    simpa using ih (h.move hm) hr

theorem Inv.index_le (h : Inv cs s) : s.catalog.index ≤ s.changes + 1 := by
  have hlen := h.numbered.length_eq
  rw [List.length_append, List.length_map, List.length_range] at hlen
  have := h.index
  omega

/-! ## Steps with nothing in between

A change and a lookup whose two steps follow one another are those of the catalog. -/

theorem run_register {service : Service} {ns partition : String} (hs : s.snapshots = []) :
    (s.run [.change (.register service ns partition), .raise s.changes]).map State.catalog =
      some (s.catalog.register service ns partition) := by
  simp [State.run, State.move, hs, Change.on, Catalog.register, Catalog.bump]

theorem run_deregister {datacenter node serviceId : String} (hs : s.snapshots = []) :
    let r := s.catalog.deregister datacenter node serviceId
    (s.run [.change (.deregister datacenter node serviceId), .raise s.changes]).map State.catalog =
      if r.2 then some r.1 else none := by
  intro r
  by_cases hk : Catalog.defaultKey datacenter node serviceId ∈
      s.catalog.registrations.map Registration.key
  · have hr : r = _ := Catalog.deregister_of_mem hk
    have hlen := mt Catalog.length_remove_eq_iff.1 (not_not_intro hk)
    simp [State.run, State.move, hs, Change.on, hlen, hr, Catalog.bump]
  · have hr : r = _ := Catalog.deregister_of_notMem hk
    have hlen := Catalog.length_remove_eq_iff.2 hk
    simp [State.run, State.move, hs, Change.on, hlen, hr]

theorem run_lookup (s : State) (request : Lookup.Request) :
    let snapshot : Snapshot :=
      { request, registrations := s.catalog.registrations, changes := s.changes }
    (s.run [.copy request, .read snapshot]).map (fun s => s.answers.map Answer.found) =
      some (s.catalog.find request :: s.answers.map Answer.found) := by
  intro snapshot
  simp only [State.run, State.move, Option.bind_some, snapshot, List.mem_cons_self, ↓reduceIte]
  rfl

/-! ## Lookups that wait meanwhile -/

/-- Writers and lookups between their steps, and the lookups that wait for the same catalog. -/
structure Scene where
  state : State := {}
  watch : Watch := {}

inductive Act where
  /-- A step of a writer or of the end of a lookup. -/
  | move (m : Move)
  /-- A step that leaves the catalog as it is, such as the beginning of a lookup. -/
  | step (s : Watch.Step)

/-- What a step that leads to a state moves for the lookups that wait. Changes of the list they do
not notice. -/
def Scene.perform (x : Scene) (s : State) : Move → Watch
  | .raise _ => x.watch.raise
  | _ => { x.watch with catalog := s.catalog }

/-- Takes a step, if it can be taken. After it, all lookups that were woken have their turns. -/
def Scene.act (x : Scene) : Act → Option Scene
  | .move m => (x.state.move m).map fun state => { state, watch := (x.perform state m).settle.1 }
  | .step s =>
    let watch := x.watch.perform s
    if watch.catalog = x.watch.catalog then some { x with watch := watch.settle.1 } else none

def Scene.run (x : Scene) : List Act → Option Scene
  | [] => some x
  | a :: as => (x.act a).bind fun x => x.run as

/-- What holds of a scene after every step: there is one catalog, and no lookup is passed over. -/
structure Scene.Settled (x : Scene) : Prop where
  catalog : x.watch.catalog = x.state.catalog
  resting : x.watch.Resting

variable {x x' : Scene} {w : Watch} {p : Pending} {k : Nat}

/-- Only the step that raises the index moves it. -/
theorem index_move {m : Move} (hm : s.move m = some s') :
    (∃ change, m = .raise change ∧ s'.catalog = s.catalog.bump) ∨
      (∀ change, m ≠ .raise change) ∧ s'.catalog.index = s.catalog.index := by
  cases m with
  | change c =>
    simp only [State.move] at hm
    split at hm
    · obtain ⟨rs, -, rfl⟩ := Option.map_eq_some_iff.1 hm
      exact .inr ⟨nofun, rfl⟩
    · cases hm
  | raise change =>
    simp only [State.move] at hm
    split at hm
    · cases hm
      exact .inl ⟨change, rfl, rfl⟩
    · cases hm
  | copy request =>
    cases hm
    exact .inr ⟨nofun, rfl⟩
  | read snapshot =>
    simp only [State.move] at hm
    split at hm
    · cases hm
      exact .inr ⟨nofun, rfl⟩
    · cases hm

theorem Scene.perform_of_ne_raise {m : Move} (hm : ∀ change, m ≠ .raise change) (s : State) :
    x.perform s m = { x.watch with catalog := s.catalog } := by
  cases m with
  | raise change => exact absurd rfl (hm change)
  | _ => rfl

theorem Scene.Settled.act {a : Act} (h : x.Settled) (ha : x.act a = some x') : x'.Settled := by
  cases a with
  | move m =>
    obtain ⟨s', hm, rfl⟩ := Option.map_eq_some_iff.1 ha
    obtain ⟨change, rfl, hcatalog⟩ | ⟨hraise, hindex⟩ := index_move hm
    · exact {
        catalog := (congrArg Catalog.bump h.catalog).trans hcatalog.symm
        resting := h.resting.alert.raise.settle }
    · have hperform := x.perform_of_ne_raise hraise s'
      exact {
        catalog := congrArg Watch.catalog hperform
        resting := by
          simp only [hperform]
          exact (h.resting.alert.withCatalog (hindex.trans (h.catalog ▸ rfl))).settle }
  | step s =>
    simp only [Scene.act] at ha
    split at ha
    · next hcatalog =>
      cases ha
      exact {
        catalog := hcatalog.trans h.catalog
        resting := (h.resting.alert.perform s).settle }
    · cases ha

theorem Scene.Settled.run {as : List Act} (h : x.Settled) (hr : x.run as = some x') :
    x'.Settled := by
  induction as generalizing x with
  | nil =>
    cases hr
    exact h
  | cons a as ih =>
    obtain ⟨mid, ha, hr⟩ := Option.bind_eq_some_iff.1 hr
    exact ih (h.act ha) hr

/-- Nobody is left waiting for an index that the catalog has passed. -/
theorem Scene.Settled.waitIndex_ne (h : x.Settled) (hk : k < x.state.catalog.index)
    (hp : p ∈ x.watch.pending) : p.request.options.waitIndex ≠ some k := by
  obtain ⟨n, hn, -, hle⟩ := (h.resting p hp).2.waitIndex
  rw [hn, h.catalog] at *
  rintro ⟨⟩
  omega

/-! ## What a lookup has found -/

/-- A lookup that waits for an index which the catalog has passed does not wait any longer. -/
theorem turn_isSome_of_lt (hk : k < w.catalog.index)
    (hp : p.request.options.waitIndex = some k) (hs : p.seen ≠ some w.catalog.index) :
    (w.turn p).isSome := by
  have hseen : (p.seen == some w.catalog.index) = false := beq_eq_false_iff_ne.2 hs
  have hmust : w.catalog.mustWait p.request.options.waitIndex = false :=
    Catalog.mustWait_eq_false_iff.2 fun n hn => by
      cases hp.symm.trans hn
      exact .inr hk
  have hanswer : (w.answer p).isSome := by
    unfold Watch.answer Watch.waits
    split <;> simp [hseen, hmust]
  unfold Watch.turn
  split
  · simpa using hanswer
  · split
    · rfl
    · simpa using hanswer

/-- When the index is raised past the one that a lookup waits for, it is woken and ends. -/
theorem exists_mem_settle_raise (hk : k ≤ w.catalog.index) (hp : p ∈ w.pending)
    (hwait : p.request.options.waitIndex = some k)
    (hs : ∀ i, p.seen = some i → i ≤ w.catalog.index) :
    ∃ outcome, { pending := p.wake, outcome } ∈ w.raise.settle.2 := by
  have hseen : p.wake.seen ≠ some w.raise.catalog.index := fun e =>
    absurd (hs _ e) (Nat.not_succ_le_self _)
  have hends : (w.raise.turn p.wake).isSome :=
    turn_isSome_of_lt (Nat.lt_succ_of_le hk) hwait hseen
  obtain ⟨outcome, houtcome⟩ := Option.isSome_iff_exists.1 hends
  have hpending : p.wake ∈ w.raise.pending := List.mem_map.2 ⟨p, hp, rfl⟩
  have hwoken : p.wake.woken = true := rfl
  refine ⟨outcome, List.mem_filterMap.2 ⟨p.wake, hpending, ?_⟩⟩
  rw [Watch.completion, if_pos hwoken, houtcome, Option.map_some]

/-- **No update is lost.** After any steps of any writers and lookups, what a lookup has found was
selected from the list as it was after the first `n` changes. The index `k` that it was given is
positive and at most one more than the number of changes, so that fewer than `2 ^ 64 - 1` of them do
not overflow 64 bits. Every change that had raised the index to `k` or less is among these `n`.
Every other change has yet to raise the index, or has raised it past `k`; and then no lookup that
waits for the index `k` waits any longer: one that has a turn ends, and where lookups begin and are
woken between the steps, none is left. What such a lookup has seen so far is not past `k` either
(`Pending.Alert.waits`). The next time that the index is raised, by whichever change, wakes and ends
all lookups that wait for `k` by then. -/
theorem reflects_of_le_lastIndex (ms : List Move) (s : State) (h : State.run {} ms = some s)
    (a : Answer) (ha : a ∈ s.answers) :
    let k := a.found.status.lastIndex
    let n := a.snapshot.changes
    1 ≤ k ∧ k ≤ s.changes + 1 ∧
    (∃ rs, replay ((ms.flatMap Move.changes).take n) = some rs ∧
      a.found.services = Catalog.select a.snapshot.request rs) ∧
    (∀ j i, (j, i) ∈ s.raised → i ≤ k → j < n) ∧
    (∀ j, n ≤ j → j < s.changes → j ∈ s.owed ∨ ∃ i, (j, i) ∈ s.raised ∧ k < i ∧
      (∀ (w : Watch) (p : Pending), w.catalog = s.catalog →
        p.request.options.waitIndex = some k → (∀ i, p.seen = some i → i ≤ k) →
        (w.turn p).isSome) ∧
      ∀ as x, Scene.run {} as = some x → x.state = s → ∀ p ∈ x.watch.pending,
        p.request.options.waitIndex ≠ some k) ∧
    ∀ (w : Watch), w.catalog = s.catalog → ∀ p ∈ w.pending,
      p.request.options.waitIndex = some k → (∀ i, p.seen = some i → i ≤ w.catalog.index) →
      ∃ outcome, { pending := p.wake, outcome } ∈ w.raise.settle.2 := by
  intro k n
  have hinv : Inv (ms.flatMap Move.changes) s := by simpa using Inv.empty.run h
  obtain ⟨h1, h2, h3, h4⟩ := hinv.answers a ha
  refine ⟨h1, Nat.le_trans h2 hinv.index_le, ⟨_, h4, rfl⟩, hinv.reflected a ha, fun j hn hj => ?_,
    fun w hw p hp hwait hs => exists_mem_settle_raise (hw ▸ h2) hp hwait hs⟩
  have hmem := hinv.numbered.mem_iff.2 (List.mem_range.2 hj)
  rcases List.mem_append.1 hmem with hmem | hmem
  · obtain ⟨⟨_, i⟩, hr, rfl⟩ := List.mem_map.1 hmem
    have hki : k < i := Nat.lt_of_not_le fun hi =>
      absurd (hinv.reflected a ha _ i hr hi) (Nat.not_lt_of_le hn)
    have hpast : k < s.catalog.index := Nat.lt_of_lt_of_le hki (hinv.raised _ i hr)
    refine .inr ⟨i, hr, hki, fun w p hw hp hs => ?_, fun as x hx hstate p hp => ?_⟩
    · refine turn_isSome_of_lt (hw ▸ hpast) hp fun e => ?_
      exact absurd (hs _ e) (Nat.not_le_of_lt (hw ▸ hpast))
    · have hsettled : x.Settled := Scene.Settled.run ⟨rfl, .empty⟩ hx
      exact hsettled.waitIndex_ne (hstate ▸ hpast) hp
  · exact .inl hmem

/-- The index is raised for a first change while a lookup is between its steps, and for a second
one, made before the first had raised it, only after the lookup has ended. -/
theorem reflects_of_raised_between_copy_and_read :
    let web : Service := { node := "n1", serviceId := "web-1", serviceName := "web" }
    let first : Change := .register web "default" "default"
    let second : Change := .deregister "dc1" "n1" "web-1"
    let snapshot : Snapshot :=
      { request := { name := "web" }, registrations := [], changes := 2 }
    ∃ s a, State.run {} [.change first, .change second, .copy { name := "web" }, .raise 1,
        .read snapshot, .raise 0, .change first] = some s ∧ a ∈ s.answers ∧
      a.found.status.lastIndex = 2 ∧ (∀ j i, (j, i) ∈ s.raised → i ≤ 2 → j < 2) ∧
      (2 ∈ s.owed ∨ ∃ i, (2, i) ∈ s.raised ∧ 2 < i) := by
  intro web first second snapshot
  have hrun : ∃ s, State.run {} [.change first, .change second, .copy { name := "web" }, .raise 1,
      .read snapshot, .raise 0, .change first] = some s ∧
      { snapshot, lastIndex := 2 } ∈ s.answers ∧ 2 < s.changes :=
    ⟨_, rfl, by decide +kernel, by decide +kernel⟩
  obtain ⟨s, hs, ha, hlt⟩ := hrun
  obtain ⟨-, -, -, hreflected, hmissed, -⟩ := reflects_of_le_lastIndex _ s hs _ ha
  refine ⟨s, _, hs, ha, rfl, hreflected, ?_⟩
  rcases hmissed 2 (Nat.le_refl _) hlt with h | ⟨i, hr, hi, -⟩
  · exact .inl h
  · exact .inr ⟨i, hr, hi⟩

/-- A lookup is left waiting by the change of the list, and ends when the index is raised. -/
example :
    let web : Service := { node := "n1", serviceId := "web-1", serviceName := "web" }
    let wait : Lookup.Request := { name := "web", options := { waitIndex := some 1 } }
    let changed : List Act :=
      [.step (.lookup none wait), .move (.change (.register web "default" "default"))]
    let left (acts : List Act) : Option Nat :=
      (Scene.run {} acts).map fun x => x.watch.pending.length
    left changed = some 1 ∧ left (changed ++ [.move (.raise 0)]) = some 0 := by
  decide

end Discovery.Interleaving
