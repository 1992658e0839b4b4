import Mathlib.Data.List.Perm.Basic
import Discovery.Catalog.Watch
import Discovery.Proofs.Catalog.Keys

/-!
# No wake-up is lost

A lookup that is not woken does nothing, so it must have nothing to do: it has seen the index as it
is, its token has not fired, and its time has not run out. With what it had seen when it began to
wait, this is the invariant `Pending.Alert`. Every step keeps it, because a step that moves the
index, a token or the clock wakes the lookups that watch what was moved; and after the turns that
follow a step nothing is left to be woken (`Pending.Resting`).
-/

namespace Discovery

/-- The token that ends a lookup when it fires. A fetch has that of its query. -/
def Pending.token? (p : Pending) : Option Token :=
  match p.origin with
  | none => p.request.options.cancel
  | some o => some o.stop

/-- A lookup as it was when it began. -/
def Pending.fresh (p : Pending) : Pending := { p with seen := none, woken := true }

/-- Whether a lookup ended because it was cancelled. -/
def Outcome.isCancelled : Outcome → Bool
  | .direct (.error .cancelled) | .fetched (.error (.cancelled _)) => true
  | _ => false

namespace Watch

/-- A step from outside. -/
inductive Step where
  | register (service : Service) (ns partition : String)
  | deregister (datacenter node serviceId : String)
  | fire (token : Token)
  | cancel (query : Query) (stop : Token)
  | advance (ticks : Nat)
  | lookup (task : Option String) (request : Lookup.Request)
  | fetch (task : Option String) (query : Query) (stop : Token) (options : Lookup.Options)

/-- What a step moves, before any lookup has its turn. -/
def perform (w : Watch) : Step → Watch
  | .register service ns partition => (w.register service ns partition).1
  | .deregister datacenter node serviceId => (w.deregister datacenter node serviceId).1
  | .fire token => w.fire token
  | .cancel query stop => (w.cancel query stop).1
  | .advance ticks => w.advanceTo (w.now + ticks)
  | .lookup task request => w.lookup task request
  | .fetch task query stop options => (w.fetch task query stop options).1

/-- Takes steps one after another. After each, all lookups that were woken have their turns. -/
def run (w : Watch) : List Step → Watch × List Completion
  | [] => (w, [])
  | s :: ss =>
    let (w, ended) := (w.perform s).settle
    let (w, more) := w.run ss
    (w, ended ++ more)

/-- The token that a step fires. -/
def Step.fires : Step → Option Token
  | .fire token => some token
  | .cancel _ stop => some stop
  | _ => none

/-- The lookup that a step begins at a tick. -/
def Step.begins (now : Nat) : Step → Option Pending
  | .lookup task request => some { task, origin := none, request, began := now }
  | .fetch task query stop options => some {
    task, origin := some { query, stop }, request := Lookup.requestFor query stop options
    began := now }
  | _ => none

/-- The lookups that some steps begin. -/
def begun (w : Watch) : List Step → List Pending
  | [] => []
  | s :: ss => (s.begins w.now).toList ++ (w.perform s).settle.1.begun ss

end Watch

/-- A tick before the deadline comes before the time that is waited for. -/
theorem Duration.lt_of_lt_deadline {d : Duration} {now tick : Nat} (h : tick < d.deadline now) :
    tick * 1000000 < now * 1000000 + d.toNanos := by
  unfold deadline at h
  split at h
  · next hs =>
    simp only [clockBound, farFuture, toNanos, nanosPerSecond] at *
    omega
  · have := Nat.lt_of_lt_of_le h (Nat.min_le_right ..)
    omega

/-! ## What a lookup waits for -/

/-- What holds of a lookup at any time. -/
structure Pending.Alert (w : Watch) (p : Pending) : Prop where
  /-- It has only waited on with an index that was not past the one it waits for. -/
  waits : ∀ i, p.seen = some i →
    i ≤ w.catalog.index ∧ ∃ n, p.request.options.waitIndex = some n ∧ 1 ≤ n ∧ i ≤ n
  /-- A fetch gives the catalog the token of its query. -/
  origin : ∀ o, p.origin = some o → p.request.options.cancel = some o.stop
  /-- If it is not woken, it has nothing to do. -/
  quiet : p.woken = false → p.seen = some w.catalog.index ∧
    (∀ t, p.token? = some t → t ∉ w.fired) ∧ w.now < p.deadline

/-- What holds of a lookup that has not ended when all turns are over. -/
structure Pending.Resting (w : Watch) (p : Pending) : Prop where
  woken : p.woken = false
  waitIndex : ∃ n, p.request.options.waitIndex = some n ∧ 1 ≤ n ∧ w.catalog.index ≤ n
  token : ∀ t, p.token? = some t → t ∉ w.fired
  deadline : w.now < p.deadline

variable {w w' : Watch} {p : Pending} {t : Token}

theorem Pending.Alert.resting (h : p.Alert w) (hw : p.woken = false) : p.Resting w := by
  obtain ⟨hs, ht, hd⟩ := h.quiet hw
  exact ⟨hw, (h.waits _ hs).2, ht, hd⟩

/-- The token of a lookup is the only one that it watches. -/
theorem Pending.Alert.watches_iff (h : p.Alert w) : p.watches t ↔ p.token? = some t := by
  unfold watches token?
  cases ho : p.origin with
  | none => simp
  | some o => simp [h.origin o ho]

/-- The index may grow, tokens may fire and time may pass, when the lookups that have something to
do by then are woken. -/
theorem Pending.Alert.wakeIf (h : p.Alert w) {b : Bool} (hi : w.catalog.index ≤ w'.catalog.index)
    (hb : b = false → w'.catalog.index = w.catalog.index ∧
      (∀ t, p.token? = some t → t ∉ w.fired → t ∉ w'.fired) ∧
      (w.now < p.deadline → w'.now < p.deadline)) : (p.wakeIf b).Alert w' := by
  cases b with
  | true =>
    exact ⟨fun i hs => ⟨Nat.le_trans (h.waits i hs).1 hi, (h.waits i hs).2⟩, h.origin, fun e => nomatch e⟩
  | false =>
    obtain ⟨hindex, hfired, hnow⟩ := hb rfl
    refine ⟨fun i hs => ⟨Nat.le_trans (h.waits i hs).1 hi, (h.waits i hs).2⟩, h.origin, fun e => ?_⟩
    obtain ⟨hs, ht, hd⟩ := h.quiet e
    exact ⟨hindex ▸ hs, fun t htoken => hfired t htoken (ht t htoken), hnow hd⟩

/-! ## Turns -/

theorem Pending.Alert.isCancelled_iff (h : p.Alert w) :
    w.isCancelled p.request = true ↔ ∃ t, p.token? = some t ∧ t ∈ w.fired := by
  have hc : p.token? = p.request.options.cancel := by
    unfold token?
    cases ho : p.origin with
    | none => rfl
    | some o => exact (h.origin o ho).symm
  rw [hc]
  cases hr : p.request.options.cancel <;> simp [Watch.isCancelled, hr]

/-- A lookup waits on after its turn when its token has not fired and it has nothing to do. -/
theorem Pending.Alert.turn_eq_none_iff (h : p.Alert w) :
    w.turn p = none ↔ (∀ t, p.token? = some t → t ∉ w.fired) ∧ w.waits p = true := by
  have hanswer : w.answer p = none ↔ w.isCancelled p.request = false ∧ w.waits p = true := by
    unfold Watch.answer
    split
    · simp_all
    · split <;> simp_all
  have hcancelled : w.isCancelled p.request = false ↔ ∀ t, p.token? = some t → t ∉ w.fired := by
    rw [← Bool.not_eq_true, h.isCancelled_iff]
    push Not
    rfl
  unfold Watch.turn
  cases ho : p.origin with
  | none => rw [Option.map_eq_none_iff, hanswer, hcancelled]
  | some o =>
    dsimp only
    split
    · next hstop => simp [token?, ho, hstop]
    · rw [Option.map_eq_none_iff, hanswer, hcancelled]

theorem Watch.isCancelled_of_answer {e : Lookup.ClientError} (h : w.answer p = some (.error e)) :
    w.isCancelled p.request = true := by
  unfold answer at h
  split at h
  · assumption
  · split at h <;> cases h

theorem Pending.Alert.isCancelled_of_turn (h : p.Alert w) {o : Outcome} (ht : w.turn p = some o)
    (hc : o.isCancelled = true) : ∃ t, p.token? = some t ∧ t ∈ w.fired := by
  unfold Watch.turn at ht
  cases ho : p.origin with
  | none =>
    rw [ho] at ht
    obtain ⟨r, hr, rfl⟩ := Option.map_eq_some_iff.1 ht
    cases r with
    | ok found => cases hc
    | error e => exact h.isCancelled_iff.1 (Watch.isCancelled_of_answer hr)
  | some o' =>
    rw [ho] at ht
    dsimp only at ht
    split at ht
    · next hstop => exact ⟨o'.stop, by simp [token?, ho], hstop⟩
    · obtain ⟨r, hr, rfl⟩ := Option.map_eq_some_iff.1 ht
      cases r with
      | ok found => cases hc
      | error e => exact h.isCancelled_iff.1 (Watch.isCancelled_of_answer hr)

/-- A lookup that waits on has seen the index, and the next thing to happen to it wakes it. -/
theorem Pending.Alert.rest (h : p.Alert w) (ht : w.turn p = none) :
    (p.rest w.catalog.index).Alert w := by
  obtain ⟨htoken, hwaits⟩ := h.turn_eq_none_iff.1 ht
  simp only [Watch.waits, Bool.and_eq_true, Bool.or_eq_true, beq_iff_eq, decide_eq_true_eq]
    at hwaits
  refine ⟨fun i hi => ?_, h.origin, fun _ => ⟨rfl, htoken, hwaits.2⟩⟩
  cases hi
  rcases hwaits.1 with hs | hm
  · exact ⟨Nat.le_refl _, (h.waits _ hs).2⟩
  · refine ⟨Nat.le_refl _, ?_⟩
    obtain ⟨n, hn, hle⟩ := (Option.any_eq_true _ _).1 hm
    exact ⟨n, hn, by simpa using hle⟩

namespace Watch

/-! ## Steps -/

/-- No lookup has been passed over. -/
def Alert (w : Watch) : Prop := ∀ p ∈ w.pending, p.Alert w

/-- All turns are over. -/
def Resting (w : Watch) : Prop := ∀ p ∈ w.pending, p.Alert w ∧ p.Resting w

theorem Resting.alert (h : w.Resting) : w.Alert := fun p hp => (h p hp).1

theorem Resting.empty : ({} : Watch).Resting := fun _ hp => nomatch hp

theorem alert_wakeWhere {f : Pending → Bool} (h : ∀ p ∈ w.pending, (p.wakeIf (f p)).Alert w) :
    (w.wakeWhere f).Alert := by
  intro p hp
  obtain ⟨p₀, hp₀, rfl⟩ := List.mem_map.1 hp
  obtain ⟨h1, h2, h3⟩ := h p₀ hp₀
  exact ⟨h1, h2, h3⟩

theorem Alert.raise (h : w.Alert) : w.raise.Alert :=
  alert_wakeWhere fun p hp => (h p hp).wakeIf (Nat.le_succ _) fun e => nomatch e

/-- Lookups watch the index of the catalog only. -/
theorem Alert.withCatalog (h : w.Alert) {catalog : Catalog}
    (hindex : catalog.index = w.catalog.index) : { w with catalog }.Alert := by
  intro p hp
  obtain ⟨h1, h2, h3⟩ := h p hp
  exact ⟨hindex ▸ h1, h2, hindex ▸ h3⟩

/-- A change of the list, for which the index is raised. -/
theorem Alert.change (h : w.Alert) (registrations : List Registration) :
    { w with catalog.registrations := registrations }.raise.Alert :=
  Alert.raise (h.withCatalog rfl)

theorem Alert.enqueue (h : w.Alert) {task : Option String} {origin : Option Pending.Origin}
    {request : Lookup.Request}
    (ho : ∀ o, origin = some o → request.options.cancel = some o.stop) :
    (w.enqueue task origin request).Alert := by
  intro p hp
  rcases List.mem_append.1 hp with hp | hp
  · obtain ⟨h1, h2, h3⟩ := h p hp
    exact ⟨h1, h2, h3⟩
  · obtain rfl := List.mem_singleton.1 hp
    exact ⟨fun i hi => (nomatch hi), ho, fun e => nomatch e⟩

theorem Alert.fire (h : w.Alert) (t : Token) : (w.fire t).Alert := by
  refine alert_wakeWhere fun p hp => (h p hp).wakeIf (Nat.le_refl _) fun hb => ⟨rfl, ?_, id⟩
  intro t' ht' hn hm
  rcases List.mem_cons.1 hm with rfl | hm
  · rw [(h p hp).watches_iff.2 ht'] at hb
    cases hb
  · exact hn hm

theorem Alert.advanceTo (h : w.Alert) (tick : Nat) : (w.advanceTo tick).Alert := by
  refine alert_wakeWhere fun p hp => (h p hp).wakeIf (Nat.le_refl _) fun hb =>
    ⟨rfl, fun _ _ => id, fun hd => ?_⟩
  have hb : tick < p.deadline := by simpa using hb
  exact Nat.max_lt.2 ⟨hd, hb⟩

theorem Alert.perform (h : w.Alert) (s : Step) : (w.perform s).Alert := by
  cases s with
  | register service ns partition =>
    exact h.change (Catalog.put (Registration.of service ns partition) w.catalog.registrations)
  | deregister datacenter node serviceId =>
    by_cases hm : Catalog.defaultKey datacenter node serviceId ∈
        w.catalog.registrations.map Registration.key
    · simp only [Watch.perform, deregister, Catalog.deregister_of_mem hm]
      exact h.change (Catalog.remove (Catalog.defaultKey datacenter node serviceId)
        w.catalog.registrations)
    · simp only [Watch.perform, deregister, Catalog.deregister_of_notMem hm]
      exact alert_wakeWhere fun p hp => (h p hp).wakeIf (Nat.le_refl _) fun _ =>
        ⟨rfl, fun _ _ => id, id⟩
  | fire token => exact h.fire token
  | cancel query stop => exact h.fire stop
  | advance ticks => exact h.advanceTo _
  | lookup task request => exact h.enqueue fun o e => nomatch e
  | fetch task query stop options =>
    refine h.enqueue fun o e => ?_
    cases e
    rfl

/-- After the turns every lookup rests. -/
theorem Alert.settle (h : w.Alert) : w.settle.1.Resting := by
  intro p hp
  obtain ⟨p₀, hp₀, ht⟩ := List.mem_filterMap.1 hp
  have hrest : p.Alert w ∧ p.woken = false := by
    unfold afterTurn at ht
    split at ht
    · split at ht
      · cases ht
      · next hn =>
        cases ht
        exact ⟨(h p₀ hp₀).rest (by simpa using hn), rfl⟩
    · next hw =>
      cases ht
      exact ⟨h _ hp₀, by simpa using hw⟩
  obtain ⟨⟨h1, h2, h3⟩, hw⟩ := hrest
  have ha : p.Alert w.settle.1 := ⟨h1, h2, h3⟩
  exact ⟨ha, ha.resting hw⟩

/-! ## Runs -/

theorem Resting.run (h : w.Resting) (ss : List Step) : (w.run ss).1.Resting := by
  induction ss generalizing w with
  | nil => exact h
  | cons s ss ih => exact ih (h.alert.perform s).settle

theorem mem_fired_perform {s : Step} : t ∈ (w.perform s).fired ↔ s.fires = some t ∨ t ∈ w.fired := by
  have hderegister (datacenter node serviceId : String) :
      (w.deregister datacenter node serviceId).1.fired = w.fired := rfl
  cases s with
  | fire token | cancel _ token =>
    simp [perform, cancel, fire, wakeWhere, Step.fires, eq_comm]
  | _ => simp [perform, register, hderegister, advanceTo, lookup, fetch, enqueue, wakeWhere, Step.fires]

theorem mem_fired_run {ss : List Step} :
    t ∈ (w.run ss).1.fired ↔ t ∈ w.fired ∨ ∃ s ∈ ss, s.fires = some t := by
  induction ss generalizing w with
  | nil => simp [run]
  | cons s ss ih =>
    have hs : t ∈ (w.perform s).settle.1.fired ↔ s.fires = some t ∨ t ∈ w.fired :=
      mem_fired_perform
    simp only [run, ih, hs, List.mem_cons, exists_eq_or_imp]
    tauto

theorem Alert.token_of_mem_settle (h : w.Alert) {c : Completion} (hc : c ∈ w.settle.2)
    (hcancelled : c.outcome.isCancelled = true) : ∃ t, c.pending.token? = some t ∧ t ∈ w.fired := by
  obtain ⟨p, hp, hcompletion⟩ := List.mem_filterMap.1 hc
  unfold completion at hcompletion
  split at hcompletion
  · obtain ⟨o, ho, rfl⟩ := Option.map_eq_some_iff.1 hcompletion
    exact (h p hp).isCancelled_of_turn ho hcancelled
  · cases hcompletion

/-- A lookup is cancelled only by its own token. -/
theorem Alert.token_of_mem_run (h : w.Alert) {ss : List Step} {c : Completion}
    (hc : c ∈ (w.run ss).2) (hcancelled : c.outcome.isCancelled = true) :
    ∃ t, c.pending.token? = some t ∧ (t ∈ w.fired ∨ ∃ s ∈ ss, s.fires = some t) := by
  induction ss generalizing w with
  | nil => cases hc
  | cons s ss ih =>
    have hperform := h.perform s
    simp only [List.mem_cons, exists_eq_or_imp, ← or_assoc]
    rcases List.mem_append.1 hc with hc | hc
    · obtain ⟨t, ht, hfired⟩ := hperform.token_of_mem_settle hc hcancelled
      exact ⟨t, ht, .inl (mem_fired_perform.1 hfired).symm⟩
    · obtain ⟨t, ht, hfired⟩ := ih hperform.settle.alert hc
      exact ⟨t, ht, hfired.imp_left fun hfired => (mem_fired_perform.1 hfired).symm⟩

/-! ## No lookup goes astray -/

theorem fresh_wakeIf (b : Bool) (p : Pending) : (p.wakeIf b).fresh = p.fresh := by
  cases b <;> rfl

theorem map_fresh_wakeWhere (w : Watch) (f : Pending → Bool) :
    (w.wakeWhere f).pending.map Pending.fresh = w.pending.map Pending.fresh := by
  simp [wakeWhere, fresh_wakeIf]

theorem map_fresh_perform (w : Watch) (s : Step) : (w.perform s).pending.map Pending.fresh =
    w.pending.map Pending.fresh ++ (s.begins w.now).toList := by
  cases s with
  | lookup task request | fetch task query stop options =>
    simp [perform, lookup, fetch, enqueue, Step.begins, Pending.fresh]
  | _ => exact (map_fresh_wakeWhere _ _).trans (List.append_nil _).symm

/-- In its turn a lookup either ends or waits on. -/
theorem perm_turns (w : Watch) (ps : List Pending) :
    ((ps.filterMap w.afterTurn).map Pending.fresh ++
      (ps.filterMap w.completion).map fun c => c.pending.fresh).Perm (ps.map Pending.fresh) := by
  induction ps with
  | nil => exact .refl _
  | cons p ps ih =>
    cases hw : p.woken with
    | false => simpa [afterTurn, completion, hw] using ih
    | true =>
      cases ht : w.turn p with
      | none => simpa [afterTurn, completion, hw, ht, Pending.rest, Pending.fresh] using ih
      | some o => simpa [afterTurn, completion, hw, ht] using List.perm_middle.trans (ih.cons _)

theorem perm_run (w : Watch) (ss : List Step) :
    ((w.run ss).1.pending.map Pending.fresh ++ (w.run ss).2.map fun c => c.pending.fresh).Perm
      (w.pending.map Pending.fresh ++ w.begun ss) := by
  induction ss generalizing w with
  | nil => simp [run, begun]
  | cons s ss ih =>
    let mid := (w.perform s).settle
    have hturns : (mid.1.pending.map Pending.fresh ++
        mid.2.map fun c => c.pending.fresh).Perm _ := perm_turns (w.perform s) _
    rw [map_fresh_perform] at hturns
    calc (mid.1.run ss).1.pending.map Pending.fresh ++
          (mid.2 ++ (mid.1.run ss).2).map (fun c => c.pending.fresh)
      _ = (mid.1.run ss).1.pending.map Pending.fresh ++ (mid.2.map (fun c => c.pending.fresh) ++
          (mid.1.run ss).2.map fun c => c.pending.fresh) := by rw [List.map_append]
      _ |>.Perm (mid.2.map (fun c => c.pending.fresh) ++
          (mid.1.pending.map Pending.fresh ++ mid.1.begun ss)) :=
        (List.perm_append_comm_assoc ..).trans ((ih mid.1).append_left _)
      _ |>.Perm (mid.1.pending.map Pending.fresh ++
          (mid.2.map (fun c => c.pending.fresh) ++ mid.1.begun ss)) :=
        List.perm_append_comm_assoc ..
      _ |>.Perm (w.pending.map Pending.fresh ++ ((s.begins w.now).toList ++ mid.1.begun ss)) := by
        simpa only [List.append_assoc] using hturns.append_right (mid.1.begun ss)

/-- **No wake-up is lost and no lookup is cancelled by another's token.** Every lookup that was begun
has ended or is still unfinished. An unfinished one waits for an index that the catalog has not gone
past, its own token was never fired, and its time since it began has not run out. One that ended
because it was cancelled had its own token fired. The index fits in 64 bits for fewer than
`2 ^ 64 - 1` changes. -/
theorem unfinished_waits (ss : List Step) :
    let w := (run {} ss).1
    let ended := (run {} ss).2
    (w.pending.map Pending.fresh ++ ended.map fun c => c.pending.fresh).Perm (begun {} ss) ∧
    (∀ p ∈ w.pending,
      (∃ n, p.request.options.waitIndex = some n ∧ 1 ≤ n ∧ w.catalog.index ≤ n) ∧
      (∀ t, p.token? = some t → ∀ s ∈ ss, s.fires ≠ some t) ∧
      w.now * 1000000 < p.began * 1000000 +
        (p.request.options.waitTime.getD (.ofSeconds 300)).toNanos) ∧
    ∀ c ∈ ended, c.outcome.isCancelled →
      ∃ t, c.pending.token? = some t ∧ ∃ s ∈ ss, s.fires = some t := by
  intro w ended
  refine ⟨by simpa using perm_run {} ss, fun p hp => ?_, fun c hc hcancelled => ?_⟩
  · obtain ⟨-, hindex, htoken, hdeadline⟩ := (Resting.empty.run ss p hp).2
    refine ⟨hindex, fun t ht s hs hfires => ?_, Duration.lt_of_lt_deadline hdeadline⟩
    exact htoken t ht (mem_fired_run.2 (.inr ⟨s, hs, hfires⟩))
  · obtain ⟨t, ht, hfired⟩ := Resting.empty.alert.token_of_mem_run hc hcancelled
    exact ⟨t, ht, hfired.resolve_left (List.not_mem_nil (a := t))⟩

end Watch

end Discovery
