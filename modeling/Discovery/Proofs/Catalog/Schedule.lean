import Mathlib.Data.List.Induction
import Discovery.Proofs.Catalog.Wakeups
import Discovery.Proofs.Service.Fingerprint

/-!
# Lookups under any schedule

A schedule is a list of moves: steps from outside and turns of single lookups, in any order. Several
changes may come before a lookup that they woke has its turn. The runs of `Watch.run`, in which all
turns come at once, are among them (`exists_moves_run`).

- `index_play`: the index counts the changes.
- `catalog_play_of_index_eq`: while the index stays, the catalog stays.
- `found_of_turn`: a result is what the catalog has in the turn that ends the lookup.
- `deadline_le_of_waits`: a lookup that ends with an index it was to wait past has waited to its
  deadline.
-/

namespace Discovery

/-- What an outcome found, if the lookup was successful. -/
def Outcome.found? : Outcome → Option Lookup.Found
  | .direct (.ok found) | .fetched (.ok found) => some found
  | _ => none

/-- Requests for the same name, tag and scope. -/
structure Lookup.Request.Alike (q q' : Lookup.Request) : Prop where
  name : q.name = q'.name
  tag : q.tag = q'.tag
  datacenter : q.options.datacenter.getD defaultDatacenter =
    q'.options.datacenter.getD defaultDatacenter
  ns : q.options.ns.getD defaultNamespace = q'.options.ns.getD defaultNamespace
  partition : q.options.partition.getD defaultPartition =
    q'.options.partition.getD defaultPartition

/-- The timer of a lookup does not fire before its wait has passed. -/
def Pending.Punctual (p : Pending) : Prop :=
  p.began * 1000000 + p.wait.toNanos ≤ p.deadline * 1000000

/-- A timer is punctual if the clock can show the end of the wait. -/
theorem Pending.punctual_of_le_lastTick {p : Pending} (hseconds : p.wait.seconds < clockBound)
    (hend : p.began + (p.wait.toNanos + 999999) / 1000000 ≤ lastTick) : p.Punctual := by
  have hdeadline : p.deadline = p.began + (p.wait.toNanos + 999999) / 1000000 := by
    rw [deadline, Duration.deadline, if_neg (Nat.not_le.2 hseconds), Nat.min_eq_right hend]
  rw [Punctual, hdeadline]
  omega

theorem Catalog.select_congr {q q' : Lookup.Request} (h : q.Alike q') (rs : List Registration) :
    select q rs = select q' rs := by
  have hmatch : matchesRequest q = matchesRequest q' := by
    funext r
    simp only [matchesRequest, h.name, h.tag, h.datacenter, h.ns, h.partition]
  rw [select, select, hmatch]

namespace Watch

/-- One thing that happens. -/
inductive Move where
  | step (s : Step)
  /-- The turn of a lookup, by its place among those that have not ended. -/
  | turn (i : Nat)

/-- What is left after a move. -/
def move (w : Watch) : Move → Watch
  | .step s => w.perform s
  | .turn i => { w with
    pending := w.pending.take i ++
      ((w.pending[i]?.bind w.afterTurn).toList ++ w.pending.drop (i + 1)) }

/-- The lookup that ends with a move. -/
def ends (w : Watch) : Move → Option Completion
  | .step _ => none
  | .turn i => w.pending[i]?.bind w.completion

def play (w : Watch) (ms : List Move) : Watch := ms.foldl move w

/-- The lookups that end with some moves, in this order. -/
def ended (w : Watch) : List Move → List Completion
  | [] => []
  | m :: ms => (w.ends m).toList ++ (w.move m).ended ms

/-- On a new catalog, a lookup ends with the last of some moves. -/
def Ends (ms : List Move) (c : Completion) : Prop :=
  ∃ before m, ms = before ++ [m] ∧ (play {} before).ends m = some c

variable {w : Watch} {p : Pending} {c : Completion} {ms : List Move} {found : Lookup.Found}

theorem play_append (w : Watch) (ms ms' : List Move) :
    w.play (ms ++ ms') = (w.play ms).play ms' := List.foldl_append

theorem ended_append (w : Watch) (ms ms' : List Move) :
    w.ended (ms ++ ms') = w.ended ms ++ (w.play ms).ended ms' := by
  induction ms generalizing w with
  | nil => rfl
  | cons m ms ih => simp [ended, ih, play]

/-! ## All turns at once -/

/-- Turns that come one after another, from some lookup to the last. -/
theorem exists_turns (w : Watch) (left rest : List Pending) : ∃ turns : List Nat,
    play { w with pending := left ++ rest } (turns.map .turn) =
      { w with pending := left ++ rest.filterMap w.afterTurn } ∧
    ended { w with pending := left ++ rest } (turns.map .turn) = rest.filterMap w.completion := by
  -- `left` are those that have had their turn and wait on; their number is the place of the next
  induction rest generalizing left with
  | nil => exact ⟨[], rfl, rfl⟩
  | cons p rest ih =>
    have hmove : move { w with pending := left ++ p :: rest } (.turn left.length) =
        { w with pending := left ++ (w.afterTurn p).toList ++ rest } := by
      simp [move]
      rfl
    have hends : ends { w with pending := left ++ p :: rest } (.turn left.length) =
        w.completion p := by
      simp [ends]
      rfl
    obtain ⟨turns, hplay, hended⟩ := ih (left ++ (w.afterTurn p).toList)
    refine ⟨left.length :: turns, ?_, ?_⟩
    · rw [List.map_cons, play, List.foldl_cons, hmove]
      refine hplay.trans ?_
      cases h : w.afterTurn p <;> simp [h]
    · rw [List.map_cons, ended, hends, hmove, hended]
      cases h : w.completion p <;> simp [h]

theorem exists_turns_settle (w : Watch) : ∃ turns : List Nat,
    w.play (turns.map .turn) = w.settle.1 ∧ w.ended (turns.map .turn) = w.settle.2 :=
  exists_turns w [] w.pending

/-- A run in which all turns come at once after each step is a schedule. -/
theorem exists_moves_run (w : Watch) (ss : List Step) : ∃ ms : List Move,
    w.play ms = (w.run ss).1 ∧ w.ended ms = (w.run ss).2 := by
  induction ss generalizing w with
  | nil => exact ⟨[], rfl, rfl⟩
  | cons s ss ih =>
    obtain ⟨turns, hturns, hended⟩ := exists_turns_settle (w.perform s)
    obtain ⟨ms, hplay, hmore⟩ := ih (w.perform s).settle.1
    refine ⟨.step s :: (turns.map Move.turn ++ ms), ?_, ?_⟩
    · calc (w.perform s).play (turns.map Move.turn ++ ms)
        _ = ((w.perform s).play (turns.map Move.turn)).play ms := play_append ..
        _ = (w.run (s :: ss)).1 := by rw [hturns, hplay, run]
    · calc (w.perform s).ended (turns.map Move.turn ++ ms)
        _ = (w.perform s).ended (turns.map Move.turn) ++
            ((w.perform s).play (turns.map Move.turn)).ended ms := ended_append ..
        _ = (w.run (s :: ss)).2 := by rw [hended, hturns, hmore, run]

/-! ## The index -/

/-- Whether a move registers an instance. -/
def Move.registers : Move → Bool
  | .step (.register ..) => true
  | _ => false

/-- Whether a move takes out an instance that is there. -/
def removes (w : Watch) : Move → Bool
  | .step (.deregister datacenter node serviceId) => (w.deregister datacenter node serviceId).2
  | _ => false

/-- How many of some moves take out an instance that is there. -/
def removals (w : Watch) : List Move → Nat
  | [] => 0
  | m :: ms => (if w.removes m then 1 else 0) + (w.move m).removals ms

/-- A move changes the catalog when it registers or takes out, and raises the index by one then. -/
theorem catalog_move (w : Watch) (m : Move) :
    (m.registers = true ∧ w.removes m = false ∧
      (w.move m).catalog.index = w.catalog.index + 1) ∨
    (m.registers = false ∧ w.removes m = true ∧
      (w.move m).catalog.index = w.catalog.index + 1) ∨
    (m.registers = false ∧ w.removes m = false ∧ (w.move m).catalog = w.catalog) := by
  cases m with
  | turn i => exact .inr (.inr ⟨rfl, rfl, rfl⟩)
  | step s =>
    cases s with
    | register service ns partition => exact .inl ⟨rfl, rfl, rfl⟩
    | deregister datacenter node serviceId =>
      by_cases hm : Catalog.defaultKey datacenter node serviceId ∈
          w.catalog.registrations.map Registration.key
      · have hd := Catalog.deregister_of_mem hm
        exact .inr (.inl ⟨rfl, by simp [removes, deregister, hd],
          by simp [move, perform, deregister, wakeWhere, hd]⟩)
      · have hd := Catalog.deregister_of_notMem hm
        exact .inr (.inr ⟨rfl, by simp [removes, deregister, hd],
          by simp [move, perform, deregister, wakeWhere, hd]⟩)
    | _ => exact .inr (.inr ⟨rfl, rfl, rfl⟩)

theorem index_play (w : Watch) (ms : List Move) : (w.play ms).catalog.index =
    w.catalog.index + ms.countP Move.registers + w.removals ms := by
  induction ms generalizing w with
  | nil => rfl
  | cons m ms ih =>
    have hplay : (w.play (m :: ms)).catalog.index =
        (w.move m).catalog.index + ms.countP Move.registers + (w.move m).removals ms :=
      ih (w.move m)
    rw [hplay, List.countP_cons, removals]
    rcases catalog_move w m with ⟨hr, hd, hi⟩ | ⟨hr, hd, hi⟩ | ⟨hr, hd, hi⟩
    all_goals simp only [hr, hd, hi, ↓reduceIte, Bool.false_eq_true]; omega

theorem index_le_play (w : Watch) (ms : List Move) :
    w.catalog.index ≤ (w.play ms).catalog.index := by
  rw [index_play]
  omega

/-- While the index stays, the catalog stays. -/
theorem catalog_play_of_index_eq (h : (w.play ms).catalog.index = w.catalog.index) :
    (w.play ms).catalog = w.catalog := by
  induction ms generalizing w with
  | nil => rfl
  | cons m ms ih =>
    have hle := index_le_play (w.move m) ms
    have hindex : ((w.move m).play ms).catalog.index = w.catalog.index := h
    -- the index never falls, so the first move has not raised it
    have hmove : (w.move m).catalog = w.catalog := by
      rcases catalog_move w m with ⟨-, -, hi⟩ | ⟨-, -, hi⟩ | ⟨-, -, hc⟩
      · omega
      · omega
      · exact hc
    exact (ih (by rw [hindex, hmove])).trans hmove

/-! ## Turns -/

theorem find_of_answer (h : w.answer p = some (.ok found)) :
    found = w.catalog.find p.request ∧ w.waits p = false := by
  unfold answer at h
  split at h
  · cases h
  · split at h
    · cases h
    · next hwaits =>
      cases h
      exact ⟨rfl, by simpa using hwaits⟩

/-- A lookup that is successful gives what the catalog has, and does not wait any longer. -/
theorem found_of_turn {o : Outcome} (h : w.turn p = some o) (hfound : o.found? = some found) :
    found.status.lastIndex = w.catalog.index ∧
      found.services = (if p.origin.isSome then Service.sort else id)
        (Catalog.select p.request w.catalog.registrations) ∧ w.waits p = false := by
  unfold turn at h
  cases ho : p.origin with
  | none =>
    rw [ho] at h
    obtain ⟨r, hr, rfl⟩ := Option.map_eq_some_iff.1 h
    cases r with
    | error e => cases hfound
    | ok r =>
      cases hfound
      obtain ⟨rfl, hw⟩ := find_of_answer hr
      exact ⟨rfl, rfl, hw⟩
  | some origin =>
    rw [ho] at h
    dsimp only at h
    split at h
    · cases h
      cases hfound
    · obtain ⟨r, hr, rfl⟩ := Option.map_eq_some_iff.1 h
      cases r with
      | error e => cases e <;> cases hfound
      | ok r =>
        cases hfound
        obtain ⟨rfl, hw⟩ := find_of_answer hr
        exact ⟨rfl, rfl, hw⟩

/-- A lookup that ends although the index is not past the one it waits for has waited to its
deadline. -/
theorem deadline_le_of_waits {n : Nat} (h : w.waits p = false)
    (hwait : p.request.options.waitIndex = some n) (hn : 1 ≤ n) (hindex : w.catalog.index ≤ n) :
    p.deadline ≤ w.now := by
  have hmust : w.catalog.mustWait (some n) = true := by simp [Catalog.mustWait, hn, hindex]
  simpa [waits, hwait, hmust] using h

/-! ## Where lookups come from -/

theorem began_of_begins {s : Step} {now : Nat} (h : s.begins now = some p) : p.began = now := by
  cases s <;> simp only [Step.begins, Option.some.injEq, reduceCtorEq] at h
  all_goals exact h ▸ rfl

theorem fresh_of_afterTurn {p' : Pending} (h : w.afterTurn p = some p') : p'.fresh = p.fresh := by
  unfold afterTurn at h
  split at h
  · split at h
    · cases h
    · cases h
      rfl
  · cases h
    rfl

/-- A lookup that has not ended was there before a move, or the move began it. -/
theorem fresh_of_mem_move {m : Move} (h : p ∈ (w.move m).pending) :
    p.fresh ∈ w.pending.map Pending.fresh ∨ ∃ s, m = .step s ∧ s.begins w.now = some p.fresh := by
  cases m with
  | step s =>
    have hmem : p.fresh ∈ (w.perform s).pending.map Pending.fresh := List.mem_map_of_mem h
    rw [map_fresh_perform, List.mem_append, Option.mem_toList] at hmem
    exact hmem.imp_right fun hs => ⟨s, rfl, hs⟩
  | turn i =>
    left
    simp only [move, List.mem_append, Option.mem_toList, Option.bind_eq_some_iff] at h
    rcases h with h | ⟨p₀, hp₀, hturn⟩ | h
    · exact List.mem_map_of_mem (List.mem_of_mem_take h)
    · rw [fresh_of_afterTurn hturn]
      exact List.mem_map_of_mem (List.mem_of_getElem? hp₀)
    · exact List.mem_map_of_mem (List.mem_of_mem_drop h)

/-- On a new catalog, one of some moves begins a lookup, at the time that it keeps for this. -/
def Begun (ms : List Move) (p : Pending) : Prop :=
  ∃ before s, before ++ [.step s] <+: ms ∧ s.begins (play {} before).now = some p.fresh

theorem begun_of_mem_play (h : p ∈ (play {} ms).pending) : Begun ms p := by
  induction ms using List.reverseRecOn generalizing p with
  | nil => cases h
  | append_singleton ms m ih =>
    rw [play_append] at h
    rcases fresh_of_mem_move h with hold | ⟨s, rfl, hs⟩
    · obtain ⟨p₀, hp₀, hfresh⟩ := List.mem_map.1 hold
      obtain ⟨before, s, hbefore, hs⟩ := ih hp₀
      exact ⟨before, s, hbefore.trans (List.prefix_append ms [m]), hfresh ▸ hs⟩
    · exact ⟨ms, s, List.prefix_rfl, hs⟩

/-! ## Lookups that have ended -/

theorem Ends.exists_turn (h : Ends ms c) : ∃ w : Watch, w.turn c.pending = some c.outcome ∧
    Begun ms c.pending ∧ (play {} ms).catalog = w.catalog ∧ (play {} ms).now = w.now := by
  obtain ⟨before, m, rfl, hends⟩ := h
  cases m with
  | step s => cases hends
  | turn i =>
    obtain ⟨p, hp, hcompletion⟩ := Option.bind_eq_some_iff.1 hends
    unfold completion at hcompletion
    split at hcompletion
    · obtain ⟨o, ho, rfl⟩ := Option.map_eq_some_iff.1 hcompletion
      obtain ⟨first, s, hfirst, hs⟩ := begun_of_mem_play (List.mem_of_getElem? hp)
      refine ⟨play {} before, ho, ⟨first, s, hfirst.trans (List.prefix_append _ _), hs⟩, ?_, ?_⟩
      · rw [play_append]
        rfl
      · rw [play_append]
        rfl
    · cases hcompletion

theorem Ends.found_eq (h : Ends ms c) (hfound : c.outcome.found? = some found) :
    found.status.lastIndex = (play {} ms).catalog.index ∧
      found.services = (if c.pending.origin.isSome then Service.sort else id)
        (Catalog.select c.pending.request (play {} ms).catalog.registrations) := by
  obtain ⟨w, hturn, -, hcatalog, -⟩ := h.exists_turn
  obtain ⟨hindex, hservices, -⟩ := found_of_turn hturn hfound
  rw [hcatalog]
  exact ⟨hindex, hservices⟩

/-- A lookup that did not see the index pass has waited as long as it was to. -/
theorem Ends.waited {n : Nat} (h : Ends ms c) (hfound : c.outcome.found? = some found)
    (hwait : c.pending.request.options.waitIndex = some n) (hn : 1 ≤ n)
    (hindex : found.status.lastIndex ≤ n) (hpunctual : c.pending.Punctual) :
    ∃ before s, before ++ [.step s] <+: ms ∧ s.begins (play {} before).now = some c.pending.fresh ∧
      (play {} before).now * 1000000 + c.pending.wait.toNanos ≤ (play {} ms).now * 1000000 := by
  obtain ⟨w, hturn, ⟨before, s, hbefore, hs⟩, -, hnow⟩ := h.exists_turn
  obtain ⟨hlast, -, hwaits⟩ := found_of_turn hturn hfound
  have hdeadline := deadline_le_of_waits hwaits hwait hn (hlast ▸ hindex)
  have hbegan : c.pending.fresh.began = (play {} before).now := began_of_begins hs
  refine ⟨before, s, hbefore, hs, ?_⟩
  rw [← hbegan, hnow, Pending.fresh]
  exact Nat.le_trans hpunctual (Nat.mul_le_mul_right _ hdeadline)

theorem fingerprint_arranged (b : Bool) (xs : List Service) :
    Service.fingerprint ((if b then Service.sort else id) xs) = Service.fingerprint xs := by
  cases b with
  | false => rfl
  | true => exact Service.fingerprint_sort xs

/-- **The index tells the state, and no lookup ends before its time.** The index counts the changes.
A result shows the registrations and the index of the moment at which its lookup ends; later lookups
have no smaller index, and with the same index the same result. A lookup that ends with an index it
was to wait past began at least as long ago as it was to wait. The index fits in 64 bits for fewer
than `2 ^ 64 - 1` changes. -/
theorem results_follow_index (ms : List Move) :
    (play {} ms).catalog.index = 1 + ms.countP Move.registers + removals {} ms ∧
    ∀ early c found, early <+: ms → Ends early c → c.outcome.found? = some found →
      found.status.lastIndex = (play {} early).catalog.index ∧
      found.services = (if c.pending.origin.isSome then Service.sort else id)
        (Catalog.select c.pending.request (play {} early).catalog.registrations) ∧
      (∀ n, c.pending.request.options.waitIndex = some n → 1 ≤ n → found.status.lastIndex ≤ n →
        c.pending.Punctual → ∃ before s, before ++ [.step s] <+: early ∧
          s.begins (play {} before).now = some c.pending.fresh ∧
          (play {} before).now * 1000000 +
            (c.pending.request.options.waitTime.getD (.ofSeconds 300)).toNanos ≤
              (play {} early).now * 1000000) ∧
      ∀ late c' found', early <+: late → late <+: ms → Ends late c' →
        c'.outcome.found? = some found' →
        found.status.lastIndex ≤ found'.status.lastIndex ∧
        (c.pending.request.Alike c'.pending.request →
          found.status.lastIndex = found'.status.lastIndex →
          (c.pending.origin.isSome = c'.pending.origin.isSome → found.services = found'.services) ∧
          Service.fingerprint found.services = Service.fingerprint found'.services) := by
  refine ⟨index_play {} ms, fun early c found _ hends hfound => ?_⟩
  obtain ⟨hindex, hservices⟩ := hends.found_eq hfound
  refine ⟨hindex, hservices, fun n hwait hn hle => hends.waited hfound hwait hn hle, ?_⟩
  rintro _ c' found' ⟨rest, rfl⟩ - hends' hfound'
  obtain ⟨hindex', hservices'⟩ := hends'.found_eq hfound'
  rw [play_append] at hindex' hservices'
  refine ⟨?_, fun halike heq => ?_⟩
  · rw [hindex, hindex']
    exact index_le_play _ rest
  · have hcatalog : ((play {} early).play rest).catalog = (play {} early).catalog :=
      catalog_play_of_index_eq (by rw [← hindex', ← heq, hindex])
    rw [hcatalog, ← Catalog.select_congr halike] at hservices'
    refine ⟨fun hkind => ?_, ?_⟩
    · rw [hservices, hservices', hkind]
    · rw [hservices, hservices', fingerprint_arranged, fingerprint_arranged]

/-- A lookup that waits for five seconds on a catalog that does not change. -/
theorem results_follow_index_unchanged :
    let request : Lookup.Request :=
      { name := "web", options := { waitIndex := some 1, waitTime := some (.ofSeconds 5) } }
    let ms : List Move :=
      [.step (.lookup none request), .turn 0, .step (.advance 5000), .turn 0]
    let c : Completion := {
      pending := { task := none, origin := none, request, began := 0, seen := some 1 }
      outcome := .direct (.ok {
        services := [], status := { lastIndex := 1, lastContact := 0, knownLeader := true } }) }
    Ends ms c ∧ c.pending.Punctual ∧ ∃ before s, before ++ [.step s] <+: ms ∧
      s.begins (play {} before).now = some c.pending.fresh ∧
      (play {} before).now * 1000000 + 5000000000 ≤ (play {} ms).now * 1000000 := by
  intro request ms c
  have hends : Ends ms c :=
    ⟨ms.dropLast, .turn 0, rfl, by simp only [ms, c, request]; rfl⟩
  have hpunctual : c.pending.Punctual := Pending.punctual_of_le_lastTick (by decide) (by decide)
  obtain ⟨-, hwaited, -⟩ :=
    ((results_follow_index ms).2 ms c _ List.prefix_rfl hends rfl).2
  obtain ⟨before, s, hbefore, hs, htime⟩ := hwaited 1 rfl (by decide) (by decide) hpunctual
  have hnanos : (request.options.waitTime.getD (.ofSeconds 300)).toNanos = 5000000000 := by decide
  rw [hnanos] at htime
  exact ⟨hends, hpunctual, before, s, hbefore, hs, htime⟩

end Watch

end Discovery
