import Mathlib.Data.List.Nodup
import Discovery.Catalog.Session
import Discovery.Query.Live

/-!
# Tokens of a session

A session gives out tokens by serial number, one to each query that it reads and one to each name
of a token, and it fires no others. So a token is given out once, whatever commands come
(`Session.Issues`). A query is cancelled by its own token only, and of some queries that were read
those are cancelled that are asked to be (`Session.Issues.live_cancelAll`).
-/

namespace Discovery.Session

variable {s : Session} {t : Token}

/-- The tokens that were given out. -/
def issued (s : Session) : List Token :=
  s.queries.map (fun e => e.2.stop) ++ s.tokens.map Prod.snd

/-- What holds of the tokens of a session at any time. -/
structure Issues (s : Session) : Prop where
  nodup : s.issued.Nodup
  serial_lt : ∀ t ∈ s.issued, t.serial < s.serial
  fired : ∀ t ∈ s.watch.fired, t ∈ s.issued

theorem Issues.empty : Issues {} where
  nodup := .nil
  serial_lt := nofun
  fired := nofun

/-- A session with another catalog, in which the same tokens have fired. -/
theorem Issues.withWatch (h : s.Issues) {w : Watch} (hw : w.fired = s.watch.fired) :
    Issues { s with watch := w } where
  nodup := h.nodup
  serial_lt := h.serial_lt
  fired t ht := h.fired t (hw ▸ ht)

theorem Issues.fire (h : s.Issues) (ht : t ∈ s.issued) :
    Issues { s with watch := s.watch.fire t } where
  nodup := h.nodup
  serial_lt := h.serial_lt
  fired t' ht' := by
    rcases List.mem_cons.1 ht' with rfl | ht'
    · exact ht
    · exact h.fired t' ht'

/-- The next token was not given out. -/
theorem Issues.fresh (h : s.Issues) : ⟨s.serial⟩ ∉ s.issued :=
  fun hmem => Nat.lt_irrefl _ (h.serial_lt _ hmem)

/-- A session that has given out one more token. -/
theorem Issues.grow (h : s.Issues) {s' : Session} (hissued : s'.issued.Perm (⟨s.serial⟩ :: s.issued))
    (hserial : s'.serial = s.serial + 1) (hfired : s'.watch.fired = s.watch.fired) : s'.Issues where
  nodup := hissued.nodup_iff.2 (List.nodup_cons.2 ⟨h.fresh, h.nodup⟩)
  serial_lt t ht := by
    rw [hserial]
    rcases List.mem_cons.1 (hissued.mem_iff.1 ht) with rfl | ht
    · exact Nat.lt_succ_self _
    · exact Nat.lt_succ_of_lt (h.serial_lt t ht)
  fired t ht := by
    rw [hfired] at ht
    exact hissued.mem_iff.2 (List.mem_cons_of_mem _ (h.fired t ht))

theorem mem_of_lookup_eq_some {α : Type} {es : List (String × α)} {name : String} {a : α}
    (h : es.lookup name = some a) : (name, a) ∈ es := by
  obtain ⟨front, back, rfl, -⟩ := List.lookup_eq_some_iff.1 h
  exact List.mem_append_right _ List.mem_cons_self

theorem stop_mem_issued {e : String × Entry} (h : e ∈ s.queries) : e.2.stop ∈ s.issued :=
  List.mem_append_left _ (List.mem_map_of_mem h)

/-! ## Commands -/

theorem Issues.tokenNamed (h : s.Issues) (name : String) :
    (s.tokenNamed name).2.Issues ∧ (s.tokenNamed name).1 ∈ (s.tokenNamed name).2.issued := by
  unfold Session.tokenNamed
  split
  · next t ht => exact ⟨h, List.mem_append_right _ (List.mem_map_of_mem (mem_of_lookup_eq_some ht))⟩
  · refine ⟨h.grow ?_ rfl rfl, ?_⟩
    · exact List.perm_middle
    · exact List.mem_append_right _ List.mem_cons_self

theorem Issues.act (h : s.Issues) (a : Act) : (s.act a).1.Issues := by
  cases a with
  | register service ns partition => exact h.withWatch rfl
  | deregister datacenter node serviceId => exact h.withWatch rfl
  | index | unknown => exact h
  | query name text =>
    simp only [Session.act]
    split
    · exact h
    · exact h.grow (List.Perm.refl _) rfl rfl
  | cancel name =>
    simp only [Session.act]
    split
    · exact h
    · next e he => exact h.fire (stop_mem_issued (mem_of_lookup_eq_some he))
  | cancelToken name =>
    obtain ⟨hnamed, hmem⟩ := h.tokenNamed name
    exact hnamed.fire hmem

theorem Issues.acts (h : s.Issues) (as : List Act) : (s.acts as).1.Issues := by
  induction as generalizing s with
  | nil => exact h
  | cons a as ih => exact ih (h.act a)

theorem Issues.enter (h : s.Issues) {task : Option String} {options : Lookup.Options}
    {subject : Subject} {r : Session × List Event} (hr : s.enter task options subject = some r) :
    r.1.Issues := by
  cases subject with
  | query name =>
    obtain ⟨e, -, he⟩ := Option.bind_eq_some_iff.1 hr
    cases he
    exact h.withWatch rfl
  | service name tag =>
    cases hr
    exact h.withWatch rfl

theorem Issues.begin (h : s.Issues) {task : Option String} {i : Inquiry}
    {r : Session × List Event} (hr : s.begin task i = some r) : r.1.Issues := by
  have hoptions : (s.optionsFor i).2.Issues := by
    unfold optionsFor
    split
    · exact h
    · exact (h.tokenNamed _).1
  exact hoptions.enter hr

theorem Issues.settle (h : s.Issues) : s.settle.1.Issues := h.withWatch rfl

theorem Issues.await (h : s.Issues) (task : Option String) (before : List Event) :
    (s.await task before).1.Issues := by
  have hlate (tick : Nat) :
      Issues { s.settle.1 with watch := s.settle.1.watch.advanceTo tick } :=
    h.settle.withWatch rfl
  simp only [Session.await]
  split <;> exact (hlate _).settle

theorem Issues.step (h : s.Issues) (c : Command) : (s.step c).1.Issues := by
  cases c with
  | act a => exact (h.act a).settle
  | batch as => exact (h.acts as).settle
  | lookup i =>
    simp only [Session.step]
    split
    · exact h
    · next hr => exact (h.begin hr).await none _
  | start task i =>
    simp only [Session.step]
    split
    · exact h
    · next hr => exact (h.begin hr).settle
  | await task => exact h.await (some task) []
  | advance ticks =>
    have hadvance : Issues { s with watch := s.watch.advanceTo (s.watch.now + ticks) } :=
      h.withWatch rfl
    exact hadvance.settle

theorem Issues.run (h : s.Issues) (cs : List Command) : (s.run cs).1.Issues := by
  induction cs generalizing s with
  | nil => exact h
  | cons c cs ih => exact ih (h.step c)

/-! ## Queries and their tokens -/

/-- A token stops one query at most. -/
theorem Issues.eq_of_stop_eq (h : s.Issues) {e e' : String × Entry} (he : e ∈ s.queries)
    (he' : e' ∈ s.queries) (hstop : e.2.stop = e'.2.stop) : e = e' := by
  have hnodup : (s.queries.map fun e => e.2.stop).Nodup := (List.nodup_append.1 h.nodup).1
  exact List.inj_on_of_nodup_map hnodup he he' hstop

/-- The query that a session has under a name, with its signal. -/
def live? (s : Session) (name : String) : Option Query.Live :=
  (s.queries.lookup name).map fun e => { query := e.query, cancelled := e.stop ∈ s.watch.fired }

/-- A query that is read anew has not been cancelled, and those under other names stay as they
are. -/
theorem Issues.live_query (h : s.Issues) {name text : String} {q : Query}
    (hread : Query.parse text = .ok q) (n : String) : (s.act (.query name text)).1.live? n =
      if n = name then some { query := q } else s.live? n := by
  have hfresh : ⟨s.serial⟩ ∉ s.watch.fired := fun hfired => h.fresh (h.fired _ hfired)
  simp only [Session.act, hread, live?, freshToken, List.lookup_cons]
  by_cases hn : n = name
  · simp [hn, hfresh]
  · rw [if_neg hn, beq_false_of_ne hn]

/-- Cancelling a query cancels no other. -/
theorem Issues.live_cancel (h : s.Issues) (name n : String) :
    (s.act (.cancel name)).1.live? n =
      if n = name then (s.live? n).map Query.Live.cancel else s.live? n := by
  cases hname : s.queries.lookup name with
  | none =>
    simp only [Session.act, hname]
    split
    · next hn => simp [live?, hn, hname]
    · rfl
  | some e =>
    have hfired : (s.act (.cancel name)).1.live? n = (s.queries.lookup n).map fun e' =>
        { query := e'.query, cancelled := e'.stop ∈ e.stop :: s.watch.fired } := by
      simp only [Session.act, hname]
      rfl
    rw [hfired]
    split
    · next hn => simp [live?, hn, hname, Query.Live.cancel]
    · next hn =>
      refine Option.map_congr fun e' he' => ?_
      have hstop : e'.stop ≠ e.stop := fun heq => hn (congrArg Prod.fst (h.eq_of_stop_eq
        (mem_of_lookup_eq_some he') (mem_of_lookup_eq_some hname) heq))
      simp [hstop]

/-- Reads texts, each under a name. -/
def readAll (s : Session) (asked : List (String × String)) : Session :=
  (s.acts (asked.map fun p => .query p.1 p.2)).1

/-- Cancels the queries under some names. -/
def cancelAll (s : Session) (names : List String) : Session := (s.acts (names.map .cancel)).1

/-- Texts that are read under names of their own stand there, not cancelled. -/
theorem Issues.live_readAll (h : s.Issues) {asked : List (String × String)}
    (hnames : (asked.map Prod.fst).Nodup) (hread : ∀ p ∈ asked, ∃ q, Query.parse p.2 = .ok q) :
    (∀ n ∉ asked.map Prod.fst, (s.readAll asked).live? n = s.live? n) ∧
      ∀ p ∈ asked, ∃ q, Query.parse p.2 = .ok q ∧
        (s.readAll asked).live? p.1 = some { query := q } := by
  induction asked generalizing s with
  | nil => exact ⟨fun n _ => rfl, nofun⟩
  | cons p asked ih =>
    obtain ⟨hp, hnames⟩ := List.nodup_cons.1 hnames
    obtain ⟨⟨q, hq⟩, hread⟩ := List.forall_mem_cons.1 hread
    obtain ⟨hothers, hasked⟩ := ih (h.act (.query p.1 p.2)) hnames hread
    have hcons : s.readAll (p :: asked) = (s.act (.query p.1 p.2)).1.readAll asked := rfl
    rw [hcons]
    constructor
    · intro n hn
      obtain ⟨hnp, hn⟩ := not_or.1 (mt List.mem_cons.2 hn)
      rw [hothers n hn, h.live_query hq, if_neg hnp]
    · refine List.forall_mem_cons.2 ⟨⟨q, hq, ?_⟩, hasked⟩
      rw [hothers p.1 hp, h.live_query hq, if_pos rfl]

/-- In whatever order queries are cancelled, they are the ones that are. -/
theorem Issues.live_cancelAll (h : s.Issues) (names : List String) (n : String) :
    (s.cancelAll names).live? n =
      if n ∈ names then (s.live? n).map Query.Live.cancel else s.live? n := by
  induction names generalizing s with
  | nil => rfl
  | cons name names ih =>
    have hcons : s.cancelAll (name :: names) = (s.act (.cancel name)).1.cancelAll names := rfl
    rw [hcons, ih (h.act _), h.live_cancel]
    have htwice : Query.Live.cancel ∘ Query.Live.cancel = Query.Live.cancel := rfl
    by_cases hn : n = name <;> by_cases hnames : n ∈ names <;>
      simp [hn, hnames, htwice]

end Discovery.Session
