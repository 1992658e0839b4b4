import Discovery.Catalog.Session
import Discovery.Proofs.Catalog.Wakeups

/-!
# Sessions leave no lookup behind

The commands of a session take the steps of `Watch.perform` and let every lookup that was woken have
its turn afterwards. So what is not finished after a command rests.
-/

namespace Discovery.Session

variable {s : Session}

theorem watch_tokenNamed (s : Session) (name : String) : (s.tokenNamed name).2.watch = s.watch := by
  unfold tokenNamed
  split <;> rfl

theorem alert_act (h : s.watch.Alert) (a : Act) : (s.act a).1.watch.Alert := by
  cases a with
  | register service ns partition => exact h.perform (.register service ns partition)
  | deregister datacenter node serviceId =>
    exact h.perform (.deregister datacenter node serviceId)
  | index | unknown => exact h
  | query name text =>
    simp only [act]
    split <;> exact h
  | cancel name =>
    simp only [act]
    split
    · exact h
    · next e _ => exact h.perform (.cancel e.query e.stop)
  | cancelToken name =>
    simp only [act, watch_tokenNamed]
    exact h.fire _

theorem alert_acts (h : s.watch.Alert) (as : List Act) : (s.acts as).1.watch.Alert := by
  induction as generalizing s with
  | nil => exact h
  | cons a as ih => exact ih (alert_act h a)

theorem alert_enter (h : s.watch.Alert) {task : Option String} {options : Lookup.Options}
    {subject : Subject} {r : Session × List Event} (hr : s.enter task options subject = some r) :
    r.1.watch.Alert := by
  cases subject with
  | query name =>
    obtain ⟨e, -, he⟩ := Option.bind_eq_some_iff.1 hr
    cases he
    exact h.perform (.fetch task e.query e.stop options)
  | service name tag =>
    cases hr
    exact h.perform (.lookup task { name, tag, options })

theorem alert_begin (h : s.watch.Alert) {task : Option String} {i : Inquiry}
    {r : Session × List Event} (hr : s.begin task i = some r) : r.1.watch.Alert := by
  have hs : (s.optionsFor i).2.watch.Alert := by
    unfold optionsFor
    split
    · exact h
    · simpa only [watch_tokenNamed] using h
  exact alert_enter hs hr

theorem resting_await (h : s.watch.Alert) (task : Option String) (before : List Event) :
    (s.await task before).1.watch.Resting := by
  have hadvance (tick : Nat) : (s.settle.1.watch.advanceTo tick).Alert :=
    h.settle.alert.advanceTo tick
  simp only [await]
  split <;> exact (hadvance _).settle

/-- What a command leaves unfinished rests. -/
theorem resting_step (h : s.watch.Resting) (c : Command) : (s.step c).1.watch.Resting := by
  cases c with
  | act a => exact (alert_act h.alert a).settle
  | batch as => exact (alert_acts h.alert as).settle
  | lookup i =>
    simp only [step]
    split
    · exact h
    · next hr => exact resting_await (alert_begin h.alert hr) none _
  | start task i =>
    simp only [step]
    split
    · exact h
    · next hr => exact (alert_begin h.alert hr).settle
  | await task => exact resting_await h.alert (some task) []
  | advance ticks => exact (h.alert.advanceTo _).settle

theorem resting_run (h : s.watch.Resting) (cs : List Command) :
    (s.run cs).1.watch.Resting := by
  induction cs generalizing s with
  | nil => exact h
  | cons c cs ih => exact ih (resting_step h c)

end Discovery.Session
