import Discovery.Lookup.Fetch

/-!
# Cancelling a fetch

Whatever the client does in its steps and whenever the stop signal fires, one law says how the fetch
ends (`fetch_ends_iff`). It is stated by the places of the steps: the signal counts if it has fired
by the beginning of a step that the client, left alone, would come to (`Cancels`); otherwise the
fetch ends as the client does (`Answers`), even if the signal fires during its last step.
-/

namespace Discovery.Lookup

variable {q : Query} {stop : Token} {fired : Bool} {options : Options}
variable {p : Poll} {steps : List Poll} {i : Nat} {r : Except ClientError Found}

/-- Nothing keeps the client from step `i`: it has not ended before. -/
def Begins (steps : List Poll) (i : Nat) : Prop :=
  i < steps.length ∧ ∀ p ∈ steps.take i, p.outcome = none

/-- The client ends in step `i` with a result. -/
def EndsIn (steps : List Poll) (i : Nat) (r : Except ClientError Found) : Prop :=
  Begins steps i ∧ ∃ p, steps[i]? = some p ∧ p.outcome = some r

/-- The signal fires before step `i` begins, between or during the steps before it. -/
def FiresBy (steps : List Poll) (i : Nat) : Prop :=
  (∃ p ∈ steps.take i, p.firesBefore = true ∨ p.firesWithin = true) ∨
    ∃ p, steps[i]? = some p ∧ p.firesBefore = true

theorem begins_zero (p : Poll) (steps : List Poll) : Begins (p :: steps) 0 := by
  simp [Begins]

theorem begins_succ : Begins (p :: steps) (i + 1) ↔ p.outcome = none ∧ Begins steps i := by
  simp [Begins, and_left_comm]

theorem endsIn_zero : EndsIn (p :: steps) 0 r ↔ p.outcome = some r := by
  simp [EndsIn, begins_zero]

theorem endsIn_succ : EndsIn (p :: steps) (i + 1) r ↔ p.outcome = none ∧ EndsIn steps i r := by
  simp [EndsIn, begins_succ, and_assoc]

theorem firesBy_zero : FiresBy (p :: steps) 0 ↔ p.firesBefore = true := by
  simp [FiresBy]

theorem firesBy_succ : FiresBy (p :: steps) (i + 1) ↔
    p.firesBefore = true ∨ p.firesWithin = true ∨ FiresBy steps i := by
  simp [FiresBy, or_assoc]

/-- The signal, which may have fired before all steps, has fired by the beginning of one. -/
def Cancels (fired : Bool) (steps : List Poll) : Prop :=
  ∃ i, Begins steps i ∧ (fired = true ∨ FiresBy steps i)

/-- The client ends with a result in a step by whose beginning the signal has not fired. -/
def Answers (fired : Bool) (steps : List Poll) (r : Except ClientError Found) : Prop :=
  ∃ i, EndsIn steps i r ∧ ¬(fired = true ∨ FiresBy steps i)

theorem not_cancels_nil : ¬Cancels fired [] := by
  rintro ⟨i, ⟨hi, -⟩, -⟩
  exact Nat.not_lt_zero i hi

theorem not_answers_nil : ¬Answers fired [] r := by
  rintro ⟨i, ⟨⟨hi, -⟩, -⟩, -⟩
  exact Nat.not_lt_zero i hi

theorem cancels_cons : Cancels fired (p :: steps) ↔
    fired = true ∨ p.firesBefore = true ∨ p.outcome = none ∧ Cancels p.firesWithin steps := by
  constructor
  · rintro ⟨_ | i, hbegins, hfired⟩
    · rw [firesBy_zero] at hfired
      exact hfired.imp_right .inl
    · rw [begins_succ] at hbegins
      rw [firesBy_succ] at hfired
      obtain h | h | h := hfired
      · exact .inl h
      · exact .inr (.inl h)
      · exact .inr (.inr ⟨hbegins.1, i, hbegins.2, h⟩)
  · rintro (h | h | ⟨hnone, i, hbegins, h⟩)
    · exact ⟨0, begins_zero p steps, .inl h⟩
    · exact ⟨0, begins_zero p steps, .inr (firesBy_zero.2 h)⟩
    · exact ⟨i + 1, begins_succ.2 ⟨hnone, hbegins⟩, .inr (firesBy_succ.2 (.inr h))⟩

theorem answers_cons : Answers fired (p :: steps) r ↔
    ¬(fired = true ∨ p.firesBefore = true) ∧
      (p.outcome = some r ∨ p.outcome = none ∧ Answers p.firesWithin steps r) := by
  constructor
  · rintro ⟨_ | i, hends, hfired⟩
    · rw [endsIn_zero] at hends
      rw [firesBy_zero] at hfired
      exact ⟨hfired, .inl hends⟩
    · rw [endsIn_succ] at hends
      rw [firesBy_succ] at hfired
      simp only [not_or] at hfired ⊢
      obtain ⟨hnot, hbefore, hwithin, hsteps⟩ := hfired
      exact ⟨⟨hnot, hbefore⟩, .inr ⟨hends.1, i, hends.2, not_or.2 ⟨hwithin, hsteps⟩⟩⟩
  · rintro ⟨hfired, hends | ⟨hnone, i, hends, hrest⟩⟩
    · exact ⟨0, endsIn_zero.2 hends, by rwa [firesBy_zero]⟩
    · refine ⟨i + 1, endsIn_succ.2 ⟨hnone, hends⟩, ?_⟩
      rw [firesBy_succ]
      simp only [not_or] at hfired hrest ⊢
      exact ⟨hfired.1, hfired.2, hrest.1, hrest.2⟩

/-- A step by whose beginning the signal has fired ends the fetch, and otherwise the client does. -/
theorem follow_result_eq_some_iff {result : Except FetchError Found} :
    (follow q fired steps).result = some result ↔
      Cancels fired steps ∧ stopped q = result ∨
        ∃ r, Answers fired steps r ∧ conclude q r = result := by
  -- what fires within a step counts for the next one, so `fired` changes along the way
  induction steps generalizing fired with
  | nil => simp [follow, not_cancels_nil, not_answers_nil]
  | cons p steps ih =>
    simp only [cancels_cons, answers_cons]
    by_cases hfired : fired = true ∨ p.firesBefore = true
    · have hfollow : (follow q fired (p :: steps)).result = some (stopped q) := by
        simp [follow, hfired]
      simp [hfollow, hfired, ← or_assoc]
    · cases houtcome : p.outcome with
      | some r =>
        have hfollow : (follow q fired (p :: steps)).result = some (conclude q r) := by
          simp [follow, hfired, houtcome]
        simp [hfollow, hfired]
      | none =>
        have hfollow : follow q fired (p :: steps) = follow q p.firesWithin steps := by
          simp [follow, hfired, houtcome]
        simp [hfollow, hfired, ← or_assoc, ih]

/-- What the client ended with is the result, unless the signal had fired by the beginning of its
last step. -/
theorem EndsIn.cancels_or_answers (h : EndsIn steps i r) :
    Cancels false steps ∨ Answers false steps r := by
  by_cases hfires : FiresBy steps i
  · exact .inl ⟨i, h.1, .inr hfires⟩
  · exact .inr ⟨i, h, by simpa using hfires⟩

/-! ## Results -/

theorem conclude_error {e : ClientError} (he : e ≠ .cancelled) :
    conclude q (.error e) = .error (.catalog q.canonical e) := by
  cases e with
  | cancelled => exact absurd rfl he
  | _ => rfl

theorem conclude_eq_cancelled_iff {text : String} :
    conclude q r = .error (.cancelled text) ↔ r = .error .cancelled ∧ text = q.canonical := by
  cases r with
  | ok found => simp [conclude]
  | error e =>
    by_cases he : e = .cancelled
    · simp [he, conclude, stopped, eq_comm]
    · simp [he, conclude_error he]

theorem conclude_eq_ok_iff {found : Found} : conclude q r = .ok found ↔
    ∃ answer, r = .ok answer ∧
      found = { answer with services := Service.sort answer.services } := by
  cases r with
  | ok answer => simp [conclude, eq_comm]
  | error e =>
    by_cases he : e = .cancelled
    · simp [he, conclude, stopped]
    · simp [conclude_error he]

theorem conclude_eq_catalog_iff {text : String} {e : ClientError} :
    conclude q r = .error (.catalog text e) ↔
      r = .error e ∧ e ≠ .cancelled ∧ text = q.canonical := by
  cases r with
  | ok found => simp [conclude]
  | error e' =>
    by_cases he : e' = .cancelled
    · subst he
      simp only [conclude, stopped, Except.error.injEq, reduceCtorEq, false_iff, not_and]
      exact fun h hne => absurd h.symm hne
    · simp only [conclude_error he, Except.error.injEq, FetchError.catalog.injEq]
      constructor
      · rintro ⟨rfl, rfl⟩
        exact ⟨rfl, he, rfl⟩
      · rintro ⟨rfl, -, rfl⟩
        exact ⟨rfl, rfl⟩

section
variable {client : Request → List Poll}

theorem fetch_result_eq_some_iff {result : Except FetchError Found} :
    (fetch q stop fired options client).progress.result = some result ↔
      (fired = true ∨ Cancels false (client (requestFor q stop options))) ∧ stopped q = result ∨
        fired = false ∧
          ∃ r, Answers false (client (requestFor q stop options)) r ∧ conclude q r = result := by
  cases fired with
  | true => simp [fetch]
  | false => simp [fetch, follow_result_eq_some_iff]

theorem fetch_cancelled_iff {text : String} :
    (fetch q stop fired options client).progress.result = some (.error (.cancelled text)) ↔
      text = q.canonical ∧ (fired = true ∨ Cancels false (client (requestFor q stop options)) ∨
        ∃ i, EndsIn (client (requestFor q stop options)) i (.error .cancelled)) := by
  simp only [fetch_result_eq_some_iff, conclude_eq_cancelled_iff, stopped, Except.error.injEq,
    FetchError.cancelled.injEq]
  constructor
  · rintro (⟨hfires, rfl⟩ | ⟨-, _, ⟨i, hends, -⟩, rfl, rfl⟩)
    · exact ⟨rfl, hfires.imp_right .inl⟩
    · exact ⟨rfl, .inr (.inr ⟨i, hends⟩)⟩
  · rintro ⟨rfl, hfired | hcancels | ⟨i, hends⟩⟩
    · exact .inl ⟨.inl hfired, rfl⟩
    · exact .inl ⟨.inr hcancels, rfl⟩
    · obtain hcancels | hanswers := hends.cancels_or_answers
      · exact .inl ⟨.inr hcancels, rfl⟩
      · cases fired with
        | true => exact .inl ⟨.inl rfl, rfl⟩
        | false => exact .inr ⟨rfl, _, hanswers, rfl, rfl⟩

theorem fetch_ok_iff {found : Found} :
    (fetch q stop fired options client).progress.result = some (.ok found) ↔ fired = false ∧
      ∃ answer, Answers false (client (requestFor q stop options)) (.ok answer) ∧
        found = { answer with services := Service.sort answer.services } := by
  simp only [fetch_result_eq_some_iff, conclude_eq_ok_iff, stopped, reduceCtorEq, and_false,
    false_or]
  constructor
  · rintro ⟨hfired, _, hanswers, answer, rfl, rfl⟩
    exact ⟨hfired, answer, hanswers, rfl⟩
  · rintro ⟨hfired, answer, hanswers, rfl⟩
    exact ⟨hfired, _, hanswers, answer, rfl, rfl⟩

theorem fetch_catalog_iff {text : String} {e : ClientError} :
    (fetch q stop fired options client).progress.result = some (.error (.catalog text e)) ↔
      text = q.canonical ∧ fired = false ∧ e ≠ .cancelled ∧
        Answers false (client (requestFor q stop options)) (.error e) := by
  simp only [fetch_result_eq_some_iff, conclude_eq_catalog_iff, stopped, Except.error.injEq,
    reduceCtorEq, and_false, false_or]
  constructor
  · rintro ⟨hfired, _, hanswers, rfl, he, rfl⟩
    exact ⟨rfl, hfired, he, hanswers⟩
  · rintro ⟨rfl, hfired, he, hanswers⟩
    exact ⟨hfired, _, hanswers, rfl, he, rfl⟩

/-- A fetch has ended once the signal stops it or the client has ended. -/
theorem fetch_ended_iff : (fetch q stop fired options client).progress.result ≠ none ↔
    fired = true ∨ Cancels false (client (requestFor q stop options)) ∨
      ∃ i r, EndsIn (client (requestFor q stop options)) i r := by
  simp only [Option.ne_none_iff_exists', fetch_result_eq_some_iff]
  constructor
  · rintro ⟨_, ⟨hfires, rfl⟩ | ⟨-, r, ⟨i, hends, -⟩, rfl⟩⟩
    · exact hfires.imp_right .inl
    · exact .inr (.inr ⟨i, r, hends⟩)
  · rintro (hfired | hcancels | ⟨i, r, hends⟩)
    · exact ⟨_, .inl ⟨.inl hfired, rfl⟩⟩
    · exact ⟨_, .inl ⟨.inr hcancels, rfl⟩⟩
    · obtain hcancels | hanswers := hends.cancels_or_answers
      · exact ⟨_, .inl ⟨.inr hcancels, rfl⟩⟩
      · cases fired with
        | true => exact ⟨_, .inl ⟨.inl rfl, rfl⟩⟩
        | false => exact ⟨_, .inr ⟨rfl, r, hanswers, rfl⟩⟩

end

/-- **How a fetch ends.** The client is called once, unless the signal had fired before. The fetch
is cancelled exactly if the signal has fired before it or by the beginning of a step that the client
comes to, or if the client itself ends so; in all other cases it ends when the client does, with its
answer put in order or with its error. Each failure names the query by its canonical form. -/
theorem fetch_ends_iff (q : Query) (stop : Token) (fired : Bool) (options : Options)
    (client : Request → List Poll) :
    let request := requestFor q stop options
    let steps := client request
    let run := fetch q stop fired options client
    run.calls = (if fired then [] else [request]) ∧
    (∀ text, run.progress.result = some (.error (.cancelled text)) ↔ text = q.canonical ∧
      (fired = true ∨ (∃ i, Begins steps i ∧ FiresBy steps i) ∨
        ∃ i, EndsIn steps i (.error .cancelled))) ∧
    (∀ found, run.progress.result = some (.ok found) ↔ fired = false ∧
      ∃ i answer, EndsIn steps i (.ok answer) ∧ ¬FiresBy steps i ∧
        found = { answer with services := Service.sort answer.services }) ∧
    (∀ text e, run.progress.result = some (.error (.catalog text e)) ↔ text = q.canonical ∧
      fired = false ∧ e ≠ .cancelled ∧ ∃ i, EndsIn steps i (.error e) ∧ ¬FiresBy steps i) ∧
    (run.progress.result ≠ none ↔
      fired = true ∨ (∃ i, Begins steps i ∧ FiresBy steps i) ∨ ∃ i r, EndsIn steps i r) := by
  intro request steps run
  have hcancels : (∃ i, Begins steps i ∧ FiresBy steps i) ↔ Cancels false steps := by
    simp [Cancels]
  have hanswers (r : Except ClientError Found) :
      (∃ i, EndsIn steps i r ∧ ¬FiresBy steps i) ↔ Answers false steps r := by
    simp [Answers]
  refine ⟨?_, fun text => ?_, fun found => ?_, fun text e => ?_, ?_⟩
  · cases fired <;> rfl
  · rw [hcancels]
    exact fetch_cancelled_iff
  · rw [exists_comm]
    simp only [← and_assoc, exists_and_right, hanswers]
    exact fetch_ok_iff
  · rw [hanswers]
    exact fetch_catalog_iff
  · rw [hcancels]
    exact fetch_ended_iff

/-- A client that fires the signal itself: what it answers in that step still counts. -/
example (found : Found) :
    (follow q false [{}, { firesWithin := true, outcome := some (.ok found) }]).result =
      some (.ok { found with services := Service.sort found.services }) := rfl

end Discovery.Lookup
