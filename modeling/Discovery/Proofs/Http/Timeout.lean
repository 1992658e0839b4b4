import Discovery.Proofs.Http.Precedence
import Discovery.Proofs.Text.Decimal

/-!
# How long a request may take

A server may hold a request for the wait that it is sent and a sixteenth of that. The client limits
a request to the time for the wait that it has, a sixteenth of it, and its headroom: exactly
(`requestTimeout_eq_some_iff`), or not at all when this is no duration
(`requestTimeout_eq_none_iff`). The wait that is sent is the wait rounded down to milliseconds
(`waitMillis?_waitText`). So the limit never ends before the server must have replied
(`timeout_outlasts_wait`).
-/

namespace Discovery

/-! ## Durations as nanoseconds -/

namespace Duration

variable {a b d : Duration}

theorem toNanos_lt (d : Duration) : d.toNanos < secondsBound * nanosPerSecond := by
  have hseconds := d.seconds_lt
  have hnanos := d.nanos_lt
  simp only [toNanos, secondsBound, nanosPerSecond] at *
  omega

theorem toNanos_inj : a.toNanos = b.toNanos ↔ a = b := by
  refine ⟨fun h => ?_, congrArg toNanos⟩
  have ha := a.nanos_lt
  have hb := b.nanos_lt
  cases a
  cases b
  simp only [toNanos, nanosPerSecond, mk.injEq] at *
  omega

/-- What is too long for a duration, and nothing else, is none. -/
theorem exists_toNanos_eq_iff {n : Nat} :
    (∃ d : Duration, d.toNanos = n) ↔ n < secondsBound * nanosPerSecond := by
  refine ⟨fun ⟨d, hd⟩ => hd ▸ d.toNanos_lt, fun h => ?_⟩
  have hseconds : n / nanosPerSecond < secondsBound := Nat.div_lt_of_lt_mul (Nat.mul_comm .. ▸ h)
  exact ⟨⟨n / nanosPerSecond, n % nanosPerSecond, hseconds, Nat.mod_lt _ (by decide)⟩,
    Nat.div_add_mod' n nanosPerSecond⟩

theorem toMillis_eq (d : Duration) : d.toMillis = d.toNanos / 1000000 := by
  simp only [toMillis, toNanos, nanosPerSecond]
  omega

theorem toNanos_ofSeconds {n : Nat} (h : n < secondsBound) :
    (ofSeconds n).toNanos = n * nanosPerSecond := by
  have hparts : ofSeconds n = ⟨n, 0, h, by decide⟩ := dif_pos h
  rw [hparts]
  exact Nat.add_zero _

theorem toNanos_sixteenth (d : Duration) : d.sixteenth.toNanos = d.toNanos / 16 := by
  simp only [toNanos, sixteenth, nanosPerSecond]
  omega

/-- The seconds of a sum and its carry are too many exactly if all of it is too long. -/
theorem carried_lt_iff :
    a.seconds + b.seconds + (a.nanos + b.nanos) / nanosPerSecond < secondsBound ↔
      a.toNanos + b.toNanos < secondsBound * nanosPerSecond := by
  simp only [toNanos, secondsBound, nanosPerSecond]
  omega

theorem add?_eq_some_iff : a.add? b = some d ↔ d.toNanos = a.toNanos + b.toNanos := by
  by_cases h : a.seconds + b.seconds + (a.nanos + b.nanos) / nanosPerSecond < secondsBound
  · rw [add?, dif_pos h, Option.some_inj, ← toNanos_inj, eq_comm]
    simp only [toNanos, nanosPerSecond]
    omega
  · rw [add?, dif_neg h]
    rw [carried_lt_iff] at h
    have hd := d.toNanos_lt
    simp only [reduceCtorEq, false_iff]
    omega

/-- No step of dividing a duration by sixteen or of adding to it leaves its machine word: seconds
and what is left of them have 64 bits, nanoseconds 32. -/
structure StepsFit (d : Duration) : Prop where
  left : d.seconds % 16 * nanosPerSecond + d.nanos % 16 < UInt64.size
  divided : d.nanos / 16 + (d.seconds % 16 * nanosPerSecond + d.nanos % 16) / 16 < nanosPerSecond
  added : ∀ other : Duration, d.nanos + other.nanos < UInt32.size

theorem stepsFit (d : Duration) : d.StepsFit where
  left := by
    have hnanos := d.nanos_lt
    simp only [nanosPerSecond, UInt64.size] at *
    omega
  divided := d.sixteenth.nanos_lt
  added other := by
    have hnanos := d.nanos_lt
    have hother := other.nanos_lt
    simp only [nanosPerSecond, UInt32.size] at *
    omega

end Duration

namespace Http

open Url (formPairs)

variable {c : Client} {q : Lookup.Request} {settings : ServerSettings} {wait limit : Duration}
variable {fired : Bool} {replies : List Reply} {first : Sent} {later : List Sent}

/-! ## The wait that is sent -/

/-- The milliseconds of a wait that is given as a number of seconds or of milliseconds. -/
def waitMillis? (text : String) : Option Nat :=
  let digits := text.toList.takeWhile Char.isDigit
  let unit := text.toList.dropWhile Char.isDigit
  if digits = [] then none
  else if unit = ['s'] then (Text.readDigits 0 digits).map (· * 1000)
  else if unit = ['m', 's'] then Text.readDigits 0 digits
  else none

theorem waitMillis?_decimal_append (n : Nat) {unit : String}
    (hunit : unit.toList.takeWhile Char.isDigit = []) :
    waitMillis? (Text.decimal n ++ unit) =
      if unit.toList = ['s'] then some (n * 1000)
      else if unit.toList = ['m', 's'] then some n else none := by
  have hdigits : ∀ c ∈ Nat.toDigits 10 n, c.isDigit = true := fun c hc =>
    Nat.isDigit_of_mem_toDigits (by decide) (by decide) hc
  have hrest : unit.toList.dropWhile Char.isDigit = unit.toList := by
    have happend := List.takeWhile_append_dropWhile (p := Char.isDigit) (l := unit.toList)
    rwa [hunit, List.nil_append] at happend
  have htext : (Text.decimal n ++ unit).toList = Nat.toDigits 10 n ++ unit.toList := by
    rw [String.toList_append, Text.decimal, String.toList_ofList]
  simp only [waitMillis?, htext, List.takeWhile_append_of_pos hdigits,
    List.dropWhile_append_of_pos hdigits, hunit, hrest, List.append_nil,
    Nat.toDigits_ne_nil, if_false, Text.readDigits_toDigits, Option.map_some]

/-- The wait that is sent is the wait, rounded down to milliseconds. -/
theorem waitMillis?_waitText (wait : Duration) :
    waitMillis? (Client.waitText wait) = some wait.toMillis := by
  unfold Client.waitText
  split
  · next hmillis =>
    rw [waitMillis?_decimal_append _ (by decide), if_pos (by decide)]
    simp only [Duration.subMillis] at hmillis
    rw [Duration.toMillis, hmillis, Nat.add_zero]
  · rw [waitMillis?_decimal_append _ (by decide), if_neg (by decide), if_pos (by decide)]

/-! ## The limit of a request -/

/-- What a request with a wait may take, in nanoseconds. -/
def allowance (c : Client) (wait : Duration) : Nat :=
  wait.toNanos + wait.toNanos / 16 + c.headroom.toNanos

theorem requestTimeout_eq_some_iff :
    c.requestTimeout wait = some limit ↔ limit.toNanos = allowance c wait := by
  simp only [Client.requestTimeout, Option.bind_eq_some_iff, Duration.add?_eq_some_iff,
    Duration.toNanos_sixteenth, allowance]
  constructor
  · rintro ⟨spread, hspread, hlimit⟩
    rw [hlimit, hspread]
  · intro hlimit
    -- what is part of a duration is a duration
    have hlt := limit.toNanos_lt
    obtain ⟨spread, hspread⟩ : ∃ d : Duration, d.toNanos = wait.toNanos + wait.toNanos / 16 :=
      Duration.exists_toNanos_eq_iff.2 (by omega)
    exact ⟨spread, hspread, by rw [hlimit, hspread]⟩

theorem requestTimeout_eq_none_iff :
    c.requestTimeout wait = none ↔ secondsBound * nanosPerSecond ≤ allowance c wait := by
  rw [Option.eq_none_iff_forall_ne_some, ← Nat.not_lt, ← Duration.exists_toNanos_eq_iff, not_exists]
  exact forall_congr' fun limit => not_congr requestTimeout_eq_some_iff

theorem timeout?_eq (hwait : q.options.waitTime = some wait) :
    c.timeout? q = c.requestTimeout wait := by
  rw [Client.timeout?, hwait, Option.bind_some]

/-! ## The first request -/

/-- A server is told of one wait. -/
theorem readValues_wait [Tables] (hwait : q.options.waitTime = some wait)
    (hsent : (c.lookup fired q replies).sent = first :: later) :
    readValues first "wait" = [Text.utf8 (Client.waitText wait)] := by
  have hasked : (Client.parameters q).filter (fun p => p.1 = "wait") =
      Client.parameter "wait" (some (Client.waitText wait)) := by
    simp [Client.parameters, filter_parameter, hwait]
  exact readValues_of_lookup hsent hasked

/-- **The limit of a blocking query.** No step of finding it leaves its machine word. It is the time
for the wait, a sixteenth of it and the headroom, to the nanosecond, and missing exactly if that is
no duration. The first request tells the server one wait, the given one rounded down to
milliseconds, and the limit leaves time for that wait, all of its sixteenth and the headroom. -/
theorem timeout_outlasts_wait [Tables] (hclient : Client.ofSettings settings = .ok c)
    (hheadroom : settings.headroom < secondsBound) (wait : Duration) :
    let headroom := settings.headroom * nanosPerSecond
    let total := wait.toNanos + wait.toNanos / 16 + headroom
    let millis := wait.toNanos / 1000000
    (∀ d : Duration, d.StepsFit) ∧
    (c.requestTimeout wait = none ↔ secondsBound * nanosPerSecond ≤ total) ∧
    (∀ limit, c.requestTimeout wait = some limit ↔ limit.toNanos = total) ∧
    waitMillis? (Client.waitText wait) = some millis ∧ 16 ∣ millis * 1000000 ∧
    ∀ q, q.options.waitTime = some wait →
      (∀ fired replies first later, (c.lookup fired q replies).sent = first :: later →
        ∀ value, (Text.utf8 "wait", value) ∈ formPairs ((shownQuery (target first.url)).getD []) ↔
          value = Text.utf8 (Client.waitText wait)) ∧
      c.timeout? q = c.requestTimeout wait ∧
      ∀ limit, c.timeout? q = some limit →
        millis * 1000000 + millis * 1000000 / 16 + headroom ≤ limit.toNanos := by
  intro headroom total millis
  have htotal : allowance c wait = total := by
    rw [allowance, (ofSettings_eq_ok_iff.1 hclient).2.2, Duration.toNanos_ofSeconds hheadroom]
  have hmillis : wait.toMillis = millis := wait.toMillis_eq
  refine ⟨Duration.stepsFit, htotal ▸ requestTimeout_eq_none_iff,
    fun limit => htotal ▸ requestTimeout_eq_some_iff, hmillis ▸ waitMillis?_waitText wait,
    Nat.dvd_mul_left_of_dvd (by decide) millis, fun q hwait => ⟨?_, timeout?_eq hwait, ?_⟩⟩
  · intro fired replies first later hsent value
    rw [← mem_readValues_iff, readValues_wait hwait hsent, List.mem_singleton]
  · intro limit hlimit
    rw [timeout?_eq hwait, requestTimeout_eq_some_iff, htotal] at hlimit
    rw [hlimit]
    -- rounding down the wait rounds down its sixteenth
    have hheld : millis * 1000000 ≤ wait.toNanos := Nat.div_mul_le_self ..
    exact Nat.add_le_add_right (Nat.add_le_add hheld (Nat.div_le_div_right hheld)) headroom

/-- A wait of a second and almost two milliseconds. -/
theorem timeout_outlasts_wait_rounded :
    let wait : Duration := ⟨1, 1999999, by decide, by decide⟩
    let q : Lookup.Request := { name := "web", options := { waitTime := some wait } }
    Client.ofSettings {} = .ok usual ∧ 5 < secondsBound ∧
      usual.timeout? q = some ⟨6, 64624998, by decide, by decide⟩ ∧
      ∃ first later, (usual.lookup false q []).sent = first :: later ∧
        (Text.utf8 "wait", Text.utf8 "1001ms") ∈
          formPairs ((shownQuery (target first.url)).getD []) := by
  intro wait q
  have hclient : Client.ofSettings {} = .ok usual := by rfl
  obtain ⟨-, -, hlimit, -, -, hblocking⟩ := timeout_outlasts_wait hclient (by decide) wait
  obtain ⟨hread, htimeout, -⟩ := hblocking q rfl
  obtain ⟨first, later, hsent, -⟩ := lookup_sent (c := usual) rfl rfl rfl q []
  have htext : Client.waitText wait = "1001ms" := by decide
  refine ⟨hclient, by decide, ?_, first, later, hsent, ?_⟩
  · rw [htimeout]
    exact (hlimit _).2 (by decide)
  · exact (hread false [] first later hsent _).2 (htext ▸ rfl)

end Http

end Discovery
