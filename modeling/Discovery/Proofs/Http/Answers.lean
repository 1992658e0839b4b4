import Discovery.Proofs.Http.Redirects
import Discovery.Proofs.Service.Decoding

/-!
# What a lookup makes of the answer

The response that a lookup ends with is the one that leads to no other place (`Answers`). Only a
status of success with a whole body that is a list of instances, or null, lets the lookup find
instances; everything else is an error that says what was wrong (`lookup_tells`). So none are found
only if the catalog says that there are none.
-/

namespace Discovery.Http

open Json (Value Document)
open Service (IsServices)

variable {c : Client} {q : Lookup.Request} {s : Sent} {more : Nat} {reply : Reply}
  {replies : List Reply} {later : List Sent} {r : Response} {bytes : List UInt8} {v : Value}
  {xs : List Service} {found : Lookup.Found} {fault : Json.Fault}

theorem send_ne_ok {fault : Lookup.Transport} {token : Option String} {url : Url} :
    Exchange.send fault token more url ≠ .ended (.ok r) := by
  unfold Exchange.send
  split <;> nofun

theorem isSuccess_iff : r.isSuccess = true ↔ 200 ≤ r.code ∧ r.code < 300 := by
  simp [Response.isSuccess]

theorem isServices_nil_iff : IsServices v [] ↔ v = .null ∨ v = .array [] := by
  constructor
  · rintro (⟨rfl, -⟩ | ⟨vs, rfl, hall⟩)
    · exact .inl rfl
    · cases hall
      exact .inr rfl
  · rintro (rfl | rfl)
    · exact .inl ⟨rfl, rfl⟩
    · exact .inr ⟨[], rfl, .nil⟩

section
variable [Tables]

/-! ## The response at the end -/

/-- A response to one of the requests leads to no other place. -/
def Answers (sent : List Sent) (replies : List Reply) (r : Response) : Prop :=
  ∃ (n : Nat) (s : Sent), sent[n]? = some s ∧ replies[n]? = some (.response r) ∧
    (Reply.response r).leadsTo? s.url = none

theorem answers_cons_iff : Answers (s :: later) (reply :: replies) r ↔
    reply = .response r ∧ reply.leadsTo? s.url = none ∨ Answers later replies r := by
  constructor
  · rintro ⟨n, s', hs, hreply, hleads⟩
    cases n with
    | zero =>
      cases hs
      cases hreply
      exact .inl ⟨rfl, hleads⟩
    | succ n => exact .inr ⟨n, s', hs, hreply, hleads⟩
  · rintro (⟨rfl, hleads⟩ | ⟨n, s', hs, hreply, hleads⟩)
    · exact ⟨0, s, rfl, rfl, hleads⟩
    · exact ⟨n + 1, s', hs, hreply, hleads⟩

theorem not_answers_nil : ¬Answers [] replies r := by
  rintro ⟨n, s, hs, -⟩
  cases hs

/-- A response ends an exchange well exactly if it leads to no other place. -/
theorem receive_eq_ok_iff : (Exchange.asking s more).receive reply = .ended (.ok r) ↔
    reply = .response r ∧ reply.leadsTo? s.url = none := by
  cases reply with
  | broken => simp [Exchange.receive]
  | response r' =>
    simp only [Exchange.receive, Reply.leadsTo?]
    split
    · next h => simp [h]
    · next url h =>
      rw [h]
      cases more with
      | zero => simp
      | succ more => simp [send_ne_ok]

theorem run_eq_ok_iff : ((Exchange.asking s more).run replies).2 = .ended (.ok r) ↔
    Answers ((Exchange.asking s more).run replies).1 replies r := by
  induction replies generalizing s more with
  | nil => simp [Exchange.run, Answers]
  | cons reply replies ih =>
    have hlast : ((Exchange.asking s more).run (reply :: replies)).2 =
        (((Exchange.asking s more).receive reply).run replies).2 := rfl
    rw [hlast, run_cons, answers_cons_iff]
    cases hnext : (Exchange.asking s more).receive reply with
    | ended x =>
      have hended : ((Exchange.ended x).run replies) = ([], .ended x) := by
        cases replies <;> rfl
      rw [hended, ← receive_eq_ok_iff, hnext]
      simp [not_answers_nil]
    | asking s' more' =>
      obtain ⟨url, hleads, -⟩ := receive_eq_asking_iff.1 hnext
      rw [ih, hleads]
      simp

/-! ## Lookups -/

theorem result?_eq_ok_iff {x : Exchange} :
    Client.result? x = some (.ok found) ↔ ∃ r, x = .ended (.ok r) ∧ r.found = .ok found := by
  cases x with
  | asking s more => simp [Client.result?]
  | ended x => cases x <;> simp [Client.result?, Except.bind]

theorem result_of_answers (h : Answers (c.lookup false q replies).sent replies r) :
    (c.lookup false q replies).result = some r.found := by
  obtain ⟨e, hsent, -⟩ | ⟨url, -, -, -, hsent, hresult⟩ := lookup_cases c false q replies
  · rw [hsent] at h
    exact absurd h not_answers_nil
  · rw [hsent, ← run_eq_ok_iff] at h
    rw [hresult, h]
    rfl

theorem exists_answers (h : (c.lookup false q replies).result = some (.ok found)) :
    ∃ r, Answers (c.lookup false q replies).sent replies r ∧ r.found = .ok found := by
  obtain ⟨e, -, hresult⟩ | ⟨url, -, -, -, hsent, hresult⟩ := lookup_cases c false q replies
  · rw [hresult] at h
    cases h
  · rw [hresult, result?_eq_ok_iff] at h
    obtain ⟨r, hlast, hr⟩ := h
    exact ⟨r, hsent ▸ run_eq_ok_iff.1 hlast, hr⟩

/-! ## Responses -/

theorem found_of_not_success (h : ¬(200 ≤ r.code ∧ r.code < 300)) :
    ∃ text, r.found = .error (.status r.code text) := by
  rw [← isSuccess_iff] at h
  exact ⟨r.explanation, if_neg h⟩

theorem found_of_success (h : 200 ≤ r.code ∧ r.code < 300) : r.found =
    match r.body with
    | none => .error (.http .other)
    | some bytes =>
      match Service.listOfJson bytes with
      | .error fault => .error (.decode fault)
      | .ok services => .ok { services, status := status r.headers } :=
  if_pos (isSuccess_iff.2 h)

theorem found_of_isServices (h : 200 ≤ r.code ∧ r.code < 300) (hbody : r.body = some bytes)
    (hv : Document v bytes) (hxs : IsServices v xs) :
    r.found = .ok { services := xs, status := status r.headers } := by
  simp only [found_of_success h, hbody, Service.listOfJson_eq_ok_iff.2 ⟨v, hv, hxs⟩]

theorem found_of_not_isServices (h : 200 ≤ r.code ∧ r.code < 300) (hbody : r.body = some bytes)
    (hnone : ∀ v xs, Document v bytes → ¬IsServices v xs) :
    ∃ fault, r.found = .error (.decode fault) := by
  cases hlist : Service.listOfJson bytes with
  | error fault => exact ⟨fault, by simp only [found_of_success h, hbody, hlist]⟩
  | ok xs =>
    obtain ⟨v, hv, hxs⟩ := Service.listOfJson_eq_ok_iff.1 hlist
    exact absurd hxs (hnone v xs hv)

theorem found_eq_ok_iff : r.found = .ok found ↔ (200 ≤ r.code ∧ r.code < 300) ∧
    ∃ bytes v, r.body = some bytes ∧ Document v bytes ∧ IsServices v found.services ∧
      found.status = status r.headers := by
  constructor
  · intro h
    by_cases hcode : 200 ≤ r.code ∧ r.code < 300
    · rw [found_of_success hcode] at h
      cases hbody : r.body with
      | none =>
        rw [hbody] at h
        cases h
      | some bytes =>
        cases hlist : Service.listOfJson bytes with
        | error fault =>
          simp only [hbody, hlist] at h
          cases h
        | ok xs =>
          simp only [hbody, hlist] at h
          cases h
          obtain ⟨v, hv, hxs⟩ := Service.listOfJson_eq_ok_iff.1 hlist
          exact ⟨hcode, bytes, v, rfl, hv, hxs, rfl⟩
    · obtain ⟨text, htext⟩ := found_of_not_success hcode
      rw [htext] at h
      cases h
  · rintro ⟨hcode, bytes, v, hbody, hv, hxs, hstatus⟩
    rw [found_of_isServices hcode hbody hv hxs, ← hstatus]

/-- **What a lookup makes of the answer.** It finds instances exactly if a response leads to no
other place, has a status of success and a body that came whole and is the text of null or of a list
of instances; those are found, in the order of the text, and none only for null and the empty list.
Without success the error tells the status, whatever the body is; a body that is missing or anything
else is an error too. Headers never make an error of what is found: they tell the status of the
catalog. The text of an error that tells the status of the response is left open. -/
theorem lookup_tells (c : Client) (q : Lookup.Request) (replies : List Reply) :
    let course := c.lookup false q replies
    (∀ found, course.result = some (.ok found) ↔ ∃ r, Answers course.sent replies r ∧
      (200 ≤ r.code ∧ r.code < 300) ∧ ∃ bytes v, r.body = some bytes ∧ Document v bytes ∧
        IsServices v found.services ∧ found.status = status r.headers) ∧
    (∀ v, IsServices v [] ↔ v = .null ∨ v = .array []) ∧
    ∀ r, Answers course.sent replies r →
      (¬(200 ≤ r.code ∧ r.code < 300) →
        ∃ text, course.result = some (.error (.status r.code text))) ∧
      (200 ≤ r.code ∧ r.code < 300 → r.body = none →
        course.result = some (.error (.http .other))) ∧
      ∀ bytes, 200 ≤ r.code ∧ r.code < 300 → r.body = some bytes →
        (∀ v xs, Document v bytes → IsServices v xs →
          course.result = some (.ok { services := xs, status := status r.headers })) ∧
        ((∀ v xs, Document v bytes → ¬IsServices v xs) →
          ∃ fault, course.result = some (.error (.decode fault))) := by
  intro course
  refine ⟨fun found => ⟨fun h => ?_, ?_⟩, fun v => isServices_nil_iff, fun r hr => ?_⟩
  · obtain ⟨r, hr, hfound⟩ := exists_answers h
    exact ⟨r, hr, found_eq_ok_iff.1 hfound⟩
  · rintro ⟨r, hr, hfound⟩
    exact (result_of_answers hr).trans (congrArg some (found_eq_ok_iff.2 hfound))
  · have hresult : course.result = some r.found := result_of_answers hr
    refine ⟨fun hcode => ?_, fun hcode hbody => ?_, fun bytes hcode hbody => ⟨?_, fun hnone => ?_⟩⟩
    · obtain ⟨text, htext⟩ := found_of_not_success hcode
      exact ⟨text, by rw [hresult, htext]⟩
    · rw [hresult, found_of_success hcode, hbody]
    · intro v xs hv hxs
      rw [hresult, found_of_isServices hcode hbody hv hxs]
    · obtain ⟨fault, hfault⟩ := found_of_not_isServices hcode hbody hnone
      exact ⟨fault, by rw [hresult, hfault]⟩

end

theorem answers_first {code : Nat} {body : Option (List UInt8)}
    (hcode : code ∉ [301, 302, 303, 307, 308]) (q : Lookup.Request) :
    Answers (usual.lookup false q [.response { code, body }]).sent [.response { code, body }]
      { code, body } := by
  obtain ⟨first, later, hsent, -⟩ := lookup_sent (c := usual) rfl rfl rfl q
    [.response { code, body }]
  refine ⟨0, first, by rw [hsent]; rfl, rfl, ?_⟩
  have hredirect : Response.isRedirect { code, body } = false := by
    simpa [Response.isRedirect] using hcode
  simp only [Reply.leadsTo?, hredirect]
  rfl

/-- A list with a status that is no success, and null with one that is. -/
theorem lookup_tells_null :
    (∃ text, (usual.lookup false { name := "web" }
      [.response { code := 500, body := some (Text.utf8 "[]") }]).result =
        some (.error (.status 500 text))) ∧
    (usual.lookup false { name := "web" }
      [.response { code := 200, body := some (Text.utf8 "null ") }]).result =
        some (.ok { services := [], status := {} }) := by
  have hnull : Document .null (Text.utf8 "null ") := ⟨[0x20], .scalar .null rfl, rfl⟩
  have hrefused := (lookup_tells usual { name := "web" }
    [.response { code := 500, body := some (Text.utf8 "[]") }]).2.2 _ (answers_first (by decide) _)
  have hfound := (lookup_tells usual { name := "web" }
    [.response { code := 200, body := some (Text.utf8 "null ") }]).2.2 _
      (answers_first (by decide) _)
  exact ⟨hrefused.1 (by decide), (hfound.2.2 _ (by decide) rfl).1 .null [] hnull (.inl ⟨rfl, rfl⟩)⟩

/-- The text of an error is read in the encoding that the response names. -/
example : Response.found {
    code := 500, body := some [0x45, 0x72, 0xE9]
    headers := [{ name := "content-type", value := Text.utf8 "text/plain; charset=iso-8859-1" }] } =
      .error (.status 500 "Eré") := by rfl

/-- Bytes that are no text, under a key that is skipped, do not keep a list from being found. A
redirect past the limit is no status that is told. -/
theorem lookup_finds_in_no_text :
    let bytes : List UInt8 := [0x5B, 0x7B, 0x22, 0x78, 0x22, 0x3A, 0x22, 0xFF, 0x22, 0x7D, 0x5D]
    let moved : Reply := .response {
      code := 302, headers := [{ name := "Location", value := Text.utf8 "/" }], body := some [] }
    (∀ text, Text.utf8 text ≠ bytes) ∧
      (usual.lookup false { name := "web" }
        [.response { code := 200, body := some bytes }]).result =
          some (.ok { services := [{}], status := {} }) ∧
      (usual.lookup false { name := "web" } (List.replicate 10 moved)).sent.length = 10 ∧
      (usual.lookup false { name := "web" } (List.replicate 10 moved)).result =
        some (.error (.http .redirect)) := by
  intro bytes moved
  refine ⟨fun text htext => ?_, ?_, by rfl, by rfl⟩
  · have hread := Text.ofUtf8?_utf8 text
    rw [htext] at hread
    cases hread
  · let unknown : List UInt8 × Value := (Text.utf8 "x", .string [0xFF])
    have hx : Json.Denotes (Text.utf8 "x") "x" := Json.denotes_utf8 rfl
    have hbyte : Json.IsContent [0xFF] := .plain (by decide) .nil
    have hbytes : Document (.array [.object [unknown]]) bytes :=
      ⟨[], .array rfl (.object rfl ⟨hx.isContent, _, rfl, rfl⟩ (.scalar (.string hbyte) rfl)
        (.noMember rfl)) (.noElement rfl), rfl⟩
    have hnot : ∀ f, ¬Service.Names unknown f := by
      rintro (_ | _) hf <;> exact absurd (Service.eq_of_denotes hx hf) (by decide)
    have hmembers : Service.OfMembers [unknown] {} := Service.continues_default_iff.1
      ((Service.continues_cons_of_not_names ⟨"x", hx⟩ hnot).2 (Service.continues_nil_iff.2 rfl))
    rw [result_of_answers (answers_first (by decide) _),
      found_of_isServices (by decide) rfl hbytes (.inr ⟨_, rfl, .cons (.object hmembers) .nil⟩)]
    rfl

end Discovery.Http
