import Discovery.Http.Request
import Discovery.Proofs.Http.Path

/-!
# Where the token goes

A redirect names the place of the next request, and that request carries the token too, whichever
server it is made to. So the token stays with the server of the settings exactly as long as no
redirect that is followed leads to another one (`lookup_confined_iff`). A redirect that names no
server does not (`server_of_leadsTo`), any other may.
-/

namespace Discovery

namespace Url

/-- What connections are made to: the server that a URL addresses. -/
structure Server where
  scheme : String
  host : Option Host
  port : Option Nat
  deriving DecidableEq

def server (u : Url) : Server where
  scheme := u.scheme
  host := u.host
  port := u.port.or (defaultPort? u.scheme)

/-- A reference that names no server: it has no scheme and does not begin with two slashes. -/
def IsLocal (reference : String) : Prop :=
  cutScheme (significant reference) = none ∧
    ∀ a b rest, significant reference = a :: b :: rest → ¬(isSlash true a ∧ isSlash true b)

theorem isSlash_of_special {special : Bool} {a : Char} (h : isSlash special a = true) :
    isSlash true a = true := by
  cases special with
  | true => exact h
  | false =>
    rw [isSlash, Bool.false_and, Bool.or_false] at h
    rw [isSlash, h, Bool.true_or]

theorem server_of_readReference [Tables] {base url : Url} {segments : List String} {cs : List Char}
    (hslashes : ∀ a b rest, cs = a :: b :: rest → ¬(isSlash true a ∧ isSlash true b))
    (h : readReference base segments cs = .ok url) : url.server = base.server := by
  unfold readReference at h
  extract_lets special at h
  split at h
  · cases h
    rfl
  · cases h
    rfl
  · cases h
    rfl
  · exact absurd ⟨by decide, by decide⟩ (hslashes _ _ _ rfl)
  · next c rest _ _ _ =>
    split at h
    · next hc =>
      split at h
      · next hrest =>
        cases rest with
        | nil => cases hrest
        | cons d rest =>
          exact absurd ⟨isSlash_of_special hc, isSlash_of_special hrest⟩ (hslashes _ _ _ rfl)
      · cases h
        rfl
    · cases h
      rfl

/-- A reference that names no server leads to the one that it is read from. -/
theorem server_of_join [Tables] {base url : Url} {reference : String} (hlocal : IsLocal reference)
    (h : base.join reference = .ok url) : url.server = base.server := by
  unfold join at h
  simp only [hlocal.1] at h
  split at h
  · exact server_of_readReference hlocal.2 h
  · split at h
    · cases h
      rfl
    · cases h

end Url

theorem toOption_eq_some_iff {ε α : Type} {x : Except ε α} {a : α} :
    x.toOption = some a ↔ x = .ok a := by
  cases x <;> simp [Except.toOption]

namespace Http

variable {c : Client} {q : Lookup.Request} {settings : ServerSettings} {token : String}
variable {s s' : Sent} {more more' n : Nat} {reply : Reply} {replies : List Reply} {url base : Url}

/-! ## Requests -/

theorem token_mem_headers_iff : (tokenHeader, token) ∈ s.headers ↔ s.token = some token := by
  cases hs : s.token <;> simp [Sent.headers, hs, tokenHeader, eq_comm]

theorem server_requested_of_serviceUrl (hurl : c.serviceUrl q = .ok url) :
    url.requested.server = c.base.server := by
  obtain ⟨-, rfl⟩ := serviceUrl_eq_ok_iff.1 hurl
  rfl

theorem send_eq_asking_iff {fault : Lookup.Transport} {token : Option String} :
    Exchange.send fault token more url = .asking s more' ↔
      isAskable url.scheme = true ∧ s = { url := url.requested, token } ∧ more' = more := by
  unfold Exchange.send
  split
  · next h => simp [h, eq_comm]
  · next h => simp [h]

/-- A client begins an exchange with a request, or ends it with an error. -/
theorem startAt_cases (c : Client) (url : Url) :
    (∃ e, c.startAt url = .ended (.error e)) ∨
      c.token.all Client.isHeaderText = true ∧ isAskable url.scheme = true ∧
        c.startAt url =
          .asking { url := url.requested, token := c.token } (requestLimit - 1) := by
  unfold Client.startAt
  split
  · next htoken =>
    unfold Exchange.start Exchange.send
    split
    · next hscheme => exact .inr ⟨htoken, hscheme, rfl⟩
    · exact .inl ⟨_, rfl⟩
  · exact .inl ⟨_, rfl⟩

section
variable [Tables]

/-! ## Exchanges -/

/-- Where a reply sends a client on to from a URL. -/
def Reply.leadsTo? (base : Url) : Reply → Option Url
  | .response r => if r.isRedirect then r.location? base else none
  | .broken => none

/-- The reply to request `n` sends the client on to a URL at which another request can be made. -/
def SendsOn (sent : List Sent) (replies : List Reply) (n : Nat) (url : Url) : Prop :=
  ∃ s reply, sent[n]? = some s ∧ replies[n]? = some reply ∧ reply.leadsTo? s.url = some url ∧
    isAskable url.scheme = true

/-- When and how a reply makes the client send another request. -/
theorem receive_eq_asking_iff : (Exchange.asking s more).receive reply = .asking s' more' ↔
    ∃ url, reply.leadsTo? s.url = some url ∧ isAskable url.scheme = true ∧
      s' = { url := url.requested, token := s.token } ∧ more = more' + 1 := by
  cases reply with
  | broken => simp [Exchange.receive, Reply.leadsTo?]
  | response r =>
    simp only [Exchange.receive, Reply.leadsTo?]
    split
    · next h => simp [h]
    · next url h =>
      rw [h]
      cases more with
      | zero => simp
      | succ more =>
        rw [send_eq_asking_iff]
        constructor
        · rintro ⟨hscheme, hs, rfl⟩
          exact ⟨url, rfl, hscheme, hs, rfl⟩
        · rintro ⟨_, ⟨⟩, hscheme, hs, ⟨⟩⟩
          exact ⟨hscheme, hs, rfl⟩

theorem run_cons (s : Sent) (more : Nat) (reply : Reply) (replies : List Reply) :
    ((Exchange.asking s more).run (reply :: replies)).1 =
      s :: (((Exchange.asking s more).receive reply).run replies).1 :=
  rfl

theorem run_ended (r : Except Lookup.ClientError Response) (replies : List Reply) :
    ((Exchange.ended r).run replies).1 = [] := by
  cases replies <;> rfl

/-- Every request of an exchange carries what the first does. -/
theorem token_of_mem_run (h : s' ∈ ((Exchange.asking s more).run replies).1) :
    s'.token = s.token := by
  induction replies generalizing s more with
  | nil => rw [List.mem_singleton.1 h]
  | cons reply replies ih =>
    rw [run_cons] at h
    obtain rfl | h := List.mem_cons.1 h
    · rfl
    · cases hnext : (Exchange.asking s more).receive reply with
      | ended r =>
        rw [hnext, run_ended] at h
        cases h
      | asking s₁ more₁ =>
        rw [hnext] at h
        obtain ⟨url, -, -, hs₁, -⟩ := receive_eq_asking_iff.1 hnext
        rw [ih h, hs₁]

theorem sendsOn_zero {later : List Sent} : SendsOn (s :: later) (reply :: replies) 0 url ↔
    reply.leadsTo? s.url = some url ∧ isAskable url.scheme = true := by
  simp [SendsOn]

theorem sendsOn_succ {later : List Sent} :
    SendsOn (s :: later) (reply :: replies) (n + 1) url ↔ SendsOn later replies n url := by
  simp [SendsOn]

theorem getElem?_run_zero (s : Sent) (more : Nat) (replies : List Reply) :
    ((Exchange.asking s more).run replies).1[0]? = some s := by
  obtain ⟨later, hlater⟩ := run_asking s more replies
  rw [hlater]
  rfl

/-- The requests behind the first are those that replies send the client on to. -/
theorem getElem?_run_succ :
    ((Exchange.asking s more).run replies).1[n + 1]? = some s' ↔ n < more ∧
      ∃ url, SendsOn ((Exchange.asking s more).run replies).1 replies n url ∧
        s' = { url := url.requested, token := s.token } := by
  induction replies generalizing s more n with
  | nil => simp [Exchange.run, SendsOn]
  | cons reply replies ih =>
    rw [run_cons, List.getElem?_cons_succ]
    cases hnext : (Exchange.asking s more).receive reply with
    | ended r =>
      rw [run_ended]
      refine iff_of_false (by simp) ?_
      rintro ⟨hn, url, hsends, -⟩
      cases n with
      | zero =>
        obtain ⟨hleads, hscheme⟩ := sendsOn_zero.1 hsends
        obtain ⟨more₁, hmore⟩ : ∃ more₁, more = more₁ + 1 := ⟨more - 1, by omega⟩
        rw [receive_eq_asking_iff.2 ⟨url, hleads, hscheme, rfl, hmore⟩] at hnext
        cases hnext
      | succ n => simp [SendsOn] at hsends
    | asking s₁ more₁ =>
      obtain ⟨url, hleads, hscheme, hs₁, rfl⟩ := receive_eq_asking_iff.1 hnext
      cases n with
      | zero =>
        rw [getElem?_run_zero]
        constructor
        · rintro ⟨⟩
          exact ⟨Nat.succ_pos _, url, sendsOn_zero.2 ⟨hleads, hscheme⟩, hs₁⟩
        · rintro ⟨-, url', hsends, rfl⟩
          cases hleads.symm.trans (sendsOn_zero.1 hsends).1
          rw [hs₁]
      | succ n =>
        rw [ih, hs₁]
        simp [sendsOn_succ]

/-! ## Servers -/

/-- Whether a reply, if it is a redirect, names no server. -/
def Reply.IsLocal : Reply → Prop
  | .response r =>
    ∀ reference, (value? r.headers "Location").bind Text.ofUtf8? = some reference →
      Url.IsLocal reference
  | .broken => True

theorem server_of_leadsTo (hlocal : reply.IsLocal) (h : reply.leadsTo? base = some url) :
    url.server = base.server := by
  cases reply with
  | broken => cases h
  | response r =>
    simp only [Reply.leadsTo?] at h
    split at h
    · obtain ⟨bytes, hbytes, h⟩ := Option.bind_eq_some_iff.1 h
      obtain ⟨reference, href, h⟩ := Option.bind_eq_some_iff.1 h
      have hlocation : (value? r.headers "Location").bind Text.ofUtf8? = some reference :=
        Option.bind_eq_some_iff.2 ⟨bytes, hbytes, href⟩
      refine Url.server_of_join (hlocal reference hlocation) ?_
      exact toOption_eq_some_iff.1 (Option.filter_eq_some_iff.1 h).1
    · cases h

theorem server_of_getElem?_run (hlocal : ∀ reply ∈ replies, reply.IsLocal)
    (h : ((Exchange.asking s more).run replies).1[n]? = some s') :
    s'.url.server = s.url.server := by
  induction n generalizing s' with
  | zero =>
    rw [getElem?_run_zero] at h
    cases h
    rfl
  | succ n ih =>
    obtain ⟨-, url, ⟨x, reply, hx, hreply, hleads, -⟩, rfl⟩ := getElem?_run_succ.1 h
    exact (server_of_leadsTo (hlocal reply (List.mem_of_getElem? hreply)) hleads).trans (ih hx)

theorem run_confined_iff :
    (∀ s' ∈ ((Exchange.asking s more).run replies).1, s'.url.server = s.url.server) ↔
      ∀ n url, n < more → SendsOn ((Exchange.asking s more).run replies).1 replies n url →
        url.server = s.url.server := by
  constructor
  · intro h n url hn hsends
    exact h _ (List.mem_of_getElem? (getElem?_run_succ.2 ⟨hn, url, hsends, rfl⟩))
  · intro h s' hs'
    obtain ⟨n, hn⟩ := List.getElem?_of_mem hs'
    cases n with
    | zero =>
      rw [getElem?_run_zero] at hn
      cases hn
      rfl
    | succ n =>
      obtain ⟨hmore, url, hsends, rfl⟩ := getElem?_run_succ.1 hn
      exact h n url hmore hsends

/-! ## Lookups -/

/-- A lookup ends with an error before it sends anything, or goes through the exchange that begins
with the request for its URL. -/
theorem lookup_cases (c : Client) (fired : Bool) (q : Lookup.Request) (replies : List Reply) :
    (∃ e, (c.lookup fired q replies).sent = [] ∧
      (c.lookup fired q replies).result = some (.error e)) ∨
    ∃ url, c.serviceUrl q = .ok url ∧ c.token.all Client.isHeaderText = true ∧
      isAskable url.scheme = true ∧
      let run := (Exchange.asking { url := url.requested, token := c.token }
        (requestLimit - 1)).run replies
      (c.lookup fired q replies).sent = run.1 ∧
        (c.lookup fired q replies).result = Client.result? run.2 := by
  unfold Client.lookup
  split
  · next e _ => exact .inl ⟨e, rfl, rfl⟩
  · next url hurl =>
    split
    · exact .inl ⟨.cancelled, rfl, rfl⟩
    · obtain ⟨e, hstart⟩ | ⟨htoken, hscheme, hstart⟩ := startAt_cases c url
      · rw [hstart]
        exact .inl ⟨e, run_ended _ replies, by cases replies <;> rfl⟩
      · rw [hstart]
        exact .inr ⟨url, hurl, htoken, hscheme, rfl, rfl⟩

/-- A lookup sends nothing, or goes on from a request for its URL. -/
theorem lookup_sent_eq (c : Client) (fired : Bool) (q : Lookup.Request) (replies : List Reply) :
    (c.lookup fired q replies).sent = [] ∨ ∃ url, c.serviceUrl q = .ok url ∧
      (c.lookup fired q replies).sent = ((Exchange.asking { url := url.requested, token := c.token }
        (requestLimit - 1)).run replies).1 := by
  obtain ⟨e, hsent, -⟩ | ⟨url, hurl, -, -, hsent, -⟩ := lookup_cases c fired q replies
  · exact .inl hsent
  · exact .inr ⟨url, hurl, hsent⟩

theorem token_of_ofSettings (hclient : Client.ofSettings settings = .ok c) :
    c.token = settings.token.filter (· ≠ "") :=
  (ofSettings_eq_ok_iff.1 hclient).2.1

/-- **Where a lookup takes the token.** Each request of a lookup carries it: the first goes to the
server of the settings and each other one to where the reply before it leads, whatever server that
is. So the token stays with the server of the settings exactly if every redirect that is followed
leads there, as those do that name no server. -/
theorem lookup_confined_iff (hclient : Client.ofSettings settings = .ok c)
    (htoken : settings.token = some token) (hne : token ≠ "") (fired : Bool) (q : Lookup.Request)
    (replies : List Reply) :
    let sent := (c.lookup fired q replies).sent
    (∀ s ∈ sent, (tokenHeader, token) ∈ s.headers) ∧
    (∀ s, sent[0]? = some s → s.url.server = c.base.server) ∧
    (∀ n s, sent[n + 1]? = some s ↔ n + 1 < requestLimit ∧
      ∃ url, SendsOn sent replies n url ∧ s = { url := url.requested, token := some token }) ∧
    ((∀ s ∈ sent, s.url.server = c.base.server) ↔
      ∀ n url, n + 1 < requestLimit → SendsOn sent replies n url →
        url.server = c.base.server) ∧
    ((∀ reply ∈ replies, reply.IsLocal) → ∀ s ∈ sent, s.url.server = c.base.server) := by
  intro sent
  have hctoken : c.token = some token := by
    rw [token_of_ofSettings hclient, htoken]
    exact Option.filter_eq_some_iff.2 ⟨rfl, decide_eq_true hne⟩
  obtain hsent | ⟨url, hurl, hsent⟩ := lookup_sent_eq c fired q replies
  · have hsent : sent = [] := hsent
    rw [hsent]
    simp [SendsOn]
  · have hsent : sent = ((Exchange.asking { url := url.requested, token := some token }
        (requestLimit - 1)).run replies).1 := hctoken ▸ hsent
    rw [hsent, ← server_requested_of_serviceUrl hurl]
    refine ⟨fun s hs => ?_, fun s hs => ?_, fun n s => ?_, ?_, fun hlocal s hs => ?_⟩
    · exact token_mem_headers_iff.2 (token_of_mem_run hs)
    · rw [getElem?_run_zero] at hs
      cases hs
      rfl
    · rw [getElem?_run_succ, Nat.lt_sub_iff_add_lt]
    · rw [run_confined_iff]
      simp only [Nat.lt_sub_iff_add_lt]
    · obtain ⟨n, hn⟩ := List.getElem?_of_mem hs
      exact server_of_getElem?_run hlocal hn

end

/-- The client for the usual settings with a token, and with any datacenter. -/
theorem ofSettings_token (datacenter : Option String) (hne : token ≠ "") :
    Client.ofSettings { token := some token, datacenter } =
      .ok { usual with token := some token } := by
  have hbase : Url.parse "http://127.0.0.1:8500" = .ok usual.base := by rfl
  have htoken : (some token).filter (· ≠ "") = some token :=
    Option.filter_eq_some_iff.2 ⟨rfl, decide_eq_true hne⟩
  exact ofSettings_eq_ok_iff.2 ⟨hbase, htoken.symm, rfl⟩

/-- Two redirects to a path. -/
theorem lookup_confined_iff_path :
    let settings : ServerSettings := { token := some "secret" }
    let moved : Reply := .response {
      code := 307, headers := [{ name := "Location", value := Text.utf8 "/other" }]
      body := some [] }
    let c : Client := { usual with token := some "secret" }
    let sent := (c.lookup false { name := "web" } [moved, moved]).sent
    Client.ofSettings settings = .ok c ∧ settings.token = some "secret" ∧ "secret" ≠ "" ∧
      sent.length = 3 ∧
      ∀ s ∈ sent, (tokenHeader, "secret") ∈ s.headers ∧ s.url.server = c.base.server := by
  intro settings moved c sent
  have hclient : Client.ofSettings settings = .ok c := ofSettings_token none (by decide)
  have hlocal : moved.IsLocal := by
    intro reference href
    have hother : some "/other" = some reference := href
    cases hother
    refine ⟨by decide, fun a b rest h => ?_⟩
    have hchars : ['/', 'o', 't', 'h', 'e', 'r'] = a :: b :: rest := h
    cases hchars
    decide
  obtain ⟨htoken, -, -, -, hserver⟩ :=
    lookup_confined_iff hclient rfl (by decide) false { name := "web" } [moved, moved]
  refine ⟨hclient, rfl, by decide, by decide, fun s hs => ⟨htoken s hs, hserver ?_ s hs⟩⟩
  simpa using hlocal

/-- A redirect is followed to an encrypted connection, and not to a host that no request can be made
for. -/
example :
    let c : Client := { usual with token := some "secret" }
    let moved (place : String) : Reply := .response {
      code := 302, headers := [{ name := "Location", value := Text.utf8 place }], body := none }
    (c.lookup false { name := "web" } [moved "https://other/", moved "http://a\x7b\x7d/"]).sent.map
      (fun s => (s.url.server.scheme, s.token)) =
        [("http", some "secret"), ("https", some "secret")] := by
  decide

/-- A redirect to another host takes the token there. -/
theorem fetch_redirect_discloses_token :
    let settings : ServerSettings := { token := some "secret" }
    let moved : Reply := .response {
      code := 302, headers := [{ name := "Location", value := Text.utf8 "http://other/" }]
      body := some [] }
    let c : Client := { usual with token := some "secret" }
    Client.ofSettings settings = .ok c ∧
      ∃ s ∈ (c.fetch { name := "web" } default false {} [moved]).sent,
        (tokenHeader, "secret") ∈ s.headers ∧ s.url.server ≠ c.base.server := by
  intro settings moved c
  have hsecond : (c.fetch { name := "web" } default false {} [moved]).sent[1]? = some {
      url := { scheme := "http", host := some (.domain "other"), path := .segments [""] }
      token := some "secret" } := by decide
  exact ⟨ofSettings_token none (by decide), _, List.mem_of_getElem? hsecond,
    token_mem_headers_iff.2 rfl, by decide⟩

end Http

end Discovery
