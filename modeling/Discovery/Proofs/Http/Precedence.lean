import Discovery.Proofs.Http.Parameters
import Discovery.Proofs.Http.Redirects
import Discovery.Proofs.Toml.Range

/-!
# Precedence of settings

The datacenter of a lookup may be named by its query, by the environment and by the settings, its
token by the latter two, and each of them may be left empty. The first one that is not empty counts
(`fetch_asks_first_given`), so that an empty text never hides one behind it.
-/

namespace Discovery

/-- The first of some texts that is not empty. -/
def firstGiven (texts : List (Option String)) : Option String :=
  texts.findSome? fun text => text.filter (· ≠ "")

theorem firstGiven_cons (text : Option String) (texts : List (Option String)) :
    firstGiven (text :: texts) = (text.filter (· ≠ "")).or (firstGiven texts) := by
  rw [firstGiven, List.findSome?_cons]
  cases text.filter (· ≠ "") <;> rfl

theorem firstGiven_singleton (text : Option String) :
    firstGiven [text] = text.filter (· ≠ "") := by
  rw [firstGiven_cons]
  exact Option.or_none

/-- Empty texts may be left out before or after the first one is taken. -/
theorem filter_or_filter (text other : Option String) :
    ((text.filter (· ≠ "")).or other).filter (· ≠ "") =
      (text.filter (· ≠ "")).or (other.filter (· ≠ "")) := by
  cases htext : text.filter (· ≠ "") with
  | none => rfl
  | some s =>
    have hs : s ≠ "" := by simpa using (Option.filter_eq_some_iff.1 htext).2
    exact Option.filter_eq_some_iff.2 ⟨rfl, decide_eq_true hs⟩

theorem Query.given?_eq_filter (part : String) : given? part = (some part).filter (· ≠ "") := by
  by_cases hpart : part = "" <;> simp [given?, hpart, Option.filter]

theorem Query.given?_eq_firstGiven (part : String) : given? part = firstGiven [some part] := by
  rw [firstGiven_singleton, given?_eq_filter]

namespace Settings

/-- A variable that is set to a text. -/
def textOf? (env : Environment) (name : String) : Option String := (env name).bind Text.ofUtf8?

/-- Settings before the environment is looked at: the usual ones, or those of a file. -/
inductive Given : Settings → Prop where
  | usual : Given {}
  | loaded {path : String} {content : Option (List UInt8)} {s : Settings}
    (h : load path content = .ok s) : Given s

theorem Given.wait_lt {s : Settings} (h : s.Given) : s.lookup.wait < secondsBound := by
  cases h with
  | usual => decide
  | loaded h => exact Nat.lt_trans (numbers_lt_of_load h).2 (by decide)

/-- The environment goes before the settings. -/
theorem filter_override?_or (env : Environment) (name : String) (text : Option String) :
    ((override? env name).or text).filter (· ≠ "") = firstGiven [textOf? env name, text] := by
  rw [firstGiven_cons, firstGiven_singleton]
  exact filter_or_filter (textOf? env name) text

end Settings

namespace Http

open Settings (textOf?)
open Url (formPairs)

variable {c : Client} {q : Lookup.Request} {url : Url} {settings : Settings} {query : Query}
variable {env : Settings.Environment} {stop : Token} {fired : Bool} {options : Lookup.Options}
variable {replies : List Reply} {first : Sent} {later : List Sent}

/-! ## Parameters -/

/-- What a fetch asks for besides a service, by what may say it: the query, then the environment,
then the settings. -/
def said (settings : Settings) (env : Settings.Environment) (query : Query) :
    List (String × String) :=
  [("tag", firstGiven [some query.tag]),
    ("dc", firstGiven [some query.datacenter, textOf? env "CONSUL_DATACENTER",
      settings.server.datacenter]),
    ("near", firstGiven [some query.near]),
    ("ns", firstGiven [some query.ns]),
    ("partition", firstGiven [some query.partition]),
    ("wait", some (Text.decimal settings.lookup.wait ++ "s")),
    ("stale", if settings.lookup.allowStale then some "" else none)].filterMap
      fun p => p.2.map fun value => (p.1, value)

theorem waitText_ofSeconds {n : Nat} (h : n < secondsBound) :
    Client.waitText (.ofSeconds n) = Text.decimal n ++ "s" := by
  have hparts : Duration.ofSeconds n = ⟨n, 0, h, by decide⟩ := dif_pos h
  rw [hparts]
  exact if_pos (Nat.zero_div _)

/-- What a query gives goes before what the caller does. -/
theorem filter_given?_or (part : String) (other : Option String) :
    ((Query.given? part).or other).filter (· ≠ "") =
      (Query.given? part).or (other.filter (· ≠ "")) := by
  rw [Query.given?_eq_filter, filter_or_filter]

theorem asked_requestFor (hwait : settings.lookup.wait < secondsBound)
    (env : Settings.Environment) (query : Query) (stop : Token) :
    asked (Lookup.requestFor query stop (settings.applyEnvironment env).lookupOptions) =
      said settings env query := by
  have hdatacenter : ((Query.given? query.datacenter).or
      ((Settings.override? env "CONSUL_DATACENTER").or settings.server.datacenter)).filter
        (· ≠ "") = firstGiven [some query.datacenter, textOf? env "CONSUL_DATACENTER",
          settings.server.datacenter] := by
    rw [filter_given?_or, Settings.filter_override?_or, firstGiven_cons (some _),
      Query.given?_eq_filter]
  have hpart (part : String) :
      ((Query.given? part).or none).filter (· ≠ "") = firstGiven [some part] := by
    rw [filter_given?_or, ← Query.given?_eq_firstGiven]
    exact Option.or_none
  simp only [asked, said, Lookup.requestFor, Lookup.merge, Settings.lookupOptions,
    Settings.applyEnvironment]
  rw [hdatacenter, hpart, hpart, hpart, Query.tag?, Query.given?_eq_firstGiven, Option.map_some,
    waitText_ofSeconds hwait]
  -- a fetch waits for no index, so that parameter is left out
  simp only [filterMap_parameter]
  rfl

/-! ## Requests -/

/-- What a lookup sends first is the request for its URL. -/
theorem first_of_lookup [Tables] (h : (c.lookup fired q replies).sent = first :: later) :
    ∃ url, c.serviceUrl q = .ok url ∧ first = { url := url.requested, token := c.token } := by
  obtain hsent | ⟨url, hurl, hsent⟩ := lookup_sent_eq c fired q replies
  · rw [hsent] at h
    cases h
  · obtain ⟨rest, hrest⟩ :=
      run_asking { url := url.requested, token := c.token } (requestLimit - 1) replies
    rw [hsent, hrest] at h
    cases h
    exact ⟨url, hurl, rfl⟩

theorem first_of_fetch [Tables] (h : (c.fetch query stop fired options replies).sent = first :: later) :
    ∃ url, c.serviceUrl (Lookup.requestFor query stop options) = .ok url ∧
      first = { url := url.requested, token := c.token } := by
  cases fired with
  | true => cases h
  | false =>
    rw [fetch_sent] at h
    exact first_of_lookup h

/-- What a server reads of a lookup, behind the question mark. -/
theorem shownQuery_target (hurl : c.serviceUrl q = .ok url) :
    formPairs ((shownQuery (target url.requested)).getD []) =
      (asked q).map fun p => (Text.utf8 p.1, Text.utf8 p.2) := by
  have hshown : shownQuery (target url.requested) = url.query.map String.toList :=
    shownQuery_append_marked (serviceUrl_path_unmarked hurl) url.query
  rw [hshown, (serviceUrl_query hurl).1]
  exact formPairs_queryOf (asked q)

/-- What a server reads of the request that a lookup begins with. -/
theorem formPairs_of_lookup [Tables] (h : (c.lookup fired q replies).sent = first :: later) :
    formPairs ((shownQuery (target first.url)).getD []) =
      (asked q).map fun p => (Text.utf8 p.1, Text.utf8 p.2) := by
  obtain ⟨url, hurl, rfl⟩ := first_of_lookup h
  exact shownQuery_target hurl

/-- The values that a server reads for a parameter of a request. -/
def readValues (s : Sent) (name : String) : List (List UInt8) :=
  ((formPairs ((shownQuery (target s.url)).getD [])).filter fun p => p.1 = Text.utf8 name).map
    Prod.snd

theorem mem_readValues_iff {s : Sent} {name : String} {value : List UInt8} :
    value ∈ readValues s name ↔
      (Text.utf8 name, value) ∈ formPairs ((shownQuery (target s.url)).getD []) := by
  simp [readValues]

/-- A server reads a parameter as it is asked. -/
theorem readValues_of_lookup [Tables] {name : String} {value : Option String}
    (hsent : (c.lookup fired q replies).sent = first :: later)
    (hasked : (Client.parameters q).filter (fun p => p.1 = name) = Client.parameter name value) :
    readValues first name = (value.map Text.utf8).toList := by
  have hname (p : String × String) : Text.utf8 p.1 = Text.utf8 name ↔ p.1 = name :=
    ⟨Text.utf8_injective, congrArg Text.utf8⟩
  rw [readValues, formPairs_of_lookup hsent, List.filter_map, List.map_map]
  simp only [Function.comp_def, hname]
  rw [← parameters_eq_asked, hasked]
  cases value <;> rfl

theorem token_of_applyEnvironment [Tables]
    (hclient : Client.ofSettings (settings.applyEnvironment env).server = .ok c) :
    c.token = firstGiven [textOf? env "CONSUL_HTTP_TOKEN", settings.server.token] := by
  rw [token_of_ofSettings hclient]
  exact Settings.filter_override?_or env "CONSUL_HTTP_TOKEN" settings.server.token

theorem given?_or (part : String) (other : Option String) :
    (Query.given? part).or other = if part = "" then other else some part := by
  unfold Query.given?
  split <;> rfl

theorem mem_calls_iff {client : Lookup.Request → List Lookup.Poll} {request : Lookup.Request} :
    request ∈ (Lookup.fetch query stop fired options client).calls ↔
      fired = false ∧ request = Lookup.requestFor query stop options := by
  cases fired <;> simp [Lookup.fetch]

/-- **Precedence of settings.** A fetch with the options of the settings first sends a request whose
parameters and token are each the first text that is not empty among those of the query, of the
environment and of the settings; where there is none, none is sent. Given any other options, a fetch
hands its client what the query says, what the options say where the query says nothing, and the
query's stop signal. -/
theorem fetch_asks_first_given [Tables] (hgiven : settings.Given) (env : Settings.Environment)
    (query : Query) (stop : Token) (fired : Bool) :
    let decided := settings.applyEnvironment env
    (∀ c replies first later, Client.ofSettings decided.server = .ok c →
      (c.fetch query stop fired decided.lookupOptions replies).sent = first :: later →
        formPairs ((shownQuery (target first.url)).getD []) =
          (said settings env query).map (fun p => (Text.utf8 p.1, Text.utf8 p.2)) ∧
        ∀ token, (tokenHeader, token) ∈ first.headers ↔
          firstGiven [textOf? env "CONSUL_HTTP_TOKEN", settings.server.token] = some token) ∧
    ∀ options client request, request ∈ (Lookup.fetch query stop fired options client).calls ↔
      fired = false ∧ request = {
        name := query.name
        tag := if query.tag = "" then none else some query.tag
        options := { options with
          datacenter := if query.datacenter = "" then options.datacenter else some query.datacenter
          near := if query.near = "" then options.near else some query.near
          ns := if query.ns = "" then options.ns else some query.ns
          partition := if query.partition = "" then options.partition else some query.partition
          cancel := some stop } } := by
  intro decided
  refine ⟨fun c replies first later hclient hsent => ?_, fun options client request => ?_⟩
  · obtain ⟨url, hurl, rfl⟩ := first_of_fetch hsent
    refine ⟨?_, fun token => ?_⟩
    · rw [shownQuery_target hurl, asked_requestFor hgiven.wait_lt]
    · rw [token_mem_headers_iff, token_of_applyEnvironment hclient]
  · rw [mem_calls_iff, Lookup.requestFor, Lookup.merge, given?_or, given?_or, given?_or, given?_or]
    rfl

/-- A file with a datacenter and a token, under an environment with another datacenter and an empty
token. -/
theorem fetch_asks_first_given_loaded :
    let content := Text.utf8
      "[catalog]\ndatacenter = \"west\"\ntoken = \"secret\"\n[query]\nwait_secs = 30\n"
    let settings : Settings := {
      server := { datacenter := some "west", token := some "secret" }, lookup := { wait := 30 } }
    let env : Settings.Environment := fun name =>
      if name = "CONSUL_DATACENTER" then some (Text.utf8 "east")
      else if name = "CONSUL_HTTP_TOKEN" then some [] else none
    let query : Query := { name := "web", near := "node" }
    let c : Client := { usual with token := some "secret" }
    let options := (settings.applyEnvironment env).lookupOptions
    Settings.load "consul.toml" (some content) = .ok settings ∧
      Client.ofSettings (settings.applyEnvironment env).server = .ok c ∧
      ∃ first later, (c.fetch query default false options []).sent = first :: later ∧
        formPairs ((shownQuery (target first.url)).getD []) =
          [("dc", "east"), ("near", "node"), ("wait", "30s")].map
            (fun p => (Text.utf8 p.1, Text.utf8 p.2)) ∧
        (tokenHeader, "secret") ∈ first.headers := by
  intro content settings env query c options
  have hload : Settings.load "consul.toml" (some content) = .ok settings := by rfl
  have hserver : (settings.applyEnvironment env).server =
      { token := some "secret", datacenter := some "east" } := by decide
  have hclient : Client.ofSettings (settings.applyEnvironment env).server = .ok c := by
    rw [hserver]
    exact ofSettings_token (some "east") (by decide)
  obtain ⟨first, later, hsent, -⟩ := lookup_sent (c := c) rfl rfl rfl
    (Lookup.requestFor query default options) []
  have hsent : (c.fetch query default false options []).sent = first :: later :=
    (fetch_sent c query default options []).trans hsent
  have hsaid : said settings env query =
      [("dc", "east"), ("near", "node"), ("wait", "30s")] := by decide
  obtain ⟨hasks, htoken⟩ := (fetch_asks_first_given (.loaded hload) env query default false).1
    c [] first later hclient hsent
  exact ⟨hload, hclient, first, later, hsent, hsaid ▸ hasks, (htoken "secret").2 (by decide)⟩

end Http

end Discovery
