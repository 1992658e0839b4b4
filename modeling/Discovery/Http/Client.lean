import Discovery.Clock
import Discovery.Http.Exchange
import Discovery.Lookup.Fetch
import Discovery.Settings

/-!
# The catalog of a server

A client asks a server for the instances of a service. What is asked is in the path and in the
parameters of a URL. A request that may wait at the server is given the time of the wait, a
sixteenth of it by which servers spread the ends of waits, and some headroom.
-/

namespace Discovery.Http

/-- A client of a server. -/
structure Client where
  base : Url
  /-- Sent with each request. -/
  token : Option String
  /-- How long a request may take beyond its wait. -/
  headroom : Duration
  deriving Repr

namespace Client

variable [Tables]

/-- The client for some settings. An empty token counts as none. -/
def ofSettings (s : ServerSettings) : Except Lookup.ClientError Client :=
  match Url.parse s.address with
  | .error e => .error (.url (s.address ++ ": " ++ e.message))
  | .ok base => .ok {
      base
      token := s.token.filter (· ≠ "")
      headroom := .ofSeconds s.headroom }

/-! ## What is asked -/

/-- The path under which a server lists services. -/
def servicePath : List String := ["v1", "catalog", "service"]

/-- A wait as a server reads it: in seconds, or in milliseconds when it has some. -/
def waitText (d : Duration) : String :=
  if d.subMillis = 0 then Text.decimal d.seconds ++ "s" else Text.decimal d.toMillis ++ "ms"

/-- A parameter, if it has a value. -/
def parameter (name : String) (value : Option String) : List (String × String) :=
  (value.map fun v => (name, v)).toList

/-- The parameters of a request in their order. Texts that are empty are left out, other than the
tag. -/
def parameters (q : Lookup.Request) : List (String × String) :=
  let o := q.options
  parameter "tag" q.tag ++
    parameter "dc" (o.datacenter.filter (· ≠ "")) ++
    parameter "near" (o.near.filter (· ≠ "")) ++
    parameter "ns" (o.ns.filter (· ≠ "")) ++
    parameter "partition" (o.partition.filter (· ≠ "")) ++
    parameter "index" (o.waitIndex.map Text.decimal) ++
    parameter "wait" (o.waitTime.map waitText) ++
    parameter "stale" (if o.allowStale then some "" else none)

/-- The URL that a request is made to. -/
def serviceUrl (c : Client) (q : Lookup.Request) : Except Lookup.ClientError Url :=
  let segments := Url.pushSegment (Url.isSpecial c.base.scheme) servicePath q.name.toList
  match c.base.atPath? segments with
  | .error e => .error (.url e.message)
  | .ok url => .ok { url with query := Url.queryOf (parameters q) }

/-! ## How long it may take -/

/-- The time for a request with a wait, unless it is too long to be told. -/
def requestTimeout (c : Client) (wait : Duration) : Option Duration :=
  (wait.add? wait.sixteenth).bind (·.add? c.headroom)

/-- The time for a request, if it is limited. -/
def timeout? (c : Client) (q : Lookup.Request) : Option Duration :=
  q.options.waitTime.bind c.requestTimeout

/-! ## Lookups -/

/-- Whether a text may be the value of a header: it has no control character but tabs. -/
def isHeaderText (s : String) : Bool :=
  s.toList.all fun c => (0x20 ≤ c.toNat && c.toNat ≠ 0x7F) || c = '\t'

/-- Begins the exchange for a URL. A token that can be in no header lets nothing be sent. -/
def startAt (c : Client) (url : Url) : Exchange :=
  if c.token.all isHeaderText then Exchange.start c.token url
  else .ended (.error (.http .builder))

/-- The course of a lookup. -/
structure Course where
  sent : List Sent
  /-- What is known at the end, or nothing if the server has yet to reply. -/
  result : Option (Except Lookup.ClientError Lookup.Found)
  events : List Event := []

/-- What an exchange has found out. -/
def result? : Exchange → Option (Except Lookup.ClientError Lookup.Found)
  | .asking .. => none
  | .ended r => some (r.bind Response.found)

/-- Looks up what is asked, when the server gives these replies one after another. A token that has
fired stops the lookup before anything is sent. -/
def lookup (c : Client) (fired : Bool) (q : Lookup.Request) (replies : List Reply) : Course :=
  match c.serviceUrl q with
  | .error e => { sent := [], result := some (.error e) }
  | .ok url =>
    if fired then { sent := [], result := some (.error .cancelled) }
    else
      let (sent, last) := (c.startAt url).run replies
      { sent, result := result? last, events := [.requesting url.text] }

structure FetchCourse where
  sent : List Sent
  /-- What is known at the end, or nothing if the server has yet to reply. -/
  result : Option (Except Lookup.FetchError Lookup.Found)
  events : List Event

/-- Fetches a query, when the server gives these replies one after another and nobody cancels the
query meanwhile. -/
def fetch (c : Client) (q : Query) (stop : Token) (fired : Bool) (options : Lookup.Options)
    (replies : List Reply) : FetchCourse :=
  let course (request : Lookup.Request) : Course := c.lookup false request replies
  let run := Lookup.fetch q stop fired options fun request =>
    [{ outcome := (course request).result }]
  { sent := run.calls.flatMap fun request => (course request).sent
    result := run.progress.result
    events :=
      (if fired then [] else [.fetching q options.waitIndex]) ++
        run.calls.flatMap (fun request => (course request).events) ++
        (run.progress.result.map (Lookup.report q)).getD [] }

/-- When and how a request ends whose server never replies, if it ever does: the time for it runs
out, or somebody cancels it at a tick. At the same tick the cancellation wins. -/
def silence (timeout : Option Duration) (cancelAt : Option Nat) :
    Option (Nat × Lookup.ClientError) :=
  match cancelAt, timeout.map (Duration.deadline 0) with
  | none, none => none
  | some t, none => some (t, .cancelled)
  | none, some limit => some (limit, .http .timeout)
  | some t, some limit => if t ≤ limit then some (t, .cancelled) else some (limit, .http .timeout)

end Client

end Discovery.Http
