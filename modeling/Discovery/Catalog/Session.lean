import Discovery.Catalog.Watch
import Discovery.Query.Parser

/-!
# Sessions with a catalog

A session drives one catalog by commands that name queries, tokens and tasks. Tasks are lookups
that go on while other commands are given. After each command every lookup that can end does.
-/

namespace Discovery

/-- A query that a session has under a name, with its stop token. -/
structure Session.Entry where
  query : Query
  stop : Token

structure Session where
  watch : Watch := {}
  queries : List (String × Session.Entry) := []
  tokens : List (String × Token) := []
  serial : Nat := 0

namespace Session

/-- What a lookup is to be made for. -/
inductive Subject where
  | query (name : String)
  | service (name : String) (tag : Option String)

/-- A lookup as a command describes it: the token is given by its name. -/
structure Inquiry where
  subject : Subject
  options : Lookup.Options := {}
  token : Option String := none

/-- Commands that are done at once. -/
inductive Act where
  | register (service : Service) (ns partition : String)
  | deregister (datacenter node serviceId : String)
  | index
  | query (name text : String)
  | cancel (name : String)
  | cancelToken (name : String)
  | unknown

inductive Command where
  | act (a : Act)
  /-- Several acts, none of which lets a lookup go on before the last is done. -/
  | batch (acts : List Act)
  /-- A lookup whose end is waited for. -/
  | lookup (i : Inquiry)
  /-- A lookup that goes on under a name. -/
  | start (task : String) (i : Inquiry)
  /-- Waits for the end of a task. -/
  | await (task : String)
  | advance (ticks : Nat)

inductive Reply where
  | index (n : Nat)
  | removed (removed : Bool) (index : Nat)
  | query (q : Query) (cancelled : Bool)
  | malformed (e : Query.Error)
  | noSuchQuery
  | tokenFired
  | unknown

inductive Response where
  | act (r : Reply)
  | batch (rs : List Reply)
  | outcome (o : Outcome) (now : Nat)
  | started (task : String)
  | noSuchTask
  | now (tick : Nat)

/-- The answer to a command: the reply, the tasks that ended besides the one waited for, and the
log. -/
structure Answer where
  response : Response
  finished : List (String × Outcome) := []
  events : List Event := []

/-- A token that is not in use. -/
def freshToken (s : Session) : Token × Session := (⟨s.serial⟩, { s with serial := s.serial + 1 })

/-- The token with a name, which is made if there is none. -/
def tokenNamed (s : Session) (name : String) : Token × Session :=
  match s.tokens.lookup name with
  | some t => (t, s)
  | none =>
    let (t, s) := s.freshToken
    (t, { s with tokens := (name, t) :: s.tokens })

def act (s : Session) : Act → Session × Reply × List Event
  | .register service ns partition =>
    let (watch, events) := s.watch.register service ns partition
    ({ s with watch }, .index watch.catalog.index, events)
  | .deregister datacenter node serviceId =>
    let (watch, removed) := s.watch.deregister datacenter node serviceId
    ({ s with watch }, .removed removed watch.catalog.index, [])
  | .index => (s, .index s.watch.catalog.index, [])
  | .query name text =>
    match Query.parse text with
    | .error e => (s, .malformed e, [])
    | .ok query =>
      let (stop, s) := s.freshToken
      ({ s with queries := (name, { query, stop }) :: s.queries }, .query query false, [])
  | .cancel name =>
    match s.queries.lookup name with
    | none => (s, .noSuchQuery, [])
    | some e =>
      let (watch, events) := s.watch.cancel e.query e.stop
      ({ s with watch }, .query e.query true, events)
  | .cancelToken name =>
    let (t, s) := s.tokenNamed name
    ({ s with watch := s.watch.fire t }, .tokenFired, [])
  | .unknown => (s, .unknown, [])

def acts (s : Session) : List Act → Session × List Reply × List Event
  | [] => (s, [], [])
  | a :: as =>
    let (s, reply, events) := s.act a
    let (s, replies, more) := s.acts as
    (s, reply :: replies, events ++ more)

/-- The options of an inquiry, with its token among them. -/
def optionsFor (s : Session) (i : Inquiry) : Lookup.Options × Session :=
  match i.token with
  | none => (i.options, s)
  | some name =>
    let (t, s) := s.tokenNamed name
    ({ i.options with cancel := some t }, s)

/-- Begins a lookup for a subject; there may be no query of the name. -/
def enter (s : Session) (task : Option String) (options : Lookup.Options) :
    Subject → Option (Session × List Event)
  | .query name => do
    let e ← s.queries.lookup name
    let (watch, events) := s.watch.fetch task e.query e.stop options
    return ({ s with watch }, events)
  | .service name tag => some ({ s with watch := s.watch.lookup task { name, tag, options } }, [])

def begin (s : Session) (task : Option String) (i : Inquiry) : Option (Session × List Event) :=
  let (options, s) := s.optionsFor i
  s.enter task options i.subject

/-- Ends what can end, and gives the log of it. -/
def settle (s : Session) : Session × List Watch.Completion × List Event :=
  let (watch, done) := s.watch.settle
  ({ s with watch }, done, done.flatMap fun c => c.pending.report c.outcome)

/-- The tasks among some lookups that ended, but not the one waited for. -/
def tasksAmong (awaited : Option String) (done : List Watch.Completion) : List (String × Outcome) :=
  done.filterMap fun c =>
    match c.pending.task with
    | none => none
    | some t => if awaited = some t then none else some (t, c.outcome)

/-- Waits for the lookup under a name, or for the one that has none, by letting time pass until its
deadline. Without such a lookup there is nothing to wait for. -/
def await (s : Session) (task : Option String) (before : List Event) : Session × Answer :=
  let (s, early, events) := s.settle
  let deadline := (s.watch.pending.find? fun p => p.task == task).map Pending.deadline
  let (s, late, more) := { s with watch := s.watch.advanceTo (deadline.getD s.watch.now) }.settle
  let done := early ++ late
  match done.find? fun c => c.pending.task == task with
  | none => (s, { response := .noSuchTask })
  | some c => (s, {
      response := .outcome c.outcome s.watch.now
      finished := tasksAmong task done
      events := before ++ events ++ more })

def step (s : Session) (c : Command) : Session × Answer :=
  let ending (s : Session) (response : Response) (before : List Event) : Session × Answer :=
    let (s, done, events) := s.settle
    (s, { response, finished := tasksAmong none done, events := before ++ events })
  match c with
  | .act a =>
    let (s, reply, events) := s.act a
    ending s (.act reply) events
  | .batch as =>
    let (s, replies, events) := s.acts as
    ending s (.batch replies) events
  | .lookup i =>
    match s.begin none i with
    | none => (s, { response := .act .noSuchQuery })
    | some (s, events) => s.await none events
  | .start task i =>
    match s.begin (some task) i with
    | none => (s, { response := .act .noSuchQuery })
    | some (s, events) => ending s (.started task) events
  | .await task => s.await (some task) []
  | .advance ticks =>
    let s := { s with watch := s.watch.advanceTo (s.watch.now + ticks) }
    ending s (.now s.watch.now) []

def run (s : Session) : List Command → Session × List Answer
  | [] => (s, [])
  | c :: cs =>
    let (s, a) := s.step c
    let (s, as) := s.run cs
    (s, a :: as)

/-- The names of the tasks that have not ended. -/
def unfinished (s : Session) : List String := s.watch.pending.filterMap Pending.task

end Session

end Discovery
